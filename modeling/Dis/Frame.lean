import Dis.Pdu.Catalog

/-! The registry of PDU kinds: at most one kind for a type and family. -/

namespace Dis

/-- Kinds in the order of registration; no two share a key. -/
structure Registry where
  kinds : List PduKind

namespace Registry

def empty : Registry := ⟨[]⟩

-- The registry that a program starts with.
def standard : Registry := ⟨PduKind.catalog⟩

def lookup (registry : Registry) (key : PduKey) : Option PduKind :=
  registry.kinds.find? fun kind => kind.key = key

/-- Makes a kind the reader of its type and family. A key that another kind owns
is refused, and so is a header that does not have the shape of the family. -/
def register (kind : PduKind) (registry : Registry) : Except Error Unit × Registry :=
  match registry.lookup kind.key with
  | some owner =>
    if owner.token ≠ kind.token then
      (.error (.alreadyRegistered kind.pduType kind.family owner.name), registry)
    else if kind.header = .ofFamily kind.family then (.ok (), registry)
    else (.error (.wrongHeader kind.name kind.family), registry)
  | none =>
    if kind.header = .ofFamily kind.family then (.ok (), ⟨registry.kinds ++ [kind]⟩)
    else (.error (.wrongHeader kind.name kind.family), registry)

/-- Removes a kind if it is the one that owns its key. -/
def unregister (kind : PduKind) (registry : Registry) : Registry :=
  match registry.lookup kind.key with
  | some owner =>
    if owner.token = kind.token then ⟨registry.kinds.filter fun other => other.key ≠ kind.key⟩
    else registry
  | none => registry

def listing (registry : Registry) : List (PduKey × String) :=
  (registry.kinds.map fun kind => (kind.key, kind.name)).mergeSort fun a b =>
    a.1.pduType < b.1.pduType || (a.1.pduType = b.1.pduType && a.1.family ≤ b.1.family)

end Registry
end Dis

/-! Frames: a PDU that takes up all of its octets, as many as its header declares. -/

namespace Dis.Frame

def checkLength (header : Header) : Except Error Unit :=
  if header.length < pduHeaderSize then .error (.lengthBelowHeader header.length) else .ok ()

/-- Reads the body of a kind; it must take up all the octets. -/
def readBody (kind : PduKind) (header : Header) (body : Octets) : Except Error Pdu :=
  match kind.body.read body with
  | .error fault _ => .error (.read fault)
  | .ok value [] => .ok (.new kind header value)
  | .ok _ rest => .error (.bodyUnread kind.name header.length rest.length body.length)

/-- The header of a frame whose declared length is the length it has. -/
def header (data : Octets) : Except Error Header := do
  let header ← Header.peek data
  checkLength header
  if header.length = data.length then return header
  else .error (.lengthMismatch header.length data.length)

/-- Decodes one frame. A PDU without a kind is kept whole, and reported, or refused. -/
def decode (registry : Registry) (allowUnknown : Bool) (data : Octets) :
    Logged (Except Error Pdu) :=
  match header data with
  | .error e => .pure (.error e)
  | .ok header =>
    let body := data.drop pduHeaderSize
    match registry.lookup ⟨header.pduType.number, header.protocolFamily.number⟩ with
    | some kind => .pure (readBody kind header body)
    | none =>
      if allowUnknown then
        ⟨readBody .unknown header body,
          [.unsupported header.pduType header.protocolFamily header.length
            (data.take pduHeaderSize)]⟩
      else .pure (.error (.unsupported header.pduType header.protocolFamily))

/-- Decodes one frame that must be of a given kind, or of a special form of it. -/
def decodeAs (registry : Registry) (kind : PduKind) (data : Octets) :
    Logged (Except Error Pdu) :=
  (decode registry false data).map fun
    | .error e => .error e
    | .ok pdu =>
      if pdu.kind.isA kind then .ok pdu else .error (.otherKind kind.name pdu.kind.name)

/-! The walk over a buffer of frames that stand back to back. -/

inductive Item where
  | pdu (pdu : Pdu)
  | event (event : Event)

/-- What a walk hands out, in order, and the error that ended it if one did. -/
structure Walk where
  items : List Item
  error : Option Error := none

namespace Walk

def pdus (walk : Walk) : List Pdu :=
  walk.items.filterMap fun
    | .pdu pdu => some pdu
    | .event _ => none

def events (walk : Walk) : List Event :=
  walk.items.filterMap fun
    | .pdu _ => none
    | .event event => some event

def after (items : List Item) (walk : Walk) : Walk := { walk with items := items ++ walk.items }

end Walk

structure WalkMode where
  allowUnknown : Bool
  -- Are malformed frames reported and dropped, rather than ending the walk?
  skipMalformed : Bool

def declaredLength (data : Octets) : Option Nat :=
  if (data.take pduHeaderSize).length < pduHeaderSize then none
  else some (Octets.toNat ((data.drop headerLengthOffset).take 2))

/-- The length of the frame in front, if it can be trusted. -/
def frameLength (data : Octets) : Except (Option Nat) Nat :=
  match declaredLength data with
  | none => .error none
  | some declared =>
    if declared < pduHeaderSize ∨ (data.take declared).length < declared then
      .error (some declared)
    else .ok declared

theorem frameLength_bounds {data : Octets} {length : Nat} (h : frameLength data = .ok length) :
    0 < length ∧ length ≤ data.length := by
  unfold frameLength at h
  split at h
  · simp at h
  · split at h
    · simp at h
    · next outside =>
        injection h with h
        have : pduHeaderSize = 12 := rfl
        rw [List.length_take] at outside
        omega

def step (registry : Registry) (mode : WalkMode) (offset : Nat) (frame : Octets) : Walk :=
  let decoded := decode registry mode.allowUnknown frame
  let events := decoded.events.map Item.event
  match decoded.value with
  | .ok pdu => ⟨events ++ [.pdu pdu], none⟩
  | .error e =>
    if mode.skipMalformed && e.isDecodeError then
      ⟨events ++ [.event (.dropped offset e (frame.take pduHeaderSize))], none⟩
    else ⟨events, some e⟩

/-- Walks the octets that follow an offset. Where no length can be trusted the next
boundary is unknown, and the walk ends. -/
def walkFrom (registry : Registry) (mode : WalkMode) (offset : Nat) (data : Octets) : Walk :=
  if data.isEmpty then ⟨[], none⟩
  else match _found : frameLength data with
    | .error declared =>
      let e := Error.noFrame offset declared data.length
      if mode.skipMalformed then ⟨[.event (.abandoned e)], none⟩ else ⟨[], some e⟩
    | .ok length =>
      let first := step registry mode offset (data.take length)
      match first.error with
      | some _ => first
      | none =>
        (walkFrom registry mode (offset + length) (data.drop length)).after first.items
termination_by data.length
decreasing_by
  have := frameLength_bounds _found
  simp only [List.length_drop]
  omega

def walk (registry : Registry) (mode : WalkMode) (data : Octets) : Walk :=
  walkFrom registry mode 0 data

end Dis.Frame
