import Dis.Proofs.Acceptance

/-! The walk that ends at the first fault. A frame that decodes shows where it ends, so
there is one way at most to cut a buffer into such frames, and the walk finds it. -/

namespace Dis

/-- The error as it is when so many octets more stand in front. -/
def Error.movedBy (count : Nat) : Error → Error
  | noFrame offset declared remaining => .noFrame (count + offset) declared remaining
  | e => e

section Moved

namespace Frame

variable {data : Octets} {e : Error}

theorem movedBy_of_header (refused : Frame.header data = .error e) (count : Nat) :
    e.movedBy count = e := by
  rw [header_eq] at refused
  split at refused
  · cases refused
    rfl
  · split at refused
    · cases refused
      rfl
    · split at refused <;> cases refused
      rfl

theorem movedBy_of_readBody {kind : PduKind} {header : Header}
    (refused : readBody kind header data = .error e) (count : Nat) : e.movedBy count = e := by
  rcases readBody_eq_error.mp refused with ⟨fault, left, -, rfl⟩ | ⟨value, rest, -, -, rfl⟩
  · rfl
  · rfl

theorem movedBy_of_decode {registry : Registry} {allowUnknown : Bool}
    (refused : (decode registry allowUnknown data).value = .error e) (count : Nat) :
    e.movedBy count = e := by
  rw [decode_eq] at refused
  split at refused
  · next other found =>
    cases refused
    exact movedBy_of_header found count
  · next header found =>
    split at refused
    · exact movedBy_of_readBody refused count
    · split at refused <;> cases refused
      rfl

end Frame

end Moved

namespace Frame

def WalkMode.strict (allowUnknown : Bool) : WalkMode := ⟨allowUnknown, false⟩

/-- Frames, and the PDUs that they decode to. -/
def Decodes (registry : Registry) (allowUnknown : Bool) : List Octets → List Pdu → Prop :=
  List.Forall₂ fun frame pdu => (decode registry allowUnknown frame).value = .ok pdu

/-- What ends a walk in front of octets that are left. -/
inductive Stops (registry : Registry) (allowUnknown : Bool) (offset : Nat) (rest : Octets) :
    Error → Prop where
  -- A frame is there, and it is refused.
  | refused {length : Nat} {e : Error} : declaredLength rest = some length →
      pduHeaderSize ≤ length → length ≤ rest.length →
      (decode registry allowUnknown (rest.take length)).value = .error e →
      Stops registry allowUnknown offset rest e
  -- No header is there, or none that declares a length that can be.
  | lost : rest ≠ [] → (rest.length < pduHeaderSize ∨ ∃ length, declaredLength rest = some length ∧
        (length < pduHeaderSize ∨ rest.length < length)) →
      Stops registry allowUnknown offset rest (.noFrame offset (declaredLength rest) rest.length)

section Delimited

theorem declaredLength_eq_none {data : Octets} :
    declaredLength data = none ↔ data.length < pduHeaderSize := by
  simp only [declaredLength, List.length_take]
  split <;> simp <;> omega

theorem frameLength_eq_ok {data : Octets} {length : Nat} :
    frameLength data = .ok length ↔ declaredLength data = some length ∧
      pduHeaderSize ≤ length ∧ length ≤ data.length := by
  unfold frameLength
  cases declaredLength data with
  | none => simp
  | some declared =>
      simp only [List.length_take, Option.some.injEq]
      split
      · simp only [reduceCtorEq, false_iff]
        omega
      · simp only [Except.ok.injEq]
        omega

theorem frameLength_eq_error {data : Octets} {declared : Option Nat} :
    frameLength data = .error declared ↔ declared = declaredLength data ∧
      (data.length < pduHeaderSize ∨ ∃ length, declaredLength data = some length ∧
        (length < pduHeaderSize ∨ data.length < length)) := by
  rw [← declaredLength_eq_none]
  unfold frameLength
  cases declaredLength data with
  | none => simp [eq_comm]
  | some length =>
      simp only [List.length_take, reduceCtorEq, false_or, Option.some.injEq, exists_eq_left']
      split
      · have outside : length < pduHeaderSize ∨ data.length < length := by omega
        simp [outside, eq_comm]
      · have inside : ¬ (length < pduHeaderSize ∨ data.length < length) := by omega
        simp [inside]

variable {registry : Registry} {allowUnknown : Bool} {frame : Octets} {pdu : Pdu}

theorem frameLength_of_decode (decoded : (decode registry allowUnknown frame).value = .ok pdu)
    (rest : Octets) : frameLength (frame ++ rest) = .ok frame.length := by
  obtain ⟨header, found⟩ := header_of_decode decoded
  obtain ⟨peeked, whole⟩ := header_eq_ok.mp found
  obtain ⟨front, back, rfl, read, -⟩ := Header.peek_eq_ok.mp peeked
  obtain ⟨octets, family, length, split, places, -, -, sized⟩ := Header.places_read read
  rw [List.append_nil] at split
  subst split
  have twelve := places.size
  have shown := places.length_eq (back ++ rest)
  rw [frameLength_eq_ok, declaredLength, List.append_assoc, shown, List.length_take]
  simp only [List.length_append] at whole ⊢
  refine ⟨?_, by omega, by omega⟩
  rw [if_neg (by omega), Option.some.injEq]
  omega

theorem length_of_decode (decoded : (decode registry allowUnknown frame).value = .ok pdu) :
    pduHeaderSize ≤ frame.length := by
  have found := frameLength_of_decode decoded []
  exact (frameLength_eq_ok.mp found).2.1

theorem eq_of_flatten {frames others : List Octets} {pdus pdus' : List Pdu}
    (decodes : Decodes registry allowUnknown frames pdus)
    (decodes' : Decodes registry allowUnknown others pdus')
    (same : frames.flatten = others.flatten) : frames = others := by
  -- The lengths that both show in front agree, so the frames in front do, and then the rest.
  induction decodes generalizing others pdus' with
  | nil =>
      cases decodes' with
      | nil => rfl
      | cons first rest =>
          have size := length_of_decode first
          rw [List.flatten_nil, List.flatten_cons, eq_comm, List.append_eq_nil_iff] at same
          rw [same.1] at size
          exact absurd size (by decide)
  | @cons frame pdu frames pdus decoded rest ih =>
      cases decodes' with
      | nil =>
          have size := length_of_decode decoded
          rw [List.flatten_nil, List.flatten_cons, List.append_eq_nil_iff] at same
          rw [same.1] at size
          exact absurd size (by decide)
      | cons decoded' rest' =>
          rw [List.flatten_cons, List.flatten_cons] at same
          have found := frameLength_of_decode decoded frames.flatten
          rw [same, frameLength_of_decode decoded'] at found
          injection found with size
          obtain ⟨rfl, later⟩ := List.append_inj same size.symm
          rw [ih rest' later]

end Delimited

variable {registry : Registry} {allowUnknown : Bool} {data : Octets} {e : Error}

def frameItems (registry : Registry) (allowUnknown : Bool) (frame : Octets) : List Item :=
  (step registry (.strict allowUnknown) 0 frame).items

theorem step_of_decode {frame : Octets} {pdu : Pdu} (mode : WalkMode) (offset : Nat)
    (decoded : (decode registry mode.allowUnknown frame).value = .ok pdu) :
    step registry mode offset frame =
      ⟨(decode registry mode.allowUnknown frame).events.map Item.event ++ [.pdu pdu], none⟩ := by
  simp only [step, decoded]

theorem step_of_ok {frame : Octets} {pdu : Pdu} (offset : Nat)
    (decoded : (decode registry allowUnknown frame).value = .ok pdu) :
    step registry (.strict allowUnknown) offset frame =
      ⟨(decode registry allowUnknown frame).events.map Item.event ++ [.pdu pdu], none⟩ :=
  step_of_decode (.strict allowUnknown) offset decoded

-- Only a PDU that nobody reads is reported, and such a body cannot be refused.
theorem events_of_error (refused : (decode registry allowUnknown data).value = .error e) :
    (decode registry allowUnknown data).events = [] := by
  unfold decode at refused ⊢
  split
  · rfl
  · next header found =>
    simp only [found] at refused
    split
    · rfl
    · next free =>
      simp only [free] at refused
      split
      · next allowed =>
        rw [if_pos allowed] at refused
        cases refused
      · rfl

/-- A refusal is one of malformed traffic, so the mode alone settles what becomes of it. -/
theorem step_of_refusal {frame : Octets} (mode : WalkMode) (offset : Nat)
    (refused : (decode registry mode.allowUnknown frame).value = .error e) :
    step registry mode offset frame =
      if mode.skipMalformed then ⟨[.event (.dropped offset e (frame.take pduHeaderSize))], none⟩
      else ⟨[], some e⟩ := by
  simp only [step, refused, events_of_error refused, isDecodeError_of_decode refused,
    Bool.and_true, List.map_nil, List.nil_append]

theorem step_of_error {frame : Octets} (offset : Nat)
    (refused : (decode registry allowUnknown frame).value = .error e) :
    step registry (.strict allowUnknown) offset frame = ⟨[], some e⟩ :=
  step_of_refusal (.strict allowUnknown) offset refused

theorem walkFrom_nil (mode : WalkMode) (offset : Nat) :
    walkFrom registry mode offset [] = ⟨[], none⟩ := by
  rw [walkFrom]
  rfl

theorem walkFrom_of_frame (registry : Registry) (mode : WalkMode) {frame rest : Octets}
    (offset : Nat) (shown : frameLength (frame ++ rest) = .ok frame.length) :
    ((step registry mode offset frame).error = none →
      walkFrom registry mode offset (frame ++ rest) =
        (walkFrom registry mode (offset + frame.length) rest).after
          (step registry mode offset frame).items) ∧
    ∀ e, (step registry mode offset frame).error = some e →
      walkFrom registry mode offset (frame ++ rest) = step registry mode offset frame := by
  have present : (frame ++ rest).isEmpty = false := by
    rw [List.isEmpty_eq_false_iff]
    intro none
    have positive := (frameLength_bounds shown).1
    rw [(List.append_eq_nil_iff.mp none).1] at positive
    exact absurd positive (Nat.lt_irrefl 0)
  rw [walkFrom, present, if_neg Bool.false_ne_true]
  split
  · next lost =>
    rw [shown] at lost
    cases lost
  · next length found =>
    rw [shown] at found
    cases found
    constructor
    · intro kept
      simp only [List.take_left, List.drop_left, kept]
    · intro e ended
      simp only [List.take_left, ended]

theorem walkFrom_of_step {mode : WalkMode} {frame rest : Octets} {offset : Nat}
    (shown : frameLength (frame ++ rest) = .ok frame.length)
    (kept : (step registry mode offset frame).error = none) :
    walkFrom registry mode offset (frame ++ rest) =
      (walkFrom registry mode (offset + frame.length) rest).after
        (step registry mode offset frame).items :=
  (walkFrom_of_frame registry mode offset shown).1 kept

theorem walkFrom_of_lost {mode : WalkMode} {rest : Octets} {declared : Option Nat} (offset : Nat)
    (present : rest ≠ []) (lost : frameLength rest = .error declared) :
    walkFrom registry mode offset rest =
      if mode.skipMalformed then
        ⟨[.event (.abandoned (.noFrame offset declared rest.length))], none⟩
      else ⟨[], some (.noFrame offset declared rest.length)⟩ := by
  rw [walkFrom, List.isEmpty_eq_false_iff.mpr present, if_neg Bool.false_ne_true]
  split
  · next other found =>
    rw [lost] at found
    cases found
    rfl
  · next length found =>
    rw [lost] at found
    cases found

theorem walkFrom_append {frame : Octets} {pdu : Pdu} (offset : Nat) (rest : Octets)
    (decoded : (decode registry allowUnknown frame).value = .ok pdu) :
    walkFrom registry (.strict allowUnknown) offset (frame ++ rest) =
      (walkFrom registry (.strict allowUnknown) (offset + frame.length) rest).after
        (frameItems registry allowUnknown frame) := by
  have kept := step_of_ok offset decoded
  rw [walkFrom_of_step (frameLength_of_decode decoded rest) (by rw [kept]), kept, frameItems,
    step_of_ok 0 decoded]

theorem walkFrom_flatten {frames : List Octets} {pdus : List Pdu} (offset : Nat) (rest : Octets)
    (decodes : Decodes registry allowUnknown frames pdus) :
    walkFrom registry (.strict allowUnknown) offset (frames.flatten ++ rest) =
      (walkFrom registry (.strict allowUnknown) (offset + frames.flatten.length) rest).after
        (frames.flatMap (frameItems registry allowUnknown)) := by
  induction decodes generalizing offset with
  | nil => rfl
  | cons decoded later ih =>
      rw [List.flatten_cons, List.append_assoc, walkFrom_append offset _ decoded, ih,
        List.length_append, Nat.add_assoc, List.flatMap_cons]
      simp only [Walk.after, List.append_assoc]

theorem walkFrom_of_stops {offset : Nat} {rest : Octets}
    (stops : Stops registry allowUnknown offset rest e) :
    walkFrom registry (.strict allowUnknown) offset rest = ⟨[], some e⟩ := by
  cases stops with
  | @refused length e declared least most refused =>
      have shown : frameLength (rest.take length ++ rest.drop length) =
          .ok (rest.take length).length := by
        rw [List.take_append_drop, List.length_take_of_le most]
        exact frameLength_eq_ok.mpr ⟨declared, least, most⟩
      have stepped := step_of_error offset refused
      have walked := (walkFrom_of_frame registry (.strict allowUnknown) offset shown).2 e
        (by rw [stepped])
      rw [List.take_append_drop, stepped] at walked
      exact walked
  | lost present outside =>
      rw [walkFrom_of_lost offset present (frameLength_eq_error.mpr ⟨rfl, outside⟩)]
      rfl

theorem pdus_of_frames {frames : List Octets} {pdus : List Pdu} {error : Option Error}
    (decodes : Decodes registry allowUnknown frames pdus) :
    Walk.pdus ⟨frames.flatMap (frameItems registry allowUnknown), error⟩ = pdus := by
  induction decodes with
  | nil => rfl
  | @cons frame pdu frames pdus decoded later ih =>
      simp only [Walk.pdus] at ih ⊢
      rw [List.flatMap_cons, List.filterMap_append, ih, frameItems, step_of_ok 0 decoded]
      simp

/-- Every buffer is frames that decode, up to its end or up to where the walk stops. -/
theorem cut (registry : Registry) (allowUnknown : Bool) (offset : Nat) (data : Octets) :
    ∃ frames pdus rest, data = frames.flatten ++ rest ∧ Decodes registry allowUnknown frames pdus ∧
      (rest = [] ∨ ∃ e, Stops registry allowUnknown (offset + frames.flatten.length) rest e) := by
  -- On the number of octets left: a frame takes twelve of them at least.
  induction size : data.length using Nat.strong_induction_on generalizing offset data with
  | _ size ih =>
      subst size
      by_cases present : data = []
      · exact ⟨[], [], [], present, .nil, Or.inl rfl⟩
      · cases found : frameLength data with
        | error declared =>
            obtain ⟨rfl, outside⟩ := frameLength_eq_error.mp found
            exact ⟨[], [], data, rfl, .nil, Or.inr ⟨_, .lost present outside⟩⟩
        | ok length =>
            obtain ⟨declared, least, most⟩ := frameLength_eq_ok.mp found
            cases attempt : (decode registry allowUnknown (data.take length)).value with
            | error e =>
                exact ⟨[], [], data, rfl, .nil, Or.inr ⟨e, .refused declared least most attempt⟩⟩
            | ok pdu =>
                have shorter : (data.drop length).length < data.length := by
                  have : pduHeaderSize = 12 := rfl
                  rw [List.length_drop]
                  omega
                obtain ⟨frames, pdus, rest, split, decodes, ends⟩ :=
                  ih _ shorter (offset + length) (data.drop length) rfl
                refine ⟨data.take length :: frames, pdu :: pdus, rest, ?_, .cons attempt decodes, ?_⟩
                · rw [List.flatten_cons, List.append_assoc, ← split, List.take_append_drop]
                · rw [List.flatten_cons, List.length_append, List.length_take,
                    Nat.min_eq_left most, ← Nat.add_assoc]
                  exact ends

section Cut

variable {frames : List Octets} {pdus : List Pdu} {rest : Octets}

theorem walkFrom_finished (offset : Nat) (decodes : Decodes registry allowUnknown frames pdus) :
    walkFrom registry (.strict allowUnknown) offset frames.flatten =
      ⟨frames.flatMap (frameItems registry allowUnknown), none⟩ := by
  have walked := walkFrom_flatten offset [] decodes
  rw [List.append_nil, walkFrom_nil] at walked
  rw [walked, Walk.after, List.append_nil]

theorem walkFrom_stopped {offset : Nat} (decodes : Decodes registry allowUnknown frames pdus)
    (stops : Stops registry allowUnknown (offset + frames.flatten.length) rest e) :
    walkFrom registry (.strict allowUnknown) offset (frames.flatten ++ rest) =
      ⟨frames.flatMap (frameItems registry allowUnknown), some e⟩ := by
  rw [walkFrom_flatten offset rest decodes, walkFrom_of_stops stops, Walk.after, List.append_nil]

theorem Stops.moved {offset : Nat} (stops : Stops registry allowUnknown offset rest e) (count : Nat) :
    Stops registry allowUnknown (count + offset) rest (e.movedBy count) := by
  cases stops with
  | refused declared least most refused =>
      rw [movedBy_of_decode refused]
      exact .refused declared least most refused
  | lost present outside => exact .lost present outside

theorem length_le_of_decodes (decodes : Decodes registry allowUnknown frames pdus) :
    pduHeaderSize * pdus.length ≤ frames.flatten.length := by
  induction decodes with
  | nil => exact Nat.le_refl 0
  | cons decoded later ih =>
      have least := length_of_decode decoded
      rw [List.length_cons, List.flatten_cons, List.length_append, Nat.mul_succ]
      omega

end Cut

def Walk.movedBy (count : Nat) (walk : Walk) : Walk :=
  { walk with error := walk.error.map (Error.movedBy count) }

/-- A walk hands out what the frames in front decode to, and then it is at the end of
the buffer or it stops. -/
theorem walk_cases (registry : Registry) (allowUnknown : Bool) (offset : Nat) (data : Octets) :
    ∃ frames pdus rest, data = frames.flatten ++ rest ∧ Decodes registry allowUnknown frames pdus ∧
      ((rest = [] ∧ walkFrom registry (.strict allowUnknown) offset data =
          ⟨frames.flatMap (frameItems registry allowUnknown), none⟩) ∨
        ∃ e, Stops registry allowUnknown (offset + frames.flatten.length) rest e ∧
          walkFrom registry (.strict allowUnknown) offset data =
            ⟨frames.flatMap (frameItems registry allowUnknown), some e⟩) := by
  obtain ⟨frames, pdus, rest, rfl, decodes, ended | ⟨e, stops⟩⟩ :=
    cut registry allowUnknown offset data
  · refine ⟨frames, pdus, rest, rfl, decodes, Or.inl ⟨ended, ?_⟩⟩
    rw [ended, List.append_nil, walkFrom_finished offset decodes]
  · exact ⟨frames, pdus, rest, rfl, decodes, Or.inr ⟨e, stops, walkFrom_stopped decodes stops⟩⟩

theorem walkFrom_eq_movedBy (registry : Registry) (allowUnknown : Bool) (offset : Nat)
    (data : Octets) : walkFrom registry (.strict allowUnknown) offset data =
      (walk registry (.strict allowUnknown) data).movedBy offset := by
  obtain ⟨frames, pdus, rest, rfl, decodes, ⟨rfl, walked⟩ | ⟨e, stops, walked⟩⟩ :=
    walk_cases registry allowUnknown 0 data
  · rw [walk, walked, List.append_nil, walkFrom_finished offset decodes]
    rfl
  · rw [Nat.zero_add] at stops
    rw [walk, walked, walkFrom_stopped decodes (stops.moved offset)]
    rfl

theorem walk_finished_iff {pdus : List Pdu} :
    ((walk registry (.strict allowUnknown) data).error = none ∧
        (walk registry (.strict allowUnknown) data).pdus = pdus) ↔
      ∃ frames, data = frames.flatten ∧ Decodes registry allowUnknown frames pdus := by
  constructor
  · rintro ⟨finished, rfl⟩
    obtain ⟨frames, pdus, rest, rfl, decodes, ⟨rfl, walked⟩ | ⟨e, -, walked⟩⟩ :=
      walk_cases registry allowUnknown 0 data
    · rw [walk, walked, pdus_of_frames decodes]
      exact ⟨frames, List.append_nil _, decodes⟩
    · rw [walk, walked] at finished
      cases finished
  · rintro ⟨frames, rfl, decodes⟩
    rw [walk, walkFrom_finished 0 decodes, pdus_of_frames decodes]
    exact ⟨rfl, rfl⟩

theorem walk_stopped_iff {pdus : List Pdu} :
    ((walk registry (.strict allowUnknown) data).error = some e ∧
        (walk registry (.strict allowUnknown) data).pdus = pdus) ↔
      ∃ frames rest, data = frames.flatten ++ rest ∧ Decodes registry allowUnknown frames pdus ∧
        Stops registry allowUnknown frames.flatten.length rest e := by
  constructor
  · rintro ⟨stopped, rfl⟩
    obtain ⟨frames, pdus, rest, rfl, decodes, ⟨-, walked⟩ | ⟨e, stops, walked⟩⟩ :=
      walk_cases registry allowUnknown 0 data
    · rw [walk, walked] at stopped
      cases stopped
    · rw [walk, walked] at stopped ⊢
      cases stopped
      rw [Nat.zero_add] at stops
      rw [pdus_of_frames decodes]
      exact ⟨frames, rest, rfl, decodes, stops⟩
  · rintro ⟨frames, rest, rfl, decodes, stops⟩
    rw [← Nat.zero_add frames.flatten.length] at stops
    rw [walk, walkFrom_stopped decodes stops, pdus_of_frames decodes]
    exact ⟨rfl, rfl⟩

theorem walk_append (more : Octets)
    (finished : (walk registry (.strict allowUnknown) data).error = none) :
    walk registry (.strict allowUnknown) (data ++ more) =
      ((walk registry (.strict allowUnknown) more).movedBy data.length).after
        (walk registry (.strict allowUnknown) data).items := by
  -- A walk that finished cut all of `data` into frames, and frames are walked one by one.
  obtain ⟨frames, rfl, decodes⟩ := walk_finished_iff.mp ⟨finished, rfl⟩
  rw [walk, walkFrom_flatten 0 more decodes, Nat.zero_add, walkFrom_eq_movedBy,
    walk, walk, walkFrom_finished 0 decodes]

theorem length_pdus_le (registry : Registry) (allowUnknown : Bool) (data : Octets) :
    pduHeaderSize * (walk registry (.strict allowUnknown) data).pdus.length ≤ data.length := by
  obtain ⟨frames, pdus, rest, rfl, decodes, ⟨-, walked⟩ | ⟨e, -, walked⟩⟩ :=
    walk_cases registry allowUnknown 0 data
  all_goals
    have least := length_le_of_decodes decodes
    rw [walk, walked, pdus_of_frames decodes, List.length_append]
    omega

/-- The walk finishes on what is cut into frames that decode, in one way only, and on nothing
else. Otherwise it stops behind the frames in front, with the error of what follows them. -/
theorem strict_walk (registry : Registry) (allowUnknown : Bool) :
    (∀ data pdus, ((walk registry (.strict allowUnknown) data).error = none ∧
        (walk registry (.strict allowUnknown) data).pdus = pdus) ↔
      ∃ frames, data = frames.flatten ∧ Decodes registry allowUnknown frames pdus) ∧
    (∀ frames others pdus pdus', Decodes registry allowUnknown frames pdus →
      Decodes registry allowUnknown others pdus' → frames.flatten = others.flatten →
      frames = others) ∧
    (∀ data pdus e, ((walk registry (.strict allowUnknown) data).error = some e ∧
        (walk registry (.strict allowUnknown) data).pdus = pdus) ↔
      ∃ frames rest, data = frames.flatten ++ rest ∧ Decodes registry allowUnknown frames pdus ∧
        Stops registry allowUnknown frames.flatten.length rest e) ∧
    (∀ offset declared remaining,
      (Error.noFrame offset declared remaining).category = .framing ∧
        (Error.noFrame offset declared remaining).extents.2 = some ↑remaining) ∧
    (∀ data more, (walk registry (.strict allowUnknown) data).error = none →
      walk registry (.strict allowUnknown) (data ++ more) =
        ((walk registry (.strict allowUnknown) more).movedBy data.length).after
          (walk registry (.strict allowUnknown) data).items) ∧
    (∀ data, pduHeaderSize * (walk registry (.strict allowUnknown) data).pdus.length ≤
      data.length) := by
  refine ⟨?_, ?_, ?_, ?_, ?_, ?_⟩
  · intro data pdus
    exact walk_finished_iff
  · intro frames others pdus pdus' decodes decodes' same
    exact eq_of_flatten decodes decodes' same
  · intro data pdus e
    exact walk_stopped_iff
  · intro offset declared remaining
    exact ⟨rfl, rfl⟩
  · intro data more finished
    exact walk_append more finished
  · intro data
    exact length_pdus_le registry allowUnknown data

/-- One frame, and an octet behind it that starts no other. -/
theorem strict_walk_samples :
    (walk .standard (.strict true) [7, 1, 0, 0, 0, 0, 0, 0, 0, 15, 0, 0, 9, 8, 7]).pdus =
        [Pdu.withLength ⟨.unknown, .initial .standard, ([9, 8, 7] : Octets)⟩ 15] ∧
      (walk .standard (.strict true) [7, 1, 0, 0, 0, 0, 0, 0, 0, 15, 0, 0, 9, 8, 7, 5]).error =
        some (.noFrame 15 none 1) := by
  obtain ⟨finished, -, stopped, -, append, -⟩ := strict_walk .standard true
  have decoded : (decode .standard true [7, 1, 0, 0, 0, 0, 0, 0, 0, 15, 0, 0, 9, 8, 7]).value =
      .ok (Pdu.withLength ⟨.unknown, .initial .standard, ([9, 8, 7] : Octets)⟩ 15) := by
    set_option maxRecDepth 4096 in
    rfl
  have front := (finished [7, 1, 0, 0, 0, 0, 0, 0, 0, 15, 0, 0, 9, 8, 7] _).mpr
    ⟨[_], rfl, .cons decoded .nil⟩
  have back := (stopped [5] [] (.noFrame 0 none 1)).mpr
    ⟨[], [5], rfl, .nil, .lost (by decide) (Or.inl (by decide))⟩
  have whole := append _ [5] front.1
  refine ⟨front.2, ?_⟩
  change (walk .standard (.strict true) ([7, 1, 0, 0, 0, 0, 0, 0, 0, 15, 0, 0, 9, 8, 7] ++ [5])).error = _
  rw [whole, Walk.after, Walk.movedBy, back.1]
  rfl

end Frame
end Dis
