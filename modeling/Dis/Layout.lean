import Dis.Layout.Member

/-! Layouts of records: their members in wire order, and the values they hold.
Counts and tags are on the wire only. Each is named, and the member that it counts
or tells apart refers to it by that name; its number follows from that member.

Members are read and written as construct 2.10.70 does it, of which this is assumed. They come
one after another straight off the stream and onto it, so whatever stands in front of a fault has
been read or written, and a fault is told with the path of names to it. A read that comes up short
takes all there is. Numbers are big-endian; one out of range is refused, and the refusal gives it
in decimal, which fails for a number of more than 4300 digits. Numbers of 32 bits are rounded to
nearest, ties to even, and refused where a finite one would count as infinite. A word of sub-fields
is read as one block, and written only if all of them fit. Padding is skipped unseen and written as
zeros; texts of fixed width are filled up with zeros and lose them again. Counts are found anew
from what they count whenever a record is written.

Of msgspec 0.22.0 it is assumed that records keep the values they are given, unchecked, that
members which are not given take their defaults, and that records are compared member by member. -/

namespace Dis

/-- The greatest count a collection may have, and the name of the collection. -/
structure Limit where
  member : String
  most : Nat
  deriving DecidableEq

inductive Layout where
  -- The end of the record.
  | done
  -- All octets that follow.
  | tail (name : String)
  | atom (name : String) (a : Atom) (rest : Layout)
  | padding (count : Nat) (rest : Layout)
  -- Sub-fields packed into a word of that many octets.
  | word (octets : Nat) (fields : List BitField) (rest : Layout)
  -- The number that a later member calls for.
  | count (name : String) (format : IntFormat) (limit : Option Limit) (rest : Layout)
  -- The alternative that a later member takes.
  | tag (name : String) (e : Enumeration) (format : IntFormat) (rest : Layout)
  | sized (name : String) (s : Sized) (extent : List String) (rest : Layout)
  | record (name kind : String) (inner rest : Layout)
  | records (name kind : String) (inner : Layout) (counter : String) (rest : Layout)
  -- One of two records: the second if the tag is 1, else the first.
  | choice (name teller : String) (kind₀ : String) (inner₀ : Layout) (kind₁ : String)
      (inner₁ : Layout) (rest : Layout)
  deriving DecidableEq

namespace Layout

/-- Values: the members a record shows, in wire order. -/
@[reducible] def Value : Layout → Type
  | done => Unit
  | tail _ => Octets
  | atom _ a rest => a.Value × rest.Value
  | padding _ rest => rest.Value
  | word _ fields rest => BitFields.Value fields × rest.Value
  | count _ _ _ rest => rest.Value
  | tag _ _ _ rest => rest.Value
  | sized _ s _ rest => s.Value × rest.Value
  | record _ _ inner rest => inner.Value × rest.Value
  | records _ _ inner _ rest => List inner.Value × rest.Value
  | choice _ _ _ inner₀ _ inner₁ rest => (inner₀.Value ⊕ inner₁.Value) × rest.Value

/-- What the member counted or told apart by `name` calls for. -/
def demand (name : String) : (layout : Layout) → layout.Value → Nat
  | done, _ => 0
  | tail _, _ => 0
  | atom _ _ rest, (_, v) => rest.demand name v
  | padding _ rest, v => rest.demand name v
  | word _ _ rest, (_, v) => rest.demand name v
  | count _ _ _ rest, v => rest.demand name v
  | tag _ _ _ rest, v => rest.demand name v
  | sized _ s extent rest, (x, v) =>
    if extent = [name] then s.extent x else rest.demand name v
  | record _ _ _ rest, (_, v) => rest.demand name v
  | records _ _ _ counter rest, (xs, v) =>
    if counter = name then xs.length else rest.demand name v
  | choice _ teller _ _ _ _ rest, (x, v) =>
    if teller = name then (match x with | .inl _ => 0 | .inr _ => 1) else rest.demand name v

end Layout
end Dis

/-! Members by name. Some stand on the wire only, and padding has no name. -/

namespace Dis.Layout

/-- The layout without its first member. -/
def next : Layout → Layout
  | done => done
  | tail name => tail name
  | atom _ _ rest | padding _ rest | word _ _ rest | count _ _ _ rest | tag _ _ _ rest
  | sized _ _ _ rest | record _ _ _ rest | records _ _ _ _ rest | choice _ _ _ _ _ _ rest => rest

def nextValue : (layout : Layout) → layout.Value → layout.next.Value
  | done, v => v
  | tail _, v => v
  | atom _ _ _, (_, v) => v
  | padding _ _, v => v
  | word _ _ _, (_, v) => v
  | count _ _ _ _, v => v
  | tag _ _ _ _, v => v
  | sized _ _ _ _, (_, v) => v
  | record _ _ _ _, (_, v) => v
  | records _ _ _ _ _, (_, v) => v
  | choice _ _ _ _ _ _ _, (_, v) => v

/-- What the first member holds. -/
def First : Layout → Type
  | tail _ => Octets
  | atom _ a _ => a.Value
  | word _ fields _ => BitFields.Value fields
  | sized _ s _ _ => s.Value
  | record _ _ inner _ => inner.Value
  | records _ _ inner _ _ => List inner.Value
  | choice _ _ _ inner₀ _ inner₁ _ => inner₀.Value ⊕ inner₁.Value
  | done | padding .. | count .. | tag .. => Unit

def first : (layout : Layout) → layout.Value → layout.First
  | done, _ => ()
  | tail _, octets => octets
  | atom _ _ _, (x, _) => x
  | padding _ _, _ => ()
  | word _ _ _, (x, _) => x
  | count _ _ _ _, _ => ()
  | tag _ _ _ _, _ => ()
  | sized _ _ _ _, (x, _) => x
  | record _ _ _ _, (x, _) => x
  | records _ _ _ _ _, (xs, _) => xs
  | choice _ _ _ _ _ _ _, (x, _) => x

def behind : Nat → Layout → Layout
  | 0, layout => layout
  | members + 1, layout => behind members layout.next

def behindValue : (members : Nat) → (layout : Layout) → layout.Value →
    (behind members layout).Value
  | 0, _, v => v
  | members + 1, layout, v => behindValue members layout.next (layout.nextValue v)

/-- How many members stand in front of the one of a name. -/
def position (name : String) : Layout → Nat
  | done | tail _ => 0
  | padding _ rest | word _ _ rest => rest.position name + 1
  | atom own _ rest | count own _ _ rest | tag own _ _ rest | sized own _ _ rest
  | record own _ _ rest | records own _ _ _ rest | choice own _ _ _ _ _ rest =>
    if own = name then 0 else rest.position name + 1

def Member (name : String) (layout : Layout) : Type :=
  (layout.behind (layout.position name)).First

def member (name : String) (layout : Layout) (v : layout.Value) : layout.Member name :=
  (layout.behind (layout.position name)).first (layout.behindValue (layout.position name) v)

/-! Reading a record by its layout. -/

def checkLimit (limit : Option Limit) (n : Int) : Reader Unit :=
  match limit with
  | none => pure ()
  | some limit => if n ≤ limit.most then pure () else Reader.fail .overLimit

/-- Members are read in order, each under its name; numbers enter the scope of the
members that follow. Nested records start with a scope of their own. -/
def readIn : (layout : Layout) → Scope → Reader layout.Value
  | done, _ => pure ()
  | tail name, _ => (Reader.takeAll).under name
  | atom name a rest, scope => do
    let x ← a.read.under name
    let v ← rest.readIn (scope.bind name (a.number? x))
    return (x, v)
  | padding n rest, scope => do
    let _ ← Reader.take n
    rest.readIn scope
  | word octets fields rest, scope => do
    let x ← BitFields.read octets fields
    let v ← rest.readIn scope
    return (x, v)
  | count name format limit rest, scope => do
    let n ← format.read.under name
    checkLimit limit n
    rest.readIn (scope.bind name (some n))
  | tag name e format rest, scope => do
    let n ← format.read.under name
    rest.readIn (scope.bind name (some (e.decode n).number))
  | sized name s extent rest, scope => do
    let x ← (s.read (scope.product extent)).under name
    let v ← rest.readIn scope
    return (x, v)
  | record name _ inner rest, scope => do
    let x ← (inner.readIn []).under name
    let v ← rest.readIn scope
    return (x, v)
  | records name _ inner counter rest, scope => do
    let xs ← (Reader.many (scope.get counter).toNat (inner.readIn [])).under name
    let v ← rest.readIn scope
    return (xs, v)
  | choice name teller _ inner₀ _ inner₁ rest, scope => do
    let x ← Reader.under name <|
      if scope.get teller = 1 then Sum.inr <$> inner₁.readIn [] else Sum.inl <$> inner₀.readIn []
    let v ← rest.readIn scope
    return (x, v)

def read (layout : Layout) : Reader layout.Value := layout.readIn []

/-! Writing a record by its layout. -/

def writeCount (name : String) (format : IntFormat) (limit : Option Limit) (n : Nat) : Written :=
  match limit with
  | some ⟨member, most⟩ =>
    if n ≤ most then (format.write n).under name else .fail (.overLimit member n most)
  | none => (format.write n).under name

/-- Members are written in order, each under its name, with the scope that reading
them would have. -/
def writeIn : (layout : Layout) → Scope → layout.Value → Written
  | done, _, _ => .empty
  | tail _, _, octets => ⟨octets, none⟩
  | atom name a rest, scope, (x, v) =>
    (a.write x).under name ++ rest.writeIn (scope.bind name (a.number? x)) v
  | padding n rest, scope, v => ⟨Octets.zeros n, none⟩ ++ rest.writeIn scope v
  | word octets fields rest, scope, (x, v) =>
    BitFields.write octets fields x ++ rest.writeIn scope v
  | count name format limit rest, scope, v =>
    let n := rest.demand name v
    writeCount name format limit n ++ rest.writeIn (scope.bind name (some n)) v
  | tag name _ format rest, scope, v =>
    let n := rest.demand name v
    (format.write n).under name ++ rest.writeIn (scope.bind name (some n)) v
  | sized name s extent rest, scope, (x, v) =>
    (s.write (scope.product extent) x).under name ++ rest.writeIn scope v
  | record name _ inner rest, scope, (x, v) =>
    (inner.writeIn [] x).under name ++ rest.writeIn scope v
  | records name _ inner _ rest, scope, (xs, v) =>
    (xs.foldr (fun x written => inner.writeIn [] x ++ written) .empty).under name ++
      rest.writeIn scope v
  | choice name _ _ inner₀ _ inner₁ rest, scope, (x, v) =>
    (match x with
      | .inl x => inner₀.writeIn [] x
      | .inr x => inner₁.writeIn [] x).under name ++ rest.writeIn scope v

def write (layout : Layout) (v : layout.Value) : Written := layout.writeIn [] v

/-! The size of a record, found member by member without writing it. A stale number
of bits counts as it stands, so a size may even be negative; a record that lacks a
number of bits has no size. -/

def sizeIn : (layout : Layout) → Scope → layout.Value → Int
  | done, _, _ => 0
  | tail _, _, octets => (octets : Octets).length
  | atom name a rest, scope, (x, v) =>
    a.width + rest.sizeIn (scope.bind name (a.number? x)) v
  | padding n rest, scope, v => n + rest.sizeIn scope v
  | word octets _ rest, scope, (_, v) => octets + rest.sizeIn scope v
  | count name format _ rest, scope, v =>
    format.width + rest.sizeIn (scope.bind name (some (rest.demand name v))) v
  | tag name _ format rest, scope, v =>
    format.width + rest.sizeIn (scope.bind name (some (rest.demand name v))) v
  | sized _ s extent rest, scope, (x, v) =>
    s.size (scope.product extent) x + rest.sizeIn scope v
  | record _ _ inner rest, scope, (x, v) => inner.sizeIn [] x + rest.sizeIn scope v
  | records _ _ inner _ rest, scope, (xs, v) =>
    (xs.map (inner.sizeIn [])).sum + rest.sizeIn scope v
  | choice _ _ _ inner₀ _ inner₁ rest, scope, (x, v) =>
    (match x with
      | .inl x => inner₀.sizeIn [] x
      | .inr x => inner₁.sizeIn [] x) + rest.sizeIn scope v

def isCounted : (layout : Layout) → layout.Value → Bool
  | done, _ => true
  | tail _, _ => true
  | atom _ a rest, (x, v) => a.isPresent x && rest.isCounted v
  | padding _ rest, v => rest.isCounted v
  | word _ _ rest, (_, v) => rest.isCounted v
  | count _ _ _ rest, v => rest.isCounted v
  | tag _ _ _ rest, v => rest.isCounted v
  | sized _ _ _ rest, (_, v) => rest.isCounted v
  | record _ _ inner rest, (x, v) => inner.isCounted x && rest.isCounted v
  | records _ _ inner _ rest, (xs, v) => xs.all inner.isCounted && rest.isCounted v
  | choice _ _ _ inner₀ _ inner₁ rest, (x, v) =>
    (match x with
      | .inl x => inner₀.isCounted x
      | .inr x => inner₁.isCounted x) && rest.isCounted v

/-- Octets the record takes on the wire, if all numbers of bits are there. -/
def size (layout : Layout) (v : layout.Value) : Int := layout.sizeIn [] v

/-! Equality of record values: numbers by value, collections member by member. -/

def sameList {α : Type} (same : α → α → Bool) : List α → List α → Bool
  | [], [] => true
  | a :: as, b :: bs => same a b && sameList same as bs
  | _, _ => false

def sameValue : (layout : Layout) → layout.Value → layout.Value → Bool
  | done, _, _ => true
  | tail _, (a : Octets), b => a == b
  | atom _ atomic rest, (a, as), (b, bs) => atomic.sameValue a b && rest.sameValue as bs
  | padding _ rest, a, b => rest.sameValue a b
  | word _ fields rest, (a, as), (b, bs) =>
    BitFields.sameValue fields a b && rest.sameValue as bs
  | count _ _ _ rest, a, b => rest.sameValue a b
  | tag _ _ _ rest, a, b => rest.sameValue a b
  | sized _ s _ rest, (a, as), (b, bs) => s.sameValue a b && rest.sameValue as bs
  | record _ _ inner rest, (a, as), (b, bs) => inner.sameValue a b && rest.sameValue as bs
  | records _ _ inner _ rest, (a, as), (b, bs) =>
    sameList inner.sameValue a b && rest.sameValue as bs
  | choice _ _ _ inner₀ _ inner₁ rest, (a, as), (b, bs) =>
    (match a, b with
      | .inl a, .inl b => inner₀.sameValue a b
      | .inr a, .inr b => inner₁.sameValue a b
      | _, _ => false) && rest.sameValue as bs

/-! Drafts give some members of a record; the others take their starting values. -/

@[reducible] def Draft : Layout → Type
  | done => Unit
  | tail _ => Option Octets
  | atom _ a rest => Option a.Value × rest.Draft
  | padding _ rest => rest.Draft
  | word _ fields rest => Option (BitFields.Value fields) × rest.Draft
  | count _ _ _ rest => rest.Draft
  | tag _ _ _ rest => rest.Draft
  | sized _ s _ rest => Option s.Value × rest.Draft
  | record _ _ inner rest => Option inner.Value × rest.Draft
  | records _ _ inner _ rest => Option (List inner.Value) × rest.Draft
  | choice _ _ _ inner₀ _ inner₁ rest => Option (inner₀.Value ⊕ inner₁.Value) × rest.Draft

def blank : (layout : Layout) → layout.Draft
  | done => ()
  | tail _ => none
  | atom _ _ rest => (none, rest.blank)
  | padding _ rest => rest.blank
  | word _ _ rest => (none, rest.blank)
  | count _ _ _ rest => rest.blank
  | tag _ _ _ rest => rest.blank
  | sized _ _ _ rest => (none, rest.blank)
  | record _ _ _ rest => (none, rest.blank)
  | records _ _ _ _ rest => (none, rest.blank)
  | choice _ _ _ _ _ _ rest => (none, rest.blank)

/-- Fills in the members that a draft leaves out. A number of bits starts at what the
later member calls for. -/
def complete : (layout : Layout) → layout.Draft → layout.Value
  | done, _ => ()
  | tail _, d => Option.getD d []
  | atom name a rest, (x, d) =>
    let v := rest.complete d
    (a.complete x (rest.demand name v), v)
  | padding _ rest, d => rest.complete d
  | word _ fields rest, (x, d) => (x.getD (BitFields.initial fields), rest.complete d)
  | count _ _ _ rest, d => rest.complete d
  | tag _ _ _ rest, d => rest.complete d
  | sized _ s _ rest, (x, d) => (x.getD s.initial, rest.complete d)
  | record _ _ inner rest, (x, d) => (x.getD (inner.complete inner.blank), rest.complete d)
  | records _ _ _ _ rest, (xs, d) => (xs.getD [], rest.complete d)
  | choice _ _ _ inner₀ _ _ rest, (x, d) =>
    (x.getD (.inl (inner₀.complete inner₀.blank)), rest.complete d)

def initial (layout : Layout) : layout.Value := layout.complete layout.blank

end Dis.Layout
