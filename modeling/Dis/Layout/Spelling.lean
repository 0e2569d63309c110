import Dis.Layout

/-! Values by the names of their members, in documents of any type that can spell
numbers, texts, octets, lists and records. -/

namespace Dis

/-- How values are spelled in a type of documents, and read from them. -/
structure Spelling (δ : Type) where
  absent : δ
  int : Int → δ
  flag : Bool → δ
  float : Binary64 → δ
  text : String → δ
  octets : Octets → δ
  list : List δ → δ
  -- A record of a kind, by its members.
  record : (kind : String) → List (String × δ) → δ
  isAbsent : δ → Bool
  int? : δ → Option Int
  flag? : δ → Option Bool
  float? : δ → Option Binary64
  text? : δ → Option String
  octets? : δ → Option Octets
  list? : δ → Option (List δ)
  members? : δ → Option (List (String × δ))
  -- The kind of a record may be left out.
  kind? : δ → Option String

variable {δ : Type} (sp : Spelling δ)

namespace Spelling

/-- Members of an enumeration are spelled by name, other numbers as they are. -/
def code {e : Enumeration} (c : Code e) : δ :=
  match c.name? with
  | some name => sp.text name
  | none => sp.int c.number

def code? (e : Enumeration) (x : δ) : Option (Code e) :=
  match sp.text? x with
  | some name => e.named? name
  | none => (sp.int? x).map .raw

def blobMember : String := "record_specific_fields"

def atom : (atom : Atom) → atom.Value → δ
  | .int .., n => sp.int n
  | .bits _, (n : Option Int) => (n.map sp.int).getD sp.absent
  | .enum .., c => sp.code c
  | .float .., x => sp.float x
  | .octets _, os => sp.octets os
  | .text _, text => sp.text text

def atom? : (atom : Atom) → δ → Option atom.Value
  | .int .., x => sp.int? x
  | .bits _, x => if sp.isAbsent x then some none else some <$> sp.int? x
  | .enum e .., x => sp.code? e x
  | .float .., x => sp.float? x
  | .octets _, x => sp.octets? x
  | .text _, x => sp.text? x

def bitField : (field : BitField) → field.Value → δ
  | .gap _, _ => sp.absent
  | .number .., n => sp.int n
  | .enum .., c => sp.code c
  | .flag _, set => sp.flag set

def bitField? : (field : BitField) → δ → Option field.Value
  | .gap _, _ => some ()
  | .number .., x => sp.int? x
  | .enum _ e _, x => sp.code? e x
  | .flag _, x => sp.flag? x

def word : (fields : List BitField) → BitFields.Value fields → List (String × δ)
  | [], _ => []
  | field :: rest, (value, values) =>
    (field.name?.map fun name => (name, sp.bitField field value)).toList ++ word rest values

/-- Sub-fields that are not given stay as they are. -/
def word? : (fields : List BitField) → BitFields.Value fields → List (String × δ) →
    Option (BitFields.Value fields)
  | [], _, _ => some ()
  | field :: rest, (old, olds), members => do
    let value ←
      match (field.name?.bind fun name => members.lookup name) with
      | some x => sp.bitField? field x
      | none => some old
    return (value, ← word? rest olds members)

def sized : (sized : Sized) → sized.Value → δ
  | .numbers _, (ns : List Int) => sp.list (ns.map sp.int)
  | .octets, os => sp.octets os
  | .payload _, os => sp.octets os
  | .blob _, none => sp.absent
  | .blob kind, some os => sp.record kind [(blobMember, sp.octets os)]

def blob? (x : δ) : Option Octets := do
  match (← sp.members? x).lookup blobMember with
  | some x => sp.octets? x
  | none => some []

def sized? : (sized : Sized) → δ → Option sized.Value
  | .numbers _, x => do (← sp.list? x).mapM sp.int?
  | .octets, x => sp.octets? x
  | .payload _, x => sp.octets? x
  | .blob _, x => if sp.isAbsent x then some none else some <$> sp.blob? x

def given {α : Type} (read : δ → Option α) (members : List (String × δ)) (name : String) :
    Option (Option α) :=
  match members.lookup name with
  | none => some none
  | some x => some <$> read x

end Spelling

namespace Layout

def spell : (layout : Layout) → layout.Value → List (String × δ)
  | done, _ => []
  | tail name, os => [(name, sp.octets os)]
  | atom name a rest, (x, v) => (name, sp.atom a x) :: rest.spell v
  | padding _ rest, v => rest.spell v
  | word _ fields rest, (x, v) => sp.word fields x ++ rest.spell v
  | count _ _ _ rest, v => rest.spell v
  | tag _ _ _ rest, v => rest.spell v
  | sized name s _ rest, (x, v) => (name, sp.sized s x) :: rest.spell v
  | record name kind inner rest, (x, v) => (name, sp.record kind (inner.spell x)) :: rest.spell v
  | records name kind inner _ rest, (xs, v) =>
    (name, sp.list (xs.map fun x => sp.record kind (inner.spell x))) :: rest.spell v
  | choice name _ kind₀ inner₀ kind₁ inner₁ rest, (x, v) =>
    (name, match x with
      | .inl x => sp.record kind₀ (inner₀.spell x)
      | .inr x => sp.record kind₁ (inner₁.spell x)) :: rest.spell v

/-- Reads what some members tell about a value. -/
def draft? : (layout : Layout) → List (String × δ) → Option layout.Draft
  | done, _ => some ()
  | tail name, members => Spelling.given sp.octets? members name
  | atom name a rest, members =>
    return (← Spelling.given (sp.atom? a) members name, ← rest.draft? members)
  | padding _ rest, members => rest.draft? members
  | word _ fields rest, members =>
    return (some (← sp.word? fields (BitFields.initial fields) members), ← rest.draft? members)
  | count _ _ _ rest, members => rest.draft? members
  | tag _ _ _ rest, members => rest.draft? members
  | sized name s _ rest, members =>
    return (← Spelling.given (sp.sized? s) members name, ← rest.draft? members)
  | record name _ inner rest, members =>
    let read := fun x => return inner.complete (← inner.draft? (← sp.members? x))
    return (← Spelling.given read members name, ← rest.draft? members)
  | records name _ inner _ rest, members =>
    let read := fun x => return inner.complete (← inner.draft? (← sp.members? x))
    let readAll := fun x => do (← sp.list? x).mapM read
    return (← Spelling.given readAll members name, ← rest.draft? members)
  | choice name _ _ inner₀ kind₁ inner₁ rest, members =>
    let read := fun x => do
      let inside ← sp.members? x
      if sp.kind? x = some kind₁ then return .inr (inner₁.complete (← inner₁.draft? inside))
      else return .inl (inner₀.complete (← inner₀.draft? inside))
    return (← Spelling.given read members name, ← rest.draft? members)

def value? (layout : Layout) (members : List (String × δ)) : Option layout.Value :=
  (layout.draft? sp members).map layout.complete

/-- Assigns the member that a path of names leads to. Nothing else changes, not even
the numbers that count the member. -/
def assign? (x : δ) : (layout : Layout) → (path : List String) → layout.Value →
    Option layout.Value
  | done, _, _ => none
  | tail name, path, _ => if path = [name] then sp.octets? x else none
  | atom name a rest, path, (old, v) =>
    if path = [name] then return (← sp.atom? a x, v) else return (old, ← rest.assign? x path v)
  | padding _ rest, path, v => rest.assign? x path v
  | word _ fields rest, path, (old, v) =>
    match path with
    | [name] =>
      if fields.any fun field => field.name? = some name then
        return (← sp.word? fields old [(name, x)], v)
      else return (old, ← rest.assign? x path v)
    | _ => return (old, ← rest.assign? x path v)
  | count _ _ _ rest, path, v => rest.assign? x path v
  | tag _ _ _ rest, path, v => rest.assign? x path v
  | sized name s _ rest, path, (old, v) =>
    if path = [name] then return (← sp.sized? s x, v)
    else match s, path with
      | .blob kind, [first, last] =>
        if first = name ∧ last = Spelling.blobMember then
          return (← sp.sized? (.blob kind) (sp.record kind [(last, x)]), v)
        else return (old, ← rest.assign? x path v)
      | _, _ => return (old, ← rest.assign? x path v)
  | record name _ inner rest, path, (old, v) =>
    match path with
    | [] => none
    | first :: inside =>
      if first ≠ name then return (old, ← rest.assign? x path v)
      else if inside.isEmpty then
        return (← inner.value? sp (← sp.members? x), v)
      else return (← inner.assign? x inside old, v)
  | records name _ inner _ rest, path, (old, v) => do
    if path = [name] then
      let items ← sp.list? x
      return (← items.mapM (fun item => sp.members? item >>= inner.value? sp), v)
    else return (old, ← rest.assign? x path v)
  | choice name _ _ inner₀ kind₁ inner₁ rest, path, (old, v) =>
    match path with
    | [] => none
    | first :: inside => do
      if first ≠ name then return (old, ← rest.assign? x path v)
      else if inside.isEmpty then
        let members ← sp.members? x
        if sp.kind? x = some kind₁ then return (.inr (← inner₁.value? sp members), v)
        else return (.inl (← inner₀.value? sp members), v)
      else match old with
        | .inl old => return (.inl (← inner₀.assign? x inside old), v)
        | .inr old => return (.inr (← inner₁.assign? x inside old), v)

end Layout
end Dis
