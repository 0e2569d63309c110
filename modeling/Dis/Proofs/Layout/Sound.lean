import Dis.Layout
import Dis.Proofs.Atom

/-! Members whose extent is given by numbers in front of them. Some check the extent
when they are written; of the others it must be said that it is the one they call for. -/

namespace Dis

namespace Scope

@[simp] theorem product_singleton (scope : Scope) (name : String) :
    scope.product [name] = scope.get name := by
  simp [product]

theorem product_nonneg (scope : Scope) (names : List String)
    (each : ∀ name ∈ names, 0 ≤ scope.get name) : 0 ≤ scope.product names := by
  have general : ∀ n : Int, 0 ≤ n → 0 ≤ names.foldl (fun n name => n * scope.get name) n := by
    induction names with
    | nil => exact fun _ nonneg => nonneg
    | cons name rest ih =>
        intro n nonneg
        have first := Int.mul_nonneg nonneg (each name List.mem_cons_self)
        exact ih (fun other member => each other (List.mem_cons_of_mem name member)) _ first
  exact general 1 (by decide)

end Scope

theorem payloadOctets_nonneg {bits : Int} (nonneg : 0 ≤ bits) : 0 ≤ payloadOctets bits :=
  Int.fdiv_nonneg (by omega) (by decide)

namespace Sized

def isChecked : Sized → Bool
  | octets => true
  | payload _ => true
  | _ => false

def isCountable : Sized → Bool
  | payload _ => false
  | _ => true

def spans : (sized : Sized) → (extent : Int) → sized.Value → List Span
  | numbers format, _, ns => ns.flatMap fun _ => [.plain format.width]
  | octets, _, (os : Octets) => [.plain os.length]
  | payload boundary, bits, (os : Octets) =>
    [.plain os.length] ++ [.padding (paddingOctets bits boundary).toNat]
  | blob _, _, none => []
  | blob _, _, some (os : Octets) => [.plain os.length]

variable {sized : Sized} {extent : Int} {value : sized.Value}

theorem returns (agrees : sized.isChecked ∨ extent = sized.extent value) :
    Returns (sized.read extent) (sized.write extent value) true value := by
  intro os written more _
  cases sized with
  | numbers format =>
      obtain rfl : extent = (numbers format).extent value := by simpa [isChecked] using agrees
      have each : ∀ n ∈ (value : List Int), Returns format.read (format.write n) true (id n) :=
        fun n _ => format.returns n
      have all := Returns.many value each os written more (Or.inl rfl)
      rw [List.map_id] at all
      exact all
  | octets =>
      simp only [write] at written
      split at written
      · next size =>
        cases written
        exact Reader.take_eq_ok.mpr ⟨rfl, by omega⟩
      · exact absurd written Written.fail_ne_complete
  | payload boundary =>
      simp only [write] at written
      split at written
      · next size =>
        cases written
        rw [List.append_assoc]
        refine Reader.bind_eq_ok.mpr ⟨value, _, Reader.take_eq_ok.mpr ⟨rfl, by omega⟩, ?_⟩
        exact Reader.bind_eq_ok.mpr
          ⟨_, more, Reader.take_eq_ok.mpr ⟨rfl, Octets.length_zeros _⟩, rfl⟩
      · exact absurd written Written.fail_ne_complete
  | blob kind =>
      obtain rfl : extent = Sized.extent (blob kind) value := by simpa [isChecked] using agrees
      match value with
      | none =>
          obtain rfl := Written.empty_eq_complete.mp written
          exact Reader.bind_eq_ok.mpr ⟨[], more, Reader.take_eq_ok.mpr ⟨rfl, rfl⟩, rfl⟩
      | some [] => exact absurd written Written.fail_ne_complete
      | some (octet :: rest) =>
          cases written
          exact Reader.bind_eq_ok.mpr ⟨octet :: rest, more, Reader.take_eq_ok.mpr ⟨rfl, rfl⟩, rfl⟩

theorem extent_of_read {input rest : Octets} (countable : sized.isCountable) (nonneg : 0 ≤ extent)
    (read : sized.read extent input = .ok value rest) : (sized.extent value : Int) = extent := by
  cases sized with
  | numbers format =>
      have count : (value : List Int).length = extent.toNat := Reader.length_of_many read
      change ((value : List Int).length : Int) = extent
      omega
  | octets =>
      have size := (Reader.take_eq_ok.mp read).2
      change ((value : Octets).length : Int) = extent
      omega
  | payload boundary => exact absurd countable (by simp [isCountable])
  | blob kind =>
      obtain ⟨os, middle, taken, final⟩ := Reader.bind_eq_ok.mp read
      have size := (Reader.take_eq_ok.mp taken).2
      obtain ⟨rfl, -⟩ := Reader.pure_eq_ok.mp final
      cases os with
      | nil =>
          simp only [List.length_nil] at size
          change ((0 : Nat) : Int) = extent
          omega
      | cons octet tail =>
          change ((octet :: tail).length : Int) = extent
          omega

theorem recovers {input rest : Octets} (nonneg : 0 ≤ extent)
    (read : sized.read extent input = .ok value rest) :
    ∃ os, input = os ++ rest ∧
      Recovers (sized.read extent) (sized.spans extent value) (sized.write extent value) true value
        os := by
  cases sized with
  | numbers format =>
      exact Recovers.many read fun n input rest number => IntFormat.recovers number
  | octets =>
      obtain ⟨rfl, size⟩ := Reader.take_eq_ok.mp read
      have written : write octets extent value = ⟨value, none⟩ := if_pos (by omega)
      rw [written]
      exact ⟨value, rfl, Reader.recovers_take size⟩
  | payload boundary =>
      obtain ⟨os, middle, taken, later⟩ := Reader.bind_eq_ok.mp read
      obtain ⟨zeros, last, skipped, final⟩ := Reader.bind_eq_ok.mp later
      obtain ⟨rfl, size⟩ := Reader.take_eq_ok.mp taken
      obtain ⟨rfl, count⟩ := Reader.take_eq_ok.mp skipped
      obtain ⟨rfl, rfl⟩ := Reader.pure_eq_ok.mp final
      have whole := payloadOctets_nonneg nonneg
      have written : write (payload boundary) extent os =
          ⟨os, none⟩ ++ (⟨Octets.zeros (paddingOctets extent boundary).toNat, none⟩ : Written) :=
        if_pos (by omega)
      refine ⟨os ++ zeros, (List.append_assoc ..).symm, ?_⟩
      rw [written]
      refine (Reader.recovers_take size).andThen (Recovers.skip count) (Or.inl rfl) ?_
      intro input middle left first padding
      obtain ⟨front, rfl, filled⟩ := Reader.skip_eq_ok.mp padding
      refine Reader.bind_eq_ok.mpr ⟨os, _, first, ?_⟩
      exact Reader.bind_eq_ok.mpr ⟨front, left, Reader.take_eq_ok.mpr ⟨rfl, filled⟩, rfl⟩
  | blob kind =>
      obtain ⟨os, middle, taken, final⟩ := Reader.bind_eq_ok.mp read
      obtain ⟨rfl, size⟩ := Reader.take_eq_ok.mp taken
      obtain ⟨rfl, rfl⟩ := Reader.pure_eq_ok.mp final
      refine ⟨os, rfl, ?_⟩
      have taking := (Reader.recovers_take size).map
        fun os : Octets => if os.isEmpty then none else some os
      cases os with
      | nil =>
          refine ⟨rfl, rfl, fun other alike => taking.reads other ?_⟩
          rw [List.eq_nil_of_length_eq_zero alike.size]
          exact ⟨rfl, rfl⟩
      | cons octet tail => exact taking

end Sized

/-! Layouts whose values survive the wire. Every count and every tag is used by exactly
one later member, extents are made of numbers that are never negative, and nothing
follows a member that takes all that is left. The names in front of a layout are kept
with what each may be used for; the test runs once for a layout, not for its values. -/

/-- What a name in front may be used for. -/
inductive Role where
  -- A factor of an extent.
  | number
  -- The count of one later collection.
  | count
  -- The alternative of one later choice.
  | tag
  deriving DecidableEq

def Role.Admits : Role → Int → Prop
  | tag, n => n = 0 ∨ n = 1
  | _, n => 0 ≤ n

abbrev Names := List (String × Role)

namespace Names

def isFresh (names : Names) (name : String) : Bool := names.all fun entry => entry.1 ≠ name

def without (names : Names) (name : String) : Names := names.filter fun entry => entry.1 ≠ name

def isSettled (names : Names) : Bool := names.all fun entry => entry.2 = .number

def isNumber (names : Names) (name : String) : Bool :=
  decide ((name, .number) ∈ names) && names.all fun entry => entry.1 ≠ name || entry.2 = .number

def counter? (names : Names) : List String → Option String
  | [name] => if (name, Role.count) ∈ names then some name else none
  | _ => none

def after (names : Names) (name : String) (a : Atom) : Names :=
  if a.isUnsigned then (name, .number) :: names else names

variable {names : Names} {name other : String} {role : Role}

theorem ne_of_isFresh (fresh : names.isFresh name) (listed : (other, role) ∈ names) :
    other ≠ name := by
  simpa using List.all_eq_true.mp fresh _ listed

theorem mem_without : (other, role) ∈ names.without name ↔ (other, role) ∈ names ∧ other ≠ name := by
  simp [without]

theorem role_of_isSettled (settled : names.isSettled) (listed : (other, role) ∈ names) :
    role = .number := by
  simpa using List.all_eq_true.mp settled _ listed

theorem mem_of_isNumber (number : names.isNumber name) : (name, .number) ∈ names := by
  simp only [isNumber, Bool.and_eq_true, decide_eq_true_eq] at number
  exact number.1

theorem role_of_isNumber (number : names.isNumber name) (listed : (name, role) ∈ names) :
    role = .number := by
  simp only [isNumber, Bool.and_eq_true] at number
  simpa using List.all_eq_true.mp number.2 _ listed

theorem ne_of_all_isNumber {extent : List String} (numbers : extent.all names.isNumber)
    (listed : (name, role) ∈ names) (used : role ≠ .number) : extent ≠ [name] := by
  rintro rfl
  exact used (role_of_isNumber (by simpa using numbers) listed)

theorem counter?_eq_some {extent : List String} (found : names.counter? extent = some name) :
    extent = [name] ∧ (name, .count) ∈ names := by
  unfold counter? at found
  split at found
  · split at found
    · next listed =>
      cases found
      exact ⟨rfl, listed⟩
    · cases found
  · cases found

theorem mem_after (a : Atom) (listed : (other, role) ∈ names) :
    (other, role) ∈ names.after name a := by
  unfold after
  split
  · exact List.mem_cons_of_mem _ listed
  · exact listed

theorem mem_of_mem_after {a : Atom} (listed : (other, role) ∈ names.after name a)
    (different : other ≠ name) : (other, role) ∈ names := by
  unfold after at listed
  split at listed
  · exact List.mem_of_ne_of_mem (fun same => different (congrArg Prod.fst same)) listed
  · exact listed

end Names

namespace Layout

def isDone : Layout → Bool
  | done => true
  | _ => false

/-- Does the layout end by itself, whatever follows? -/
def isBounded : Layout → Bool
  | done => true
  | tail _ => false
  | atom _ _ rest => rest.isBounded
  | padding _ rest => rest.isBounded
  | word _ _ rest => rest.isBounded
  | count _ _ _ rest => rest.isBounded
  | tag _ _ _ rest => rest.isBounded
  | sized _ _ _ rest => rest.isBounded
  | record _ _ inner rest => inner.isBounded && rest.isBounded
  | records _ _ _ _ rest => rest.isBounded
  | choice _ _ _ inner₀ _ inner₁ rest => (inner₀.isBounded && inner₁.isBounded) && rest.isBounded

/-- Is the layout sound behind those names? -/
def isSoundIn : Layout → Names → Bool
  | done, names => names.isSettled
  | tail _, names => names.isSettled
  | atom name a rest, names =>
    a.isSound && names.isFresh name && rest.isSoundIn (names.after name a)
  | padding _ rest, names => rest.isSoundIn names
  | word octets fields rest, names =>
    fields.all BitField.isSound && decide (BitFields.width fields ≤ 8 * octets) &&
      rest.isSoundIn names
  | count name format _ rest, names =>
    !format.isSigned && names.isFresh name && rest.isSoundIn ((name, .count) :: names)
  | tag name e format rest, names =>
    decide (e.members.map Prod.snd = [0, 1]) && decide (format.Holds e.fallback.2) &&
      names.isFresh name && rest.isSoundIn ((name, .tag) :: names)
  | sized _ s extent rest, names =>
    match names.counter? extent with
    | some counter => s.isCountable && rest.isSoundIn (names.without counter)
    | none => s.isChecked && extent.all names.isNumber && rest.isSoundIn names
  | record _ _ inner rest, names =>
    inner.isSoundIn [] && (inner.isBounded || rest.isDone) && rest.isSoundIn names
  | records _ _ inner counter rest, names =>
    decide ((counter, .count) ∈ names) && inner.isSoundIn [] && inner.isBounded &&
      rest.isSoundIn (names.without counter)
  | choice _ teller _ inner₀ _ inner₁ rest, names =>
    decide ((teller, .tag) ∈ names) && inner₀.isSoundIn [] && inner₁.isSoundIn [] &&
      ((inner₀.isBounded && inner₁.isBounded) || rest.isDone) &&
      rest.isSoundIn (names.without teller)

def isSound (layout : Layout) : Bool := layout.isSoundIn []

end Layout

namespace Scope

variable {scope : Scope} {name other : String}

@[simp] theorem get_bind_self (n : Int) : (scope.bind name (some n)).get name = n := by
  simp [bind, get]

theorem get_bind_ne (number : Option Int) (different : other ≠ name) :
    (scope.bind name number).get other = scope.get other := by
  cases number with
  | none => rfl
  | some n => simp [bind, get, List.lookup_cons, beq_eq_false_iff_ne.mpr different]

def Fits (scope : Scope) (names : Names) : Prop :=
  ∀ name role, (name, role) ∈ names → role.Admits (scope.get name)

/-- Every count and every tag in scope is what a later member calls for. -/
def Agrees (scope : Scope) (names : Names) (demand : String → Nat) : Prop :=
  ∀ name role, (name, role) ∈ names → role ≠ .number → scope.get name = demand name

variable {names : Names} {demand : String → Nat} {role : Role}

theorem fits_nil : Fits scope [] := by
  intro name role listed
  cases listed

theorem agrees_nil : Agrees scope [] demand := by
  intro name role listed
  cases listed

theorem agrees_of_isSettled (settled : names.isSettled) : Agrees scope names demand := by
  intro name role listed used
  exact absurd (Names.role_of_isSettled settled listed) used

theorem Fits.keep (fits : scope.Fits names) (fresh : names.isFresh name) (number : Option Int) :
    (scope.bind name number).Fits names := by
  intro other role listed
  rw [get_bind_ne number (Names.ne_of_isFresh fresh listed)]
  exact fits other role listed

theorem Fits.cons (fits : scope.Fits names) (fresh : names.isFresh name) {n : Int}
    (admits : role.Admits n) : (scope.bind name (some n)).Fits ((name, role) :: names) := by
  intro other role' listed
  rcases List.mem_cons.mp listed with first | later
  · cases first
    rwa [get_bind_self]
  · exact fits.keep fresh (some n) other role' later

theorem Fits.without (fits : scope.Fits names) (name : String) :
    scope.Fits (names.without name) := by
  intro other role listed
  exact fits other role (Names.mem_without.mp listed).1

theorem Fits.after (fits : scope.Fits names) (fresh : names.isFresh name) {a : Atom}
    {value : a.Value} {input rest : Octets} (read : a.read input = .ok value rest) :
    (scope.bind name (a.number? value)).Fits (names.after name a) := by
  unfold Names.after
  split
  · next unsigned =>
    obtain ⟨n, number, nonneg⟩ := Atom.number?_of_read unsigned read
    rw [number]
    exact fits.cons fresh nonneg
  · exact fits.keep fresh _

theorem Agrees.keep (agrees : scope.Agrees names demand) (fresh : names.isFresh name)
    (number : Option Int) : (scope.bind name number).Agrees names demand := by
  intro other role listed used
  rw [get_bind_ne number (Names.ne_of_isFresh fresh listed)]
  exact agrees other role listed used

theorem Agrees.cons (agrees : scope.Agrees names demand) (fresh : names.isFresh name) {n : Int}
    (same : n = demand name) : (scope.bind name (some n)).Agrees ((name, role) :: names) demand := by
  intro other role' listed used
  rcases List.mem_cons.mp listed with first | later
  · cases first
    rwa [get_bind_self]
  · exact agrees.keep fresh (some n) other role' later used

theorem Agrees.after (agrees : scope.Agrees names demand) (fresh : names.isFresh name) (a : Atom)
    (number : Option Int) : (scope.bind name number).Agrees (names.after name a) demand := by
  unfold Names.after
  split
  · intro other role' listed used
    rcases List.mem_cons.mp listed with first | later
    · cases first
      exact absurd rfl used
    · exact agrees.keep fresh number other role' later used
  · exact agrees.keep fresh number

-- A member that uses up a name may change the demand for that name only.
theorem Agrees.without {demand' : String → Nat} (agrees : scope.Agrees names demand)
    (same : ∀ other, other ≠ name → demand other = demand' other) :
    scope.Agrees (names.without name) demand' := by
  intro other role listed used
  obtain ⟨listed, different⟩ := Names.mem_without.mp listed
  rw [agrees other role listed used, same other different]

theorem Agrees.of_without {demand' : String → Nat}
    (agrees : scope.Agrees (names.without name) demand')
    (same : ∀ other, other ≠ name → demand other = demand' other)
    (used : scope.get name = demand name) : scope.Agrees names demand := by
  intro other role listed pending
  by_cases this : other = name
  · rw [this, used]
  · rw [agrees other role (Names.mem_without.mpr ⟨listed, this⟩) pending, same other this]

theorem Agrees.of_bind {names' : Names} {number : Option Int}
    (agrees : (scope.bind name number).Agrees names' demand) (fresh : names.isFresh name)
    (kept : ∀ entry ∈ names, entry ∈ names') : scope.Agrees names demand := by
  intro other role listed used
  rw [← get_bind_ne number (Names.ne_of_isFresh fresh listed)]
  exact agrees other role (kept _ listed) used

end Scope
end Dis
