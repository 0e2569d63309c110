import Dis.Proofs.Layout.Sound
import Mathlib.Data.List.Forall2

/-! When a layout reads a value: one statement for each kind of member, and from them
that a count or a tag that was read is what the later member calls for. -/

namespace Dis.Layout

variable {rest : Layout} {scope : Scope} {input left : Octets}

theorem checkLimit_eq_ok {limit : Option Limit} {n : Int} {u : Unit} :
    checkLimit limit n input = .ok u left ↔
      (∀ bound ∈ limit, n ≤ bound.most) ∧ input = left := by
  unfold checkLimit
  cases limit with
  | none => simp [Reader.pure_eq_ok]
  | some bound =>
      simp only [Option.mem_def, Option.some.injEq, forall_eq']
      split
      · next within => simp [Reader.pure_eq_ok, within]
      · next above => simp [above, Reader.fail_ne_ok]

def readCount (format : IntFormat) (limit : Option Limit) : Reader Int := do
  let n ← format.read
  checkLimit limit n
  return n

theorem readCount_eq_ok {format : IntFormat} {limit : Option Limit} {n : Int} :
    readCount format limit input = .ok n left ↔
      format.read input = .ok n left ∧ ∀ bound ∈ limit, n ≤ bound.most := by
  simp only [readCount, Reader.bind_eq_ok, checkLimit_eq_ok, Reader.pure_eq_ok]
  grind

theorem nonneg_of_readCount {format : IntFormat} {limit : Option Limit} {n : Int}
    (unsigned : format.isSigned = false) (read : readCount format limit input = .ok n left) :
    0 ≤ n := by
  obtain ⟨octets, rfl, size, rfl⟩ := IntFormat.read_eq_ok.mp (readCount_eq_ok.mp read).1
  exact format.nonneg_of_holds unsigned _ (format.holds_ofOctets octets size)

theorem readIn_atom {name : String} {a : Atom} {x : a.Value} {v : rest.Value} :
    (atom name a rest).readIn scope input = .ok (x, v) left ↔
      ∃ middle, a.read input = .ok x middle ∧
        rest.readIn (scope.bind name (a.number? x)) middle = .ok v left := by
  simp only [readIn, Reader.bind_eq_ok, Reader.under_eq_ok, Reader.pure_eq_ok, Prod.mk.injEq]
  grind

theorem readIn_padding {count : Nat} {v : rest.Value} :
    (padding count rest).readIn scope input = .ok v left ↔
      ∃ middle, Reader.skip count input = .ok () middle ∧ rest.readIn scope middle = .ok v left := by
  simp only [readIn, Reader.skip, Reader.bind_eq_ok, Reader.pure_eq_ok]
  grind

theorem readIn_word {octets : Nat} {fields : List BitField} {x : BitFields.Value fields}
    {v : rest.Value} :
    (word octets fields rest).readIn scope input = .ok (x, v) left ↔
      ∃ middle, BitFields.read octets fields input = .ok x middle ∧
        rest.readIn scope middle = .ok v left := by
  simp only [readIn, Reader.bind_eq_ok, Reader.pure_eq_ok, Prod.mk.injEq]
  grind

theorem readIn_count {name : String} {format : IntFormat} {limit : Option Limit} {v : rest.Value} :
    (count name format limit rest).readIn scope input = .ok v left ↔
      ∃ n middle, readCount format limit input = .ok n middle ∧
        rest.readIn (scope.bind name (some n)) middle = .ok v left := by
  simp only [readIn, readCount_eq_ok, Reader.bind_eq_ok, Reader.under_eq_ok, checkLimit_eq_ok]
  grind

theorem readIn_tag {name : String} {e : Enumeration} {format : IntFormat} {v : rest.Value} :
    (tag name e format rest).readIn scope input = .ok v left ↔
      ∃ n middle, format.read input = .ok n middle ∧
        rest.readIn (scope.bind name (some (e.decode n).number)) middle = .ok v left := by
  simp only [readIn, Reader.bind_eq_ok, Reader.under_eq_ok]

theorem readIn_sized {name : String} {s : Sized} {extent : List String} {x : s.Value}
    {v : rest.Value} :
    (sized name s extent rest).readIn scope input = .ok (x, v) left ↔
      ∃ middle, s.read (scope.product extent) input = .ok x middle ∧
        rest.readIn scope middle = .ok v left := by
  simp only [readIn, Reader.bind_eq_ok, Reader.under_eq_ok, Reader.pure_eq_ok, Prod.mk.injEq]
  grind

theorem readIn_record {name kind : String} {inner : Layout} {x : inner.Value} {v : rest.Value} :
    (record name kind inner rest).readIn scope input = .ok (x, v) left ↔
      ∃ middle, inner.readIn [] input = .ok x middle ∧ rest.readIn scope middle = .ok v left := by
  simp only [readIn, Reader.bind_eq_ok, Reader.under_eq_ok, Reader.pure_eq_ok, Prod.mk.injEq]
  grind

theorem readIn_records {name kind counter : String} {inner : Layout} {xs : List inner.Value}
    {v : rest.Value} :
    (records name kind inner counter rest).readIn scope input = .ok (xs, v) left ↔
      ∃ middle, Reader.many (scope.get counter).toNat (inner.readIn []) input = .ok xs middle ∧
        rest.readIn scope middle = .ok v left := by
  simp only [readIn, Reader.bind_eq_ok, Reader.under_eq_ok, Reader.pure_eq_ok, Prod.mk.injEq]
  grind

theorem readIn_choice {name teller kind₀ kind₁ : String} {inner₀ inner₁ : Layout}
    {x : inner₀.Value ⊕ inner₁.Value} {v : rest.Value} :
    (choice name teller kind₀ inner₀ kind₁ inner₁ rest).readIn scope input = .ok (x, v) left ↔
      ∃ middle, rest.readIn scope middle = .ok v left ∧
        ((scope.get teller = 1 ∧ ∃ y, inner₁.readIn [] input = .ok y middle ∧ .inr y = x) ∨
          (scope.get teller ≠ 1 ∧ ∃ y, inner₀.readIn [] input = .ok y middle ∧ .inl y = x)) := by
  simp only [readIn, Reader.bind_eq_ok, Reader.under_eq_ok, Reader.pure_eq_ok, Prod.mk.injEq]
  by_cases second : scope.get teller = 1
  · simp only [second, if_true, Reader.map_eq_ok]
    grind
  · simp only [second, if_false, Reader.map_eq_ok]
    grind

/-- Reading settles the demand: what a member later calls for is what stood in front. -/
theorem agrees_of_read (layout : Layout) {names : Names} {scope : Scope} {v : layout.Value}
    {input left : Octets} (sound : layout.isSoundIn names) (fits : scope.Fits names)
    (read : layout.readIn scope input = .ok v left) :
    scope.Agrees names fun name => layout.demand name v := by
  -- A name leaves the scope with the member that uses it. Behind that member the claim is
  -- about the other names, and the member itself settles the one that it used.
  induction layout generalizing names scope input with
  | done => exact Scope.agrees_of_isSettled sound
  | tail name => exact Scope.agrees_of_isSettled sound
  | atom name a rest ih =>
      obtain ⟨x, v⟩ := v
      simp only [isSoundIn, Bool.and_eq_true] at sound
      obtain ⟨middle, first, later⟩ := readIn_atom.mp read
      have agrees := ih sound.2 (fits.after sound.1.2 first) later
      exact agrees.of_bind sound.1.2 fun entry listed => Names.mem_after a listed
  | padding count rest ih =>
      obtain ⟨middle, -, later⟩ := readIn_padding.mp read
      exact ih sound fits later
  | word octets fields rest ih =>
      obtain ⟨x, v⟩ := v
      simp only [isSoundIn, Bool.and_eq_true] at sound
      obtain ⟨middle, -, later⟩ := readIn_word.mp read
      exact ih sound.2 fits later
  | count name format limit rest ih =>
      simp only [isSoundIn, Bool.and_eq_true, Bool.not_eq_true'] at sound
      obtain ⟨n, middle, number, later⟩ := readIn_count.mp read
      have admits : Role.count.Admits n := nonneg_of_readCount sound.1.1 number
      have agrees := ih sound.2 (fits.cons sound.1.2 admits) later
      exact agrees.of_bind sound.1.2 fun entry listed => List.mem_cons_of_mem _ listed
  | tag name e format rest ih =>
      simp only [isSoundIn, Bool.and_eq_true, decide_eq_true_eq] at sound
      obtain ⟨⟨⟨pair, -⟩, fresh⟩, sound⟩ := sound
      obtain ⟨n, middle, -, later⟩ := readIn_tag.mp read
      have agrees := ih sound (fits.cons fresh (e.number_decode_binary pair n)) later
      exact agrees.of_bind fresh fun entry listed => List.mem_cons_of_mem _ listed
  | sized name s extent rest ih =>
      obtain ⟨x, v⟩ := v
      obtain ⟨middle, first, later⟩ := readIn_sized.mp read
      simp only [isSoundIn] at sound
      split at sound
      · next counter found =>
        obtain ⟨countable, sound⟩ := Bool.and_eq_true_iff.mp sound
        obtain ⟨rfl, listed⟩ := Names.counter?_eq_some found
        have nonneg : 0 ≤ scope.get counter := fits counter .count listed
        rw [Scope.product_singleton] at first
        refine (ih sound (fits.without counter) later).of_without (fun other different => ?_) ?_
        · simp [demand, different.symm]
        · simp [demand, Sized.extent_of_read countable nonneg first]
      · simp only [Bool.and_eq_true] at sound
        obtain ⟨⟨-, numbers⟩, sound⟩ := sound
        intro other role listed used
        simp only [demand, if_neg (Names.ne_of_all_isNumber numbers listed used)]
        exact ih sound fits later other role listed used
  | record name kind inner rest _ ih =>
      obtain ⟨x, v⟩ := v
      simp only [isSoundIn, Bool.and_eq_true] at sound
      obtain ⟨middle, -, later⟩ := readIn_record.mp read
      exact ih sound.2 fits later
  | records name kind inner counter rest _ ih =>
      obtain ⟨xs, v⟩ := v
      simp only [isSoundIn, Bool.and_eq_true, decide_eq_true_eq] at sound
      obtain ⟨⟨⟨listed, -⟩, -⟩, sound⟩ := sound
      obtain ⟨middle, first, later⟩ := readIn_records.mp read
      have nonneg : 0 ≤ scope.get counter := fits counter .count listed
      have count := Reader.length_of_many first
      refine (ih sound (fits.without counter) later).of_without (fun other different => ?_) ?_
      · simp [demand, different.symm]
      · simp only [demand, if_true]
        omega
  | choice name teller kind₀ inner₀ kind₁ inner₁ rest _ _ ih =>
      obtain ⟨x, v⟩ := v
      simp only [isSoundIn, Bool.and_eq_true, decide_eq_true_eq] at sound
      obtain ⟨⟨⟨⟨listed, -⟩, -⟩, -⟩, sound⟩ := sound
      obtain ⟨middle, later, taken⟩ := readIn_choice.mp read
      have binary : scope.get teller = 0 ∨ scope.get teller = 1 := fits teller .tag listed
      refine (ih sound (fits.without teller) later).of_without (fun other different => ?_) ?_
      · simp [demand, different.symm]
      · rcases taken with ⟨second, y, -, rfl⟩ | ⟨first, y, -, rfl⟩
        · simp [demand, second]
        · simp only [demand, if_true]
          omega

end Dis.Layout

/-! Reading what was written. The scope is the same both ways: a count and a tag are
written as what the later member calls for, and so they are read. -/

namespace Dis.Layout

def norm : (layout : Layout) → layout.Value → layout.Value
  | done, v => v
  | tail _, v => v
  | atom _ a rest, (x, v) => (a.norm x, rest.norm v)
  | padding _ rest, v => rest.norm v
  | word _ fields rest, (x, v) => (BitFields.norm fields x, rest.norm v)
  | count _ _ _ rest, v => rest.norm v
  | tag _ _ _ rest, v => rest.norm v
  | sized _ _ _ rest, (x, v) => (x, rest.norm v)
  | record _ _ inner rest, (x, v) => (inner.norm x, rest.norm v)
  | records _ _ inner _ rest, (xs, v) => (xs.map inner.norm, rest.norm v)
  | choice _ _ _ inner₀ _ inner₁ rest, (x, v) => (x.map inner₀.norm inner₁.norm, rest.norm v)

/-- A tag is used by a choice between two, so one of two numbers is called for. -/
theorem demand_le_one (layout : Layout) {names : Names} {name : String} (v : layout.Value)
    (sound : layout.isSoundIn names) (listed : (name, .tag) ∈ names)
    (alone : ∀ role, (name, role) ∈ names → role = .tag) : layout.demand name v ≤ 1 := by
  induction layout generalizing names with
  | done => exact Nat.zero_le 1
  | tail => exact Nat.zero_le 1
  | atom other a rest ih =>
      simp only [isSoundIn, Bool.and_eq_true] at sound
      refine ih v.2 sound.2 (Names.mem_after a listed) fun role later => alone role ?_
      exact Names.mem_of_mem_after later (Names.ne_of_isFresh sound.1.2 listed)
  | padding count rest ih => exact ih v sound listed alone
  | word octets fields rest ih =>
      simp only [isSoundIn, Bool.and_eq_true] at sound
      exact ih v.2 sound.2 listed alone
  | count other format limit rest ih =>
      simp only [isSoundIn, Bool.and_eq_true] at sound
      have different := Names.ne_of_isFresh sound.1.2 listed
      refine ih v sound.2 (List.mem_cons_of_mem _ listed) fun role later => alone role ?_
      exact List.mem_of_ne_of_mem (fun same => different (congrArg Prod.fst same)) later
  | tag other e format rest ih =>
      simp only [isSoundIn, Bool.and_eq_true] at sound
      have different := Names.ne_of_isFresh sound.1.2 listed
      refine ih v sound.2 (List.mem_cons_of_mem _ listed) fun role later => alone role ?_
      exact List.mem_of_ne_of_mem (fun same => different (congrArg Prod.fst same)) later
  | sized other s extent rest ih =>
      obtain ⟨x, v⟩ := v
      simp only [isSoundIn] at sound
      split at sound
      · next counter found =>
        obtain ⟨rfl, counted⟩ := Names.counter?_eq_some found
        obtain ⟨-, sound⟩ := Bool.and_eq_true_iff.mp sound
        have different : name ≠ counter := by
          rintro rfl
          exact absurd (alone .count counted) (by decide)
        simp only [demand, List.cons.injEq, and_true, if_neg different.symm]
        exact ih v sound (Names.mem_without.mpr ⟨listed, different⟩)
          fun role later => alone role (Names.mem_without.mp later).1
      · simp only [Bool.and_eq_true] at sound
        obtain ⟨⟨-, numbers⟩, sound⟩ := sound
        simp only [demand, if_neg (Names.ne_of_all_isNumber numbers listed (by decide))]
        exact ih v sound listed alone
  | record other kind inner rest _ ih =>
      simp only [isSoundIn, Bool.and_eq_true] at sound
      exact ih v.2 sound.2 listed alone
  | records other kind inner counter rest _ ih =>
      obtain ⟨xs, v⟩ := v
      simp only [isSoundIn, Bool.and_eq_true, decide_eq_true_eq] at sound
      obtain ⟨⟨⟨counted, -⟩, -⟩, sound⟩ := sound
      have different : name ≠ counter := by
        rintro rfl
        exact absurd (alone .count counted) (by decide)
      simp only [demand, if_neg different.symm]
      exact ih v sound (Names.mem_without.mpr ⟨listed, different⟩)
        fun role later => alone role (Names.mem_without.mp later).1
  | choice other teller kind₀ inner₀ kind₁ inner₁ rest _ _ ih =>
      obtain ⟨x, v⟩ := v
      simp only [isSoundIn, Bool.and_eq_true] at sound
      by_cases same : teller = name
      · cases x <;> simp [demand, same]
      · simp only [demand, if_neg same]
        exact ih v sound.2 (Names.mem_without.mpr ⟨listed, fun this => same this.symm⟩)
          fun role later => alone role (Names.mem_without.mp later).1

theorem writeCount_eq_complete {name : String} {format : IntFormat} {limit : Option Limit} {n : Nat}
    {octets : Octets} :
    writeCount name format limit n = ⟨octets, none⟩ ↔
      (∀ bound ∈ limit, n ≤ bound.most) ∧ format.write n = ⟨octets, none⟩ := by
  unfold writeCount
  split
  · next member most =>
    split
    · next within => simp [within, Written.under_eq_complete]
    · next above => simp [above, Written.fail]
  · simp [Written.under_eq_complete]

theorem returns_count (name : String) (format : IntFormat) (limit : Option Limit) (n : Nat) :
    Returns (readCount format limit) (writeCount name format limit n) true (n : Int) := by
  intro octets written more _
  obtain ⟨within, complete⟩ := writeCount_eq_complete.mp written
  exact readCount_eq_ok.mpr ⟨format.returns n octets complete more (Or.inl rfl),
    fun bound set => Int.ofNat_le.mpr (within bound set)⟩

theorem eq_nil_of_isDone {layout : Layout} {scope : Scope} {v : layout.Value} (last : layout.isDone)
    (octets : Octets) (written : layout.writeIn scope v = ⟨octets, none⟩) : octets = [] := by
  cases layout with
  | done => exact Written.empty_eq_complete.mp written
  | _ => cases last

/-- Reading gives a written value back up to `norm`. The counts and tags in scope must be
those that the value calls for; what is left is kept if the layout ends by itself. -/
theorem returns (layout : Layout) {names : Names} {scope : Scope} (v : layout.Value)
    (sound : layout.isSoundIn names) (agrees : scope.Agrees names fun name => layout.demand name v) :
    Returns (layout.readIn scope) (layout.writeIn scope v) layout.isBounded (layout.norm v) := by
  induction layout generalizing names scope with
  | done =>
      intro octets written more _
      obtain rfl := Written.empty_eq_complete.mp written
      rfl
  | tail name =>
      intro octets written more ends
      cases written
      have none : more = [] := by simpa [isBounded] using ends
      rw [none, List.append_nil]
      exact Reader.under_eq_ok.mpr (Reader.takeAll_eq_ok.mpr ⟨rfl, rfl⟩)
  | atom name a rest ih =>
      obtain ⟨x, v⟩ := v
      simp only [isSoundIn, Bool.and_eq_true] at sound
      have later := ih v sound.2 (agrees.after sound.1.2 a (a.number? x))
      refine ((a.returns x).named name).andThen later (Or.inl rfl) fun first last => ?_
      exact readIn_atom.mpr ⟨_, first, by rwa [a.number?_norm]⟩
  | padding count rest ih =>
      exact (Returns.skip count).andThen (ih v sound agrees) (Or.inl rfl)
        fun first last => readIn_padding.mpr ⟨_, first, last⟩
  | word octets fields rest ih =>
      obtain ⟨x, v⟩ := v
      simp only [isSoundIn, Bool.and_eq_true, decide_eq_true_eq] at sound
      exact (BitFields.returns sound.1.2 x).andThen (ih v sound.2 agrees) (Or.inl rfl)
        fun first last => readIn_word.mpr ⟨_, first, last⟩
  | count name format limit rest ih =>
      simp only [isSoundIn, Bool.and_eq_true] at sound
      have later := ih v sound.2 (agrees.cons sound.1.2 rfl)
      exact (returns_count name format limit (rest.demand name v)).andThen later (Or.inl rfl)
        fun first last => readIn_count.mpr ⟨_, _, first, last⟩
  | tag name e format rest ih =>
      simp only [isSoundIn, Bool.and_eq_true, decide_eq_true_eq] at sound
      obtain ⟨⟨⟨pair, -⟩, fresh⟩, sound⟩ := sound
      -- The number is decoded as a member before it enters the scope; 0 and 1 stay as they are.
      have binary : rest.demand name v ≤ 1 := by
        refine rest.demand_le_one v sound List.mem_cons_self fun role listed => ?_
        rcases List.mem_cons.mp listed with first | later
        · exact congrArg Prod.snd first
        · exact absurd rfl (Names.ne_of_isFresh fresh later)
      have kept := e.number_decode_of_knows _ (e.knows_of_binary pair _ binary)
      have later := ih v sound (agrees.cons fresh rfl)
      refine ((format.returns _).named name).andThen later (Or.inl rfl) fun first last => ?_
      exact readIn_tag.mpr ⟨_, _, first, by rwa [kept]⟩
  | sized name s extent rest ih =>
      obtain ⟨x, v⟩ := v
      simp only [isSoundIn] at sound
      split at sound
      · next counter found =>
        obtain ⟨-, sound⟩ := Bool.and_eq_true_iff.mp sound
        obtain ⟨rfl, listed⟩ := Names.counter?_eq_some found
        have count : scope.product [counter] = s.extent x := by
          rw [Scope.product_singleton, agrees counter .count listed (by decide)]
          simp [demand]
        have later := ih v sound (agrees.without fun other different => by
          simp [demand, different.symm])
        exact ((Sized.returns (Or.inr count)).named name).andThen later (Or.inl rfl)
          fun first last => readIn_sized.mpr ⟨_, first, last⟩
      · simp only [Bool.and_eq_true] at sound
        obtain ⟨⟨checked, numbers⟩, sound⟩ := sound
        have later := ih v sound fun other role listed used => by
          simpa only [demand, if_neg (Names.ne_of_all_isNumber numbers listed used)] using
            agrees other role listed used
        exact ((Sized.returns (Or.inl checked)).named name).andThen later (Or.inl rfl)
          fun first last => readIn_sized.mpr ⟨_, first, last⟩
  | record name kind inner rest ih₀ ih =>
      obtain ⟨x, v⟩ := v
      simp only [isSoundIn, Bool.and_eq_true, Bool.or_eq_true] at sound
      obtain ⟨⟨inside, stops⟩, sound⟩ := sound
      -- A record that takes all that is left may stand at the end only.
      exact ((ih₀ x inside Scope.agrees_nil).named name).andThen (ih v sound agrees)
        (stops.imp_right eq_nil_of_isDone) fun first last => readIn_record.mpr ⟨_, first, last⟩
  | records name kind inner counter rest ih₀ ih =>
      obtain ⟨xs, v⟩ := v
      simp only [isSoundIn, Bool.and_eq_true, decide_eq_true_eq] at sound
      obtain ⟨⟨⟨listed, inside⟩, stops⟩, sound⟩ := sound
      have count : (scope.get counter).toNat = xs.length := by
        rw [agrees counter .count listed (by decide)]
        simp [demand]
      have later := ih v sound (agrees.without fun other different => by
        simp [demand, different.symm])
      have each : ∀ x ∈ xs, Returns (inner.readIn []) (inner.writeIn [] x) true (inner.norm x) :=
        fun x _ => stops ▸ ih₀ x inside Scope.agrees_nil
      exact ((Returns.many xs each).named name).andThen later (Or.inl rfl)
        fun first last => readIn_records.mpr ⟨_, by rwa [count], last⟩
  | choice name teller kind₀ inner₀ kind₁ inner₁ rest ih₀ ih₁ ih =>
      obtain ⟨x, v⟩ := v
      simp only [isSoundIn, Bool.and_eq_true, Bool.or_eq_true, decide_eq_true_eq] at sound
      obtain ⟨⟨⟨⟨listed, inside₀⟩, inside₁⟩, stops⟩, sound⟩ := sound
      have later := ih v sound (agrees.without fun other different => by
        simp [demand, different.symm])
      have taken := agrees teller .tag listed (by decide)
      have both : (inner₀.isBounded && inner₁.isBounded) ∨ rest.isDone := by
        rwa [Bool.and_eq_true]
      cases x with
      | inl x =>
          have first : Returns (inner₀.readIn []) (inner₀.writeIn [] x)
              (inner₀.isBounded && inner₁.isBounded) (inner₀.norm x) :=
            (ih₀ x inside₀ Scope.agrees_nil).weaken (And.left ∘ Bool.and_eq_true_iff.mp)
          have other : scope.get teller ≠ 1 := by simp [taken, demand]
          exact (first.named name).andThen later (both.imp_right eq_nil_of_isDone)
            fun first last => readIn_choice.mpr ⟨_, last, Or.inr ⟨other, _, first, rfl⟩⟩
      | inr x =>
          have first : Returns (inner₁.readIn []) (inner₁.writeIn [] x)
              (inner₀.isBounded && inner₁.isBounded) (inner₁.norm x) :=
            (ih₁ x inside₁ Scope.agrees_nil).weaken (And.right ∘ Bool.and_eq_true_iff.mp)
          have second : scope.get teller = 1 := by simp [taken, demand]
          exact (first.named name).andThen later (both.imp_right eq_nil_of_isDone)
            fun first last => readIn_choice.mpr ⟨_, last, Or.inl ⟨second, _, first, rfl⟩⟩

theorem read_of_write (layout : Layout) (sound : layout.isSound) {v : layout.Value}
    {octets : Octets} (written : layout.write v = ⟨octets, none⟩) :
    layout.read octets = .ok (layout.norm v) [] := by
  have returns : Returns (layout.readIn []) (layout.writeIn [] v) layout.isBounded (layout.norm v) :=
    layout.returns v sound Scope.agrees_nil
  have read := returns octets written [] (Or.inr rfl)
  rwa [List.append_nil] at read

/-! What a written value becomes when it is read again: member by member, and nothing is
lost but what `Atom.Becomes` and `BitField.Becomes` name. -/

def Becomes : (layout : Layout) → (before after : layout.Value) → Prop
  | done, _, _ => True
  | tail _, before, after => after = before
  | atom _ a rest, (x, before), (y, after) => a.Becomes x y ∧ rest.Becomes before after
  | padding _ rest, before, after => rest.Becomes before after
  | word _ fields rest, (x, before), (y, after) =>
    BitFields.Becomes fields x y ∧ rest.Becomes before after
  | count _ _ _ rest, before, after => rest.Becomes before after
  | tag _ _ _ rest, before, after => rest.Becomes before after
  | sized _ _ _ rest, (x, before), (y, after) => y = x ∧ rest.Becomes before after
  | record _ _ inner rest, (x, before), (y, after) =>
    inner.Becomes x y ∧ rest.Becomes before after
  | records _ _ inner _ rest, (xs, before), (ys, after) =>
    List.Forall₂ inner.Becomes xs ys ∧ rest.Becomes before after
  | choice _ _ _ inner₀ _ inner₁ rest, (x, before), (y, after) =>
    Sum.LiftRel inner₀.Becomes inner₁.Becomes x y ∧ rest.Becomes before after

theorem becomes_norm (layout : Layout) {scope : Scope} {v : layout.Value} {octets : Octets}
    (written : layout.writeIn scope v = ⟨octets, none⟩) : layout.Becomes v (layout.norm v) := by
  induction layout generalizing scope octets with
  | done => trivial
  | tail name => rfl
  | atom name a rest ih =>
      obtain ⟨x, v⟩ := v
      simp only [writeIn, Written.append_eq_complete, Written.under_eq_complete] at written
      obtain ⟨front, back, head, tail, -⟩ := written
      exact ⟨Atom.becomes_norm head, ih tail⟩
  | padding count rest ih =>
      simp only [writeIn, Written.append_eq_complete] at written
      obtain ⟨front, back, -, tail, -⟩ := written
      exact ih tail
  | word octets fields rest ih =>
      obtain ⟨x, v⟩ := v
      simp only [writeIn, Written.append_eq_complete] at written
      obtain ⟨front, back, -, tail, -⟩ := written
      exact ⟨BitFields.becomes_norm fields x, ih tail⟩
  | count name format limit rest ih =>
      simp only [writeIn, Written.append_eq_complete] at written
      obtain ⟨front, back, -, tail, -⟩ := written
      exact ih tail
  | tag name e format rest ih =>
      simp only [writeIn, Written.append_eq_complete] at written
      obtain ⟨front, back, -, tail, -⟩ := written
      exact ih tail
  | sized name s extent rest ih =>
      obtain ⟨x, v⟩ := v
      simp only [writeIn, Written.append_eq_complete] at written
      obtain ⟨front, back, -, tail, -⟩ := written
      exact ⟨rfl, ih tail⟩
  | record name kind inner rest ih₀ ih =>
      obtain ⟨x, v⟩ := v
      simp only [writeIn, Written.append_eq_complete, Written.under_eq_complete] at written
      obtain ⟨front, back, head, tail, -⟩ := written
      exact ⟨ih₀ head, ih tail⟩
  | records name kind inner counter rest ih₀ ih =>
      obtain ⟨xs, v⟩ := v
      simp only [writeIn, Written.append_eq_complete, Written.under_eq_complete] at written
      obtain ⟨front, back, head, tail, -⟩ := written
      have each := Written.forall_of_all (fun x front complete => ih₀ complete) head
      exact ⟨List.forall₂_map_right_iff.mpr (List.forall₂_same.mpr each), ih tail⟩
  | choice name teller kind₀ inner₀ kind₁ inner₁ rest ih₀ ih₁ ih =>
      obtain ⟨x, v⟩ := v
      simp only [writeIn, Written.append_eq_complete, Written.under_eq_complete] at written
      obtain ⟨front, back, head, tail, -⟩ := written
      refine ⟨?_, ih tail⟩
      cases x with
      | inl x => exact .inl (ih₀ head)
      | inr x => exact .inr (ih₁ head)

end Dis.Layout
