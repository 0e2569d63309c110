import Dis.Proofs.Layout.Sound

/-! What readers leave. It is always the end of what they were given, also when they fail,
and where octets ran out nothing is left. -/

namespace Dis

variable {α β : Type}

namespace Reader

/-- Nothing is read but what is there, and only what is short of octets takes all of them. -/
structure Consumes (reader : Reader α) : Prop where
  read {input left : Octets} {a : α} : reader input = .ok a left → left <:+ input
  stopped {input left : Octets} {fault : ReadError} : reader input = .error fault left →
    left <:+ input ∧ ∀ expected found, fault.fault = .short expected found →
      left = [] ∧ found < expected

theorem bind_eq_error {reader : Reader α} {next : α → Reader β} {input left : Octets}
    {fault : ReadError} : (reader >>= next) input = .error fault left ↔
      reader input = .error fault left ∨
        ∃ a middle, reader input = .ok a middle ∧ next a middle = .error fault left := by
  change EStateM.bind reader next input = _ ↔ _
  unfold EStateM.bind
  cases reader input with
  | ok a middle =>
      simp only [reduceCtorEq, false_or]
      constructor
      · exact fun later => ⟨a, middle, rfl, later⟩
      · rintro ⟨_, _, read, later⟩
        cases read
        exact later
  | error fault left => simp

theorem under_eq_error {name : String} {reader : Reader α} {input left : Octets}
    {fault : ReadError} : reader.under name input = .error fault left ↔
      ∃ inner, reader input = .error inner left ∧ inner.under name = fault := by
  unfold under EStateM.adaptExcept
  cases reader input with
  | ok a middle => simp
  | error inner middle =>
      simp only [EStateM.Result.error.injEq]
      constructor
      · rintro ⟨rfl, rfl⟩
        exact ⟨inner, ⟨rfl, rfl⟩, rfl⟩
      · rintro ⟨_, ⟨rfl, rfl⟩, rfl⟩
        exact ⟨rfl, rfl⟩

section Consumes

variable {reader : Reader α}

theorem consumes_pure (a : α) : Consumes (pure a : Reader α) where
  read read := by
    obtain ⟨-, rfl⟩ := pure_eq_ok.mp read
    exact List.suffix_rfl
  stopped stopped := nomatch stopped

theorem consumes_fail {fault : ReadFault} (other : ∀ expected found, fault ≠ .short expected found) :
    Consumes (fail fault : Reader α) where
  read read := absurd read fail_ne_ok
  stopped := by
    intro input left fault stopped
    cases stopped
    exact ⟨List.suffix_rfl, fun expected found same => absurd same (other expected found)⟩

theorem consumes_take (count : Nat) : Consumes (take count) where
  read read := by
    obtain ⟨rfl, -⟩ := take_eq_ok.mp read
    exact List.suffix_append _ _
  stopped := by
    intro input left fault stopped
    unfold take at stopped
    dsimp only at stopped
    split at stopped
    · cases stopped
    · next short =>
      cases stopped
      refine ⟨List.nil_suffix, ?_⟩
      rintro expected found ⟨⟩
      have most := List.length_take_le count input
      exact ⟨rfl, by omega⟩

theorem consumes_takeAll : Consumes takeAll where
  read read := by
    rw [(takeAll_eq_ok.mp read).2]
    exact List.nil_suffix
  stopped stopped := nomatch stopped

theorem Consumes.bind {next : α → Reader β} (first : reader.Consumes)
    (later : ∀ a, (next a).Consumes) : Consumes (reader >>= next) where
  read read := by
    obtain ⟨a, middle, head, tail⟩ := bind_eq_ok.mp read
    exact ((later a).read tail).trans (first.read head)
  stopped stopped := by
    rcases bind_eq_error.mp stopped with head | ⟨a, middle, head, tail⟩
    · exact first.stopped head
    · obtain ⟨suffix, short⟩ := (later a).stopped tail
      exact ⟨suffix.trans (first.read head), short⟩

theorem Consumes.under (name : String) (first : reader.Consumes) : Consumes (reader.under name) where
  read read := first.read (under_eq_ok.mp read)
  stopped stopped := by
    obtain ⟨inner, failed, rfl⟩ := under_eq_error.mp stopped
    obtain ⟨suffix, short⟩ := first.stopped failed
    exact ⟨suffix, short⟩

theorem Consumes.map (f : α → β) (first : reader.Consumes) : Consumes (f <$> reader) := by
  rw [← bind_pure_comp]
  exact first.bind fun a => consumes_pure (f a)

theorem Consumes.many (each : reader.Consumes) (count : Nat) : Consumes (many count reader) := by
  have onto (done : List α) : Consumes (manyOnto reader done count) := by
    induction count generalizing done with
    | zero => exact consumes_pure done.reverse
    | succ count ih => exact each.bind fun a => ih (a :: done)
  exact onto []

end Consumes
end Reader

theorem IntFormat.consumes (format : IntFormat) : format.read.Consumes :=
  (Reader.consumes_take format.width).bind fun _ => Reader.consumes_pure _

theorem BitFields.consumes (width : Nat) (fields : List BitField) :
    (BitFields.read width fields).Consumes :=
  (Reader.consumes_take width).bind fun _ => Reader.consumes_pure _

theorem Atom.consumes (a : Atom) : a.read.Consumes := by
  cases a with
  | int format start => exact format.consumes
  | bits format => exact format.consumes.map some
  | enum e format start => exact format.consumes.bind fun _ => Reader.consumes_pure _
  | float format start =>
      exact (Reader.consumes_take format.width).bind fun _ => Reader.consumes_pure _
  | octets count => exact Reader.consumes_take count
  | text width =>
      refine (Reader.consumes_take width).bind fun front => ?_
      dsimp only
      split
      · exact Reader.consumes_pure _
      · exact Reader.consumes_fail (by simp)

theorem Sized.consumes (sized : Sized) (extent : Int) : (sized.read extent).Consumes := by
  cases sized with
  | numbers format => exact format.consumes.many extent.toNat
  | octets => exact Reader.consumes_take extent.toNat
  | payload boundary =>
      refine (Reader.consumes_take _).bind fun front => ?_
      exact (Reader.consumes_take _).bind fun _ => Reader.consumes_pure front
  | blob kind => exact (Reader.consumes_take extent.toNat).bind fun _ => Reader.consumes_pure _

namespace Layout

theorem consumes_checkLimit (limit : Option Limit) (n : Int) : (checkLimit limit n).Consumes := by
  unfold checkLimit
  split
  · exact Reader.consumes_pure ()
  · split
    · exact Reader.consumes_pure ()
    · exact Reader.consumes_fail (by simp)

theorem consumes (layout : Layout) (scope : Scope) : (layout.readIn scope).Consumes := by
  induction layout generalizing scope with
  | done =>
      rw [readIn]
      exact Reader.consumes_pure ()
  | tail name => exact Reader.consumes_takeAll.under name
  | atom name a rest ih =>
      refine (a.consumes.under name).bind fun x => ?_
      exact (ih _).bind fun v => Reader.consumes_pure (x, v)
  | padding width rest ih => exact (Reader.consumes_take width).bind fun _ => ih scope
  | word width fields rest ih =>
      refine (BitFields.consumes width fields).bind fun x => ?_
      exact (ih scope).bind fun v => Reader.consumes_pure (x, v)
  | count name format limit rest ih =>
      refine (format.consumes.under name).bind fun n => ?_
      exact (consumes_checkLimit limit n).bind fun _ => ih _
  | tag name e format rest ih => exact (format.consumes.under name).bind fun n => ih _
  | sized name s extent rest ih =>
      refine ((s.consumes _).under name).bind fun x => ?_
      exact (ih scope).bind fun v => Reader.consumes_pure (x, v)
  | record name kind inner rest ih₀ ih =>
      refine ((ih₀ []).under name).bind fun x => ?_
      exact (ih scope).bind fun v => Reader.consumes_pure (x, v)
  | records name kind inner counter rest ih₀ ih =>
      refine (((ih₀ []).many _).under name).bind fun xs => ?_
      exact (ih scope).bind fun v => Reader.consumes_pure (xs, v)
  | choice name teller kind₀ inner₀ kind₁ inner₁ rest ih₀ ih₁ ih =>
      have taken : Reader.Consumes (if scope.get teller = 1 then Sum.inr <$> inner₁.readIn []
          else (Sum.inl <$> inner₀.readIn [] : Reader (inner₀.Value ⊕ inner₁.Value))) := by
        split
        · exact (ih₁ []).map Sum.inr
        · exact (ih₀ []).map Sum.inl
      refine (taken.under name).bind fun x => ?_
      exact (ih scope).bind fun v => Reader.consumes_pure (x, v)

end Layout
end Dis

/-! More octets behind. A reader that ends by itself does not look past its end, so octets that
follow change nothing, also when it fails; only a reader that ran out of octets goes on with them.
Hence what such a reader takes whole it cannot take in part. -/

namespace Dis

variable {α β : Type}

namespace Reader

/-- Octets that follow are left alone, unless the reader was short of octets. -/
structure Steady (reader : Reader α) : Prop where
  read {input left : Octets} {a : α} (more : Octets) : reader input = .ok a left →
    reader (input ++ more) = .ok a (left ++ more)
  stopped {input left : Octets} {fault : ReadError} (more : Octets) :
    reader input = .error fault left → (∀ expected found, fault.fault ≠ .short expected found) →
    reader (input ++ more) = .error fault (left ++ more)

variable {reader : Reader α}

/-- The octets that a reader takes whole have no beginning that it takes, or refuses for any
reason but that octets are missing. -/
theorem Steady.cut (steady : reader.Steady) {front back : Octets} {a : α}
    (read : reader (front ++ back) = .ok a []) (proper : back ≠ []) :
    ∃ fault left expected found, reader front = .error fault left ∧
      fault.fault = .short expected found := by
  cases parsed : reader front with
  | ok b left =>
      have again := steady.read back parsed
      rw [read] at again
      injection again with _ nothing
      exact absurd (List.append_eq_nil_iff.mp nothing.symm).2 proper
  | error fault left =>
      by_cases short : ∃ expected found, fault.fault = .short expected found
      · rcases short with ⟨expected, found, short⟩
        exact ⟨fault, left, expected, found, rfl, short⟩
      · have again := steady.stopped back parsed fun expected found same =>
          short ⟨expected, found, same⟩
        rw [read] at again
        cases again

theorem steady_pure (a : α) : Steady (pure a : Reader α) where
  read more read := by
    rcases pure_eq_ok.mp read with ⟨rfl, rfl⟩
    rfl
  stopped more stopped := nomatch stopped

theorem steady_fail (fault : ReadFault) : Steady (fail fault : Reader α) where
  read more read := absurd read fail_ne_ok
  stopped more stopped other := by
    cases stopped
    rfl

theorem steady_take (count : Nat) : Steady (take count) where
  read more read := by
    rcases take_eq_ok.mp read with ⟨rfl, size⟩
    exact take_eq_ok.mpr ⟨List.append_assoc .., size⟩
  stopped more stopped other := by
    unfold take at stopped
    dsimp only at stopped
    split at stopped
    · cases stopped
    · cases stopped
      exact absurd rfl (other _ _)

theorem Steady.bind {next : α → Reader β} (first : reader.Steady) (later : ∀ a, (next a).Steady) :
    Steady (reader >>= next) where
  read more read := by
    rcases bind_eq_ok.mp read with ⟨a, middle, head, tail⟩
    exact bind_eq_ok.mpr ⟨a, _, first.read more head, (later a).read more tail⟩
  stopped more stopped other := by
    apply bind_eq_error.mpr
    rcases bind_eq_error.mp stopped with head | ⟨a, middle, head, tail⟩
    · exact Or.inl (first.stopped more head other)
    · exact Or.inr ⟨a, _, first.read more head, (later a).stopped more tail other⟩

theorem Steady.under (name : String) (first : reader.Steady) : Steady (reader.under name) where
  read more read := under_eq_ok.mpr (first.read more (under_eq_ok.mp read))
  stopped more stopped other := by
    rcases under_eq_error.mp stopped with ⟨inner, failed, rfl⟩
    exact under_eq_error.mpr ⟨inner, first.stopped more failed other, rfl⟩

theorem Steady.map (f : α → β) (first : reader.Steady) : Steady (f <$> reader) := by
  rw [← bind_pure_comp]
  exact first.bind fun a => steady_pure (f a)

theorem Steady.many (each : reader.Steady) (count : Nat) : Steady (many count reader) := by
  have onto (done : List α) : Steady (manyOnto reader done count) := by
    induction count generalizing done with
    | zero => exact steady_pure done.reverse
    | succ count ih => exact each.bind fun a => ih (a :: done)
  exact onto []

end Reader

theorem IntFormat.steady (format : IntFormat) : format.read.Steady :=
  (Reader.steady_take format.width).bind fun _ => Reader.steady_pure _

theorem BitFields.steady (width : Nat) (fields : List BitField) :
    (BitFields.read width fields).Steady :=
  (Reader.steady_take width).bind fun _ => Reader.steady_pure _

theorem Atom.steady (a : Atom) : a.read.Steady := by
  cases a with
  | int format start => exact format.steady
  | bits format => exact format.steady.map some
  | enum e format start => exact format.steady.bind fun _ => Reader.steady_pure _
  | float format start =>
      exact (Reader.steady_take format.width).bind fun _ => Reader.steady_pure _
  | octets count => exact Reader.steady_take count
  | text width =>
      apply (Reader.steady_take width).bind
      intro front
      dsimp only
      split
      · exact Reader.steady_pure _
      · exact Reader.steady_fail _

theorem Sized.steady (sized : Sized) (extent : Int) : (sized.read extent).Steady := by
  cases sized with
  | numbers format => exact format.steady.many extent.toNat
  | octets => exact Reader.steady_take extent.toNat
  | payload boundary =>
      apply (Reader.steady_take _).bind
      intro front
      exact (Reader.steady_take _).bind fun _ => Reader.steady_pure front
  | blob kind => exact (Reader.steady_take extent.toNat).bind fun _ => Reader.steady_pure _

namespace Layout

theorem steady_checkLimit (limit : Option Limit) (n : Int) : (checkLimit limit n).Steady := by
  unfold checkLimit
  split
  · exact Reader.steady_pure ()
  · split
    · exact Reader.steady_pure ()
    · exact Reader.steady_fail _

-- Soundness is what bounds the records of a collection, each of which another may follow.
theorem steadyIn (layout : Layout) {names : Names} (sound : layout.isSoundIn names)
    (bounded : layout.isBounded) (scope : Scope) : (layout.readIn scope).Steady := by
  induction layout generalizing names scope with
  | done => exact Reader.steady_pure ()
  | tail name => cases bounded
  | atom name a rest ih =>
      simp only [isSoundIn, Bool.and_eq_true] at sound
      apply (a.steady.under name).bind
      intro x
      exact (ih sound.2 bounded _).bind fun v => Reader.steady_pure (x, v)
  | padding width rest ih => exact (Reader.steady_take width).bind fun _ => ih sound bounded scope
  | word width fields rest ih =>
      simp only [isSoundIn, Bool.and_eq_true] at sound
      apply (BitFields.steady width fields).bind
      intro x
      exact (ih sound.2 bounded scope).bind fun v => Reader.steady_pure (x, v)
  | count name format limit rest ih =>
      simp only [isSoundIn, Bool.and_eq_true] at sound
      apply (format.steady.under name).bind
      intro n
      exact (steady_checkLimit limit n).bind fun _ => ih sound.2 bounded _
  | tag name e format rest ih =>
      simp only [isSoundIn, Bool.and_eq_true] at sound
      exact (format.steady.under name).bind fun n => ih sound.2 bounded _
  | sized name s extent rest ih =>
      have later : ∃ names, rest.isSoundIn names := by
        simp only [isSoundIn] at sound
        split at sound
        · exact ⟨_, (Bool.and_eq_true_iff.mp sound).2⟩
        · exact ⟨_, (Bool.and_eq_true_iff.mp sound).2⟩
      rcases later with ⟨names, sound⟩
      apply ((s.steady _).under name).bind
      intro x
      exact (ih sound bounded scope).bind fun v => Reader.steady_pure (x, v)
  | record name kind inner rest ihInner ih =>
      simp only [isSoundIn, isBounded, Bool.and_eq_true] at sound bounded
      apply ((ihInner sound.1.1 bounded.1 []).under name).bind
      intro x
      exact (ih sound.2 bounded.2 scope).bind fun v => Reader.steady_pure (x, v)
  | records name kind inner counter rest ihInner ih =>
      simp only [isSoundIn, Bool.and_eq_true] at sound
      apply (((ihInner sound.1.1.2 sound.1.2 []).many _).under name).bind
      intro xs
      exact (ih sound.2 bounded scope).bind fun v => Reader.steady_pure (xs, v)
  | choice name teller kind₀ inner₀ kind₁ inner₁ rest ih₀ ih₁ ih =>
      simp only [isSoundIn, isBounded, Bool.and_eq_true] at sound bounded
      rcases sound with ⟨⟨⟨⟨-, sound₀⟩, sound₁⟩, -⟩, sound⟩
      have taken : Reader.Steady (if scope.get teller = 1 then Sum.inr <$> inner₁.readIn []
          else (Sum.inl <$> inner₀.readIn [] : Reader (inner₀.Value ⊕ inner₁.Value))) := by
        split
        · exact (ih₁ sound₁ bounded.1.2 []).map Sum.inr
        · exact (ih₀ sound₀ bounded.1.1 []).map Sum.inl
      apply (taken.under name).bind
      intro x
      exact (ih sound bounded.2 scope).bind fun v => Reader.steady_pure (x, v)

theorem steady (layout : Layout) (sound : layout.isSound) (bounded : layout.isBounded) :
    layout.read.Steady := layout.steadyIn sound bounded []

end Layout
end Dis
