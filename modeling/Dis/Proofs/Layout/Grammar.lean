import Dis.Proofs.Layout.RoundTrip
import Mathlib.Data.List.Forall2

/-! The octets that spell a value, told without a reader: a grammar for each way of building
readers, and from them one for layouts. A sound layout reads what its grammar spells, that
is all it reads, and no extent that it comes to is negative. -/

namespace Dis

variable {α β : Type}

/-- Octets of the first kind, then octets of the second. -/
def Joined (first second : Octets → Prop) (octets : Octets) : Prop :=
  ∃ front back, octets = front ++ back ∧ first front ∧ second back

/-- One piece after another, each of which spells its own value. -/
def Repeated (spells : α → Octets → Prop) (values : List α) (octets : Octets) : Prop :=
  ∃ pieces, octets = pieces.flatten ∧ List.Forall₂ spells values pieces

/-- Reading takes octets that are spelled so off the front, and wherever they stand there, or
are all there is, it takes them. -/
structure Accepts (reads : Octets → Octets → Prop) (spelled : Octets → Prop) (isBounded : Bool) :
    Prop where
  takes {input left : Octets} : reads input left → ∃ octets, input = octets ++ left ∧ spelled octets
  reads {octets left : Octets} : spelled octets → (isBounded ∨ left = []) →
    reads (octets ++ left) left

namespace Accepts

variable {first second : Octets → Octets → Prop} {spelled later : Octets → Prop}
variable {bounded bounded' : Bool}

theorem of_iff (same : ∀ input left, second input left ↔ first input left)
    (accepts : Accepts first spelled bounded) : Accepts second spelled bounded where
  takes read := accepts.takes ((same _ _).mp read)
  reads spelled ends := (same _ _).mpr (accepts.reads spelled ends)

theorem respell (accepts : Accepts first spelled bounded)
    (same : ∀ octets, spelled octets ↔ later octets) : Accepts first later bounded := by
  rwa [← show spelled = later from funext fun octets => propext (same octets)]

theorem weaken (accepts : Accepts first spelled bounded) (enough : bounded' → bounded) :
    Accepts first spelled bounded' :=
  { accepts with reads := fun spelled ends => accepts.reads spelled (ends.imp_left enough) }

/-- What may follow is asked for only once the first part was read. -/
theorem andThen (accepts : Accepts first spelled bounded)
    (follows : ∀ input middle, first input middle → Accepts second later bounded')
    (stops : bounded ∨ ∀ back, later back → back = []) :
    Accepts (fun input left => ∃ middle, first input middle ∧ second middle left)
      (Joined spelled later) (bounded && bounded') where
  takes := by
    rintro input left ⟨middle, head, tail⟩
    obtain ⟨back, rfl, ended⟩ := (follows _ _ head).takes tail
    obtain ⟨front, rfl, begun⟩ := accepts.takes head
    exact ⟨front ++ back, (List.append_assoc ..).symm, front, back, rfl, begun, ended⟩
  reads := by
    rintro octets left ⟨front, back, rfl, begun, ended⟩ ends
    rw [Bool.and_eq_true] at ends
    have leading : bounded ∨ back ++ left = [] := by
      rcases stops with stops | stops
      · exact Or.inl stops
      · rw [stops back ended]
        exact ends.imp_left And.left
    have head := accepts.reads begun leading
    rw [List.append_assoc]
    exact ⟨back ++ left, head, (follows _ _ head).reads ended (ends.imp_left And.right)⟩

theorem exists_of {reads : α → Octets → Octets → Prop} {spells : α → Octets → Prop}
    (each : ∀ a, Accepts (reads a) (spells a) bounded) :
    Accepts (fun input left => ∃ a, reads a input left) (fun octets => ∃ a, spells a octets)
      bounded where
  takes := by
    rintro input left ⟨a, read⟩
    obtain ⟨octets, rfl, spelled⟩ := (each a).takes read
    exact ⟨octets, rfl, a, spelled⟩
  reads := by
    rintro octets left ⟨a, spelled⟩ ends
    exact ⟨a, (each a).reads spelled ends⟩

theorem and_of {condition : Prop} (accepts : Accepts first spelled bounded) :
    Accepts (fun input left => condition ∧ first input left)
      (fun octets => condition ∧ spelled octets) bounded where
  takes := by
    rintro input left ⟨holds, read⟩
    obtain ⟨octets, rfl, spelled⟩ := accepts.takes read
    exact ⟨octets, rfl, holds, spelled⟩
  reads := by
    rintro octets left ⟨holds, spelled⟩ ends
    exact ⟨holds, accepts.reads spelled ends⟩

end Accepts

namespace Reader

/-- The grammar says of every value what octets the reader takes it from. -/
def HasGrammar (reader : Reader α) (spells : α → Octets → Prop) (isBounded : Bool) : Prop :=
  ∀ a, Accepts (fun input left => reader input = .ok a left) (spells a) isBounded

section Grammar

variable {reader : Reader α} {spells : α → Octets → Prop} {bounded : Bool}

theorem HasGrammar.map {width : Nat} {formula : Octets → α} (f : α → β)
    (grammar : reader.HasGrammar (fun a octets => octets.length = width ∧ a = formula octets) true) :
    (reader >>= fun a => pure (f a)).HasGrammar
      (fun b octets => octets.length = width ∧ b = f (formula octets)) true := by
  intro b
  constructor
  · intro input left read
    obtain ⟨a, middle, first, final⟩ := bind_eq_ok.mp read
    obtain ⟨rfl, rfl⟩ := pure_eq_ok.mp final
    obtain ⟨octets, rfl, size, rfl⟩ := (grammar a).takes first
    exact ⟨octets, rfl, size, rfl⟩
  · rintro octets left ⟨size, rfl⟩ ends
    exact bind_eq_ok.mpr ⟨_, left, (grammar _).reads ⟨size, rfl⟩ ends, rfl⟩

theorem take_hasGrammar (count : Nat) :
    (take count).HasGrammar (fun front octets => octets.length = count ∧ front = octets) true := by
  intro front
  constructor
  · intro input left read
    obtain ⟨rfl, size⟩ := take_eq_ok.mp read
    exact ⟨front, rfl, size, rfl⟩
  · rintro octets left ⟨size, rfl⟩ -
    exact take_eq_ok.mpr ⟨rfl, size⟩

theorem skip_hasGrammar (count : Nat) :
    (skip count).HasGrammar (fun _ octets => octets.length = count) true := by
  intro u
  constructor
  · intro input left read
    exact skip_eq_ok.mp read
  · intro octets left size _
    exact skip_eq_ok.mpr ⟨octets, rfl, size⟩

theorem many_hasGrammar (grammar : reader.HasGrammar spells true) (count : Nat) :
    (many count reader).HasGrammar
      (fun values octets => values.length = count ∧ Repeated spells values octets) true := by
  intro values
  constructor
  · intro input left read
    induction count generalizing values input with
    | zero =>
        obtain ⟨rfl, rfl⟩ := many_zero_eq_ok.mp read
        exact ⟨[], rfl, rfl, [], rfl, .nil⟩
    | succ count ih =>
        obtain ⟨value, rest, middle, first, later, rfl⟩ := many_succ_eq_ok.mp read
        obtain ⟨_, rfl, size, pieces, rfl, tail⟩ := ih rest later
        obtain ⟨front, rfl, head⟩ := (grammar value).takes first
        exact ⟨(front :: pieces).flatten, (List.append_assoc ..).symm, congrArg (· + 1) size,
          front :: pieces, rfl, .cons head tail⟩
  · rintro octets left ⟨rfl, pieces, rfl, spelled⟩ -
    induction spelled with
    | nil => exact many_zero_eq_ok.mpr ⟨rfl, rfl⟩
    | @cons value piece rest pieces head tail ih =>
        refine many_succ_eq_ok.mpr ⟨value, rest, pieces.flatten ++ left, ?_, ih, rfl⟩
        rw [List.flatten_cons, List.append_assoc]
        exact (grammar value).reads head (Or.inl rfl)

end Grammar
end Reader

theorem IntFormat.hasGrammar (format : IntFormat) : format.read.HasGrammar
    (fun n octets => octets.length = format.width ∧ n = format.ofOctets octets) true := by
  intro n
  constructor
  · intro input left read
    exact read_eq_ok.mp read
  · rintro octets left ⟨size, rfl⟩ -
    exact read_eq_ok.mpr ⟨octets, rfl, size, rfl⟩

theorem BitFields.hasGrammar (width : Nat) (fields : List BitField) :
    (BitFields.read width fields).HasGrammar (fun values octets => octets.length = width ∧
      values = BitFields.unpack fields (Octets.toNat octets)) true :=
  (Reader.take_hasGrammar width).map fun octets => unpack fields (Octets.toNat octets)

namespace Atom

/-- Octets that spell a value: as many as the member is wide, and of a text none past ASCII. -/
def Spells : (a : Atom) → a.Value → Octets → Prop
  | int format _, n, front => front.length = format.width ∧ n = format.ofOctets front
  | bits format, n, front => front.length = format.width ∧ n = some (format.ofOctets front)
  | enum e format _, code, front =>
    front.length = format.width ∧ code = e.decode (format.ofOctets front)
  | float format _, x, front => front.length = format.width ∧ x = format.ofOctets front
  | octets count, value, front => front.length = count ∧ value = front
  | text width, value, front =>
    front.length = width ∧ (dropZeros front).all (· < 128) ∧
      value = String.ofList ((dropZeros front).map charOf)

theorem hasGrammar (a : Atom) : a.read.HasGrammar a.Spells true := by
  cases a with
  | int format start => exact format.hasGrammar
  | bits format =>
      have mapped := format.hasGrammar.map some
      rwa [bind_pure_comp] at mapped
  | enum e format start => exact format.hasGrammar.map e.decode
  | float format start => exact (Reader.take_hasGrammar format.width).map format.ofOctets
  | octets count => exact Reader.take_hasGrammar count
  | text width =>
      intro text
      constructor
      · intro input left read
        exact readText_eq_ok.mp read
      · intro front left spelled _
        exact readText_eq_ok.mpr ⟨front, rfl, spelled⟩

end Atom

theorem payloadOctets_natCast (bits : Nat) : payloadOctets bits = ((bits + 7) / 8 : Nat) := by
  rw [payloadOctets, Int.fdiv_eq_ediv_of_nonneg _ (by decide)]
  push_cast
  rfl

theorem toNat_paddingOctets (bits boundary : Nat) :
    (paddingOctets bits boundary).toNat = (boundary - bits % boundary) % boundary / 8 := by
  rw [paddingOctets, Int.fdiv_eq_ediv_of_nonneg _ (by decide)]
  rcases Nat.eq_zero_or_pos boundary with rfl | positive
  · simp only [Int.cast_ofNat_Int, Int.fmod_zero, Nat.mod_zero]
    omega
  · have below : bits % boundary ≤ boundary := Nat.le_of_lt (Nat.mod_lt bits positive)
    have cast : ((boundary : Int) - (bits : Int).fmod boundary).fmod boundary / 8 =
        ((boundary - bits % boundary) % boundary / 8 : Nat) := by
      rw [Int.fmod_eq_emod_of_nonneg _ (by omega), Int.fmod_eq_emod_of_nonneg _ (by omega)]
      push_cast [below]
      rfl
    rw [cast, Int.toNat_natCast]

namespace Sized

/-- Octets that spell a value of the extent. What pads a payload may be anything. -/
def Spells (extent : Nat) : (sized : Sized) → sized.Value → Octets → Prop
  | numbers format, ns, front =>
    (ns : List Int).length = extent ∧
      Repeated (fun n piece => piece.length = format.width ∧ n = format.ofOctets piece) ns front
  | octets, value, front => front.length = extent ∧ value = front
  | payload boundary, value, front =>
    (value : Octets).length = (extent + 7) / 8 ∧ ∃ padding, front = value ++ padding ∧
      padding.length = (boundary - extent % boundary) % boundary / 8
  | blob _, value, front =>
    front.length = extent ∧ value = if front.isEmpty then none else some front

theorem hasGrammar (sized : Sized) (extent : Nat) :
    (sized.read extent).HasGrammar (sized.Spells extent) true := by
  cases sized with
  | numbers format => exact Reader.many_hasGrammar format.hasGrammar extent
  | octets => exact Reader.take_hasGrammar extent
  | payload boundary =>
      have whole : (payloadOctets extent).toNat = (extent + 7) / 8 := by
        rw [payloadOctets_natCast, Int.toNat_natCast]
      have same (value input left : Octets) : readPayload boundary extent input = .ok value left ↔
          ∃ padding, input = value ++ (padding ++ left) ∧ value.length = (extent + 7) / 8 ∧
            padding.length = (boundary - extent % boundary) % boundary / 8 := by
        simp only [readPayload, Reader.bind_eq_ok, Reader.take_eq_ok, Reader.pure_eq_ok, whole,
          toNat_paddingOctets]
        constructor
        · rintro ⟨_, _, ⟨rfl, size⟩, padding, _, ⟨rfl, count⟩, rfl, rfl⟩
          exact ⟨padding, rfl, size, count⟩
        · rintro ⟨padding, rfl, size, count⟩
          exact ⟨value, _, ⟨rfl, size⟩, padding, left, ⟨rfl, count⟩, rfl, rfl⟩
      intro value
      constructor
      · intro input left read
        obtain ⟨padding, rfl, size, count⟩ := (same value input left).mp read
        exact ⟨value ++ padding, (List.append_assoc ..).symm, size, padding, rfl, count⟩
      · rintro _ left ⟨size, padding, rfl, count⟩ -
        exact (same value _ left).mpr ⟨padding, List.append_assoc .., size, count⟩
  | blob kind =>
      exact (Reader.take_hasGrammar extent).map fun octets =>
        if octets.isEmpty then none else some octets

theorem hasGrammar_of_nonneg (sized : Sized) {extent : Int} (nonneg : 0 ≤ extent) :
    (sized.read extent).HasGrammar
      (fun value octets => ∃ n : Nat, extent = n ∧ sized.Spells n value octets) true := by
  obtain ⟨n, rfl⟩ := Int.eq_ofNat_of_zero_le nonneg
  intro value
  refine (sized.hasGrammar n value).respell fun octets => ?_
  simp only [Int.natCast_inj, exists_eq_left']

end Sized

namespace Layout

theorem readCount_hasGrammar (format : IntFormat) (limit : Option Limit) :
    (readCount format limit).HasGrammar
      (fun n octets => (∀ bound ∈ limit, n ≤ bound.most) ∧ octets.length = format.width ∧
        n = format.ofOctets octets) true := by
  intro n
  refine .of_iff (fun input left => ?_) (.and_of (format.hasGrammar n))
  rw [readCount_eq_ok, and_comm]

section Choice

variable {rest inner₀ inner₁ : Layout} {scope : Scope} {input left : Octets}
variable {name teller kind₀ kind₁ : String} {v : rest.Value}

theorem readIn_choice_inl {x : inner₀.Value} (binary : scope.get teller = 0 ∨ scope.get teller = 1) :
    (choice name teller kind₀ inner₀ kind₁ inner₁ rest).readIn scope input = .ok (.inl x, v) left ↔
      ∃ middle, (scope.get teller = 0 ∧ inner₀.readIn [] input = .ok x middle) ∧
        rest.readIn scope middle = .ok v left := by
  rw [readIn_choice]
  grind

theorem readIn_choice_inr {x : inner₁.Value} :
    (choice name teller kind₀ inner₀ kind₁ inner₁ rest).readIn scope input = .ok (.inr x, v) left ↔
      ∃ middle, (scope.get teller = 1 ∧ inner₁.readIn [] input = .ok x middle) ∧
        rest.readIn scope middle = .ok v left := by
  rw [readIn_choice]
  grind

end Choice

/-- The octets that spell a value, behind members that gave the numbers in scope. Extents,
counts and alternatives are those that the numbers say; padding may be anything. -/
def Spells : (layout : Layout) → Scope → layout.Value → Octets → Prop
  | done, _, _ => fun octets => octets = []
  | tail _, _, value => fun octets => octets = value
  | atom name a rest, scope, (x, v) =>
    Joined (a.Spells x) (rest.Spells (scope.bind name (a.number? x)) v)
  | padding width rest, scope, v => Joined (fun front => front.length = width) (rest.Spells scope v)
  | word width fields rest, scope, (x, v) =>
    Joined (fun front => front.length = width ∧ x = BitFields.unpack fields (Octets.toNat front))
      (rest.Spells scope v)
  | count name format limit rest, scope, v => fun octets => ∃ n : Int,
    Joined
      (fun front => (∀ bound ∈ limit, n ≤ bound.most) ∧
        front.length = format.width ∧ n = format.ofOctets front)
      (rest.Spells (scope.bind name (some n)) v) octets
  | tag name e format rest, scope, v => fun octets => ∃ n : Int,
    Joined (fun front => front.length = format.width ∧ n = format.ofOctets front)
      (rest.Spells (scope.bind name (some (e.decode n).number)) v) octets
  | sized _ s extent rest, scope, (x, v) =>
    Joined (fun front => ∃ n : Nat, scope.product extent = n ∧ s.Spells n x front)
      (rest.Spells scope v)
  | record _ _ inner rest, scope, (x, v) => Joined (inner.Spells [] x) (rest.Spells scope v)
  | records _ _ inner counter rest, scope, (xs, v) =>
    Joined (fun front => scope.get counter = xs.length ∧ Repeated (inner.Spells []) xs front)
      (rest.Spells scope v)
  | choice _ teller _ inner₀ _ inner₁ rest, scope, (x, v) =>
    Joined
      (fun front => match x with
        | .inl x => scope.get teller = 0 ∧ inner₀.Spells [] x front
        | .inr x => scope.get teller = 1 ∧ inner₁.Spells [] x front)
      (rest.Spells scope v)

theorem eq_nil_of_spells {layout : Layout} {scope : Scope} {v : layout.Value}
    (done : layout.isDone) (octets : Octets) (spelled : layout.Spells scope v octets) :
    octets = [] := by
  cases layout with
  | done => exact spelled
  | _ => cases done

theorem product_nonneg_of_sound {names : Names} {scope : Scope} {name : String} {s : Sized}
    {extent : List String} {rest : Layout} (sound : (sized name s extent rest).isSoundIn names)
    (fits : scope.Fits names) : 0 ≤ scope.product extent ∧
      ∃ names', rest.isSoundIn names' ∧ scope.Fits names' := by
  simp only [isSoundIn] at sound
  split at sound
  · next counter found =>
    obtain ⟨rfl, listed⟩ := Names.counter?_eq_some found
    rw [Scope.product_singleton]
    exact ⟨fits counter .count listed, _, (Bool.and_eq_true_iff.mp sound).2, fits.without counter⟩
  · simp only [Bool.and_eq_true] at sound
    obtain ⟨⟨-, numbers⟩, sound⟩ := sound
    refine ⟨scope.product_nonneg extent fun other listed => ?_, names, sound, fits⟩
    exact fits other .number (Names.mem_of_isNumber (List.all_eq_true.mp numbers other listed))

theorem hasGrammarIn (layout : Layout) {names : Names} {scope : Scope}
    (sound : layout.isSoundIn names) (fits : scope.Fits names) :
    (layout.readIn scope).HasGrammar (layout.Spells scope) layout.isBounded := by
  -- Over the members, for any names and numbers that fit. The rest of the layout is asked for
  -- only where its front was read, so that what was read there fits its name.
  induction layout generalizing names scope with
  | done =>
      intro v
      constructor
      · intro input left read
        exact ⟨[], (Reader.pure_eq_ok.mp read).2, rfl⟩
      · rintro _ left rfl -
        exact Reader.pure_eq_ok.mpr ⟨rfl, rfl⟩
  | tail name =>
      intro value
      constructor
      · intro input left read
        obtain ⟨rfl, rfl⟩ := Reader.takeAll_eq_ok.mp (Reader.under_eq_ok.mp read)
        exact ⟨_, (List.append_nil _).symm, rfl⟩
      · rintro _ left rfl ends
        obtain rfl : left = [] := by simpa [isBounded] using ends
        exact Reader.under_eq_ok.mpr (Reader.takeAll_eq_ok.mpr ⟨(List.append_nil _).symm, rfl⟩)
  | atom name a rest ih =>
      rintro ⟨x, v⟩
      simp only [isSoundIn, Bool.and_eq_true] at sound
      refine .of_iff (fun _ _ => readIn_atom) ((a.hasGrammar x).andThen ?_ (Or.inl rfl))
      exact fun input middle read => ih sound.2 (fits.after sound.1.2 read) v
  | padding width rest ih =>
      intro v
      refine .of_iff (fun _ _ => readIn_padding) ?_
      refine (Reader.skip_hasGrammar width ()).andThen ?_ (Or.inl rfl)
      exact fun _ _ _ => ih sound fits v
  | word width fields rest ih =>
      rintro ⟨x, v⟩
      simp only [isSoundIn, Bool.and_eq_true] at sound
      refine .of_iff (fun _ _ => readIn_word)
        ((BitFields.hasGrammar width fields x).andThen ?_ (Or.inl rfl))
      exact fun _ _ _ => ih sound.2 fits v
  | count name format limit rest ih =>
      intro v
      simp only [isSoundIn, Bool.and_eq_true, Bool.not_eq_true'] at sound
      refine .of_iff (fun _ _ => readIn_count) (.exists_of fun n => ?_)
      refine (readCount_hasGrammar format limit n).andThen (fun input middle read => ?_) (Or.inl rfl)
      have admits : Role.count.Admits n := nonneg_of_readCount sound.1.1 read
      exact ih sound.2 (fits.cons sound.1.2 admits) v
  | tag name e format rest ih =>
      intro v
      simp only [isSoundIn, Bool.and_eq_true, decide_eq_true_eq] at sound
      obtain ⟨⟨⟨pair, -⟩, fresh⟩, sound⟩ := sound
      refine .of_iff (fun _ _ => readIn_tag) (.exists_of fun n => ?_)
      refine (format.hasGrammar n).andThen (fun _ _ _ => ?_) (Or.inl rfl)
      exact ih sound (fits.cons fresh (e.number_decode_binary pair n)) v
  | sized name s extent rest ih =>
      rintro ⟨x, v⟩
      obtain ⟨nonneg, names', sound, fits⟩ := product_nonneg_of_sound sound fits
      refine .of_iff (fun _ _ => readIn_sized)
        ((s.hasGrammar_of_nonneg nonneg x).andThen ?_ (Or.inl rfl))
      exact fun _ _ _ => ih sound fits v
  | record name kind inner rest ih₀ ih =>
      rintro ⟨x, v⟩
      simp only [isSoundIn, Bool.and_eq_true, Bool.or_eq_true] at sound
      obtain ⟨⟨inside, stops⟩, sound⟩ := sound
      refine .of_iff (fun _ _ => readIn_record) ((ih₀ inside Scope.fits_nil x).andThen ?_ ?_)
      · exact fun _ _ _ => ih sound fits v
      · exact stops.imp_right eq_nil_of_spells
  | records name kind inner counter rest ih₀ ih =>
      rintro ⟨xs, v⟩
      simp only [isSoundIn, Bool.and_eq_true, decide_eq_true_eq] at sound
      obtain ⟨⟨⟨listed, inside⟩, bounded⟩, sound⟩ := sound
      have nonneg : 0 ≤ scope.get counter := fits counter .count listed
      have each : (inner.readIn []).HasGrammar (inner.Spells []) true :=
        bounded ▸ ih₀ inside Scope.fits_nil
      have count : xs.length = (scope.get counter).toNat ↔ scope.get counter = xs.length := by omega
      have all := (Reader.many_hasGrammar each (scope.get counter).toNat xs).respell
        fun front => and_congr_left' count
      refine .of_iff (fun _ _ => readIn_records) (all.andThen ?_ (Or.inl rfl))
      exact fun _ _ _ => ih sound (fits.without counter) v
  | choice name teller kind₀ inner₀ kind₁ inner₁ rest ih₀ ih₁ ih =>
      rintro ⟨x, v⟩
      simp only [isSoundIn, Bool.and_eq_true, Bool.or_eq_true, decide_eq_true_eq] at sound
      obtain ⟨⟨⟨⟨listed, inside₀⟩, inside₁⟩, stops⟩, sound⟩ := sound
      have binary : scope.get teller = 0 ∨ scope.get teller = 1 := fits teller .tag listed
      have later := ih sound (fits.without teller) v
      have weaker : inner₀.isBounded && inner₁.isBounded →
          inner₀.isBounded ∧ inner₁.isBounded := Bool.and_eq_true_iff.mp
      have ends : (inner₀.isBounded && inner₁.isBounded) ∨
          ∀ back, rest.Spells scope v back → back = [] := by
        rw [Bool.and_eq_true]
        exact stops.imp_right eq_nil_of_spells
      cases x with
      | inl x =>
          have first : (inner₀.readIn []).HasGrammar (inner₀.Spells []) inner₀.isBounded :=
            ih₀ inside₀ Scope.fits_nil
          have head := (first x).weaken fun both => (weaker both).1
          exact .of_iff (fun _ _ => readIn_choice_inl binary)
            (head.and_of.andThen (fun _ _ _ => later) ends)
      | inr x =>
          have first : (inner₁.readIn []).HasGrammar (inner₁.Spells []) inner₁.isBounded :=
            ih₁ inside₁ Scope.fits_nil
          have head := (first x).weaken fun both => (weaker both).2
          exact .of_iff (fun _ _ => readIn_choice_inr)
            (head.and_of.andThen (fun _ _ _ => later) ends)

theorem hasGrammar (layout : Layout) (sound : layout.isSound) :
    layout.read.HasGrammar (layout.Spells []) layout.isBounded :=
  layout.hasGrammarIn sound Scope.fits_nil

theorem read_eq_ok (layout : Layout) (sound : layout.isSound) {value : layout.Value}
    {octets : Octets} : layout.read octets = .ok value [] ↔ layout.Spells [] value octets := by
  have grammar := layout.hasGrammar sound value
  constructor
  · intro read
    obtain ⟨octets, rfl, spelled⟩ := grammar.takes read
    rwa [List.append_nil]
  · intro spelled
    have read := grammar.reads spelled (Or.inr rfl)
    rwa [List.append_nil] at read

end Layout
end Dis
