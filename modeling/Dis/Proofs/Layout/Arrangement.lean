import Dis.Proofs.Layout.Grammar
import Dis.Proofs.Layout.Size

/-! Where the members of a record stand. Members of fixed size are passed over by their widths,
whichever way the octets came about; what stands behind them is counted in front. -/

namespace Dis

variable {α : Type}

theorem Repeated.at_stride {spells : α → Octets → Prop} {width : Nat} {values : List α}
    {octets : Octets} (sized : ∀ value piece, spells value piece → piece.length = width)
    (repeated : Repeated spells values octets) :
    octets.length = width * values.length ∧
      ∀ i (inside : i < values.length) (more : Octets),
        spells values[i] (((octets ++ more).drop (width * i)).take width) := by
  obtain ⟨pieces, rfl, each⟩ := repeated
  induction each with
  | nil => exact ⟨rfl, fun i inside => absurd inside (Nat.not_lt_zero i)⟩
  | @cons value piece rest pieces head tail ih =>
      have size := sized value piece head
      constructor
      · rw [List.flatten_cons, List.length_append, size, ih.1, List.length_cons, Nat.mul_succ,
          Nat.add_comm]
      · intro i inside more
        rw [List.flatten_cons, List.append_assoc]
        cases i with
        | zero =>
            rw [Nat.mul_zero, List.drop_zero, List.take_left' size]
            exact head
        | succ i =>
            rw [Nat.mul_succ, Nat.add_comm (width * i), ← List.drop_drop, List.drop_left' size]
            exact ih.2 i (Nat.lt_of_succ_lt_succ inside) more

theorem Repeated.imp {spells spells' : α → Octets → Prop} {values : List α} {octets : Octets}
    (weaker : ∀ value piece, spells value piece → spells' value piece)
    (repeated : Repeated spells values octets) : Repeated spells' values octets := by
  obtain ⟨pieces, rfl, each⟩ := repeated
  exact ⟨pieces, rfl, each.imp weaker⟩

theorem Written.repeated_of_all {write : α → Written} {values : List α} {octets : Octets}
    (written : all write values = ⟨octets, none⟩) :
    Repeated (fun value piece => write value = ⟨piece, none⟩) values octets := by
  induction values generalizing octets with
  | nil => exact ⟨[], all_nil_eq_complete.mp written, .nil⟩
  | cons value rest ih =>
      obtain ⟨front, back, head, tail, rfl⟩ := all_cons_eq_complete.mp written
      obtain ⟨pieces, rfl, each⟩ := ih tail
      exact ⟨front :: pieces, rfl, .cons head each⟩

theorem Atom.length_of_spells {a : Atom} {x : a.Value} {front : Octets}
    (spelled : a.Spells x front) : front.length = a.width := by
  cases a <;> exact spelled.1

/-- The two ways between values and octets. -/
inductive Way where
  | encoding
  | decoding

namespace Way

/-- Octets that a value of the layout is written as, or is read from. -/
def Pairs : Way → (layout : Layout) → layout.Value → Octets → Prop
  | encoding, layout, v, octets => layout.write v = ⟨octets, none⟩
  | decoding, layout, v, octets => layout.read octets = .ok v []

/-- What stands where no member does: zeros are written, and anything is read. -/
def Blank : Way → (width : Nat) → Octets → Prop
  | encoding, width, octets => octets = Octets.zeros width
  | decoding, width, octets => octets.length = width

theorem Blank.length {way : Way} {width : Nat} {octets : Octets} (blank : way.Blank width octets) :
    octets.length = width := by
  cases way with
  | encoding =>
      rw [blank]
      exact Octets.length_zeros width
  | decoding => exact blank

end Way

/-- The octets of a member whose extent is given in front. -/
def Sized.Fills : (sized : Sized) → sized.Value → Octets → Prop
  | numbers format, ns, front =>
    Repeated (fun n piece => piece.length = format.width ∧ n = format.ofOctets piece) ns front
  | octets, value, front => front = value
  | payload _, value, front => ∃ padding, front = value ++ padding
  | blob _, value, front => front = value.getD [] ∧ value ≠ some []

namespace Sized

theorem fills_of_write {sized : Sized} {extent : Int} {value : sized.Value} {front : Octets}
    (written : sized.write extent value = ⟨front, none⟩) : sized.Fills value front := by
  cases sized with
  | numbers format =>
      refine (Written.repeated_of_all written).imp fun n piece complete => ?_
      obtain ⟨holds, rfl⟩ := IntFormat.write_eq_complete.mp complete
      exact ⟨format.length_octets n, (format.ofOctets_octets n holds).symm⟩
  | octets =>
      rw [write] at written
      split at written
      · cases written
        rfl
      · exact absurd written Written.fail_ne_complete
  | payload boundary =>
      rw [write] at written
      split at written
      · cases written
        exact ⟨_, rfl⟩
      · exact absurd written Written.fail_ne_complete
  | blob kind =>
      obtain _ | (_ | ⟨octet, rest⟩) := value
      · exact ⟨Written.empty_eq_complete.mp written, by simp⟩
      · exact absurd written Written.fail_ne_complete
      · cases written
        exact ⟨rfl, by simp⟩

theorem fills_of_spells {sized : Sized} {extent : Nat} {value : sized.Value} {front : Octets}
    (spelled : sized.Spells extent value front) : sized.Fills value front := by
  cases sized with
  | numbers format => exact spelled.2
  | octets => exact spelled.2.symm
  | payload boundary =>
      obtain ⟨-, padding, rfl, -⟩ := spelled
      exact ⟨padding, rfl⟩
  | blob kind =>
      obtain ⟨-, rfl⟩ := spelled
      cases front with
      | nil => exact ⟨rfl, by simp⟩
      | cons octet rest => exact ⟨rfl, by simp⟩

theorem extent_blob (kind : String) (value : Option Octets) :
    (blob kind).extent value = (value.getD []).length := by
  cases value <;> rfl

end Sized

namespace Layout

/-- One piece for each member, in order. Members of fixed size are told by their width, and
counts by what they count. -/
def Arranges (way : Way) : (layout : Layout) → layout.Value → Octets → Prop
  | done, _ => fun octets => octets = []
  | tail _, value => fun octets => octets = value
  | atom _ a rest, (_, v) => Joined (fun front => front.length = a.width) (rest.Arranges way v)
  | padding width rest, v => Joined (way.Blank width) (rest.Arranges way v)
  | word width _ rest, (_, v) => Joined (fun front => front.length = width) (rest.Arranges way v)
  | count name format _ rest, v =>
    Joined
      (fun front => front.length = format.width ∧ format.ofOctets front = rest.demand name v)
      (rest.Arranges way v)
  | tag _ _ format rest, v =>
    Joined (fun front => front.length = format.width) (rest.Arranges way v)
  | sized _ s _ rest, (x, v) => Joined (s.Fills x) (rest.Arranges way v)
  | record _ _ inner rest, (x, v) => Joined (way.Pairs inner x) (rest.Arranges way v)
  | records _ _ inner _ rest, (xs, v) =>
    Joined (Repeated (way.Pairs inner) xs) (rest.Arranges way v)
  | choice _ _ _ inner₀ _ inner₁ rest, (x, v) =>
    Joined (x.elim (way.Pairs inner₀) (way.Pairs inner₁)) (rest.Arranges way v)

theorem arranges_of_write (layout : Layout) {scope : Scope} {v : layout.Value} {octets : Octets}
    (written : layout.writeIn scope v = ⟨octets, none⟩) : layout.Arranges .encoding v octets := by
  induction layout generalizing scope octets with
  | done => exact Written.empty_eq_complete.mp written
  | tail name =>
      cases written
      rfl
  | atom name a rest ih =>
      obtain ⟨front, back, head, tail, rfl⟩ := Written.append_eq_complete.mp written
      have size := (Atom.length_of_write (Written.under_eq_complete.mp head)).1
      exact ⟨front, back, rfl, size, ih tail⟩
  | padding width rest ih =>
      obtain ⟨front, back, head, tail, rfl⟩ := Written.append_eq_complete.mp written
      exact ⟨front, back, rfl, (Written.mk_eq_complete.mp head).symm, ih tail⟩
  | word width fields rest ih =>
      obtain ⟨front, back, head, tail, rfl⟩ := Written.append_eq_complete.mp written
      obtain ⟨word, -, rfl⟩ := BitFields.write_eq_complete.mp head
      exact ⟨_, back, rfl, Octets.length_ofNat width word, ih tail⟩
  | count name format limit rest ih =>
      obtain ⟨front, back, head, tail, rfl⟩ := Written.append_eq_complete.mp written
      obtain ⟨holds, rfl⟩ := IntFormat.write_eq_complete.mp (writeCount_eq_complete.mp head).2
      exact ⟨_, back, rfl, ⟨format.length_octets _, format.ofOctets_octets _ holds⟩, ih tail⟩
  | tag name e format rest ih =>
      obtain ⟨front, back, head, tail, rfl⟩ := Written.append_eq_complete.mp written
      obtain ⟨-, rfl⟩ := IntFormat.write_eq_complete.mp (Written.under_eq_complete.mp head)
      exact ⟨_, back, rfl, format.length_octets _, ih tail⟩
  | sized name s extent rest ih =>
      obtain ⟨front, back, head, tail, rfl⟩ := Written.append_eq_complete.mp written
      exact ⟨front, back, rfl, Sized.fills_of_write (Written.under_eq_complete.mp head), ih tail⟩
  | record name kind inner rest _ ih =>
      obtain ⟨front, back, head, tail, rfl⟩ := Written.append_eq_complete.mp written
      exact ⟨front, back, rfl, Written.under_eq_complete.mp head, ih tail⟩
  | records name kind inner counter rest _ ih =>
      obtain ⟨front, back, head, tail, rfl⟩ := Written.append_eq_complete.mp written
      refine ⟨front, back, rfl, ?_, ih tail⟩
      exact Written.repeated_of_all (Written.under_eq_complete.mp head)
  | choice name teller kind₀ inner₀ kind₁ inner₁ rest _ _ ih =>
      obtain ⟨x, v⟩ := v
      obtain ⟨front, back, head, tail, rfl⟩ := Written.append_eq_complete.mp written
      have piece := Written.under_eq_complete.mp head
      cases x with
      | inl x => exact ⟨front, back, rfl, piece, ih tail⟩
      | inr x => exact ⟨front, back, rfl, piece, ih tail⟩

/-- What was read agrees with the numbers in scope, and so do the octets that it was read from. -/
theorem agrees_of_spells (layout : Layout) {names : Names} {scope : Scope} {v : layout.Value}
    {octets : Octets} (sound : layout.isSoundIn names) (fits : scope.Fits names)
    (spelled : layout.Spells scope v octets) :
    scope.Agrees names fun name => layout.demand name v :=
  layout.agrees_of_read sound fits ((layout.hasGrammarIn sound fits v).reads spelled (Or.inr rfl))

theorem pairs_of_spells (layout : Layout) (sound : layout.isSoundIn []) {v : layout.Value}
    {octets : Octets} (spelled : layout.Spells [] v octets) :
    Way.decoding.Pairs layout v octets :=
  (layout.read_eq_ok sound).mpr spelled

theorem arranges_of_spells (layout : Layout) {names : Names} {scope : Scope} {v : layout.Value}
    {octets : Octets} (sound : layout.isSoundIn names) (fits : scope.Fits names)
    (spelled : layout.Spells scope v octets) : layout.Arranges .decoding v octets := by
  induction layout generalizing names scope octets with
  | done => exact spelled
  | tail name => exact spelled
  | atom name a rest ih =>
      obtain ⟨x, v⟩ := v
      simp only [isSoundIn, Bool.and_eq_true] at sound
      obtain ⟨front, back, rfl, head, later⟩ := spelled
      have read : a.read (front ++ []) = .ok x [] := (a.hasGrammar x).reads head (Or.inl rfl)
      have behind := ih sound.2 (fits.after sound.1.2 read) later
      exact ⟨front, back, rfl, Atom.length_of_spells head, behind⟩
  | padding width rest ih =>
      obtain ⟨front, back, rfl, head, later⟩ := spelled
      exact ⟨front, back, rfl, head, ih sound fits later⟩
  | word width fields rest ih =>
      obtain ⟨x, v⟩ := v
      simp only [isSoundIn, Bool.and_eq_true] at sound
      obtain ⟨front, back, rfl, head, later⟩ := spelled
      exact ⟨front, back, rfl, head.1, ih sound.2 fits later⟩
  | count name format limit rest ih =>
      simp only [isSoundIn, Bool.and_eq_true, Bool.not_eq_true'] at sound
      obtain ⟨n, front, back, rfl, ⟨-, size, rfl⟩, later⟩ := spelled
      have nonneg : 0 ≤ format.ofOctets front := by
        rw [format.ofOctets_eq_toNat sound.1.1 front size]
        exact Int.natCast_nonneg _
      have admits : Role.count.Admits (format.ofOctets front) := nonneg
      have within : Scope.Fits (scope.bind name (some (format.ofOctets front)))
          ((name, .count) :: names) := fits.cons sound.1.2 admits
      have called := rest.agrees_of_spells sound.2 within later name .count List.mem_cons_self
        (by decide)
      rw [Scope.get_bind_self] at called
      exact ⟨front, back, rfl, ⟨size, called⟩, ih sound.2 within later⟩
  | tag name e format rest ih =>
      simp only [isSoundIn, Bool.and_eq_true, decide_eq_true_eq] at sound
      obtain ⟨⟨⟨pair, -⟩, fresh⟩, sound⟩ := sound
      obtain ⟨n, front, back, rfl, ⟨size, -⟩, later⟩ := spelled
      have behind := ih sound (fits.cons fresh (e.number_decode_binary pair n)) later
      exact ⟨front, back, rfl, size, behind⟩
  | sized name s extent rest ih =>
      obtain ⟨x, v⟩ := v
      obtain ⟨-, names', sound, fits⟩ := product_nonneg_of_sound sound fits
      obtain ⟨front, back, rfl, ⟨n, -, head⟩, later⟩ := spelled
      exact ⟨front, back, rfl, Sized.fills_of_spells head, ih sound fits later⟩
  | record name kind inner rest _ ih =>
      obtain ⟨x, v⟩ := v
      simp only [isSoundIn, Bool.and_eq_true] at sound
      obtain ⟨front, back, rfl, head, later⟩ := spelled
      exact ⟨front, back, rfl, inner.pairs_of_spells sound.1.1 head, ih sound.2 fits later⟩
  | records name kind inner counter rest _ ih =>
      obtain ⟨xs, v⟩ := v
      simp only [isSoundIn, Bool.and_eq_true, decide_eq_true_eq] at sound
      obtain ⟨⟨⟨-, inside⟩, -⟩, sound⟩ := sound
      obtain ⟨front, back, rfl, ⟨-, head⟩, later⟩ := spelled
      have pieces := head.imp fun _ _ => inner.pairs_of_spells inside
      exact ⟨front, back, rfl, pieces, ih sound (fits.without counter) later⟩
  | choice name teller kind₀ inner₀ kind₁ inner₁ rest _ _ ih =>
      obtain ⟨x, v⟩ := v
      simp only [isSoundIn, Bool.and_eq_true, decide_eq_true_eq] at sound
      obtain ⟨⟨⟨⟨-, inside₀⟩, inside₁⟩, -⟩, sound⟩ := sound
      obtain ⟨front, back, rfl, head, later⟩ := spelled
      have behind := ih sound (fits.without teller) later
      cases x with
      | inl x => exact ⟨front, back, rfl, inner₀.pairs_of_spells inside₀ head.2, behind⟩
      | inr x => exact ⟨front, back, rfl, inner₁.pairs_of_spells inside₁ head.2, behind⟩

theorem arranges_of_pairs (layout : Layout) (sound : layout.isSound) {way : Way}
    {v : layout.Value} {octets : Octets} (paired : way.Pairs layout v octets) :
    layout.Arranges way v octets := by
  cases way with
  | encoding => exact layout.arranges_of_write paired
  | decoding =>
      exact layout.arranges_of_spells sound Scope.fits_nil ((layout.read_eq_ok sound).mp paired)

theorem length_of_read (layout : Layout) {scope : Scope} {v : layout.Value} {size : Nat}
    {input left : Octets} (fixed : layout.fixedSize? = some size)
    (read : layout.readIn scope input = .ok v left) : input.length = size + left.length := by
  induction layout generalizing scope size input left with
  | done =>
      cases fixed
      rw [(Reader.pure_eq_ok.mp read).2, Nat.zero_add]
  | atom name a rest ih =>
      obtain ⟨later, found, rfl⟩ := Option.map_eq_some_iff.mp fixed
      obtain ⟨middle, first, last⟩ := readIn_atom.mp read
      obtain ⟨front, rfl, spelled⟩ := (a.hasGrammar _).takes first
      rw [List.length_append, Atom.length_of_spells spelled, ih found last, Nat.add_assoc]
  | padding width rest ih =>
      obtain ⟨later, found, rfl⟩ := Option.map_eq_some_iff.mp fixed
      obtain ⟨middle, first, last⟩ := readIn_padding.mp read
      obtain ⟨front, rfl, width⟩ := Reader.skip_eq_ok.mp first
      rw [List.length_append, width, ih found last, Nat.add_assoc]
  | word width fields rest ih =>
      obtain ⟨later, found, rfl⟩ := Option.map_eq_some_iff.mp fixed
      obtain ⟨middle, first, last⟩ := readIn_word.mp read
      obtain ⟨front, rfl, size, -⟩ := (BitFields.hasGrammar width fields _).takes first
      rw [List.length_append, size, ih found last, Nat.add_assoc]
  | record name kind inner rest ih₀ ih =>
      obtain ⟨first, inside, later⟩ := Option.bind_eq_some_iff.mp fixed
      obtain ⟨second, found, rfl⟩ := Option.map_eq_some_iff.mp later
      obtain ⟨middle, head, last⟩ := readIn_record.mp read
      rw [ih₀ inside head, ih found last, Nat.add_assoc]
  | _ => cases fixed

theorem length_of_pairs (layout : Layout) {way : Way} {v : layout.Value} {size : Nat}
    {octets : Octets} (fixed : layout.fixedSize? = some size)
    (paired : way.Pairs layout v octets) : octets.length = size := by
  cases way with
  | encoding =>
      have total := (layout.size_of_write paired).2
      rw [layout.sizeIn_of_fixedSize? fixed] at total
      exact (Int.ofNat_inj.mp total).symm
  | decoding => exact layout.length_of_read fixed paired

def nextWidth? : Layout → Option Nat
  | atom _ a _ => some a.width
  | padding width _ => some width
  | word width _ _ => some width
  | count _ format _ _ => some format.width
  | tag _ _ format _ => some format.width
  | record _ _ inner _ => inner.fixedSize?
  | _ => none

theorem Arranges.next {layout : Layout} {way : Way} {v : layout.Value} {width : Nat}
    {octets : Octets} (fixed : layout.nextWidth? = some width)
    (arranged : layout.Arranges way v octets) :
    Joined (fun front => front.length = width) (layout.next.Arranges way (layout.nextValue v))
      octets := by
  cases layout with
  | padding width rest =>
      cases fixed
      obtain ⟨front, back, rfl, blank, later⟩ := arranged
      exact ⟨front, back, rfl, blank.length, later⟩
  | count name format limit rest =>
      cases fixed
      obtain ⟨front, back, rfl, ⟨size, -⟩, later⟩ := arranged
      exact ⟨front, back, rfl, size, later⟩
  | record name kind inner rest =>
      obtain ⟨front, back, rfl, paired, later⟩ := arranged
      exact ⟨front, back, rfl, inner.length_of_pairs fixed paired, later⟩
  | atom | word | tag =>
      cases fixed
      exact arranged
  | _ => cases fixed

/-- The place behind so many members, if they are of fixed size and start at a place. -/
def place? : (members start : Nat) → Layout → Option Nat
  | 0, start, _ => some start
  | members + 1, start, layout =>
    layout.nextWidth?.bind fun width => place? members (start + width) layout.next

/-- From a place on, the octets are those of the members. -/
structure StandsAt (layout : Layout) (way : Way) (v : layout.Value) (data : Octets)
    (place : Nat) : Prop where
  reached : place ≤ data.length
  arranged : layout.Arranges way v (data.drop place)

namespace StandsAt

variable {layout rest : Layout} {way : Way} {data : Octets} {place : Nat}

theorem of_joined {first : Octets → Prop} {v : layout.Value} {width : Nat}
    (reached : place ≤ data.length) (sized : ∀ front, first front → front.length = width)
    (joined : Joined first (layout.Arranges way v) (data.drop place)) :
    first ((data.drop place).take width) ∧ layout.StandsAt way v data (place + width) := by
  obtain ⟨front, back, split, head, later⟩ := joined
  have size := sized front head
  have total := congrArg List.length split
  rw [List.length_drop, List.length_append, size] at total
  refine ⟨?_, by omega, ?_⟩
  · rwa [split, List.take_left' size]
  · rwa [← List.drop_drop, split, List.drop_left' size]

theorem next {v : layout.Value} {width : Nat} (fixed : layout.nextWidth? = some width)
    (stands : layout.StandsAt way v data place) :
    layout.next.StandsAt way (layout.nextValue v) data (place + width) :=
  (of_joined stands.reached (fun _ size => size) (stands.arranged.next fixed)).2

theorem behind {v : layout.Value} (stands : layout.StandsAt way v data place) {members later : Nat}
    (fixed : place? members place layout = some later) :
    (layout.behind members).StandsAt way (layout.behindValue members v) data later := by
  induction members generalizing layout place with
  | zero =>
      cases fixed
      exact stands
  | succ members ih =>
      obtain ⟨width, found, others⟩ := Option.bind_eq_some_iff.mp fixed
      exact ih (stands.next found) others

/-- A member stands at a place of its own if all in front of it are of fixed size. -/
theorem member {v : layout.Value} (stands : layout.StandsAt way v data place) (name : String)
    (later : Nat) (fixed : place? (layout.position name) place layout = some later) :
    (layout.behind (layout.position name)).StandsAt way
      (layout.behindValue (layout.position name) v) data later :=
  stands.behind fixed

theorem counted {name : String} {format : IntFormat} {limit : Option Limit} {v : rest.Value}
    (stands : (count name format limit rest).StandsAt way v data place)
    (unsigned : format.isSigned = false) :
    Octets.toNat ((data.drop place).take format.width) = rest.demand name v := by
  have first := of_joined stands.reached (fun _ => And.left) stands.arranged
  have called := first.1.2
  rw [format.ofOctets_eq_toNat unsigned _ first.1.1] at called
  exact Int.natCast_inj.mp called

theorem strided {spells : α → Octets → Prop} {xs : List α} {v : rest.Value} {width : Nat}
    (reached : place ≤ data.length) (sized : ∀ x piece, spells x piece → piece.length = width)
    (joined : Joined (Repeated spells xs) (rest.Arranges way v) (data.drop place)) :
    (∀ i (inside : i < xs.length),
      spells xs[i] ((data.drop (place + width * i)).take width)) ∧
      rest.StandsAt way v data (place + width * xs.length) := by
  have whole := of_joined reached (fun _ all => (Repeated.at_stride sized all).1) joined
  obtain ⟨front, back, split, all, -⟩ := joined
  refine ⟨fun i inside => ?_, whole.2⟩
  have each := (Repeated.at_stride sized all).2 i inside back
  rwa [← split, List.drop_drop] at each

theorem records {name kind counter : String} {inner : Layout} {xs : List inner.Value}
    {v : rest.Value} {width : Nat} (fixed : inner.fixedSize? = some width)
    (stands : (records name kind inner counter rest).StandsAt way (xs, v) data place) :
    (∀ i (inside : i < xs.length),
      way.Pairs inner xs[i] ((data.drop (place + width * i)).take width)) ∧
      rest.StandsAt way v data (place + width * xs.length) :=
  strided stands.reached (fun _ _ => inner.length_of_pairs fixed) stands.arranged

theorem numbers {name : String} {format : IntFormat} {extent : List String} {ns : List Int}
    {v : rest.Value} (unsigned : format.isSigned = false)
    (stands : (sized name (.numbers format) extent rest).StandsAt way (ns, v) data place) :
    (∀ i (inside : i < ns.length), ns[i] =
      Octets.toNat ((data.drop (place + format.width * i)).take format.width)) ∧
      rest.StandsAt way v data (place + format.width * ns.length) := by
  have all := strided stands.reached (fun _ _ => And.left) stands.arranged
  refine ⟨fun i inside => ?_, all.2⟩
  rw [(all.1 i inside).2, format.ofOctets_eq_toNat unsigned _ (all.1 i inside).1]

theorem blank {width : Nat} {v : rest.Value}
    (stands : (padding width rest).StandsAt way v data place) :
    way.Blank width ((data.drop place).take width) :=
  (of_joined stands.reached (fun _ => Way.Blank.length) stands.arranged).1

theorem nothing (stands : done.StandsAt way () data place) : data.length = place := by
  have reached := stands.reached
  have none := congrArg List.length (show data.drop place = [] from stands.arranged)
  rw [List.length_drop, List.length_nil] at none
  omega

theorem inside {name kind : String} {inner : Layout} {x : inner.Value}
    (stands : (record name kind inner done).StandsAt way (x, ()) data place)
    (sound : inner.isSound) : inner.StandsAt way x data place := by
  obtain ⟨front, back, split, paired, nothing⟩ := stands.arranged
  refine ⟨stands.reached, ?_⟩
  rw [split, show back = [] from nothing, List.append_nil]
  exact inner.arranges_of_pairs sound paired

theorem last {name kind counter : String} {inner : Layout} {xs : List inner.Value}
    (stands : (Layout.records name kind inner counter done).StandsAt way (xs, ()) data place) :
    Repeated (way.Pairs inner) xs (data.drop place) := by
  obtain ⟨front, back, split, repeated, nothing⟩ := stands.arranged
  rwa [split, show back = [] from nothing, List.append_nil]

theorem blob {name kind : String} {extent : List String} {x : Option Octets} {v : rest.Value}
    (stands : (sized name (.blob kind) extent rest).StandsAt way (x, v) data place) :
    data.drop place = x.getD [] ++ data.drop (place + (x.getD []).length) ∧
      ((x.getD []).length = 0 ↔ x = none) ∧
      rest.StandsAt way v data (place + (x.getD []).length) := by
  have first := of_joined stands.reached (fun _ fills => congrArg List.length fills.1)
    stands.arranged
  have same : (data.drop place).take (x.getD []).length = x.getD [] := first.1.1
  refine ⟨?_, ?_, first.2⟩
  · rw [← List.drop_drop]
    exact (List.take_append_drop ..).symm.trans (congrArg (· ++ _) same)
  cases x with
  | none => exact iff_of_true rfl rfl
  | some octets =>
      refine iff_of_false (fun none => first.1.2 ?_) nofun
      exact congrArg some (List.eq_nil_of_length_eq_zero none)

end StandsAt
end Layout
end Dis
