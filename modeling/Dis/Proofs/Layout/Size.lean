import Dis.Proofs.Layout.RoundTrip

/-! Writing what was read. The spans of a value say which octets it stands on; writing
it puts out the same octets, settled span by span. -/

namespace Dis.Layout

/-- The spans that a value covers. A tag is written as the number of the alternative. -/
def spans : (layout : Layout) → Scope → layout.Value → List Span
  | done, _, _ => []
  | tail _, _, (octets : Octets) => [.plain octets.length]
  | atom name a rest, scope, (x, v) => [a.span] ++ rest.spans (scope.bind name (a.number? x)) v
  | padding n rest, scope, v => [.padding n] ++ rest.spans scope v
  | word octets fields rest, scope, (_, v) => [.word octets fields] ++ rest.spans scope v
  | count name format _ rest, scope, v =>
    [.plain format.width] ++ rest.spans (scope.bind name (some (rest.demand name v))) v
  | tag name e format rest, scope, v =>
    [.code e format] ++ rest.spans (scope.bind name (some (rest.demand name v))) v
  | sized _ s extent rest, scope, (x, v) =>
    s.spans (scope.product extent) x ++ rest.spans scope v
  | record _ _ inner rest, scope, (x, v) => inner.spans [] x ++ rest.spans scope v
  | records _ _ inner _ rest, scope, (xs, v) =>
    xs.flatMap (inner.spans []) ++ rest.spans scope v
  | choice _ _ _ inner₀ _ inner₁ rest, scope, (x, v) =>
    x.elim (inner₀.spans []) (inner₁.spans []) ++ rest.spans scope v

theorem norm_of_read (layout : Layout) {scope : Scope} {v : layout.Value} {input left : Octets}
    (read : layout.readIn scope input = .ok v left) : layout.norm v = v := by
  induction layout generalizing scope input left with
  | done => rfl
  | tail name => rfl
  | atom name a rest ih =>
      obtain ⟨x, v⟩ := v
      obtain ⟨middle, first, later⟩ := readIn_atom.mp read
      exact Prod.ext (Atom.norm_of_read first) (ih later)
  | padding count rest ih =>
      obtain ⟨middle, -, later⟩ := readIn_padding.mp read
      exact ih later
  | word octets fields rest ih =>
      obtain ⟨x, v⟩ := v
      obtain ⟨middle, first, later⟩ := readIn_word.mp read
      exact Prod.ext (BitFields.norm_of_read first) (ih later)
  | count name format limit rest ih =>
      obtain ⟨n, middle, -, later⟩ := readIn_count.mp read
      exact ih later
  | tag name e format rest ih =>
      obtain ⟨n, middle, -, later⟩ := readIn_tag.mp read
      exact ih later
  | sized name s extent rest ih =>
      obtain ⟨x, v⟩ := v
      obtain ⟨middle, -, later⟩ := readIn_sized.mp read
      exact Prod.ext rfl (ih later)
  | record name kind inner rest ih₀ ih =>
      obtain ⟨x, v⟩ := v
      obtain ⟨middle, first, later⟩ := readIn_record.mp read
      exact Prod.ext (ih₀ first) (ih later)
  | records name kind inner counter rest ih₀ ih =>
      obtain ⟨xs, v⟩ := v
      obtain ⟨middle, first, later⟩ := readIn_records.mp read
      have each := Reader.forall_of_many (fun x input left this => ih₀ this) first
      exact Prod.ext ((List.map_congr_left each).trans (List.map_id xs)) (ih later)
  | choice name teller kind₀ inner₀ kind₁ inner₁ rest ih₀ ih₁ ih =>
      obtain ⟨x, v⟩ := v
      obtain ⟨middle, later, taken⟩ := readIn_choice.mp read
      rcases taken with ⟨-, y, first, rfl⟩ | ⟨-, y, first, rfl⟩
      · exact Prod.ext (congrArg Sum.inr (ih₁ first)) (ih later)
      · exact Prod.ext (congrArg Sum.inl (ih₀ first)) (ih later)

theorem recovers_count (name : String) {format : IntFormat} {limit : Option Limit} {n : Int}
    {demand : Nat} {input rest : Octets} (same : n = demand)
    (read : readCount format limit input = .ok n rest) :
    ∃ octets, input = octets ++ rest ∧
      Recovers (readCount format limit) [.plain format.width] (writeCount name format limit demand)
        true n octets := by
  obtain ⟨number, within⟩ := readCount_eq_ok.mp read
  obtain ⟨octets, split, recovers⟩ := IntFormat.recovers number
  refine ⟨octets, split, recovers.size, ?_, fun other alike more ends => ?_⟩
  · have written := recovers.written
    rw [same] at written
    refine writeCount_eq_complete.mpr ⟨fun bound set => ?_, written⟩
    have least := within bound set
    omega
  · exact readCount_eq_ok.mpr ⟨recovers.reads other alike more ends, within⟩

theorem eq_nil_of_covered {layout : Layout} {scope : Scope} {v : layout.Value} {octets : Octets}
    (last : layout.isDone) (size : octets.length = Span.extent (layout.spans scope v)) :
    octets = [] := by
  cases layout with
  | done => exact List.eq_nil_of_length_eq_zero size
  | _ => cases last

theorem recovers (layout : Layout) {names : Names} {scope : Scope} {v : layout.Value}
    {input left : Octets} (sound : layout.isSoundIn names) (fits : scope.Fits names)
    (read : layout.readIn scope input = .ok v left) :
    ∃ octets, input = octets ++ left ∧ Recovers (layout.readIn scope) (layout.spans scope v)
      (layout.writeIn scope v) layout.isBounded v octets := by
  induction layout generalizing names scope input left with
  | done =>
      obtain ⟨-, rfl⟩ := Reader.pure_eq_ok.mp read
      refine ⟨[], rfl, rfl, rfl, fun other alike more _ => ?_⟩
      rw [List.eq_nil_of_length_eq_zero alike.size]
      rfl
  | tail name =>
      obtain ⟨rfl, rfl⟩ := Reader.takeAll_eq_ok.mp (Reader.under_eq_ok.mp read)
      refine ⟨v, (List.append_nil v).symm, ?_⟩
      have all := Reader.recovers_takeAll v
      exact ⟨all.size, all.written, fun other alike more ends =>
        Reader.under_eq_ok.mpr (all.reads other alike more ends)⟩
  | atom name a rest ih =>
      obtain ⟨x, v⟩ := v
      simp only [isSoundIn, Bool.and_eq_true] at sound
      obtain ⟨middle, first, later⟩ := readIn_atom.mp read
      obtain ⟨front, rfl, head⟩ := Atom.recovers sound.1.1 first
      obtain ⟨back, rfl, last⟩ := ih sound.2 (fits.after sound.1.2 first) later
      exact ⟨front ++ back, (List.append_assoc ..).symm, (head.named name).andThen last (Or.inl rfl)
        fun first last => readIn_atom.mpr ⟨_, first, last⟩⟩
  | padding count rest ih =>
      obtain ⟨middle, first, later⟩ := readIn_padding.mp read
      obtain ⟨front, rfl, size⟩ := Reader.skip_eq_ok.mp first
      obtain ⟨back, rfl, last⟩ := ih sound fits later
      exact ⟨front ++ back, (List.append_assoc ..).symm, (Recovers.skip size).andThen last
        (Or.inl rfl) fun first last => readIn_padding.mpr ⟨_, first, last⟩⟩
  | word octets fields rest ih =>
      obtain ⟨x, v⟩ := v
      simp only [isSoundIn, Bool.and_eq_true, decide_eq_true_eq] at sound
      obtain ⟨middle, first, later⟩ := readIn_word.mp read
      obtain ⟨front, rfl, head⟩ := BitFields.recovers sound.1.2 sound.1.1 first
      obtain ⟨back, rfl, last⟩ := ih sound.2 fits later
      exact ⟨front ++ back, (List.append_assoc ..).symm, head.andThen last (Or.inl rfl)
        fun first last => readIn_word.mpr ⟨_, first, last⟩⟩
  | count name format limit rest ih =>
      simp only [isSoundIn, Bool.and_eq_true, Bool.not_eq_true'] at sound
      obtain ⟨n, middle, first, later⟩ := readIn_count.mp read
      -- The count is no part of the value: it is written as what the rest calls for.
      have within : (scope.bind name (some n)).Fits ((name, .count) :: names) :=
        fits.cons sound.1.2 (nonneg_of_readCount sound.1.1 first)
      have called := agrees_of_read rest sound.2 within later name .count List.mem_cons_self
        (by decide)
      rw [Scope.get_bind_self] at called
      subst called
      obtain ⟨front, rfl, head⟩ := recovers_count name rfl first
      obtain ⟨back, rfl, last⟩ := ih sound.2 within later
      exact ⟨front ++ back, (List.append_assoc ..).symm, head.andThen last (Or.inl rfl)
        fun first last => readIn_count.mpr ⟨_, _, first, last⟩⟩
  | tag name e format rest ih =>
      simp only [isSoundIn, Bool.and_eq_true, decide_eq_true_eq] at sound
      obtain ⟨⟨⟨pair, fallback⟩, fresh⟩, sound⟩ := sound
      obtain ⟨n, middle, first, later⟩ := readIn_tag.mp read
      have within : (scope.bind name (some (e.decode n).number)).Fits ((name, .tag) :: names) :=
        fits.cons fresh (e.number_decode_binary pair n)
      have called := agrees_of_read rest sound within later name .tag List.mem_cons_self (by decide)
      rw [Scope.get_bind_self] at called
      obtain ⟨front, rfl, head⟩ := IntFormat.recovers_code fallback first
      obtain ⟨back, rfl, last⟩ := ih sound within later
      rw [called] at head last
      exact ⟨front ++ back, (List.append_assoc ..).symm, (head.named name).andThen last (Or.inl rfl)
        fun first last => readIn_tag.mpr ⟨_, _, first, by rwa [called]⟩⟩
  | sized name s extent rest ih =>
      obtain ⟨x, v⟩ := v
      obtain ⟨middle, first, later⟩ := readIn_sized.mp read
      simp only [isSoundIn] at sound
      split at sound
      · next counter found =>
        obtain ⟨-, sound⟩ := Bool.and_eq_true_iff.mp sound
        obtain ⟨rfl, listed⟩ := Names.counter?_eq_some found
        have nonneg : 0 ≤ scope.product [counter] := by
          rw [Scope.product_singleton]
          exact fits counter .count listed
        obtain ⟨front, rfl, head⟩ := Sized.recovers nonneg first
        obtain ⟨back, rfl, last⟩ := ih sound (fits.without counter) later
        exact ⟨front ++ back, (List.append_assoc ..).symm, (head.named name).andThen last
          (Or.inl rfl) fun first last => readIn_sized.mpr ⟨_, first, last⟩⟩
      · simp only [Bool.and_eq_true] at sound
        obtain ⟨⟨-, numbers⟩, sound⟩ := sound
        have nonneg : 0 ≤ scope.product extent := scope.product_nonneg extent fun other listed =>
          fits other .number (Names.mem_of_isNumber (List.all_eq_true.mp numbers other listed))
        obtain ⟨front, rfl, head⟩ := Sized.recovers nonneg first
        obtain ⟨back, rfl, last⟩ := ih sound fits later
        exact ⟨front ++ back, (List.append_assoc ..).symm, (head.named name).andThen last
          (Or.inl rfl) fun first last => readIn_sized.mpr ⟨_, first, last⟩⟩
  | record name kind inner rest ih₀ ih =>
      obtain ⟨x, v⟩ := v
      simp only [isSoundIn, Bool.and_eq_true, Bool.or_eq_true] at sound
      obtain ⟨⟨inside, stops⟩, sound⟩ := sound
      obtain ⟨middle, first, later⟩ := readIn_record.mp read
      obtain ⟨front, rfl, head⟩ := ih₀ inside Scope.fits_nil first
      obtain ⟨back, rfl, last⟩ := ih sound fits later
      exact ⟨front ++ back, (List.append_assoc ..).symm, (head.named name).andThen last
        (stops.imp_right fun this => eq_nil_of_covered this last.size)
        fun first last => readIn_record.mpr ⟨_, first, last⟩⟩
  | records name kind inner counter rest ih₀ ih =>
      obtain ⟨xs, v⟩ := v
      simp only [isSoundIn, Bool.and_eq_true, decide_eq_true_eq] at sound
      obtain ⟨⟨⟨listed, inside⟩, stops⟩, sound⟩ := sound
      obtain ⟨middle, first, later⟩ := readIn_records.mp read
      obtain ⟨front, rfl, head⟩ := Recovers.many first fun x input left read =>
        stops ▸ ih₀ inside Scope.fits_nil read
      obtain ⟨back, rfl, last⟩ := ih sound (fits.without counter) later
      exact ⟨front ++ back, (List.append_assoc ..).symm, (head.named name).andThen last (Or.inl rfl)
        fun first last => readIn_records.mpr ⟨_, first, last⟩⟩
  | choice name teller kind₀ inner₀ kind₁ inner₁ rest ih₀ ih₁ ih =>
      obtain ⟨x, v⟩ := v
      simp only [isSoundIn, Bool.and_eq_true, Bool.or_eq_true, decide_eq_true_eq] at sound
      obtain ⟨⟨⟨⟨listed, inside₀⟩, inside₁⟩, stops⟩, sound⟩ := sound
      obtain ⟨middle, later, taken⟩ := readIn_choice.mp read
      obtain ⟨back, rfl, last⟩ := ih sound (fits.without teller) later
      have both : (inner₀.isBounded && inner₁.isBounded) ∨ back = [] := by
        rw [Bool.and_eq_true]
        exact stops.imp_right fun this => eq_nil_of_covered this last.size
      have weaker : inner₀.isBounded && inner₁.isBounded →
          inner₀.isBounded ∧ inner₁.isBounded := Bool.and_eq_true_iff.mp
      rcases taken with ⟨second, y, first, rfl⟩ | ⟨other, y, first, rfl⟩
      · obtain ⟨front, rfl, head⟩ := ih₁ inside₁ Scope.fits_nil first
        have head := (head.weaken fun this => (weaker this).2).named name
        exact ⟨front ++ back, (List.append_assoc ..).symm, head.andThen last both
          fun first last => readIn_choice.mpr ⟨_, last, Or.inl ⟨second, _, first, rfl⟩⟩⟩
      · obtain ⟨front, rfl, head⟩ := ih₀ inside₀ Scope.fits_nil first
        have head := (head.weaken fun this => (weaker this).1).named name
        exact ⟨front ++ back, (List.append_assoc ..).symm, head.andThen last both
          fun first last => readIn_choice.mpr ⟨_, last, Or.inr ⟨other, _, first, rfl⟩⟩⟩

end Dis.Layout

/-! The size of a record is the number of octets that writing it puts out. No layout is
excepted: the two recursions count the same members in the same scope. -/

namespace Dis

theorem Sized.size_of_write {sized : Sized} {extent : Int} {value : sized.Value} {octets : Octets}
    (written : sized.write extent value = ⟨octets, none⟩) :
    sized.size extent value = octets.length := by
  cases sized with
  | numbers format =>
      have each : ∀ n front, format.write n = ⟨front, none⟩ → (format.width : Int) = front.length := by
        intro n front complete
        rw [(IntFormat.write_eq_complete.mp complete).2, format.length_octets]
      have total := Written.sum_of_all each written
      simpa [size] using total
  | octets =>
      simp only [write] at written
      split at written
      · cases written
        rfl
      · exact absurd written Written.fail_ne_complete
  | payload boundary =>
      simp only [write] at written
      split at written
      · next whole =>
        cases written
        rw [size, List.length_append, Octets.length_zeros, ← whole]
        push_cast
        rfl
      · exact absurd written Written.fail_ne_complete
  | blob kind =>
      obtain _ | (_ | ⟨octet, rest⟩) := value
      · rw [Written.empty_eq_complete.mp written]
        rfl
      · exact absurd written Written.fail_ne_complete
      · cases written
        rfl

namespace Layout

theorem size_of_write (layout : Layout) {scope : Scope} {v : layout.Value} {octets : Octets}
    (written : layout.writeIn scope v = ⟨octets, none⟩) :
    layout.isCounted v ∧ layout.sizeIn scope v = octets.length := by
  induction layout generalizing scope octets with
  | done =>
      rw [Written.empty_eq_complete.mp written]
      exact ⟨rfl, rfl⟩
  | tail name =>
      cases written
      exact ⟨rfl, rfl⟩
  | atom name a rest ih =>
      obtain ⟨x, v⟩ := v
      simp only [writeIn, Written.append_eq_complete, Written.under_eq_complete] at written
      obtain ⟨front, back, head, tail, rfl⟩ := written
      obtain ⟨size, present⟩ := Atom.length_of_write head
      obtain ⟨counted, sizes⟩ := ih tail
      simp [isCounted, sizeIn, present, counted, sizes, size]
  | padding count rest ih =>
      simp only [writeIn, Written.append_eq_complete, Written.mk_eq_complete] at written
      obtain ⟨front, back, rfl, tail, rfl⟩ := written
      obtain ⟨counted, sizes⟩ := ih tail
      simp [isCounted, sizeIn, counted, sizes]
  | word octets fields rest ih =>
      obtain ⟨x, v⟩ := v
      simp only [writeIn, Written.append_eq_complete, BitFields.write_eq_complete] at written
      obtain ⟨front, back, ⟨word, -, rfl⟩, tail, rfl⟩ := written
      obtain ⟨counted, sizes⟩ := ih tail
      simp [isCounted, sizeIn, counted, sizes]
  | count name format limit rest ih =>
      simp only [writeIn, Written.append_eq_complete, writeCount_eq_complete,
        IntFormat.write_eq_complete] at written
      obtain ⟨front, back, ⟨-, -, rfl⟩, tail, rfl⟩ := written
      obtain ⟨counted, sizes⟩ := ih tail
      simp [isCounted, sizeIn, counted, sizes]
  | tag name e format rest ih =>
      simp only [writeIn, Written.append_eq_complete, Written.under_eq_complete,
        IntFormat.write_eq_complete] at written
      obtain ⟨front, back, ⟨-, rfl⟩, tail, rfl⟩ := written
      obtain ⟨counted, sizes⟩ := ih tail
      simp [isCounted, sizeIn, counted, sizes]
  | sized name s extent rest ih =>
      obtain ⟨x, v⟩ := v
      simp only [writeIn, Written.append_eq_complete, Written.under_eq_complete] at written
      obtain ⟨front, back, head, tail, rfl⟩ := written
      obtain ⟨counted, sizes⟩ := ih tail
      simp [isCounted, sizeIn, counted, sizes, Sized.size_of_write head]
  | record name kind inner rest ih₀ ih =>
      obtain ⟨x, v⟩ := v
      simp only [writeIn, Written.append_eq_complete, Written.under_eq_complete] at written
      obtain ⟨front, back, head, tail, rfl⟩ := written
      obtain ⟨inside, size⟩ := ih₀ head
      obtain ⟨counted, sizes⟩ := ih tail
      simp [isCounted, sizeIn, inside, size, counted, sizes]
  | records name kind inner counter rest ih₀ ih =>
      obtain ⟨xs, v⟩ := v
      simp only [writeIn, Written.append_eq_complete, Written.under_eq_complete] at written
      obtain ⟨front, back, head, tail, rfl⟩ := written
      have total := Written.sum_of_all (fun x front complete => (ih₀ complete).2) head
      have inside := Written.forall_of_all (fun x front complete => (ih₀ complete).1) head
      obtain ⟨counted, sizes⟩ := ih tail
      simp [isCounted, sizeIn, total, counted, sizes]
      exact inside
  | choice name teller kind₀ inner₀ kind₁ inner₁ rest ih₀ ih₁ ih =>
      obtain ⟨x, v⟩ := v
      simp only [writeIn, Written.append_eq_complete, Written.under_eq_complete] at written
      obtain ⟨front, back, head, tail, rfl⟩ := written
      obtain ⟨counted, sizes⟩ := ih tail
      cases x with
      | inl x =>
          obtain ⟨inside, size⟩ := ih₀ head
          simp [isCounted, sizeIn, inside, size, counted, sizes]
      | inr x =>
          obtain ⟨inside, size⟩ := ih₁ head
          simp [isCounted, sizeIn, inside, size, counted, sizes]

/-- The size that all values of a layout share, if no member varies. -/
def fixedSize? : Layout → Option Nat
  | done => some 0
  | atom _ a rest => rest.fixedSize?.map (a.width + ·)
  | padding n rest => rest.fixedSize?.map (n + ·)
  | word octets _ rest => rest.fixedSize?.map (octets + ·)
  | record _ _ inner rest =>
    inner.fixedSize?.bind fun size => rest.fixedSize?.map (size + ·)
  | _ => none

theorem sizeIn_of_fixedSize? (layout : Layout) {scope : Scope} {v : layout.Value} {size : Nat}
    (fixed : layout.fixedSize? = some size) : layout.sizeIn scope v = size := by
  induction layout generalizing scope size with
  | done =>
      cases fixed
      rfl
  | atom name a rest ih =>
      obtain ⟨later, found, rfl⟩ := Option.map_eq_some_iff.mp fixed
      simp [sizeIn, ih found]
  | padding count rest ih =>
      obtain ⟨later, found, rfl⟩ := Option.map_eq_some_iff.mp fixed
      simp [sizeIn, ih found]
  | word octets fields rest ih =>
      obtain ⟨later, found, rfl⟩ := Option.map_eq_some_iff.mp fixed
      simp [sizeIn, ih found]
  | record name kind inner rest ih₀ ih =>
      obtain ⟨first, inside, later⟩ := Option.bind_eq_some_iff.mp fixed
      obtain ⟨second, found, rfl⟩ := Option.map_eq_some_iff.mp later
      simp [sizeIn, ih₀ inside, ih found]
  | _ => cases fixed

end Layout
end Dis
