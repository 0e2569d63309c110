import Dis.Proofs.Layout.RoundTrip

/-! How much is read at most. A number that was read has a bounded width, and with it every
extent that it counts, so what ends by itself ends within an extent of its own. -/

namespace Dis

variable {α β : Type}

namespace Reader

/-- Does the reader use up that many octets at most, if it reads anything? -/
def ReadsAtMost (most : Nat) (reader : Reader α) : Prop :=
  ∀ input left a, reader input = .ok a left → input.length ≤ most + left.length

variable {reader : Reader α} {most : Nat}

theorem readsAtMost_pure (a : α) : ReadsAtMost 0 (pure a : Reader α) := by
  intro input left b read
  obtain ⟨-, rfl⟩ := pure_eq_ok.mp read
  omega

theorem readsAtMost_take (count : Nat) : ReadsAtMost count (take count) := by
  intro input left front read
  obtain ⟨rfl, size⟩ := take_eq_ok.mp read
  simp [size]

theorem ReadsAtMost.mono {more : Nat} (bound : reader.ReadsAtMost most) (fewer : most ≤ more) :
    reader.ReadsAtMost more := by
  intro input left a read
  have within := bound input left a read
  omega

/-- What follows may depend on what was read, not on any value of its type. -/
theorem ReadsAtMost.bind {next : α → Reader β} {more : Nat} (first : reader.ReadsAtMost most)
    (later : ∀ a input left, reader input = .ok a left → (next a).ReadsAtMost more) :
    (reader >>= next).ReadsAtMost (most + more) := by
  intro input left b read
  obtain ⟨a, middle, head, tail⟩ := bind_eq_ok.mp read
  have front := first input middle a head
  have back := later a input middle head middle left b tail
  omega

theorem ReadsAtMost.under (name : String) (bound : reader.ReadsAtMost most) :
    (reader.under name).ReadsAtMost most := by
  intro input left a read
  exact bound input left a (under_eq_ok.mp read)

theorem ReadsAtMost.map (f : α → β) (bound : reader.ReadsAtMost most) :
    (f <$> reader).ReadsAtMost most := by
  intro input left b read
  obtain ⟨a, first, -⟩ := map_eq_ok.mp read
  exact bound input left a first

theorem ReadsAtMost.many (each : reader.ReadsAtMost most) (count : Nat) :
    (many count reader).ReadsAtMost (count * most) := by
  intro input left xs read
  induction count generalizing input xs with
  | zero =>
      obtain ⟨-, rfl⟩ := many_zero_eq_ok.mp read
      omega
  | succ count ih =>
      obtain ⟨x, tail, middle, first, later, -⟩ := many_succ_eq_ok.mp read
      have front := each input middle x first
      have back := ih middle tail later
      rw [Nat.succ_mul]
      omega

end Reader

theorem IntFormat.readsAtMost (format : IntFormat) : format.read.ReadsAtMost format.width :=
  (Reader.readsAtMost_take format.width).bind fun _ _ _ _ => Reader.readsAtMost_pure _

theorem IntFormat.natAbs_lt_of_read {format : IntFormat} {n : Int} {input left : Octets}
    (read : format.read input = .ok n left) : n.natAbs < 2 ^ 64 := by
  obtain ⟨octets, -, size, rfl⟩ := IntFormat.read_eq_ok.mp read
  exact format.natAbs_lt_of_holds (format.holds_ofOctets octets size)

namespace Atom

theorem readsAtMost (a : Atom) : a.read.ReadsAtMost a.width := by
  cases a with
  | int format start => exact format.readsAtMost
  | bits format => exact format.readsAtMost.map some
  | enum e format start => exact format.readsAtMost.bind fun _ _ _ _ => Reader.readsAtMost_pure _
  | float format start =>
      exact (Reader.readsAtMost_take format.width).bind fun _ _ _ _ => Reader.readsAtMost_pure _
  | octets count => exact Reader.readsAtMost_take count
  | text width =>
      change Reader.ReadsAtMost (width + 0) (readText width)
      refine (Reader.readsAtMost_take width).bind fun front _ _ _ => ?_
      dsimp only
      split
      · exact Reader.readsAtMost_pure _
      · exact fun input left a read => absurd read Reader.fail_ne_ok

theorem natAbs_number?_of_read {a : Atom} {value : a.Value} {input left : Octets}
    (read : a.read input = .ok value left) : ∀ n ∈ a.number? value, n.natAbs < 2 ^ 64 := by
  intro n found
  cases a with
  | int format start =>
      cases found
      exact IntFormat.natAbs_lt_of_read read
  | bits format =>
      obtain ⟨number, first, rfl⟩ := Reader.map_eq_ok.mp read
      cases found
      exact IntFormat.natAbs_lt_of_read first
  | _ => cases found

end Atom

namespace Sized

/-- The octets that a member takes up at most, for numbers of 64 bits in its extent. -/
def most (sized : Sized) (factors : Nat) : Nat :=
  let extent := 2 ^ (64 * factors)
  match sized with
  | numbers format => extent * format.width
  | octets => extent
  | payload boundary => extent + (extent + boundary)
  | blob _ => extent

end Sized

namespace Scope

variable {scope : Scope}

def IsNarrow (scope : Scope) : Prop := ∀ name, (scope.get name).natAbs < 2 ^ 64

theorem isNarrow_nil : IsNarrow [] := fun _ => Nat.two_pow_pos 64

theorem IsNarrow.bind (narrow : scope.IsNarrow) {name : String} {number : Option Int}
    (small : ∀ n ∈ number, n.natAbs < 2 ^ 64) : (scope.bind name number).IsNarrow := by
  intro other
  cases number with
  | none => exact narrow other
  | some n =>
      by_cases same : other = name
      · rw [same, get_bind_self]
        exact small n rfl
      · rw [get_bind_ne _ same]
        exact narrow other

theorem IsNarrow.product_le (narrow : scope.IsNarrow) (extent : List String) :
    (scope.product extent).natAbs ≤ 2 ^ (64 * extent.length) := by
  have along (extent : List String) (start : Int) : (extent.foldl (fun n name =>
      n * scope.get name) start).natAbs ≤ start.natAbs * 2 ^ (64 * extent.length) := by
    induction extent generalizing start with
    | nil => simp
    | cons name extent ih =>
        have step := Nat.mul_le_mul_left start.natAbs (Nat.le_of_lt (narrow name))
        calc (extent.foldl (fun n name => n * scope.get name) (start * scope.get name)).natAbs
            ≤ (start * scope.get name).natAbs * 2 ^ (64 * extent.length) := ih _
          _ = start.natAbs * (scope.get name).natAbs * 2 ^ (64 * extent.length) := by
              rw [Int.natAbs_mul]
          _ ≤ start.natAbs * 2 ^ 64 * 2 ^ (64 * extent.length) := Nat.mul_le_mul_right _ step
          _ = start.natAbs * 2 ^ (64 * (name :: extent).length) := by
              rw [Nat.mul_assoc, ← Nat.pow_add, List.length_cons, Nat.mul_succ, Nat.add_comm]
  simpa [product] using along extent 1

end Scope

theorem toNat_paddingOctets_le (bits : Int) (boundary : Nat) :
    (paddingOctets bits boundary).toNat ≤ bits.natAbs + boundary := by
  rw [paddingOctets, Int.fdiv_eq_ediv_of_nonneg _ (by decide)]
  by_cases none : boundary = 0
  · subst none
    simp only [Int.natCast_zero, Int.fmod_zero]
    omega
  · have positive : (0 : Int) < boundary := by omega
    have within := Int.fmod_lt_of_pos ((boundary : Int) - bits.fmod boundary) positive
    omega

theorem Sized.readsAtMost {sized : Sized} {extent : Int} {factors : Nat}
    (small : extent.natAbs ≤ 2 ^ (64 * factors)) :
    (sized.read extent).ReadsAtMost (sized.most factors) := by
  have whole : extent.toNat ≤ 2 ^ (64 * factors) := by omega
  cases sized with
  | numbers format =>
      exact (format.readsAtMost.many extent.toNat).mono (Nat.mul_le_mul_right _ whole)
  | octets => exact (Reader.readsAtMost_take _).mono whole
  | payload boundary =>
      have body : (payloadOctets extent).toNat ≤ 2 ^ (64 * factors) := by
        rw [payloadOctets, Int.fdiv_eq_ediv_of_nonneg _ (by decide)]
        have := Nat.two_pow_pos (64 * factors)
        omega
      have padding := toNat_paddingOctets_le extent boundary
      have both := Nat.add_le_add body (Nat.le_trans padding (Nat.add_le_add_right small boundary))
      refine ((Reader.readsAtMost_take _).bind fun front _ _ _ => ?_).mono both
      exact (Reader.readsAtMost_take _).bind fun _ _ _ _ => Reader.readsAtMost_pure front
  | blob kind =>
      exact ((Reader.readsAtMost_take _).bind fun _ _ _ _ => Reader.readsAtMost_pure _).mono whole

namespace Layout

def most : Layout → Nat
  | done => 0
  | tail _ => 0
  | atom _ a rest => a.width + rest.most
  | padding n rest => n + rest.most
  | word octets _ rest => octets + rest.most
  | count _ format _ rest => format.width + rest.most
  | tag _ _ format rest => format.width + rest.most
  | sized _ s extent rest => s.most extent.length + rest.most
  | record _ _ inner rest => inner.most + rest.most
  | records _ _ inner _ rest => 2 ^ 64 * inner.most + rest.most
  | choice _ _ _ inner₀ _ inner₁ rest => inner₀.most + inner₁.most + rest.most

theorem readsAtMost (layout : Layout) {scope : Scope} {names : Names}
    (sound : layout.isSoundIn names) (bounded : layout.isBounded) (narrow : scope.IsNarrow) :
    (layout.readIn scope).ReadsAtMost layout.most := by
  -- Over the members, for any narrow scope: a number that is read keeps it narrow.
  induction layout generalizing scope names with
  | done => exact Reader.readsAtMost_pure ()
  | tail name => cases bounded
  | atom name a rest ih =>
      simp only [isSoundIn, Bool.and_eq_true] at sound
      refine (a.readsAtMost.under name).bind fun x input left read => ?_
      have small := Atom.natAbs_number?_of_read (Reader.under_eq_ok.mp read)
      exact (ih sound.2 bounded (narrow.bind small)).bind
        fun v _ _ _ => Reader.readsAtMost_pure (x, v)
  | padding count rest ih =>
      exact (Reader.readsAtMost_take count).bind fun _ _ _ _ => ih sound bounded narrow
  | word octets fields rest ih =>
      simp only [isSoundIn, Bool.and_eq_true] at sound
      have front : (BitFields.read octets fields).ReadsAtMost octets :=
        (Reader.readsAtMost_take octets).bind fun _ _ _ _ => Reader.readsAtMost_pure _
      refine front.bind fun x _ _ _ => ?_
      exact (ih sound.2 bounded narrow).bind fun v _ _ _ => Reader.readsAtMost_pure (x, v)
  | count name format limit rest ih =>
      simp only [isSoundIn, Bool.and_eq_true] at sound
      refine (format.readsAtMost.under name).bind fun n input left read => ?_
      have small := IntFormat.natAbs_lt_of_read (Reader.under_eq_ok.mp read)
      have checked : (checkLimit limit n).ReadsAtMost 0 := by
        intro input left _ read
        rw [(checkLimit_eq_ok.mp read).2]
        omega
      rw [← Nat.zero_add rest.most]
      refine checked.bind fun _ _ _ _ => ih sound.2 bounded (narrow.bind ?_)
      rintro _ ⟨⟩
      exact small
  | tag name e format rest ih =>
      simp only [isSoundIn, Bool.and_eq_true, decide_eq_true_eq] at sound
      refine (format.readsAtMost.under name).bind fun n input left read => ?_
      refine ih sound.2 bounded (narrow.bind ?_)
      rintro _ ⟨⟩
      rcases e.number_decode_binary sound.1.1.1 n with zero | one
      · rw [zero]
        decide
      · rw [one]
        decide
  | sized name s extent rest ih =>
      refine ((Sized.readsAtMost (narrow.product_le extent)).under name).bind fun x _ _ _ => ?_
      have later : ∃ names, rest.isSoundIn names := by
        rw [isSoundIn] at sound
        split at sound
        · exact ⟨_, (Bool.and_eq_true_iff.mp sound).2⟩
        · exact ⟨_, (Bool.and_eq_true_iff.mp sound).2⟩
      obtain ⟨names, later⟩ := later
      exact (ih later bounded narrow).bind fun v _ _ _ => Reader.readsAtMost_pure (x, v)
  | record name kind inner rest ih₀ ih =>
      simp only [isSoundIn, isBounded, Bool.and_eq_true] at sound bounded
      refine ((ih₀ sound.1.1 bounded.1 Scope.isNarrow_nil).under name).bind fun x _ _ _ => ?_
      exact (ih sound.2 bounded.2 narrow).bind fun v _ _ _ => Reader.readsAtMost_pure (x, v)
  | records name kind inner counter rest ih₀ ih =>
      simp only [isSoundIn, isBounded, Bool.and_eq_true] at sound bounded
      have few : (scope.get counter).toNat ≤ 2 ^ 64 := by
        have := narrow counter
        omega
      have each := ((ih₀ sound.1.1.2 sound.1.2 Scope.isNarrow_nil).many _).mono
        (Nat.mul_le_mul_right inner.most few)
      refine (each.under name).bind fun xs _ _ _ => ?_
      exact (ih sound.2 bounded narrow).bind fun v _ _ _ => Reader.readsAtMost_pure (xs, v)
  | choice name teller kind₀ inner₀ kind₁ inner₁ rest ih₀ ih₁ ih =>
      simp only [isSoundIn, isBounded, Bool.and_eq_true] at sound bounded
      have zero := ih₀ sound.1.1.1.2 bounded.1.1 Scope.isNarrow_nil
      have one := ih₁ sound.1.1.2 bounded.1.2 Scope.isNarrow_nil
      have taken : Reader.ReadsAtMost (inner₀.most + inner₁.most)
          (if scope.get teller = 1 then Sum.inr <$> inner₁.readIn []
            else (Sum.inl <$> inner₀.readIn [] : Reader (inner₀.Value ⊕ inner₁.Value))) := by
        split
        · exact (one.map Sum.inr).mono (Nat.le_add_left _ _)
        · exact (zero.map Sum.inl).mono (Nat.le_add_right _ _)
      refine (taken.under name).bind fun x _ _ _ => ?_
      exact (ih sound.2 bounded.2 narrow).bind fun v _ _ _ => Reader.readsAtMost_pure (x, v)

theorem length_write_le (layout : Layout) (sound : layout.isSound) (bounded : layout.isBounded)
    {v : layout.Value} {octets : Octets} (written : layout.write v = ⟨octets, none⟩) :
    octets.length ≤ layout.most :=
  layout.readsAtMost sound bounded Scope.isNarrow_nil octets [] _ (layout.read_of_write sound written)

end Layout
end Dis
