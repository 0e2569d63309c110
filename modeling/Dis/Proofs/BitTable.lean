import Dis.Proofs.Layout.Domain

/-! Flag words by place. A bit table tells each sub-field by the position of its lowest bit;
bit 0 is the least significant bit of the word. The fields of a word are listed from the
other end, so their positions follow from the widths of those behind them. -/

namespace Dis

structure BitRow where
  position : Nat
  field : BitField
  deriving DecidableEq

namespace BitField

/-- Is the value the one that a pattern stands for? -/
def Shows : (field : BitField) → Nat → field.Value → Prop
  | gap _, _, _ => True
  | number .., n, value => value = (n : Int)
  | enum _ e _, n, code => e.StandsFor n code
  | flag _, n, set => set = true ↔ n = 1

/-- Is the value one that reading may give? Only catalogues do not know every number. -/
def IsCatalogued : (field : BitField) → field.Value → Prop
  | enum _ e _, code => e.Knows (Code.number code)
  | gap _, _ => True
  | number .., _ => True
  | flag _, _ => True

def Keeps : BitField → Nat → Prop
  | gap _, _ => False
  | enum _ e _, n => e.Knows n
  | _, _ => True

instance : (field : BitField) → (n : Nat) → Decidable (field.Keeps n)
  | enum _ e _, n => inferInstanceAs (Decidable (e.Knows n))
  | gap _, _ => .isFalse nofun
  | number .., _ => .isTrue trivial
  | flag _, _ => .isTrue trivial

def fallsToZero : BitField → Bool
  | enum _ e _ => e.fallback.2 = 0
  | _ => true

variable {field : BitField}

theorem shows_ofBits {n : Nat} (small : n < 2 ^ field.width) : field.Shows n (field.ofBits n) := by
  cases field with
  | gap width => trivial
  | number name width => exact rfl
  | enum name e width => exact e.standsFor_decode n
  | flag name =>
      simp only [width] at small
      simp only [Shows, ofBits, bne_iff_ne]
      omega

theorem isSound_of_fallsToZero (zero : field.fallsToZero) : field.isSound := by
  cases field with
  | enum name e width =>
      have zero : e.fallback.2 = 0 := by simpa [fallsToZero] using zero
      simp [isSound, zero]
  | _ => rfl

theorem settle_eq (zero : field.fallsToZero) (n : Nat) :
    field.settle n = if field.Keeps n then n else 0 := by
  cases field with
  | enum name e width =>
      have zero : e.fallback.2 = 0 := by simpa [fallsToZero] using zero
      simp only [settle, e.number_decode, zero]
      split <;> simp [Keeps, *]
  | _ => simp [settle, Keeps]

theorem sameValue_norm (value : field.Value) :
    field.sameValue (field.norm value) value ↔ field.IsCatalogued value := by
  cases field with
  | enum name e width =>
      simp only [sameValue, Code.sameValue, norm, IsCatalogued, e.number_decode, beq_iff_eq]
      constructor
      · intro same
        split at same
        · next knows => exact knows
        · exact same ▸ ⟨e.fallback, List.mem_cons_self, rfl⟩
      · intro knows
        rw [if_pos knows]
  | _ => simp [sameValue, norm, IsCatalogued]

end BitField

namespace BitRow

variable (row : BitRow)

/-- The bits of a word from the row's position on, as many as its field has. -/
def slice (word : Nat) : Nat := word / 2 ^ row.position % 2 ^ row.field.width

def Covers (bit : Nat) : Prop := row.position ≤ bit ∧ bit < row.position + row.field.width

instance (bit : Nat) : Decidable (row.Covers bit) := inferInstanceAs (Decidable (_ ∧ _))

theorem slice_lt (word : Nat) : row.slice word < 2 ^ row.field.width :=
  Nat.mod_lt _ (Nat.two_pow_pos _)

theorem testBit_slice (word bit : Nat) :
    (row.slice word).testBit bit =
      (decide (bit < row.field.width) && word.testBit (row.position + bit)) := by
  rw [slice, Nat.testBit_mod_two_pow, Nat.testBit_div_two_pow, Nat.add_comm]

theorem slice_mod {width : Nat} (inside : row.position + row.field.width ≤ width) (word : Nat) :
    row.slice (word % 2 ^ width) = row.slice word := by
  apply Nat.eq_of_testBit_eq
  intro bit
  simp only [testBit_slice, Nat.testBit_mod_two_pow]
  by_cases below : bit < row.field.width
  · have within : row.position + bit < width := by omega
    simp [within]
  · simp [below]

end BitRow

namespace BitFields

def rows : List BitField → List BitRow
  | [] => []
  | field :: rest => ⟨width rest, field⟩ :: rows rest

def get? (field : BitField) : (fields : List BitField) → Value fields → Option field.Value
  | [], _ => none
  | first :: rest, (value, values) =>
    if same : first = field then some (same ▸ value) else get? field rest values

/-- The number that stands for it on the wire. -/
def numberOf (field : BitField) (fields : List BitField) (values : Value fields) : Int :=
  (get? field fields values).elim 0 field.number?

variable {field : BitField} {rest : List BitField}

theorem get?_self (value : field.Value) (values : Value rest) :
    get? field (field :: rest) (value, values) = some value := by
  simp [get?]

theorem get?_of_ne {first : BitField} (other : first ≠ field) (value : first.Value)
    (values : Value rest) :
    get? field (first :: rest) (value, values) = get? field rest values := by
  simp [get?, other]

theorem field_of_mem_rows {fields : List BitField} {row : BitRow} (listed : row ∈ rows fields) :
    row.field ∈ fields := by
  induction fields with
  | nil => cases listed
  | cons first rest ih =>
      rcases List.mem_cons.mp listed with rfl | later
      · exact List.mem_cons_self
      · exact List.mem_cons_of_mem first (ih later)

theorem end_le_of_mem_rows {fields : List BitField} {row : BitRow} (listed : row ∈ rows fields) :
    row.position + row.field.width ≤ width fields := by
  induction fields with
  | nil => cases listed
  | cons first rest ih =>
      rw [width_cons]
      rcases List.mem_cons.mp listed with rfl | later
      · exact (Nat.add_comm ..).le
      · exact Nat.le_add_left_of_le (ih later)

/-- No field is listed twice, so what all rows hold is the first value and what the others
hold without it. -/
theorem forall_rows_cons (holds : (row : BitRow) → Option row.field.Value → Prop)
    (distinct : (field :: rest).Nodup) (value : field.Value) (values : Value rest) :
    (∀ row ∈ rows (field :: rest), holds row (get? row.field (field :: rest) (value, values))) ↔
      holds ⟨width rest, field⟩ (some value) ∧
        ∀ row ∈ rows rest, holds row (get? row.field rest values) := by
  have fresh := (List.nodup_cons.mp distinct).1
  rw [rows, List.forall_mem_cons, get?_self]
  refine and_congr_right' (forall₂_congr fun row listed => ?_)
  rw [get?_of_ne]
  rintro rfl
  exact fresh (field_of_mem_rows listed)

theorem get?_unpack (fields : List BitField) (distinct : fields.Nodup) (word : Nat) :
    ∀ row ∈ rows fields,
      get? row.field fields (unpack fields word) = some (row.field.ofBits (row.slice word)) := by
  induction fields with
  | nil => nofun
  | cons field rest ih =>
      rw [unpack]
      refine (forall_rows_cons (fun row held => held = some (row.field.ofBits (row.slice word)))
        distinct _ _).mpr ?_
      exact ⟨rfl, ih (List.nodup_cons.mp distinct).2⟩

theorem holds_iff (fields : List BitField) (distinct : fields.Nodup) (values : Value fields) :
    Holds fields values ↔
      ∀ row ∈ rows fields, ∀ value ∈ get? row.field fields values, row.field.Holds value := by
  induction fields with
  | nil => simp [Holds, rows]
  | cons field rest ih =>
      obtain ⟨value, values⟩ := values
      have split := forall_rows_cons (fun row held => ∀ value ∈ held, row.field.Holds value)
        distinct value values
      rw [Holds, ih (List.nodup_cons.mp distinct).2, split]
      simp

theorem sameValue_norm (fields : List BitField) (distinct : fields.Nodup) (values : Value fields) :
    sameValue fields (norm fields values) values ↔
      ∀ row ∈ rows fields, ∀ value ∈ get? row.field fields values, row.field.IsCatalogued value := by
  induction fields with
  | nil => simp [sameValue, rows]
  | cons field rest ih =>
      obtain ⟨value, values⟩ := values
      have split := forall_rows_cons (fun row held => ∀ value ∈ held, row.field.IsCatalogued value)
        distinct value values
      rw [norm, sameValue, Bool.and_eq_true, BitField.sameValue_norm,
        ih (List.nodup_cons.mp distinct).2, split]
      simp

theorem sum_of_pack (fields : List BitField) (distinct : fields.Nodup) (values : Value fields)
    {word : Nat} (packed : pack fields values = .ok word) :
    (word : Int) =
      ((rows fields).map fun row => numberOf row.field fields values * 2 ^ row.position).sum := by
  induction fields generalizing word with
  | nil =>
      cases packed
      rfl
  | cons field rest ih =>
      obtain ⟨value, values⟩ := values
      obtain ⟨high, low, first, later, rfl⟩ := pack_cons_eq_ok.mp packed
      have fresh := (List.nodup_cons.mp distinct).1
      have others : ∀ row ∈ rows rest,
          numberOf row.field (field :: rest) (value, values) * 2 ^ row.position =
            numberOf row.field rest values * 2 ^ row.position := by
        intro row listed
        rw [numberOf, get?_of_ne, numberOf]
        rintro rfl
        exact fresh (field_of_mem_rows listed)
      rw [rows, List.map_cons, List.sum_cons, List.map_congr_left others,
        ← ih (List.nodup_cons.mp distinct).2 values later, numberOf, get?_self, Option.elim_some,
        (BitField.bits_eq_ok.mp first).1]
      push_cast
      rfl

theorem settle_lt (fields : List BitField) (zero : fields.all BitField.fallsToZero) (word : Nat) :
    settle fields word < 2 ^ width fields := by
  induction fields with
  | nil => exact Nat.two_pow_pos _
  | cons field rest ih =>
      obtain ⟨first, later⟩ : field.fallsToZero ∧ rest.all BitField.fallsToZero := by
        simpa using zero
      have low := ih later
      have high : field.settle (slice field rest word) < 2 ^ field.width := by
        rw [BitField.settle_eq first]
        split
        · exact slice_lt field rest word
        · exact Nat.two_pow_pos _
      rw [width_cons, Nat.pow_add]
      calc settle (field :: rest) word
        _ = field.settle (slice field rest word) * 2 ^ width rest + settle rest word := rfl
        _ < (field.settle (slice field rest word) + 1) * 2 ^ width rest := by
          rw [Nat.succ_mul]; omega
        _ ≤ 2 ^ field.width * 2 ^ width rest := Nat.mul_le_mul_right _ high

/-- A bit is still set after reading and writing if it is one of a pattern that is kept. -/
theorem testBit_settle (fields : List BitField) (zero : fields.all BitField.fallsToZero)
    (word bit : Nat) :
    (settle fields word).testBit bit ↔ word.testBit bit ∧
      ∃ row ∈ rows fields, row.Covers bit ∧ row.field.Keeps (row.slice word) := by
  induction fields with
  | nil => simp [settle, rows]
  | cons field rest ih =>
      obtain ⟨first, later⟩ : field.fallsToZero ∧ rest.all BitField.fallsToZero := by
        simpa using zero
      have low := settle_lt rest later word
      rw [settle, Nat.mul_comm, Nat.testBit_two_pow_mul_add _ low, rows, List.exists_mem_cons_iff]
      by_cases below : bit < width rest
      · have above : ¬ BitRow.Covers ⟨width rest, field⟩ bit := by simp [BitRow.Covers, below]
        simp only [below, if_true, ih later, above, false_and, false_or]
      · have others : ¬ ∃ row ∈ rows rest, row.Covers bit ∧ row.field.Keeps (row.slice word) := by
          rintro ⟨row, listed, covers, -⟩
          have := end_le_of_mem_rows listed
          have := covers.2
          omega
        have place : width rest + (bit - width rest) = bit := by omega
        have bits := BitRow.testBit_slice ⟨width rest, field⟩ word (bit - width rest)
        rw [place] at bits
        rw [if_neg below, BitField.settle_eq first, BitRow.Covers]
        change (ite (field.Keeps (BitRow.slice ⟨width rest, field⟩ word))
          (BitRow.slice ⟨width rest, field⟩ word) 0).testBit _ = true ↔ _
        split
        · next kept =>
          have inside : bit - width rest < field.width ↔ bit < width rest + field.width := by omega
          simp only [bits, others, kept, inside, Bool.and_eq_true, decide_eq_true_eq]
          simp only [or_false, and_true]
          constructor
          · rintro ⟨within, set⟩
            exact ⟨set, by omega, within⟩
          · rintro ⟨set, -, within⟩
            exact ⟨within, set⟩
        · next cleared => simp [others, cleared]

end BitFields
end Dis
