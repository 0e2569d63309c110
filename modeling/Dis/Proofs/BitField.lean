import Dis.Proofs.Octets
import Mathlib.Data.List.FinRange

/-! Decoding a number settles it: what it decodes to has a number that decodes to the
same member, and a catalogued number is kept. -/

namespace Dis.Enumeration

variable (e : Enumeration)

def Knows (number : Int) : Prop := ∃ row ∈ e.members, (row.2 : Int) = number

instance (number : Int) : Decidable (e.Knows number) :=
  inferInstanceAs (Decidable (∃ row ∈ e.members, (row.2 : Int) = number))

theorem index_of_knows (number : Int) (knows : e.Knows number) :
    ∃ i, e.index? (fun row => (row.2 : Int) == number) = some i ∧
      ((e.member i).2 : Int) = number := by
  obtain ⟨row, listed, same⟩ := knows
  obtain ⟨i, rfl⟩ := List.get_of_mem listed
  cases found : e.index? (fun row => (row.2 : Int) == number) with
  | none =>
      have absent := List.find?_eq_none.mp found i (List.mem_finRange i)
      exact absurd same (by simpa [member] using absent)
  | some j => exact ⟨j, rfl, by simpa using List.find?_some found⟩

theorem number_decode_of_knows (number : Int) (knows : e.Knows number) :
    (e.decode number).number = number := by
  obtain ⟨i, found, same⟩ := e.index_of_knows number knows
  simp only [decode, found, Option.getD_some, Code.number, same]

theorem decode_of_not_knows (number : Int) (unknown : ¬ e.Knows number) :
    e.decode number = .member ⟨0, Nat.succ_pos _⟩ := by
  cases found : e.index? (fun row => (row.2 : Int) == number) with
  | none => simp only [decode, found, Option.getD_none]
  | some i =>
      have same := List.find?_some found
      exact absurd ⟨e.member i, List.get_mem e.members i, by simpa using same⟩ unknown

theorem number_fallback : (Code.member ⟨0, Nat.succ_pos _⟩ : Code e).number = e.fallback.2 := rfl

theorem decode_fallback : e.decode e.fallback.2 = .member ⟨0, Nat.succ_pos _⟩ := by
  have first : e.index? (fun row => (row.2 : Int) == e.fallback.2) =
      some ⟨0, Nat.succ_pos _⟩ := by
    simp [index?, size, List.finRange_succ, member, members]
  simp only [decode, first, Option.getD_some]

theorem decode_number_decode (number : Int) : e.decode (e.decode number).number = e.decode number := by
  by_cases knows : e.Knows number
  · rw [e.number_decode_of_knows number knows]
  · rw [e.decode_of_not_knows number knows, e.number_fallback, e.decode_fallback]

theorem number_decode (number : Int) :
    (e.decode number).number = if e.Knows number then number else e.fallback.2 := by
  split
  · next knows => exact e.number_decode_of_knows number knows
  · next unknown => rw [e.decode_of_not_knows number unknown, number_fallback]

/-- The member of a number, or else the first member. -/
def StandsFor (number : Int) (code : Code e) : Prop :=
  ∃ i, code = .member i ∧ (e.Knows number → ((e.member i).2 : Int) = number) ∧
    (¬ e.Knows number → i.val = 0)

theorem standsFor_decode (number : Int) : e.StandsFor number (e.decode number) :=
  ⟨_, rfl, e.number_decode_of_knows number, fun unknown =>
    congrArg Fin.val (Code.member.inj (e.decode_of_not_knows number unknown))⟩

theorem number_decode_binary (binary : e.members.map Prod.snd = [0, 1]) (number : Int) :
    (e.decode number).number = 0 ∨ (e.decode number).number = 1 := by
  have listed : ∀ i, ((e.member i).2 = 0 ∨ (e.member i).2 = 1) := by
    intro i
    have found := List.mem_map_of_mem (f := Prod.snd) (List.get_mem e.members i)
    rw [binary] at found
    simpa [member] using found
  rcases listed _ with zero | one
  · exact Or.inl (congrArg Int.ofNat zero)
  · exact Or.inr (congrArg Int.ofNat one)

theorem knows_of_binary (binary : e.members.map Prod.snd = [0, 1]) (number : Nat)
    (small : number ≤ 1) : e.Knows number := by
  have listed : number ∈ e.members.map Prod.snd := by
    rw [binary, List.mem_pair]
    omega
  obtain ⟨row, found, same⟩ := List.mem_map.mp listed
  exact ⟨row, found, congrArg Int.ofNat same⟩

end Dis.Enumeration

/-! Flag words. Packing and unpacking are inverse up to gaps and to patterns that no
catalogue knows; `settle` is the word that both together leave. -/

namespace Dis

namespace BitField

variable (field : BitField)

def norm : (field : BitField) → field.Value → field.Value
  | gap _, value => value
  | number .., n => n
  | enum _ e _, code => e.decode code.number
  | flag _, set => set

def Becomes : (field : BitField) → (before after : field.Value) → Prop
  | enum _ e _, before, after => e.StandsFor (Code.number before) after
  | gap _, before, after => after = before
  | number .., before, after => after = before
  | flag _, before, after => after = before

theorem becomes_norm (field : BitField) (value : field.Value) :
    field.Becomes value (field.norm value) := by
  cases field with
  | enum name e width => exact e.standsFor_decode (Code.number value)
  | _ => rfl

/-- The bits that are written after a pattern was read. -/
def settle : BitField → Nat → Nat
  | gap _, _ => 0
  | number .., n => n
  | enum _ e _, n => (e.decode n).number.toNat
  | flag _, n => n

/-- The bits that tell one value from another. -/
def blank : BitField → Nat → Nat
  | gap _, _ => 0
  | _, n => n

/-- Is the pattern one that writing may give? -/
def IsCanonical : BitField → Nat → Prop
  | gap _, n => n = 0
  | enum _ e _, n => e.Knows n
  | _, _ => True

def isSound : BitField → Bool
  | enum _ e width => e.fallback.2 < 2 ^ width
  | _ => true

variable {field}

theorem bits_eq_ok {value : field.Value} {n : Nat} :
    field.bits value = .ok n ↔ field.number? value = n ∧ n < 2 ^ field.width := by
  have cast : ((2 ^ field.width : Nat) : Int) = 2 ^ field.width := by push_cast; rfl
  unfold bits
  simp only
  split
  · next fits =>
    simp only [Except.ok.injEq]
    omega
  · next outside =>
    simp only [reduceCtorEq, false_iff]
    rintro ⟨same, below⟩
    omega

theorem ofBits_of_bits {value : field.Value} {n : Nat} (written : field.bits value = .ok n) :
    field.ofBits n = field.norm value := by
  obtain ⟨same, -⟩ := bits_eq_ok.mp written
  cases field with
  | gap width => rfl
  | number name width => exact same.symm
  | enum name e width => exact congrArg e.decode same.symm
  | flag name =>
      cases value
      · obtain rfl : n = 0 := by simpa [number?] using same.symm
        rfl
      · obtain rfl : n = 1 := by simp only [number?, if_true] at same; omega
        rfl

theorem bits_ofBits {n : Nat} (sound : field.isSound) (small : n < 2 ^ field.width) :
    field.bits (field.ofBits n) = .ok (field.settle n) := by
  apply bits_eq_ok.mpr
  cases field with
  | gap width => exact ⟨rfl, Nat.two_pow_pos width⟩
  | number name width => exact ⟨rfl, small⟩
  | enum name e width =>
      have fallback : e.fallback.2 < 2 ^ width := by simpa [isSound] using sound
      simp only [number?, ofBits, settle, e.number_decode, BitField.width] at small ⊢
      split <;> simp_all
  | flag name =>
      have bit : n = 0 ∨ n = 1 := by simp only [width] at small; omega
      rcases bit with rfl | rfl <;> exact ⟨rfl, small⟩

theorem norm_ofBits (n : Nat) : field.norm (field.ofBits n) = field.ofBits n := by
  cases field with
  | enum name e width => exact e.decode_number_decode n
  | _ => rfl

theorem settle_of_canonical {n : Nat} (canonical : field.IsCanonical n) : field.settle n = n := by
  cases field with
  | gap width => exact canonical.symm
  | enum name e width => simp [settle, e.number_decode_of_knows n canonical]
  | _ => rfl

theorem blank_lt {n : Nat} (small : n < 2 ^ field.width) : field.blank n < 2 ^ field.width := by
  cases field with
  | gap width => exact Nat.two_pow_pos width
  | _ => exact small

theorem ofBits_of_blank {m n : Nat} (same : field.blank m = field.blank n) :
    field.ofBits m = field.ofBits n := by
  cases field with
  | gap width => rfl
  | _ => exact congrArg _ same

end BitField

namespace BitFields

@[simp] theorem width_cons (field : BitField) (rest : List BitField) :
    width (field :: rest) = field.width + width rest := by
  simp [width]

def norm : (fields : List BitField) → Value fields → Value fields
  | [], _ => ()
  | field :: rest, (value, values) => (field.norm value, norm rest values)

def Becomes : (fields : List BitField) → (before after : Value fields) → Prop
  | [], _, _ => True
  | field :: rest, (x, xs), (y, ys) => field.Becomes x y ∧ Becomes rest xs ys

theorem becomes_norm (fields : List BitField) (values : Value fields) :
    Becomes fields values (norm fields values) := by
  induction fields with
  | nil => trivial
  | cons field rest ih => exact ⟨field.becomes_norm _, ih _⟩

def slice (field : BitField) (rest : List BitField) (word : Nat) : Nat :=
  word / 2 ^ width rest % 2 ^ field.width

def settle : List BitField → Nat → Nat
  | [], _ => 0
  | field :: rest, word =>
    field.settle (slice field rest word) * 2 ^ width rest + settle rest word

def blank : List BitField → Nat → Nat
  | [], _ => 0
  | field :: rest, word => field.blank (slice field rest word) * 2 ^ width rest + blank rest word

/-- Gaps are zero, and every catalogue knows its pattern. -/
def IsCanonical : List BitField → Nat → Prop
  | [], _ => True
  | field :: rest, word => field.IsCanonical (slice field rest word) ∧ IsCanonical rest word

theorem slice_lt (field : BitField) (rest : List BitField) (word : Nat) :
    slice field rest word < 2 ^ field.width :=
  Nat.mod_lt _ (Nat.two_pow_pos _)

theorem pack_cons_eq_ok {field : BitField} {rest : List BitField} {value : field.Value}
    {values : Value rest} {word : Nat} :
    pack (field :: rest) (value, values) = .ok word ↔
      ∃ high low, field.bits value = .ok high ∧ pack rest values = .ok low ∧
        word = high * 2 ^ width rest + low := by
  rw [pack]
  cases field.bits value with
  | error fault => simp [bind, Except.bind]
  | ok high =>
      cases pack rest values with
      | error fault => simp [bind, Except.bind]
      | ok low => simp [bind, Except.bind, pure, Except.pure, eq_comm]

-- Whatever stands above the bits of the fields does not reach them.
theorem unpack_of_pack (fields : List BitField) (values : Value fields) (word : Nat)
    (packed : pack fields values = .ok word) :
    word < 2 ^ width fields ∧
      ∀ above, unpack fields (above * 2 ^ width fields + word) = norm fields values := by
  induction fields generalizing word with
  | nil =>
      obtain rfl : 0 = word := Except.ok.inj packed
      exact ⟨Nat.two_pow_pos _, fun _ => rfl⟩
  | cons field rest ih =>
      obtain ⟨value, values⟩ := values
      obtain ⟨high, low, first, later, rfl⟩ := pack_cons_eq_ok.mp packed
      obtain ⟨below, unpacked⟩ := ih values low later
      have fits := (BitField.bits_eq_ok.mp first).2
      have positive := Nat.two_pow_pos (width rest)
      constructor
      · rw [width_cons, Nat.pow_add]
        calc high * 2 ^ width rest + low
          _ < (high + 1) * 2 ^ width rest := by rw [Nat.succ_mul]; omega
          _ ≤ 2 ^ field.width * 2 ^ width rest := Nat.mul_le_mul_right _ fits
      · intro above
        have regrouped : above * 2 ^ width (field :: rest) + (high * 2 ^ width rest + low) =
            (above * 2 ^ field.width + high) * 2 ^ width rest + low := by
          rw [width_cons, Nat.pow_add, Nat.add_mul, Nat.mul_assoc]
          omega
        have head : ((above * 2 ^ field.width + high) * 2 ^ width rest + low) / 2 ^ width rest %
            2 ^ field.width = high := by
          rw [Nat.add_comm _ low, Nat.add_mul_div_right _ _ positive, Nat.div_eq_of_lt below,
            Nat.zero_add, Nat.add_comm, Nat.add_mul_mod_self_right, Nat.mod_eq_of_lt fits]
        simp only [regrouped, unpack, head, norm, BitField.ofBits_of_bits first]
        exact congrArg (Prod.mk _) (unpacked (above * 2 ^ field.width + high))

theorem pack_unpack (fields : List BitField) (sound : fields.all BitField.isSound) (word : Nat) :
    pack fields (unpack fields word) = .ok (settle fields word) := by
  induction fields with
  | nil => rfl
  | cons field rest ih =>
      obtain ⟨first, later⟩ : field.isSound ∧ rest.all BitField.isSound := by simpa using sound
      exact pack_cons_eq_ok.mpr ⟨_, _, BitField.bits_ofBits first (slice_lt field rest word),
        ih later, rfl⟩

theorem norm_unpack (fields : List BitField) (word : Nat) :
    norm fields (unpack fields word) = unpack fields word := by
  induction fields with
  | nil => rfl
  | cons field rest ih => exact Prod.ext (BitField.norm_ofBits _) ih

theorem slice_cons (field : BitField) (rest : List BitField) (word : Nat) :
    word % 2 ^ width (field :: rest) = slice field rest word * 2 ^ width rest +
      word % 2 ^ width rest := by
  rw [width_cons, Nat.add_comm, Nat.pow_add, Nat.mod_mul, slice, Nat.mul_comm (2 ^ width rest)]
  omega

theorem settle_of_canonical (fields : List BitField) (word : Nat)
    (canonical : IsCanonical fields word) : settle fields word = word % 2 ^ width fields := by
  induction fields with
  | nil => simp [settle, width, Nat.mod_one]
  | cons field rest ih =>
      rw [settle, BitField.settle_of_canonical canonical.1, ih canonical.2, slice_cons]

theorem blank_lt (fields : List BitField) (word : Nat) :
    blank fields word < 2 ^ width fields := by
  induction fields with
  | nil => exact Nat.two_pow_pos _
  | cons field rest ih =>
      have first := BitField.blank_lt (slice_lt field rest word)
      rw [width_cons, Nat.pow_add]
      calc blank (field :: rest) word
        _ = field.blank (slice field rest word) * 2 ^ width rest + blank rest word := rfl
        _ < (field.blank (slice field rest word) + 1) * 2 ^ width rest := by
          rw [Nat.succ_mul]; omega
        _ ≤ 2 ^ field.width * 2 ^ width rest := Nat.mul_le_mul_right _ first

theorem unpack_of_blank (fields : List BitField) (first second : Nat)
    (same : blank fields first = blank fields second) :
    unpack fields first = unpack fields second := by
  induction fields with
  | nil => rfl
  | cons field rest ih =>
      have low := blank_lt rest first
      have low' := blank_lt rest second
      have positive := Nat.two_pow_pos (width rest)
      have tails : blank rest first = blank rest second := by
        have mods := congrArg (· % 2 ^ width rest) same
        simpa [blank, Nat.mul_add_mod_self_right, Nat.mod_eq_of_lt low, Nat.mod_eq_of_lt low']
          using mods
      have heads : field.blank (slice field rest first) = field.blank (slice field rest second) := by
        have sums := same
        simp only [blank, tails] at sums
        exact Nat.eq_of_mul_eq_mul_right positive (Nat.add_right_cancel sums)
      exact Prod.ext (BitField.ofBits_of_blank heads) (ih tails)

end BitFields
end Dis
