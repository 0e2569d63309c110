import Dis.Proofs.BitTable
import Dis.Proofs.Frame
import Dis.Proofs.Refusal
import Dis.Proofs.Operation

/-! The three flag words against their bit tables. A table tells the places by position, from
the least significant bit up, and the word lists its fields from the most significant one down;
a pair of fields that changed places would still be read back, but not match its table. -/

namespace Dis

namespace FlagWord

def pduStatusTable : List BitRow := [
  ⟨0, .enum "transferred_entity" .transferredEntityIndicator 1⟩,
  ⟨1, .enum "lvc" .lvcIndicator 2⟩,
  ⟨3, .enum "coupled_extension" .coupledExtensionIndicator 1⟩,
  ⟨4, .number "type_specific" 2⟩,
  ⟨6, .gap 2⟩]

/-- Bits that stand in the same places in every appearance. -/
def commonTable : List BitRow := [
  ⟨0, .enum "paint_scheme" .paintScheme 1⟩,
  ⟨1, .flag "mobility_killed"⟩,
  ⟨2, .flag "fire_power_killed"⟩,
  ⟨3, .enum "damage" .damage 2⟩,
  ⟨5, .enum "smoke" .smoke 2⟩,
  ⟨7, .enum "trailing_effects" .trailingEffects 2⟩,
  ⟨9, .enum "hatch" .hatchState 3⟩]

def flamingRow : BitRow := ⟨15, .flag "flaming"⟩

def generalAppearanceTable : List BitRow :=
  commonTable ++ [⟨12, .enum "lights" .lights 3⟩, flamingRow]

def landPlatformTable : List BitRow := commonTable ++ [
  ⟨12, .flag "head_lights"⟩,
  ⟨13, .flag "tail_lights"⟩,
  ⟨14, .flag "brake_lights"⟩,
  flamingRow,
  ⟨16, .flag "launcher_raised"⟩,
  ⟨17, .enum "camouflage" .camouflage 2⟩,
  ⟨19, .flag "concealed"⟩,
  ⟨20, .gap 1⟩,
  ⟨21, .flag "frozen"⟩,
  ⟨22, .flag "power_plant_on"⟩,
  ⟨23, .flag "deactivated"⟩,
  ⟨24, .flag "tent_extended"⟩,
  ⟨25, .flag "ramp_down"⟩,
  ⟨26, .flag "blackout_lights"⟩,
  ⟨27, .flag "blackout_brake_lights"⟩,
  ⟨28, .flag "spot_lights"⟩,
  ⟨29, .flag "interior_lights"⟩,
  ⟨30, .flag "surrendered"⟩,
  ⟨31, .flag "masked"⟩]

def published : List (FlagWord × List BitRow) := [
  (pduStatus, pduStatusTable), (generalAppearance, generalAppearanceTable),
  (landPlatformAppearance, landPlatformTable)]

def get? (word : FlagWord) (field : BitField) (value : word.Value) : Option field.Value :=
  BitFields.get? field word.fields value.1

def numberOf (word : FlagWord) (field : BitField) (value : word.Value) : Int :=
  BitFields.numberOf field word.fields value.1

/-- The fields of the word are those of the table, and they fill its octets. -/
structure IsLaidOut (word : FlagWord) (table : List BitRow) : Prop where
  rows : (BitFields.rows word.fields).reverse = table
  distinct : word.fields.Nodup
  zero : word.fields.all BitField.fallsToZero
  whole : BitFields.width word.fields = 8 * word.octets

theorem isLaidOut_of_mem : ∀ entry ∈ published, IsLaidOut entry.1 entry.2 := by
  simp only [published, List.forall_mem_cons]
  refine ⟨?_, ?_, ?_, nofun⟩ <;>
    exact ⟨by decide +kernel, by decide +kernel, by decide +kernel, by decide +kernel⟩

variable {word : FlagWord} {table : List BitRow}

namespace IsLaidOut

theorem mem_iff (laid : word.IsLaidOut table) {row : BitRow} :
    row ∈ table ↔ row ∈ BitFields.rows word.fields := by
  rw [← laid.rows, List.mem_reverse]

theorem forall_iff (laid : word.IsLaidOut table) {holds : BitRow → Prop} :
    (∀ row ∈ table, holds row) ↔ ∀ row ∈ BitFields.rows word.fields, holds row :=
  forall_congr' fun _ => imp_congr_left laid.mem_iff

end IsLaidOut

theorem octets_modulus (word : FlagWord) : 256 ^ word.octets = 2 ^ (8 * word.octets) := by
  rw [Nat.pow_mul]

theorem ofInt_natCast {n : Nat} (small : n < 2 ^ (8 * word.octets)) :
    word.ofInt n = .ok (BitFields.unpack word.fields n, ()) := by
  have spelled : Octets.toNat (Octets.ofNat word.octets n) = n :=
    Octets.toNat_ofNat_of_lt _ _ (by rwa [octets_modulus])
  have range : 0 ≤ (n : Int) ∧ (n : Int) < 2 ^ (word.octets * 8) := by
    rw [Nat.mul_comm]
    exact ⟨Int.natCast_nonneg n, by exact_mod_cast small⟩
  rw [ofInt, if_pos range, Int.toNat_natCast]
  refine RecordKind.decode_eq_ok.mpr ⟨rfl, Layout.readIn_word.mpr ⟨[], ?_, rfl⟩⟩
  refine Reader.bind_eq_ok.mpr ⟨_, [], Reader.take_eq_ok.mpr
    ⟨(List.append_nil _).symm, Octets.length_ofNat word.octets n⟩, ?_⟩
  rw [spelled]
  rfl

theorem IsLaidOut.get?_ofInt (laid : word.IsLaidOut table) {n : Nat}
    (small : n < 2 ^ (8 * word.octets)) : ∃ value, word.ofInt n = .ok value ∧
      ∀ row ∈ table, word.get? row.field value = some (row.field.ofBits (row.slice n)) :=
  ⟨_, ofInt_natCast small,
    laid.forall_iff.mpr (BitFields.get?_unpack word.fields laid.distinct n)⟩

theorem ofInt_eq_error (n : Int) :
    (∃ e, word.ofInt n = .error e ∧ e.category = .decode) ↔ n < 0 ∨ 2 ^ (8 * word.octets) ≤ n := by
  constructor
  · rintro ⟨e, refused, -⟩
    by_contra within
    obtain ⟨count, rfl⟩ := Int.eq_ofNat_of_zero_le (show 0 ≤ n by omega)
    have small : count < 2 ^ (8 * word.octets) := by
      have below : (count : Int) < 2 ^ (8 * word.octets) := by omega
      exact_mod_cast below
    rw [ofInt_natCast small] at refused
    cases refused
  · intro outside
    have range : ¬ (0 ≤ n ∧ n < 2 ^ (word.octets * 8)) := by
      rw [Nat.mul_comm]
      omega
    rw [ofInt, if_neg range]
    exact ⟨_, rfl, rfl⟩

theorem write_eq (value : word.Value) :
    word.kind.layout.write value = BitFields.write word.octets word.fields value.1 :=
  Written.append_empty _

theorem toInt_of_pack (whole : BitFields.width word.fields = 8 * word.octets) (value : word.Value)
    {n : Nat} (packed : BitFields.pack word.fields value.1 = .ok n) :
    n < 2 ^ (8 * word.octets) ∧ word.toInt value = .ok n := by
  have small := (BitFields.unpack_of_pack word.fields value.1 n packed).1
  rw [whole] at small
  have written : word.kind.layout.write value = ⟨Octets.ofNat word.octets n, none⟩ := by
    rw [write_eq]
    exact BitFields.write_eq_complete.mpr ⟨n, packed, rfl⟩
  refine ⟨small, ?_⟩
  rw [toInt, RecordKind.encode_eq_ok.mpr written]
  exact congrArg Except.ok (Octets.toNat_ofNat_of_lt _ _ (by rwa [octets_modulus]))

/-- A word and its table say the same. Numbers are refused that the word has no bits for; each
field of any other is its slice of the number. A word whose fields fit is the sum of what they
hold, each at its place, and is read back as it was but for numbers that no catalogue knows.
A number that is read and written loses the bits of gaps and of unknown patterns, and no other.
Where a field does not fit, the word is refused and nothing of it is written. -/
structure Matches (word : FlagWord) (table : List BitRow) : Prop where
  refuses (n : Int) : (∃ e, word.ofInt n = .error e ∧ e.category = .decode) ↔
    n < 0 ∨ 2 ^ (8 * word.octets) ≤ n
  reads (n : Nat) (small : n < 2 ^ (8 * word.octets)) : ∃ value, word.ofInt n = .ok value ∧
    ∀ row ∈ table, ∃ held, word.get? row.field value = some held ∧
      row.field.Shows (row.slice n) held
  sums (value : word.Value)
    (fits : ∀ row ∈ table, ∀ held ∈ word.get? row.field value, row.field.Holds held) :
    ∃ n later, word.toInt value = .ok n ∧
      n = (table.map fun row => word.numberOf row.field value * 2 ^ row.position).sum ∧
      word.ofInt n = .ok later ∧
      (word.kind.layout.sameValue later value ↔
        ∀ row ∈ table, ∀ held ∈ word.get? row.field value, row.field.IsCatalogued held)
  clears (n : Nat) (small : n < 2 ^ (8 * word.octets)) : ∃ value later,
    word.ofInt n = .ok value ∧ word.toInt value = .ok later ∧
      ∀ bit, later.testBit bit ↔
        n.testBit bit ∧ ∃ row ∈ table, row.Covers bit ∧ row.field.Keeps (row.slice n)
  stops (value : word.Value)
    (unfit : ∃ row ∈ table, ∃ held ∈ word.get? row.field value, ¬ row.field.Holds held) :
    ∃ fault, word.kind.encode value = .error (.write fault) ∧
      (Error.write fault).category = .encode ∧
      ∀ cursor : Cursor, cursor.put (word.kind.layout.write value) = (.error (.write fault), cursor)

theorem matches_of_isLaidOut (laid : word.IsLaidOut table) : word.Matches table where
  refuses := ofInt_eq_error
  reads n small := by
    obtain ⟨value, read, fields⟩ := laid.get?_ofInt small
    exact ⟨value, read, fun row listed =>
      ⟨_, fields row listed, BitField.shows_ofBits (row.slice_lt n)⟩⟩
  sums value fits := by
    have holds := (BitFields.holds_iff word.fields laid.distinct value.1).mpr (laid.forall_iff.mp fits)
    obtain ⟨n, packed⟩ := BitFields.pack_isOk_iff.mpr holds
    obtain ⟨small, found⟩ := toInt_of_pack laid.whole value packed
    have unpacked := (BitFields.unpack_of_pack word.fields value.1 n packed).2 0
    rw [Nat.zero_mul, Nat.zero_add] at unpacked
    refine ⟨n, _, found, ?_, ofInt_natCast small, ?_⟩
    · rw [← laid.rows, List.map_reverse, List.sum_reverse]
      exact BitFields.sum_of_pack word.fields laid.distinct value.1 packed
    · rw [unpacked, laid.forall_iff]
      refine Iff.trans ?_ (BitFields.sameValue_norm word.fields laid.distinct value.1)
      exact Bool.eq_iff_iff.mp (Bool.and_true _)
  clears n small := by
    have sound : word.fields.all BitField.isSound :=
      List.all_eq_true.mpr fun field listed =>
        BitField.isSound_of_fallsToZero (List.all_eq_true.mp laid.zero field listed)
    have packed := BitFields.pack_unpack word.fields sound n
    obtain ⟨-, found⟩ := toInt_of_pack laid.whole (_, ()) packed
    refine ⟨_, _, ofInt_natCast small, found, fun bit => ?_⟩
    rw [BitFields.testBit_settle word.fields laid.zero]
    simp only [laid.mem_iff]
  stops value unfit := by
    cases packed : BitFields.pack word.fields value.1 with
    | ok n =>
        have holds := BitFields.pack_isOk_iff.mp ⟨n, packed⟩
        obtain ⟨row, listed, held, found, outside⟩ := unfit
        have fits := laid.forall_iff.mpr
          ((BitFields.holds_iff word.fields laid.distinct value.1).mp holds)
        exact absurd (fits row listed held found) outside
    | error fault =>
        have written : word.kind.layout.write value = ⟨[], some fault⟩ := by
          rw [write_eq, BitFields.write, packed]
        have plain := BitFields.isEncodeError_of_pack packed
        refine ⟨fault, ?_, Error.isEncodeError_write_iff.mp plain, fun cursor => ?_⟩
        · rw [RecordKind.encode, written]
          rfl
        · rw [written, Cursor.put, Cursor.write_nil]

end FlagWord

/-- The flag words are those that the tables publish. Besides gaps, only two hatch patterns and
four of the lights are lost when a number is read and written; and both views of an entity's
appearance can be had of any number of 32 bits, and agree where their tables do. -/
theorem bit_table_law :
    (∀ entry ∈ FlagWord.published, entry.1.Matches entry.2) ∧
    (∀ entry ∈ FlagWord.published, ∀ row ∈ entry.2, ∀ pattern < 2 ^ row.field.width,
      ¬ row.field.Keeps pattern ↔ row.field.name? = none ∨
        row.field.name? = some "hatch" ∧ 6 ≤ pattern ∨
        row.field.name? = some "lights" ∧ 4 ≤ pattern) ∧
    (∀ body : PduKind.entityState.body.Value,
      0 ≤ EntityState.appearance body → EntityState.appearance body < 2 ^ 32 →
        ∃ general land, EntityState.generalAppearance body = .ok general ∧
          EntityState.landPlatformAppearance body = .ok land ∧
          ∀ row ∈ FlagWord.flamingRow :: FlagWord.commonTable, ∃ held,
            FlagWord.generalAppearance.get? row.field general = some held ∧
            FlagWord.landPlatformAppearance.get? row.field land = some held) := by
  have laid := FlagWord.isLaidOut_of_mem
  refine ⟨fun entry listed => FlagWord.matches_of_isLaidOut (laid entry listed),
    by decide +kernel, ?_⟩
  intro body least most
  have low := laid (.generalAppearance, FlagWord.generalAppearanceTable)
    (by simp [FlagWord.published])
  have whole := laid (.landPlatformAppearance, FlagWord.landPlatformTable)
    (by simp [FlagWord.published])
  obtain ⟨n, appearance⟩ := Int.eq_ofNat_of_zero_le least
  have small : n < 2 ^ 32 := by omega
  obtain ⟨general, shown, fields⟩ := low.get?_ofInt (n := n % 2 ^ 16) (Nat.mod_lt n (by decide))
  obtain ⟨land, shown', fields'⟩ := whole.get?_ofInt small
  refine ⟨general, land, ?_, ?_, fun row listed => ⟨row.field.ofBits (row.slice n), ?_, ?_⟩⟩
  · rw [EntityState.generalAppearance, appearance]
    exact_mod_cast shown
  · rw [EntityState.landPlatformAppearance, appearance]
    exact shown'
  · have inside : ∀ row ∈ FlagWord.flamingRow :: FlagWord.commonTable,
        row.position + row.field.width ≤ 16 ∧ row ∈ FlagWord.generalAppearanceTable := by
      decide +kernel
    rw [fields row (inside row listed).2, row.slice_mod (inside row listed).1]
  · have inside : ∀ row ∈ FlagWord.flamingRow :: FlagWord.commonTable,
        row ∈ FlagWord.landPlatformTable := by decide +kernel
    exact fields' row (inside row listed)

/-- An appearance with a hatch and lights of unknown patterns, a status that does not fit, and
an entity that is destroyed and masked. -/
theorem bit_table_law_samples :
    let wide : FlagWord.pduStatus.Value := (((), (4 : Int), (.raw 0 : Code .coupledExtensionIndicator),
      (.raw 0 : Code .lvcIndicator), (.raw 0 : Code .transferredEntityIndicator), ()), ())
    let body : PduKind.entityState.body.Value :=
      let (id, force, type, other, velocity, location, orientation, _, rest) :=
        PduKind.entityState.body.initial
      (id, force, type, other, velocity, location, orientation, (0x80000018 : Int), rest)
    (∃ value later, FlagWord.generalAppearance.ofInt 0x7E19 = .ok value ∧
      FlagWord.generalAppearance.toInt value = .ok later ∧ later.testBit 3 ∧ ¬ later.testBit 9) ∧
    (∃ fault, FlagWord.pduStatus.kind.encode wide = .error (.write fault)) ∧
    (∃ e, FlagWord.pduStatus.ofInt 256 = .error e ∧ e.category = .decode) ∧
    ∃ general land, EntityState.generalAppearance body = .ok general ∧
      EntityState.landPlatformAppearance body = .ok land ∧ ∃ held,
        FlagWord.generalAppearance.get? (.enum "damage" .damage 2) general = some held ∧
        FlagWord.landPlatformAppearance.get? (.enum "damage" .damage 2) land = some held := by
  intro wide body
  obtain ⟨words, -, views⟩ := bit_table_law
  have status := words (.pduStatus, FlagWord.pduStatusTable) (List.mem_of_getElem? (i := 0) rfl)
  have general := words (.generalAppearance, FlagWord.generalAppearanceTable)
    (List.mem_of_getElem? (i := 1) rfl)
  refine ⟨?_, ?_, (status.refuses 256).mpr (by decide), ?_⟩
  · obtain ⟨value, later, read, written, bits⟩ := general.clears 0x7E19 (by decide +kernel)
    refine ⟨value, later, read, written, (bits 3).mpr (by decide +kernel), fun set => ?_⟩
    exact absurd ((bits 9).mp set) (by decide +kernel)
  · obtain ⟨fault, refused, -⟩ := status.stops wide
      ⟨⟨4, .number "type_specific" 2⟩, by decide +kernel, (4 : Int), rfl, by decide +kernel⟩
    exact ⟨fault, refused⟩
  · obtain ⟨low, whole, first, second, agree⟩ := views body (by decide +kernel) (by decide +kernel)
    exact ⟨low, whole, first, second,
      agree ⟨3, .enum "damage" .damage 2⟩ (by decide +kernel)⟩

end Dis
