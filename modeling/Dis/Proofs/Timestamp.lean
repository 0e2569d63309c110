import Dis.Moment
import Dis.Proofs.Numeric.Value
import Mathlib.Order.Monotone.Basic
import Mathlib.Tactic.IntervalCases
import Mathlib.Tactic.Ring

/-! Days of the calendar and the moments on it: each year ends where the next one begins, so a
moment without an offset lies between the first day and the last. -/

namespace Dis

namespace Calendar

def yearDays (year : Nat) : Nat := if isLeap year then 366 else 365

theorem isLeap_iff (year : Nat) : isLeap year ↔ 4 ∣ year ∧ (¬100 ∣ year ∨ 400 ∣ year) := by
  simp only [isLeap, Bool.and_eq_true, Bool.or_eq_true, decide_eq_true_eq,
    Nat.dvd_iff_mod_eq_zero, ne_eq]

theorem daysBeforeYear_succ {year : Nat} (positive : 0 < year) :
    daysBeforeYear (year + 1) = daysBeforeYear year + yearDays year := by
  obtain ⟨past, rfl⟩ := Nat.exists_eq_add_one_of_ne_zero positive.ne'
  have hundreds : 100 ∣ past + 1 → 4 ∣ past + 1 := Nat.dvd_trans (by decide)
  have cycles : 400 ∣ past + 1 → 100 ∣ past + 1 := Nat.dvd_trans (by decide)
  have fewer : past / 100 ≤ past := Nat.div_le_self past 100
  simp only [daysBeforeYear, yearDays, isLeap_iff, Nat.add_sub_cancel, Nat.succ_div]
  generalize past / 100 = centuries at fewer ⊢
  generalize past / 4 = quads
  generalize past / 400 = fourths
  by_cases four : 4 ∣ past + 1
  · by_cases hundred : 100 ∣ past + 1
    · by_cases cycle : 400 ∣ past + 1 <;> simp [four, hundred, cycle] <;> omega
    · simp [four, hundred, mt cycles hundred]
      omega
  · have hundred := mt hundreds four
    simp [four, hundred, mt cycles hundred]
    omega

theorem daysBeforeYear_mono : Monotone daysBeforeYear := by
  refine monotone_nat_of_le_succ fun year => ?_
  rcases Nat.eq_zero_or_pos year with rfl | positive
  · exact Nat.le_refl 0
  · rw [daysBeforeYear_succ positive]
    exact Nat.le_add_right _ _

theorem daysBeforeMonth_add_le (year : Nat) {month : Nat} (least : 1 ≤ month) (most : month ≤ 12) :
    daysBeforeMonth year month + monthDays year month ≤ yearDays year := by
  rw [daysBeforeMonth, yearDays]
  interval_cases month <;> simp only [monthDays] <;> cases isLeap year <;> decide

theorem dayNumber_lt_of_isDate {year month day : Nat} (date : isDate year month day) :
    dayNumber year month day < daysBeforeYear (greatestYear + 1) := by
  simp only [isDate, Bool.and_eq_true, decide_eq_true_eq] at date
  obtain ⟨⟨⟨⟨⟨first, last⟩, least⟩, most⟩, positive⟩, inside⟩ := date
  have month := daysBeforeMonth_add_le year least most
  have year := daysBeforeYear_succ first
  have later := daysBeforeYear_mono (Nat.add_le_add_right last 1)
  rw [dayNumber]
  omega

end Calendar

namespace Moment

structure IsValid (m : Moment) : Prop where
  date : Calendar.isDate m.year m.month m.day
  hour : m.hour < 24
  minute : m.minute < 60
  second : m.second < 60
  micro : m.micro < microsPerSecond

theorem bind_eq_ok {α β : Type} {first : Except MomentFault α} {rest : α → Except MomentFault β}
    {b : β} : (first >>= rest) = .ok b ↔ ∃ a, first = .ok a ∧ rest a = .ok b := by
  cases first <;> simp [bind, Except.bind]

theorem checkField_eq_ok {name : String} {least greatest n : Int} {k : Nat} :
    checkField name least greatest n = .ok k ↔ (least ≤ n ∧ n ≤ greatest) ∧ n.toNat = k := by
  unfold checkField
  split <;> simp_all

theorem isDate_of_checkDate {year month day : Int} {y m d : Nat}
    (found : checkDate year month day = .ok (y, m, d)) : Calendar.isDate y m d := by
  unfold checkDate at found
  split at found
  · cases found
  · next inside =>
    obtain ⟨month, checked, found⟩ := bind_eq_ok.mp found
    obtain ⟨bounds, rfl⟩ := checkField_eq_ok.mp checked
    split at found
    · next days =>
      cases found
      simp only [Calendar.isDate, Bool.and_eq_true, decide_eq_true_eq]
      simp only [Calendar.leastYear, Calendar.greatestYear] at inside ⊢
      omega
    · cases found

theorem offset_of_checkOffset {offset found : Option Int} (checked : checkOffset offset = .ok found) :
    found = offset := by
  unfold checkOffset at checked
  split at checked
  · cases checked
    rfl
  · simp only at checked
    split_ifs at checked
    cases checked
    rfl

theorem isValid_of_ofFields {year month day hour minute second micro : Int} {offset : Option Int}
    {m : Moment} (made : ofFields year month day hour minute second micro offset = .ok m) :
    m.IsValid ∧ m.offset = offset := by
  obtain ⟨offset', known, made⟩ := bind_eq_ok.mp made
  obtain ⟨-, -, made⟩ := bind_eq_ok.mp made
  obtain ⟨⟨y, mo, d⟩, date, made⟩ := bind_eq_ok.mp made
  obtain ⟨h, hour, made⟩ := bind_eq_ok.mp made
  obtain ⟨mi, minute, made⟩ := bind_eq_ok.mp made
  obtain ⟨s, second, made⟩ := bind_eq_ok.mp made
  obtain ⟨us, micro, made⟩ := bind_eq_ok.mp made
  cases made
  obtain ⟨hour, rfl⟩ := checkField_eq_ok.mp hour
  obtain ⟨minute, rfl⟩ := checkField_eq_ok.mp minute
  obtain ⟨second, rfl⟩ := checkField_eq_ok.mp second
  obtain ⟨micro, rfl⟩ := checkField_eq_ok.mp micro
  refine ⟨⟨isDate_of_checkDate date, ?_, ?_, ?_, ?_⟩, offset_of_checkOffset known⟩ <;>
    simp only [microsPerSecond] <;> omega

/-- Without an offset a moment is on the calendar in universal time as well. -/
theorem IsValid.isRepresentable {m : Moment} (valid : m.IsValid) (plain : m.offset.getD 0 = 0) :
    m.IsRepresentable := by
  have days := Calendar.dayNumber_lt_of_isDate valid.date
  obtain ⟨-, hour, minute, second, micro⟩ := valid
  simp only [IsRepresentable, utcMicros, localMicros, calendarMicros, plain, microsPerDay,
    microsPerHour, microsPerSecond] at micro ⊢
  omega

theorem IsValid.microsPastHour_eq {m : Moment} (valid : m.IsValid) (plain : m.offset.getD 0 = 0) :
    m.microsPastHour = (m.minute * 60 + m.second) * microsPerSecond + m.micro := by
  obtain ⟨-, hour, minute, second, micro⟩ := valid
  simp only [microsPastHour, utcMicros, localMicros, plain, microsPerDay, microsPerHour,
    microsPerSecond] at micro ⊢
  omega

/-! Timestamps of moments. Whole units past the hour never reach the hour, so none is cut off;
they are seconds without rounding, and at most one unit behind the moment. -/

theorem microsPastHour_lt (m : Moment) : m.microsPastHour < microsPerHour := by
  simp only [microsPastHour, microsPerHour]
  omega

theorem microsPastHour_congr {m m' : Moment} (same : m.utcMicros = m'.utcMicros) :
    m.microsPastHour = m'.microsPastHour := by
  rw [microsPastHour, same, microsPastHour]

theorem microsPastHour_le {m m' : Moment}
    (hour : m.utcMicros / microsPerHour = m'.utcMicros / microsPerHour)
    (ordered : m.utcMicros ≤ m'.utcMicros) : m.microsPastHour ≤ m'.microsPastHour := by
  simp only [microsPastHour, microsPerHour] at hour ⊢
  omega

/-- The seconds past the hour of universal time. -/
def secondsPastHour (m : Moment) : ℚ := m.microsPastHour / microsPerSecond

end Moment

namespace Timestamp

def unitSeconds : ℚ := 3600 / 2 ^ 31

theorem units_eq {micros : Nat} (past : micros < microsPerHour) :
    units micros = micros * unitsPerHour / microsPerHour := by
  have below : micros * unitsPerHour / microsPerHour < unitsPerHour := by
    refine Nat.div_lt_of_lt_mul ?_
    exact Nat.mul_lt_mul_of_pos_right past (by decide)
  exact Nat.min_eq_left (Nat.le_sub_one_of_lt below)

theorem units_lt (micros : Nat) : units micros < unitsPerHour :=
  Nat.lt_of_le_of_lt (Nat.min_le_right ..) (by decide)

theorem units_mono : Monotone units := fun _ _ ordered =>
  min_le_min_right _ (Nat.div_le_div_right (Nat.mul_le_mul_right _ ordered))

variable {n : Nat} {absolute : Bool}

theorem ofUnits_le (small : n < unitsPerHour) : ofUnits n absolute ≤ 2 ^ 32 - 1 := by
  simp only [unitsPerHour] at small
  rw [ofUnits]
  split <;> omega

theorem ofUnits_mod_two : ofUnits n absolute % 2 = if absolute then 1 else 0 := by
  rw [ofUnits]
  split <;> omega

theorem split_ofUnits :
    split (ofUnits n absolute) = (seconds (ofUnits n absolute), absolute) := by
  have flag : isAbsolute (ofUnits n absolute) = absolute := by
    cases absolute <;> simp [isAbsolute, ofUnits]
  rw [split, flag]

theorem unitsOf_ofUnits (small : n < unitsPerHour) : unitsOf (ofUnits n absolute) = n := by
  simp only [unitsPerHour] at small
  rw [unitsOf, Int.fdiv_eq_ediv_of_nonneg _ (by decide)]
  simp only [unitsPerHour, ofUnits]
  cases absolute <;> simp <;> omega

theorem seconds_exact (timestamp : Int) :
    (seconds timestamp).isFinite ∧ (seconds timestamp).value = unitsOf timestamp * unitSeconds := by
  have small : unitsOf timestamp < 2 ^ 31 := by
    simp only [unitsOf, unitsPerHour]
    omega
  obtain ⟨finite, exact⟩ :=
    Binary64.value_nearest (unitsOf timestamp * 3600) 31 (by omega) (by decide)
  refine ⟨finite, exact.trans ?_⟩
  rw [unitSeconds]
  push_cast
  ring

/-- A moment is at most one unit ahead of its whole units. -/
theorem units_behind (m : Moment) :
    units m.microsPastHour * unitSeconds ≤ m.secondsPastHour ∧
      m.secondsPastHour < units m.microsPastHour * unitSeconds + unitSeconds := by
  rw [units_eq m.microsPastHour_lt, Moment.secondsPastHour, unitSeconds]
  generalize m.microsPastHour = micros
  have low := Nat.div_mul_le_self (micros * unitsPerHour) microsPerHour
  have high := Nat.lt_mul_div_succ (micros * unitsPerHour) (show 0 < microsPerHour by decide)
  generalize micros * unitsPerHour / microsPerHour = whole at low high ⊢
  simp only [unitsPerHour, microsPerHour, microsPerSecond] at low high ⊢
  have low : (whole * 3600000000 : ℚ) ≤ micros * 2 ^ 31 := by exact_mod_cast low
  have high : (micros * 2 ^ 31 : ℚ) < 3600000000 * (whole + 1) := by exact_mod_cast high
  push_cast
  constructor <;> linarith

theorem ofMoment_eq_ok {m : Moment} {t : Nat} : ofMoment m absolute = .ok t ↔
    m.IsRepresentable ∧ t = ofUnits (units m.microsPastHour) absolute := by
  unfold ofMoment
  split
  · next onCalendar => simp [onCalendar, eq_comm]
  · next off => simp [off]

theorem ofMoment_congr {m m' : Moment} (same : m.utcMicros = m'.utcMicros) :
    ofMoment m absolute = ofMoment m' absolute := by
  have past := Moment.microsPastHour_congr same
  have calendar : m.IsRepresentable ↔ m'.IsRepresentable := by
    rw [Moment.IsRepresentable, same, Moment.IsRepresentable]
  simp only [ofMoment, calendar, past]

end Timestamp

open Timestamp (ofMoment split units unitsOf unitsPerHour) in
/-- A moment of the calendar has a timestamp of 32 bits whose last one is the flag. Taken apart it
gives the flag and the seconds of its units without rounding, which the moment is not behind and
less than a unit ahead of. No unit is cut off, later moments of the hour have no earlier timestamp,
and it is the instant alone that counts. -/
theorem timestamp_law :
    (∀ (m : Moment) (absolute : Bool), m.IsRepresentable → ∃ (t : Nat) (s : Binary64),
      ofMoment m absolute = .ok t ∧ t ≤ 2 ^ 32 - 1 ∧ (t % 2 = if absolute then 1 else 0) ∧
      split t = (s, absolute) ∧ s.isFinite ∧ s.value = unitsOf t * (3600 / 2 ^ 31) ∧
      s.value ≤ m.secondsPastHour ∧ m.secondsPastHour < s.value + 3600 / 2 ^ 31) ∧
    (∀ m : Moment, units m.microsPastHour = m.microsPastHour * unitsPerHour / microsPerHour) ∧
    (∀ (m m' : Moment) (absolute : Bool) (t t' : Nat), ofMoment m absolute = .ok t →
      ofMoment m' absolute = .ok t' → m.utcMicros / microsPerHour = m'.utcMicros / microsPerHour →
      m.utcMicros ≤ m'.utcMicros → t ≤ t') ∧
    (∀ (m m' : Moment) (absolute : Bool), m.utcMicros = m'.utcMicros →
      ofMoment m absolute = ofMoment m' absolute) ∧
    (∀ (year month day hour minute second micro : Int) (offset : Option Int) (m : Moment),
      Moment.ofFields year month day hour minute second micro offset = .ok m →
      m.IsValid ∧ m.offset = offset) ∧
    (∀ utc : Moment, utc.IsValid → utc.offset.getD 0 = 0 → utc.IsRepresentable ∧
      ∀ m : Moment, m.utcMicros = utc.utcMicros →
        m.secondsPastHour = utc.minute * 60 + utc.second + utc.micro / 10 ^ 6) := by
  refine ⟨?_, ?_, ?_, ?_, ?_, ?_⟩
  · intro m absolute onCalendar
    have small := Timestamp.units_lt m.microsPastHour
    obtain ⟨finite, exact⟩ :=
      Timestamp.seconds_exact (Timestamp.ofUnits (units m.microsPastHour) absolute)
    have bounds := Timestamp.units_behind m
    rw [← Timestamp.unitsOf_ofUnits small, ← exact] at bounds
    exact ⟨_, _, Timestamp.ofMoment_eq_ok.mpr ⟨onCalendar, rfl⟩, Timestamp.ofUnits_le small,
      Timestamp.ofUnits_mod_two, Timestamp.split_ofUnits, finite, exact, bounds⟩
  · intro m
    exact Timestamp.units_eq m.microsPastHour_lt
  · intro m m' absolute t t' made made' hour ordered
    obtain ⟨-, rfl⟩ := Timestamp.ofMoment_eq_ok.mp made
    obtain ⟨-, rfl⟩ := Timestamp.ofMoment_eq_ok.mp made'
    have fewer := Timestamp.units_mono (Moment.microsPastHour_le hour ordered)
    exact Nat.add_le_add_right (Nat.mul_le_mul_left 2 fewer) _
  · intro m m' absolute same
    exact Timestamp.ofMoment_congr same
  · intro year month day hour minute second micro offset m made
    exact Moment.isValid_of_ofFields made
  · intro utc valid plain
    refine ⟨valid.isRepresentable plain, fun m same => ?_⟩
    rw [Moment.secondsPastHour, Moment.microsPastHour_congr same, valid.microsPastHour_eq plain,
      microsPerSecond]
    push_cast
    ring

/-- Half past an hour, told without an offset and five hours and a half ahead of it, and the last
microsecond of that hour. -/
theorem timestamp_law_samples :
    (∃ s, Timestamp.split 2147483649 = (s, true) ∧
      s.value ≤ (⟨2024, 5, 1, 18, 0, 0, 0, some 19800000000⟩ : Moment).secondsPastHour) ∧
    2147483649 ≤ 4294967295 ∧
    Timestamp.ofMoment ⟨2024, 5, 1, 18, 0, 0, 0, some 19800000000⟩ true =
      Timestamp.ofMoment ⟨2024, 5, 1, 12, 30, 0, 0, none⟩ true ∧
    (⟨2024, 5, 1, 12, 30, 0, 0, none⟩ : Moment).IsRepresentable ∧
    (⟨2024, 5, 1, 18, 0, 0, 0, some 19800000000⟩ : Moment).secondsPastHour =
      (30 : Nat) * 60 + (0 : Nat) + (0 : Nat) / 10 ^ 6 := by
  obtain ⟨stamps, -, ordered, instants, fields, clocks⟩ := timestamp_law
  have half : Timestamp.ofMoment ⟨2024, 5, 1, 18, 0, 0, 0, some 19800000000⟩ true =
      .ok 2147483649 := by decide +kernel
  have last : Timestamp.ofMoment ⟨2024, 5, 1, 12, 59, 59, 999999, none⟩ true =
      .ok 4294967295 := by decide +kernel
  obtain ⟨valid, -⟩ := fields 2024 5 1 12 30 0 0 none ⟨2024, 5, 1, 12, 30, 0, 0, none⟩
    (by decide +kernel)
  obtain ⟨representable, clock⟩ := clocks _ valid rfl
  refine ⟨?_, ordered _ _ _ _ _ half last (by decide +kernel) (by decide +kernel),
    instants _ _ true (by decide +kernel), representable, clock _ (by decide +kernel)⟩
  obtain ⟨t, s, made, -, -, split, -, -, low, -⟩ :=
    stamps ⟨2024, 5, 1, 18, 0, 0, 0, some 19800000000⟩ true (by decide +kernel)
  cases half.symm.trans made
  exact ⟨s, split, low⟩

end Dis
