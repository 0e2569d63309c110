import Dis.Error

/-! The proleptic Gregorian calendar from year 1, by days. -/

namespace Dis

namespace Calendar

def isLeap (year : Nat) : Bool := year % 4 = 0 && (year % 100 ≠ 0 || year % 400 = 0)

def monthDays (year month : Nat) : Nat :=
  match month with
  | 2 => if isLeap year then 29 else 28
  | 4 | 6 | 9 | 11 => 30
  | _ => 31

def leastYear : Nat := 1
def greatestYear : Nat := 9999

def noYearText (year : Int) : String := s!"year {year} is out of range"

def isDate (year month day : Nat) : Bool :=
  leastYear ≤ year && year ≤ greatestYear && 1 ≤ month && month ≤ 12 && 1 ≤ day &&
    day ≤ monthDays year month

def daysBeforeYear (year : Nat) : Nat :=
  let past := year - 1
  past * 365 + past / 4 - past / 100 + past / 400

def daysBeforeMonth (year month : Nat) : Nat :=
  ((List.range (month - 1)).map fun m => monthDays year (m + 1)).sum

def dayNumber (year month day : Nat) : Nat :=
  daysBeforeYear year + daysBeforeMonth year month + (day - 1)

/-- The year that a day number falls in: the estimate is at most one too large. -/
def yearOf (days : Nat) : Nat :=
  let guess := (days * 400) / 146097 + 1
  if daysBeforeYear (guess + 1) ≤ days then guess + 1
  else if daysBeforeYear guess ≤ days then guess
  else guess - 1

def monthOf (year : Nat) (day : Nat) : Nat × Nat :=
  let month := ((List.range 11).filter fun m => daysBeforeMonth year (m + 2) ≤ day).length + 1
  (month, day - daysBeforeMonth year month + 1)

/-- Days of 400 years, after which the calendar repeats itself. -/
def cycleDays : Nat := daysBeforeYear 401

/-- The year of a day on either side of year 1; the year before that is 0. -/
def yearOfDay (day : Int) : Int :=
  400 * day.fdiv cycleDays + yearOf (day.fmod cycleDays).toNat

def dateOf (days : Nat) : Nat × Nat × Nat :=
  let year := yearOf days
  (year, monthOf year (days - daysBeforeYear year))

def epochDay : Nat := dayNumber 1970 1 1

end Calendar

def microsPerSecond : Nat := 1000000
def microsPerHour : Nat := 3600000000
def microsPerDay : Nat := 24 * microsPerHour

/-! Moments of the calendar to the microsecond. -/

inductive MomentFault where
  -- An offset whose days 32 bits do not hold.
  | offsetWord
  -- An offset of more days than a duration has.
  | offsetDays (days : Int)
  -- An offset of a day or more, in microseconds.
  | offsetRange (micros : Int)
  -- A field that 64 bits do not hold.
  | longWord
  | wordAbove
  | wordBelow
  | yearRange (year : Int)
  | fieldRange (field : String) (least greatest : Int)
  | dayRange
  -- In universal time the moment is not on the calendar.
  | dateRange
  deriving DecidableEq

def mostDurationDays : Nat := 999999999

namespace MomentFault

def category : MomentFault → Error.Category
  | offsetRange _ => .value
  | yearRange _ => .value
  | fieldRange .. => .value
  | dayRange => .value
  | _ => .overflow

/-- A duration in microseconds as days, seconds and microseconds, of which the last two
are never negative; parts of zero are left out. -/
def durationText (micros : Int) : String :=
  let parts : List (String × Int) := [
    ("days", micros.fdiv microsPerDay), ("seconds", (micros.fdiv microsPerSecond).fmod 86400),
    ("microseconds", micros.fmod microsPerSecond)]
  let shown := (parts.filter fun part => part.2 ≠ 0).map fun (name, n) => s!"{name}={n}"
  "datetime.timedelta(" ++ ", ".intercalate shown ++ ")"

def message : MomentFault → String
  | offsetWord => "Python int too large to convert to C int"
  | offsetDays days => s!"days={days}; must have magnitude <= {mostDurationDays}"
  | offsetRange micros =>
    "offset must be a timedelta strictly between -timedelta(hours=24) and timedelta(hours=24), not " ++
      durationText micros ++ "."
  | longWord => "Python int too large to convert to C long"
  | wordAbove => "signed integer is greater than maximum"
  | wordBelow => "signed integer is less than minimum"
  | yearRange year => Calendar.noYearText year
  | fieldRange field least greatest => s!"{field} must be in {least}..{greatest}"
  | dayRange => "day is out of range for month"
  | dateRange => "date value out of range"

end MomentFault

/-- A moment of the calendar by its fields, and its offset from universal time if known. -/
structure Moment where
  year : Nat
  month : Nat
  day : Nat
  hour : Nat
  minute : Nat
  second : Nat
  micro : Nat
  -- Microseconds ahead of universal time.
  offset : Option Int
  deriving DecidableEq

namespace Moment

def checkOffset (offset : Option Int) : Except MomentFault (Option Int) :=
  match offset with
  | none => .ok none
  | some n =>
    let days := n.fdiv microsPerDay
    if !Word.fits 32 days then .error .offsetWord
    else if mostDurationDays < days.natAbs then .error (.offsetDays days)
    else if n.natAbs < microsPerDay then .ok offset
    else .error (.offsetRange n)

/-- Fields are words of 32 bits, before any of them is compared with its range. -/
def checkWord (n : Int) : Except MomentFault Unit :=
  if !Word.fits 64 n then .error .longWord
  else if Word.greatest 32 < n then .error .wordAbove
  else if n < Word.least 32 then .error .wordBelow
  else .ok ()

def checkField (name : String) (least greatest n : Int) : Except MomentFault Nat :=
  if least ≤ n ∧ n ≤ greatest then .ok n.toNat else .error (.fieldRange name least greatest)

def checkDate (year month day : Int) : Except MomentFault (Nat × Nat × Nat) :=
  if year < Calendar.leastYear ∨ Calendar.greatestYear < year then .error (.yearRange year)
  else do
    let month ← checkField "month" 1 12 month
    if 1 ≤ day ∧ day ≤ Calendar.monthDays year.toNat month then
      return (year.toNat, month, day.toNat)
    else .error .dayRange

def ofFields (year month day hour minute second micro : Int) (offset : Option Int) :
    Except MomentFault Moment := do
  let offset ← checkOffset offset
  [year, month, day, hour, minute, second, micro].forM checkWord
  let (year, month, day) ← checkDate year month day
  let hour ← checkField "hour" 0 23 hour
  let minute ← checkField "minute" 0 59 minute
  let second ← checkField "second" 0 59 second
  let micro ← checkField "microsecond" 0 999999 micro
  return { year, month, day, hour, minute, second, micro, offset }

def localMicros (m : Moment) : Int :=
  let seconds := (m.hour * 60 + m.minute) * 60 + m.second
  (Calendar.dayNumber m.year m.month m.day * microsPerDay + seconds * microsPerSecond + m.micro : Nat)

/-- Microseconds in universal time since the start of year 1; an unknown offset is none. -/
def utcMicros (m : Moment) : Int := m.localMicros - m.offset.getD 0

def calendarMicros : Int := (Calendar.daysBeforeYear (Calendar.greatestYear + 1) * microsPerDay : Nat)

def IsRepresentable (m : Moment) : Prop := 0 ≤ m.utcMicros ∧ m.utcMicros < calendarMicros

instance (m : Moment) : Decidable m.IsRepresentable := inferInstanceAs (Decidable (_ ∧ _))

def microsPastHour (m : Moment) : Nat := (m.utcMicros % microsPerHour).toNat

end Moment

end Dis

/-! Timestamps: the time past the hour in 31 bits, above a bit that is set when the
clock is synchronised. -/

namespace Dis.Timestamp

def unitsPerHour : Nat := 2 ^ 31

/-- Whole units past the hour; the last one is never left. -/
def units (microsPastHour : Nat) : Nat :=
  min (microsPastHour * unitsPerHour / microsPerHour) (unitsPerHour - 1)

def ofUnits (units : Nat) (absolute : Bool) : Nat := 2 * units + if absolute then 1 else 0

/-- The timestamp of a moment, if the moment is on the calendar in universal time. -/
def ofMoment (moment : Moment) (absolute : Bool) : Except MomentFault Nat :=
  if moment.IsRepresentable then .ok (ofUnits (units moment.microsPastHour) absolute)
  else .error .dateRange

def isAbsolute (timestamp : Int) : Bool := timestamp % 2 = 1

/-- The units of any number taken as a timestamp, higher bits ignored. -/
def unitsOf (timestamp : Int) : Nat := ((timestamp.fdiv 2) % unitsPerHour).toNat

def seconds (timestamp : Int) : Binary64 := .nearest false (unitsOf timestamp * 3600) unitsPerHour

def split (timestamp : Int) : Binary64 × Bool := (seconds timestamp, isAbsolute timestamp)

end Dis.Timestamp
