import Mathlib.Data.List.Basic

/-! The proleptic Gregorian calendar of Python's `datetime`. Instants are microseconds since
the beginning of year 1, and days are counted from 1 as `toordinal` does. -/
namespace NanoClaw.Calendar

def isLeap (y : Nat) : Bool := y % 4 == 0 && (y % 100 != 0 || y % 400 == 0)

def daysBeforeYear (y : Nat) : Nat := (y - 1) * 365 + (y - 1) / 4 - (y - 1) / 100 + (y - 1) / 400

def daysInMonth (y m : Nat) : Nat :=
  match m with
  | 2 => if isLeap y then 29 else 28
  | 4 | 6 | 9 | 11 => 30
  | _ => 31

def daysBeforeMonth (y m : Nat) : Nat :=
  (List.range (m - 1)).foldl (fun n i => n + daysInMonth y (i + 1)) 0

def ymdToOrd (y m d : Nat) : Nat := daysBeforeYear y + daysBeforeMonth y m + d

/-- The month and day of a day of the year, counted from 0. -/
def monthDay (y : Nat) : Nat → Nat → Nat × Nat
  | 0, n => (12,n + 1)
  | fuel + 1, n =>
    let m := 12 - fuel
    if n < daysInMonth y m then (m,n + 1) else monthDay y fuel (n - daysInMonth y m)

/-- `_ord2ymd`: year, month and day of an ordinal, cut into cycles of 400, 100, 4 and 1
years. -/
def ordToYmd (ordinal : Nat) : Nat × Nat × Nat :=
  let n := ordinal - 1
  let n400 := n / 146097
  let n := n % 146097
  let n100 := n / 36524
  let n := n % 36524
  let n4 := n / 1461
  let n := n % 1461
  let n1 := n / 365
  let n := n % 365
  let year := n400 * 400 + 1 + n100 * 100 + n4 * 4 + n1
  if n1 = 4 ∨ n100 = 4 then (year - 1,12,31)
  else (year,(monthDay year 12 n).1,(monthDay year 12 n).2)

/-- A date and time of day as the fields of a `datetime`. -/
structure Fields where
  year : Nat
  month : Nat
  day : Nat
  hour : Nat
  minute : Nat
  second : Nat
  microsecond : Nat
  deriving DecidableEq, Repr

/-- The checks of the `datetime` constructor. -/
def Fields.Valid (f : Fields) : Prop :=
  (1 ≤ f.year ∧ f.year ≤ 9999) ∧ (1 ≤ f.month ∧ f.month ≤ 12) ∧
    (1 ≤ f.day ∧ f.day ≤ daysInMonth f.year f.month) ∧ f.hour < 24 ∧ f.minute < 60 ∧
    f.second < 60 ∧ f.microsecond < 1000000

instance (f : Fields) : Decidable f.Valid := by
  unfold Fields.Valid
  infer_instance

def dayMicros : Nat := 86400000000

/-- The number of days of the years 1 to 9999. -/
def maxOrdinal : Nat := 3652059

/-- The first instant behind year 9999. -/
def instantEnd : Int := maxOrdinal * dayMicros

/-- Years 1 to 9999, the range of `datetime`; arithmetic that leaves it raises
`OverflowError`. -/
def InRange (t : Int) : Prop := 0 ≤ t ∧ t < instantEnd

instance (t : Int) : Decidable (InRange t) := by
  unfold InRange
  infer_instance

def Fields.toMicros (f : Fields) : Nat :=
  (ymdToOrd f.year f.month f.day - 1) * dayMicros +
    ((f.hour * 60 + f.minute) * 60 + f.second) * 1000000 + f.microsecond

def ofMicros (t : Nat) : Fields :=
  let s := t % dayMicros / 1000000
  { year := (ordToYmd (t / dayMicros + 1)).1
    month := (ordToYmd (t / dayMicros + 1)).2.1
    day := (ordToYmd (t / dayMicros + 1)).2.2
    hour := s / 3600
    minute := s / 60 % 60
    second := s % 60
    microsecond := t % 1000000 }

/-- Monday is 0. -/
def weekday (y m d : Nat) : Nat := (ymdToOrd y m d + 6) % 7

end NanoClaw.Calendar
