import NanoClaw.Library.Calendar
import Mathlib.Algebra.Group.Nat.Defs

/-! `datetime.fromisoformat` as CPython 3.11 reads it, byte by byte over the UTF-8 text.
A byte behind the end reads as zero. -/
namespace NanoClaw.IsoFormat
open Calendar

def utf8 (c : Char) : List Nat :=
  let n := c.toNat
  if n < 0x80 then [n]
  else if n < 0x800 then [0xc0 + n / 64,0x80 + n % 64]
  else if n < 0x10000 then [0xe0 + n / 4096,0x80 + n / 64 % 64,0x80 + n % 64]
  else [0xf0 + n / 262144,0x80 + n / 4096 % 64,0x80 + n / 64 % 64,0x80 + n % 64]

abbrev Bytes := List Nat

def byte (s : Bytes) (i : Nat) : Nat := s.getD i 0

def isDigit (b : Nat) : Bool := 48 ≤ b && b ≤ 57

/-- `parse_digits`: the value of so many digits from a position on. -/
def parseDigits (s : Bytes) (i : Nat) : Nat → Option Nat
  | 0 => some 0
  | n + 1 =>
    if isDigit (byte s (i + n)) then
      (parseDigits s i n).map (fun v => 10 * v + (byte s (i + n) - 48))
    else none

def countDigits (s : Bytes) : Nat → Nat → Nat
  | _, 0 => 0
  | i, fuel + 1 => if isDigit (byte s i) then countDigits s (i + 1) fuel + 1 else 0

/-- Where the separator between date and time stands. -/
def findSeparator (s : Bytes) : Option Nat :=
  let len := s.length
  if len = 7 then some 7
  else if byte s 4 = 0x2d then
    if byte s 5 = 0x57 then
      if len < 8 then none
      else if 8 < len ∧ byte s 8 = 0x2d then
        if len = 9 then none
        else if 10 < len ∧ isDigit (byte s 10) then some 8
        else some 10
      else some 8
    else some 10
  else if byte s 4 = 0x57 then
    let pos := 7 + countDigits s 7 (len - 7)
    if pos < 9 then some pos
    else if pos % 2 = 0 then some 7
    else some 8
  else some 8

/-- The Monday that starts the first ISO week of a year, as an ordinal that may be 0 or
less. -/
def isoWeek1Monday (y : Nat) : Int :=
  let firstDay : Int := ymdToOrd y 1 1
  let firstWeekday : Int := (firstDay + 6) % 7
  let monday := firstDay - firstWeekday
  if firstWeekday > 3 then monday + 7 else monday

def isoToYmd (y week day : Nat) : Option (Nat × Nat × Nat) :=
  let longYear := weekday y 1 1 = 3 ∨ (weekday y 1 1 = 2 ∧ isLeap y)
  if y = 0 ∨ week = 0 ∨ 53 < week ∨ (week = 53 ∧ ¬longYear) then none
  else if day = 0 ∨ 7 < day then none
  else
    let ordinal := isoWeek1Monday y + Int.ofNat ((week - 1) * 7 + day - 1)
    if ordinal < 1 then none else some (ordToYmd ordinal.toNat)

/-- `parse_isoformat_date` over the first `len` bytes. -/
def parseDate (s : Bytes) (len : Nat) : Option (Nat × Nat × Nat) :=
  match parseDigits s 0 4 with
  | none => none
  | some year =>
    let sep := byte s 4 = 0x2d
    let p := if sep then 5 else 4
    if byte s p = 0x57 then
      match parseDigits s (p + 1) 2 with
      | none => none
      | some week =>
        let q := p + 3
        if q < len then
          if sep ∧ byte s q ≠ 0x2d then none
          else
            match parseDigits s (if sep then q + 1 else q) 1 with
            | none => none
            | some day => isoToYmd year week day
        else isoToYmd year week 1
    else
      match parseDigits s p 2 with
      | none => none
      | some month =>
        if sep ∧ byte s (p + 2) ≠ 0x2d then none
        else
          match parseDigits s (if sep then p + 3 else p + 2) 2 with
          | none => none
          | some day => some (year,month,day)

structure Clock where
  hour : Nat
  minute : Nat
  second : Nat
  microsecond : Nat

/-- The fraction of a second and whether the text goes on behind it. -/
def parseFraction (s : Bytes) (p pEnd : Nat) (c : Clock) : Option (Clock × Bool) :=
  let len := min (pEnd - p) 6
  (parseDigits s p len).map (fun v =>
    (⟨c.hour,c.minute,c.second,v * 10 ^ (6 - len)⟩,
      byte s (p + len + countDigits s (p + len) (s.length - (p + len))) ≠ 0))

def setUnit (c : Clock) : Nat → Nat → Clock
  | 0, v => { c with hour := v }
  | 1, v => { c with minute := v }
  | _, v => { c with second := v }

/-- `parse_hh_mm_ss_ff` from unit `i` on; the flag says that something follows the time. -/
def parseUnits (s : Bytes) (pEnd : Nat) (sep : Bool) : Nat → Nat → Nat → Clock →
    Option (Clock × Bool)
  | 0, _, p, c => parseFraction s p pEnd c
  | fuel + 1, i, p, c =>
    match parseDigits s p 2 with
    | none => none
    | some v =>
      let c := setUnit c i v
      let b := byte s (p + 2)
      let sep := if i = 0 then b == 0x3a else sep
      if pEnd ≤ p + 3 then some (c,b ≠ 0)
      else if sep ∧ b = 0x3a then parseUnits s pEnd sep fuel (i + 1) (p + 3) c
      else if b = 0x2e ∨ b = 0x2c then parseFraction s (p + 3) pEnd c
      else if !sep then parseUnits s pEnd sep fuel (i + 1) (p + 2) c
      else none

def parseTimeOfDay (s : Bytes) (p pEnd : Nat) : Option (Clock × Bool) :=
  parseUnits s pEnd true 3 0 p ⟨0,0,0,0⟩

/-- The first sign or `Z` from a position on. -/
def findZone (s : Bytes) : Nat → Nat → Nat
  | p, 0 => p
  | p, fuel + 1 =>
    if byte s p = 0x2b ∨ byte s p = 0x2d ∨ byte s p = 0x5a then p
    else findZone s (p + 1) fuel

/-- The time of day and, where the text has one, the offset from UTC in microseconds. -/
def parseTime (s : Bytes) (p : Nat) : Option (Clock × Option Int) :=
  let zone := findZone s p (s.length - p)
  match parseTimeOfDay s p zone with
  | none => none
  | some (c, more) =>
    if zone = s.length then if more then none else some (c,none)
    else if byte s zone = 0x5a then
      if byte s (zone + 1) ≠ 0 then none else some (c,some 0)
    else
      match parseTimeOfDay s (zone + 1) s.length with
      | none => none
      | some (z, more) =>
        let seconds := (z.hour * 60 + z.minute) * 60 + z.second
        let micros : Int := seconds * 1000000 + z.microsecond
        if more then none
        else some (c,some (if seconds = 0 then 0 else if byte s zone = 0x2d then -micros else micros))

/-- The bytes the separator takes. -/
def separatorWidth (b : Nat) : Nat :=
  if b < 0x80 then 1
  else if b / 16 = 14 then 3
  else if b / 16 = 15 then 4
  else 2

/-- `datetime.fromisoformat`: the fields and the offset; none stands for `ValueError`. -/
def fromIsoFormat (text : List Char) : Option (Fields × Option Int) :=
  let s := text.flatMap utf8
  if s.length < 7 then none
  else
    match findSeparator s with
    | none => none
    | some sep =>
      match parseDate s sep with
      | none => none
      | some (year, month, day) =>
        let time :=
          if sep < s.length then parseTime s (sep + separatorWidth (byte s sep))
          else some (⟨0,0,0,0⟩,none)
        match time with
        | none => none
        | some (c, offset) =>
          let f : Fields := ⟨year,month,day,c.hour,c.minute,c.second,c.microsecond⟩
          if ¬f.Valid then none
          else
            match offset with
            | none => some (f,none)
            | some o => if dayMicros ≤ o.natAbs then none else some (f,some o)

end NanoClaw.IsoFormat
