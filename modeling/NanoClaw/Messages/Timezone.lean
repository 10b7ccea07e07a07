import NanoClaw.Library.IsoRoundTrip
import NanoClaw.Library.PyExc
import NanoClaw.Library.PyText
import Mathlib.Data.String.Basic

/-! Reading a stored timestamp and showing it in the configured zone. Instants and offsets
are microseconds. -/
namespace NanoClaw.Timezone
open Calendar IsoFormat IsoText

/-- The offset from UTC at each instant. -/
abbrev Zone := Int → Int

/-- The zone library: `ZoneInfo(name)`, where a name it does not find is a `KeyError`, and the
fixed offset of the host's own zone. -/
structure Zones where
  zoneInfo : String → Except PyExc Zone
  localOffset : Int

/-- `utc_iso.replace("Z", "+00:00")`. -/
def replaceZ (s : List Char) : List Char :=
  s.flatMap (fun c => if c = 'Z' then ['+','0','0',':','0','0'] else [c])

/-- `_parse_iso_timestamp`: the instant a text denotes, read as UTC where it has no offset. -/
def parseIsoTimestamp (utcIso : String) : Except PyExc Int :=
  match fromIsoFormat (replaceZ utcIso.toList) with
  | none => .error .valueError
  | some (f, none) => .ok f.toMicros
  | some (f, some offset) =>
    if InRange (f.toMicros - offset) then .ok (f.toMicros - offset) else .error .overflowError

def isZoneChar (c : Char) : Bool :=
  ('A' ≤ c && c ≤ 'Z') || ('a' ≤ c && c ≤ 'z') || ('0' ≤ c && c ≤ '9') || c == '/' || c == '_' ||
    c == '+' || c == '-'

def isZoneText (s : List Char) : Bool := 1 ≤ s.length && s.length ≤ 64 && s.all isZoneChar

/-- `_VALID_TZ_RE.match`; the `$` also stands before a newline that ends the text. -/
def validTz (s : List Char) : Bool :=
  isZoneText s || (s.getLast? == some '\n' && isZoneText s.dropLast)

/-- `_safe_zone_info`; none for a name that is refused or not found. -/
def safeZoneInfo (zones : Zones) (tzName : String) : Except PyExc (Option Zone) :=
  if validTz tzName.toList = false ∨ PyText.hasDotDot tzName.toList = true then .ok none
  else
    match zones.zoneInfo tzName with
    | .ok zone => .ok (some zone)
    | .error .keyError => .ok none
    | .error e => .error e

def monthName : Nat → String
  | 1 => "Jan"
  | 2 => "Feb"
  | 3 => "Mar"
  | 4 => "Apr"
  | 5 => "May"
  | 6 => "Jun"
  | 7 => "Jul"
  | 8 => "Aug"
  | 9 => "Sep"
  | 10 => "Oct"
  | 11 => "Nov"
  | _ => "Dec"

def twoDigits (n : Nat) : String := if n < 10 then "0" ++ toString n else toString n

/-- `Jan 1, 2024, 1:30 PM`. -/
def displayText (f : Fields) : String :=
  let hour12 := if f.hour % 12 = 0 then 12 else f.hour % 12
  let amPm := if f.hour < 12 then "AM" else "PM"
  monthName f.month ++ " " ++ toString f.day ++ ", " ++ toString f.year ++ ", " ++
    toString hour12 ++ ":" ++ twoDigits f.minute ++ " " ++ amPm

/-- `dt_utc.astimezone(tz)`. -/
def asTimezone (zone : Zone) (utc : Int) : Except PyExc Fields :=
  if InRange (utc + zone utc) then .ok (ofMicros (utc + zone utc).toNat) else .error .overflowError

def formatLocalTime (zones : Zones) (utcIso tzName : String) : Except PyExc String :=
  match parseIsoTimestamp utcIso with
  | .error e => .error e
  | .ok utc =>
    match safeZoneInfo zones tzName with
    | .error e => .error e
    | .ok zone? =>
      match asTimezone (zone?.getD (fun _ => zones.localOffset)) utc with
      | .error e => .error e
      | .ok shown => .ok (displayText shown)

/-- The instant `fromisoformat` finds in a text, when UTC has a name for it. -/
def Denotes (utcIso : String) (utc : Int) : Prop :=
  ∃ f offset, fromIsoFormat (replaceZ utcIso.toList) = some (f,offset) ∧
    (∀ o, offset = some o → InRange (f.toMicros - o)) ∧ utc = f.toMicros - offset.getD 0

/-- The zone the times are shown in. -/
def ShowsIn (zones : Zones) (tzName : String) (zone : Zone) : Prop :=
  safeZoneInfo zones tzName = .ok (some zone) ∨
    (safeZoneInfo zones tzName = .ok none ∧ zone = fun _ => zones.localOffset)

/-- A timestamp that denotes an instant which also the local calendar has. -/
def Displayable (zones : Zones) (tzName utcIso : String) : Prop :=
  ∃ utc zone, Denotes utcIso utc ∧ ShowsIn zones tzName zone ∧ InRange (utc + zone utc)

theorem parseIsoTimestamp_eq_ok_iff {utcIso : String} {utc : Int} :
    parseIsoTimestamp utcIso = .ok utc ↔ Denotes utcIso utc := by
  rw [parseIsoTimestamp, Denotes]
  rcases fromIsoFormat (replaceZ utcIso.toList) with _ | ⟨f,_ | o⟩
  · simp
  · simp [eq_comm]
  · simp only [Option.some.injEq, Prod.mk.injEq]
    constructor
    · intro h
      split at h
      · rename_i hr
        cases h
        exact ⟨f,some o,⟨rfl,rfl⟩,fun _ ho => Option.some.inj ho ▸ hr,rfl⟩
      · cases h
    · rintro ⟨_,_,⟨rfl,rfl⟩,hr,rfl⟩
      exact if_pos (hr o rfl)

private theorem digits_plain {width n : Nat} {c : Char} (h : c ∈ digits width n) : c ≠ 'Z' := by
  induction width generalizing n with
  | zero => cases h
  | succ width ih =>
    rcases List.mem_append.mp h with h | h
    · exact ih h
    · have hdigit : ∀ a : Fin 10, Char.ofNat (48 + a) ≠ 'Z' := by decide
      rw [List.mem_singleton.mp h]
      exact hdigit ⟨n % 10,Nat.mod_lt n (by omega)⟩

private theorem isoFront_plain {f : Fields} : ∀ c ∈ isoFront f, c ≠ 'Z' := by
  have hfraction : ∀ c ∈ fractionText f.microsecond, c ≠ 'Z' := by
    rw [fractionText]
    split_ifs
    · simp
    · exact List.forall_mem_cons.mpr ⟨by decide,fun _ => digits_plain⟩
  simp only [isoFront, List.forall_mem_append, List.forall_mem_cons]
  exact ⟨fun _ => digits_plain,by decide,fun _ => digits_plain,by decide,fun _ => digits_plain,
    by decide,fun _ => digits_plain,by decide,fun _ => digits_plain,by decide,
    fun _ => digits_plain,hfraction⟩

theorem replaceZ_isoText (f : Fields) :
    replaceZ (isoText f) = isoFront f ++ ['+','0','0',':','0','0'] := by
  have hfront : ∀ l : List Char, (∀ c ∈ l, c ≠ 'Z') → replaceZ l = l := by
    intro l hl
    induction l with
    | nil => rfl
    | cons c l ih =>
      obtain ⟨hc,hl⟩ := List.forall_mem_cons.mp hl
      rw [replaceZ, List.flatMap_cons, if_neg hc]
      exact congrArg (c :: ·) (ih hl)
  rw [isoText_eq]
  exact (List.flatMap_append).trans (congrArg (· ++ _) (hfront _ isoFront_plain))

/-- What `isoformat` writes of an instant in UTC denotes that instant. -/
theorem fromIsoFormat_utcIso {t : Int} (ht : InRange t) :
    fromIsoFormat (replaceZ (utcIso t).toList) = some (ofMicros t.toNat,some 0) := by
  rw [utcIso, String.toList_ofList, replaceZ_isoText, fromIsoFormat_isoFront (ofMicros_spec ht).1]

private theorem asTimezone_isOk_iff {zone : Zone} {utc : Int} :
    (∃ shown, asTimezone zone utc = .ok shown) ↔ InRange (utc + zone utc) := by
  rw [asTimezone]
  split <;> simp_all

/-- A time is shown exactly when its text is displayable. -/
theorem formatLocalTime_isOk_iff {zones : Zones} {utcIso tzName : String} :
    (∃ text, formatLocalTime zones utcIso tzName = .ok text) ↔ Displayable zones tzName utcIso := by
  constructor
  · rintro ⟨text,h⟩
    rw [formatLocalTime] at h
    rcases hparse : parseIsoTimestamp utcIso with e | utc
    · rw [hparse] at h
      cases h
    rcases hzone : safeZoneInfo zones tzName with e | zone?
    · rw [hparse, hzone] at h
      cases h
    rcases hshown : asTimezone (zone?.getD (fun _ => zones.localOffset)) utc with e | shown
    · simp only [hparse, hzone, hshown, reduceCtorEq] at h
    refine ⟨utc,zone?.getD (fun _ => zones.localOffset),parseIsoTimestamp_eq_ok_iff.mp hparse,?_,
      asTimezone_isOk_iff.mp ⟨shown,hshown⟩⟩
    rcases zone? with _ | zone
    · exact Or.inr ⟨hzone,rfl⟩
    · exact Or.inl hzone
  · rintro ⟨utc,zone,hd,hz,hr⟩
    obtain ⟨shown,hshown⟩ := asTimezone_isOk_iff.mpr hr
    refine ⟨displayText shown,?_⟩
    rcases hz with hz | ⟨hz,rfl⟩ <;>
      simp only [formatLocalTime, parseIsoTimestamp_eq_ok_iff.mpr hd, hz, Option.getD, hshown]

end NanoClaw.Timezone
