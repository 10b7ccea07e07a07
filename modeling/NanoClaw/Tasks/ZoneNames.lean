import NanoClaw.Library.PosixPath
import NanoClaw.Tasks.NextRun

/-! What becomes of a `TIMEZONE` that names no zone: where times are shown and where cron tasks are
scheduled again, the name is checked and the zone library's exceptions are caught in different
ways. -/
namespace NanoClaw.Tasks
open Store Calendar IsoFormat IsoText Timezone

/-- The components of a path that is relative and normalised and has no step up. -/
def isNormal (components : List (List Char)) : Bool :=
  components.all (fun c => c != [] && c != ['.'] && c != ['.','.'])

/-- The keys that `ZoneInfo` takes: relative, normalised, and below a directory that they are joined
to. It joins them to one that is called `_`, and a key that steps up and back into it passes too. -/
def isZoneKey (s : List Char) : Bool :=
  match s.splitOn '/' with
  | ['.','.'] :: ['_'] :: c :: rest => isNormal (c :: rest)
  | components => isNormal components

/-- What is documented of `ZoneInfo` for a name: it finds a zone or raises `ZoneInfoNotFoundError`,
and a name that is no key is a `ValueError`. -/
structure Documented (zones : Zones) (name : String) : Prop where
  key : isZoneKey name.toList = true →
    (∃ zone, zones.zoneInfo name = .ok zone) ∨ zones.zoneInfo name = .error .keyError
  noKey : isZoneKey name.toList = false → zones.zoneInfo name = .error .valueError

/-- The name denotes no zone. -/
def NoZone (zones : Zones) (name : String) : Prop := ∃ e, zones.zoneInfo name = .error e

/-- `_safe_zone_info` asks the library for the name. -/
def isAsked (name : String) : Bool := validTz name.toList && !PyText.hasDotDot name.toList

/-- The zone in which `format_local_time` shows a time, where it does. -/
def displayZone (zones : Zones) (name : String) : Zone :=
  match isAsked name, zones.zoneInfo name with
  | true, .ok zone => zone
  | _, _ => fun _ => zones.localOffset

/-- The zone in which `compute_next_run` takes its base, where it does. -/
def cronZone (zones : Zones) (name : String) : Zone :=
  match zones.zoneInfo name with
  | .ok zone => zone
  | .error _ => fun _ => 0

/-- A cron task for which `croniter` finds a next time in the zone of the scheduler. -/
structure ValidCron (lib : Lib) (now : Int) (task : ScheduledTask) : Prop where
  type : task.scheduleType = .cron
  next : ∃ t, lib.cronNext task.scheduleValue (cronZone lib.zones lib.timezone) now = .ok t ∧
    InRange t

/-- An instant is shown, in the host's zone where the name denotes none. -/
def Shows (zones : Zones) (name utcIso : String) (utc : Int) : Prop :=
  ∃ text, formatLocalTime zones utcIso name = .ok text ∧
    (NoZone zones name →
      ∃ shown, asTimezone (fun _ => zones.localOffset) utc = .ok shown ∧ text = displayText shown)

/-- A cron task is scheduled again, in UTC where the name denotes no zone. -/
def Reschedules (lib : Lib) (now : Int) (task : ScheduledTask) : Prop :=
  ∃ text, computeNextRun lib now task = .ok (some text) ∧
    (NoZone lib.zones lib.timezone →
      ∃ t, lib.cronNext task.scheduleValue (fun _ => 0) now = .ok t ∧ text = utcIso t)

section Names
variable {zones : Zones} {name utcIso : String} {utc : Int}

theorem safeZoneInfo_eq (zones : Zones) (name : String) :
    safeZoneInfo zones name =
      if isAsked name = true then
        match zones.zoneInfo name with
        | .ok zone => .ok (some zone)
        | .error .keyError => .ok none
        | .error e => .error e
      else .ok none := by
  rw [safeZoneInfo, isAsked]
  rcases validTz name.toList with _ | _ <;> rcases PyText.hasDotDot name.toList with _ | _ <;> rfl

/-- Only a name that the library is asked for and that is no key gets past the handler. -/
theorem safeZoneInfo_documented (h : Documented zones name) :
    safeZoneInfo zones name =
      if isAsked name = true ∧ isZoneKey name.toList = false then .error .valueError
      else .ok (if isAsked name = true then (zones.zoneInfo name).toOption else none) := by
  rw [safeZoneInfo_eq]
  rcases hasked : isAsked name with _ | _
  · rfl
  rcases hkey : isZoneKey name.toList with _ | _
  · rw [h.noKey hkey]
    rfl
  · rcases h.key hkey with ⟨zone,hzone⟩ | hnone
    · rw [hzone]
      rfl
    · rw [hnone]
      rfl

/-- An instant is shown exactly when the name is not asked for or is a key, and the clock of the zone it
is shown in reaches the instant. -/
theorem shows_iff (h : Documented zones name) (hparse : parseIsoTimestamp utcIso = .ok utc) :
    Shows zones name utcIso utc ↔
      (isAsked name = false ∨ isZoneKey name.toList = true) ∧
        InRange (utc + displayZone zones name utc) := by
  have hsafe := safeZoneInfo_documented h
  by_cases hraises : isAsked name = true ∧ isZoneKey name.toList = false
  · rw [if_pos hraises] at hsafe
    simp [Shows, formatLocalTime, hparse, hsafe, hraises]
  rw [if_neg hraises] at hsafe
  have hname : isAsked name = false ∨ isZoneKey name.toList = true := by
    by_contra hno
    simp only [not_or, Bool.not_eq_false, Bool.not_eq_true] at hno
    exact hraises hno
  have hzone : (if isAsked name = true then (zones.zoneInfo name).toOption else none).getD
      (fun _ => zones.localOffset) = displayZone zones name := by
    rw [displayZone]
    cases isAsked name <;> cases zones.zoneInfo name <;> rfl
  have hlocal : NoZone zones name → displayZone zones name = fun _ => zones.localOffset := by
    rintro ⟨e,he⟩
    rw [displayZone, he]
    cases isAsked name <;> rfl
  simp only [Shows, formatLocalTime, hparse, hsafe, hzone, hname, true_and]
  by_cases hrange : InRange (utc + displayZone zones name utc)
  · simp only [asTimezone, hrange, if_true, iff_true]
    refine ⟨_,rfl,fun hnone => ?_⟩
    rw [hlocal hnone] at hrange ⊢
    exact ⟨_,if_pos hrange,rfl⟩
  · simp [asTimezone, hrange]

end Names

section Cron
variable {lib : Lib} {now : Int} {task : ScheduledTask}

/-- A cron task is scheduled again exactly when the name is a key, and the clock of the zone it is
scheduled in reaches the present. -/
theorem reschedules_iff (h : Documented lib.zones lib.timezone)
    (hvalid : ValidCron lib now task) :
    Reschedules lib now task ↔
      isZoneKey lib.timezone.toList = true ∧ InRange (now + cronZone lib.zones lib.timezone now) := by
  rcases hkey : isZoneKey lib.timezone.toList with _ | _
  · simp [Reschedules, computeNextRun, hvalid.type, nextCron, schedulerZone, h.noKey hkey, Except.map]
  have hzone : schedulerZone lib = .ok (cronZone lib.zones lib.timezone) := by
    rw [schedulerZone, cronZone]
    rcases h.key hkey with ⟨zone,hzone⟩ | hnone
    · rw [hzone]
    · rw [hnone]
  obtain ⟨t,hnext,ht⟩ := hvalid.next
  simp only [Reschedules, computeNextRun, hvalid.type, nextCron, hzone, true_and]
  by_cases hrange : InRange (now + cronZone lib.zones lib.timezone now)
  · simp only [hrange, hnext, utcText, ht, if_true, Except.map, iff_true]
    refine ⟨_,rfl,?_⟩
    rintro ⟨e,he⟩
    rw [cronZone, he] at hnext
    exact ⟨t,hnext,rfl⟩
  · simp [hrange, Except.map]

/-- The name of the zone makes neither the display nor the scheduler raise exactly when it is a key that
`ZoneInfo` takes; names that the display does not ask for make the scheduler raise alone. -/
theorem falls_back_iff {utcIso : String} {utc : Int} (h : Documented lib.zones lib.timezone)
    (hparse : parseIsoTimestamp utcIso = .ok utc) (hvalid : ValidCron lib now task) :
    (Shows lib.zones lib.timezone utcIso utc ↔
      (isAsked lib.timezone = false ∨ isZoneKey lib.timezone.toList = true) ∧
        InRange (utc + displayZone lib.zones lib.timezone utc)) ∧
    (Reschedules lib now task ↔
      isZoneKey lib.timezone.toList = true ∧
        InRange (now + cronZone lib.zones lib.timezone now)) :=
  ⟨shows_iff h hparse,reschedules_iff h hvalid⟩

end Cron

section Runs

/-- A host in UTC that knows no other zone. -/
private def utcOnly : Zones where
  zoneInfo name :=
    if isZoneKey name.toList then if name = "UTC" then .ok (fun _ => 0) else .error .keyError
    else .error .valueError
  localOffset := 0

private theorem utcOnly_documented (name : String) : Documented utcOnly name where
  key h := by
    by_cases hutc : name = "UTC"
    · exact .inl ⟨_,(if_pos h).trans (if_pos hutc)⟩
    · exact .inr ((if_pos h).trans (if_neg hutc))
  noKey h := by simp [utcOnly, h]

/-- `croniter` for a task of every minute. -/
private def everyMinute (timezone : String) : Lib where
  zones := utcOnly
  timezone := timezone
  cronNext _ _ now := .ok ((now / 60000000 + 1) * 60000000)

private def cronTask : ScheduledTask where
  id := "t"
  groupFolder := "main"
  chatJid := "local:main"
  prompt := "go"
  scheduleType := .cron
  scheduleValue := "* * * * *"
  contextMode := .isolated
  nextRun := none
  lastRun := none
  lastResult := none
  status := .active
  createdAt := ""

private theorem everyMinute_valid (timezone : String) :
    ValidCron (everyMinute timezone) 62135596830000000 cronTask :=
  ⟨rfl,_,rfl,by decide +kernel⟩

/-- A time is shown and a task scheduled again under the name of no zone. -/
theorem falls_back_iff_unknown :
    Shows utcOnly "Invalid/Fake" "1970-01-01T00:00:30Z" 62135596830000000 ∧
      Reschedules (everyMinute "Invalid/Fake") 62135596830000000 cronTask := by
  have h := @falls_back_iff (everyMinute "Invalid/Fake") 62135596830000000 cronTask
    "1970-01-01T00:00:30Z" 62135596830000000 (utcOnly_documented _) (by decide +kernel)
    (everyMinute_valid _)
  exact ⟨h.1.mpr (by decide +kernel),h.2.mpr (by decide +kernel)⟩

/-- The pattern lets an absolute name pass, and neither handler is for `ValueError`. -/
theorem absolute_name_raises :
    Documented utcOnly "/UTC" ∧ ValidCron (everyMinute "/UTC") 62135596830000000 cronTask ∧
      formatLocalTime utcOnly "1970-01-01T00:00:30Z" "/UTC" = .error .valueError ∧
      computeNextRun (everyMinute "/UTC") 62135596830000000 cronTask = .error .valueError :=
  ⟨utcOnly_documented _,everyMinute_valid _,by decide +kernel,rfl⟩

end Runs

end NanoClaw.Tasks
