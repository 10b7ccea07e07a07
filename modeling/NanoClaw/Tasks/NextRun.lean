import NanoClaw.Library.IsoText
import NanoClaw.Messages.Timezone
import NanoClaw.Store.Tasks

/-! `compute_next_run`: when a task runs again after a run. -/
namespace NanoClaw.Tasks
open Store Calendar IsoFormat IsoText Timezone

/-- The zone library, the configured zone, and `croniter(expression, base).get_next(datetime)`
with the base taken in a zone. -/
structure Lib where
  zones : Zones
  timezone : String
  cronNext : String → Zone → Int → Except PyExc Int

/-- `_utc_iso`. -/
def utcText (t : Int) : Except PyExc String :=
  if InRange t then .ok (utcIso t) else .error .overflowError

/-- The loop `while next_time <= now`, on local times with an offset from UTC. Each turn moves
on by the interval, so the microseconds left are turns enough. -/
def advance (offset interval now : Int) : Nat → Int → Except PyExc Int
  | 0, nextTime => .ok nextTime
  | fuel + 1, nextTime =>
    if nextTime ≤ now then
      if InRange (nextTime + interval + offset) then
        advance offset interval now fuel (nextTime + interval)
      else .error .overflowError
    else .ok nextTime

/-- `ZoneInfo(TIMEZONE)`, or UTC for a name that is not found. -/
def schedulerZone (lib : Lib) : Except PyExc Zone :=
  match lib.zones.zoneInfo lib.timezone with
  | .ok zone => .ok zone
  | .error .keyError => .ok (fun _ => 0)
  | .error e => .error e

def nextCron (lib : Lib) (now : Int) (expression : String) : Except PyExc String :=
  match schedulerZone lib with
  | .error e => .error e
  | .ok zone =>
    if InRange (now + zone now) then
      match lib.cronNext expression zone now with
      | .error e => .error e
      | .ok t => utcText t
    else .error .overflowError

def nextInterval (now ms : Int) (nextRun : String) : Except PyExc String :=
  match fromIsoFormat (replaceZ nextRun.toList) with
  | none => .error .valueError
  | some (f, offset) =>
    let scheduled := f.toMicros - offset.getD 0
    match advance (offset.getD 0) (ms * 1000) now ((now - scheduled).toNat + 1) scheduled with
    | .error e => .error e
    | .ok t => utcText t

/-- One minute, the interval of a value that is no positive number. -/
def fallbackInterval : Int := 60000000

def computeNextRun (lib : Lib) (now : Int) (task : ScheduledTask) : Except PyExc (Option String) :=
  match task.scheduleType with
  | .once => .ok none
  | .cron => (nextCron lib now task.scheduleValue).map some
  | .interval =>
    match PyText.int? task.scheduleValue.toList with
    | none => (utcText (now + fallbackInterval)).map some
    | some ms =>
      if ms ≤ 0 then (utcText (now + fallbackInterval)).map some
      else
        match task.nextRun with
        | none => (utcText now).map some
        | some nextRun => (nextInterval now ms nextRun).map some

/-- The text of an instant later than a given one. -/
def IsLater (now : Int) (text : String) : Prop := ∃ t, now < t ∧ InRange t ∧ text = utcIso t

/-- The text of an instant that is past is that of no later instant. -/
theorem not_isLater_utcIso {now t : Int} (ht : InRange t) (hle : t ≤ now) :
    ¬IsLater now (utcIso t) := by
  rintro ⟨t',hlt,ht',he⟩
  have hsame := utcIso_inj ht ht' he
  omega

theorem advance_later {offset interval now : Int} (hpos : 0 < interval) {fuel : Nat}
    {nextTime t : Int} (hfuel : now - nextTime < fuel)
    (h : advance offset interval now fuel nextTime = .ok t) : now < t := by
  induction fuel generalizing nextTime with
  | zero =>
    cases h
    omega
  | succ fuel ih =>
    rw [advance] at h
    split_ifs at h with hle hr
    · exact ih (by omega) h
    · cases h
      omega

private theorem utcText_later {now t : Int} {text : String} (ht : now < t)
    (h : utcText t = .ok text) : IsLater now text := by
  rw [utcText] at h
  split_ifs at h with hr
  cases h
  exact ⟨t,ht,hr,rfl⟩

private theorem nextCron_later {lib : Lib} {now : Int} {expression text : String}
    (hcron : ∀ e zone base t, lib.cronNext e zone base = .ok t → base < t)
    (h : nextCron lib now expression = .ok text) : IsLater now text := by
  rw [nextCron] at h
  split at h
  · cases h
  · split at h
    · split at h
      · cases h
      · rename_i t ht
        exact utcText_later (hcron _ _ _ _ ht) h
    · cases h

private theorem nextInterval_later {now ms : Int} {nextRun text : String} (hms : 0 < ms)
    (h : nextInterval now ms nextRun = .ok text) : IsLater now text := by
  rw [nextInterval] at h
  split at h
  · cases h
  · simp only at h
    split at h
    · cases h
    · rename_i t ht
      exact utcText_later (advance_later (by omega) (by omega) ht) h

/-- Where the cron library moves on, the next run of a task that had one is later than now. -/
theorem computeNextRun_later {lib : Lib} {now : Int} {task : ScheduledTask} {text : String}
    (hcron : ∀ e zone base t, lib.cronNext e zone base = .ok t → base < t)
    (htask : task.nextRun ≠ none) (h : computeNextRun lib now task = .ok (some text)) :
    IsLater now text := by
  have hmap : ∀ {x : Except PyExc String}, x.map some = .ok (some text) → x = .ok text := by
    intro x hx
    cases x with
    | error e => cases hx
    | ok a => exact congrArg Except.ok (Option.some.inj (Except.ok.inj hx))
  rw [computeNextRun] at h
  split at h
  · cases h
  · exact nextCron_later hcron (hmap h)
  · split at h
    · exact utcText_later (by simp only [fallbackInterval]; omega) (hmap h)
    · split at h
      · exact utcText_later (by simp only [fallbackInterval]; omega) (hmap h)
      · split at h
        · rename_i hnone
          exact absurd hnone htask
        · exact nextInterval_later (by omega) (hmap h)

@[simp] theorem computeNextRun_once {lib : Lib} {now : Int} {task : ScheduledTask}
    (h : task.scheduleType = .once) : computeNextRun lib now task = .ok none := by
  simp [computeNextRun, h]

end NanoClaw.Tasks
