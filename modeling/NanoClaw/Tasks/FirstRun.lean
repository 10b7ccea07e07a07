import Mathlib.Order.Bounds.Basic
import NanoClaw.Ipc.Watcher
import NanoClaw.Tasks.NextRun

/-! The first run of a cron task, found when it is scheduled over IPC, next to the runs that
`compute_next_run` finds. -/
namespace NanoClaw.Tasks
open Store Calendar IsoText Timezone Json

/-- The instants later than a base at which the clock of a zone shows a matching time. -/
def laterMatches (matching : Int → Prop) (zone : Zone) (base : Int) : Set Int :=
  {t | base < t ∧ InRange (t + zone t) ∧ matching (t + zone t)}

/-- `croniter`: the times that an expression matches, and
`croniter(expression, base).get_next(datetime)` for a base in a zone, which is the least later
instant whose time in that zone matches. -/
structure Croniter where
  Matches : String → Int → Prop
  getNext : String → Zone → Int → Except PyExc Int
  getNext_eq_ok_iff : ∀ expression zone base t, getNext expression zone base = .ok t ↔
    IsLeast (laterMatches (Matches expression) zone base) t

/-- The zone of `datetime.now(timezone.utc)`. -/
def utc : Zone := fun _ => 0

namespace Croniter
variable (croniter : Croniter)

/-- The watcher takes the base in UTC. -/
def ipcLib (interp : Interp) : Ipc.Lib where
  interp := interp
  cronNext := fun value now =>
    match value with
    | .str expression => croniter.getNext expression utc now
    | _ => .error .valueError

/-- The scheduler takes the base in the configured zone. -/
def lib (zones : Zones) (timezone : String) : Lib where
  zones := zones
  timezone := timezone
  cronNext := croniter.getNext

/-- The instants later than now at which the clock of a zone shows a time that matches. -/
def later (zone : Zone) (now : Int) (expression : String) : Set Int :=
  laterMatches (croniter.Matches expression) zone now

/-- The first later instant at which one of the clocks, UTC and the one of a zone, shows a time that
matches, both show one. -/
def ClocksMeet (zone : Zone) (now : Int) (expression : String) : Prop :=
  ∃ t, IsLeast (croniter.later utc now expression ∪ croniter.later zone now expression) t ∧
    t ∈ croniter.later utc now expression ∧ t ∈ croniter.later zone now expression

end Croniter

/-- Two sets have the same least element when the least of both is in both. -/
theorem isLeast_both_iff {α : Type} [PartialOrder α] {s t : Set α} {a : α} :
    IsLeast s a ∧ IsLeast t a ↔ IsLeast (s ∪ t) a ∧ a ∈ s ∧ a ∈ t := by
  constructor
  · rintro ⟨⟨has,hs⟩,⟨hat,ht⟩⟩
    refine ⟨⟨.inl has,?_⟩,has,hat⟩
    rintro b (hb | hb)
    · exact hs hb
    · exact ht hb
  · rintro ⟨⟨_,hleast⟩,has,hat⟩
    exact ⟨⟨has,fun b hb => hleast (.inl hb)⟩,⟨hat,fun b hb => hleast (.inr hb)⟩⟩

section Runs
variable {croniter : Croniter} {interp : Interp} {zones : Zones} {timezone : String}

/-- The scheduler's next run at an instant. -/
theorem nextCron_eq_ok_iff {now : Int} {expression text : String} :
    nextCron (croniter.lib zones timezone) now expression = .ok text ↔
      ∃ zone, schedulerZone (croniter.lib zones timezone) = .ok zone ∧ InRange (now + zone now) ∧
        ∃ t, IsLeast (croniter.later zone now expression) t ∧ InRange t ∧ text = utcIso t := by
  constructor
  · intro h
    rw [nextCron] at h
    split at h
    · cases h
    · rename_i zone hzone
      split at h
      · rename_i hnow
        split at h
        · cases h
        · rename_i t hnext
          rw [utcText] at h
          split at h
          · rename_i ht
            cases h
            exact ⟨zone,hzone,hnow,t,(croniter.getNext_eq_ok_iff _ _ _ _).mp hnext,ht,rfl⟩
          · cases h
      · cases h
  · rintro ⟨zone,hzone,hnow,t,hleast,ht,rfl⟩
    have hnext : (croniter.lib zones timezone).cronNext expression zone now = .ok t :=
      (croniter.getNext_eq_ok_iff _ _ _ _).mpr hleast
    simp only [nextCron, hzone, if_pos hnow, hnext, utcText, if_pos ht]

/-- The first run of a cron task that a request has stored. -/
theorem first_run_stored {groups : Groups} {source : String} {isMain : Bool} {env : Ipc.Env}
    {s : Ipc.State} {fields : List (String × Json)} {task : ScheduledTask}
    (hnew : s.db.getTaskById task.id = none)
    (hstored : (Ipc.handleScheduleTask (croniter.ipcLib interp) groups source isMain env s
      fields).state.db.getTaskById task.id = some task) (htype : task.scheduleType = .cron) :
    ∃ t, IsLeast (croniter.later utc env.now task.scheduleValue) t ∧ InRange t ∧
      task.nextRun = some (utcIso t) := by
  obtain ⟨t,hfirst,hnext⟩ := (Ipc.handleScheduleTask_stored hnew hstored).schedule
  rw [htype] at hfirst
  have hleast := (croniter.getNext_eq_ok_iff _ _ _ _).mp (Ipc.computeFirstRun_cron hfirst)
  have hsame : t + utc t = t := Int.add_zero t
  exact ⟨t,hleast,hsame ▸ hleast.1.2.1,hnext⟩

/-- The first run of a cron task scheduled over IPC is the one that `compute_next_run` would find
at the same instant exactly when the clock of the configured zone and that of UTC first meet the
expression at the same instant. -/
theorem first_run_iff {groups : Groups} {source : String} {isMain : Bool} {env : Ipc.Env}
    {s : Ipc.State} {fields : List (String × Json)} {task : ScheduledTask}
    (hnew : s.db.getTaskById task.id = none)
    (hstored : (Ipc.handleScheduleTask (croniter.ipcLib interp) groups source isMain env s
      fields).state.db.getTaskById task.id = some task) (htype : task.scheduleType = .cron) :
    computeNextRun (croniter.lib zones timezone) env.now task = .ok task.nextRun ↔
      ∃ zone, schedulerZone (croniter.lib zones timezone) = .ok zone ∧
        InRange (env.now + zone env.now) ∧ croniter.ClocksMeet zone env.now task.scheduleValue := by
  obtain ⟨t,hleast,ht,hnext⟩ := first_run_stored hnew hstored htype
  have hcompute : computeNextRun (croniter.lib zones timezone) env.now task = .ok task.nextRun ↔
      nextCron (croniter.lib zones timezone) env.now task.scheduleValue = .ok (utcIso t) := by
    rw [computeNextRun, htype, hnext]
    cases nextCron (croniter.lib zones timezone) env.now task.scheduleValue with
    | error e => simp [Except.map]
    | ok text => simp [Except.map]
  rw [hcompute, nextCron_eq_ok_iff]
  constructor
  · rintro ⟨zone,hzone,hnow,t',hleast',ht',hsame⟩
    cases utcIso_inj ht ht' hsame
    exact ⟨zone,hzone,hnow,t,isLeast_both_iff.mp ⟨hleast,hleast'⟩⟩
  · rintro ⟨zone,hzone,hnow,t',hmeet⟩
    obtain ⟨hutc,hlocal⟩ := isLeast_both_iff.mpr hmeet
    cases hleast.unique hutc
    exact ⟨zone,hzone,hnow,t,hlocal,ht,rfl⟩

/-- Where the scheduler's clock is that of UTC, also for a zone that is not found, the runs agree. -/
theorem first_run_of_utc {groups : Groups} {source : String} {isMain : Bool} {env : Ipc.Env}
    {s : Ipc.State} {fields : List (String × Json)} {task : ScheduledTask}
    (hnew : s.db.getTaskById task.id = none)
    (hstored : (Ipc.handleScheduleTask (croniter.ipcLib interp) groups source isMain env s
      fields).state.db.getTaskById task.id = some task) (htype : task.scheduleType = .cron)
    (hnow : InRange env.now) (hzone : schedulerZone (croniter.lib zones timezone) = .ok utc) :
    computeNextRun (croniter.lib zones timezone) env.now task = .ok task.nextRun := by
  obtain ⟨t,hleast,_,_⟩ := first_run_stored hnew hstored htype
  refine (first_run_iff hnew hstored htype).mpr ⟨utc,hzone,?_,t,isLeast_both_iff.mp ⟨hleast,hleast⟩⟩
  have hsame : env.now + utc env.now = env.now := Int.add_zero env.now
  exact hsame.symm ▸ hnow

/-- An expression for one time of day never meets the clocks of UTC and of a zone that is not whole
days away from it. -/
theorem not_clocksMeet_daily {zone : Zone} {now time : Int} {expression : String}
    (hdaily : ∀ t, croniter.Matches expression t → t % dayMicros = time)
    (hzone : ∀ t, zone t % dayMicros ≠ 0) : ¬croniter.ClocksMeet zone now expression := by
  rintro ⟨t,_,⟨_,_,hutc⟩,⟨_,_,hlocal⟩⟩
  have hutc := hdaily _ hutc
  have hlocal := hdaily _ hlocal
  have hoffset := hzone t
  simp only [utc, dayMicros] at hutc hlocal hoffset
  omega

end Runs

section Tokyo

/-- The library for a choice of the times that match. -/
noncomputable def Croniter.ofMatches (matching : String → Int → Prop) : Croniter :=
  open Classical in
  { Matches := matching
    getNext := fun expression zone base =>
      if h : ∃ t, IsLeast (laterMatches (matching expression) zone base) t then .ok h.choose
      else .error .valueError
    getNext_eq_ok_iff := by
      intro expression zone base t
      split
      · rename_i h
        rw [Except.ok.injEq]
        exact ⟨fun he => he ▸ h.choose_spec,fun hleast => h.choose_spec.unique hleast⟩
      · rename_i h
        exact ⟨fun he => (nomatch he),fun hleast => absurd ⟨t,hleast⟩ h⟩ }

/-- Nine hours. -/
private def nineHours : Int := 32400000000

private noncomputable def nineDaily : Croniter :=
  .ofMatches (fun expression t => expression = "0 9 * * *" ∧ t % dayMicros = nineHours)

/-- 2024-01-01T00:00:00Z. -/
private def newYearDay : Int := 63839664000000000

private theorem nine_utc : nineDaily.getNext "0 9 * * *" utc newYearDay = .ok (newYearDay + nineHours) := by
  rw [Croniter.getNext_eq_ok_iff]
  refine ⟨⟨?_,?_,rfl,?_⟩,?_⟩
  · decide
  · decide +kernel
  · decide +kernel
  · rintro t ⟨hlater,_,_,hnine⟩
    simp only [utc, dayMicros, newYearDay, nineHours] at hlater hnine ⊢
    omega

private theorem nine_tokyo :
    nineDaily.getNext "0 9 * * *" (fun _ => nineHours) newYearDay = .ok (newYearDay + dayMicros) := by
  rw [Croniter.getNext_eq_ok_iff]
  refine ⟨⟨?_,?_,rfl,?_⟩,?_⟩
  · decide
  · decide +kernel
  · decide +kernel
  · rintro t ⟨hlater,_,_,hnine⟩
    simp only [dayMicros, newYearDay, nineHours] at hlater hnine ⊢
    omega

private def newsFields : List (String × Json) :=
  [("type",.str "schedule_task"),("targetJid",.str "local:main"),("prompt",.str "news"),
    ("schedule_type",.str "cron"),("schedule_value",.str "0 9 * * *"),("taskId",.str "news")]

private def newsTask : ScheduledTask where
  id := "news"
  groupFolder := "main"
  chatJid := "local:main"
  prompt := "news"
  scheduleType := .cron
  scheduleValue := "0 9 * * *"
  contextMode := .isolated
  nextRun := some "2024-01-01T09:00:00Z"
  lastRun := none
  lastResult := none
  status := .active
  createdAt := "2024-01-01T00:00:00Z"

private theorem news_stored (interp : Interp) :
    (Ipc.handleScheduleTask (nineDaily.ipcLib interp) mainGroups "main" true ⟨newYearDay,"",none⟩
      ⟨TaskDb.empty,[]⟩ newsFields).state.db.getTaskById "news" = some newsTask := by
  have hfirst : Ipc.computeFirstRun (nineDaily.ipcLib interp) newYearDay (.str "cron")
      (.str "0 9 * * *") = .ok (some (.cron,newYearDay + nineHours)) :=
    congrArg (Except.map (fun t => some (ScheduleType.cron,t))) nine_utc
  have hhandle : Ipc.handleScheduleTask (nineDaily.ipcLib interp) mainGroups "main" true
      ⟨newYearDay,"",none⟩ ⟨TaskDb.empty,[]⟩ newsFields =
      Ipc.storeTask ⟨newYearDay,"",none⟩ ⟨TaskDb.empty,[]⟩ "main" newsFields
        (.cron,newYearDay + nineHours) := by
    have hgroup : Ipc.groupOf mainGroups (getKey "targetJid" newsFields) =
        some mainGroup := by decide +kernel
    have htexts : ((getKey "targetJid" newsFields).isText && (getKey "prompt" newsFields).isText &&
        (getKey "schedule_type" newsFields).isText &&
        (getKey "schedule_value" newsFields).isText) = true := by decide +kernel
    have htype : getKey "schedule_type" newsFields = .str "cron" := by rfl
    have hvalue : getKey "schedule_value" newsFields = .str "0 9 * * *" := by rfl
    simp only [Ipc.handleScheduleTask, hgroup, htype, hvalue, hfirst, not_true_eq_false, false_and,
      if_false]
    exact if_neg (not_not_intro htexts)
  rw [hhandle]
  decide +kernel

/-- A task for nine o'clock every day, scheduled where the configured clock is nine hours ahead,
first runs at nine o'clock UTC; the scheduler would have found midnight UTC. -/
theorem nine_daily_two_clocks :
    ∃ task, (Ipc.handleScheduleTask (nineDaily.ipcLib ⟨String.ofList,10⟩) mainGroups "main" true
        ⟨newYearDay,"",none⟩ ⟨TaskDb.empty,[]⟩ newsFields).state.db.getTaskById "news" = some task ∧
      task.scheduleType = .cron ∧ task.scheduleValue = "0 9 * * *" ∧
      task.nextRun = some "2024-01-01T09:00:00Z" ∧
      computeNextRun (nineDaily.lib ⟨fun _ => .ok (fun _ => nineHours),0⟩ "Asia/Tokyo") newYearDay
        task = .ok (some "2024-01-02T00:00:00Z") := by
  refine ⟨newsTask,news_stored _,rfl,rfl,rfl,?_⟩
  have hnext : (nineDaily.lib ⟨fun _ => .ok (fun _ => nineHours),0⟩ "Asia/Tokyo").cronNext
      "0 9 * * *" (fun _ => nineHours) newYearDay = .ok (newYearDay + dayMicros) := nine_tokyo
  have hnow : InRange (newYearDay + nineHours) := by decide +kernel
  have ht : InRange (newYearDay + dayMicros) := by decide +kernel
  have htext : utcIso (newYearDay + dayMicros) = "2024-01-02T00:00:00Z" := by decide +kernel
  simp only [computeNextRun, newsTask, nextCron, schedulerZone, Croniter.lib] at hnext ⊢
  simp only [if_pos hnow, hnext, utcText, if_pos ht, htext, Except.map]

/-- The same task where the configured zone is UTC. -/
theorem first_run_iff_utc :
    (∃ zone, schedulerZone (nineDaily.lib ⟨fun _ => .ok utc,0⟩ "UTC") = .ok zone ∧
      InRange (newYearDay + zone newYearDay) ∧ nineDaily.ClocksMeet zone newYearDay "0 9 * * *") ∧
    computeNextRun (nineDaily.lib ⟨fun _ => .ok utc,0⟩ "UTC") newYearDay newsTask =
      .ok newsTask.nextRun := by
  have hmeet : ∃ zone, schedulerZone (nineDaily.lib ⟨fun _ => .ok utc,0⟩ "UTC") = .ok zone ∧
      InRange (newYearDay + zone newYearDay) ∧ nineDaily.ClocksMeet zone newYearDay "0 9 * * *" := by
    have hleast := (nineDaily.getNext_eq_ok_iff _ _ _ _).mp nine_utc
    exact ⟨utc,rfl,by decide +kernel,newYearDay + nineHours,isLeast_both_iff.mp ⟨hleast,hleast⟩⟩
  have hnew : (⟨TaskDb.empty,[]⟩ : Ipc.State).db.getTaskById newsTask.id = none := rfl
  have hiff : computeNextRun (nineDaily.lib ⟨fun _ => .ok utc,0⟩ "UTC") newYearDay newsTask =
      .ok newsTask.nextRun ↔ _ := first_run_iff hnew (news_stored ⟨String.ofList,10⟩) rfl
  exact ⟨hmeet,hiff.mpr hmeet⟩

end Tokyo

end NanoClaw.Tasks
