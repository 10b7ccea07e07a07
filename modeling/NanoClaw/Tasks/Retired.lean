import NanoClaw.Tasks.Interval
import NanoClaw.Tasks.Recorded

/-! Whether an occurrence that has run is retired, whatever came of the run and whatever the libraries
for zones and cron texts do. -/
namespace NanoClaw.Tasks
open Store Calendar IsoFormat IsoText Timezone Grid

/-- What a schedule says comes next. -/
inductive Follows (lib : Lib) (now : Int) (task : ScheduledTask) : Option String → Prop where
  | once : task.scheduleType = .once → Follows lib now task none
  | cron {zone : Zone} {t : Int} : task.scheduleType = .cron → schedulerZone lib = .ok zone →
      InRange (now + zone now) → lib.cronNext task.scheduleValue zone now = .ok t → InRange t →
      Follows lib now task (some (utcIso t))
  | fallback : task.scheduleType = .interval →
      (∀ ms, PyText.int? task.scheduleValue.toList = some ms → ms ≤ 0) →
      InRange (now + fallbackInterval) → Follows lib now task (some (utcIso (now + fallbackInterval)))
  | unplanned {ms : Int} : task.scheduleType = .interval →
      PyText.int? task.scheduleValue.toList = some ms → 0 < ms → task.nextRun = none → InRange now →
      Follows lib now task (some (utcIso now))
  | interval {ms stored offset : Int} : RunsEvery ms stored offset task →
      InRange (after stored (interval ms) now + offset) → InRange (after stored (interval ms) now) →
      Follows lib now task (some (utcIso (after stored (interval ms) now)))

section Follows
variable {lib : Lib} {now : Int} {task : ScheduledTask} {next : Option String}

private theorem map_some_eq_ok {x : Except PyExc String} :
    x.map some = .ok next ↔ ∃ text, x = .ok text ∧ next = some text := by
  cases x with
  | error e => simp [Except.map]
  | ok text => simp [Except.map, eq_comm]

private theorem utcText_eq_ok {t : Int} {text : String} :
    utcText t = .ok text ↔ InRange t ∧ text = utcIso t := by
  rw [utcText]
  split_ifs with h <;> simp [h, eq_comm]

private theorem nextCron_eq_ok {expression text : String} :
    nextCron lib now expression = .ok text ↔
      ∃ zone t, schedulerZone lib = .ok zone ∧ InRange (now + zone now) ∧
        lib.cronNext expression zone now = .ok t ∧ InRange t ∧ text = utcIso t := by
  rw [nextCron]
  cases hzone : schedulerZone lib with
  | error e => simp
  | ok zone =>
    dsimp only
    split_ifs with hlocal
    · cases hcron : lib.cronNext expression zone now with
      | error e => simp [hcron]
      | ok t => simp [hcron, hlocal, utcText_eq_ok]
    · simp [hlocal]

private theorem follows_of_interval (hkind : task.scheduleType = .interval)
    (h : computeNextRun lib now task = .ok next) : Follows lib now task next := by
  have hcompute := h
  rw [computeNextRun, hkind] at h
  dsimp only at h
  cases hvalue : PyText.int? task.scheduleValue.toList with
  | none =>
    rw [hvalue] at h
    obtain ⟨text,htext,rfl⟩ := map_some_eq_ok.mp h
    obtain ⟨hrange,rfl⟩ := utcText_eq_ok.mp htext
    exact .fallback hkind (by simp [hvalue]) hrange
  | some ms =>
    rw [hvalue] at h
    dsimp only at h
    split_ifs at h with hms
    · obtain ⟨text,htext,rfl⟩ := map_some_eq_ok.mp h
      obtain ⟨hrange,rfl⟩ := utcText_eq_ok.mp htext
      exact .fallback hkind (by simpa [hvalue] using hms) hrange
    · cases hnext : task.nextRun with
      | none =>
        rw [hnext] at h
        obtain ⟨text,htext,rfl⟩ := map_some_eq_ok.mp h
        obtain ⟨hrange,rfl⟩ := utcText_eq_ok.mp htext
        exact .unplanned hkind hvalue (not_le.mp hms) hnext hrange
      | some nextRun =>
        cases hread : fromIsoFormat (replaceZ nextRun.toList) with
        | none =>
          rw [hnext] at h
          simp [nextInterval, hread, Except.map] at h
        | some p =>
          have hevery : RunsEvery ms (p.1.toMicros - p.2.getD 0) (p.2.getD 0) task :=
            ⟨hkind,hvalue,not_le.mp hms,nextRun,hnext,p.1,p.2,hread,rfl,rfl⟩
          rw [hevery.computeNextRun_eq] at hcompute
          split_ifs at hcompute with hrange
          cases hcompute
          exact .interval hevery hrange.1 hrange.2

/-- `compute_next_run` returns what comes next, and nothing else. -/
theorem computeNextRun_eq_ok_iff : computeNextRun lib now task = .ok next ↔ Follows lib now task next := by
  constructor
  · intro h
    cases hkind : task.scheduleType with
    | once =>
      rw [computeNextRun_once hkind] at h
      cases h
      exact .once hkind
    | cron =>
      rw [computeNextRun, hkind] at h
      obtain ⟨text,htext,rfl⟩ := map_some_eq_ok.mp h
      obtain ⟨zone,t,hzone,hlocal,hcron,hrange,rfl⟩ := nextCron_eq_ok.mp htext
      exact .cron hkind hzone hlocal hcron hrange
    | interval => exact follows_of_interval hkind h
  · intro h
    cases h with
    | once hkind => exact computeNextRun_once hkind
    | cron hkind hzone hlocal hcron hrange =>
      rw [computeNextRun, hkind]
      exact map_some_eq_ok.mpr ⟨_,nextCron_eq_ok.mpr ⟨_,_,hzone,hlocal,hcron,hrange,rfl⟩,rfl⟩
    | fallback hkind hvalue hrange =>
      have htext := map_some_eq_ok.mpr ⟨_,utcText_eq_ok.mpr ⟨hrange,rfl⟩,rfl⟩
      rw [computeNextRun, hkind]
      dsimp only
      cases hms : PyText.int? task.scheduleValue.toList with
      | none => exact htext
      | some ms =>
        dsimp only
        rw [if_pos (hvalue ms hms)]
        exact htext
    | unplanned hkind hvalue hms hnone hrange =>
      rw [computeNextRun, hkind]
      dsimp only
      rw [hvalue]
      dsimp only
      rw [if_neg (not_le.mpr hms), hnone]
      exact map_some_eq_ok.mpr ⟨_,utcText_eq_ok.mpr ⟨hrange,rfl⟩,rfl⟩
    | interval hevery hlocal hrange =>
      rw [hevery.computeNextRun_eq, if_pos ⟨hlocal,hrange⟩]

end Follows

/-- There is no next run any more, or it is another one, later than now. -/
def MovedOn (now : Int) (task : ScheduledTask) (nextRun : Option String) : Prop :=
  nextRun = none ∨ nextRun ≠ task.nextRun ∧ ∃ text ∈ nextRun, IsLater now text

/-- The row of a task that has run is gone, not active, or has moved on. -/
def Retired (now : Int) (task : ScheduledTask) (db : TaskDb) : Prop :=
  ∀ row, db.getTaskById task.id = some row → row.status = .active → MovedOn now task row.nextRun

/-- The end of a run has a text that columns take, and something comes next. -/
def Recordable (cfg : Config) (now : Int) (task : ScheduledTask) (outcome : TaskOutcome) : Prop :=
  outcome ≠ .unencodable ∧ ∃ next, Follows cfg.lib now task next

section Retired
variable {cfg : Config} {groups : Groups} {db : TaskDb} {now durationMs : Int}
  {task : ScheduledTask} {outcome : TaskOutcome}

theorem not_movedOn_self (h : task.nextRun ≠ none) : ¬MovedOn now task task.nextRun :=
  fun hmoved => hmoved.elim h (fun hother => hother.1 rfl)

/-- No poll finds an occurrence that is retired. -/
theorem Retired.not_due (h : Retired now task db) (hnext : task.nextRun ≠ none)
    {scan : List ScheduledTask → List ScheduledTask} (hscan : ∀ rows, (scan rows).Perm rows)
    {poll : String} {due : ScheduledTask} (hdue : due ∈ db.getDueTasks scan poll) :
    occurrence due ≠ occurrence task := by
  intro hsame
  obtain ⟨hid,hrun⟩ := Prod.mk.inj hsame
  obtain ⟨hrow,hactive,_⟩ := (TaskDb.mem_getDueTasks hscan).mp hdue
  have hmoved := h due (hid ▸ hrow) hactive
  rw [hrun] at hmoved
  exact not_movedOn_self hnext hmoved

/-- The row after a run that is recorded: with what comes next, or completed. -/
theorem recordOutcome_recordable {next : Option String} (hout : outcome ≠ .unencodable)
    (hnext : Follows cfg.lib now task next) :
    ∃ summary, (recordOutcome cfg db now task durationMs outcome).getTaskById task.id =
      (db.getTaskById task.id).map (fun r =>
        { r with
          nextRun := next
          lastRun := some (utcIso now)
          lastResult := some summary
          status := if next = none then .completed else r.status }) := by
  obtain ⟨result,error,heq⟩ := recordOutcome_eq cfg db now task durationMs hout
  have hcompute := computeNextRun_eq_ok_iff.mpr hnext
  refine ⟨runSummary result error,?_⟩
  rw [heq]
  simp only [recordRun, hcompute]
  rw [TaskDb.getTaskById_updateTaskAfterRun, if_pos rfl, TaskDb.getTaskById_logTaskRun]

/-- The row after a run that is not is as it was. -/
theorem recordOutcome_not_recordable (h : ¬Recordable cfg now task outcome) :
    (recordOutcome cfg db now task durationMs outcome).getTaskById task.id =
      db.getTaskById task.id := by
  by_cases hout : outcome = .unencodable
  · rw [hout, recordOutcome]
  · obtain ⟨result,error,heq⟩ := recordOutcome_eq cfg db now task durationMs hout
    rw [heq, recordRun]
    split
    · rename_i next hnext
      exact absurd ⟨hout,next,computeNextRun_eq_ok_iff.mp hnext⟩ h
    · rfl

theorem retired_of_follows {next : Option String} (hout : outcome ≠ .unencodable)
    (hnext : Follows cfg.lib now task next) :
    Retired now task (recordOutcome cfg db now task durationMs outcome) ↔
      ∀ row, db.getTaskById task.id = some row → row.status = .active → MovedOn now task next := by
  obtain ⟨summary,hrow'⟩ := @recordOutcome_recordable cfg db now durationMs task outcome next hout hnext
  rw [Retired, hrow']
  cases hrow : db.getTaskById task.id with
  | none => simp
  | some row =>
    cases next with
    | none =>
      refine iff_of_true (fun row' hrow' hactive => ?_) (fun _ _ _ => Or.inl rfl)
      cases hrow'
      cases hactive
    | some text => simp

/-- An occurrence that has run is retired exactly when its end can be recorded and its schedule goes
on to a later instant, or else the row has moved on already. -/
theorem occurrence_retired_iff (cfg : Config) (groups : Groups) (db : TaskDb) (now : Int)
    (task : ScheduledTask) (durationMs : Int) (outcome : TaskOutcome)
    (hfolder : folderError cfg task.groupFolder = none) (hgroup : hasGroup groups task = true) :
    Retired now task (runAndRecord cfg groups db now task durationMs outcome) ↔
      ∀ row, db.getTaskById task.id = some row → row.status = .active →
        (outcome ≠ .unencodable ∧ ∃ next, Follows cfg.lib now task next ∧ MovedOn now task next) ∨
        (¬Recordable cfg now task outcome ∧ MovedOn now task row.nextRun) := by
  rw [runAndRecord, hfolder]
  dsimp only
  rw [if_pos hgroup]
  by_cases hrecord : Recordable cfg now task outcome
  · obtain ⟨hout,next,hnext⟩ := id hrecord
    rw [retired_of_follows hout hnext]
    refine forall_congr' (fun row => imp_congr_right (fun _ => imp_congr_right (fun _ => ?_)))
    constructor
    · intro hmoved
      exact Or.inl ⟨hout,next,hnext,hmoved⟩
    · rintro (⟨_,next',hnext',hmoved⟩ | ⟨hnot,_⟩)
      · have hsame := (computeNextRun_eq_ok_iff.mpr hnext).symm.trans
          (computeNextRun_eq_ok_iff.mpr hnext')
        rwa [Except.ok.inj hsame]
      · exact absurd hrecord hnot
  · rw [Retired, recordOutcome_not_recordable hrecord]
    refine forall_congr' (fun row => imp_congr_right (fun _ => imp_congr_right (fun _ => ?_)))
    constructor
    · intro hmoved
      exact Or.inr ⟨hrecord,hmoved⟩
    · rintro (⟨hout,next,hnext,_⟩ | ⟨_,hmoved⟩)
      · exact absurd ⟨hout,next,hnext⟩ hrecord
      · exact hmoved

end Retired

section Runs

/-- The next midnight. -/
private def midnightAfter (base : Int) : Int := (base / 86400000000 + 1) * 86400000000

/-- A host whose library for zones answers so, and whose expressions stand for midnight. -/
private def zoneCfg (answer : Except PyExc Zone) : Config where
  lib := ⟨⟨fun _ => answer,0⟩,"/usr/share/zoneinfo/Europe/Berlin",
    fun _ _ base => .ok (midnightAfter base)⟩
  escapes := fun _ => none
  scan := id
  scan_perm := List.Perm.refl

private def nightly : ScheduledTask where
  id := "t"
  groupFolder := "main"
  chatJid := "local:main"
  prompt := "hi"
  scheduleType := .cron
  scheduleValue := "0 0 * * *"
  contextMode := .isolated
  nextRun := some "2026-01-01T00:00:00Z"
  lastRun := none
  lastResult := none
  status := .active
  createdAt := "2025-12-31T00:00:00Z"

private def nights : TaskDb := ⟨⟨[nightly],List.nodup_singleton _⟩,[]⟩

private theorem nightly_folder (answer : Except PyExc Zone) :
    folderError (zoneCfg answer) nightly.groupFolder = none := by
  rw [folderError, if_pos (by decide +kernel)]
  rfl

theorem occurrence_retired_iff_utc :
    Retired newYear nightly (runAndRecord (zoneCfg (.ok (fun _ => 0))) mainGroups nights
      newYear nightly 1500 (.returned (some "done"))) := by
  refine (occurrence_retired_iff (zoneCfg (.ok (fun _ => 0))) mainGroups nights newYear nightly
    1500 (.returned (some "done")) (nightly_folder _) (by decide +kernel)).mpr ?_
  intro row _ _
  refine Or.inl ⟨by simp,_,.cron rfl rfl (by decide) rfl (by decide),Or.inr ⟨by decide +kernel,?_⟩⟩
  exact ⟨_,rfl,midnightAfter newYear,by decide,by decide,rfl⟩

/-- A zone whose name is a path, for which `ZoneInfo` raises `ValueError`: the run is logged, and the
task is as due as before. -/
theorem absolute_zone_runs_again :
    ¬Retired newYear nightly (runAndRecord (zoneCfg (.error .valueError)) mainGroups nights
        newYear nightly 1500 (.returned (some "done"))) ∧
      (runAndRecord (zoneCfg (.error .valueError)) mainGroups nights newYear nightly 1500
        (.returned (some "done"))).logs.map (·.failed) = [false] ∧
      nightly ∈ (runAndRecord (zoneCfg (.error .valueError)) mainGroups nights newYear nightly
        1500 (.returned (some "done"))).getDueTasks id (utcIso newYear) := by
  have hrow : (runAndRecord (zoneCfg (.error .valueError)) mainGroups nights newYear nightly 1500
      (.returned (some "done"))).getTaskById "t" = some nightly := by decide +kernel
  refine ⟨fun h => ?_,by decide +kernel,by decide +kernel⟩
  exact not_movedOn_self (by decide) (h nightly hrow rfl)

end Runs

end NanoClaw.Tasks
