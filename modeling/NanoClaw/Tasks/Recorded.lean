import NanoClaw.Tasks.Scheduler

/-! `_run_and_record` as a whole, and whether a run is recorded as it happened. -/
namespace NanoClaw.Tasks
open Store Calendar IsoText

def hasGroup (groups : Groups) (task : ScheduledTask) : Bool :=
  groups.values.any (fun group => group.folder = task.groupFolder)

/-- `_run_and_record`, with the table as it is when the run ends, and how `run_task_fn` ends if it is
called. -/
def runAndRecord (cfg : Config) (groups : Groups) (db : TaskDb) (now : Int) (task : ScheduledTask)
    (durationMs : Int) (outcome : TaskOutcome) : TaskDb :=
  match folderError cfg task.groupFolder with
  | some error =>
    (db.updateStatus task.id .paused).logTaskRun ⟨task.id,utcIso now,durationMs,true,none,some error⟩
  | none =>
    if hasGroup groups task then recordOutcome cfg db now task durationMs outcome
    else recordRun cfg db now task none (some ("Group not found: " ++ task.groupFolder)) durationMs

section System
variable {cfg : Config} {s s' : System} {groups : Groups} {i : Nat} {b : Background ScheduledTask}
  {g : String} {task : QueuedTask ScheduledTask}

/-- A task whose folder is not valid or whose group is missing is recorded when it begins. -/
theorem beginTask_runAndRecord
    (h : folderError cfg task.fn.groupFolder ≠ none ∨ hasGroup groups task.fn = false)
    (outcome : TaskOutcome) :
    (s.beginTask cfg groups i b g task).db =
      runAndRecord cfg groups s.db s.now task.fn 0 outcome := by
  rw [System.beginTask, runAndRecord]
  cases hfolder : folderError cfg task.fn.groupFolder with
  | some error => rfl
  | none =>
    have hgroup := h.resolve_left (absurd hfolder)
    rw [hasGroup] at hgroup
    simp only [hasGroup, hgroup]
    rfl

/-- Any other is recorded when its run ends. -/
theorem finishTask_runAndRecord {outcome : TaskOutcome} {durationMs : Int}
    (hfolder : folderError cfg task.fn.groupFolder = none) (hgroup : hasGroup groups task.fn = true)
    (htask : s.taskAt i = some (b,g,task))
    (h : step cfg s (.finishTask i outcome durationMs) = some s') :
    s'.db = runAndRecord cfg groups s.db s.now task.fn durationMs outcome := by
  simp only [step, htask] at h
  split_ifs at h
  cases h
  rw [runAndRecord, hfolder, if_pos hgroup]

end System

/-- What the row says of a run that had its folder. Of an end whose text no column takes it says
nothing. -/
def reported (groups : Groups) (task : ScheduledTask) (outcome : TaskOutcome) : Option String :=
  if hasGroup groups task = false then
    some ("Error: " ++ ("Group not found: " ++ task.groupFolder))
  else
    match outcome with
    | .raised error => some ("Error: " ++ error)
    | .returned result =>
      some (String.ofList (((result.filter (· ≠ "")).getD "Completed").toList.take 200))
    | .unencodable => none

def TaskOutcome.Raises : TaskOutcome → Prop
  | .raised _ => True
  | .returned _ | .unencodable => False

/-- One log, whose status tells whether the run failed, and a row that says what came of it. -/
structure RecordedAsItHappened (cfg : Config) (groups : Groups) (db db' : TaskDb)
    (task : ScheduledTask) (outcome : TaskOutcome) : Prop where
  log : ∃ log, db'.logs = db.logs ++ [log] ∧ log.taskId = task.id ∧
    (log.failed = true ↔
      folderError cfg task.groupFolder ≠ none ∨ hasGroup groups task = false ∨ outcome.Raises)
  row : folderError cfg task.groupFolder = none →
    ∀ row, db'.getTaskById task.id = some row → row.lastResult = reported groups task outcome

section Recorded
variable {cfg : Config} {groups : Groups} {db : TaskDb} {now : Int} {task : ScheduledTask}
  {result error : Option String} {durationMs : Int} {outcome : TaskOutcome}

theorem logs_recordRun :
    (recordRun cfg db now task result error durationMs).logs = db.logs ++
      [⟨task.id,utcIso now,durationMs,(error.filter (· ≠ "")).isSome,result,error⟩] := by
  rw [recordRun]
  split <;> rfl

theorem lastResult_recordRun {next : Option String} {row : ScheduledTask}
    (hnext : computeNextRun cfg.lib now task = .ok next)
    (h : (recordRun cfg db now task result error durationMs).getTaskById task.id = some row) :
    row.lastResult = some (runSummary result error) := by
  simp only [recordRun, hnext] at h
  rw [TaskDb.getTaskById_updateTaskAfterRun, if_pos rfl] at h
  obtain ⟨_,_,rfl⟩ := Option.map_eq_some_iff.mp h
  rfl

theorem runSummary_error {error : String} (h : error ≠ "") :
    runSummary result (some error) = "Error: " ++ error := by
  have hkept : (some error).filter (· ≠ "") = some error := by simp [h]
  rw [runSummary, hkept]

/-- A text for an error stands for one exactly when it is not empty. -/
theorem recordedAsItHappened_recordRun {next : Option String}
    (hfolder : folderError cfg task.groupFolder = none)
    (hnext : computeNextRun cfg.lib now task = .ok next)
    (hfailed : (error.filter (· ≠ "")).isSome = true ↔
      hasGroup groups task = false ∨ outcome.Raises)
    (hreported : some (runSummary result error) = reported groups task outcome) :
    RecordedAsItHappened cfg groups db (recordRun cfg db now task result error durationMs) task
      outcome := by
  refine ⟨⟨_,logs_recordRun,rfl,?_⟩,fun _ row hrow => ?_⟩
  · rw [hfolder, hfailed]
    exact (or_iff_right (absurd rfl)).symm
  · rw [lastResult_recordRun hnext hrow, hreported]

/-- A run whose end `run_task_fn` decides. -/
theorem recordedAsItHappened_recordOutcome {next : Option String}
    (hfolder : folderError cfg task.groupFolder = none) (hgroup : hasGroup groups task = true)
    (hnext : computeNextRun cfg.lib now task = .ok next) :
    RecordedAsItHappened cfg groups db (recordOutcome cfg db now task durationMs outcome) task
        outcome ↔ outcome ≠ .unencodable ∧ outcome ≠ .raised "" := by
  have hmissing : ¬hasGroup groups task = false := by simp [hgroup]
  cases outcome with
  | unencodable =>
    refine iff_of_false (fun h => ?_) (fun h => h.1 rfl)
    obtain ⟨log,hlog,_⟩ := h.log
    have hlength := congrArg List.length hlog
    rw [List.length_append] at hlength
    exact absurd hlength (Nat.ne_of_lt (Nat.lt_succ_self _))
  | returned result =>
    refine iff_of_true ?_ ⟨by simp,by simp⟩
    refine recordedAsItHappened_recordRun hfolder hnext ?_ ?_
    · simp [hmissing, TaskOutcome.Raises]
    · rw [reported, if_neg hmissing]
      rfl
  | raised error =>
    constructor
    · intro h
      refine ⟨by simp,?_⟩
      rintro ⟨⟩
      obtain ⟨log,hlog,_,hfailed⟩ := h.log
      rw [recordOutcome, logs_recordRun] at hlog
      obtain rfl := List.singleton_inj.mp (List.append_cancel_left hlog)
      have hstatus := hfailed.mpr (Or.inr (Or.inr trivial))
      contradiction
    · rintro ⟨_,hempty⟩
      have htext : error ≠ "" := fun h => hempty (h ▸ rfl)
      refine recordedAsItHappened_recordRun hfolder hnext ?_ ?_
      · simp [htext, TaskOutcome.Raises]
      · rw [reported, if_neg hmissing, runSummary_error htext]

/-- A run is recorded as it happened unless `run_task_fn` is called and ends with a text that fits no
column, or with an exception without a text. -/
theorem recorded_as_it_happened_iff (cfg : Config) (groups : Groups) (db : TaskDb) (now : Int)
    (task : ScheduledTask) (durationMs : Int) (outcome : TaskOutcome)
    (hnext : folderError cfg task.groupFolder = none →
      ∃ next, computeNextRun cfg.lib now task = .ok next) :
    RecordedAsItHappened cfg groups db
        (runAndRecord cfg groups db now task durationMs outcome) task outcome ↔
      folderError cfg task.groupFolder ≠ none ∨ hasGroup groups task = false ∨
        (outcome ≠ .unencodable ∧ outcome ≠ .raised "") := by
  rw [runAndRecord]
  cases hfolder : folderError cfg task.groupFolder with
  | some error =>
    refine iff_of_true ⟨⟨_,rfl,rfl,?_⟩,?_⟩ (Or.inl (by simp))
    · simp [hfolder]
    · simp [hfolder]
  | none =>
    obtain ⟨next,hnext⟩ := hnext hfolder
    rw [or_iff_right (by simp)]
    by_cases hgroup : hasGroup groups task = true
    · rw [if_pos hgroup, or_iff_right (by simp [hgroup])]
      exact recordedAsItHappened_recordOutcome hfolder hgroup hnext
    · have hmissing : hasGroup groups task = false := Bool.eq_false_iff.mpr hgroup
      have htext : "Group not found: " ++ task.groupFolder ≠ "" := by
        simp
      rw [if_neg hgroup]
      refine iff_of_true (recordedAsItHappened_recordRun hfolder hnext ?_ ?_) (Or.inl hmissing)
      · simp [hmissing]
      · simp only [reported, if_pos hmissing, runSummary_error htext]

end Recorded

section Runs

private def reminder : ScheduledTask where
  id := "t"
  groupFolder := "main"
  chatJid := "local:main"
  prompt := "hi"
  scheduleType := .once
  scheduleValue := "2026-01-01T00:00:00Z"
  contextMode := .isolated
  nextRun := some "2026-01-01T00:00:00Z"
  lastRun := none
  lastResult := none
  status := .active
  createdAt := "2025-12-31T00:00:00Z"

private def reminders : TaskDb := ⟨⟨[reminder],List.nodup_singleton _⟩,[]⟩

private theorem reminder_folder : folderError localCfg reminder.groupFolder = none := by
  decide +kernel

theorem recorded_as_it_happened_iff_done :
    RecordedAsItHappened localCfg mainGroups reminders
      (runAndRecord localCfg mainGroups reminders newYear reminder 1500
        (.returned (some "done"))) reminder (.returned (some "done")) := by
  refine (recorded_as_it_happened_iff localCfg mainGroups reminders newYear reminder 1500
    (.returned (some "done")) (fun _ => ⟨none,computeNextRun_once rfl⟩)).mpr ?_
  exact Or.inr (Or.inr ⟨by simp,by simp⟩)

/-- An exception without a text, such as a timeout: the run is logged as a success, and the row says
that it is completed. -/
theorem silent_exception_recorded_as_success :
    ¬RecordedAsItHappened localCfg mainGroups reminders
        (runAndRecord localCfg mainGroups reminders newYear reminder 1500 (.raised ""))
        reminder (.raised "") ∧
      (runAndRecord localCfg mainGroups reminders newYear reminder 1500
        (.raised "")).logs.map (·.failed) = [false] ∧
      ((runAndRecord localCfg mainGroups reminders newYear reminder 1500
        (.raised "")).getTaskById "t").bind (·.lastResult) = some "Completed" := by
  have hgroup : hasGroup mainGroups reminder = true := by decide +kernel
  refine ⟨fun h => ?_,by decide +kernel,by decide +kernel⟩
  rw [runAndRecord, reminder_folder, if_pos hgroup,
    recordedAsItHappened_recordOutcome reminder_folder hgroup (computeNextRun_once rfl)] at h
  exact h.2 rfl

end Runs

end NanoClaw.Tasks
