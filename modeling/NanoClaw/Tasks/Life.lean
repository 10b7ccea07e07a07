import NanoClaw.Tasks.Occurrence

/-! Tasks that come and go: the scheduler beside requests of every kind, those that create tasks
included. -/
namespace NanoClaw.Tasks
open Store IsoText Execution Ipc

/-- A step of the scheduler or a request other than `schedule_task`, or such a request. -/
inductive Event where
  | system (a : Action)
  | schedule (groups : Groups) (source : String) (isMain : Bool) (uuid : String)
      (fields : List (String × Json))

/-- `_handle_schedule_task` at the system's clock. -/
def System.schedule (ipc : Ipc.Lib) (s : System) (groups : Groups) (source : String) (isMain : Bool)
    (uuid : String) (fields : List (String × Json)) : System :=
  { s with
    db := (handleScheduleTask ipc groups source isMain ⟨s.now,uuid,none⟩ ⟨s.db,[]⟩ fields).state.db }

section Steps
variable (cfg : Config) (ipc : Ipc.Lib)

def react (s : System) : Event → Option System
  | .system a => step cfg s a
  | .schedule groups source isMain uuid fields => some (s.schedule ipc groups source isMain uuid fields)

/-- The id under which an event logs a run: that of the task which ends by it, unless its result
cannot be stored. -/
def logged (s : System) : Event → Option String
  | .system (.begin i groups) =>
    (s.taskAt i).bind (fun (_,_,q) =>
      if (folderError cfg q.fn.groupFolder).isNone ∧
          groups.values.any (fun group => group.folder = q.fn.groupFolder) then none
      else some q.fn.id)
  | .system (.finishTask i outcome _) =>
    (s.taskAt i).bind (fun (_,_,q) =>
      match outcome with
      | .unencodable => none
      | _ => some q.fn.id)
  | _ => none

end Steps

/-- What an event does to the table. -/
inductive Written (cfg : Config) (s : System) : Event → TaskDb → Prop where
  | same (e : Event) : logged cfg s e = none → Written cfg s e s.db
  | created (e : Event) (task : ScheduledTask) (db : TaskDb) : logged cfg s e = none →
      s.db.createTask task = some db → task.status = .active → task.nextRun ≠ none →
      Written cfg s e db
  | mutated (source : String) (isMain : Bool) (payloadType taskId : Json) :
      Written cfg s (.system (.mutate source isMain payloadType taskId))
        (handleTaskMutation source isMain ⟨s.db,[]⟩ payloadType taskId).state.db
  | refused (e : Event) (log : TaskRunLog) : logged cfg s e = some log.taskId →
      Written cfg s e ((s.db.updateStatus log.taskId .paused).logTaskRun log)
  | recorded (e : Event) (task : ScheduledTask) (result error : Option String) (durationMs : Int) :
      logged cfg s e = some task.id →
      Written cfg s e (recordRun cfg s.db s.now task result error durationMs)

variable {cfg : Config} {ipc : Ipc.Lib} {s t : System} {e : Event}

theorem moveQueue_db {a : GroupQueue.Action ScheduledTask} (h : s.moveQueue a = some t) :
    t.db = s.db := by
  obtain ⟨queue,_,rfl⟩ := Option.map_eq_some_iff.mp h
  rfl

/-- A request creates an active task with a first run, or changes nothing. -/
theorem handleScheduleTask_created (lib : Ipc.Lib) (groups : Groups) (source : String) (isMain : Bool)
    (env : Env) (s : State) (fields : List (String × Json)) :
    (handleScheduleTask lib groups source isMain env s fields).state = s ∨
      ∃ task db, s.db.createTask task = some db ∧ task.status = .active ∧ task.nextRun ≠ none ∧
        (handleScheduleTask lib groups source isMain env s fields).state = { s with db := db } := by
  simp only [handleScheduleTask]
  split
  · exact Or.inl rfl
  · split
    · exact Or.inl rfl
    · split
      · exact Or.inl rfl
      · split
        · exact Or.inl rfl
        · exact Or.inl rfl
        · unfold storeTask
          split
          · simp only
            split
            · exact Or.inl rfl
            · rename_i db hdb
              exact Or.inr ⟨_,db,hdb,rfl,Option.some_ne_none _,rfl⟩
          · exact Or.inl rfl

private theorem beginTask_written {i : Nat} {b : Background ScheduledTask} {g : String}
    {q : QueuedTask ScheduledTask} (hat : s.taskAt i = some (b,g,q)) (groups : Groups) :
    Written cfg s (.system (.begin i groups)) (s.beginTask cfg groups i b g q).db := by
  simp only [System.beginTask]
  split
  · rename_i error herror
    refine .refused _ ⟨q.fn.id,_,_,_,_,_⟩ ?_
    simp [logged, hat, herror]
  · rename_i hfolder
    split
    · rename_i hgroup
      refine .same _ ?_
      simp only [logged, hat, Option.bind_some, hfolder, Option.isNone_none, true_and, if_pos hgroup]
    · rename_i hgroup
      refine .recorded _ q.fn _ _ _ ?_
      simp only [logged, hat, Option.bind_some, hfolder, Option.isNone_none, true_and, if_neg hgroup]

/-- Every event writes to the table as its kind says. -/
theorem react_written (h : react cfg ipc s e = some t) : Written cfg s e t.db := by
  cases e with
  | schedule groups source isMain uuid fields =>
    cases h
    rcases handleScheduleTask_created ipc groups source isMain ⟨s.now,uuid,none⟩ ⟨s.db,[]⟩ fields with
      hs | ⟨task,db,hdb,hactive,hnext,hs⟩ <;> simp only [System.schedule, hs]
    · exact .same _ rfl
    · exact .created _ task db rfl hdb hactive hnext
  | system a =>
    cases a with
    | tick now =>
      simp only [react, step] at h
      split at h
      · cases h
        exact .same _ rfl
      · cases h
    | poll =>
      cases h
      exact .same _ rfl
    | mutate source isMain payloadType taskId =>
      cases h
      exact .mutated source isMain payloadType taskId
    | enqueueMessageCheck g =>
      have hmove : s.moveQueue (.enqueueMessageCheck g) = some t := h
      exact moveQueue_db hmove ▸ .same _ rfl
    | notifyIdle g =>
      have hmove : s.moveQueue (.notifyIdle g) = some t := h
      exact moveQueue_db hmove ▸ .same _ rfl
    | fireRetry i =>
      have hmove : s.moveQueue (.fireRetry i) = some t := h
      exact moveQueue_db hmove ▸ .same _ rfl
    | begin i groups =>
      simp only [react, step] at h
      split at h
      · rename_i b g q hat
        split at h
        · cases h
        · cases h
          exact beginTask_written hat groups
      · rename_i hat
        have hlogged : logged cfg s (.system (.begin i groups)) = none := by simp [logged, hat]
        exact moveQueue_db h ▸ .same _ hlogged
    | finishMessages i outcome =>
      simp only [react, step] at h
      split at h
      · cases h
      · exact moveQueue_db h ▸ .same _ rfl
    | finishTask i outcome durationMs =>
      simp only [react, step] at h
      split at h
      · rename_i b g q hat
        split at h
        · cases h
          cases outcome with
          | returned result => exact .recorded _ q.fn result none durationMs (by simp [logged, hat])
          | raised error => exact .recorded _ q.fn none (some error) durationMs (by simp [logged, hat])
          | unencodable => exact .same _ (by simp [logged, hat])
        · cases h
      · cases h

section Logs

/-- Every log has the row of its task. -/
def LogsHaveTasks (db : TaskDb) : Prop := ∀ l ∈ db.logs, db.getTaskById l.taskId ≠ none

/-- A run that ends with something to log still has a row under the id of its task. -/
def LogsUnderRow (cfg : Config) (s : System) (e : Event) : Prop :=
  ∀ id ∈ logged cfg s e, s.db.getTaskById id ≠ none

variable {db db' : TaskDb}

theorem updateStatus_eq_none {taskId id : String} {status : TaskStatus} :
    (db.updateStatus taskId status).getTaskById id = none ↔ db.getTaskById id = none := by
  rw [TaskDb.getTaskById_updateStatus]
  split
  · rename_i hid
    rw [hid, Option.map_eq_none_iff]
  · rfl

theorem recordRun_eq_none {now : Int} {task : ScheduledTask} {result error : Option String}
    {durationMs : Int} {id : String} :
    (recordRun cfg db now task result error durationMs).getTaskById id = none ↔
      db.getTaskById id = none := by
  rw [recordRun]
  split
  · rw [TaskDb.getTaskById_updateTaskAfterRun]
    split
    · rename_i hid
      rw [hid, Option.map_eq_none_iff, TaskDb.getTaskById_logTaskRun]
    · rw [TaskDb.getTaskById_logTaskRun]
  · rw [TaskDb.getTaskById_logTaskRun]

theorem recordRun_logs (cfg : Config) (db : TaskDb) (now : Int) (task : ScheduledTask)
    (result error : Option String) (durationMs : Int) :
    ∃ log, log.taskId = task.id ∧
      (recordRun cfg db now task result error durationMs).logs = db.logs ++ [log] := by
  rw [recordRun]
  split
  · exact ⟨_,rfl,rfl⟩
  · exact ⟨_,rfl,rfl⟩

/-- One more log, over the same ids. -/
private theorem logsHaveTasks_snoc (h : LogsHaveTasks db) {log : TaskRunLog}
    (hrows : ∀ id, db'.getTaskById id = none ↔ db.getTaskById id = none)
    (hlogs : db'.logs = db.logs ++ [log]) :
    LogsHaveTasks db' ↔ db.getTaskById log.taskId ≠ none := by
  simp only [LogsHaveTasks, hlogs, List.mem_append, List.mem_singleton, ne_eq, hrows]
  constructor
  · intro h'
    exact h' log (Or.inr rfl)
  · rintro hlog l (hl | rfl)
    · exact h l hl
    · exact hlog

/-- No request leaves a log behind whose task it deletes. -/
theorem logsHaveTasks_mutate (h : LogsHaveTasks db) (source : String) (isMain : Bool)
    (payloadType taskId : Json) :
    LogsHaveTasks (handleTaskMutation source isMain ⟨db,[]⟩ payloadType taskId).state.db := by
  have hstatus : ∀ id status, LogsHaveTasks (db.updateStatus id status) :=
    fun id status l hl hnone => h l hl (updateStatus_eq_none.mp hnone)
  rcases handleTaskMutation_cases source isMain ⟨db,[]⟩ payloadType taskId with
    hs | ⟨task,_,_,_,⟨_,hs⟩ | ⟨_,hs⟩ | ⟨_,hs⟩⟩ <;> rw [hs]
  · exact h
  · exact hstatus _ _
  · exact hstatus _ _
  · intro l hl hnone
    obtain ⟨hl,hne⟩ := List.mem_filter.mp hl
    rw [TaskDb.getTaskById_deleteTask, if_neg (of_decide_eq_true hne)] at hnone
    exact h l hl hnone

/-- After an event every log has its task exactly when the event logs under a row. -/
theorem Written.logsHaveTasks_iff (h : LogsHaveTasks s.db) (hw : Written cfg s e db) :
    LogsHaveTasks db ↔ LogsUnderRow cfg s e := by
  cases hw with
  | same _ hlogged => simp [LogsUnderRow, hlogged, h]
  | created _ task _ hlogged hdb _ _ =>
    have hlogs : LogsHaveTasks db := by
      obtain ⟨_,_,hsame⟩ := TaskDb.createTask_eq_some hdb
      intro l hl hnone
      rw [TaskDb.getTaskById_createTask hdb] at hnone
      split at hnone
      · cases hnone
      · exact h l (hsame ▸ hl) hnone
    simp [LogsUnderRow, hlogged, hlogs]
  | mutated source isMain payloadType taskId =>
    have hlogs := logsHaveTasks_mutate h source isMain payloadType taskId
    simp [LogsUnderRow, logged, hlogs]
  | refused _ log hlogged =>
    rw [LogsUnderRow, hlogged]
    refine (logsHaveTasks_snoc h (fun id => ?_) rfl).trans (by simp)
    exact updateStatus_eq_none
  | recorded _ task result error durationMs hlogged =>
    rw [LogsUnderRow, hlogged]
    obtain ⟨log,hlog,hlogs⟩ := recordRun_logs cfg s.db s.now task result error durationMs
    refine (logsHaveTasks_snoc h (fun id => recordRun_eq_none) hlogs).trans ?_
    simp [hlog]

/-- In every run of the scheduler and of requests, from any table whose logs have their tasks: the
logs have their tasks in every state exactly when every run that ends with something to log has a
row under the id of its task. -/
theorem logs_have_tasks_iff {as : List Event} {s₀ : System} (h : LogsHaveTasks s₀.db)
    (he : exec (react cfg ipc) s₀ as = some s) :
    (∀ n t, exec (react cfg ipc) s₀ (as.take n) = some t → LogsHaveTasks t.db) ↔
      Allowed (react cfg ipc) (LogsUnderRow cfg) s₀ as :=
  (allowed_iff_prefixes (I := fun _ => True) (P := fun s => LogsHaveTasks s.db) (fun _ _ _ _ _ => trivial)
    (fun _ _ _ _ hP hstep => (react_written hstep).logsHaveTasks_iff hP) trivial h he).symm

end Logs

section Runs

def requestLib : Ipc.Lib := ⟨⟨String.ofList,10⟩,fun _ _ => .error .valueError⟩

/-- The main group asks for a task with the id `t`. -/
def scheduleT (scheduleType scheduleValue : String) : Event :=
  .schedule mainGroups "main" true "u"
    [("targetJid",.str "local:main"),("prompt",.str "hi"),("schedule_type",.str scheduleType),
      ("schedule_value",.str scheduleValue),("taskId",.str "t")]

/-- The task `t` is created and its first run started. -/
def firstRun (scheduleType scheduleValue : String) : List Event :=
  [scheduleT scheduleType scheduleValue,.system (.tick (newYear + 3600000000)),.system .poll,
    .system (.begin 0 mainGroups)]

def request (payloadType : String) : Event :=
  .system (.mutate "main" true (.str payloadType) (.str "t"))

def finish : Event := .system (.finishTask 0 (.returned none) 0)

/-- A system on an empty table at the beginning of 2026. -/
private def atNewYear : System := .init 1 5 5000 300000 true true TaskDb.empty newYear

theorem logs_have_tasks_iff_hourly :
    ∃ s, exec (react localCfg requestLib) atNewYear
        (firstRun "interval" "3600000" ++ [finish]) = some s ∧
      s.db.logs.length = 1 ∧
      ((∀ n t, exec (react localCfg requestLib) atNewYear
          ((firstRun "interval" "3600000" ++ [finish]).take n) = some t → LogsHaveTasks t.db) ↔
        Allowed (react localCfg requestLib) (LogsUnderRow localCfg) atNewYear
          (firstRun "interval" "3600000" ++ [finish])) := by
  have hrun : (exec (react localCfg requestLib) atNewYear
      (firstRun "interval" "3600000" ++ [finish])).map (fun s => s.db.logs.length) = some 1 := by
    decide +kernel
  obtain ⟨s,hs,hlength⟩ := Option.map_eq_some_iff.mp hrun
  exact ⟨s,hs,hlength,logs_have_tasks_iff (fun l hl => (by cases hl)) hs⟩

/-- A task that is cancelled while it runs: its log comes after its row is gone. -/
theorem cancelled_run_logs :
    ∃ s, exec (react localCfg requestLib) atNewYear
        (firstRun "interval" "3600000" ++ [request "cancel_task",finish]) = some s ∧
      ¬LogsHaveTasks s.db := by
  have hrun : (exec (react localCfg requestLib) atNewYear
      (firstRun "interval" "3600000" ++ [request "cancel_task",finish])).map
        (fun s => (s.db.logs.map (·.taskId),s.db.getTaskById "t")) = some (["t"],none) := by
    decide +kernel
  obtain ⟨s,hs,hfound⟩ := Option.map_eq_some_iff.mp hrun
  obtain ⟨hlogs,hrow⟩ := Prod.mk.inj hfound
  refine ⟨s,hs,fun h => ?_⟩
  obtain ⟨log,hlog,hid⟩ := List.mem_map.mp (hlogs ▸ List.mem_singleton_self "t")
  exact h log hlog (hid ▸ hrow)

end Runs

end NanoClaw.Tasks
