import NanoClaw.Ipc.Watcher
import NanoClaw.Library.Execution
import NanoClaw.Queue.GroupQueue
import NanoClaw.Tasks.NextRun

/-! The task scheduler with the queue it feeds, its table, and requests that change the table
while tasks wait or run. -/
namespace NanoClaw.Tasks
open Store Calendar IsoText

/-- `escapes` is where a folder leads when that lies outside the groups directory, and `scan`
the order in which SQLite visits rows. -/
structure Config where
  lib : Lib
  escapes : String → Option String
  scan : List ScheduledTask → List ScheduledTask
  scan_perm : ∀ rows, (scan rows).Perm rows

/-- A call of `run_task_fn`: the task it is given, and the row of the task at that moment. -/
structure Invocation where
  task : ScheduledTask
  row : Option ScheduledTask

/-- The occurrence that a run of a task is for. -/
def occurrence (task : ScheduledTask) : String × Option String := (task.id,task.nextRun)

/-- The chat and the kind of schedule of a row, which no operation changes. -/
def plan (row : ScheduledTask) : String × ScheduleType := (row.chatJid,row.scheduleType)

/-- The closures in the queue are the rows they have captured. `started` lists the calls of
`run_task_fn`; the code keeps no such list. -/
structure System where
  queue : GroupQueue ScheduledTask
  db : TaskDb
  now : Int
  started : List Invocation

/-- How `run_task_fn` ends. A result or an error text with a lone surrogate fits no column. -/
inductive TaskOutcome where
  | returned (result : Option String)
  | raised (error : String)
  | unencodable

/-- `resolve_group_folder_path`: the text of the `ValueError`, if it raises. -/
def folderError (cfg : Config) (folder : String) : Option String :=
  if isValidGroupFolder folder then
    (cfg.escapes folder).map (fun path => "Path escapes base directory: " ++ path)
  else some ("Invalid group folder \"" ++ folder ++ "\"")

/-- `f"Error: {error}" if error else ((result or "Completed")[:200])`. -/
def runSummary (result error : Option String) : String :=
  match error.filter (· ≠ "") with
  | some error => "Error: " ++ error
  | none => String.ofList (((result.filter (· ≠ "")).getD "Completed").toList.take 200)

/-- `_run_and_record` behind the run. When there is no next run to compute, the log is all
that is left of it. -/
def recordRun (cfg : Config) (db : TaskDb) (now : Int) (task : ScheduledTask)
    (result error : Option String) (durationMs : Int) : TaskDb :=
  let db := db.logTaskRun
    { taskId := task.id
      runAt := utcIso now
      durationMs := durationMs
      failed := (error.filter (· ≠ "")).isSome
      result := result
      error := error }
  match computeNextRun cfg.lib now task with
  | .ok nextRun => db.updateTaskAfterRun task.id nextRun (runSummary result error) (utcIso now)
  | .error _ => db

def recordOutcome (cfg : Config) (db : TaskDb) (now : Int) (task : ScheduledTask)
    (durationMs : Int) : TaskOutcome → TaskDb
  | .returned result => recordRun cfg db now task result none durationMs
  | .raised error => recordRun cfg db now task none (some error) durationMs
  | .unencodable => db

namespace System
variable (s : System)

/-- One turn of the loop in `run_once`. -/
def enqueueDue (queue : GroupQueue ScheduledTask) (task : ScheduledTask) : GroupQueue ScheduledTask :=
  match s.db.getTaskById task.id with
  | some current =>
    if current.status = .active then queue.enqueueTask current.chatJid current.id current else queue
  | none => queue

def runOnce (cfg : Config) : System :=
  { s with
    queue := (s.db.getDueTasks cfg.scan (utcIso s.now)).foldl s.enqueueDue s.queue }

/-- `_handle_task_mutation` for a request from a group's directory. -/
def mutate (source : String) (isMain : Bool) (payloadType taskId : Json) : System :=
  { s with db := (Ipc.handleTaskMutation source isMain ⟨s.db,[]⟩ payloadType taskId).state.db }

/-- The task whose coroutine is at a place of the event loop, with its group. -/
def taskAt (i : Nat) : Option (Background ScheduledTask × String × QueuedTask ScheduledTask) :=
  match s.queue.backgroundTasks[i]? with
  | some b =>
    match b.coro with
    | .runTask g task => some (b,g,task)
    | _ => none
  | none => none

/-- A task that has not called `run_task_fn` is at its end when it first runs. -/
def endAtOnce (i : Nat) (groupJid taskId : String) (db : TaskDb) : System :=
  { s with
    queue := ((s.queue.record (.taskInvoked groupJid taskId)).dropTask i).endRunTask groupJid
    db := db }

/-- `_run_and_record` up to its await, for the coroutine at a place of the event loop. -/
def beginTask (cfg : Config) (groups : Groups) (i : Nat) (b : Background ScheduledTask)
    (groupJid : String) (task : QueuedTask ScheduledTask) : System :=
  match folderError cfg task.fn.groupFolder with
  | some error =>
    s.endAtOnce i groupJid task.id
      ((s.db.updateStatus task.fn.id .paused).logTaskRun ⟨task.fn.id,utcIso s.now,0,true,none,some error⟩)
  | none =>
    if groups.values.any (fun group => group.folder = task.fn.groupFolder) then
      { s with
        queue := (s.queue.parkTask i b).record (.taskInvoked groupJid task.id)
        started := s.started ++ [⟨task.fn,s.db.getTaskById task.fn.id⟩] }
    else
      s.endAtOnce i groupJid task.id (recordRun cfg s.db s.now task.fn none
        (some ("Group not found: " ++ task.fn.groupFolder)) 0)

/-- A move of the queue alone. -/
def moveQueue (a : GroupQueue.Action ScheduledTask) : Option System :=
  (s.queue.step a).map (fun queue => { s with queue := queue })

end System

/-- `tick` reads a later clock, `poll` is `run_once`, and `mutate` a request. The other actions
are the queue's: `begin` names the registered groups at that moment, and the end of a task
what came of it. -/
inductive Action where
  | tick (now : Int)
  | poll
  | mutate (source : String) (isMain : Bool) (payloadType taskId : Json)
  | enqueueMessageCheck (groupJid : String)
  | notifyIdle (groupJid : String)
  | fireRetry (i : Nat)
  | begin (i : Nat) (groups : Groups)
  | finishMessages (i : Nat) (outcome : Outcome)
  | finishTask (i : Nat) (outcome : TaskOutcome) (durationMs : Int)

variable (cfg : Config)

def step (s : System) : Action → Option System
  | .tick now => if s.now ≤ now ∧ InRange now then some { s with now := now } else none
  | .poll => some (s.runOnce cfg)
  | .mutate source isMain payloadType taskId => some (s.mutate source isMain payloadType taskId)
  | .enqueueMessageCheck g => s.moveQueue (.enqueueMessageCheck g)
  | .notifyIdle g => s.moveQueue (.notifyIdle g)
  | .fireRetry i => s.moveQueue (.fireRetry i)
  | .begin i groups =>
    match s.taskAt i with
    | some (b,g,task) =>
      if b.started ∨ b.cancelled then none else some (s.beginTask cfg groups i b g task)
    | none => s.moveQueue (.begin i)
  | .finishMessages i outcome =>
    match s.taskAt i with
    | some _ => none
    | none => s.moveQueue (.finish i outcome)
  | .finishTask i outcome durationMs =>
    match s.taskAt i with
    | some (b,g,task) =>
      if b.started then
        some { s with
          queue := (s.queue.dropTask i).endRunTask g
          db := recordOutcome cfg s.db s.now task.fn durationMs outcome }
      else none
    | none => none

/-- A system whose process has just started on this table. -/
def System.init (maxConcurrent maxRetries baseRetryMs maxRetryMs : Int)
    (processMessagesFn closeStdinFn : Bool) (db : TaskDb) (now : Int) : System where
  queue := GroupQueue.init maxConcurrent maxRetries baseRetryMs maxRetryMs processMessagesFn closeStdinFn
  db := db
  now := now
  started := []

section Rows
variable {cfg : Config} {db : TaskDb} {row' : ScheduledTask} {id : String}

theorem updateStatus_row {taskId : String} {status : TaskStatus}
    (h : (db.updateStatus taskId status).getTaskById id = some row') :
    ∃ row, db.getTaskById id = some row ∧ plan row' = plan row ∧ row'.nextRun = row.nextRun := by
  rw [TaskDb.getTaskById_updateStatus] at h
  split at h
  · rename_i he
    subst he
    obtain ⟨row,hrow,rfl⟩ := Option.map_eq_some_iff.mp h
    exact ⟨row,hrow,rfl,rfl⟩
  · exact ⟨row',h,rfl,rfl⟩

/-- A request changes neither the plan nor the next run of a row it leaves. -/
theorem handleTaskMutation_row {source : String} {isMain : Bool} {payloadType taskId : Json}
    {sends : List (Json × Json)}
    (h : (Ipc.handleTaskMutation source isMain ⟨db,sends⟩ payloadType taskId).state.db.getTaskById id =
      some row') :
    ∃ row, db.getTaskById id = some row ∧ plan row' = plan row ∧ row'.nextRun = row.nextRun := by
  rcases Ipc.handleTaskMutation_cases source isMain ⟨db,sends⟩ payloadType taskId with
    hs | ⟨task,_,_,_,⟨_,hs⟩ | ⟨_,hs⟩ | ⟨_,hs⟩⟩ <;> rw [hs] at h
  · exact ⟨row',h,rfl,rfl⟩
  · exact updateStatus_row h
  · exact updateStatus_row h
  · rw [TaskDb.getTaskById_deleteTask] at h
    split at h
    · cases h
    · exact ⟨row',h,rfl,rfl⟩

/-- A request that pauses or cancels a task it may change. -/
def Stops (db : TaskDb) (source : String) (isMain : Bool) (payloadType taskId : Json)
    (id : String) : Prop :=
  taskId = .str id ∧
    (Ipc.isStr payloadType "pause_task" = true ∨ Ipc.isStr payloadType "cancel_task" = true) ∧
    ∃ row, db.getTaskById id = some row ∧ (isMain = true ∨ row.groupFolder = source)

/-- An active row stays active through every request but those. -/
theorem handleTaskMutation_active {source : String} {isMain : Bool} {payloadType taskId : Json}
    {sends : List (Json × Json)} {row : ScheduledTask} (hrow : db.getTaskById id = some row)
    (hactive : row.status = .active) (hstops : ¬Stops db source isMain payloadType taskId id) :
    ∃ row', (Ipc.handleTaskMutation source isMain ⟨db,sends⟩ payloadType taskId).state.db.getTaskById
      id = some row' ∧ row'.status = .active := by
  rcases Ipc.handleTaskMutation_cases source isMain ⟨db,sends⟩ payloadType taskId with
    hs | ⟨task,htask,rfl,hmay,hcase⟩
  · rw [hs]
    exact ⟨row,hrow,hactive⟩
  · rcases eq_or_ne id task.id with rfl | hne
    · rcases hcase with ⟨hpause,_⟩ | ⟨_,hs⟩ | ⟨hcancel,_⟩
      · exact absurd ⟨rfl,Or.inl hpause,task,htask,hmay⟩ hstops
      · rw [hs, TaskDb.getTaskById_updateStatus, if_pos rfl, hrow]
        exact ⟨_,rfl,rfl⟩
      · exact absurd ⟨rfl,Or.inr hcancel,task,htask,hmay⟩ hstops
    · -- The row of another task is not touched.
      refine ⟨row,?_,hactive⟩
      rcases hcase with ⟨_,hs⟩ | ⟨_,hs⟩ | ⟨_,hs⟩ <;> rw [hs]
      · exact (TaskDb.getTaskById_updateStatus ..).trans ((if_neg hne).trans hrow)
      · exact (TaskDb.getTaskById_updateStatus ..).trans ((if_neg hne).trans hrow)
      · exact (TaskDb.getTaskById_deleteTask ..).trans ((if_neg hne).trans hrow)

variable {now : Int} {task : ScheduledTask} {result error : Option String} {durationMs : Int}

theorem recordRun_ne (hid : id ≠ task.id) :
    (recordRun cfg db now task result error durationMs).getTaskById id = db.getTaskById id := by
  simp only [recordRun]
  split
  · rw [TaskDb.getTaskById_updateTaskAfterRun, if_neg hid, TaskDb.getTaskById_logTaskRun]
  · rfl

/-- The row of the task that ran gets the next run, when one is computed. -/
theorem recordRun_self
    (h : (recordRun cfg db now task result error durationMs).getTaskById task.id = some row') :
    ∃ row, db.getTaskById task.id = some row ∧ plan row' = plan row ∧
      (computeNextRun cfg.lib now task = .ok row'.nextRun ∨
        row' = row ∧ ∃ e, computeNextRun cfg.lib now task = .error e) := by
  simp only [recordRun] at h
  split at h
  · rename_i nextRun hnext
    rw [TaskDb.getTaskById_updateTaskAfterRun, if_pos rfl, TaskDb.getTaskById_logTaskRun] at h
    obtain ⟨row,hrow,rfl⟩ := Option.map_eq_some_iff.mp h
    exact ⟨row,hrow,rfl,Or.inl hnext⟩
  · rename_i e he
    exact ⟨row',h,rfl,Or.inr ⟨rfl,e,he⟩⟩

theorem recordRun_plan
    (h : (recordRun cfg db now task result error durationMs).getTaskById id = some row') :
    ∃ row, db.getTaskById id = some row ∧ plan row' = plan row := by
  rcases eq_or_ne id task.id with rfl | hid
  · obtain ⟨row,hrow,hplan,_⟩ := recordRun_self h
    exact ⟨row,hrow,hplan⟩
  · rw [recordRun_ne hid] at h
    exact ⟨row',h,rfl⟩

theorem recordOutcome_eq (cfg : Config) (db : TaskDb) (now : Int) (task : ScheduledTask)
    (durationMs : Int) {outcome : TaskOutcome} (h : outcome ≠ .unencodable) :
    ∃ result error, recordOutcome cfg db now task durationMs outcome =
      recordRun cfg db now task result error durationMs := by
  cases outcome with
  | returned result => exact ⟨result,none,rfl⟩
  | raised error => exact ⟨none,some error,rfl⟩
  | unencodable => exact absurd rfl h

theorem recordOutcome_ne {outcome : TaskOutcome} (hid : id ≠ task.id) :
    (recordOutcome cfg db now task durationMs outcome).getTaskById id = db.getTaskById id := by
  cases outcome with
  | returned result => exact recordRun_ne hid
  | raised error => exact recordRun_ne hid
  | unencodable => rfl

theorem recordOutcome_plan {outcome : TaskOutcome}
    (h : (recordOutcome cfg db now task durationMs outcome).getTaskById id = some row') :
    ∃ row, db.getTaskById id = some row ∧ plan row' = plan row := by
  cases outcome with
  | returned result => exact recordRun_plan h
  | raised error => exact recordRun_plan h
  | unencodable => exact ⟨row',h,rfl⟩

end Rows

/-- Midnight at the beginning of 2026. -/
def newYear : Int := 63902822400000000

/-- A host in UTC, whose expressions all stand for every minute. -/
def localCfg : Config where
  lib := ⟨⟨fun _ => .ok (fun _ => 0),0⟩,"UTC",fun _ _ base => .ok ((base / 60000000 + 1) * 60000000)⟩
  escapes := fun _ => none
  scan := id
  scan_perm := fun _ => .refl _

end NanoClaw.Tasks
