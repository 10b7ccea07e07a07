import NanoClaw.Library.Table
import Mathlib.Data.List.Sort
import Mathlib.Data.String.Basic

/-! The table of scheduled tasks with the logs of their runs. -/
namespace NanoClaw.Store

inductive ScheduleType where
  | cron
  | interval
  | once
  deriving DecidableEq, Repr

inductive ContextMode where
  | group
  | isolated
  deriving DecidableEq, Repr

inductive TaskStatus where
  | active
  | paused
  | completed
  deriving DecidableEq, Repr

structure ScheduledTask where
  id : String
  groupFolder : String
  chatJid : String
  prompt : String
  scheduleType : ScheduleType
  scheduleValue : String
  contextMode : ContextMode
  nextRun : Option String
  lastRun : Option String
  lastResult : Option String
  status : TaskStatus
  createdAt : String
  deriving DecidableEq, Repr

structure TaskRunLog where
  taskId : String
  runAt : String
  durationMs : Int
  failed : Bool
  result : Option String
  error : Option String
  deriving DecidableEq, Repr

abbrev TaskTable := Table ScheduledTask.id

structure TaskDb where
  tasks : TaskTable
  logs : List TaskRunLog

namespace TaskDb

def empty : TaskDb := ⟨Table.empty,[]⟩

variable (db : TaskDb)

/-- `create_task`; none stands for `sqlite3.IntegrityError`. -/
def createTask (task : ScheduledTask) : Option TaskDb :=
  (db.tasks.insert task).map (fun tasks => { db with tasks := tasks })

def getTaskById (taskId : String) : Option ScheduledTask := db.tasks.find? taskId

/-- `update_task(task_id, status=...)`. -/
def updateStatus (taskId : String) (status : TaskStatus) : TaskDb :=
  { db with tasks := db.tasks.modify taskId (fun r => { r with status := status }) (fun _ => rfl) }

/-- `update_task_after_run`: without a next run the task is completed. -/
def updateTaskAfterRun (taskId : String) (nextRun : Option String) (lastResult now : String) :
    TaskDb :=
  { db with
    tasks := db.tasks.modify taskId
      (fun r =>
        { r with
          nextRun := nextRun
          lastRun := some now
          lastResult := some lastResult
          status := if nextRun = none then .completed else r.status })
      (fun _ => rfl) }

/-- `delete_task`: the task goes with its logs. -/
def deleteTask (taskId : String) : TaskDb where
  tasks := db.tasks.erase taskId
  logs := db.logs.filter (fun l => l.taskId ≠ taskId)

def logTaskRun (log : TaskRunLog) : TaskDb := { db with logs := db.logs ++ [log] }

/-- The `WHERE` clause of `get_due_tasks`. -/
def IsDue (now : String) (task : ScheduledTask) : Prop :=
  task.status = .active ∧ ∃ nextRun ∈ task.nextRun, nextRun ≤ now

instance (now : String) (task : ScheduledTask) : Decidable (IsDue now task) := by
  unfold IsDue
  infer_instance

/-- `get_due_tasks`. The order in which SQLite visits rows decides between equal times. -/
def getDueTasks (scan : List ScheduledTask → List ScheduledTask) (now : String) :
    List ScheduledTask :=
  (scan (db.tasks.rows.filter (fun r => IsDue now r))).insertionSort
    (fun a b => a.nextRun.getD "" ≤ b.nextRun.getD "")

variable {db} {task : ScheduledTask}

theorem createTask_eq_none_iff : db.createTask task = none ↔ db.getTaskById task.id ≠ none := by
  rw [createTask, Option.map_eq_none_iff, Table.insert_eq_none_iff]
  rfl

theorem createTask_eq_some {db' : TaskDb} (h : db.createTask task = some db') :
    db.getTaskById task.id = none ∧ db'.tasks.rows = db.tasks.rows ++ [task] ∧ db'.logs = db.logs := by
  obtain ⟨tasks,htasks,rfl⟩ := Option.map_eq_some_iff.mp h
  obtain ⟨hnew,hrows⟩ := Table.insert_eq_some_iff.mp htasks
  exact ⟨hnew,hrows,rfl⟩

@[simp] theorem getTaskById_logTaskRun (log : TaskRunLog) (id : String) :
    (db.logTaskRun log).getTaskById id = db.getTaskById id := rfl

theorem getTaskById_eq_some_iff {id : String} :
    db.getTaskById id = some task ↔ task ∈ db.tasks.rows ∧ task.id = id := Table.find?_eq_some_iff

theorem getTaskById_createTask {db' : TaskDb} (h : db.createTask task = some db') (id : String) :
    db'.getTaskById id = if id = task.id then some task else db.getTaskById id := by
  obtain ⟨hnew,hrows,_⟩ := createTask_eq_some h
  rw [getTaskById, Table.find?, hrows, List.find?_append, ← Table.find?, ← getTaskById]
  split
  · rename_i hid
    rw [hid, hnew]
    simp
  · rename_i hid
    simp [Ne.symm hid]

theorem getTaskById_updateStatus (taskId id : String) (status : TaskStatus) :
    (db.updateStatus taskId status).getTaskById id =
      if id = taskId then (db.getTaskById taskId).map (fun r => { r with status := status })
      else db.getTaskById id := by
  refine Table.find?_modify ?_
  exact fun _ => rfl

theorem getTaskById_updateTaskAfterRun (taskId id : String) (nextRun : Option String)
    (lastResult now : String) :
    (db.updateTaskAfterRun taskId nextRun lastResult now).getTaskById id =
      if id = taskId then
        (db.getTaskById taskId).map (fun r =>
          { r with
            nextRun := nextRun
            lastRun := some now
            lastResult := some lastResult
            status := if nextRun = none then .completed else r.status })
      else db.getTaskById id := by
  refine Table.find?_modify ?_
  exact fun _ => rfl

theorem getTaskById_deleteTask (taskId id : String) :
    (db.deleteTask taskId).getTaskById id = if id = taskId then none else db.getTaskById id :=
  Table.find?_erase

theorem mem_getDueTasks {scan : List ScheduledTask → List ScheduledTask}
    (hscan : ∀ rows, (scan rows).Perm rows) {now : String} :
    task ∈ db.getDueTasks scan now ↔ db.getTaskById task.id = some task ∧ IsDue now task := by
  rw [getDueTasks, List.mem_insertionSort, (hscan _).mem_iff, List.mem_filter,
    getTaskById_eq_some_iff, and_iff_left rfl, decide_eq_true_eq]

end TaskDb
end NanoClaw.Store
