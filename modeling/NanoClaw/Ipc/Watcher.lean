import NanoClaw.Library.IsoText
import NanoClaw.Library.Json
import NanoClaw.Library.Utf8
import NanoClaw.Messages.Timezone
import NanoClaw.Store.Groups
import NanoClaw.Store.Tasks

/-! The watcher of the IPC directories: the requests of agents, read from files and carried out
for the group whose directory they lie in. -/
namespace NanoClaw.Ipc
open Store Json Calendar IsoFormat IsoText

/-- What requests act on. `sends` lists the calls of `send_message` with both arguments. -/
structure State where
  db : TaskDb
  sends : List (Json × Json)

/-- The interpreter, and `croniter(expression, now).get_next(datetime)` as an instant. -/
structure Lib where
  interp : Interp
  cronNext : Json → Int → Except PyExc Int

/-- The surroundings of one file: the clock, `uuid4` and what `send_message` would raise. -/
structure Env where
  now : Int
  uuid : String
  sendFailure : Option PyExc

/-- How the handling of one file ends. -/
structure Handled where
  exc : Option PyExc
  state : State

/-- `value == text`. -/
def isStr : Json → String → Bool
  | .str s, t => s == t
  | _, _ => false

/-- `groups.get(jid)`. -/
def groupOf (groups : Groups) : Json → Option RegisteredGroup
  | .str jid => groups.get? jid
  | _ => none

/-- `folder_to_is_main.get(folder, False)`: of several groups with a folder the last one counts. -/
def isMainFolder (groups : Groups) (folder : String) : Bool :=
  (groups.values.reverse.find? (fun g => g.folder = folder)).any (fun g => g.isMain = some true)

/-- The instant of an interval task's first run. -/
def firstInterval (now ms : Int) : Except PyExc (Option Int) :=
  if ms ≤ 0 then .ok none
  else if InRange (now + ms * 1000) then .ok (some (now + ms * 1000))
  else .error .overflowError

def firstOnce (scheduleValue : String) : Except PyExc (Option Int) :=
  match Timezone.parseIsoTimestamp scheduleValue with
  | .ok t => .ok (some t)
  | .error .valueError => .ok none
  | .error e => .error e

/-- `_compute_first_run`, with the type it has recognised. -/
def computeFirstRun (lib : Lib) (now : Int) (scheduleType scheduleValue : Json) :
    Except PyExc (Option (ScheduleType × Int)) :=
  if isStr scheduleType "cron" then
    (lib.cronNext scheduleValue now).map (fun t => some (.cron,t))
  else
    match scheduleValue with
    | .str value =>
      if isStr scheduleType "interval" then
        match PyText.int? value.toList with
        | none => .ok none
        | some ms => (firstInterval now ms).map (·.map (fun t => (.interval,t)))
      else if isStr scheduleType "once" then (firstOnce value).map (·.map (fun t => (.once,t)))
      else .ok none
    | _ => .ok none

section Payloads
variable (lib : Lib) (groups : Groups) (source : String) (isMain : Bool) (env : Env)

/-- Whether a request from the source directory may act on a chat. -/
def ownsChat (chatJid : Json) : Bool :=
  (groupOf groups chatJid).any (fun g => g.folder = source)

/-- The turn of `_process_messages` for one decoded file. -/
def processMessagePayload (s : State) : Json → Handled
  | .obj fields =>
    let chatJid := getKey "chatJid" fields
    let text := getKey "text" fields
    if isStr (getKey "type" fields) "message" && chatJid.isText && text.isText &&
        (isMain || ownsChat groups source chatJid) then
      ⟨env.sendFailure,{ s with sends := s.sends ++ [(chatJid,text)] }⟩
    else ⟨none,s⟩
  | _ => ⟨some .attributeError,s⟩

/-- The id of a new task; none for a text no column takes. -/
def newTaskId (taskId : Json) : Option String :=
  match taskId with
  | .str id => some id
  | .illFormed _ => none
  | _ => some ("task-" ++ env.uuid)

/-- `create_task` with values that may have lone surrogates. -/
def storeTask (s : State) (folder : String) (fields : List (String × Json))
    (schedule : ScheduleType × Int) : Handled :=
  match newTaskId env (getKey "taskId" fields), getKey "targetJid" fields, getKey "prompt" fields,
      getKey "schedule_value" fields with
  | some id, .str chatJid, .str prompt, .str scheduleValue =>
    let task : ScheduledTask :=
      { id := id
        groupFolder := folder
        chatJid := chatJid
        prompt := prompt
        scheduleType := schedule.1
        scheduleValue := scheduleValue
        contextMode := if isStr (getKey "context_mode" fields) "group" then .group else .isolated
        nextRun := some (utcIso schedule.2)
        lastRun := none
        lastResult := none
        status := .active
        createdAt := utcIso env.now }
    match s.db.createTask task with
    | none => ⟨some .integrityError,s⟩
    | some db => ⟨none,{ s with db := db }⟩
  | _, _, _, _ => ⟨some .unicodeEncodeError,s⟩

def handleScheduleTask (s : State) (fields : List (String × Json)) : Handled :=
  let targetJid := getKey "targetJid" fields
  let scheduleType := getKey "schedule_type" fields
  let scheduleValue := getKey "schedule_value" fields
  if ¬(targetJid.isText && (getKey "prompt" fields).isText && scheduleType.isText &&
      scheduleValue.isText) then ⟨none,s⟩
  else
    match groupOf groups targetJid with
    | none => ⟨none,s⟩
    | some target =>
      if ¬isMain ∧ target.folder ≠ source then ⟨none,s⟩
      else
        match computeFirstRun lib env.now scheduleType scheduleValue with
        | .error e => ⟨some e,s⟩
        | .ok none => ⟨none,s⟩
        | .ok (some schedule) => storeTask env s target.folder fields schedule

def handleTaskMutation (s : State) (payloadType taskId : Json) : Handled :=
  match taskId with
  | .str id =>
    match s.db.getTaskById id with
    | none => ⟨none,s⟩
    | some task =>
      if ¬isMain ∧ task.groupFolder ≠ source then ⟨none,s⟩
      else if isStr payloadType "pause_task" then ⟨none,{ s with db := s.db.updateStatus id .paused }⟩
      else if isStr payloadType "resume_task" then ⟨none,{ s with db := s.db.updateStatus id .active }⟩
      else if isStr payloadType "cancel_task" then ⟨none,{ s with db := s.db.deleteTask id }⟩
      else ⟨none,s⟩
  | .illFormed _ => ⟨some .unicodeEncodeError,s⟩
  | _ => ⟨none,s⟩

/-- `_process_task_payload`. -/
def processTaskPayload (s : State) : Json → Handled
  | .obj fields =>
    if isStr (getKey "type" fields) "schedule_task" then
      handleScheduleTask lib groups source isMain env s fields
    else handleTaskMutation source isMain s (getKey "type" fields) (getKey "taskId" fields)
  | _ => ⟨some .attributeError,s⟩

end Payloads

/-- One file with the surroundings it will be handled in. -/
structure File where
  bytes : List UInt8
  env : Env

/-- `json.loads(file_path.read_text(encoding="utf-8"))`. -/
def readJson (interp : Interp) (f : File) : Except PyExc Json :=
  match Utf8.decode? f.bytes with
  | none => .error .unicodeDecodeError
  | some text => loads interp text

/-- The exceptions the two loops log and swallow. -/
def isCaught : PyExc → Bool
  | .keyError | .typeError | .osError => true
  | e => e.isValueError

/-- One turn of a loop; an exception it does not swallow is left. -/
def handleFile (lib : Lib) (process : Env → State → Json → Handled) (s : State) (f : File) : Handled :=
  let h : Handled :=
    match readJson lib.interp f with
    | .error e => ⟨some e,s⟩
    | .ok data => process f.env s data
  { h with exc := h.exc.filter (fun e => !isCaught e) }

/-- A loop over files: every file it comes to is removed, also the one whose exception ends it. -/
def processFiles (handle : State → File → Handled) (s : State) : List File → Handled × List File
  | [] => (⟨none,s⟩,[])
  | f :: fs =>
    match (handle s f).exc with
    | some e => (⟨some e,(handle s f).state⟩,fs)
    | none => processFiles handle (handle s f).state fs

/-- A group's directory with its `*.json` files, each list in the order of their names. -/
structure GroupDir where
  name : String
  messages : List File
  tasks : List File

section Watcher
variable (lib : Lib) (groups : Groups)

def handleMessage (source : String) : State → File → Handled :=
  handleFile lib (fun env => processMessagePayload groups source (isMainFolder groups source) env)

def handleTask (source : String) : State → File → Handled :=
  handleFile lib (fun env => processTaskPayload lib groups source (isMainFolder groups source) env)

/-- The body of `run_once` for one directory; the snapshot at its end refuses a directory whose
name is no group folder. -/
def processGroupDir (s : State) (d : GroupDir) : Handled × GroupDir :=
  match processFiles (handleMessage lib groups d.name) s d.messages with
  | (⟨some e, s⟩, left) => (⟨some e,s⟩,{ d with messages := left })
  | (⟨none, s⟩, left) =>
    match processFiles (handleTask lib groups d.name) s d.tasks with
    | (⟨some e, s⟩, left') => (⟨some e,s⟩,⟨d.name,left,left'⟩)
    | (⟨none, s⟩, left') =>
      (⟨if isValidGroupFolder d.name then none else some .valueError,s⟩,⟨d.name,left,left'⟩)

/-- `run_once` over the directories in the order of their names, and the files it leaves. -/
def runOnce (s : State) : List GroupDir → Handled × List GroupDir
  | [] => (⟨none,s⟩,[])
  | d :: ds =>
    if d.name = "errors" then ((runOnce s ds).1,d :: (runOnce s ds).2)
    else
      match processGroupDir lib groups s d with
      | (⟨some e, s⟩, d) => (⟨some e,s⟩,d :: ds)
      | (⟨none, s⟩, d) => ((runOnce s ds).1,d :: (runOnce s ds).2)

end Watcher

/-- What a request for a task can do: it acts on a task it may change, or on nothing. -/
theorem handleTaskMutation_cases (source : String) (isMain : Bool) (s : State)
    (payloadType taskId : Json) :
    (handleTaskMutation source isMain s payloadType taskId).state = s ∨
      ∃ task, s.db.getTaskById task.id = some task ∧ taskId = .str task.id ∧
        (isMain = true ∨ task.groupFolder = source) ∧
        ((isStr payloadType "pause_task" = true ∧
            (handleTaskMutation source isMain s payloadType taskId).state =
              { s with db := s.db.updateStatus task.id .paused }) ∨
          (isStr payloadType "resume_task" = true ∧
            (handleTaskMutation source isMain s payloadType taskId).state =
              { s with db := s.db.updateStatus task.id .active }) ∨
          (isStr payloadType "cancel_task" = true ∧
            (handleTaskMutation source isMain s payloadType taskId).state =
              { s with db := s.db.deleteTask task.id })) := by
  cases taskId with
  | str id =>
    simp only [handleTaskMutation]
    split
    · exact Or.inl rfl
    · rename_i task htask
      obtain ⟨_,rfl⟩ := TaskDb.getTaskById_eq_some_iff.mp htask
      split_ifs with hmay hpause hresume hcancel
      · exact Or.inl rfl
      all_goals
        have hmay : isMain = true ∨ task.groupFolder = source := by
          rcases isMain with _ | _
          · exact Or.inr (by simpa using hmay)
          · exact Or.inl rfl
      · exact Or.inr ⟨task,htask,rfl,hmay,Or.inl ⟨hpause,rfl⟩⟩
      · exact Or.inr ⟨task,htask,rfl,hmay,Or.inr (Or.inl ⟨hresume,rfl⟩)⟩
      · exact Or.inr ⟨task,htask,rfl,hmay,Or.inr (Or.inr ⟨hcancel,rfl⟩)⟩
      · exact Or.inl rfl
  | _ => exact Or.inl rfl

section Scheduling
variable {lib : Lib} {groups : Groups} {source : String} {isMain : Bool} {env : Env} {s : State}
  {fields : List (String × Json)} {task : ScheduledTask}

/-- What is known of a task that a request has stored. -/
structure StoredTask (lib : Lib) (env : Env) (fields : List (String × Json)) (task : ScheduledTask) :
    Prop where
  id : newTaskId env (getKey "taskId" fields) = some task.id
  chat : getKey "targetJid" fields = .str task.chatJid
  prompt : getKey "prompt" fields = .str task.prompt
  value : getKey "schedule_value" fields = .str task.scheduleValue
  schedule : ∃ t, computeFirstRun lib env.now (getKey "schedule_type" fields)
    (.str task.scheduleValue) = .ok (some (task.scheduleType,t)) ∧ task.nextRun = some (utcIso t)

private theorem storeTask_stored {folder : String} {schedule : ScheduleType × Int}
    (hschedule : computeFirstRun lib env.now (getKey "schedule_type" fields)
      (getKey "schedule_value" fields) = .ok (some schedule))
    (hnew : s.db.getTaskById task.id = none)
    (hstored : (storeTask env s folder fields schedule).state.db.getTaskById task.id = some task) :
    StoredTask lib env fields task := by
  rw [storeTask] at hstored
  split at hstored
  · rename_i id chatJid prompt value hid hchat hprompt hvalue
    simp only at hstored
    split at hstored
    · rw [hnew] at hstored
      cases hstored
    · rename_i db hdb
      have hmem := (TaskDb.getTaskById_eq_some_iff.mp hstored).1
      rw [(TaskDb.createTask_eq_some hdb).2.1] at hmem
      rcases List.mem_append.mp hmem with hold | hlast
      · rw [TaskDb.getTaskById_eq_some_iff.mpr ⟨hold,rfl⟩] at hnew
        cases hnew
      · cases List.mem_singleton.mp hlast
        exact ⟨hid,hchat,hprompt,hvalue,schedule.2,hvalue ▸ hschedule,rfl⟩
  · rw [hnew] at hstored
    cases hstored

/-- A task that was not there before a request and is there afterwards was stored by it. -/
theorem handleScheduleTask_stored (hnew : s.db.getTaskById task.id = none)
    (hstored : (handleScheduleTask lib groups source isMain env s fields).state.db.getTaskById
      task.id = some task) : StoredTask lib env fields task := by
  have hsame : s.db.getTaskById task.id ≠ some task := by simp [hnew]
  simp only [handleScheduleTask] at hstored
  split at hstored
  · exact absurd hstored hsame
  · split at hstored
    · exact absurd hstored hsame
    · split at hstored
      · exact absurd hstored hsame
      · split at hstored
        · exact absurd hstored hsame
        · exact absurd hstored hsame
        · rename_i schedule hschedule
          exact storeTask_stored hschedule hnew hstored

/-- The first run of a cron task is what the cron library finds. -/
theorem computeFirstRun_cron {now t : Int} {scheduleType scheduleValue : Json}
    (h : computeFirstRun lib now scheduleType scheduleValue = .ok (some (.cron,t))) :
    lib.cronNext scheduleValue now = .ok t := by
  have hother : ∀ (x : Except PyExc (Option Int)) (type : ScheduleType), type ≠ .cron →
      x.map (·.map (fun t => (type,t))) ≠ .ok (some (.cron,t)) := by
    intro x type htype hx
    rcases x with e | _ | t'
    · cases hx
    · cases hx
    · exact htype (congrArg Prod.fst (Option.some.inj (Except.ok.inj hx)))
  unfold computeFirstRun at h
  split at h
  · cases hnext : lib.cronNext scheduleValue now with
    | error e =>
      rw [hnext] at h
      cases h
    | ok t' =>
      rw [hnext] at h
      cases h
      rfl
  · split at h
    · split at h
      · split at h
        · cases h
        · exact absurd h (hother _ _ (by simp))
      · split at h
        · exact absurd h (hother _ _ (by simp))
        · cases h
    · cases h

end Scheduling

end NanoClaw.Ipc
