import NanoClaw.Ipc.Fatal
import NanoClaw.Ipc.Tools

/-! What the watcher does with a payload that the server in a container has written, and which
requests it carries out. -/
namespace NanoClaw.Ipc
open Store Json Calendar

section Watching
variable {lib : Lib} {groups : Groups} {source : String} {env : Env}

/-- The turn of a written payload in the loop over its directory. -/
def processWritten (lib : Lib) (groups : Groups) (source : String) (env : Env) (s : State)
    (payload : List (String × Json)) : IpcDir → State
  | .messages =>
    (processMessagePayload groups source (isMainFolder groups source) env s (.obj payload)).state
  | .tasks =>
    (processTaskPayload lib groups source (isMainFolder groups source) env s (.obj payload)).state

theorem readJson_written {payload : List (String × Json)}
    (h : Decoded lib.interp.floatRepr (.obj payload)) :
    readJson lib.interp ⟨Utf8.encode (dumps (.obj payload)),env⟩ =
      if nesting (.obj payload) ≤ lib.interp.depth then .ok (.obj payload)
      else .error .recursionError := by
  rw [readJson, Utf8.decode_encode h.ascii]
  exact loads_decoded h

/-- The loop over one of the two directories of a group. -/
def handleIn (lib : Lib) (groups : Groups) (source : String) : IpcDir → State → File → Handled
  | .messages => handleMessage lib groups source
  | .tasks => handleTask lib groups source

/-- `run_once` over directories comes to a file of a group: nothing that it meets before has ended
it. The last state is the one it has reached. -/
inductive ComesTo (lib : Lib) (groups : Groups) (source : String) :
    IpcDir → File → State → List GroupDir → State → Prop where
  | message {f : File} {s : State} {ds ds' : List GroupDir} {d : GroupDir} {earlier later : List File}
      (hname : d.name = source) (herrors : source ≠ "errors")
      (hds : (runOnce lib groups s ds).1.exc = none) (hfiles : d.messages = earlier ++ f :: later)
      (hearlier : (processFiles (handleMessage lib groups source) (runOnce lib groups s ds).1.state
        earlier).1.exc = none) :
      ComesTo lib groups source .messages f s (ds ++ d :: ds')
        (processFiles (handleMessage lib groups source) (runOnce lib groups s ds).1.state
          earlier).1.state
  | task {f : File} {s s' : State} {ds ds' : List GroupDir} {d : GroupDir} {earlier later : List File}
      (hname : d.name = source) (herrors : source ≠ "errors")
      (hds : (runOnce lib groups s ds).1.exc = none) (hfiles : d.tasks = earlier ++ f :: later)
      (hmessages : (processFiles (handleMessage lib groups source) (runOnce lib groups s ds).1.state
        d.messages).1 = ⟨none,s'⟩)
      (hearlier : (processFiles (handleTask lib groups source) s' earlier).1.exc = none) :
      ComesTo lib groups source .tasks f s (ds ++ d :: ds')
        (processFiles (handleTask lib groups source) s' earlier).1.state

def GroupDir.files (d : GroupDir) : IpcDir → List File
  | .messages => d.messages
  | .tasks => d.tasks

private theorem processFiles_append {handle : State → File → Handled} {s : State}
    {files files' : List File} (h : (processFiles handle s (files ++ files')).1.exc = none) :
    (processFiles handle s files).1.exc = none := by
  induction files generalizing s with
  | nil => rfl
  | cons f files ih =>
    rw [List.cons_append, processFiles] at h
    rw [processFiles]
    cases hexc : (handle s f).exc with
    | some e =>
      simp only [hexc] at h
      cases h
    | none =>
      simp only [hexc] at h
      exact ih h

private theorem runOnce_append {s : State} {ds ds' : List GroupDir}
    (h : (runOnce lib groups s (ds ++ ds')).1.exc = none) :
    (runOnce lib groups s ds).1.exc = none ∧
      (runOnce lib groups (runOnce lib groups s ds).1.state ds').1.exc = none := by
  induction ds generalizing s with
  | nil => exact ⟨rfl,h⟩
  | cons d ds ih =>
    rw [List.cons_append, runOnce] at h
    rw [runOnce]
    by_cases herrors : d.name = "errors"
    · rw [if_pos herrors] at h ⊢
      exact ih h
    · rw [if_neg herrors] at h ⊢
      rcases hd : processGroupDir lib groups s d with ⟨⟨_ | e,s'⟩,d'⟩
      · simp only [hd] at h ⊢
        exact ih h
      · simp only [hd] at h
        cases h

/-- A run that returns comes to every file of every group, but for one with the folder `errors`. -/
theorem comesTo_of_returns {s : State} {ds : List GroupDir} {d : GroupDir} {dir : IpcDir} {f : File}
    (h : (runOnce lib groups s ds).1.exc = none) (hd : d ∈ ds) (herrors : d.name ≠ "errors")
    (hf : f ∈ d.files dir) : ∃ s', ComesTo lib groups d.name dir f s ds s' := by
  obtain ⟨before,after,rfl⟩ := List.append_of_mem hd
  obtain ⟨earlier,later,hfiles⟩ := List.append_of_mem hf
  obtain ⟨hds,hrest⟩ := runOnce_append h
  have hdir : (processGroupDir lib groups (runOnce lib groups s before).1.state d).1.exc = none := by
    rw [runOnce, if_neg herrors] at hrest
    rcases hdir : processGroupDir lib groups (runOnce lib groups s before).1.state d with
      ⟨⟨_ | e,s'⟩,d'⟩
    · rfl
    · simp only [hdir] at hrest
      cases hrest
  rw [processGroupDir] at hdir
  rcases hmessages : processFiles (handleMessage lib groups d.name) (runOnce lib groups s before).1.state
    d.messages with ⟨⟨_ | e,s₁⟩,left⟩
  · cases dir with
    | messages =>
      have hall : (processFiles (handleMessage lib groups d.name) (runOnce lib groups s before).1.state
          (earlier ++ f :: later)).1.exc = none := by
        rw [← show d.messages = _ from hfiles, hmessages]
      exact ⟨_,.message rfl herrors hds hfiles (processFiles_append hall)⟩
    | tasks =>
      simp only [hmessages] at hdir
      have hall : (processFiles (handleTask lib groups d.name) s₁ (earlier ++ f :: later)).1.exc =
          none := by
        rw [← show d.tasks = _ from hfiles]
        rcases htasks : processFiles (handleTask lib groups d.name) s₁ d.tasks with
          ⟨⟨_ | e,s₂⟩,left'⟩
        · rfl
        · simp only [htasks] at hdir
          cases hdir
      exact ⟨_,.task rfl herrors hds hfiles (congrArg Prod.fst hmessages) (processFiles_append hall)⟩
  · simp only [hmessages] at hdir
    cases hdir

private theorem runOnce_inbox (s : State) (bytes : List UInt8) (dir : IpcDir) :
    (runOnce lib groups s [inbox source env (dir,bytes)]).1.state =
      if source = "errors" then s else (handleIn lib groups source dir s ⟨bytes,env⟩).state := by
  by_cases herrors : source = "errors"
  · cases dir <;> simp [runOnce, inbox, herrors]
  · cases dir with
    | messages =>
      simp only [runOnce, inbox, processGroupDir, processFiles, herrors, if_false, handleIn]
      cases (handleMessage lib groups source s ⟨bytes,env⟩).exc with
      | none => split <;> simp_all
      | some e => rfl
    | tasks =>
      simp only [runOnce, inbox, processGroupDir, processFiles, herrors, if_false, handleIn]
      cases (handleTask lib groups source s ⟨bytes,env⟩).exc with
      | none => split <;> simp_all
      | some e => rfl

/-- The turn of a file is a run over this file alone. -/
theorem ComesTo.alone {dir : IpcDir} {bytes : List UInt8} {s₀ s : State} {ds : List GroupDir}
    (h : ComesTo lib groups source dir ⟨bytes,env⟩ s₀ ds s) :
    (runOnce lib groups s [inbox source env (dir,bytes)]).1.state =
      (handleIn lib groups source dir s ⟨bytes,env⟩).state := by
  rw [runOnce_inbox]
  cases h with
  | message hname herrors => exact if_neg herrors
  | task hname herrors => exact if_neg herrors

/-- A payload that was written is processed, unless the watcher never looks into the directory or
the payload nests too deep for it. -/
theorem runOnce_written {payload : List (String × Json)}
    (h : Decoded lib.interp.floatRepr (.obj payload)) (s : State) (dir : IpcDir) :
    (runOnce lib groups s [inbox source env (dir,Utf8.encode (dumps (.obj payload)))]).1.state =
      if source ≠ "errors" ∧ nesting (.obj payload) ≤ lib.interp.depth then
        processWritten lib groups source env s payload dir
      else s := by
  rw [runOnce_inbox]
  by_cases herrors : source = "errors"
  · simp [herrors]
  · by_cases hdepth : nesting (.obj payload) ≤ lib.interp.depth
    · cases dir <;>
        simp [handleIn, handleMessage, handleTask, handleFile, readJson_written h, processWritten,
          herrors, hdepth]
    · cases dir <;>
        simp [handleIn, handleMessage, handleTask, handleFile, readJson_written h, herrors, hdepth]

end Watching

/-- The status that a mutation asks for; none stands for no task. -/
def Mutation.asked : Mutation → Option TaskStatus
  | .pauseTask => some .paused
  | .resumeTask => some .active
  | .cancelTask => none

section Mutations
variable {source : String} {s : State} {m : Mutation}

/-- A request about a task of the source gives it the status asked for. -/
theorem handleTaskMutation_own {task : ScheduledTask} {isMain : Bool}
    (hstored : s.db.getTaskById task.id = some task) (hown : task.groupFolder = source) :
    ((handleTaskMutation source isMain s (.str m.name) (.str task.id)).state.db.getTaskById
      task.id).map (·.status) = m.asked := by
  cases m <;>
    simp [handleTaskMutation, hstored, hown, Mutation.name, isStr, Mutation.asked,
      TaskDb.getTaskById_updateStatus, TaskDb.getTaskById_deleteTask]

/-- A request about a task that does not name it by a text changes nothing. -/
theorem handleTaskMutation_unnamed {taskId : Json} {isMain : Bool} (payloadType : Json)
    (h : ∀ id, taskId ≠ .str id) :
    (handleTaskMutation source isMain s payloadType taskId).state = s := by
  cases taskId with
  | str id => exact absurd rfl (h id)
  | _ => rfl

end Mutations

/-- A schedule from which a first run follows. -/
def Schedulable (lib : Lib) (now : Int) (scheduleType scheduleValue : String) : Prop :=
  (scheduleType = "cron" ∧ ∃ t, lib.cronNext (.str scheduleValue) now = .ok t) ∨
  (scheduleType = "interval" ∧ ∃ ms, PyText.int? scheduleValue.toList = some ms ∧ 0 < ms ∧
    InRange (now + ms * 1000)) ∨
  (scheduleType = "once" ∧ ∃ t, Timezone.parseIsoTimestamp scheduleValue = .ok t)

section Scheduling
variable {lib : Lib} {groups : Groups} {source : String} {env : Env} {s : State}

theorem firstInterval_eq_ok_iff {now ms : Int} :
    (∃ t, firstInterval now ms = .ok (some t)) ↔ 0 < ms ∧ InRange (now + ms * 1000) := by
  rw [firstInterval]
  split_ifs with hms hrange
  · simp [hms]
  · simpa [hrange] using hms
  · simp [hrange]

theorem firstOnce_eq_ok_iff {value : String} :
    (∃ t, firstOnce value = .ok (some t)) ↔ ∃ t, Timezone.parseIsoTimestamp value = .ok t := by
  rw [firstOnce]
  rcases Timezone.parseIsoTimestamp value with e | t
  · cases e <;> simp
  · simp

private theorem map_eq_ok_iff {α β : Type} {x : Except PyExc (Option α)} {f : α → β} :
    (∃ b, x.map (·.map f) = .ok (some b)) ↔ ∃ a, x = .ok (some a) := by
  rcases x with e | _ | a <;> simp [Except.map]

/-- A first run is found exactly for a schedule in one of the three forms. -/
theorem computeFirstRun_eq_ok_iff {now : Int} {scheduleType : Json} {value : String} :
    (∃ schedule, computeFirstRun lib now scheduleType (.str value) = .ok (some schedule)) ↔
      ∃ type, scheduleType = .str type ∧ Schedulable lib now type value := by
  by_cases htext : ∃ type, scheduleType = .str type
  · obtain ⟨type,rfl⟩ := htext
    have hthat : (∃ type', Json.str type = .str type' ∧ Schedulable lib now type' value) ↔
        Schedulable lib now type value := by simp
    rw [hthat, computeFirstRun, Schedulable]
    by_cases hcron : type = "cron"
    · subst hcron
      rcases lib.cronNext (.str value) now with e | t <;> simp [isStr, Except.map]
    · by_cases hinterval : type = "interval"
      · subst hinterval
        rcases hms : PyText.int? value.toList with _ | ms
        · simp [isStr]
        · simp [isStr, map_eq_ok_iff, firstInterval_eq_ok_iff]
      · by_cases honce : type = "once"
        · subst honce
          simp [isStr, map_eq_ok_iff, firstOnce_eq_ok_iff]
        · simp [isStr, hcron, hinterval, honce]
  · have hnone : computeFirstRun lib now scheduleType (.str value) = .ok none := by
      cases scheduleType with
      | str type => exact absurd ⟨type,rfl⟩ htext
      | _ => rfl
    rw [hnone]
    constructor
    · rintro ⟨schedule,h⟩
      cases h
    · rintro ⟨type,htype,_⟩
      exact absurd ⟨type,htype⟩ htext

/-- A request with texts, a schedule and a new id stores a task that is scheduled. -/
theorem handleScheduleTask_creates {fields : List (String × Json)}
    {jid prompt type value id : String} {g : RegisteredGroup} {isMain : Bool}
    {schedule : ScheduleType × Int}
    (hjid : getKey "targetJid" fields = .str jid) (hg : groups.get? jid = some g)
    (hfolder : g.folder = source) (hprompt : getKey "prompt" fields = .str prompt)
    (htype : getKey "schedule_type" fields = .str type)
    (hvalue : getKey "schedule_value" fields = .str value)
    (hschedule : computeFirstRun lib env.now (.str type) (.str value) = .ok (some schedule))
    (hid : getKey "taskId" fields = .str id) (hnew : s.db.getTaskById id = none) :
    ∃ task : ScheduledTask, task.id = id ∧ task.status = .active ∧ task.nextRun ≠ none ∧
      (handleScheduleTask lib groups source isMain env s fields).state.db.getTaskById id =
        some task := by
  have htarget : groupOf groups (.str jid) = some g := hg
  simp only [handleScheduleTask, hjid, hprompt, hvalue, htype, Json.isText, Bool.and_self, not_true,
    if_false, htarget, hfolder, ne_eq, and_false, hschedule, storeTask, hid, newTaskId]
  split
  · rename_i hdb
    exact absurd hnew (TaskDb.createTask_eq_none_iff.mp hdb)
  · rename_i db hdb
    have hstored := (TaskDb.getTaskById_createTask hdb id).trans (if_pos rfl)
    refine ⟨_,?_,?_,?_,hstored⟩
    · rfl
    · rfl
    · exact Option.some_ne_none _

end Scheduling

end NanoClaw.Ipc
