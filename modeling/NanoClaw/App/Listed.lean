import NanoClaw.App.Throttle
import NanoClaw.Ipc.Mcp
import NanoClaw.Library.JsonLoads

/-! What an agent is told of the tasks, from the rows of the table through the file of its group to the
text of `list_tasks`. -/
namespace NanoClaw.App
open Store Json Execution Ipc

def scheduleTypeText : ScheduleType → String
  | .cron => "cron"
  | .interval => "interval"
  | .once => "once"

def statusText : TaskStatus → String
  | .active => "active"
  | .paused => "paused"
  | .completed => "completed"

/-- The dictionary of a task. -/
def taskFields (t : SnapshotTask) : List (String × Json) :=
  [("id",.str t.id),("groupFolder",.str t.groupFolder),("prompt",.str t.prompt),
    ("schedule_type",.str (scheduleTypeText t.scheduleType)),("schedule_value",.str t.scheduleValue),
    ("status",.str (statusText t.status)),("next_run",Framing.optional t.nextRun)]

def tasksJson (tasks : List SnapshotTask) : Json := .arr (tasks.map (fun t => .obj (taskFields t)))

/-- The text that `write_tasks_snapshot` leaves. -/
def TasksFile.textFile (file : TasksFile) : TextFile :=
  .bytes (Utf8.encode (dumpsIndent 2 (tasksJson file.tasks)))

/-- The answer that lists these tasks. -/
def tasksListing (tasks : List SnapshotTask) : Ipc.Outcome :=
  ⟨content (.str (String.ofList (dumps (tasksJson tasks)))),none⟩

/-- A group is told of what both the writer and the reader let through. -/
theorem filteredTasks_filteredTasks (folder : String) (isMain written : Bool)
    (tasks : List SnapshotTask) :
    filteredTasks folder isMain (filteredTasks folder written tasks) =
      filteredTasks folder (isMain && written) tasks := by
  cases isMain with
  | true => rw [Bool.true_and, filteredTasks, if_pos rfl]
  | false =>
    cases written with
    | true => rfl
    | false => simp [filteredTasks, List.filter_filter]

section Text

variable (floatRepr : List Char → String)

theorem decoded_optional (s : Option String) : Decoded floatRepr (Framing.optional s) := by
  cases s with
  | none => exact .null
  | some s => exact .str s

theorem decoded_tasksJson (tasks : List SnapshotTask) : Decoded floatRepr (tasksJson tasks) := by
  refine .arr (List.forall_mem_map.mpr (fun t _ => .obj ?_ (by simp [taskFields])))
  simp [taskFields, Decoded.str, decoded_optional]

theorem nesting_optional (s : Option String) : nesting (Framing.optional s) = 0 := by
  cases s with
  | none => rfl
  | some s => rfl

theorem nesting_tasksJson (tasks : List SnapshotTask) : nesting (tasksJson tasks) ≤ 2 := by
  refine Nat.succ_le_succ (nestingItems_le_iff.mpr (List.forall_mem_map.mpr (fun t _ => ?_)))
  simp [taskFields, nesting, nestingFields, nesting_optional]

end Text

section Agent
variable {p : Mcp.Process} {line : Mcp.Line}

/-- `_read_json` reads back what was written, with any indent. -/
theorem readJson_dumpsIndent {interp : Interp} {v default : Json} (indent : Nat)
    (h : Decoded interp.floatRepr v) (hdepth : nesting v ≤ interp.depth) :
    Mcp.readJson interp (.bytes (Utf8.encode (dumpsIndent indent v))) default = .ok v := by
  refine Mcp.readJson_eq_ok_iff.mpr ⟨_,Utf8.decode_encode (h.ascii_render 0),Or.inl ?_⟩
  rw [dumpsIndent, loads_render h, if_pos hdepth]

/-- The comprehension of the agent keeps the tasks that the filter of the host keeps. -/
theorem collect_ownTask (folder : String) (tasks : List SnapshotTask) :
    Each.collect (Mcp.ownTask folder) (tasks.map (fun t => .obj (taskFields t))) =
      .ok ((filteredTasks folder false tasks).map (fun t => .obj (taskFields t))) := by
  induction tasks with
  | nil => rfl
  | cons t tasks ih =>
    have hown : Mcp.ownTask folder (.obj (taskFields t)) =
        .ok (if t.groupFolder = folder then some (.obj (taskFields t)) else none) := by
      simp [Mcp.ownTask, taskFields, getKey, Dict.lookup, isStr]
    rw [List.map_cons, Each.collect_cons, hown, ih]
    simp only [filteredTasks, List.filter_cons]
    by_cases hfolder : t.groupFolder = folder
    · simp [hfolder, Except.map]
    · simp [hfolder, Except.map]

theorem listTasks_tasksJson (tasks : List SnapshotTask) :
    Mcp.listTasks p (tasksJson tasks) =
      .ok (tasksListing (filteredTasks p.groupFolder p.isMain tasks)) := by
  have hroom (tasks : List SnapshotTask) : nesting (tasksJson tasks) ≤ p.depth := by
    have := nesting_tasksJson tasks
    have := p.enough.1
    omega
  cases hmain : p.isMain with
  | true =>
    rw [Mcp.listTasks, if_pos hmain, Mcp.dumped, if_pos (hroom tasks)]
    rfl
  | false =>
    rw [Mcp.listTasks, if_neg (by simp [hmain])]
    change (Each.collect (Mcp.ownTask p.groupFolder) _ >>= _) = _
    rw [collect_ownTask]
    exact if_pos (hroom _)

/-- What the agent of a folder is told of a file that a call has written for it. -/
theorem toolListTasks_file {isMain : Bool} {table : List ScheduledTask} {file : TasksFile}
    (hdepth : 2 ≤ p.interp.depth) (hline : line.currentTasks = file.textFile)
    (htasks : file.tasks = filteredTasks p.groupFolder isMain (table.map snapshotTask)) :
    Mcp.toolListTasks p line = .ok (tasksListing
      (filteredTasks p.groupFolder (p.isMain && isMain) (table.map snapshotTask))) := by
  have hread : Mcp.readJson p.interp line.currentTasks (.arr []) = .ok (tasksJson file.tasks) := by
    rw [hline]
    exact readJson_dumpsIndent 2 (decoded_tasksJson _ _) ((nesting_tasksJson _).trans hdepth)
  rw [Mcp.toolListTasks, hread]
  change Mcp.listTasks p (tasksJson file.tasks) = _
  rw [listTasks_tasksJson, htasks, filteredTasks_filteredTasks]

end Agent

namespace Throttle
variable {cfg : Config} {s t : Throttle} {visit : Visit} {run : Run}

/-- The call that wrote a folder's file: it was of a group in the folder, and the file tells of the rows
that it read. -/
structure WroteFile (visit : Visit) (folder : String) (group : RegisteredGroup) (file : TasksFile) :
    Prop where
  registered : visit.app.registeredGroups.get? visit.chatJid = some group
  folder_eq : group.folder = folder
  written : file.written = visit.now
  table : visit.tasks = .ok file.table
  tasks : file.tasks =
    filteredTasks folder (group.isMain = some true) (file.table.map snapshotTask)

/-- Writing the snapshot of a folder leaves the other files, and in this one the tasks of the group. -/
theorem writeTasksSnapshot_files {folder : String} {isMain : Bool} {now : ℚ}
    {table : List ScheduledTask} {fault : Option WriteFault} {f : String} {file : TasksFile}
    (h : (s.writeTasksSnapshot folder isMain now table fault).1.files f = some file) :
    s.files f = some file ∨ f = folder ∧ file.written = now ∧ file.table = table ∧
      file.tasks = filteredTasks folder isMain (table.map snapshotTask) := by
  unfold writeTasksSnapshot at h
  split_ifs at h
  · exact Or.inl h
  · cases fault with
    | some fault =>
      cases fault with
      | before e => exact Or.inl h
      | during e =>
        rcases eq_or_ne f folder with rfl | hf
        · simp at h
        · simp only [Function.update_of_ne hf] at h
          exact Or.inl h
    | none =>
      rcases eq_or_ne f folder with rfl | hf
      · simp only [Function.update_self, Option.some.injEq] at h
        subst h
        exact Or.inr ⟨rfl,rfl,rfl,rfl⟩
      · simp only [Function.update_of_ne hf] at h
        exact Or.inl h

theorem snapshot_files {f : String} {file : TasksFile}
    (h : (s.snapshot run visit).1.files f = some file) :
    s.files f = some file ∨ f = run.folder ∧ file.written = visit.now ∧
      visit.tasks = .ok file.table ∧
      file.tasks = filteredTasks run.folder run.isMain (file.table.map snapshotTask) := by
  rw [snapshot] at h
  split_ifs at h with hdue
  · dsimp only at h
    cases htasks : visit.tasks with
    | error e =>
      rw [htasks] at h
      exact Or.inl h
    | ok table =>
      rw [htasks] at h
      dsimp only at h
      have hfiles : (writeTasksSnapshot { s with lastSnapshotTime := visit.now } run.folder run.isMain
          visit.now table visit.tasksFault).1.files f = some file := by
        rcases hout : writeTasksSnapshot { s with lastSnapshotTime := visit.now } run.folder run.isMain
          visit.now table visit.tasksFault with ⟨u,_ | e⟩
        all_goals
          rw [hout] at h
          exact h
      rcases writeTasksSnapshot_files hfiles with hold | ⟨hf,hwritten,rfl,hshown⟩
      · exact Or.inl hold
      · exact Or.inr ⟨hf,hwritten,rfl,hshown⟩
  · exact Or.inl h

/-- A file is as it was, or the call wrote it for its group. -/
theorem step_files (hstep : step cfg s visit = some t) {f : String} {file : TasksFile}
    (h : t.files f = some file) :
    s.files f = some file ∨ ∃ group, WroteFile visit f group file := by
  rw [step] at hstep
  split_ifs at hstep with htime
  cases hcall : processGroupMessages cfg visit.allowlist visit.app visit.chatJid with
  | invokes run =>
    rw [hcall] at hstep
    dsimp only at hstep
    have hfiles : (s.snapshot run visit).1.files f = some file := by
      rcases hout : s.snapshot run visit with ⟨u,_ | e⟩
      all_goals
        rw [hout] at hstep
        cases hstep
        exact h
    rcases snapshot_files hfiles with hold | ⟨rfl,hwritten,htable,htasks⟩
    · exact Or.inl hold
    · obtain ⟨group,hgroup,_,hfolder,hmain,_⟩ := invokes_spec hcall
      rw [hmain] at htasks
      exact Or.inr ⟨group,⟨hgroup,hfolder.symm,hwritten,htable,htasks⟩⟩
  | _ =>
    rw [hcall] at hstep
    cases hstep
    exact Or.inl h

/-- Every file was written by one of the calls. -/
theorem exec_files {visits : List Visit} (he : exec (step cfg) start visits = some s) :
    ∀ folder file, s.files folder = some file →
      ∃ visit ∈ visits, ∃ group, WroteFile visit folder group file := by
  refine trace_invariant (P := fun visits s => ∀ folder file, s.files folder = some file →
    ∃ visit ∈ visits, ∃ group, WroteFile visit folder group file) ?_ ?_ he
  · intro visits s visit t _ hfiles hstep folder file hfile
    rcases step_files hstep hfile with hold | hnew
    · obtain ⟨earlier,hearlier,hwrote⟩ := hfiles folder file hold
      exact ⟨earlier,List.mem_append_left _ hearlier,hwrote⟩
    · exact ⟨visit,List.mem_append_right _ List.mem_cons_self,hnew⟩
  · intro folder file h
    cases h

/-- After every sequence of calls, of any groups: the agent of a folder that finds the file of its folder
is told of exactly the rows some call of a group in that folder has read; of all of them when the agent and
that group are the main ones, and of those of its own folder otherwise. -/
theorem listed_tasks (visits : List Visit) (he : exec (step cfg) start visits = some s)
    (p : Mcp.Process) (line : Mcp.Line) (file : TasksFile) (hdepth : 2 ≤ p.interp.depth)
    (hfile : s.files p.groupFolder = some file) (hline : line.currentTasks = file.textFile) :
    ∃ visit ∈ visits, ∃ group, WroteFile visit p.groupFolder group file ∧
      Mcp.toolListTasks p line = .ok (tasksListing
        (filteredTasks p.groupFolder (p.isMain && (group.isMain = some true))
          (file.table.map snapshotTask))) := by
  obtain ⟨visit,hvisit,group,hwrote⟩ := exec_files he p.groupFolder file hfile
  exact ⟨visit,hvisit,group,hwrote,toolListTasks_file hdepth hline hwrote.tasks⟩

section Runs

private def salesGroup : RegisteredGroup where
  name := "Sales"
  folder := "sales"
  trigger := "@Andy"
  addedAt := ""
  requiresTrigger := some false

private def dailyTask (id folder : String) : ScheduledTask where
  id := id
  groupFolder := folder
  chatJid := "local:" ++ folder
  prompt := "report"
  scheduleType := .interval
  scheduleValue := "86400000"
  contextMode := .group
  nextRun := some "2026-01-02T00:00:00+00:00"
  lastRun := none
  lastResult := none
  status := .active
  createdAt := "2026-01-01T00:00:00+00:00"

/-- A message in the chat of the group, with a task in its folder and one in another. -/
private def salesVisit : Visit where
  now := 10
  app := .unanswered (Dict.empty.set "local:sales" salesGroup) [firstMessage "local:sales"]
  allowlist := everyone
  chatJid := "local:sales"
  tasks := .ok [dailyTask "1" "sales",dailyTask "2" "family"]
  tasksFault := none
  groupsFault := none

private theorem salesAgent_enough : 4 ≤ 10 ∧ 4 ≤ 10 := by decide

private def salesAgent : Mcp.Process where
  chatJid := "local:sales"
  groupFolder := "sales"
  reprOf := fun _ => ""
  depth := 10
  interp := ⟨String.ofList,10⟩
  isMain := false
  room := 10
  enough := salesAgent_enough

theorem listed_tasks_sales : ∃ s file line, exec (step localCfg) start [salesVisit] = some s ∧
    s.files "sales" = some file ∧ line.currentTasks = file.textFile ∧
      ∃ visit ∈ [salesVisit], ∃ group, WroteFile visit "sales" group file ∧
        Mcp.toolListTasks salesAgent line = .ok (tasksListing
          (filteredTasks "sales" (false && (group.isMain = some true))
            (file.table.map snapshotTask))) := by
  have hruns : ((exec (step localCfg) start [salesVisit]).bind (·.files "sales")).isSome = true := by
    decide +kernel
  obtain ⟨file,hfile⟩ := Option.isSome_iff_exists.mp hruns
  obtain ⟨s,hs,hfile⟩ := Option.bind_eq_some_iff.mp hfile
  let line : Mcp.Line := ⟨[],⟨"","0.5"⟩,file.textFile,.missing⟩
  exact ⟨s,file,line,hs,hfile,rfl,listed_tasks _ hs salesAgent line file (by decide) hfile rfl⟩

end Runs

end Throttle

end NanoClaw.App
