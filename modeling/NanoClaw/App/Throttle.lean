import NanoClaw.App.State
import NanoClaw.Library.Execution
import NanoClaw.Store.Tasks
import Mathlib.Algebra.Order.Ring.Rat
import Mathlib.Tactic.Linarith

/-! The snapshot of the tasks that a call of `process_group_messages` writes for its agent, under the
throttle that all groups share, and the calls whose agents see a fresh one. -/
namespace NanoClaw.App
open Store Execution

/-- What an agent is told of a task. -/
structure SnapshotTask where
  id : String
  groupFolder : String
  prompt : String
  scheduleType : ScheduleType
  scheduleValue : String
  status : TaskStatus
  nextRun : Option String
  deriving DecidableEq, Repr

def snapshotTask (t : ScheduledTask) : SnapshotTask :=
  ⟨t.id,t.groupFolder,t.prompt,t.scheduleType,t.scheduleValue,t.status,t.nextRun⟩

/-- The tasks a group is told of. -/
def filteredTasks (groupFolder : String) (isMain : Bool) (tasks : List SnapshotTask) :
    List SnapshotTask :=
  if isMain then tasks else tasks.filter (·.groupFolder = groupFolder)

/-- A `current_tasks.json`, with the time it was written at and the rows of the table at that time. It
tells of them, or of those of one group. -/
structure TasksFile where
  written : ℚ
  table : List ScheduledTask
  tasks : List SnapshotTask
  told : ∃ groupFolder isMain, tasks = filteredTasks groupFolder isMain (table.map snapshotTask)

/-- What `write_tasks_snapshot` leaves of a folder's file. A write that fails on the way has emptied the
file before. -/
inductive WriteFault where
  | before (e : PyExc)
  | during (e : PyExc)

/-- A call of `process_group_messages` as its surroundings have it: the time and the state of the app,
what `get_all_tasks` returns, and what goes wrong with the two snapshots. -/
structure Visit where
  now : ℚ
  app : AppState
  allowlist : SenderAllowlistConfig
  chatJid : String
  tasks : Except PyExc (List ScheduledTask)
  tasksFault : Option WriteFault
  groupsFault : Option PyExc

/-- An agent that was invoked, with the file of its group at that time. -/
structure Invocation where
  folder : String
  now : ℚ
  file : Option TasksFile

/-- The throttle with the files this process has written. `clock` is the time of the last call. -/
structure Throttle where
  lastSnapshotTime : ℚ
  clock : ℚ
  files : String → Option TasksFile
  invoked : List Invocation

/-- `_snapshot_interval`, in seconds. -/
def snapshotInterval : ℚ := 2

/-- The agent found a file of its group that was written at most the interval before. -/
def Invocation.Fresh (i : Invocation) : Prop :=
  ∃ file, i.file = some file ∧ i.now - file.written ≤ snapshotInterval

namespace Throttle

def AllFresh (s : Throttle) : Prop := ∀ i ∈ s.invoked, i.Fresh

/-- The app has just been made. -/
def start : Throttle := ⟨0,0,fun _ => none,[]⟩

/-- `write_tasks_snapshot` for a folder at a time, with the rows that its tasks were made of. -/
def writeTasksSnapshot (s : Throttle) (groupFolder : String) (isMain : Bool) (now : ℚ)
    (table : List ScheduledTask) (fault : Option WriteFault) : Throttle × Option PyExc :=
  if isValidGroupFolder groupFolder = false then (s,some .valueError)
  else
    match fault with
    | some (.before e) => (s,some e)
    | some (.during e) => ({ s with files := Function.update s.files groupFolder none },some e)
    | none =>
      ({ s with
        files := Function.update s.files groupFolder
          (some ⟨now,table,filteredTasks groupFolder isMain (table.map snapshotTask),_,_,rfl⟩) },none)

/-- The snapshots of a call. The time is kept before anything is written. The difference of the two
times is exact: both are above the interval, or the one is zero. -/
def snapshot (s : Throttle) (run : Run) (visit : Visit) : Throttle × Option PyExc :=
  if snapshotInterval ≤ visit.now - s.lastSnapshotTime then
    let s := { s with lastSnapshotTime := visit.now }
    match visit.tasks with
    | .error e => (s,some e)
    | .ok table =>
      match s.writeTasksSnapshot run.folder run.isMain visit.now table visit.tasksFault with
      | (s, some e) => (s,some e)
      | (s, none) => (s,visit.groupsFault)
  else (s,none)

section Steps
variable (cfg : Config)

/-- A call, at a time not before the last one and later than the interval. -/
def step (s : Throttle) (visit : Visit) : Option Throttle :=
  if s.clock ≤ visit.now ∧ snapshotInterval < visit.now then
    match processGroupMessages cfg visit.allowlist visit.app visit.chatJid with
    | .returns _ | .raises _ => some { s with clock := visit.now }
    | .invokes run =>
      match s.snapshot run visit with
      | (t, some _) => some { t with clock := visit.now }
      | (t, none) =>
        some { t with
          clock := visit.now
          invoked := t.invoked ++ [⟨run.folder,visit.now,t.files run.folder⟩] }
  else none

/-- A call that comes to its agent is due for a snapshot, or its group's own file is the one written
last; a file just the interval older will do when the last one was written at the same time. -/
def Served (s : Throttle) (visit : Visit) : Prop :=
  ∀ run, processGroupMessages cfg visit.allowlist visit.app visit.chatJid = .invokes run →
    snapshotInterval ≤ visit.now - s.lastSnapshotTime ∨
      ∃ file, s.files run.folder = some file ∧
        (file.written = s.lastSnapshotTime ∨
          visit.now = s.lastSnapshotTime ∧
            file.written = s.lastSnapshotTime - snapshotInterval)

end Steps

/-- The files were written at the time the throttle keeps, or at least the interval before. -/
structure Spaced (s : Throttle) : Prop where
  last : s.lastSnapshotTime ≤ s.clock
  files : ∀ folder file, s.files folder = some file →
    file.written = s.lastSnapshotTime ∨ file.written ≤ s.lastSnapshotTime - snapshotInterval

/-- What writing snapshots at a time does: a file is as it was or was written then, and where nothing is
raised the folder's own was. -/
structure Writes (s t : Throttle) (folder : String) (now : ℚ) (raised : Option PyExc) : Prop where
  invoked : t.invoked = s.invoked
  files : ∀ f file, t.files f = some file → s.files f = some file ∨ file.written = now
  done : raised = none → ∃ file, t.files folder = some file ∧ file.written = now

section Calls
variable {cfg : Config} {s t : Throttle} {visit : Visit} {run : Run}

theorem writeTasksSnapshot_spec (s : Throttle) (folder : String) (isMain : Bool) (now : ℚ)
    (table : List ScheduledTask) (fault : Option WriteFault) :
    (s.writeTasksSnapshot folder isMain now table fault).1.lastSnapshotTime = s.lastSnapshotTime ∧
      Writes s (s.writeTasksSnapshot folder isMain now table fault).1 folder now
        (s.writeTasksSnapshot folder isMain now table fault).2 := by
  unfold writeTasksSnapshot
  split_ifs with hfolder
  · exact ⟨rfl,rfl,fun _ _ h => Or.inl h,by simp⟩
  · cases fault with
    | some fault =>
      cases fault with
      | before e => exact ⟨rfl,rfl,fun _ _ h => Or.inl h,by simp⟩
      | during e =>
        refine ⟨rfl,rfl,fun f file h => ?_,by simp⟩
        rcases eq_or_ne f folder with rfl | hf
        · simp at h
        · simp only [Function.update_of_ne hf] at h
          exact Or.inl h
    | none =>
      refine ⟨rfl,rfl,fun f file h => ?_,fun _ => ⟨_,Function.update_self folder _ s.files,rfl⟩⟩
      rcases eq_or_ne f folder with rfl | hf
      · simp only [Function.update_self, Option.some.injEq] at h
        exact Or.inr (h ▸ rfl)
      · simp only [Function.update_of_ne hf] at h
        exact Or.inl h

/-- A call that is due keeps its time and writes. -/
theorem snapshot_due (h : snapshotInterval ≤ visit.now - s.lastSnapshotTime) :
    (s.snapshot run visit).1.lastSnapshotTime = visit.now ∧
      Writes s (s.snapshot run visit).1 run.folder visit.now (s.snapshot run visit).2 := by
  rw [snapshot, if_pos h]
  dsimp only
  cases visit.tasks with
  | error e => exact ⟨rfl,rfl,fun _ _ h => Or.inl h,by simp⟩
  | ok table =>
    obtain ⟨hlast,hwrites⟩ := writeTasksSnapshot_spec { s with lastSnapshotTime := visit.now }
      run.folder run.isMain visit.now table visit.tasksFault
    dsimp only
    rcases hout : writeTasksSnapshot { s with lastSnapshotTime := visit.now } run.folder run.isMain
      visit.now table visit.tasksFault with ⟨t,_ | e⟩
    · rw [hout] at hlast hwrites
      exact ⟨hlast,hwrites.invoked,hwrites.files,fun _ => hwrites.done rfl⟩
    · rw [hout] at hlast hwrites
      exact ⟨hlast,hwrites.invoked,hwrites.files,fun h => hwrites.done h⟩

theorem snapshot_throttled (h : ¬snapshotInterval ≤ visit.now - s.lastSnapshotTime) :
    s.snapshot run visit = (s,none) := if_neg h

theorem Spaced.writes {raised : Option PyExc} {folder : String} (h : Spaced s)
    (hdue : snapshotInterval ≤ visit.now - s.lastSnapshotTime)
    (hlast : t.lastSnapshotTime = visit.now) (hwrites : Writes s t folder visit.now raised) :
    ∀ f file, t.files f = some file →
      file.written = t.lastSnapshotTime ∨ file.written ≤ t.lastSnapshotTime - snapshotInterval := by
  intro f file hfile
  rw [hlast]
  rcases hwrites.files f file hfile with hfile | hnow
  · right
    rcases h.files f file hfile with hold | hold
    · rw [hold]
      linarith
    · have hpos : (0 : ℚ) ≤ snapshotInterval := by norm_num [snapshotInterval]
      linarith
  · exact Or.inl hnow

/-- Every call keeps the files spaced. -/
theorem Spaced.step (h : Spaced s) (hstep : step cfg s visit = some t) : Spaced t := by
  rw [Throttle.step] at hstep
  split_ifs at hstep with htime
  cases hcall : processGroupMessages cfg visit.allowlist visit.app visit.chatJid with
  | invokes run =>
    rw [hcall] at hstep
    dsimp only at hstep
    by_cases hdue : snapshotInterval ≤ visit.now - s.lastSnapshotTime
    · obtain ⟨hlast,hwrites⟩ := @snapshot_due s visit run hdue
      have hfiles := h.writes hdue hlast hwrites
      rcases hout : s.snapshot run visit with ⟨u,_ | e⟩ <;> rw [hout] at hstep hlast hfiles <;>
        cases hstep
      · exact ⟨le_of_eq hlast,hfiles⟩
      · exact ⟨le_of_eq hlast,hfiles⟩
    · rw [snapshot_throttled hdue] at hstep
      cases hstep
      exact ⟨h.last.trans htime.1,h.files⟩
  | _ =>
    rw [hcall] at hstep
    cases hstep
    exact ⟨h.last.trans htime.1,h.files⟩

theorem allFresh_concat {invoked : List Invocation} {i : Invocation} (h : ∀ i ∈ invoked, i.Fresh) :
    (∀ j ∈ invoked ++ [i], j.Fresh) ↔ i.Fresh := by
  rw [List.forall_mem_append, and_iff_right h, List.forall_mem_singleton]

/-- The file of a throttled call is fresh exactly when it is the one written last, or at the edge of the
interval. -/
theorem fresh_throttled_iff (h : Spaced s) (htime : s.clock ≤ visit.now)
    (hdue : ¬snapshotInterval ≤ visit.now - s.lastSnapshotTime) (folder : String) :
    Invocation.Fresh ⟨folder,visit.now,s.files folder⟩ ↔
      ∃ file, s.files folder = some file ∧
        (file.written = s.lastSnapshotTime ∨
          visit.now = s.lastSnapshotTime ∧
            file.written = s.lastSnapshotTime - snapshotInterval) := by
  have hlast := h.last
  rw [Invocation.Fresh]
  refine exists_congr (fun file => and_congr_right (fun hfile => ?_))
  dsimp only
  constructor
  · intro hfresh
    rcases h.files folder file hfile with hwritten | hwritten
    · exact Or.inl hwritten
    · right
      constructor <;> linarith
  · rintro (hwritten | ⟨hnow,hwritten⟩)
    · rw [hwritten]
      exact le_of_not_ge hdue
    · rw [hwritten, hnow]
      linarith

/-- One call gives its agent a fresh file exactly when it was served. -/
theorem step_allFresh_iff (h : Spaced s) (hfresh : AllFresh s) (hstep : step cfg s visit = some t) :
    AllFresh t ↔ Served cfg s visit := by
  rw [Throttle.step] at hstep
  split_ifs at hstep with htime
  rw [Served]
  cases hcall : processGroupMessages cfg visit.allowlist visit.app visit.chatJid with
  | invokes run =>
    rw [hcall] at hstep
    dsimp only at hstep
    simp only [Started.invokes.injEq, forall_eq']
    by_cases hdue : snapshotInterval ≤ visit.now - s.lastSnapshotTime
    · obtain ⟨_,hwrites⟩ := @snapshot_due s visit run hdue
      refine iff_of_true ?_ (Or.inl hdue)
      rcases hout : s.snapshot run visit with ⟨u,_ | e⟩ <;> rw [hout] at hstep hwrites <;>
        cases hstep
      · have hinvoked := hwrites.invoked
        obtain ⟨file,hfile,hwritten⟩ := hwrites.done rfl
        change ∀ j ∈ u.invoked ++ [_], j.Fresh
        dsimp only at hinvoked hfile
        rw [hinvoked, allFresh_concat hfresh]
        refine ⟨file,hfile,?_⟩
        have hpos : (0 : ℚ) ≤ snapshotInterval := by norm_num [snapshotInterval]
        dsimp only
        rw [hwritten]
        linarith
      · change ∀ j ∈ u.invoked, j.Fresh
        have hinvoked := hwrites.invoked
        dsimp only at hinvoked
        rw [hinvoked]
        exact hfresh
    · rw [or_iff_right hdue, ← fresh_throttled_iff h htime.1 hdue]
      rw [snapshot_throttled hdue] at hstep
      cases hstep
      exact allFresh_concat hfresh
  | _ =>
    rw [hcall] at hstep
    cases hstep
    exact iff_of_true hfresh (fun _ hrun => nomatch hrun)

theorem spaced_start : Spaced start := by
  refine ⟨le_refl _,?_⟩
  rintro _ _ ⟨⟩

/-- In every sequence of calls, of any groups and at any times that do not go back: every agent so far
found a fresh file in each state exactly when each call was served. -/
theorem snapshots_fresh_iff (cfg : Config) (visits : List Visit) (s : Throttle)
    (he : exec (Throttle.step cfg) start visits = some s) :
    (∀ n t, exec (Throttle.step cfg) start (visits.take n) = some t → AllFresh t) ↔
      Allowed (Throttle.step cfg) (Served cfg) start visits := by
  have hfresh : AllFresh start := by
    rintro _ ⟨⟩
  exact (allowed_iff_prefixes (fun _ _ _ h hstep => Spaced.step h hstep)
    (fun _ _ _ h hfresh hstep => step_allFresh_iff h hfresh hstep) spaced_start hfresh he).symm

end Calls

section Runs

private def folderGroup (folder : String) : RegisteredGroup where
  name := folder
  folder := folder
  trigger := "@Andy"
  addedAt := ""
  requiresTrigger := some false

private def asks (chatJid : String) : NewMessage :=
  ⟨chatJid,chatJid,"u","U","hi","2026-01-01T00:00:00Z",false,false⟩

private def twoChats : AppState :=
  .unanswered ((Dict.empty.set "local:a" (folderGroup "alpha")).set "local:b" (folderGroup "beta"))
    [asks "local:a",asks "local:b"]

/-- A call that nothing goes wrong with. -/
private def visitAt (now : ℚ) (chatJid : String) : Visit where
  now := now
  app := twoChats
  allowlist := everyone
  chatJid := chatJid
  tasks := .ok []
  tasksFault := none
  groupsFault := none

theorem snapshots_fresh_iff_apart : ∃ s,
    exec (Throttle.step localCfg) start [visitAt 10 "local:a",visitAt 13 "local:b"] = some s ∧
      ((∀ n t, exec (Throttle.step localCfg) start
            ([visitAt 10 "local:a",visitAt 13 "local:b"].take n) = some t → AllFresh t) ↔
        Allowed (Throttle.step localCfg) (Served localCfg) start
          [visitAt 10 "local:a",visitAt 13 "local:b"]) := by
  have hruns : (exec (Throttle.step localCfg) start
      [visitAt 10 "local:a",visitAt 13 "local:b"]).isSome = true := by decide +kernel
  obtain ⟨s,hs⟩ := Option.isSome_iff_exists.mp hruns
  exact ⟨s,hs,snapshots_fresh_iff localCfg _ s hs⟩

/-- A second group is called one second after the first: its agent finds no file. -/
theorem second_group_unserved :
    ∃ s, exec (Throttle.step localCfg) start [visitAt 10 "local:a",visitAt 11 "local:b"] = some s ∧
      ¬AllFresh s := by
  have hfiles : (exec (Throttle.step localCfg) start
      [visitAt 10 "local:a",visitAt 11 "local:b"]).map
        (fun s => s.invoked.map (fun i => (i.folder,i.file.isSome))) =
      some [("alpha",true),("beta",false)] := by decide +kernel
  obtain ⟨s,hs,hinvoked⟩ := Option.map_eq_some_iff.mp hfiles
  refine ⟨s,hs,fun hfresh => ?_⟩
  have hmem : ("beta",false) ∈ s.invoked.map (fun i => (i.folder,i.file.isSome)) :=
    hinvoked ▸ List.mem_cons_of_mem _ List.mem_cons_self
  obtain ⟨i,hi,hfile⟩ := List.mem_map.mp hmem
  obtain ⟨file,hsome,_⟩ := hfresh i hi
  rw [hsome] at hfile
  exact absurd (Prod.mk.inj hfile).2 (by simp)

end Runs

end Throttle

end NanoClaw.App
