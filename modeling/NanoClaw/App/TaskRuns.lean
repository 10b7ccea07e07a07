import NanoClaw.App.Sessions

/-! Calls for messages and scheduled runs side by side, over the life of an installation: which sessions
they are run in, which they leave, and what becomes of the sessions with the agent that comes with the
host. -/
namespace NanoClaw.App
open Store Execution

/-- A call of `_run_scheduled_task` that waits for its agent. -/
structure TaskRun where
  task : ScheduledTask
  input : Container.ContainerInput

/-- `_run_scheduled_task` up to its await. It raises where no group has the folder. -/
def runScheduledTask (cfg : Config) (s : AppState) (task : ScheduledTask) : Option TaskRun :=
  (s.registeredGroups.values.find? (fun group => group.folder = task.groupFolder)).map (fun group =>
    { task := task
      input :=
        { prompt := task.prompt
          groupFolder := group.folder
          chatJid := task.chatJid
          isMain := group.isMain = some true
          sessionId := if task.contextMode = .group then s.sessions.get? group.folder else none
          isScheduledTask := true
          assistantName := some cfg.assistantName } })

/-- `_run_scheduled_task` from the agent's return on. -/
def finishTaskRun (s : AppState) (run : TaskRun) (result : AgentOutput) : AppState :=
  if result.status = "error" then s
  else
    match result.newSessionId with
    | none => s
    | some id =>
      if id ≠ "" ∧ run.task.contextMode = .group then
        { s with
          sessions := s.sessions.set run.input.groupFolder id
          savedSessions := s.savedSessions.set run.input.groupFolder id }
      else s

/-- The session that a scheduled run keeps. -/
def TaskRun.keptSession (run : TaskRun) (result : AgentOutput) : List (String × String) :=
  if result.status = "error" then []
  else
    match result.newSessionId with
    | none => []
    | some id => if id ≠ "" ∧ run.task.contextMode = .group then [(run.input.groupFolder,id)] else []

/-- An installation with the scheduled runs in flight. -/
structure Busy where
  installation : Installation
  taskRuns : List TaskRun

/-- What else happens: a scheduled run begins, its agent returns, or the agent or a callback raises. The
replies of a scheduled run are sends of the installation. -/
inductive BusyAction where
  | life (a : LifeAction)
  | beginTask (task : ScheduledTask)
  | endTask (i : Nat) (result : AgentOutput)
  | failTask (i : Nat)

namespace Busy
variable (cfg : Config) (interp : Json.Interp)

/-- The scheduled runs that are left: a new process has none. -/
def left (s : Busy) : LifeAction → List TaskRun
  | .restart => []
  | _ => s.taskRuns

def step (s : Busy) : BusyAction → Option Busy
  | .life a => (Installation.step cfg interp s.installation a).map (⟨·,s.left a⟩)
  | .beginTask task =>
    some { s with taskRuns := s.taskRuns ++ (runScheduledTask cfg s.installation.app task).toList }
  | .endTask i result =>
    s.taskRuns[i]?.map (fun run =>
      ⟨s.installation.setApp (finishTaskRun s.installation.app run result),s.taskRuns.eraseIdx i⟩)
  | .failTask i => s.taskRuns[i]?.map (fun _ => { s with taskRuns := s.taskRuns.eraseIdx i })

/-- The session that an action brings. -/
def returned (s : Busy) : BusyAction → List (String × String)
  | .life a => s.installation.returned a
  | .endTask i result => s.taskRuns[i]?.toList.flatMap (·.keptSession result)
  | _ => []

/-- The sessions that the agents of a run have returned, each with the folder of its call. -/
def returnedSessions : Busy → List BusyAction → List (String × String)
  | _, [] => []
  | s, a :: as => s.returned a ++ (step cfg interp s a).elim [] (returnedSessions · as)

/-- Calls and runs in flight have sessions that their folder has, and isolated runs have none. -/
structure RunsIn (has : String → String → Prop) (s : Busy) : Prop where
  calls : Installation.RunsIn has s.installation
  tasks : ∀ run ∈ s.taskRuns, ∀ id, run.input.sessionId = some id →
    run.task.contextMode = .group ∧ has run.input.groupFolder id

/-- The agent comes with the host, or came to no session. -/
def Shipped (input : Container.ContainerInput) (result : AgentOutput) : Prop :=
  result.newSessionId = none ∨
    ∃ agent : OneShot.Environment, result.newSessionId = (OneShot.reply agent input).newSessionId.join

/-- Each call that ends, and each scheduled run, has an agent that comes with the host. -/
def FromShippedAgent (s : Busy) : BusyAction → Prop
  | .life (.app (.finish chatJid result)) => ∀ flight, s.installation.world.flights chatJid = some flight →
      Shipped (containerInput cfg flight.run) result
  | .endTask i result => ∀ run, s.taskRuns[i]? = some run → Shipped run.input result
  | _ => True

end Busy

section Runs
variable {cfg : Config} {s : AppState} {run : TaskRun} {result : AgentOutput}

theorem finishTaskRun_sessions :
    (finishTaskRun s run result).savedSessions =
        Installation.setSessions s.savedSessions (run.keptSession result) ∧
      (finishTaskRun s run result).sessions =
        Installation.setSessions s.sessions (run.keptSession result) := by
  rw [finishTaskRun, TaskRun.keptSession]
  split_ifs
  · exact ⟨rfl,rfl⟩
  · cases result.newSessionId with
    | none => exact ⟨rfl,rfl⟩
    | some id =>
      dsimp only
      split_ifs
      · exact ⟨rfl,rfl⟩
      · exact ⟨rfl,rfl⟩

theorem TaskRun.mem_keptSession {e : String × String} (h : e ∈ run.keptSession result) :
    e.1 = run.input.groupFolder ∧ result.newSessionId = some e.2 := by
  rw [TaskRun.keptSession] at h
  split_ifs at h
  · cases h
  · cases hid : result.newSessionId with
    | none =>
      rw [hid] at h
      cases h
    | some id =>
      rw [hid] at h
      dsimp only at h
      split_ifs at h
      · cases List.mem_singleton.mp h
        exact ⟨rfl,rfl⟩
      · cases h

/-- A scheduled run begins in the session of its folder, or in none. -/
theorem runScheduledTask_session {task : ScheduledTask} (h : runScheduledTask cfg s task = some run)
    {id : String} (hid : run.input.sessionId = some id) :
    run.task.contextMode = .group ∧ s.sessions.get? run.input.groupFolder = some id := by
  obtain ⟨group,_,rfl⟩ := Option.map_eq_some_iff.mp h
  dsimp only at hid ⊢
  split_ifs at hid with hmode
  exact ⟨hmode,hid⟩

end Runs

namespace Busy
variable {cfg : Config} {interp : Json.Interp} {s t : Busy} {a : BusyAction}

theorem savedSessions_step (h : step cfg interp s a = some t) :
    t.installation.app.savedSessions =
      Installation.setSessions s.installation.app.savedSessions (s.returned a) := by
  cases a with
  | life a =>
    obtain ⟨installation,hstep,rfl⟩ := Option.map_eq_some_iff.mp h
    exact Installation.savedSessions_step hstep
  | beginTask task =>
    cases h
    rfl
  | endTask i result =>
    obtain ⟨run,hrun,rfl⟩ := Option.map_eq_some_iff.mp h
    rw [returned, hrun, Option.toList_some, List.flatMap_singleton]
    exact finishTaskRun_sessions.1
  | failTask i =>
    obtain ⟨_,_,rfl⟩ := Option.map_eq_some_iff.mp h
    rfl

/-- Sessions in memory stay those of the table. -/
theorem held_step (hheld : Installation.Held s.installation.app) (h : step cfg interp s a = some t) :
    Installation.Held t.installation.app := by
  cases a with
  | life a =>
    obtain ⟨installation,hstep,rfl⟩ := Option.map_eq_some_iff.mp h
    exact Installation.held_step hheld hstep
  | beginTask task =>
    cases h
    exact hheld
  | endTask i result =>
    obtain ⟨run,_,rfl⟩ := Option.map_eq_some_iff.mp h
    obtain ⟨hsaved,hsessions⟩ := @finishTaskRun_sessions s.installation.app run result
    intro folder id hid
    exact (congrArg (·.get? folder) hsaved).trans (setSessions_mono hheld _ folder id
      ((congrArg (·.get? folder) hsessions).symm.trans hid))
  | failTask i =>
    obtain ⟨_,_,rfl⟩ := Option.map_eq_some_iff.mp h
    exact hheld

/-- A call and a scheduled run begin in a session of the table. -/
theorem runsIn_step {has : String → String → Prop} (hheld : Installation.Held s.installation.app)
    (hsaved : ∀ folder id, s.installation.app.savedSessions.get? folder = some id → has folder id)
    (hruns : RunsIn has s) (h : step cfg interp s a = some t) : RunsIn has t := by
  cases a with
  | life a =>
    obtain ⟨installation,hstep,rfl⟩ := Option.map_eq_some_iff.mp h
    refine ⟨Installation.runsIn_step hheld hsaved hruns.calls hstep,fun run hrun => ?_⟩
    cases a with
    | restart => exact absurd hrun List.not_mem_nil
    | _ => exact hruns.tasks run hrun
  | beginTask task =>
    cases h
    refine ⟨hruns.calls,fun run hrun id hid => ?_⟩
    rcases List.mem_append.mp hrun with hrun | hnew
    · exact hruns.tasks run hrun id hid
    · obtain ⟨hmode,hsession⟩ := runScheduledTask_session (Option.mem_toList.mp hnew) hid
      exact ⟨hmode,hsaved _ _ (hheld _ _ hsession)⟩
  | endTask i result =>
    obtain ⟨_,_,rfl⟩ := Option.map_eq_some_iff.mp h
    exact ⟨hruns.calls,fun run hrun => hruns.tasks run (List.mem_of_mem_eraseIdx hrun)⟩
  | failTask i =>
    obtain ⟨_,_,rfl⟩ := Option.map_eq_some_iff.mp h
    exact ⟨hruns.calls,fun run hrun => hruns.tasks run (List.mem_of_mem_eraseIdx hrun)⟩

theorem returnedSessions_cons (h : step cfg interp s a = some t) (as : List BusyAction) :
    returnedSessions cfg interp s (a :: as) = s.returned a ++ returnedSessions cfg interp t as := by
  rw [returnedSessions, h]
  rfl

theorem savedSessions_exec {as : List BusyAction} (he : exec (step cfg interp) s as = some t) :
    t.installation.app.savedSessions = Installation.setSessions s.installation.app.savedSessions
      (returnedSessions cfg interp s as) := by
  induction as generalizing s with
  | nil =>
    cases he
    rfl
  | cons a as ih =>
    obtain ⟨u,hu,he⟩ := (exec_cons_iff _ _ _ _ _).mp he
    rw [ih he, savedSessions_step hu, returnedSessions_cons hu, Installation.setSessions,
      Installation.setSessions, Installation.setSessions, List.foldl_append]

theorem RunsIn.mono {has has' : String → String → Prop} (h : RunsIn has s)
    (hle : ∀ folder id, has folder id → has' folder id) : RunsIn has' s :=
  ⟨fun jid flight id hflight hid => hle _ _ (h.calls jid flight id hflight hid),
    fun run hrun id hid => (h.tasks run hrun id hid).imp_right (hle _ _)⟩

theorem runsIn_exec {as : List BusyAction} {sessions : List (String × String)}
    (hheld : Installation.Held s.installation.app)
    (hsaved : ∀ folder id, s.installation.app.savedSessions.get? folder = some id →
      (folder,id) ∈ sessions)
    (hruns : RunsIn (fun folder id => (folder,id) ∈ sessions) s)
    (he : exec (step cfg interp) s as = some t) :
    RunsIn (fun folder id => (folder,id) ∈ sessions ++ returnedSessions cfg interp s as) t := by
  induction as generalizing s sessions with
  | nil =>
    cases he
    exact hruns.mono (fun _ _ => List.mem_append_left _)
  | cons a as ih =>
    obtain ⟨u,hu,he⟩ := (exec_cons_iff _ _ _ _ _).mp he
    rw [returnedSessions_cons hu, ← List.append_assoc]
    refine ih (held_step hheld hu) (fun folder id hid => ?_)
      ((runsIn_step hheld hsaved hruns hu).mono (fun _ _ => List.mem_append_left _)) he
    rw [savedSessions_step hu] at hid
    rcases Installation.of_get?_setSessions hid with hid | hid
    · exact List.mem_append_left _ (hsaved folder id hid)
    · exact List.mem_append_right _ hid

/-- Nothing runs. -/
structure Idle (s : Busy) : Prop where
  calls : ∀ jid, s.installation.world.flights jid = none
  tasks : s.taskRuns = []

theorem Idle.runsIn (h : Idle s) (has : String → String → Prop) : RunsIn has s := by
  refine ⟨fun jid flight id hflight => ?_,fun run hrun => ?_⟩
  · rw [h.calls] at hflight
    cases hflight
  · rw [h.tasks] at hrun
    cases hrun

/-- Over the life of an installation, with restarts and any agents whose session ids are texts without a
lone surrogate, of calls for messages and scheduled runs side by side: the table of the sessions is what the
returned sessions make of it, each set for the folder of its call; memory has no other session; an isolated
run has none; and whatever else is run in a session, the table had it for that folder at the start or an
agent of the folder has returned it. -/
theorem sessions_of_runs (cfg : Config) (interp : Json.Interp) (s t : Busy) (as : List BusyAction)
    (hheld : Installation.Held s.installation.app) (hidle : Idle s)
    (he : exec (step cfg interp) s as = some t) :
    t.installation.app.savedSessions = Installation.setSessions s.installation.app.savedSessions
        (returnedSessions cfg interp s as) ∧
      Installation.Held t.installation.app ∧
        RunsIn (fun folder id => (folder,id) ∈
          s.installation.app.savedSessions.entries ++ returnedSessions cfg interp s as) t := by
  refine ⟨savedSessions_exec he,?_,?_⟩
  · exact Reachable.invariant (P := fun s => Installation.Held s.installation.app)
      (fun _ _ _ h hstep => held_step h hstep) ⟨as,he⟩ hheld
  · exact runsIn_exec hheld (fun folder id hid => Dict.mem_of_lookup hid) (hidle.runsIn _) he

section Shipped

/-- The agent that comes with the host returns the session it was given. -/
theorem reply_session (agent : OneShot.Environment) (input : Container.ContainerInput) :
    (OneShot.reply agent input).newSessionId.join = none ∨
      (OneShot.reply agent input).newSessionId.join = input.sessionId := by
  rw [OneShot.reply]
  cases OneShot.claudeText agent input.prompt input.sessionId with
  | error err => exact Or.inl rfl
  | ok answer => exact Or.inr rfl

theorem Shipped.session {input : Container.ContainerInput} {result : AgentOutput} {id : String}
    (h : Shipped input result) (hid : result.newSessionId = some id) : input.sessionId = some id := by
  rcases h with hnone | ⟨agent,hagent⟩
  · rw [hnone] at hid
    cases hid
  · rcases reply_session agent input with hnone | hsame
    · rw [hagent, hnone] at hid
      cases hid
    · exact hsame.symm.trans (hagent.symm.trans hid)

/-- The table has stayed, memory has no other session, and calls are run in sessions of the table. -/
structure Fixed (saved : Dict String String) (s : Busy) : Prop where
  table : s.installation.app.savedSessions = saved
  held : Installation.Held s.installation.app
  runs : RunsIn (fun folder id => saved.get? folder = some id) s

/-- What a call or a run of such an agent keeps is its own session. -/
theorem returned_shipped {has : String → String → Prop} (hruns : RunsIn has s)
    (hshipped : FromShippedAgent cfg s a) {e : String × String} (h : e ∈ s.returned a) : has e.1 e.2 := by
  cases a with
  | life a =>
    obtain ⟨chatJid,flight,result,rfl,hflight,hkept⟩ := Installation.mem_returned h
    obtain ⟨hfolder,hid⟩ := mem_keptSession hkept
    rw [hfolder]
    exact hruns.calls chatJid flight e.2 hflight ((hshipped flight hflight).session hid)
  | endTask i result =>
    obtain ⟨run,hrun,hkept⟩ := List.mem_flatMap.mp h
    have hat : s.taskRuns[i]? = some run := Option.mem_toList.mp hrun
    obtain ⟨hfolder,hid⟩ := TaskRun.mem_keptSession hkept
    rw [hfolder]
    exact (hruns.tasks run (List.mem_of_getElem? hat) e.2 ((hshipped run hat).session hid)).2
  | beginTask task => cases h
  | failTask i => cases h

theorem Fixed.step {saved : Dict String String} (hfixed : Fixed saved s)
    (hshipped : FromShippedAgent cfg s a) (h : step cfg interp s a = some t) : Fixed saved t := by
  refine ⟨?_,held_step hfixed.held h,?_⟩
  · rw [savedSessions_step h, hfixed.table]
    exact Installation.setSessions_known (fun e he => returned_shipped hfixed.runs hshipped he)
  · exact runsIn_step hfixed.held (fun folder id hid => hfixed.table ▸ hid) hfixed.runs h

/-- With the agent that comes with the host, whatever its CLI does, no call, no scheduled run and no
restart changes the table of the sessions: where it is empty, nothing is ever run in a session. -/
theorem shipped_sessions_fixed (cfg : Config) (interp : Json.Interp) (s t : Busy) (as : List BusyAction)
    (hheld : Installation.Held s.installation.app) (hidle : Idle s)
    (hshipped : Allowed (step cfg interp) (FromShippedAgent cfg) s as)
    (he : exec (step cfg interp) s as = some t) : Fixed s.installation.app.savedSessions t :=
  allowed_invariant (P := Fixed s.installation.app.savedSessions)
    (fun _ _ _ hfixed hshipped hstep => hfixed.step hshipped hstep) ⟨rfl,hheld,hidle.runsIn _⟩ hshipped he

end Shipped

section Runs

private def atRest : Busy := ⟨Installation.fresh,[]⟩

private theorem atRest_held : Installation.Held atRest.installation.app := by
  intro folder id hid
  cases hid

private theorem atRest_idle : Idle atRest := ⟨fun _ => rfl,rfl⟩

private def reminder : ScheduledTask :=
  ⟨"t","main","local:main","hi",.interval,"60000",.group,none,none,none,.active,""⟩

/-- A call that ends with this session, a new process, and a scheduled run in the session of the group. -/
private def callAndRun (newSessionId : Option String) : List BusyAction :=
  [.life (.register "local:main" mainGroup),
    .life (.app (.inbound everyone (firstMessage "local:main"))),
    .life (.app (.process everyone "local:main")),
    .life (.app (.finish "local:main" ⟨"success",some "Hello!",newSessionId⟩)),.life .restart,
    .beginTask reminder]

/-- The agent of the call has returned a session, and the scheduled run is run in it. -/
theorem sessions_of_runs_named : ∃ t,
    exec (step localCfg localInterp) atRest (callAndRun (some "s1")) = some t ∧
      t.taskRuns.map (·.input.sessionId) = [some "s1"] ∧
      t.installation.app.savedSessions = Installation.setSessions Dict.empty
        (returnedSessions localCfg localInterp atRest (callAndRun (some "s1"))) := by
  have hruns : (exec (step localCfg localInterp) atRest (callAndRun (some "s1"))).map
      (·.taskRuns.map (·.input.sessionId)) = some [some "s1"] := by decide +kernel
  obtain ⟨t,ht,hsession⟩ := Option.map_eq_some_iff.mp hruns
  exact ⟨t,ht,hsession,(sessions_of_runs localCfg localInterp atRest t _ atRest_held atRest_idle ht).1⟩

/-- The group has a session, in the table and in memory. -/
private def inSession : Busy where
  installation := Installation.fresh.setApp
    { Installation.fresh.app with
      sessions := Dict.empty.set "main" "s0"
      savedSessions := Dict.empty.set "main" "s0" }
  taskRuns := []

/-- Both runs are run in the session of the group, which the agent of the call returns. -/
theorem shipped_sessions_fixed_named : ∃ t,
    exec (step localCfg localInterp) inSession (callAndRun (some "s0")) = some t ∧
      t.taskRuns.map (·.input.sessionId) = [some "s0"] ∧ Fixed (Dict.empty.set "main" "s0") t := by
  have hruns : (exec (step localCfg localInterp) inSession (callAndRun (some "s0"))).map
      (·.taskRuns.map (·.input.sessionId)) = some [some "s0"] := by decide +kernel
  have hcall : (exec (step localCfg localInterp) inSession ((callAndRun (some "s0")).take 3)).map
      (fun u => (u.installation.world.flights "local:main").map (·.run.sessionId)) = some (some (some "s0")) := by
    decide +kernel
  obtain ⟨t,ht,hsession⟩ := Option.map_eq_some_iff.mp hruns
  refine ⟨t,ht,hsession,shipped_sessions_fixed localCfg localInterp inSession t _ (fun _ _ hid => hid)
    ⟨fun _ => rfl,rfl⟩ ?_ ht⟩
  refine allowed_of_take (fun n a u ha hu => ?_)
  match n, ha with
  | 0, rfl | 1, rfl | 2, rfl | 4, rfl | 5, rfl => trivial
  | 3, rfl =>
    rw [hu] at hcall
    intro flight hflight
    -- The CLI does not run here: the agent echoes the prompt.
    refine Or.inr ⟨⟨localInterp,fun _ => "",fun _ => "",none⟩,?_⟩
    have hid : flight.run.sessionId = some "s0" := by simpa [hflight] using hcall
    exact hid.symm

end Runs

end Busy

end NanoClaw.App
