import NanoClaw.Ipc.Isolation
import NanoClaw.Tasks.Due

/-! Nothing is run that was not asked for: a call of `run_task_fn` has the prompt, the chat and the group
of a row that was there at the start, or of a request that was allowed to make it. -/
namespace NanoClaw.Tasks
open Store IsoText Execution GroupQueue Ipc Json

/-- A row without the columns that a run or a request changes later. -/
def order (row : ScheduledTask) : ScheduledTask :=
  { row with nextRun := none, lastRun := none, lastResult := none, status := .active }

/-- The row is stored by a request for it, under the name of a group that may use its chat. -/
def Asks (ipc : Ipc.Lib) (s : System) (row : ScheduledTask) : Event → Prop
  | .schedule groups source isMain uuid fields =>
    s.db.getTaskById row.id = none ∧
      (s.schedule ipc groups source isMain uuid fields).db.getTaskById row.id = some row ∧
      StoredTask ipc ⟨s.now,uuid,none⟩ fields row ∧
      ∃ g, groups.get? row.chatJid = some g ∧ row.groupFolder = g.folder ∧
        (isMain = true ∨ g.folder = source)
  | .system _ => False

/-- What is known of a task: the table had it at the start, or an event has asked for it. -/
def Asked (cfg : Config) (ipc : Ipc.Lib) (s₀ : System) (es : List Event) (task : ScheduledTask) : Prop :=
  (∃ row, s₀.db.getTaskById task.id = some row ∧ order task = order row) ∨
    ∃ n e u row, es[n]? = some e ∧ exec (react cfg ipc) s₀ (es.take n) = some u ∧ Asks ipc u row e ∧
      order task = order row

section Rows
variable {cfg : Config} {db : TaskDb} {row' : ScheduledTask} {id : String}

theorem updateStatus_order {taskId : String} {status : TaskStatus}
    (h : (db.updateStatus taskId status).getTaskById id = some row') :
    ∃ row, db.getTaskById id = some row ∧ order row' = order row := by
  rw [TaskDb.getTaskById_updateStatus] at h
  split at h
  · rename_i he
    subst he
    obtain ⟨row,hrow,rfl⟩ := Option.map_eq_some_iff.mp h
    exact ⟨row,hrow,rfl⟩
  · exact ⟨row',h,rfl⟩

theorem handleTaskMutation_order {source : String} {isMain : Bool} {payloadType taskId : Json}
    {sends : List (Json × Json)}
    (h : (handleTaskMutation source isMain ⟨db,sends⟩ payloadType taskId).state.db.getTaskById id =
      some row') :
    ∃ row, db.getTaskById id = some row ∧ order row' = order row := by
  rcases handleTaskMutation_cases source isMain ⟨db,sends⟩ payloadType taskId with
    hs | ⟨task,_,_,_,⟨_,hs⟩ | ⟨_,hs⟩ | ⟨_,hs⟩⟩ <;> rw [hs] at h
  · exact ⟨row',h,rfl⟩
  · exact updateStatus_order h
  · exact updateStatus_order h
  · rw [TaskDb.getTaskById_deleteTask] at h
    split at h
    · cases h
    · exact ⟨row',h,rfl⟩

theorem recordRun_order {now : Int} {task : ScheduledTask} {result error : Option String} {durationMs : Int}
    (h : (recordRun cfg db now task result error durationMs).getTaskById id = some row') :
    ∃ row, db.getTaskById id = some row ∧ order row' = order row := by
  simp only [recordRun] at h
  split at h
  · rw [TaskDb.getTaskById_updateTaskAfterRun] at h
    split at h
    · rename_i he
      subst he
      obtain ⟨row,hrow,rfl⟩ := Option.map_eq_some_iff.mp h
      exact ⟨row,hrow,rfl⟩
    · exact ⟨row',h,rfl⟩
  · exact ⟨row',h,rfl⟩

theorem recordOutcome_order {now : Int} {task : ScheduledTask} {durationMs : Int} {outcome : TaskOutcome}
    (h : (recordOutcome cfg db now task durationMs outcome).getTaskById id = some row') :
    ∃ row, db.getTaskById id = some row ∧ order row' = order row := by
  cases outcome with
  | returned result => exact recordRun_order h
  | raised error => exact recordRun_order h
  | unencodable => exact ⟨row',h,rfl⟩

end Rows

section Steps
variable {cfg : Config} {ipc : Ipc.Lib} {s t : System} {e : Event} {row : ScheduledTask}

/-- Rows keep their orders, and a run that begins is that of a task which waited for its start. -/
structure Keeps (s t : System) : Prop where
  rows : ∀ id row, t.db.getTaskById id = some row →
    ∃ row₀, s.db.getTaskById id = some row₀ ∧ order row = order row₀
  runs : t.started = s.started ∨
    ∃ g q row, q ∈ s.queue.unstarted g ∧ t.started = s.started ++ [⟨q.fn,row⟩]

theorem Keeps.of_same (hdb : t.db = s.db) (hstarted : t.started = s.started) : Keeps s t :=
  ⟨fun _ row hrow => ⟨row,hdb ▸ hrow,rfl⟩,.inl hstarted⟩

theorem moveQueue_keeps {a : GroupQueue.Action ScheduledTask} (h : s.moveQueue a = some t) : Keeps s t := by
  obtain ⟨queue,_,rfl⟩ := Option.map_eq_some_iff.mp h
  exact .of_same rfl rfl

theorem beginTask_keeps {groups : Groups} {i : Nat} {b : Background ScheduledTask} {g : String}
    {q : QueuedTask ScheduledTask} (hq : q ∈ s.queue.unstarted g) : Keeps s (s.beginTask cfg groups i b g q) := by
  simp only [System.beginTask]
  split
  · exact ⟨fun _ _ hrow => updateStatus_order hrow,.inl rfl⟩
  · split
    · exact ⟨fun _ row hrow => ⟨row,hrow,rfl⟩,.inr ⟨g,q,_,hq,rfl⟩⟩
    · exact ⟨fun _ _ hrow => recordRun_order hrow,.inl rfl⟩

theorem step_keeps {a : Action} (h : step cfg s a = some t) : Keeps s t := by
  cases a with
  | tick now =>
    simp only [step] at h
    split_ifs at h
    cases h
    exact .of_same rfl rfl
  | poll =>
    cases h
    exact .of_same rfl rfl
  | mutate source isMain payloadType taskId =>
    cases h
    exact ⟨fun _ _ hrow => handleTaskMutation_order hrow,.inl rfl⟩
  | enqueueMessageCheck g => exact moveQueue_keeps (a := .enqueueMessageCheck g) h
  | notifyIdle g => exact moveQueue_keeps (a := .notifyIdle g) h
  | fireRetry i => exact moveQueue_keeps (a := .fireRetry i) h
  | begin i groups =>
    simp only [step] at h
    split at h
    · rename_i b g q hat
      obtain ⟨hb,hc⟩ := taskAt_eq_some hat
      split_ifs at h with hidle
      cases h
      have hfresh : b.started = false := Bool.eq_false_iff.mpr (fun hs => hidle (.inl hs))
      refine beginTask_keeps (g := g) ?_
      rw [(held_parkTask_runTask hb hfresh hc).1, mem_withTask]
      exact .inl ⟨rfl,rfl⟩
    · exact moveQueue_keeps h
  | finishMessages i outcome =>
    simp only [step] at h
    split at h
    · cases h
    · exact moveQueue_keeps h
  | finishTask i outcome durationMs =>
    simp only [step] at h
    split at h
    · split_ifs at h
      cases h
      exact ⟨fun _ _ hrow => recordOutcome_order hrow,.inl rfl⟩
    · cases h

/-- A row behind a request is one of before, or the one that the request asks for. -/
theorem schedule_rows {groups : Groups} {source uuid : String} {isMain : Bool}
    {fields : List (String × Json)} {id : String}
    (hrow : (s.schedule ipc groups source isMain uuid fields).db.getTaskById id = some row) :
    (∃ row₀, s.db.getTaskById id = some row₀ ∧ order row = order row₀) ∨
      Asks ipc s row (.schedule groups source isMain uuid fields) := by
  obtain ⟨_,rfl⟩ := TaskDb.getTaskById_eq_some_iff.mp hrow
  rcases @handleScheduleTask_cases ipc groups source isMain ⟨s.now,uuid,none⟩ ⟨s.db,[]⟩ fields with
    hs | ⟨task,db,g,hdb,hs,hg,hfolder,hmay⟩ | hchanged
  · have hsame : (s.schedule ipc groups source isMain uuid fields).db = s.db := congrArg State.db hs
    exact .inl ⟨row,hsame ▸ hrow,rfl⟩
  · have hnext : (s.schedule ipc groups source isMain uuid fields).db = db := congrArg State.db hs
    have hcreated := hrow
    rw [hnext, TaskDb.getTaskById_createTask hdb] at hcreated
    split at hcreated
    · cases hcreated
      have hnew := (TaskDb.createTask_eq_some hdb).1
      exact .inr ⟨hnew,hrow,handleScheduleTask_stored hnew hrow,g,hg,hfolder,hmay⟩
    · exact .inl ⟨row,hcreated,rfl⟩
  · obtain ⟨task,_,_,⟨status,hs⟩ | hs⟩ := hchanged
    · have hnext : (s.schedule ipc groups source isMain uuid fields).db = s.db.updateStatus task.id status :=
        congrArg State.db hs
      rw [hnext] at hrow
      exact .inl (updateStatus_order hrow)
    · have hnext : (s.schedule ipc groups source isMain uuid fields).db = s.db.deleteTask task.id :=
        congrArg State.db hs
      rw [hnext, TaskDb.getTaskById_deleteTask] at hrow
      split at hrow
      · cases hrow
      · exact .inl ⟨row,hrow,rfl⟩

end Steps

section Runs
variable {cfg : Config} {ipc : Ipc.Lib} {s₀ s t : System} {es : List Event} {e : Event}
  {task row : ScheduledTask}

theorem Asked.snoc (h : Asked cfg ipc s₀ es task) (e : Event) : Asked cfg ipc s₀ (es ++ [e]) task := by
  refine h.imp_right ?_
  rintro ⟨n,e',u,row,hn,hu,hasks,horder⟩
  have hlt : n < es.length := (List.getElem?_eq_some_iff.mp hn).1
  refine ⟨n,e',u,row,?_,?_,hasks,horder⟩
  · rwa [List.getElem?_append_left hlt]
  · rwa [List.take_append_of_le_length hlt.le]

theorem Asked.of_order (h : Asked cfg ipc s₀ es row) (horder : order task = order row) :
    Asked cfg ipc s₀ es task := by
  have hid : (order task).id = (order row).id := congrArg ScheduledTask.id horder
  rcases h with ⟨row₀,hrow,hsame⟩ | ⟨n,e,u,row₀,hn,hu,hasks,hsame⟩
  · exact .inl ⟨row₀,(congrArg _ hid).trans hrow,horder.trans hsame⟩
  · exact .inr ⟨n,e,u,row₀,hn,hu,hasks,horder.trans hsame⟩

theorem Asked.last (he : exec (react cfg ipc) s₀ es = some s) (h : Asks ipc s row e) :
    Asked cfg ipc s₀ (es ++ [e]) row := by
  refine .inr ⟨es.length,e,s,row,?_,?_,h,rfl⟩
  · exact List.getElem?_concat_length
  · rwa [List.take_left' rfl]

/-- The rows of the table, the tasks that wait for their start and the runs are all asked for. -/
structure AllAsked (cfg : Config) (ipc : Ipc.Lib) (s₀ : System) (es : List Event) (s : System) : Prop where
  ready : Ready s
  rows : ∀ id row, s.db.getTaskById id = some row → Asked cfg ipc s₀ es row
  waiting : ∀ g, ∀ q ∈ s.queue.unstarted g, Asked cfg ipc s₀ es q.fn
  runs : ∀ run ∈ s.started, Asked cfg ipc s₀ es run.task

theorem AllAsked.snoc (h : AllAsked cfg ipc s₀ es s) (he : exec (react cfg ipc) s₀ es = some s)
    (hstep : react cfg ipc s e = some t) : AllAsked cfg ipc s₀ (es ++ [e]) t := by
  refine ⟨react_ready h.ready hstep,?_,fun g q hq => ?_,?_⟩
  · intro id row hrow
    have hrow : (∃ row₀, s.db.getTaskById id = some row₀ ∧ order row = order row₀) ∨ Asks ipc s row e := by
      cases e with
      | schedule groups source isMain uuid fields =>
        cases hstep
        exact schedule_rows hrow
      | system a => exact .inl ((step_keeps hstep).rows id row hrow)
    rcases hrow with ⟨row₀,hrow₀,horder⟩ | hasks
    · exact ((h.rows id row₀ hrow₀).of_order horder).snoc e
    · exact Asked.last he hasks
  · rcases (react_shifts h.ready.inv.running hstep).added g q hq with hq | hrow
    · exact (h.waiting g q hq).snoc e
    · exact (h.rows _ _ hrow).snoc e
  · have hruns : t.started = s.started ∨
        ∃ g q row, q ∈ s.queue.unstarted g ∧ t.started = s.started ++ [⟨q.fn,row⟩] := by
      cases e with
      | schedule groups source isMain uuid fields =>
        cases hstep
        exact .inl rfl
      | system a => exact (step_keeps hstep).runs
    intro run hrun
    rcases hruns with hsame | ⟨g,q,row,hq,hmore⟩
    · exact (h.runs run (hsame ▸ hrun)).snoc e
    · rw [hmore] at hrun
      rcases List.mem_append.mp hrun with hrun | hlast
      · exact (h.runs run hrun).snoc e
      · rw [List.mem_singleton.mp hlast]
        exact (h.waiting g q hq).snoc e

/-- Over every run of the scheduler, its queue and requests of any group: what `run_task_fn` is called
with has the id, the prompt, the chat, the group and the schedule of a row of the first table, or of a row
that a request before has stored, and then the request names just these, and came from the group
itself or from the main one. -/
theorem runs_what_was_asked (cfg : Config) (ipc : Ipc.Lib) (maxC maxR base maxMs : Int) (p c : Bool)
    (db : TaskDb) (now : Int) (es : List Event) {s : System}
    (he : exec (react cfg ipc) (System.init maxC maxR base maxMs p c db now) es = some s) :
    ∀ run ∈ s.started, Asked cfg ipc (System.init maxC maxR base maxMs p c db now) es run.task := by
  refine (trace_invariant (P := AllAsked cfg ipc (System.init maxC maxR base maxMs p c db now))
    (fun es s e t he h hstep => h.snoc he hstep) ?_ he).runs
  refine ⟨ready_init maxC maxR base maxMs p c db now,?_,?_,?_⟩
  · exact fun id row hrow => .inl ⟨row,(TaskDb.getTaskById_eq_some_iff.mp hrow).2.symm ▸ hrow,rfl⟩
  · exact fun _ _ hq => absurd hq (Multiset.notMem_zero _)
  · exact fun _ hrun => absurd hrun List.not_mem_nil

theorem runs_what_was_asked_hourly : ∃ s,
    exec (react localCfg requestLib) (System.init 1 5 5000 300000 true true TaskDb.empty newYear)
        (firstRun "interval" "3600000") = some s ∧ s.started.length = 1 ∧
      ∀ run ∈ s.started, Asked localCfg requestLib
        (System.init 1 5 5000 300000 true true TaskDb.empty newYear) (firstRun "interval" "3600000") run.task := by
  have hrun : (exec (react localCfg requestLib) (System.init 1 5 5000 300000 true true TaskDb.empty newYear)
      (firstRun "interval" "3600000")).map (·.started.length) = some 1 := by
    decide +kernel
  obtain ⟨s,hs,hone⟩ := Option.map_eq_some_iff.mp hrun
  exact ⟨s,hs,hone,runs_what_was_asked localCfg requestLib 1 5 5000 300000 true true TaskDb.empty newYear
    _ hs⟩

end Runs

end NanoClaw.Tasks
