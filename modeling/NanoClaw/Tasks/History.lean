import NanoClaw.Ipc.Fatal
import NanoClaw.Tasks.Life

/-! What the tables do not keep: which rows have once been completed, and which runs in flight have
seen their row go. -/
namespace NanoClaw.Tasks
open Store IsoText Execution Ipc

/-- What is recorded of a run as its result, unless that cannot be stored. -/
def TaskOutcome.summary? : TaskOutcome → Option String
  | .returned result => some (runSummary result none)
  | .raised error => some (runSummary none (some error))
  | .unencodable => none

section Rows

/-- A `resume_task` request for a task it may change. -/
def Resumes (db : TaskDb) (e : Event) (id : String) : Prop :=
  match e with
  | .system (.mutate source isMain payloadType taskId) =>
    taskId = .str id ∧ isStr payloadType "resume_task" = true ∧
      ∃ row, db.getTaskById id = some row ∧ (isMain = true ∨ row.groupFolder = source)
  | _ => False

variable {cfg : Config} {s : System} {e : Event} {db : TaskDb} {id : String}

theorem resumed_row {source : String} {isMain : Bool} {payloadType taskId : Json}
    (h : Resumes db (.system (.mutate source isMain payloadType taskId)) id) :
    ∃ row, (handleTaskMutation source isMain ⟨db,[]⟩ payloadType taskId).state.db.getTaskById id =
      some row ∧ row.status = .active := by
  obtain ⟨rfl,htype,row,hrow,hmay⟩ := h
  have hallowed : ¬(¬isMain = true ∧ row.groupFolder ≠ source) := by tauto
  rw [isStr_eq_true.mp htype]
  simp only [handleTaskMutation, hrow, if_neg hallowed]
  refine ⟨{ row with status := .active },?_,rfl⟩
  exact (TaskDb.getTaskById_updateStatus ..).trans ((if_pos rfl).trans (by rw [hrow]; rfl))

private theorem updateStatus_from {taskId : String} {status : TaskStatus} {row' : ScheduledTask}
    (h : (db.updateStatus taskId status).getTaskById id = some row') :
    ∃ row, db.getTaskById id = some row ∧ row'.nextRun = row.nextRun ∧
      (row'.status = row.status ∨ id = taskId ∧ row'.status = status) := by
  rw [TaskDb.getTaskById_updateStatus] at h
  split at h
  · rename_i hid
    subst hid
    obtain ⟨row,hrow,rfl⟩ := Option.map_eq_some_iff.mp h
    exact ⟨row,hrow,rfl,Or.inr ⟨rfl,rfl⟩⟩
  · exact ⟨row',h,rfl,Or.inl rfl⟩

/-- The row a task that ran has now, when it still has one. -/
private theorem recordRun_from {now : Int} {task row' : ScheduledTask} {result error : Option String}
    {durationMs : Int}
    (h : (recordRun cfg db now task result error durationMs).getTaskById id = some row') :
    ∃ row, db.getTaskById id = some row ∧
      (row'.nextRun = row.nextRun ∨ (row'.nextRun = none → row'.status = .completed)) ∧
      (row'.status = .active → row.status = .active) := by
  rw [recordRun] at h
  split at h
  · rw [TaskDb.getTaskById_updateTaskAfterRun] at h
    split at h
    · rename_i nextRun _ hid
      subst hid
      obtain ⟨row,hrow,rfl⟩ := Option.map_eq_some_iff.mp h
      refine ⟨row,hrow,Or.inr (fun hnone => if_pos hnone),fun hactive => ?_⟩
      simp only at hactive
      split at hactive
      · cases hactive
      · exact hactive
    · exact ⟨row',h,Or.inl rfl,fun hactive => hactive⟩
  · exact ⟨row',h,Or.inl rfl,fun hactive => hactive⟩

/-- Where a row comes from: it is new, or was there, and is active only if it was or is
resumed. -/
theorem Written.row {row' : ScheduledTask} (hw : Written cfg s e db)
    (hrow' : db.getTaskById id = some row') :
    (s.db.getTaskById id = none ∧ row'.nextRun ≠ none ∧ row'.status = .active) ∨
      ∃ row, s.db.getTaskById id = some row ∧
        (row'.nextRun = row.nextRun ∨ (row'.nextRun = none → row'.status = .completed)) ∧
        (row'.status = .active → row.status = .active ∨ Resumes s.db e id) := by
  cases hw with
  | same => exact Or.inr ⟨row',hrow',Or.inl rfl,Or.inl⟩
  | created _ task _ _ hdb hactive hnext =>
    rw [TaskDb.getTaskById_createTask hdb] at hrow'
    split at hrow'
    · rename_i hid
      cases hrow'
      exact Or.inl ⟨hid ▸ (TaskDb.createTask_eq_some hdb).1,hnext,hactive⟩
    · exact Or.inr ⟨row',hrow',Or.inl rfl,Or.inl⟩
  | mutated source isMain payloadType taskId =>
    refine Or.inr ?_
    rcases handleTaskMutation_cases source isMain ⟨s.db,[]⟩ payloadType taskId with
      hs | ⟨task,htask,rfl,hmay,⟨_,hs⟩ | ⟨hresume,hs⟩ | ⟨_,hs⟩⟩ <;> rw [hs] at hrow'
    · exact ⟨row',hrow',Or.inl rfl,Or.inl⟩
    · obtain ⟨row,hrow,hnext,hstatus | ⟨_,hpaused⟩⟩ := updateStatus_from hrow'
      · exact ⟨row,hrow,Or.inl hnext,fun hactive => Or.inl (hstatus ▸ hactive)⟩
      · refine ⟨row,hrow,Or.inl hnext,fun hactive => ?_⟩
        rw [hpaused] at hactive
        cases hactive
    · obtain ⟨row,hrow,hnext,hstatus | ⟨rfl,_⟩⟩ := updateStatus_from hrow'
      · exact ⟨row,hrow,Or.inl hnext,fun hactive => Or.inl (hstatus ▸ hactive)⟩
      · exact ⟨row,hrow,Or.inl hnext,fun _ => Or.inr ⟨rfl,hresume,task,htask,hmay⟩⟩
    · rw [TaskDb.getTaskById_deleteTask] at hrow'
      split at hrow'
      · cases hrow'
      · exact ⟨row',hrow',Or.inl rfl,Or.inl⟩
  | refused _ log _ =>
    obtain ⟨row,hrow,hnext,hstatus | ⟨_,hpaused⟩⟩ := updateStatus_from hrow'
    · exact Or.inr ⟨row,hrow,Or.inl hnext,fun hactive => Or.inl (hstatus ▸ hactive)⟩
    · refine Or.inr ⟨row,hrow,Or.inl hnext,fun hactive => ?_⟩
      rw [hpaused] at hactive
      cases hactive
  | recorded _ task result error durationMs _ =>
    obtain ⟨row,hrow,hnext,hstatus⟩ := recordRun_from hrow'
    exact Or.inr ⟨row,hrow,hnext,fun hactive => Or.inl (hstatus hactive)⟩

end Rows

/-- The runs in flight: the group of each and the id of its task. -/
def System.runs (s : System) : List (String × String) :=
  s.queue.backgroundTasks.filterMap (fun b =>
    match b.coro with
    | .runTask g task => if b.started then some (g,task.fn.id) else none
    | _ => none)

/-- A system with its history: the runs in flight whose row has been missing since they started,
and the ids of the rows that have been completed since they were created. -/
structure Life where
  system : System
  orphaned : List (String × String)
  completed : List String

namespace Life

/-- A system on an empty table, before its first event. -/
def start (maxConcurrent maxRetries baseRetryMs maxRetryMs : Int)
    (processMessagesFn closeStdinFn : Bool) (now : Int) : Life where
  system := System.init maxConcurrent maxRetries baseRetryMs maxRetryMs processMessagesFn closeStdinFn
    TaskDb.empty now
  orphaned := []
  completed := []

/-- The system moves on to a new state. -/
def follow (l : Life) (t : System) : Life where
  system := t
  orphaned := t.runs.filter (fun r => r ∈ l.orphaned ∨ t.db.getTaskById r.2 = none)
  completed :=
    (t.db.tasks.rows.filter (fun row => row.status = .completed ∨ row.id ∈ l.completed)).map (·.id)

def step (cfg : Config) (ipc : Ipc.Lib) (l : Life) (e : Event) : Option Life :=
  (react cfg ipc l.system e).map l.follow

variable {cfg : Config} {ipc : Ipc.Lib} {l l' : Life} {e : Event}

theorem step_eq_some (h : step cfg ipc l e = some l') :
    ∃ t, react cfg ipc l.system e = some t ∧ l' = l.follow t := by
  obtain ⟨t,ht,rfl⟩ := Option.map_eq_some_iff.mp h
  exact ⟨t,ht,rfl⟩

theorem mem_completed {t : System} {id : String} : id ∈ (l.follow t).completed ↔
    ∃ row, t.db.getTaskById id = some row ∧ (row.status = .completed ∨ id ∈ l.completed) := by
  simp only [follow, List.mem_map, List.mem_filter, decide_eq_true_eq, TaskDb.getTaskById_eq_some_iff]
  constructor
  · rintro ⟨row,⟨hrow,hdone⟩,rfl⟩
    exact ⟨row,⟨hrow,rfl⟩,hdone⟩
  · rintro ⟨row,⟨hrow,rfl⟩,hdone⟩
    exact ⟨row,⟨hrow,hdone⟩,rfl⟩

section Completed

/-- No request resumes a task that has been completed. -/
def ResumesUncompleted (l : Life) (e : Event) : Prop :=
  ∀ id ∈ l.completed, ¬Resumes l.system.db e id

/-- An active row can become due, and has not been completed. -/
def ActiveRowsDue (l : Life) : Prop :=
  ∀ id row, l.system.db.getTaskById id = some row → row.status = .active →
    row.nextRun ≠ none ∧ id ∉ l.completed

/-- A row without a next run has been completed, and what has been completed has a row. -/
structure Recorded (l : Life) : Prop where
  ended : ∀ id row, l.system.db.getTaskById id = some row → row.nextRun = none → id ∈ l.completed
  rows : ∀ id ∈ l.completed, l.system.db.getTaskById id ≠ none

theorem recorded_step (h : Recorded l) (hstep : step cfg ipc l e = some l') : Recorded l' := by
  obtain ⟨t,ht,rfl⟩ := step_eq_some hstep
  refine ⟨fun id row' hrow' hnone => ?_,fun id hid => ?_⟩
  · refine mem_completed.mpr ⟨row',hrow',?_⟩
    rcases (react_written ht).row hrow' with ⟨_,hnext,_⟩ | ⟨row,hrow,hsame | hdone,_⟩
    · exact absurd hnone hnext
    · exact Or.inr (h.ended id row hrow (hsame ▸ hnone))
    · exact Or.inl (hdone hnone)
  · obtain ⟨row,hrow,_⟩ := mem_completed.mp hid
    exact fun hnone => Option.some_ne_none row (hrow.symm.trans hnone)

/-- After an event the active rows can become due exactly when the event resumes nothing that has
been completed. -/
theorem activeRowsDue_iff (hr : Recorded l) (h : ActiveRowsDue l)
    (hstep : step cfg ipc l e = some l') : ActiveRowsDue l' ↔ ResumesUncompleted l e := by
  obtain ⟨t,ht,rfl⟩ := step_eq_some hstep
  have hw := react_written ht
  constructor
  · intro h' id hid hresumes
    match e, hresumes, hw with
    | .system (.mutate source isMain payloadType taskId), hresumes, hw =>
      cases ht
      obtain ⟨row,hrow,hactive⟩ := resumed_row hresumes
      exact (h' id row hrow hactive).2 (mem_completed.mpr ⟨row,hrow,Or.inr hid⟩)
  · intro hc id row' hrow' hactive
    have hnot : id ∉ l.completed → id ∉ (l.follow t).completed := by
      intro hid hmem
      obtain ⟨row,hrow,hdone | hmem⟩ := mem_completed.mp hmem
      · cases hrow.symm.trans hrow'
        rw [hactive] at hdone
        cases hdone
      · exact hid hmem
    rcases hw.row hrow' with ⟨hnew,hnext,_⟩ | ⟨row,hrow,hnext,hfrom⟩
    · exact ⟨hnext,hnot (fun hid => hr.rows id hid hnew)⟩
    · have hid : id ∉ l.completed := by
        rcases hfrom hactive with hold | hresumes
        · exact (h id row hrow hold).2
        · exact fun hid => hc id hid hresumes
      refine ⟨fun hnone => ?_,hnot hid⟩
      rcases hnext with hsame | hdone
      · exact hid (hr.ended id row hrow (hsame ▸ hnone))
      · rw [hactive] at hdone
        cases hdone hnone

/-- For every sequence of requests and steps of the scheduler from an empty table: in every state
each active row has a next run and has not been completed before, exactly when no request ever
resumes a task that has been completed. -/
theorem active_rows_due_iff {maxConcurrent maxRetries baseRetryMs maxRetryMs : Int}
    {processMessagesFn closeStdinFn : Bool} {now : Int} {es : List Event}
    (he : exec (step cfg ipc) (start maxConcurrent maxRetries baseRetryMs maxRetryMs processMessagesFn
      closeStdinFn now) es = some l) :
    (∀ n l', exec (step cfg ipc) (start maxConcurrent maxRetries baseRetryMs maxRetryMs
        processMessagesFn closeStdinFn now) (es.take n) = some l' → ActiveRowsDue l') ↔
      Allowed (step cfg ipc) ResumesUncompleted (start maxConcurrent maxRetries baseRetryMs maxRetryMs
        processMessagesFn closeStdinFn now) es := by
  refine (allowed_iff_prefixes (fun _ _ _ h hstep => recorded_step h hstep)
    (fun _ _ _ hr h hstep => activeRowsDue_iff hr h hstep) ?_ ?_ he).symm
  · exact ⟨fun id row hrow => (by cases hrow),fun id hid => (by cases hid)⟩
  · exact fun id row hrow => (by cases hrow)

end Completed

section Orphans

/-- The task and the outcome of an orphaned run that an event ends. -/
def orphanEnd (l : Life) : Event → Option (ScheduledTask × TaskOutcome)
  | .system (.finishTask i outcome _) =>
    (l.system.taskAt i).bind (fun (_,g,q) =>
      if (g,q.fn.id) ∈ l.orphaned then some (q.fn,outcome) else none)
  | _ => none

/-- The end of an orphaned run leaves the row that has the id of its task now as it was. -/
def SparesRow (l : Life) (e : Event) (l' : Life) : Prop :=
  ∀ task outcome, orphanEnd l e = some (task,outcome) →
    ∀ row, l.system.db.getTaskById task.id = some row →
      ∃ row', l'.system.db.getTaskById task.id = some row' ∧ row'.nextRun = row.nextRun ∧
        row'.status = row.status ∧ row'.lastRun = row.lastRun ∧ row'.lastResult = row.lastResult

/-- Of an orphaned run nothing is recorded in a row, because its result cannot be stored or no next
run can be computed, or only what the row holds already. -/
def RecordsNothing (cfg : Config) (l : Life) (e : Event) : Prop :=
  ∀ task outcome, orphanEnd l e = some (task,outcome) →
    ∀ row, l.system.db.getTaskById task.id = some row →
      ∀ summary ∈ outcome.summary?, ∀ nextRun,
        computeNextRun cfg.lib l.system.now task = .ok nextRun →
          row.nextRun = nextRun ∧ row.lastRun = some (utcIso l.system.now) ∧
            row.lastResult = some summary ∧ (nextRun = none → row.status = .completed)

/-- The end of a run spares the row of its task exactly when it records nothing new in it. -/
private theorem recordOutcome_spares_iff {db : TaskDb} {now : Int} {task row : ScheduledTask}
    {outcome : TaskOutcome} {durationMs : Int} (hrow : db.getTaskById task.id = some row) :
    (∃ row', (recordOutcome cfg db now task durationMs outcome).getTaskById task.id = some row' ∧
      row'.nextRun = row.nextRun ∧ row'.status = row.status ∧ row'.lastRun = row.lastRun ∧
        row'.lastResult = row.lastResult) ↔
      ∀ summary ∈ outcome.summary?, ∀ nextRun, computeNextRun cfg.lib now task = .ok nextRun →
        row.nextRun = nextRun ∧ row.lastRun = some (utcIso now) ∧ row.lastResult = some summary ∧
          (nextRun = none → row.status = .completed) := by
  have hrecord : ∀ result error, (∃ row', (recordRun cfg db now task result error
      durationMs).getTaskById task.id = some row' ∧ row'.nextRun = row.nextRun ∧
        row'.status = row.status ∧ row'.lastRun = row.lastRun ∧ row'.lastResult = row.lastResult) ↔
      ∀ nextRun, computeNextRun cfg.lib now task = .ok nextRun →
        row.nextRun = nextRun ∧ row.lastRun = some (utcIso now) ∧
          row.lastResult = some (runSummary result error) ∧
            (nextRun = none → row.status = .completed) := by
    intro result error
    rw [recordRun]
    cases computeNextRun cfg.lib now task with
    | error e =>
      simp [TaskDb.getTaskById_logTaskRun, hrow]
    | ok nextRun =>
      rw [TaskDb.getTaskById_updateTaskAfterRun, if_pos rfl, TaskDb.getTaskById_logTaskRun, hrow]
      simp only [Option.map_some, Option.some.injEq, exists_eq_left', Except.ok.injEq, forall_eq']
      constructor
      · rintro ⟨hnext,hstatus,hlast,hresult⟩
        refine ⟨hnext.symm,hlast.symm,hresult.symm,fun hnone => ?_⟩
        rw [← hstatus, if_pos hnone]
      · rintro ⟨hnext,hlast,hresult,hstatus⟩
        refine ⟨hnext.symm,?_,hlast.symm,hresult.symm⟩
        split
        · rename_i hnone
          exact (hstatus hnone).symm
        · rfl
  cases outcome with
  | returned result => simpa [recordOutcome, TaskOutcome.summary?] using hrecord result none
  | raised error => simpa [recordOutcome, TaskOutcome.summary?] using hrecord none (some error)
  | unencodable => simp [recordOutcome, TaskOutcome.summary?, hrow]

theorem sparesRow_iff (h : step cfg ipc l e = some l') : SparesRow l e l' ↔ RecordsNothing cfg l e := by
  obtain ⟨t,ht,rfl⟩ := step_eq_some h
  match e with
  | .system (.finishTask i outcome durationMs) =>
    simp only [react, Tasks.step] at ht
    split at ht
    · rename_i b g q hat
      split at ht
      · cases ht
        simp only [SparesRow, RecordsNothing, orphanEnd, hat, Option.bind_some]
        split
        · constructor
          · rintro h task outcome' ⟨⟩ row hrow
            exact (recordOutcome_spares_iff hrow).mp (h _ _ rfl row hrow)
          · rintro h task outcome' ⟨⟩ row hrow
            exact (recordOutcome_spares_iff hrow).mpr (h _ _ rfl row hrow)
        · simp
      · cases ht
    · cases ht
  | .schedule .. => simp [SparesRow, RecordsNothing, orphanEnd]
  | .system (.tick _) => simp [SparesRow, RecordsNothing, orphanEnd]
  | .system .poll => simp [SparesRow, RecordsNothing, orphanEnd]
  | .system (.mutate ..) => simp [SparesRow, RecordsNothing, orphanEnd]
  | .system (.enqueueMessageCheck _) => simp [SparesRow, RecordsNothing, orphanEnd]
  | .system (.notifyIdle _) => simp [SparesRow, RecordsNothing, orphanEnd]
  | .system (.fireRetry _) => simp [SparesRow, RecordsNothing, orphanEnd]
  | .system (.begin ..) => simp [SparesRow, RecordsNothing, orphanEnd]
  | .system (.finishMessages ..) => simp [SparesRow, RecordsNothing, orphanEnd]

/-- An event that ends no run with a result that can be stored records nothing. -/
theorem recordsNothing_of_unstored (h : ∀ i outcome durationMs,
    e = .system (.finishTask i outcome durationMs) → outcome.summary? = none) :
    RecordsNothing cfg l e := by
  intro task outcome hend row _ summary hsummary
  cases e with
  | schedule => cases hend
  | system a =>
    cases a with
    | finishTask i _ durationMs =>
      obtain ⟨⟨b,g,q⟩,_,hq⟩ := Option.bind_eq_some_iff.mp hend
      simp only at hq
      split at hq
      · cases hq
        rw [h i _ durationMs rfl] at hsummary
        cases hsummary
      · cases hq
    | _ => cases hend

/-- In every interleaving of requests, polls and runs: each run whose task was cancelled while it
was in flight leaves the row that has the id when it ends as it was, exactly when each such run
finds no row or records nothing new in it. -/
theorem orphans_spare_rows_iff {l₀ : Life} {es : List Event}
    (he : exec (step cfg ipc) l₀ es = some l) :
    (∀ n e l₁ l₂, es[n]? = some e → exec (step cfg ipc) l₀ (es.take n) = some l₁ →
      step cfg ipc l₁ e = some l₂ → SparesRow l₁ e l₂) ↔
      Allowed (step cfg ipc) (RecordsNothing cfg) l₀ es := by
  have hstep : ∀ l e l', step cfg ipc l e = some l' → (SparesRow l e l' ↔ RecordsNothing cfg l e) :=
    fun _ _ _ h => sparesRow_iff h
  exact (allowed_iff_steps hstep he).symm

/-- An orphan was in flight at a moment when its row was missing. -/
theorem orphaned_lost_row {l₀ : Life} {es : List Event} (hnone : l₀.orphaned = [])
    (he : exec (step cfg ipc) l₀ es = some l) {r : String × String} (hr : r ∈ l.orphaned) :
    ∃ before after l₁, es = before ++ after ∧ exec (step cfg ipc) l₀ before = some l₁ ∧
      r ∈ l₁.system.runs ∧ l₁.system.db.getTaskById r.2 = none := by
  induction es using List.reverseRecOn generalizing l with
  | nil =>
    cases he
    rw [hnone] at hr
    cases hr
  | append_singleton es e ih =>
    rw [exec_append, Option.bind_eq_some_iff] at he
    obtain ⟨m,hm,hlast⟩ := he
    obtain ⟨l',hl',hend⟩ := (exec_cons_iff _ _ _ _ _).mp hlast
    cases hend
    have hwhole : exec (step cfg ipc) l₀ (es ++ [e]) = some l := by
      rw [exec_append, hm]
      exact hlast
    obtain ⟨t,_,rfl⟩ := step_eq_some hl'
    obtain ⟨hflight,horphan⟩ := List.mem_filter.mp hr
    rcases of_decide_eq_true horphan with hold | hmissing
    · obtain ⟨before,after,l₁,rfl,hfound⟩ := ih hm hold
      exact ⟨before,after ++ [e],l₁,List.append_assoc ..,hfound⟩
    · exact ⟨es ++ [e],[],_,(List.append_nil _).symm,hwhole,hflight,hmissing⟩

end Orphans

end Life

section Runs
open Life

private def lifeAtNewYear : Life := .start 1 5 5000 300000 true true newYear

theorem active_rows_due_iff_hourly :
    ∃ l, exec (Life.step localCfg requestLib) (.start 1 5 5000 300000 true true newYear)
        (firstRun "interval" "3600000" ++ [finish]) = some l ∧
      ((∀ n l', exec (Life.step localCfg requestLib) (.start 1 5 5000 300000 true true newYear)
          ((firstRun "interval" "3600000" ++ [finish]).take n) = some l' → ActiveRowsDue l') ↔
        Allowed (Life.step localCfg requestLib) ResumesUncompleted
          (.start 1 5 5000 300000 true true newYear)
          (firstRun "interval" "3600000" ++ [finish])) := by
  have hrun : (exec (Life.step localCfg requestLib) lifeAtNewYear
      (firstRun "interval" "3600000" ++ [finish])).isSome = true := by decide +kernel
  obtain ⟨l,hl⟩ := Option.isSome_iff_exists.mp hrun
  exact ⟨l,hl,active_rows_due_iff hl⟩

/-- A task for one moment is completed by its run, and resumed: it is active and never due. -/
theorem completed_task_resumed :
    ∃ l row, exec (Life.step localCfg requestLib) lifeAtNewYear
        (firstRun "once" "2026-01-01T00:00:00Z" ++ [finish,request "resume_task"]) = some l ∧
      l.system.db.getTaskById "t" = some row ∧ row.status = .active ∧ row.nextRun = none ∧
        "t" ∈ l.completed := by
  have hrun : (exec (Life.step localCfg requestLib) lifeAtNewYear
      (firstRun "once" "2026-01-01T00:00:00Z" ++ [finish,request "resume_task"])).map
        (fun l => ((l.system.db.getTaskById "t").map (fun row => (row.status,row.nextRun)),
          l.completed)) = some (some (.active,none),["t"]) := by decide +kernel
  obtain ⟨l,hl,hfound⟩ := Option.map_eq_some_iff.mp hrun
  obtain ⟨hrow,hcompleted⟩ := Prod.mk.inj hfound
  obtain ⟨row,hrow,hcolumns⟩ := Option.map_eq_some_iff.mp hrow
  obtain ⟨hstatus,hnext⟩ := Prod.mk.inj hcolumns
  exact ⟨l,row,hl,hrow,hstatus,hnext,hcompleted ▸ List.mem_singleton_self _⟩

/-- The task `t` is cancelled in its first run and created anew. -/
private def renewed : List Event :=
  firstRun "interval" "3600000" ++ [request "cancel_task",scheduleT "interval" "7200000"]

private def unstored : Event := .system (.finishTask 0 .unencodable 0)

theorem orphans_spare_rows_iff_hourly :
    ∃ l l' row, exec (Life.step localCfg requestLib) lifeAtNewYear renewed = some l ∧
      Life.step localCfg requestLib l unstored = some l' ∧
      (orphanEnd l unstored).map (·.1.id) = some "t" ∧
      l.system.db.getTaskById "t" = some row ∧ row.lastRun = none ∧ SparesRow l unstored l' := by
  have hrun : (exec (Life.step localCfg requestLib) lifeAtNewYear renewed).bind
        (fun l => (Life.step localCfg requestLib l unstored).map (fun _ =>
          ((orphanEnd l unstored).map (·.1.id),(l.system.db.getTaskById "t").map (·.lastRun)))) =
      some (some "t",some none) := by decide +kernel
  obtain ⟨l,hl,hnext⟩ := Option.bind_eq_some_iff.mp hrun
  obtain ⟨l',hl',hfound⟩ := Option.map_eq_some_iff.mp hnext
  obtain ⟨hend,hrow⟩ := Prod.mk.inj hfound
  obtain ⟨row,hrow,hlast⟩ := Option.map_eq_some_iff.mp hrow
  have hwhole : exec (Life.step localCfg requestLib) lifeAtNewYear (renewed ++ [unstored]) = some l' := by
    rw [exec_append, hl]
    exact (exec_cons_iff ..).mpr ⟨l',hl',rfl⟩
  -- The one run that ends has a result that cannot be stored.
  have hnothing : ∀ e ∈ renewed ++ [unstored], ∀ i outcome durationMs,
      e = .system (.finishTask i outcome durationMs) → outcome.summary? = none := by
    simp [renewed, firstRun, scheduleT, request, unstored, TaskOutcome.summary?]
  have hspares := (orphans_spare_rows_iff hwhole).mpr (allowed_of_take (fun _ e _ he _ =>
    recordsNothing_of_unstored (hnothing e (List.mem_of_getElem? he))))
  refine ⟨l,l',row,hl,hl',hend,hrow,hlast,?_⟩
  exact hspares renewed.length unstored l l' (by simp) (by rw [List.take_left]; exact hl) hl'

/-- A task is cancelled while it runs and created anew: the end of the old run writes the new row. -/
theorem old_run_writes_new_row :
    ∃ l l', exec (Life.step localCfg requestLib) lifeAtNewYear renewed = some l ∧
      Life.step localCfg requestLib l finish = some l' ∧ ¬SparesRow l finish l' := by
  have hrun : (exec (Life.step localCfg requestLib) lifeAtNewYear renewed).bind
        (fun l => (Life.step localCfg requestLib l finish).map (fun l' =>
          ((orphanEnd l finish).map (·.1.id),(l.system.db.getTaskById "t").map (·.lastRun),
            (l'.system.db.getTaskById "t").map (·.lastRun)))) =
      some (some "t",some none,some (some "2026-01-01T01:00:00Z")) := by decide +kernel
  obtain ⟨l,hl,hnext⟩ := Option.bind_eq_some_iff.mp hrun
  obtain ⟨l',hl',hfound⟩ := Option.map_eq_some_iff.mp hnext
  obtain ⟨hend,hfound⟩ := Prod.mk.inj hfound
  obtain ⟨hold,hnew⟩ := Prod.mk.inj hfound
  obtain ⟨⟨task,outcome⟩,hend,hid⟩ := Option.map_eq_some_iff.mp hend
  obtain ⟨row,hrow,hlast⟩ := Option.map_eq_some_iff.mp hold
  refine ⟨l,l',hl,hl',fun h => ?_⟩
  obtain ⟨row',hrow',_,_,hsame,_⟩ := h task outcome hend row (hid ▸ hrow)
  rw [show task.id = "t" from hid] at hrow'
  rw [hrow', Option.map_some, hsame, hlast] at hnew
  cases hnew

end Runs

end NanoClaw.Tasks
