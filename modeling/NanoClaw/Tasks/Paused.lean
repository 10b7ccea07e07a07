import NanoClaw.Tasks.Occurrence

/-! Paused and cancelled tasks: a task that starts has an active row, unless a request stopped it
while it waited. -/
namespace NanoClaw.Tasks
open Store IsoText GroupQueue Execution
namespace Board

/-- No request pauses or cancels a task that waits for its start. -/
def Unstopped (b : Board) : Move → Prop
  | .mutate source isMain payloadType taskId => ∀ id, Stops b.db source isMain payloadType taskId id →
      ∀ g, ∀ q ∈ b.unstarted g, q.id ≠ id
  | _ => True

/-- Whatever waits has an active row, and whatever has started had one. -/
structure Runnable (b : Board) : Prop where
  waiting : ∀ g, ∀ q ∈ b.unstarted g, ∃ row, b.db.getTaskById q.id = some row ∧ row.status = .active
  started : ∀ i ∈ b.started, ∃ row, i.row = some row ∧ row.status = .active

variable {cfg : Config} {planOf : String → String × ScheduleType} {b c : Board}

theorem Runnable.accepted (hs : b.Sound planOf) (h : Runnable b) (hc : Accepted b c) :
    Runnable c := by
  induction hc with
  | refl => exact h
  | accept task hbc hrow hready _ ih =>
    have hdb := (hbc.sound hs).2
    refine ⟨fun g q hq => ?_,ih.started⟩
    rw [mem_withTask] at hq
    rcases hq with ⟨rfl,rfl⟩ | hq
    · exact ⟨task,by rw [hdb]; exact hrow,hready.1⟩
    · exact ih.waiting g q hq

/-- Some of the tasks that wait go on waiting, and their rows are not touched. -/
private theorem Runnable.untouched (h : Runnable b) (hstarted : c.started = b.started)
    (hunstarted : ∀ g, c.unstarted g ≤ b.unstarted g)
    (hrows : ∀ g, ∀ q ∈ c.unstarted g, c.db.getTaskById q.id = b.db.getTaskById q.id) : Runnable c where
  waiting g q hq := by
    obtain ⟨row,hrow,hactive⟩ := h.waiting g q (Multiset.mem_of_le (hunstarted g) hq)
    exact ⟨row,(hrows g q hq).trans hrow,hactive⟩
  started := hstarted ▸ h.started

theorem Runnable.called (hs : b.Sound planOf) (h : Runnable b) {g : String}
    {q : QueuedTask ScheduledTask} {rest : String → Multiset (QueuedTask ScheduledTask)}
    (he : b.unstarted = withTask rest g q) :
    Runnable
      { b with
        unstarted := rest
        invoked := withTask b.invoked g q
        started := b.started ++ [⟨q.fn,b.db.getTaskById q.fn.id⟩] } := by
  refine ⟨fun g' q' hq' => h.waiting g' q' ?_,fun i hi => ?_⟩
  · rw [he, mem_withTask]
    exact Or.inr hq'
  · rcases List.mem_append.mp hi with hi | hi
    · exact h.started i hi
    · rw [List.mem_singleton.mp hi, (hs.held g q (mem_tasks_of_unstarted he)).1]
      exact h.waiting g q (mem_unstarted he)

/-- A move that stops nothing that waits leaves whatever waits with an active row. -/
theorem Moved.runnable {m : Move} (hs : b.Sound planOf) (h : Runnable b) (hc : Unstopped b m)
    (hm : Moved cfg b m c) : Runnable c := by
  cases hm with
  | quiet => exact h
  | ticked now _ => exact h.untouched rfl (fun _ => le_rfl) (fun _ _ _ => rfl)
  | polled hacc => exact h.accepted hs hacc
  | mutated source isMain payloadType taskId =>
    refine ⟨fun g q hq => ?_,h.started⟩
    obtain ⟨row,hrow,hactive⟩ := h.waiting g q hq
    exact handleTaskMutation_active hrow hactive (fun hstops => hc q.id hstops g q hq rfl)
  | called g q rest he => exact h.called hs he
  | refused g q rest log he =>
    have hid := (hs.held g q (mem_tasks_of_unstarted he)).1
    refine h.untouched rfl (fun g' => he ▸ le_withTask rest g g' q) (fun g' q' hq' => ?_)
    exact (TaskDb.getTaskById_updateStatus ..).trans
      (if_neg (hid ▸ hs.unstarted_apart he (Or.inl hq')))
  | missed g q rest error he =>
    have hid := (hs.held g q (mem_tasks_of_unstarted he)).1
    refine h.untouched rfl (fun g' => he ▸ le_withTask rest g g' q) (fun g' q' hq' => ?_)
    exact recordRun_ne (hid ▸ hs.unstarted_apart he (Or.inl hq'))
  | ended outcome durationMs g q rest he =>
    have hid := (hs.held g q (mem_tasks_of_invoked he)).1
    refine h.untouched rfl (fun _ => le_rfl) (fun g' q' hq' => ?_)
    exact recordOutcome_ne (hid ▸ hs.invoked_apart he (Or.inl hq'))

end Board

section Runs
open Board
variable {cfg : Config} {s : System}

/-- When no request pauses or cancels a task that waits for its start, every task that a run of
the system starts has an active row at that moment. -/
theorem starts_active (maxConcurrent maxRetries baseRetryMs maxRetryMs : Int)
    (processMessagesFn closeStdinFn : Bool) (db : TaskDb) (now : Int) {as : List Action}
    (hok : Allowed (step cfg) (fun s a => Unstopped s.board (s.move a)) (System.init maxConcurrent
      maxRetries baseRetryMs maxRetryMs processMessagesFn closeStdinFn db now) as)
    (he : exec (step cfg) (System.init maxConcurrent maxRetries baseRetryMs maxRetryMs
      processMessagesFn closeStdinFn db now) as = some s) :
    ∀ i ∈ s.started, ∃ row, i.row = some row ∧ row.status = .active := by
  have hinv : Sound (tablePlan db) s ∧ Runnable s.board := by
    refine allowed_invariant (P := fun s => Sound (tablePlan db) s ∧ Runnable s.board) ?_ ⟨?_,?_⟩ hok he
    · rintro s a t ⟨hs,hr⟩ hc hstep
      obtain ⟨ht,hm⟩ := step_moved hs hstep
      exact ⟨ht,hm.runnable hs.board hr hc⟩
    · exact sound_init maxConcurrent maxRetries baseRetryMs maxRetryMs processMessagesFn closeStdinFn
        db now
    · exact ⟨fun g q hq => absurd hq (Multiset.notMem_zero q),fun i hi => absurd hi List.not_mem_nil⟩
  exact hinv.2.started

/-- One task is paused before the poll that starts the other. -/
theorem starts_active_other_paused :
    ∃ s, exec (step localCfg) (System.init 1 5 5000 300000 true true
        ⟨⟨[hourly (utcIso newYear),{ hourly (utcIso newYear) with id := "u" }],by decide⟩,[]⟩ newYear)
        [.mutate "main" true (.str "pause_task") (.str "u"),.poll,.begin 0 mainGroups] = some s ∧
      s.started.length = 1 ∧ ∀ i ∈ s.started, ∃ row, i.row = some row ∧ row.status = .active := by
  have hrun : (exec (step localCfg) (System.init 1 5 5000 300000 true true
      ⟨⟨[hourly (utcIso newYear),{ hourly (utcIso newYear) with id := "u" }],by decide⟩,[]⟩ newYear)
      [.mutate "main" true (.str "pause_task") (.str "u"),.poll,.begin 0 mainGroups]).map
        (fun s => s.started.length) = some 1 := by decide +kernel
  obtain ⟨s,hs,hlength⟩ := Option.map_eq_some_iff.mp hrun
  refine ⟨s,hs,hlength,starts_active 1 5 5000 300000 true true _ newYear ?_ hs⟩
  refine allowed_of_take (fun n a t ha ht => ?_)
  match n, ha with
  | 0, rfl =>
    cases ht
    exact fun _ _ g q hq => absurd hq (Multiset.notMem_zero q)
  | 1, rfl => trivial
  | 2, rfl =>
    simp only [System.move]
    split <;> trivial

/-- A task that waits for the end of its group's message run is paused, and starts all the
same. -/
theorem paused_task_starts :
    ∃ s, exec (step localCfg) (System.init 1 5 5000 300000 true true
        ⟨⟨[hourly (utcIso newYear)],List.nodup_singleton _⟩,[]⟩ newYear)
        [.enqueueMessageCheck "local:main",.begin 0 mainGroups,.poll,
          .mutate "main" true (.str "pause_task") (.str "t"),.finishMessages 0 .success,
          .begin 0 mainGroups] = some s ∧
      ¬∀ i ∈ s.started, ∃ row, i.row = some row ∧ row.status = .active := by
  have hrun : (exec (step localCfg) (System.init 1 5 5000 300000 true true
      ⟨⟨[hourly (utcIso newYear)],List.nodup_singleton _⟩,[]⟩ newYear)
      [.enqueueMessageCheck "local:main",.begin 0 mainGroups,.poll,
        .mutate "main" true (.str "pause_task") (.str "t"),.finishMessages 0 .success,
        .begin 0 mainGroups]).map (fun s => s.started.map (fun i => i.row.map (·.status))) =
        some [some .paused] := by decide +kernel
  obtain ⟨s,hs,hstarted⟩ := Option.map_eq_some_iff.mp hrun
  refine ⟨s,hs,fun h => ?_⟩
  have hpaused : some TaskStatus.paused ∈ s.started.map (fun i => i.row.map (·.status)) := by
    rw [hstarted]
    exact List.mem_singleton_self _
  obtain ⟨i,hi,hstatus⟩ := List.mem_map.mp hpaused
  obtain ⟨row,hrow,hactive⟩ := h i hi
  rw [hrow, Option.map_some, hactive] at hstatus
  cases hstatus

end Runs

end NanoClaw.Tasks
