import NanoClaw.Queue.Invariant
import NanoClaw.Queue.Paths
import NanoClaw.Tasks.Board
import NanoClaw.Tasks.Life

/-! No due task is left behind: a task that a poll finds due is in flight then, or its run begins before
the queue has come to rest, and without further polls the queue does. -/
namespace NanoClaw.Tasks
open Store IsoText Execution GroupQueue

/-- Every event but a poll and a message check. -/
def Event.internal : Event → Prop
  | .system .poll | .system (.enqueueMessageCheck _) => False
  | _ => True

/-- The moves of coroutines. -/
def Event.moves : Event → Bool
  | .system (.begin _ _) | .system (.finishMessages _ _) | .system (.finishTask _ _ _)
  | .system (.fireRetry _) => true
  | _ => false

/-- The run of a task of this id begins. -/
def Begins (s : System) (id : String) : Event → Prop
  | .system (.begin i _) => ∃ b g q, s.taskAt i = some (b,g,q) ∧ q.id = id ∧ q.fn.id = id
  | _ => False

section Paths
variable {cfg : Config} {ipc : Ipc.Lib} {s t : System}

abbrev Path (s : System) (e : Event) (t : System) (path : List (GroupQueue.Action ScheduledTask)) : Prop :=
  GroupQueue.Path s.queue t.queue e.internal e.moves path

theorem moveQueue_path {a : GroupQueue.Action ScheduledTask} {e : Event} (h : s.moveQueue a = some t)
    (ha : a ≠ .shutdown) (hinternal : e.internal → a.internal) (hmoves : e.moves = true → a.moves = true) :
    ∃ path, Path s e t path := by
  obtain ⟨queue,hqueue,rfl⟩ := Option.map_eq_some_iff.mp h
  exact ⟨_,path_one hqueue ha hinternal hmoves⟩

/-- A poll is a row of calls of `enqueue_task`. -/
theorem enqueueDue_path (due : List ScheduledTask) (queue : GroupQueue ScheduledTask) :
    ∃ path, exec GroupQueue.step queue path = some (due.foldl s.enqueueDue queue) ∧
      ∀ x ∈ path, x ≠ .shutdown := by
  induction due generalizing queue with
  | nil => exact ⟨[],rfl,by simp⟩
  | cons task due ih =>
    obtain ⟨path,hpath,hopened⟩ := ih (s.enqueueDue queue task)
    rw [System.enqueueDue] at hpath
    rw [List.foldl_cons, System.enqueueDue]
    split at hpath
    · rename_i current _
      split_ifs at hpath ⊢
      · exact ⟨.enqueueTask current.chatJid current.id current :: path,hpath,by simpa using hopened⟩
      · exact ⟨path,hpath,hopened⟩
    · exact ⟨path,hpath,hopened⟩

/-- A task that ends as it begins makes two moves of the queue. -/
theorem endAtOnce_path {i : Nat} {b : Background ScheduledTask} {g : String} {q : QueuedTask ScheduledTask}
    {groups : Groups} (hb : s.queue.backgroundTasks[i]? = some b) (hc : b.coro = .runTask g q)
    (hfresh : b.started = false) (hlive : b.cancelled = false) (db : TaskDb) :
    ∃ path, Path s (.system (.begin i groups)) (s.endAtOnce i g q.id db) path := by
  let parked := (s.queue.parkTask i b).record (.taskInvoked g q.id)
  have hbegin : GroupQueue.step s.queue (.begin i) = some parked := by
    simp [GroupQueue.step, GroupQueue.begin, hb, hfresh, hlive, hc, parked]
  have hlast : parked.backgroundTasks[(s.queue.backgroundTasks.eraseIdx i).length]? =
      some { b with started := true } := by
    simp [parked, GroupQueue.record, parkTask]
  have hdrop : parked.dropTask (s.queue.backgroundTasks.eraseIdx i).length =
      (s.queue.record (.taskInvoked g q.id)).dropTask i := by
    simp [parked, GroupQueue.record, parkTask, dropTask, List.eraseIdx_append_of_length_le]
  have hfinish : GroupQueue.step parked (.finish (s.queue.backgroundTasks.eraseIdx i).length .success) =
      some (s.endAtOnce i g q.id db).queue := by
    simp only [GroupQueue.step, GroupQueue.finish, hlast, if_true, hc, hdrop]
    rfl
  refine ⟨[.begin i,.finish (s.queue.backgroundTasks.eraseIdx i).length .success],?_,by simp,
    fun _ x hx => ?_,Nat.succ_pos _⟩
  · rw [exec, hbegin, Option.bind_some, exec, hfinish]
    rfl
  · rcases List.mem_pair.mp hx with rfl | rfl <;> trivial

theorem react_path {e : Event} (h : react cfg ipc s e = some t) : ∃ path, Path s e t path := by
  cases e with
  | schedule groups source isMain uuid fields =>
    cases h
    exact ⟨_,path_nil rfl rfl⟩
  | system a =>
    cases a with
    | tick now =>
      simp only [react, step] at h
      split_ifs at h
      cases h
      exact ⟨_,path_nil rfl rfl⟩
    | poll =>
      cases h
      obtain ⟨path,hpath,hopened⟩ :=
        enqueueDue_path (s := s) (s.db.getDueTasks cfg.scan (utcIso s.now)) s.queue
      exact ⟨path,hpath,hopened,(fun hi => by cases hi),Nat.zero_le _⟩
    | mutate source isMain payloadType taskId =>
      cases h
      exact ⟨_,path_nil rfl rfl⟩
    | enqueueMessageCheck g => exact moveQueue_path (a := .enqueueMessageCheck g) h (by simp) (fun hi => by cases hi) (fun hm => by cases hm)
    | notifyIdle g => exact moveQueue_path (a := .notifyIdle g) h (by simp) (fun _ => trivial) (fun hm => by cases hm)
    | fireRetry i => exact moveQueue_path (a := .fireRetry i) h (by simp) (fun _ => trivial) (fun _ => rfl)
    | begin i groups =>
      simp only [react, step] at h
      split at h
      · rename_i b g q hat
        obtain ⟨hb,hc⟩ := taskAt_eq_some hat
        split_ifs at h with hidle
        cases h
        obtain ⟨hfresh,hlive⟩ : b.started = false ∧ b.cancelled = false := by
          simpa using hidle
        simp only [System.beginTask]
        split
        · exact endAtOnce_path hb hc hfresh hlive _
        · split
          · refine ⟨_,path_one (x := .begin i) ?_ (by simp) (fun _ => trivial) (fun _ => rfl)⟩
            simp [GroupQueue.step, GroupQueue.begin, hb, hfresh, hlive, hc]
          · exact endAtOnce_path hb hc hfresh hlive _
      · exact moveQueue_path h (by simp) (fun _ => trivial) (fun _ => rfl)
    | finishMessages i outcome =>
      simp only [react, step] at h
      split at h
      · cases h
      · exact moveQueue_path h (by simp) (fun _ => trivial) (fun _ => rfl)
    | finishTask i outcome durationMs =>
      simp only [react, step] at h
      split at h
      · rename_i b g q hat
        obtain ⟨hb,hc⟩ := taskAt_eq_some hat
        split_ifs at h with hstarted
        cases h
        refine ⟨_,path_one (x := .finish i .success) ?_ (by simp) (fun _ => trivial) (fun _ => rfl)⟩
        simp [GroupQueue.step, GroupQueue.finish, hb, hstarted, hc]
      · cases h

end Paths

/-- What waits for its start, before and after an event. -/
structure Shifts (s : System) (e : Event) (t : System) : Prop where
  kept : ∀ g, ∀ q ∈ s.queue.unstarted g, q.fn.id = q.id → q ∈ t.queue.unstarted g ∨ Begins s q.id e
  added : ∀ g, ∀ q ∈ t.queue.unstarted g,
    q ∈ s.queue.unstarted g ∨ s.db.getTaskById q.id = some q.fn

section Shifts
variable {cfg : Config} {ipc : Ipc.Lib} {s t : System} {e : Event}

theorem shifts_of_held (h : t.queue.held = s.queue.held) : Shifts s e t := by
  have hunstarted (g : String) : t.queue.unstarted g = s.queue.unstarted g :=
    congrFun (congrArg Prod.fst h) g
  exact ⟨fun g q hq _ => .inl (hunstarted g ▸ hq),fun g q hq => .inl (hunstarted g ▸ hq)⟩

theorem moveQueue_shifts {a : GroupQueue.Action ScheduledTask} (h : s.moveQueue a = some t)
    (hheld : ∀ queue, GroupQueue.step s.queue a = some queue → queue.held = s.queue.held) : Shifts s e t := by
  obtain ⟨queue,hqueue,rfl⟩ := Option.map_eq_some_iff.mp h
  exact shifts_of_held (hheld queue hqueue)

/-- A poll adds rows of the table under their ids, and takes none away. -/
theorem enqueueDue_shifts (due : List ScheduledTask) {queue : GroupQueue ScheduledTask}
    (hloop : queue.loopRunning = true) :
    (due.foldl s.enqueueDue queue).invoked = queue.invoked ∧
      ∀ g q, (q ∈ queue.unstarted g → q ∈ (due.foldl s.enqueueDue queue).unstarted g) ∧
        (q ∈ (due.foldl s.enqueueDue queue).unstarted g →
          q ∈ queue.unstarted g ∨ s.db.getTaskById q.id = some q.fn) := by
  induction due generalizing queue with
  | nil => exact ⟨rfl,fun g q => ⟨id,.inl⟩⟩
  | cons task due ih =>
    rw [List.foldl_cons]
    have hsame : s.enqueueDue queue task = queue ∨ ∃ current : ScheduledTask,
        s.db.getTaskById current.id = some current ∧
          s.enqueueDue queue task = queue.enqueueTask current.chatJid current.id current := by
      rw [System.enqueueDue]
      split
      · rename_i current hrow
        split
        · exact .inr ⟨current,(TaskDb.getTaskById_eq_some_iff.mp hrow).2.symm ▸ hrow,rfl⟩
        · exact .inl rfl
      · exact .inl rfl
    rcases hsame with he | ⟨current,hrow,he⟩
    · rw [he]
      exact ih hloop
    · rw [he]
      have hnext : (queue.enqueueTask current.chatJid current.id current).loopRunning = true :=
        (congrArg Settings.loopRunning (settings_enqueueTask queue _ _ _)).trans hloop
      obtain ⟨hinvoked,hunstarted⟩ := ih hnext
      rcases held_enqueueTask queue current.chatJid current.id current hloop with hheld | ⟨_,_,hheld⟩
      · obtain ⟨hu,hi⟩ := Prod.mk.inj hheld
        refine ⟨hinvoked.trans hi,fun g q => ?_⟩
        rw [← hu]
        exact hunstarted g q
      · obtain ⟨hu,hi⟩ := Prod.mk.inj hheld
        refine ⟨hinvoked.trans hi,fun g q => ⟨fun hq => ?_,fun hq => ?_⟩⟩
        · refine (hunstarted g q).1 ?_
          rw [hu, mem_withTask]
          exact .inr hq
        · refine ((hunstarted g q).2 hq).elim (fun hq => ?_) .inr
          rw [hu, mem_withTask] at hq
          rcases hq with ⟨_,rfl⟩ | hq
          · exact .inr hrow
          · exact .inl hq

theorem react_shifts (hloop : s.queue.loopRunning = true) (h : react cfg ipc s e = some t) : Shifts s e t := by
  cases e with
  | schedule groups source isMain uuid fields =>
    cases h
    exact shifts_of_held rfl
  | system a =>
    cases a with
    | tick now =>
      simp only [react, step] at h
      split_ifs at h
      cases h
      exact shifts_of_held rfl
    | poll =>
      cases h
      obtain ⟨_,hdue⟩ := enqueueDue_shifts (s := s) (s.db.getDueTasks cfg.scan (utcIso s.now)) hloop
      exact ⟨fun g q hq _ => .inl ((hdue g q).1 hq),fun g q hq => (hdue g q).2 hq⟩
    | mutate source isMain payloadType taskId =>
      cases h
      exact shifts_of_held rfl
    | enqueueMessageCheck g =>
      refine moveQueue_shifts (a := .enqueueMessageCheck g) h ?_
      rintro queue ⟨⟩
      exact held_enqueueMessageCheck s.queue g
    | notifyIdle g =>
      refine moveQueue_shifts (a := .notifyIdle g) h ?_
      rintro queue ⟨⟩
      exact held_notifyIdle s.queue g
    | fireRetry i => exact moveQueue_shifts (a := .fireRetry i) h (fun _ => held_fireRetry)
    | begin i groups =>
      simp only [react, step] at h
      split at h
      · rename_i b g q hat
        obtain ⟨hb,hc⟩ := taskAt_eq_some hat
        split_ifs at h with hidle
        cases h
        have hfresh : b.started = false := Bool.eq_false_iff.mpr (fun hs => hidle (.inl hs))
        have hone {rest : String → Multiset (QueuedTask ScheduledTask)}
            (htake : s.queue.unstarted = withTask rest g q)
            (ht : (s.beginTask cfg groups i b g q).queue.unstarted = rest) :
            Shifts s (.system (.begin i groups)) (s.beginTask cfg groups i b g q) := by
          rw [← ht] at htake
          refine ⟨fun g' q' hq' hid => ?_,fun g' q' hq' => .inl ?_⟩
          · rw [htake, mem_withTask] at hq'
            rcases hq' with ⟨_,rfl⟩ | hq'
            · exact .inr ⟨b,g,q',hat,rfl,hid⟩
            · exact .inl hq'
          · rw [htake, mem_withTask]
            exact .inr hq'
        have hended (he : ∃ db, s.beginTask cfg groups i b g q = s.endAtOnce i g q.id db) :
            Shifts s (.system (.begin i groups)) (s.beginTask cfg groups i b g q) := by
          obtain ⟨db,he⟩ := he
          refine hone (held_dropTask_unstarted hb hfresh hc).1 ?_
          rw [he]
          exact congrArg Prod.fst (held_endRunTask ((s.queue.record _).dropTask i) g hloop)
        cases hfolder : folderError cfg q.fn.groupFolder with
        | some error => exact hended (by rw [System.beginTask, hfolder]; exact ⟨_,rfl⟩)
        | none =>
          by_cases hgroup : groups.values.any (fun group => group.folder = q.fn.groupFolder) = true
          · refine hone (held_parkTask_runTask hb hfresh hc).1 ?_
            simp only [System.beginTask, hfolder, if_pos hgroup]
            rfl
          · exact hended (by rw [System.beginTask, hfolder]; exact ⟨_,if_neg hgroup⟩)
      · rename_i hnone
        exact moveQueue_shifts (a := .begin i) h (fun _ => held_begin hloop (taskAt_eq_none hnone))
    | finishMessages i outcome =>
      simp only [react, step] at h
      split at h
      · cases h
      · rename_i hnone
        exact moveQueue_shifts (a := .finish i outcome) h (fun _ => held_finish hloop (taskAt_eq_none hnone))
    | finishTask i outcome durationMs =>
      simp only [react, step] at h
      split at h
      · rename_i b g q hat
        obtain ⟨hb,hc⟩ := taskAt_eq_some hat
        split_ifs at h with hstarted
        cases h
        have hunstarted : ((s.queue.dropTask i).endRunTask g).unstarted = s.queue.unstarted :=
          (congrArg Prod.fst (held_endRunTask (s.queue.dropTask i) g hloop)).trans
            (held_dropTask_runTask hb hstarted hc).1
        refine ⟨fun g' q' hq' _ => .inl ?_,fun g' q' hq' => .inl ?_⟩
        · exact hunstarted.symm ▸ hq'
        · exact hunstarted ▸ hq'
      · cases h

end Shifts

section Runs
variable {cfg : Config} {ipc : Ipc.Lib} {s t : System} {e : Event}

/-- A system before shutdown, whose tasks wait under their own ids. -/
structure Ready (s : System) : Prop where
  inv : s.queue.Inv
  opened : s.queue.shuttingDown = false
  named : ∀ g, ∀ q ∈ s.queue.unstarted g, q.fn.id = q.id

theorem react_ready (h : Ready s) (hstep : react cfg ipc s e = some t) : Ready t := by
  obtain ⟨path,hpath⟩ := react_path hstep
  obtain ⟨hinv,hopen⟩ := hpath.inv h.inv h.opened
  refine ⟨hinv,hopen,fun g q hq => ?_⟩
  rcases (react_shifts h.inv.running hstep).added g q hq with hq | hrow
  · exact h.named g q hq
  · exact (TaskDb.getTaskById_eq_some_iff.mp hrow).2

theorem ready_init (maxC maxR base maxMs : Int) (p c : Bool) (db : TaskDb) (now : Int) :
    Ready (System.init maxC maxR base maxMs p c db now) :=
  ⟨inv_init maxC maxR base maxMs p c,rfl,fun _ _ hq => absurd hq (Multiset.notMem_zero _)⟩

/-- What a poll finds due is held behind it. -/
theorem poll_holds (h : Ready s) {task : ScheduledTask} (hrow : s.db.getTaskById task.id = some task)
    (hdue : TaskDb.IsDue (utcIso s.now) task) :
    (∃ q ∈ s.queue.invoked task.chatJid, q.id = task.id) ∨
      ∃ q ∈ (s.runOnce cfg).queue.unstarted task.chatJid, q.id = task.id := by
  have hgo : ∀ (due : List ScheduledTask) (queue : GroupQueue ScheduledTask), queue.Inv →
      queue.shuttingDown = false → task ∈ due →
      ∃ q, (q ∈ queue.invoked task.chatJid ∨ q ∈ (due.foldl s.enqueueDue queue).unstarted task.chatJid) ∧
        q.id = task.id := by
    intro due
    induction due with
    | nil => exact fun _ _ _ hmem => absurd hmem List.not_mem_nil
    | cons first due ih =>
      intro queue hinv hopen hmem
      have hinvoked (current : ScheduledTask) :
          (queue.enqueueTask current.chatJid current.id current).invoked = queue.invoked := by
        rcases held_enqueueTask queue current.chatJid current.id current hinv.running with hheld | ⟨_,_,hheld⟩
        · exact congrArg Prod.snd hheld
        · exact congrArg Prod.snd hheld
      have hnext (current : ScheduledTask) :
          (queue.enqueueTask current.chatJid current.id current).shuttingDown = false :=
        (congrArg Settings.shuttingDown (settings_enqueueTask queue _ _ _)).trans hopen
      rw [List.foldl_cons]
      rcases List.mem_cons.mp hmem with rfl | hmem
      · have he : s.enqueueDue queue task = queue.enqueueTask task.chatJid task.id task := by
          rw [System.enqueueDue, hrow]
          exact if_pos hdue.1
        rw [he]
        obtain ⟨q,hq,hid⟩ := held_enqueued (g := task.chatJid) hinv.toSlots hopen task.id task
        refine ⟨q,?_,hid⟩
        rcases hq with hq | hq
        · have hloop : (queue.enqueueTask task.chatJid task.id task).loopRunning = true :=
            (congrArg Settings.loopRunning (settings_enqueueTask queue _ _ _)).trans hinv.running
          have hrest := enqueueDue_shifts (s := s) due hloop
          exact .inr ((hrest.2 task.chatJid q).1 hq)
        · exact .inl (hinvoked task ▸ hq)
      · rw [System.enqueueDue]
        split
        · rename_i current _
          split
          · obtain ⟨q,hq,hid⟩ := ih _ (enqueueTask_inv hinv current.chatJid current.id current) (hnext current)
              hmem
            exact ⟨q,hq.imp_left (fun hq => hinvoked current ▸ hq),hid⟩
          · exact ih queue hinv hopen hmem
        · exact ih queue hinv hopen hmem
  obtain ⟨q,hq | hq,hid⟩ := hgo (s.db.getDueTasks cfg.scan (utcIso s.now)) s.queue h.inv h.opened
    ((TaskDb.mem_getDueTasks cfg.scan_perm).mpr ⟨hrow,hdue⟩)
  · exact .inl ⟨q,hq,hid⟩
  · exact .inr ⟨q,hq,hid⟩

/-- What waits begins, or waits on. -/
theorem waits_or_begins {es : List Event} (h : Ready s) (he : exec (react cfg ipc) s es = some t) {g : String}
    {q : QueuedTask ScheduledTask} (hq : q ∈ s.queue.unstarted g) :
    q ∈ t.queue.unstarted g ∨
      ∃ n e u, es[n]? = some e ∧ exec (react cfg ipc) s (es.take n) = some u ∧ Begins u q.id e := by
  by_cases hnone : Allowed (react cfg ipc) (fun u e => ¬Begins u q.id e) s es
  · refine .inl (allowed_invariant (P := fun u => Ready u ∧ q ∈ u.queue.unstarted g) ?_ ⟨h,hq⟩ hnone he).2
    rintro u e v ⟨hu,hq⟩ hno hstep
    have hshift := (react_shifts hu.inv.running hstep).kept g q hq (hu.named g q hq)
    exact ⟨react_ready hu hstep,hshift.resolve_right hno⟩
  · simp only [allowed_iff_take, not_forall, not_not] at hnone
    obtain ⟨n,e,u,hn,hu,hbegins⟩ := hnone
    exact .inr ⟨n,e,u,hn,hu,hbegins⟩

/-- While a coroutine is left, one of them can move. -/
theorem empty_of_stuck (h : Ready s) (hstuck : ∀ e : Event, e.moves = true → react cfg ipc s e = none) :
    s.queue.backgroundTasks = [] := by
  by_contra hne
  obtain ⟨b,bs,hb⟩ := List.exists_cons_of_ne_nil hne
  have hzero : s.queue.backgroundTasks[0]? = some b := by rw [hb]; rfl
  have hlive := h.inv.uncancelled b (List.mem_of_getElem? hzero)
  have hbegin := hstuck (.system (.begin 0 Dict.empty)) rfl
  have hmessages := hstuck (.system (.finishMessages 0 .success)) rfl
  have htask := hstuck (.system (.finishTask 0 (.returned none) 0)) rfl
  have hfire := hstuck (.system (.fireRetry 0)) rfl
  cases hs : b.started <;> rcases hc : b.coro with g | ⟨g,q⟩ | ⟨g,d⟩ <;>
    simp [react, step, System.taskAt, hc, hs, hlive, System.moveQueue, GroupQueue.step, GroupQueue.begin,
      GroupQueue.finish, GroupQueue.fireRetry, hzero] at hbegin hmessages htask hfire
  split at hbegin <;> cases hbegin

/-- From wherever the system comes to before a shutdown, a poll finds tasks due, and no other poll follows:
the coroutines make a bounded number of moves, whatever requests are made and however the runs end, and when
none can move, none is left. By then each task that was due was in flight at the poll, or its run has
begun. -/
theorem no_due_task_left_behind (cfg : Config) (ipc : Ipc.Lib) (maxC maxR base maxMs : Int) (p c : Bool)
    (db : TaskDb) (now : Int) (before : List Event) {s : System}
    (he : exec (react cfg ipc) (System.init maxC maxR base maxMs p c db now) before = some s) :
    ∃ bound, ∀ after t, (∀ e ∈ after, Event.internal e) → exec (react cfg ipc) (s.runOnce cfg) after = some t →
      after.countP Event.moves ≤ bound ∧
      ((∀ e : Event, e.moves = true → react cfg ipc t e = none) →
        t.queue.backgroundTasks = [] ∧
          ∀ task, s.db.getTaskById task.id = some task → TaskDb.IsDue (utcIso s.now) task →
            (∃ q ∈ s.queue.invoked task.chatJid, q.id = task.id) ∨
              ∃ n e u, after[n]? = some e ∧ exec (react cfg ipc) (s.runOnce cfg) (after.take n) = some u ∧
                Begins u task.id e) := by
  have hpaths (s : System) (e : Event) (t : System) (h : react cfg ipc s e = some t) :
      ∃ path, Path s e t path := react_path h
  have hready (es : List Event) (s t : System) (h : Ready s) (he : exec (react cfg ipc) s es = some t) : Ready t :=
    Reachable.invariant (fun _ _ _ h hstep => react_ready h hstep) ⟨es,he⟩ h
  have hs := hready _ _ _ (ready_init maxC maxR base maxMs p c db now) he
  have hpoll : react cfg ipc s (.system .poll) = some (s.runOnce cfg) := rfl
  have hpolled := react_ready hs hpoll
  have hreach : Reachable (react cfg ipc) (System.init maxC maxR base maxMs p c db now) (s.runOnce cfg) :=
    Reachable.extend ⟨before,he⟩ (exec_cons_iff _ _ _ _ [] |>.mpr ⟨_,hpoll,rfl⟩)
  obtain ⟨bound,hbound⟩ := bounded_of_paths hpaths
    (reachable_of_paths hpaths (Reachable.refl GroupQueue.step _) hreach)
  refine ⟨bound,fun after t hinternal hrun => ⟨hbound after t hinternal hrun,fun hstuck => ?_⟩⟩
  have ht := hready _ _ _ hpolled hrun
  have hempty := empty_of_stuck ht hstuck
  refine ⟨hempty,fun task hrow hdue => ?_⟩
  rcases poll_holds hs hrow hdue with hin | ⟨q,hq,hid⟩
  · exact .inl hin
  · rcases waits_or_begins hpolled hrun hq with hwaits | hbegins
    · have hqueue : Reachable GroupQueue.step _ t.queue :=
        reachable_of_paths hpaths (Reachable.refl GroupQueue.step _) (hreach.extend hrun)
      have hmax : t.queue.maxConcurrent = max 1 maxC :=
        congrArg Settings.maxConcurrent (reachable_settings hqueue ht.opened)
      simp only [unstarted, hempty, List.filterMap_nil, Multiset.coe_nil, zero_add, Multiset.mem_coe] at hwaits
      refine absurd (.inr (List.ne_nil_of_mem hwaits)) (ht.inv.no_work_of_no_runs (by omega) (fun g => ?_) _)
      simp [runsOf, hempty]
    · exact .inr (hid ▸ hbegins)

/-- Without coroutines nothing moves. -/
theorem stuck_of_empty (hempty : s.queue.backgroundTasks = []) {e : Event} (hmoves : e.moves = true) :
    react cfg ipc s e = none := by
  match e, hmoves with
  | .system (.begin ..), _ | .system (.finishMessages ..), _ | .system (.finishTask ..), _
  | .system (.fireRetry _), _ =>
    simp [react, step, System.taskAt, System.moveQueue, GroupQueue.step, GroupQueue.begin, GroupQueue.finish,
      GroupQueue.fireRetry, hempty]

/-- Two tasks of one chat that are due at the beginning of 2026. -/
private def newYearTable : TaskDb :=
  ⟨⟨[hourly (utcIso newYear),{ hourly (utcIso newYear) with id := "v" }],by decide⟩,[]⟩

/-- The run of the first task is in flight at the next poll. -/
private def polledTwice : List Event := [.system .poll,.system (.begin 0 mainGroups)]

private def bothRun : List Event :=
  [.system (.finishTask 0 (.returned none) 0),.system (.begin 0 mainGroups),
    .system (.finishTask 0 (.returned none) 0)]

theorem no_due_task_left_behind_running : ∃ s t bound,
    exec (react localCfg requestLib) (System.init 1 5 5000 300000 true true newYearTable newYear)
        polledTwice = some s ∧
      (s.db.getDueTasks localCfg.scan (utcIso s.now)).map (·.id) = ["t","v"] ∧
      exec (react localCfg requestLib) (s.runOnce localCfg) bothRun = some t ∧
      bothRun.countP Event.moves ≤ bound ∧ t.queue.backgroundTasks = [] ∧
      ∀ task, s.db.getTaskById task.id = some task → TaskDb.IsDue (utcIso s.now) task →
        (∃ q ∈ s.queue.invoked task.chatJid, q.id = task.id) ∨
          ∃ n e u, bothRun[n]? = some e ∧
            exec (react localCfg requestLib) (s.runOnce localCfg) (bothRun.take n) = some u ∧
            Begins u task.id e := by
  have hrun : (exec (react localCfg requestLib)
      (System.init 1 5 5000 300000 true true newYearTable newYear) polledTwice).bind (fun s =>
        (exec (react localCfg requestLib) (s.runOnce localCfg) bothRun).map (fun t =>
          ((s.db.getDueTasks localCfg.scan (utcIso s.now)).map (·.id),t.queue.backgroundTasks.length))) =
      some (["t","v"],0) := by decide +kernel
  obtain ⟨s,hs,hrun⟩ := Option.bind_eq_some_iff.mp hrun
  obtain ⟨t,ht,hrun⟩ := Option.map_eq_some_iff.mp hrun
  obtain ⟨hdue,hlength⟩ := Prod.mk.inj hrun
  obtain ⟨bound,h⟩ := no_due_task_left_behind localCfg requestLib 1 5 5000 300000 true true newYearTable newYear
    polledTwice hs
  obtain ⟨hle,hcovered⟩ := h bothRun t (by simp [bothRun, Event.internal]) ht
  have hstuck := fun e => @stuck_of_empty localCfg requestLib t (List.length_eq_zero_iff.mp hlength) e
  exact ⟨s,t,bound,hs,hdue,ht,hle,hcovered hstuck⟩

end Runs

end NanoClaw.Tasks
