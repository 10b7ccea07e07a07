import NanoClaw.Queue.Safety

/-! No wakeup is lost. A message check is owed from the moment it is accepted until
the message function is next invoked for its group, and an owed check is always
kept: as the pending flag, or as a run whose body has not begun. -/
namespace NanoClaw.GroupQueue
open Execution
variable {F : Type}

def owe (g : String) (o : Bool) : Event → Bool
  | .checkAccepted g' => o || g' == g
  | .messagesInvoked g' => o && g' != g
  | _ => o

/-- The history holds a check of the group that no later invocation has answered. -/
def owed (g : String) (h : List Event) : Bool := h.foldl (owe g) false

def entered (h : List Event) : List String :=
  h.filterMap (fun | .waitEntered g => some g | _ => none)

def left (h : List Event) : List String :=
  h.filterMap (fun | .waitLeft g => some g | _ => none)

@[simp] theorem owed_append (g : String) (h : List Event) (e : Event) :
    owed g (h ++ [e]) = owe g (owed g h) e := by
  simp [owed, List.foldl_append]

theorem owed_stays (g : String) (post : List Event) (hno : .messagesInvoked g ∉ post) :
    post.foldl (owe g) true = true := by
  induction post with
  | nil => rfl
  | cons e post ih =>
    have hne : e ≠ .messagesInvoked g := fun he => hno (he ▸ List.mem_cons_self)
    have hrest : .messagesInvoked g ∉ post := fun hm => hno (List.mem_cons_of_mem e hm)
    have he : owe g true e = true := by
      cases e with
      | messagesInvoked g' =>
        have hg : g' ≠ g := fun hg => hne (by rw [hg])
        simp [owe, hg]
      | _ => rfl
    rw [List.foldl_cons, he]
    exact ih hrest

/-- A check that is no longer owed was followed by an invocation for its group. -/
theorem answered (g : String) (pre post : List Event)
    (h : owed g (pre ++ .checkAccepted g :: post) = false) : .messagesInvoked g ∈ post := by
  by_contra hno
  have hstay := owed_stays g post hno
  rw [owed, List.foldl_append, List.foldl_cons] at h
  simp only [owe, beq_self_eq_true, Bool.or_true] at h
  rw [hstay] at h
  cases h

/-- The two forms in which an owed check is remembered. -/
def Kept (s : GroupQueue F) (g : String) : Prop :=
  (s.groups g).pendingMessages = true ∨
    ∃ b ∈ s.backgroundTasks, b.coro = .runForGroup g ∧ b.started = false

structure Logged (s : GroupQueue F) : Prop where
  promised : ∀ g, owed g s.history = true → Kept s g
  fifo : entered s.history = left s.history ++ s.waitingGroups

theorem Kept.mono {s t : GroupQueue F} {g : String} (h : Kept s g)
    (hflag : (s.groups g).pendingMessages = true → (t.groups g).pendingMessages = true)
    (hruns : ∀ b ∈ s.backgroundTasks, b.started = false → b ∈ t.backgroundTasks) : Kept t g :=
  h.imp hflag (fun ⟨b,hb,hc,hs⟩ => ⟨b,hruns b hb hs,hc,hs⟩)

/-- A start keeps what is owed: the flag that it clears becomes the run that it creates. -/
theorem kept_startRunForGroup {s : GroupQueue F} (hloop : s.loopRunning = true) (g g' : String)
    (h : Kept s g') : Kept (s.startRunForGroup g) g' := by
  have htasks : (s.startRunForGroup g).backgroundTasks =
      s.backgroundTasks ++ [{ coro := .runForGroup g }] := by
    simp [startRunForGroup, createBackgroundTask, setGroup, hloop]
  by_cases he : g' = g
  · subst he
    exact .inr ⟨{ coro := .runForGroup g' },by simp [htasks],rfl,rfl⟩
  · apply h.mono
    · simp [startRunForGroup, createBackgroundTask, setGroup, he]
    · intro b hb _
      rw [htasks]
      exact List.mem_append_left _ hb

theorem kept_startRunTask {s : GroupQueue F} (g g' : String) (task : QueuedTask F)
    (h : Kept s g') : Kept (s.startRunTask g task) g' := by
  apply h.mono
  · by_cases he : g' = g
    · subst he; simp [startRunTask, createBackgroundTask, setGroup]
    · simp [startRunTask, createBackgroundTask, setGroup, he]
  · intro b hb _
    by_cases hl : s.loopRunning = true <;>
      simp [startRunTask, createBackgroundTask, setGroup, hl, hb]

theorem kept_setGroup {s : GroupQueue F} (g g' : String) (state : GroupState F)
    (hflag : (s.groups g).pendingMessages = true → state.pendingMessages = true)
    (h : Kept s g') : Kept (s.setGroup g state) g' := by
  apply h.mono
  · by_cases he : g' = g
    · subst he; simpa [setGroup] using hflag
    · simp [setGroup, he]
  · exact fun b hb _ => hb

theorem kept_startPending {s : GroupQueue F} (hloop : s.loopRunning = true) (g g' : String)
    (h : Kept s g') : Kept (s.startPending g) g' := by
  obtain ⟨task,rest,_,he⟩ | ⟨_,_,he⟩ | ⟨_,he⟩ := startPending_cases s g
  · rw [he]; exact kept_startRunTask g g' task (kept_setGroup g g' _ id h)
  · rw [he]; exact kept_startRunForGroup hloop g g' h
  · rw [he]; exact h

/-- Moves that write nothing to the history but keep what is owed. -/
theorem Logged.keep {s t : GroupQueue F} (h : Logged s) (hh : t.history = s.history)
    (hw : t.waitingGroups = s.waitingGroups) (hkept : ∀ g, Kept s g → Kept t g) : Logged t where
  promised g hg := hkept g (h.promised g (hh ▸ hg))
  fifo := by rw [hh, hw]; exact h.fifo

/-- Events other than checks, invocations and moves of the waiting list. -/
theorem Logged.record {s : GroupQueue F} (h : Logged s) (e : Event)
    (howe : ∀ g o, owe g o e = true → o = true) (hin : entered [e] = []) (hout : left [e] = []) :
    Logged (s.record e) where
  promised g hg := by
    simp only [GroupQueue.record, owed_append] at hg
    exact h.promised g (howe g _ hg)
  fifo := by
    have hf := h.fifo
    simp only [GroupQueue.record, entered, left, List.filterMap_append] at hf hin hout ⊢
    rw [hin, hout, List.append_nil, List.append_nil]
    exact hf

theorem Logged.closeStdin {s : GroupQueue F} (h : Logged s) (g : String) :
    Logged (s.closeStdin g) := by
  unfold GroupQueue.closeStdin
  split
  · exact h.record _ (fun _ _ => id) rfl rfl
  · exact h

theorem Logged.enterWaiting {s : GroupQueue F} (h : Logged s) (g : String) :
    Logged (s.enterWaiting g) := by
  unfold GroupQueue.enterWaiting
  split
  · exact h
  · refine ⟨fun g' hg' => ?_,?_⟩
    · simp only [GroupQueue.record, owed_append] at hg'
      exact h.promised g' hg'
    · have hf := h.fifo
      simp only [GroupQueue.record, entered, left, List.filterMap_append] at hf ⊢
      simp [hf]

/-- The waiting list is left in the order in which it was entered. -/
theorem Logged.leave {s : GroupQueue F} (h : Logged s) {g : String} {rest : List String}
    (hl : s.waitingGroups = g :: rest) :
    Logged ({ s with waitingGroups := rest }.record (.waitLeft g)) := by
  refine ⟨fun g' hg' => ?_,?_⟩
  · simp only [GroupQueue.record, owed_append] at hg'
    exact h.promised g' hg'
  · have hf := h.fifo
    rw [hl] at hf
    simp only [GroupQueue.record, entered, left, List.filterMap_append] at hf ⊢
    simp [hf]

theorem drainGroup_logged {s : GroupQueue F} (hloop : s.loopRunning = true) (h : Logged s)
    (g : String) : Logged (s.drainGroup g) := by
  have hdrain := drainGroup_rule (P := fun t => t.loopRunning = true ∧ Logged t) ?_ ?_
    (g := g) ⟨hloop,h⟩
  · exact hdrain.2
  · exact fun t g' rest hl h => ⟨h.1,h.2.leave hl⟩
  · rintro t g' ⟨hrun,h⟩
    refine ⟨(congrArg Settings.loopRunning (settings_startPending t g')).trans hrun,?_⟩
    exact h.keep (startPending_history t g') (startPending_waitingGroups t g')
      (fun g => kept_startPending hrun g' g)

/-- An accepted check is kept by the flag of its group or by a run that has not begun. -/
theorem Logged.accept {s t : GroupQueue F} {g : String} (h : Logged s)
    (hhistory : t.history = s.history ++ [.checkAccepted g])
    (hwaiting : t.waitingGroups = s.waitingGroups) (hkept : ∀ g', Kept s g' → Kept t g')
    (hg : Kept t g) : Logged t := by
  refine ⟨fun g' hg' => ?_,?_⟩
  · rw [hhistory, owed_append] at hg'
    by_cases he : g' = g
    · subst he; exact hg
    · exact hkept g' (h.promised g' (by simpa [owe, Ne.symm he] using hg'))
  · have hf := h.fifo
    simp only [hhistory, hwaiting, entered, left, List.filterMap_append] at hf ⊢
    simpa using hf

theorem notePending_logged {s : GroupQueue F} (h : Logged s) (g : String) :
    Logged (s.notePending g) := by
  apply h.accept (g := g)
  · rfl
  · rfl
  · exact fun g' hg' => kept_setGroup (s := s.record _) g g' _ (fun _ => rfl) hg'
  · exact .inl (by simp [notePending, setGroup])

theorem enqueueMessageCheck_logged {s : GroupQueue F} (hloop : s.loopRunning = true)
    (h : Logged s) (g : String) : Logged (s.enqueueMessageCheck g) := by
  rcases enqueueMessageCheck_cases s g with ⟨_,he⟩ | ⟨_,he⟩ | ⟨_,_,he⟩ | ⟨_,_,he⟩ <;> rw [he]
  · exact h
  · exact notePending_logged h g
  · exact (notePending_logged h g).enterWaiting g
  · apply h.accept (g := g)
    · rfl
    · rfl
    · exact fun g' hg' => kept_startRunForGroup (s := s.record _) hloop g g' hg'
    · refine .inr ⟨{ coro := .runForGroup g },?_,rfl,rfl⟩
      simp [startRunForGroup, createBackgroundTask, setGroup, GroupQueue.record, hloop]

theorem enqueueTask_logged {s : GroupQueue F} (h : Logged s) (g taskId : String) (fn : F) :
    Logged (s.enqueueTask g taskId fn) := by
  have hrecord : Logged (s.record (.taskAccepted g taskId)) := h.record _ (fun _ _ => id) rfl rfl
  have hadd : Logged (s.addPending g ⟨taskId,g,fn⟩) :=
    hrecord.keep rfl rfl (fun g' => kept_setGroup g g' _ id)
  rcases enqueueTask_cases s g taskId fn with
    ⟨_,he⟩ | ⟨_,_,_,⟨_,_,he⟩ | ⟨_,_,he⟩ | ⟨_,_,he⟩ | ⟨_,_,he⟩⟩ <;> rw [he]
  · exact h
  · exact hadd.closeStdin g
  · exact hadd
  · exact hadd.enterWaiting g
  · exact hrecord.keep rfl rfl (fun g' => kept_startRunTask g g' _)

theorem notifyIdle_logged {s : GroupQueue F} (h : Logged s) (g : String) :
    Logged (s.notifyIdle g) := by
  have hmark : Logged (s.markIdle g) := h.keep rfl rfl (fun g' => kept_setGroup g g' _ id)
  rcases notifyIdle_cases s g with ⟨_,he⟩ | ⟨_,he⟩ <;> rw [he]
  · exact hmark
  · exact hmark.closeStdin g

private theorem mem_erase_of_ne {s : GroupQueue F} {i : Nat} {a b : Background F}
    (hb : s.backgroundTasks[i]? = some b) (ha : a ∈ s.backgroundTasks) (hne : a ≠ b) :
    a ∈ s.backgroundTasks.eraseIdx i := by
  obtain ⟨hi,he⟩ := List.getElem?_eq_some_iff.mp hb
  have hp := (List.getElem_cons_eraseIdx_perm hi).symm.subset ha
  rw [he] at hp
  exact (List.mem_cons.mp hp).resolve_left hne

/-- A coroutine that has begun, or is no message run, is not what keeps a check. -/
theorem kept_dropTask {s : GroupQueue F} {i : Nat} {b : Background F}
    (hb : s.backgroundTasks[i]? = some b)
    (hnot : ∀ g, ¬ (b.coro = .runForGroup g ∧ b.started = false)) (g : String)
    (h : Kept s g) : Kept (s.dropTask i) g := by
  refine h.imp id ?_
  rintro ⟨a,ha,hc,hs⟩
  refine ⟨a,mem_erase_of_ne hb ha ?_,hc,hs⟩
  rintro rfl
  exact hnot g ⟨hc,hs⟩

theorem endRunForGroup_logged {s : GroupQueue F} (hloop : s.loopRunning = true) (h : Logged s)
    (g : String) (outcome : Outcome) : Logged (s.endRunForGroup g outcome) := by
  obtain ⟨k,events,timers,_,hevents,he⟩ := settleRetry_eq s g outcome
  have hskip : ∀ g' o, events.foldl (owe g') o = o := by
    intro g' o
    clear he
    induction events generalizing o with
    | nil => rfl
    | cons e events ih =>
      obtain ⟨d,rfl⟩ := hevents e List.mem_cons_self
      exact ih (fun e he => hevents e (List.mem_cons_of_mem _ he)) o
  have hin : entered events = [] := by
    rw [entered, List.filterMap_eq_nil_iff]
    intro e hmem
    obtain ⟨d,rfl⟩ := hevents e hmem
    rfl
  have hout : left events = [] := by
    rw [left, List.filterMap_eq_nil_iff]
    intro e hmem
    obtain ⟨d,rfl⟩ := hevents e hmem
    rfl
  simp only [endRunForGroup]
  refine drainGroup_logged ?_ ?_ g <;> rw [he]
  · exact hloop
  refine ⟨fun g' hg' => ?_,?_⟩
  · have hg' : owed g' s.history = true := by
      simpa only [owed, setGroup, List.foldl_append, hskip] using hg'
    apply (h.promised g' hg').mono
    · by_cases hne : g' = g
      · subst hne; simp [setGroup]
      · simp [setGroup, hne]
    · exact fun b hb _ => List.mem_append_left _ hb
  · have hf := h.fifo
    simp only [setGroup, entered, left, List.filterMap_append] at hf hin hout ⊢
    rw [hin, hout, List.append_nil, List.append_nil]
    exact hf

theorem endRunTask_logged {s : GroupQueue F} (hloop : s.loopRunning = true) (h : Logged s)
    (g : String) : Logged (s.endRunTask g) := by
  simp only [endRunTask]
  refine drainGroup_logged ?_ ?_ g
  · exact hloop
  exact h.keep rfl rfl (fun g' => kept_setGroup g g' _ id)

/-- The body of a created message run begins: its group's checks are answered. -/
theorem invoke_logged {s : GroupQueue F} (h : Logged s) {i : Nat} {b : Background F} {g : String}
    (hb : s.backgroundTasks[i]? = some b) (hg : b.coro = .runForGroup g) :
    Logged ((s.parkTask i b).record (.messagesInvoked g)) := by
  refine ⟨fun g' hg' => ?_,?_⟩
  · simp only [GroupQueue.record, owed_append, owe, parkTask, Bool.and_eq_true, bne_iff_ne] at hg'
    obtain hflag | ⟨a,ha,hc,hs⟩ := h.promised g' hg'.1
    · exact .inl hflag
    · refine .inr ⟨a,List.mem_append_left _ (mem_erase_of_ne hb ha ?_),hc,hs⟩
      rintro rfl
      rw [hg] at hc
      cases hc
      exact hg'.2 rfl
  · have hf := h.fifo
    simp only [GroupQueue.record, parkTask, entered, left, List.filterMap_append] at hf ⊢
    simpa using hf

theorem parkTask_logged {s : GroupQueue F} (h : Logged s) {i : Nat} {b : Background F}
    (hb : s.backgroundTasks[i]? = some b) (hnot : ∀ g, b.coro ≠ .runForGroup g) :
    Logged (s.parkTask i b) := by
  refine Logged.keep (t := s.parkTask i b) h rfl rfl (fun g hg => ?_)
  refine (kept_dropTask hb (fun g' hc => hnot g' hc.1) g hg).imp id ?_
  rintro ⟨a,ha,hc⟩
  exact ⟨a,List.mem_append_left _ ha,hc⟩

theorem dropTask_logged {s : GroupQueue F} (h : Logged s) {i : Nat} {b : Background F}
    (hb : s.backgroundTasks[i]? = some b)
    (hnot : ∀ g, ¬ (b.coro = .runForGroup g ∧ b.started = false)) : Logged (s.dropTask i) :=
  h.keep rfl rfl (kept_dropTask hb hnot)

/-- Every move before shutdown keeps the promises, once a message function is set. -/
theorem step_logged {s t : GroupQueue F} {a : Action F} (hinv : Inv s) (h : Logged s)
    (hfn : s.processMessagesFn = true) (hrun : s.shuttingDown = false)
    (ht : t.shuttingDown = false) (hstep : step s a = some t) : Logged t := by
  have hloop := hinv.running
  cases a with
  | enqueueMessageCheck g => cases hstep; exact enqueueMessageCheck_logged hloop h g
  | enqueueTask g taskId fn => cases hstep; exact enqueueTask_logged h g taskId fn
  | notifyIdle g => cases hstep; exact notifyIdle_logged h g
  | begin i =>
    obtain ⟨b,hb,_,_,hc⟩ := begin_cases hstep
    rcases hc with ⟨g,hg,_,rfl⟩ | ⟨g,_,hno,_⟩ | ⟨g,task,hg,rfl⟩ | ⟨hg,rfl⟩
    · exact invoke_logged h hb hg
    · rw [hfn] at hno; cases hno
    · have hp := parkTask_logged h hb (fun g' hc => by rw [hg] at hc; cases hc)
      exact hp.record _ (fun _ _ => id) rfl rfl
    · exact parkTask_logged h hb (fun g' hc => by rw [hc] at hg; cases hg)
  | finish i outcome =>
    obtain ⟨b,hb,hs,hc⟩ := finish_cases hstep
    have hd := dropTask_logged h hb (fun g hn => by rw [hs] at hn; cases hn.2)
    rcases hc with ⟨g,hg,rfl⟩ | ⟨g,task,hg,rfl⟩
    · have hr := hd.record (.messagesEnded g outcome) (fun _ _ => id) rfl rfl
      exact endRunForGroup_logged (s := (s.dropTask i).record _) hloop hr g outcome
    · exact endRunTask_logged (s := s.dropTask i) hloop hd g
  | fireRetry i =>
    obtain ⟨b,g,d,hb,hg,rfl⟩ := fireRetry_cases hstep
    rw [if_neg (by simp [hrun])]
    have hd := dropTask_logged h hb (fun g' hn => by rw [hg] at hn; cases hn.1)
    exact enqueueMessageCheck_logged (s := s.dropTask i) hloop hd g
  | shutdown => cases hstep; cases ht
  | dropCancelled i =>
    obtain ⟨b,hb,hc,_⟩ := dropCancelled_cases hstep
    rw [hinv.uncancelled b (List.mem_of_getElem? hb)] at hc
    cases hc

theorem reachable_logged (maxC maxR base maxMs : Int) (c : Bool) (s : GroupQueue F)
    (h : Reachable step (init maxC maxR base maxMs true c) s) (hrun : s.shuttingDown = false) :
    Logged s := by
  refine (h.invariant (P := fun t => t.shuttingDown = false →
    Inv t ∧ t.processMessagesFn = true ∧ Logged t) ?_ (fun _ => ?_) hrun).2.2
  · intro u a v hu hstep hv
    have hu' := step_shuttingDown hstep hv
    obtain ⟨hinv,hfn,hlog⟩ := hu hu'
    refine ⟨step_inv hinv hu' hv hstep,?_,step_logged hinv hlog hfn hu' hv hstep⟩
    rcases step_settings hstep with he | rfl
    · exact (congrArg Settings.processMessagesFn he).trans hfn
    · cases hstep; cases hv
  · exact ⟨inv_init maxC maxR base maxMs true c,rfl,⟨by simp [init, owed],rfl⟩⟩

theorem Inv.idle_of_no_runs {s : GroupQueue F} (h : Inv s) (hq : ∀ g, s.runsOf g = []) (g : String) :
    (s.groups g).active = false := by
  by_contra hact
  obtain ⟨b,hb⟩ := h.toSlots.runsOf_active (by simpa using hact)
  rw [hq g] at hb
  cases hb

/-- When nothing is in flight no slot is taken, so nobody can be waiting for one. -/
theorem Inv.no_work_of_no_runs {s : GroupQueue F} (h : Inv s) (hmax : 1 ≤ s.maxConcurrent)
    (hq : ∀ g, s.runsOf g = []) (g : String) : ¬HasWork (s.groups g) := by
  intro hwork
  have hmem := (h.covered g hwork).resolve_left (by simp [h.idle_of_no_runs hq g])
  have hfull := h.full (List.ne_nil_of_mem hmem)
  have hzero : s.runGroups = [] := by
    apply List.eq_nil_iff_forall_not_mem.mpr
    intro g' hg'
    have hcount := List.count_pos_iff.mpr hg'
    rw [← length_runsOf, hq g'] at hcount
    cases hcount
  have hcount := h.counted
  rw [hzero] at hcount
  simp only [List.length_nil, Nat.cast_zero] at hcount
  omega

theorem history_enterWaiting (s : GroupQueue F) (g : String) :
    s.history <+: (s.enterWaiting g).history := by
  unfold enterWaiting
  split
  · exact List.prefix_rfl
  · exact ⟨[.waitEntered g],rfl⟩

/-- Before shutdown no check is refused. -/
theorem enqueueMessageCheck_accepted {s : GroupQueue F} (hopen : s.shuttingDown = false) (g : String) :
    s.history ++ [.checkAccepted g] <+: (s.enqueueMessageCheck g).history := by
  rcases enqueueMessageCheck_cases s g with ⟨hshut,_⟩ | ⟨_,he⟩ | ⟨_,_,he⟩ | ⟨_,_,he⟩
  · rw [hopen] at hshut
    cases hshut
  · rw [he]
    exact List.prefix_rfl
  · rw [he]
    exact history_enterWaiting (s.notePending g) g
  · rw [he]
    exact List.prefix_rfl

/-- Pending work is running or waits exactly once, waiting groups wait for a slot, every check
is accepted, and once nothing is in flight nothing is pending and every accepted check was
answered. -/
theorem wakeups_kept (maxC maxR base maxMs : Int) (c : Bool) (s : GroupQueue F)
    (h : Reachable step (init maxC maxR base maxMs true c) s) (hrun : s.shuttingDown = false) :
    (∀ g, HasWork (s.groups g) → (s.groups g).active = true ∨ s.waitingGroups.count g = 1) ∧
    (∀ g ∈ s.waitingGroups, (s.groups g).active = false ∧ HasWork (s.groups g)) ∧
    (s.waitingGroups ≠ [] → s.activeCount = max 1 maxC) ∧
    ((∀ g, s.runsOf g = []) → ∀ g, ¬ HasWork (s.groups g)) ∧
    (∀ g, s.history ++ [.checkAccepted g] <+: (s.enqueueMessageCheck g).history) ∧
    ((∀ g, s.runsOf g = []) → ∀ g pre post, s.history = pre ++ .checkAccepted g :: post →
      .messagesInvoked g ∈ post) ∧
    entered s.history = left s.history ++ s.waitingGroups := by
  have hinv := reachable_inv h (inv_init maxC maxR base maxMs true c) hrun
  have hlog := reachable_logged maxC maxR base maxMs c s h hrun
  have hmax : s.maxConcurrent = max 1 maxC :=
    congrArg Settings.maxConcurrent (reachable_settings h hrun)
  have hnone := hinv.no_work_of_no_runs (by omega)
  refine ⟨?_,hinv.waits,fun hne => hmax ▸ hinv.full hne,hnone,enqueueMessageCheck_accepted hrun,?_,
    hlog.fifo⟩
  · intro g hwork
    refine (hinv.covered g hwork).imp id (fun hm => ?_)
    exact List.count_eq_one_of_mem hinv.nodup hm
  · intro hq g pre post hh
    apply answered g pre post
    rw [← hh]
    by_contra howed
    obtain hflag | ⟨b,hb,hc,_⟩ := hlog.promised g (by simpa using howed)
    · exact hnone hq g (.inl hflag)
    · have hmem : b ∈ s.runsOf g := by
        rw [runsOf, List.mem_filter, hc]
        exact ⟨hb,by simp [Coroutine.runGroup]⟩
      rw [hq g] at hmem
      cases hmem

/-- With one slot, a check that arrives while its group runs and one of a group that waits for
the slot are accepted, and both are answered when the queue is quiet again. -/
theorem wakeups_kept_two_checks :
    ∃ s : GroupQueue Unit, Reachable step (init 1 5 5000 300000 true true) s ∧
      (∀ g, s.runsOf g = []) ∧
      s.history = [.checkAccepted "a",.messagesInvoked "a",.checkAccepted "a",.checkAccepted "b",
        .waitEntered "b",.messagesEnded "a" .success,.messagesInvoked "a",
        .messagesEnded "a" .success,.waitLeft "b",.messagesInvoked "b",
        .messagesEnded "b" .success] ∧
      (∀ g, s.history ++ [.checkAccepted g] <+: (s.enqueueMessageCheck g).history) ∧
      ∀ g pre post, s.history = pre ++ .checkAccepted g :: post → .messagesInvoked g ∈ post := by
  obtain ⟨s,hs,hopen,hquiet,hhistory⟩ : ∃ s : GroupQueue Unit, exec step
      (init 1 5 5000 300000 true true) [.enqueueMessageCheck "a",.begin 0,.enqueueMessageCheck "a",
        .enqueueMessageCheck "b",.finish 0 .success,.begin 0,.finish 0 .success,.begin 0,
        .finish 0 .success] = some s ∧ s.shuttingDown = false ∧ (∀ g, s.runsOf g = []) ∧
      s.history = [.checkAccepted "a",.messagesInvoked "a",.checkAccepted "a",.checkAccepted "b",
        .waitEntered "b",.messagesEnded "a" .success,.messagesInvoked "a",
        .messagesEnded "a" .success,.waitLeft "b",.messagesInvoked "b",
        .messagesEnded "b" .success] := ⟨_,rfl,rfl,fun _ => rfl,rfl⟩
  have h := wakeups_kept 1 5 5000 300000 true s ⟨_,hs⟩ hopen
  exact ⟨s,⟨_,hs⟩,hquiet,hhistory,h.2.2.2.2.1,h.2.2.2.2.2.1 hquiet⟩

end NanoClaw.GroupQueue
