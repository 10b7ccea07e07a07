import NanoClaw.Queue.Invariant
import Mathlib.Algebra.Order.Group.Multiset

/-! The scheduled tasks a queue holds, as multisets: those accepted and not yet invoked, and
those whose function has been called and has not ended. Most moves change neither. -/
namespace NanoClaw

/-- The task of a group that a coroutine runs. -/
def Coroutine.taskOf {F : Type} (g : String) : Coroutine F → Option (QueuedTask F)
  | .runTask g' task => if g' = g then some task else none
  | _ => none

@[simp] theorem Coroutine.taskOf_runTask {F : Type} (g g' : String) (task : QueuedTask F) :
    (Coroutine.runTask g' task).taskOf g = if g' = g then some task else none := rfl

namespace GroupQueue
variable {F : Type}

def unstarted (s : GroupQueue F) (g : String) : Multiset (QueuedTask F) :=
  ↑(s.backgroundTasks.filterMap (fun b => if b.started then none else b.coro.taskOf g)) +
    ↑(s.groups g).pendingTasks

def invoked (s : GroupQueue F) (g : String) : Multiset (QueuedTask F) :=
  ↑(s.backgroundTasks.filterMap (fun b => if b.started then b.coro.taskOf g else none))

/-- One task more in a group. -/
def withTask (tasks : String → Multiset (QueuedTask F)) (g : String) (task : QueuedTask F) :
    String → Multiset (QueuedTask F) := Function.update tasks g (task ::ₘ tasks g)

theorem mem_withTask {tasks : String → Multiset (QueuedTask F)} {g g' : String}
    {task q : QueuedTask F} :
    q ∈ withTask tasks g task g' ↔ (g' = g ∧ q = task) ∨ q ∈ tasks g' := by
  rw [withTask, Function.update_apply]
  split
  · rename_i he
    subst he
    simp
  · rename_i he
    simp [he]

theorem le_withTask (tasks : String → Multiset (QueuedTask F)) (g g' : String) (task : QueuedTask F) :
    tasks g' ≤ withTask tasks g task g' := by
  rw [withTask, Function.update_apply]
  split
  · rename_i he
    subst he
    exact Multiset.le_cons_self _ _
  · exact le_rfl

/-- A task moved from one side to the other is one of both all the same. -/
theorem withTask_add (tasks others : String → Multiset (QueuedTask F)) (g g' : String)
    (task : QueuedTask F) :
    withTask tasks g task g' + others g' = tasks g' + withTask others g task g' := by
  rw [withTask, withTask, Function.update_apply, Function.update_apply]
  split
  · rename_i he
    subst he
    rw [Multiset.cons_add, Multiset.add_cons]
  · rfl

theorem withTask_add_eq (tasks others : String → Multiset (QueuedTask F)) (g g' : String)
    (task : QueuedTask F) :
    withTask tasks g task g' + others g' = withTask (fun g' => tasks g' + others g') g task g' := by
  rw [withTask, withTask, Function.update_apply, Function.update_apply]
  split
  · rename_i he
    subst he
    exact Multiset.cons_add _ _ _
  · rfl

/-- Both views of the tasks held. -/
def held (s : GroupQueue F) : (String → Multiset (QueuedTask F)) × (String → Multiset (QueuedTask F)) :=
  (s.unstarted,s.invoked)

/-- Coroutines that are no task runs, and changes of a group beside its tasks, do not show. -/
theorem held_congr {s t : GroupQueue F} (extra : List (Background F))
    (hextra : ∀ b ∈ extra, ∀ g, b.coro.taskOf g = none)
    (htasks : t.backgroundTasks = s.backgroundTasks ++ extra)
    (hgroups : ∀ g, (t.groups g).pendingTasks = (s.groups g).pendingTasks) : t.held = s.held := by
  have hnone : ∀ (p : Background F → Bool) g,
      extra.filterMap (fun b => if p b then none else b.coro.taskOf g) = [] ∧
        extra.filterMap (fun b => if p b then b.coro.taskOf g else none) = [] := by
    intro p g
    constructor <;> refine List.filterMap_eq_nil_iff.mpr (fun b hb => ?_) <;>
      simp [hextra b hb g]
  refine Prod.ext (funext fun g => ?_) (funext fun g => ?_)
  · simp only [held, unstarted, htasks, hgroups, List.filterMap_append, (hnone _ g).1, List.append_nil]
  · simp only [held, invoked, htasks, List.filterMap_append, (hnone _ g).2, List.append_nil]

section Moves
variable (s : GroupQueue F) (g : String)

theorem held_setGroup (state : GroupState F)
    (h : state.pendingTasks = (s.groups g).pendingTasks) : (s.setGroup g state).held = s.held := by
  refine held_congr [] (by simp) (List.append_nil _).symm (fun g' => ?_)
  simp only [setGroup, Function.update_apply]
  split
  · rename_i he
    rw [he, h]
  · rfl

@[simp] theorem held_closeStdin : (s.closeStdin g).held = s.held := by
  rw [closeStdin]
  split <;> rfl

@[simp] theorem held_enterWaiting : (s.enterWaiting g).held = s.held := by
  rw [enterWaiting]
  split <;> rfl

theorem held_createBackgroundTask {coro : Coroutine F} (h : ∀ g, coro.taskOf g = none) :
    (s.createBackgroundTask coro).held = s.held := by
  refine held_congr (if s.loopRunning then [{ coro }] else []) (fun b hb g => ?_) ?_ (fun _ => rfl)
  · split at hb
    · rw [List.mem_singleton.mp hb, h]
    · cases hb
  · simp only [createBackgroundTask]
    split <;> simp

@[simp] theorem held_startRunForGroup : (s.startRunForGroup g).held = s.held := by
  have hgroup := held_setGroup s g { s.groups g with
    active := true, idleWaiting := false, isTaskContainer := false, pendingMessages := false } rfl
  exact (held_createBackgroundTask _ (fun _ => rfl)).trans hgroup

end Moves

/-- A task that starts is one more of the unstarted, until its function is called. -/
theorem held_startRunTask (s : GroupQueue F) (g : String) (task : QueuedTask F)
    (hloop : s.loopRunning = true) :
    (s.startRunTask g task).held = (withTask s.unstarted g task,s.invoked) := by
  have hgroups : ∀ g', ((s.startRunTask g task).groups g').pendingTasks =
      (s.groups g').pendingTasks := by
    intro g'
    simp only [startRunTask, createBackgroundTask, setGroup, Function.update_apply]
    split
    · rename_i he
      rw [he]
    · rfl
  have htasks : (s.startRunTask g task).backgroundTasks =
      s.backgroundTasks ++ [{ coro := .runTask g task }] := by
    simp [startRunTask, createBackgroundTask, setGroup, hloop]
  refine Prod.ext (funext fun g' => ?_) (funext fun g' => ?_)
  · change (s.startRunTask g task).unstarted g' = withTask s.unstarted g task g'
    simp only [withTask, Function.update_apply, unstarted, hgroups, htasks, List.filterMap_append]
    split
    · rename_i he
      subst he
      rw [← Multiset.coe_add, ← Multiset.singleton_add]
      simp [Coroutine.taskOf, add_comm]
    · rename_i he
      simp [Coroutine.taskOf, Ne.symm he]
  · simp [held, invoked, htasks, List.filterMap_append]

/-- Taking the oldest task out of the pending ones and putting it back changes nothing. -/
private theorem unstarted_takePending (s : GroupQueue F) (g : String) {task : QueuedTask F}
    {rest : List (QueuedTask F)} (hpending : (s.groups g).pendingTasks = task :: rest) :
    withTask (s.setGroup g { s.groups g with pendingTasks := rest }).unstarted g task =
      s.unstarted := by
  funext g'
  simp only [withTask, unstarted, setGroup, Function.update_apply]
  split
  · rename_i he
    subst he
    simp [hpending, ← Multiset.cons_coe]
  · rfl

theorem held_startPending (s : GroupQueue F) (g : String) (hloop : s.loopRunning = true) :
    (s.startPending g).held = s.held := by
  rcases startPending_cases s g with ⟨task,rest,hpending,h⟩ | ⟨_,_,h⟩ | ⟨_,h⟩
  · rw [h]
    have htake := unstarted_takePending s g hpending
    exact (held_startRunTask (s.setGroup g { s.groups g with pendingTasks := rest }) g task hloop).trans
      (Prod.ext htake rfl)
  · rw [h, held_startRunForGroup]
  · rw [h]

theorem held_drainGroup (s : GroupQueue F) (g : String) (hloop : s.loopRunning = true) :
    (s.drainGroup g).held = s.held := by
  have hdrain := drainGroup_rule (P := fun t => t.loopRunning = true ∧ t.held = s.held) ?_ ?_
    (g := g) ⟨hloop,rfl⟩
  · exact hdrain.2
  · exact fun t g' rest _ h => h
  · rintro t g' ⟨hrun,h⟩
    refine ⟨(congrArg Settings.loopRunning (settings_startPending t g')).trans hrun,?_⟩
    exact (held_startPending t g' hrun).trans h

theorem held_settleRetry (s : GroupQueue F) (g : String) (outcome : Outcome) :
    (s.settleRetry g outcome).held = s.held := by
  obtain ⟨k,events,timers,htimers,_,he⟩ := settleRetry_eq s g outcome
  rw [he]
  refine held_congr timers (fun b hb g => ?_) rfl (fun g' => ?_)
  · obtain ⟨d,rfl⟩ := htimers b hb
    rfl
  · simp only [Function.update_apply]
    split
    · rename_i hg
      rw [hg]
    · rfl

theorem held_endRunForGroup (s : GroupQueue F) (g : String) (outcome : Outcome)
    (hloop : s.loopRunning = true) : (s.endRunForGroup g outcome).held = s.held := by
  have hsettled : (s.settleRetry g outcome).loopRunning = true :=
    (congrArg Settings.loopRunning (settings_settleRetry s g outcome)).trans hloop
  have hidle := held_setGroup (s.settleRetry g outcome) g
    { (s.settleRetry g outcome).groups g with active := false } rfl
  exact (held_drainGroup _ g (by exact hsettled)).trans (hidle.trans (held_settleRetry s g outcome))

theorem held_endRunTask (s : GroupQueue F) (g : String) (hloop : s.loopRunning = true) :
    (s.endRunTask g).held = s.held := by
  have hidle := held_setGroup s g { s.groups g with
    active := false, idleWaiting := false, isTaskContainer := false, runningTaskId := none } rfl
  exact (held_drainGroup _ g (by exact hloop)).trans hidle

@[simp] theorem held_notePending (s : GroupQueue F) (g : String) :
    (s.notePending g).held = s.held := by
  rw [notePending, held_setGroup]
  · rfl
  · rfl

@[simp] theorem held_enqueueMessageCheck (s : GroupQueue F) (g : String) :
    (s.enqueueMessageCheck g).held = s.held := by
  rcases enqueueMessageCheck_cases s g with ⟨_,h⟩ | ⟨_,h⟩ | ⟨_,_,h⟩ | ⟨_,_,h⟩ <;> rw [h]
  · exact held_notePending s g
  · exact (held_enterWaiting _ g).trans (held_notePending s g)
  · exact held_startRunForGroup _ g

@[simp] theorem held_notifyIdle (s : GroupQueue F) (g : String) : (s.notifyIdle g).held = s.held := by
  have hmark : (s.markIdle g).held = s.held := held_setGroup s g _ rfl
  rcases notifyIdle_cases s g with ⟨_,h⟩ | ⟨_,h⟩ <;> rw [h]
  · exact hmark
  · exact (held_closeStdin _ g).trans hmark

/-- A task that joins the pending ones is one more of the unstarted. -/
theorem held_addPending (s : GroupQueue F) (g : String) (task : QueuedTask F) :
    (s.addPending g task).held = (withTask s.unstarted g task,s.invoked) := by
  refine Prod.ext (funext fun g' => ?_) rfl
  change (s.addPending g task).unstarted g' = withTask s.unstarted g task g'
  simp only [withTask, unstarted, addPending, record, setGroup, Function.update_apply]
  split
  · rename_i he
    subst he
    rw [← Multiset.coe_add, ← Multiset.singleton_add]
    simp [add_comm]
  · rfl

/-- A task is accepted unless its group already runs it or has it pending. -/
theorem held_enqueueTask (s : GroupQueue F) (g taskId : String) (fn : F)
    (hloop : s.loopRunning = true) :
    (s.enqueueTask g taskId fn).held = s.held ∨
      ((s.groups g).runningTaskId ≠ some taskId ∧ (∀ q ∈ (s.groups g).pendingTasks, q.id ≠ taskId) ∧
        (s.enqueueTask g taskId fn).held = (withTask s.unstarted g ⟨taskId,g,fn⟩,s.invoked)) := by
  rcases enqueueTask_cases s g taskId fn with
    ⟨_,h⟩ | ⟨_,hrunning,hpending,⟨_,_,h⟩ | ⟨_,_,h⟩ | ⟨_,_,h⟩ | ⟨_,_,h⟩⟩ <;> rw [h]
  · exact Or.inl rfl
  · exact Or.inr ⟨hrunning,hpending,(held_closeStdin _ g).trans (held_addPending s g _)⟩
  · exact Or.inr ⟨hrunning,hpending,held_addPending s g _⟩
  · exact Or.inr ⟨hrunning,hpending,(held_enterWaiting _ g).trans (held_addPending s g _)⟩
  · exact Or.inr ⟨hrunning,hpending,held_startRunTask (s.record _) g _ hloop⟩

section Coroutines
variable {s t : GroupQueue F} {i : Nat} {b : Background F}

private theorem filterMap_dropTask {α : Type} (hb : s.backgroundTasks[i]? = some b)
    (f : Background F → Option α) : (↑(s.backgroundTasks.filterMap f) : Multiset α) =
      (f b).elim 0 (fun a => {a}) + ↑((s.dropTask i).backgroundTasks.filterMap f) := by
  have hperm := (erase_perm hb).filterMap f
  rw [Multiset.coe_eq_coe.mpr hperm, List.filterMap_cons]
  rcases f b with _ | a
  · simp [dropTask]
  · simp [dropTask, ← Multiset.cons_coe]

/-- A coroutine that runs no task leaves the loop. -/
theorem held_dropTask (hb : s.backgroundTasks[i]? = some b) (hnone : ∀ g, b.coro.taskOf g = none) :
    (s.dropTask i).held = s.held := by
  refine Prod.ext (funext fun g => ?_) (funext fun g => ?_)
  · change (s.dropTask i).unstarted g = s.unstarted g
    rw [unstarted, unstarted, filterMap_dropTask hb]
    simp [hnone, dropTask]
  · change (s.dropTask i).invoked g = s.invoked g
    rw [invoked, invoked, filterMap_dropTask hb]
    simp [hnone]

/-- A task whose function has ended leaves the loop. -/
theorem held_dropTask_runTask (hb : s.backgroundTasks[i]? = some b) (hstarted : b.started = true)
    {g : String} {task : QueuedTask F} (hc : b.coro = .runTask g task) :
    (s.dropTask i).unstarted = s.unstarted ∧
      s.invoked = withTask (s.dropTask i).invoked g task := by
  refine ⟨funext fun g' => ?_,funext fun g' => ?_⟩
  · rw [unstarted, unstarted, filterMap_dropTask hb]
    simp [hstarted, dropTask]
  · rw [withTask, Function.update_apply, invoked, filterMap_dropTask hb]
    simp only [hstarted, hc, Coroutine.taskOf_runTask, if_true]
    split
    · rename_i he
      subst he
      simp [invoked]
    · rename_i he
      simp [Ne.symm he, invoked]

/-- A task that ends before its function waits for anything. -/
theorem held_dropTask_unstarted (hb : s.backgroundTasks[i]? = some b) (hstarted : b.started = false)
    {g : String} {task : QueuedTask F} (hc : b.coro = .runTask g task) :
    s.unstarted = withTask (s.dropTask i).unstarted g task ∧
      (s.dropTask i).invoked = s.invoked := by
  refine ⟨funext fun g' => ?_,funext fun g' => ?_⟩
  · rw [withTask, Function.update_apply, unstarted, filterMap_dropTask hb]
    simp only [hstarted, hc, Coroutine.taskOf_runTask, Bool.false_eq_true, if_false]
    split
    · rename_i he
      subst he
      simp [unstarted, dropTask]
    · rename_i he
      simp [Ne.symm he, unstarted, dropTask]
  · rw [invoked, invoked, filterMap_dropTask hb (s := s)]
    simp [hstarted]

theorem held_parkTask (hb : s.backgroundTasks[i]? = some b) (hnone : ∀ g, b.coro.taskOf g = none) :
    (s.parkTask i b).held = s.held := by
  have hpark : (s.parkTask i b).held = (s.dropTask i).held := by
    refine held_congr [{ b with started := true }] (fun c hc g => ?_) rfl (fun _ => rfl)
    rw [List.mem_singleton.mp hc]
    exact hnone g
  exact hpark.trans (held_dropTask hb hnone)

/-- A task whose function is called is no longer among the unstarted. -/
theorem held_parkTask_runTask (hb : s.backgroundTasks[i]? = some b) (hstarted : b.started = false)
    {g : String} {task : QueuedTask F} (hc : b.coro = .runTask g task) :
    s.unstarted = withTask (s.parkTask i b).unstarted g task ∧
      (s.parkTask i b).invoked = withTask s.invoked g task := by
  have hpark : (s.parkTask i b).unstarted = (s.dropTask i).unstarted := by
    funext g'
    simp [unstarted, parkTask, dropTask]
  refine ⟨hpark ▸ (held_dropTask_unstarted hb hstarted hc).1,funext fun g' => ?_⟩
  · have hold : s.invoked g' = (s.dropTask i).invoked g' := by
      rw [invoked, filterMap_dropTask hb]
      simp [hstarted, invoked]
    rw [withTask, Function.update_apply]
    split
    · rename_i he
      subst he
      rw [hold]
      simp [invoked, parkTask, dropTask, hc, ← Multiset.coe_add, add_comm]
    · rename_i he
      rw [hold]
      simp [invoked, parkTask, dropTask, hc, Ne.symm he]

end Coroutines

section Messages
variable {s t : GroupQueue F} {i : Nat}

/-- A coroutine that runs no task begins. -/
theorem held_begin (hloop : s.loopRunning = true)
    (hnone : ∀ b ∈ s.backgroundTasks[i]?, ∀ g, b.coro.taskOf g = none) (h : s.begin i = some t) :
    t.held = s.held := by
  obtain ⟨b,hb,_,_,hc⟩ := begin_cases h
  rcases hc with ⟨g,_,_,rfl⟩ | ⟨g,_,_,rfl⟩ | ⟨g,task,hc,_⟩ | ⟨_,rfl⟩
  · exact held_parkTask hb (hnone b hb)
  · exact (held_endRunForGroup (s.dropTask i) g .success hloop).trans (held_dropTask hb (hnone b hb))
  · have htask := hnone b hb g
    rw [hc, Coroutine.taskOf_runTask, if_pos rfl] at htask
    cases htask
  · exact held_parkTask hb (hnone b hb)

theorem held_finish {outcome : Outcome} (hloop : s.loopRunning = true)
    (hnone : ∀ b ∈ s.backgroundTasks[i]?, ∀ g, b.coro.taskOf g = none)
    (h : s.finish i outcome = some t) : t.held = s.held := by
  obtain ⟨b,hb,_,hc⟩ := finish_cases h
  rcases hc with ⟨g,_,rfl⟩ | ⟨g,task,hc,_⟩
  · exact (held_endRunForGroup ((s.dropTask i).record (.messagesEnded g outcome)) g outcome hloop).trans
      (held_dropTask hb (hnone b hb))
  · have htask := hnone b hb g
    rw [hc, Coroutine.taskOf_runTask, if_pos rfl] at htask
    cases htask

theorem held_fireRetry (h : s.fireRetry i = some t) : t.held = s.held := by
  obtain ⟨b,g,d,hb,hc,rfl⟩ := fireRetry_cases h
  have hnone : ∀ g', b.coro.taskOf g' = none := by
    intro g'
    rw [hc]
    rfl
  split
  · exact held_dropTask hb hnone
  · exact (held_enqueueMessageCheck _ g).trans (held_dropTask hb hnone)

end Messages

/-- Every task held is pending in its group or marks it as running. -/
theorem Slots.held_marks {s : GroupQueue F} (h : Slots s) {g : String} {q : QueuedTask F}
    (hq : q ∈ s.unstarted g + s.invoked g) :
    q ∈ (s.groups g).pendingTasks ∨ (s.groups g).runningTaskId = some q.id := by
  have hcoro : ∀ b ∈ s.backgroundTasks, b.coro.taskOf g = some q →
      (s.groups g).runningTaskId = some q.id := by
    intro b hb ht
    cases hc : b.coro with
    | runTask g' task =>
      rw [hc, Coroutine.taskOf_runTask] at ht
      split at ht
      · rename_i he
        cases ht
        have hmark := h.marked b hb g (by rw [hc]; exact congrArg some he)
        rw [hc] at hmark
        exact hmark.1
      · cases ht
    | runForGroup g' => rw [hc] at ht; cases ht
    | retry g' d => rw [hc] at ht; cases ht
  simp only [unstarted, invoked, Multiset.mem_add, Multiset.mem_coe, List.mem_filterMap] at hq
  rcases hq with (⟨b,hb,ht⟩ | hp) | ⟨b,hb,ht⟩
  · split at ht
    · cases ht
    · exact Or.inr (hcoro b hb ht)
  · exact Or.inl hp
  · split at ht
    · exact Or.inr (hcoro b hb ht)
    · cases ht

section Enqueued
variable {s : GroupQueue F} {g : String}

/-- A task that runs is one of those held. -/
theorem held_of_running (h : Slots s) {id : String} (hid : (s.groups g).runningTaskId = some id) :
    ∃ q, (q ∈ s.unstarted g ∨ q ∈ s.invoked g) ∧ q.id = id := by
  have hactive : (s.groups g).active = true := by
    by_contra hidle
    rw [h.unmarked g (Bool.eq_false_iff.mpr hidle)] at hid
    cases hid
  have hone := h.single g
  rw [if_pos hactive] at hone
  obtain ⟨b,hb,hg⟩ := List.mem_filterMap.mp (List.count_pos_iff.mp (by omega : 0 < s.runGroups.count g))
  have hmark := h.marked b hb g hg
  cases hc : b.coro with
  | runForGroup g' =>
    rw [hc] at hmark
    exact absurd (hmark.symm.trans hid) (by simp)
  | retry g' d =>
    rw [hc] at hg
    cases hg
  | runTask g' q =>
    rw [hc] at hmark hg
    cases hg
    refine ⟨q,?_,Option.some.inj (hmark.1.symm.trans hid)⟩
    have htask : b.coro.taskOf g = some q := by rw [hc, Coroutine.taskOf_runTask, if_pos rfl]
    simp only [unstarted, invoked, Multiset.mem_add, Multiset.mem_coe, List.mem_filterMap]
    cases hs : b.started with
    | false => exact .inl (.inl ⟨b,hb,by simp [hs, htask]⟩)
    | true => exact .inr ⟨b,hb,by simp [hs, htask]⟩

/-- Before shutdown a task that is enqueued is held, under this call or an earlier one. -/
theorem held_enqueued (hslots : Slots s) (hopen : s.shuttingDown = false) (taskId : String) (fn : F) :
    ∃ q, (q ∈ (s.enqueueTask g taskId fn).unstarted g ∨ q ∈ (s.enqueueTask g taskId fn).invoked g) ∧
      q.id = taskId := by
  have hold (h : s.enqueueTask g taskId fn = s)
      (hq : ∃ q, (q ∈ s.unstarted g ∨ q ∈ s.invoked g) ∧ q.id = taskId) :
      ∃ q, (q ∈ (s.enqueueTask g taskId fn).unstarted g ∨ q ∈ (s.enqueueTask g taskId fn).invoked g) ∧
        q.id = taskId := by rwa [h]
  by_cases hrunning : (s.groups g).runningTaskId = some taskId
  · exact hold (by simp [enqueueTask, hopen, hrunning]) (held_of_running hslots hrunning)
  by_cases hpending : ∃ q ∈ (s.groups g).pendingTasks, q.id = taskId
  · obtain ⟨q,hq,hid⟩ := hpending
    have hany : (s.groups g).pendingTasks.any (fun task => task.id == taskId) = true :=
      List.any_eq_true.mpr ⟨q,hq,beq_iff_eq.mpr hid⟩
    exact hold (by simp [enqueueTask, hany]) ⟨q,.inl (Multiset.mem_add.mpr (.inr hq)),hid⟩
  · have hlonger : s.history.length < (s.enqueueTask g taskId fn).history.length := by
      have hnone : (s.groups g).pendingTasks.any (fun task => task.id == taskId) = false := by
        simpa using hpending
      simp only [enqueueTask, hopen, hrunning, hnone, Bool.false_eq_true, if_false]
      split_ifs <;>
        simp [closeStdin, enterWaiting, startRunTask, createBackgroundTask, record, setGroup, apply_ite]
    rcases enqueueTask_cases s g taskId fn with ⟨_,h⟩ | ⟨_,_,_,hcase⟩
    · rw [h] at hlonger
      exact absurd hlonger (lt_irrefl _)
    · have hheld : (s.enqueueTask g taskId fn).held = (withTask s.unstarted g ⟨taskId,g,fn⟩,s.invoked) := by
        rcases hcase with ⟨_,_,h⟩ | ⟨_,_,h⟩ | ⟨_,_,h⟩ | ⟨_,_,h⟩ <;> rw [h]
        · exact (held_closeStdin _ g).trans (held_addPending s g _)
        · exact held_addPending s g _
        · exact (held_enterWaiting _ g).trans (held_addPending s g _)
        · exact held_startRunTask (s.record _) g _ hslots.running
      refine ⟨⟨taskId,g,fn⟩,.inl ?_,rfl⟩
      rw [show (s.enqueueTask g taskId fn).unstarted = _ from congrArg Prod.fst hheld, mem_withTask]
      exact .inl ⟨rfl,rfl⟩

end Enqueued

end GroupQueue
end NanoClaw
