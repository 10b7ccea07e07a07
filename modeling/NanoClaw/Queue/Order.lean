import NanoClaw.Queue.Held
import NanoClaw.Queue.Wakeup

/-! The order of scheduled tasks. The tasks a group has accepted are those its queue has started,
then the one whose run is created, then the pending ones, and no id is there twice at a time. -/
namespace NanoClaw.GroupQueue
open Execution
variable {F : Type}

def acceptedTasks (g : String) (h : List Event) : List String :=
  h.filterMap (fun | .taskAccepted g' id => if g' = g then some id else none | _ => none)

def startedTasks (g : String) (h : List Event) : List String :=
  h.filterMap (fun | .taskInvoked g' id => if g' = g then some id else none | _ => none)

/-- What a coroutine adds to the tasks of a group that are created and not yet started. -/
def createdTask (g : String) (b : Background F) : Option String :=
  if b.started then none else (b.coro.taskOf g).map (·.id)

/-- The way of a group's tasks through the queue. -/
structure Lane where
  accepted : List String
  started : List String
  created : List String
  pending : List String
  running : Option String

def lanes (s : GroupQueue F) (g : String) : Lane where
  accepted := acceptedTasks g s.history
  started := startedTasks g s.history
  created := s.backgroundTasks.filterMap (createdTask g)
  pending := (s.groups g).pendingTasks.map (·.id)
  running := (s.groups g).runningTaskId

/-- First in, first out, and no id pending twice or pending while it runs. -/
structure Lane.Ordered (l : Lane) : Prop where
  order : l.accepted = l.started ++ (l.created ++ l.pending)
  nodup : l.pending.Nodup
  apart : ∀ id, l.running = some id → id ∉ l.pending

section Frame
variable (s : GroupQueue F) (g : String)

theorem lanes_setGroup (state : GroupState F)
    (hpending : state.pendingTasks = (s.groups g).pendingTasks)
    (hrunning : state.runningTaskId = (s.groups g).runningTaskId) :
    (s.setGroup g state).lanes = s.lanes := by
  funext g'
  simp only [lanes, setGroup, Function.update_apply]
  split
  · rename_i he
    rw [he, hpending, hrunning]
  · rfl

/-- Events that neither accept nor start a task do not show. -/
theorem lanes_record {e : Event} (haccepted : ∀ g, acceptedTasks g [e] = [])
    (hstarted : ∀ g, startedTasks g [e] = []) : (s.record e).lanes = s.lanes := by
  funext g
  have ha : acceptedTasks g (s.history ++ [e]) = acceptedTasks g s.history := by
    rw [acceptedTasks, List.filterMap_append]
    exact (congrArg (_ ++ ·) (haccepted g)).trans (List.append_nil _)
  have hs : startedTasks g (s.history ++ [e]) = startedTasks g s.history := by
    rw [startedTasks, List.filterMap_append]
    exact (congrArg (_ ++ ·) (hstarted g)).trans (List.append_nil _)
  simp only [lanes, record, ha, hs]

@[simp] theorem lanes_closeStdin : (s.closeStdin g).lanes = s.lanes := by
  rw [closeStdin]
  split
  · exact lanes_record s (fun _ => rfl) (fun _ => rfl)
  · rfl

@[simp] theorem lanes_enterWaiting : (s.enterWaiting g).lanes = s.lanes := by
  rw [enterWaiting]
  split
  · rfl
  · exact lanes_record { s with waitingGroups := s.waitingGroups ++ [g] } (fun _ => rfl) (fun _ => rfl)

theorem lanes_createBackgroundTask {coro : Coroutine F} (h : ∀ g, coro.taskOf g = none) :
    (s.createBackgroundTask coro).lanes = s.lanes := by
  funext g
  simp only [lanes, createBackgroundTask]
  split
  · simp [createdTask, h]
  · rfl

@[simp] theorem lanes_startRunForGroup : (s.startRunForGroup g).lanes = s.lanes := by
  have hgroup := lanes_setGroup s g { s.groups g with
    active := true, idleWaiting := false, isTaskContainer := false, pendingMessages := false } rfl rfl
  exact (lanes_createBackgroundTask _ (fun _ => rfl)).trans hgroup

@[simp] theorem lanes_notifyIdle : (s.notifyIdle g).lanes = s.lanes := by
  have hmark : (s.markIdle g).lanes = s.lanes := by
    apply lanes_setGroup <;> rfl
  rcases notifyIdle_cases s g with ⟨_,he⟩ | ⟨_,he⟩ <;> rw [he]
  · exact hmark
  · exact (lanes_closeStdin _ g).trans hmark

@[simp] theorem lanes_enqueueMessageCheck : (s.enqueueMessageCheck g).lanes = s.lanes := by
  have hrecord : (s.record (.checkAccepted g)).lanes = s.lanes :=
    lanes_record s (fun _ => rfl) (fun _ => rfl)
  have hnote : (s.notePending g).lanes = s.lanes := by
    refine Eq.trans ?_ hrecord
    apply lanes_setGroup <;> rfl
  rcases enqueueMessageCheck_cases s g with ⟨_,he⟩ | ⟨_,he⟩ | ⟨_,_,he⟩ | ⟨_,_,he⟩ <;> rw [he]
  · exact hnote
  · exact (lanes_enterWaiting _ g).trans hnote
  · exact (lanes_startRunForGroup _ g).trans hrecord

theorem lanes_freeRunForGroup (outcome : Outcome) :
    (s.freeRunForGroup g outcome).lanes = s.lanes := by
  obtain ⟨k,events,timers,htimers,hevents,he⟩ := settleRetry_eq s g outcome
  have hsettled : (s.settleRetry g outcome).lanes = s.lanes := by
    rw [he]
    funext g'
    have ha : acceptedTasks g' events = [] := by
      refine List.filterMap_eq_nil_iff.mpr (fun e hmem => ?_)
      obtain ⟨d,rfl⟩ := hevents e hmem
      rfl
    have hs : startedTasks g' events = [] := by
      refine List.filterMap_eq_nil_iff.mpr (fun e hmem => ?_)
      obtain ⟨d,rfl⟩ := hevents e hmem
      rfl
    have hc : timers.filterMap (createdTask g') = [] := by
      refine List.filterMap_eq_nil_iff.mpr (fun b hmem => ?_)
      obtain ⟨d,rfl⟩ := htimers b hmem
      rfl
    have hgroup : (Function.update s.groups g { s.groups g with retryCount := k } g').pendingTasks =
        (s.groups g').pendingTasks ∧
      (Function.update s.groups g { s.groups g with retryCount := k } g').runningTaskId =
        (s.groups g').runningTaskId := by
      simp only [Function.update_apply]
      split
      · rename_i hg
        rw [hg]
        exact ⟨rfl,rfl⟩
      · exact ⟨rfl,rfl⟩
    simp only [acceptedTasks, startedTasks] at ha hs
    simp only [lanes, acceptedTasks, startedTasks, List.filterMap_append, ha, hs, hc, hgroup,
      List.append_nil]
  exact (lanes_setGroup (s.settleRetry g outcome) g
    { (s.settleRetry g outcome).groups g with active := false } rfl rfl).trans hsettled

end Frame

/-- A task that is created and not started is a run in flight. -/
theorem length_created_le (s : GroupQueue F) (g : String) :
    (s.lanes g).created.length ≤ (s.runsOf g).length := by
  rw [lanes, List.length_filterMap_eq_countP, runsOf, ← List.countP_eq_length_filter]
  apply List.countP_mono_left
  intro b _ hb
  rcases hc : b.coro with g' | ⟨g',task⟩ | ⟨g',d⟩
  · simp [createdTask, hc, Coroutine.taskOf] at hb
  · have hg : g' = g := by
      by_contra hne
      simp [createdTask, hc, hne] at hb
    simp [Coroutine.runGroup, hg]
  · simp [createdTask, hc, Coroutine.taskOf] at hb

theorem Slots.created_idle {s : GroupQueue F} (h : Slots s) {g : String}
    (hidle : (s.groups g).active = false) : (s.lanes g).created = [] := by
  have hle := length_created_le s g
  rw [h.runsOf_idle hidle] at hle
  exact List.eq_nil_of_length_eq_zero (Nat.le_zero.mp hle)

section Coroutines
variable {s : GroupQueue F} {i : Nat} {b : Background F}

/-- A coroutine that is no created task of a group does not show in its lane. -/
theorem lanes_dropTask (hb : s.backgroundTasks[i]? = some b) {g : String}
    (hnone : createdTask g b = none) : (s.dropTask i).lanes g = s.lanes g := by
  have hcreated : (s.backgroundTasks.eraseIdx i).filterMap (createdTask g) =
      s.backgroundTasks.filterMap (createdTask g) := by
    obtain ⟨hi,he⟩ := List.getElem?_eq_some_iff.mp hb
    have hsplit : s.backgroundTasks = s.backgroundTasks.take i ++ b :: s.backgroundTasks.drop (i + 1) := by
      rw [← he, List.getElem_cons_drop, List.take_append_drop]
    rw [List.eraseIdx_eq_take_drop_succ]
    conv_rhs => rw [hsplit]
    simp [hnone]
  simp only [lanes, dropTask, hcreated]

theorem lanes_parkTask_eq (s : GroupQueue F) (i : Nat) (b : Background F) :
    (s.parkTask i b).lanes = (s.dropTask i).lanes := by
  funext g
  simp [lanes, parkTask, dropTask, createdTask]

/-- The created task of a group is the only one. -/
theorem Slots.created_eq (h : Slots s) (hb : s.backgroundTasks[i]? = some b)
    (hfresh : b.started = false) {g : String} {task : QueuedTask F} (hc : b.coro = .runTask g task) :
    (s.lanes g).created = [task.id] ∧ ((s.dropTask i).lanes g).created = [] := by
  have htask : createdTask g b = some task.id := by simp [createdTask, hfresh, hc]
  have hperm : (s.lanes g).created.Perm (task.id :: ((s.dropTask i).lanes g).created) := by
    have := (erase_perm hb).filterMap (createdTask g)
    rwa [List.filterMap_cons, htask] at this
  have hle := length_created_le s g
  have hone : (s.runsOf g).length ≤ 1 := by
    rw [length_runsOf, h.single]
    split <;> omega
  have hlen := hperm.length_eq
  rw [List.length_cons] at hlen
  have hnil := List.eq_nil_of_length_eq_zero (l := ((s.dropTask i).lanes g).created) (by omega)
  rw [hnil] at hperm
  exact ⟨List.perm_singleton.mp hperm,hnil⟩

end Coroutines

/-- A task that starts is created and marked as running. -/
theorem lanes_startRunTask {s : GroupQueue F} (hloop : s.loopRunning = true) (g : String)
    (task : QueuedTask F) :
    (s.startRunTask g task).lanes = Function.update s.lanes g { s.lanes g with
      created := (s.lanes g).created ++ [task.id], running := some task.id } := by
  funext g'
  simp only [Function.update_apply]
  split
  · rename_i he
    subst he
    simp [lanes, startRunTask, createBackgroundTask, setGroup, hloop, createdTask]
  · rename_i he
    simp [lanes, startRunTask, createBackgroundTask, setGroup, hloop, createdTask, he, Ne.symm he]

def Orderly (s : GroupQueue F) : Prop := ∀ g, (s.lanes g).Ordered

theorem Orderly.frame {s t : GroupQueue F} (h : Orderly s) (he : t.lanes = s.lanes) : Orderly t :=
  fun g => he ▸ h g

/-- An idle group's oldest task is the next to start. -/
theorem startPending_orderly {s : GroupQueue F} (h : Orderly s) (hs : Slots s) {g : String}
    (hidle : (s.groups g).active = false) : Orderly (s.startPending g) := by
  rcases startPending_cases s g with ⟨task,rest,hp,he⟩ | ⟨_,_,he⟩ | ⟨_,he⟩
  · rw [he]
    intro g'
    rw [lanes_startRunTask (by exact hs.running)]
    by_cases hg : g' = g
    · subst hg
      have hold := h g'
      have hcreated := hs.created_idle hidle
      have hpending : (s.lanes g').pending = task.id :: rest.map (·.id) := by simp [lanes, hp]
      have horder := hold.order
      have hnodup := hold.nodup
      rw [hpending] at horder hnodup
      rw [hcreated] at horder
      obtain ⟨hnew,hrest⟩ := List.nodup_cons.mp hnodup
      have hcreated : (s.backgroundTasks.filterMap (createdTask g')) = [] := hcreated
      rw [Function.update_self]
      refine ⟨?_,?_,?_⟩
      · simpa [lanes, setGroup, hcreated] using horder
      · simpa [lanes, setGroup] using hrest
      · intro id hid
        cases hid
        simpa [lanes, setGroup] using hnew
    · rw [Function.update_of_ne hg]
      simpa [lanes, setGroup, hg] using h g'
  · rw [he]
    exact h.frame (lanes_startRunForGroup s g)
  · rw [he]
    exact h

theorem lanes_taskAccepted (s : GroupQueue F) (g taskId : String) :
    (s.record (.taskAccepted g taskId)).lanes = Function.update s.lanes g { s.lanes g with
      accepted := (s.lanes g).accepted ++ [taskId] } := by
  funext g'
  simp only [Function.update_apply]
  split
  · rename_i he
    subst he
    simp [lanes, acceptedTasks, startedTasks, record]
  · rename_i he
    simp [lanes, acceptedTasks, startedTasks, record, Ne.symm he]

theorem lanes_addPending (s : GroupQueue F) (g : String) (task : QueuedTask F) :
    (s.addPending g task).lanes = Function.update s.lanes g { s.lanes g with
      accepted := (s.lanes g).accepted ++ [task.id], pending := (s.lanes g).pending ++ [task.id] } := by
  have haccepted := lanes_taskAccepted s g task.id
  funext g'
  have hlane := congrFun haccepted g'
  simp only [Function.update_apply] at hlane ⊢
  split at hlane
  · rename_i he
    subst he
    simp only [lanes, Lane.mk.injEq] at hlane
    simp [lanes, addPending, setGroup, hlane]
  · rename_i he
    rw [if_neg he, ← hlane]
    simp [lanes, addPending, setGroup, he]

/-- A task is accepted behind those its group has pending. -/
theorem addPending_orderly {s : GroupQueue F} (h : Orderly s) {g : String} {task : QueuedTask F}
    (hrunning : (s.groups g).runningTaskId ≠ some task.id)
    (hnew : ∀ q ∈ (s.groups g).pendingTasks, q.id ≠ task.id) : Orderly (s.addPending g task) := by
  intro g'
  rw [lanes_addPending]
  by_cases hg : g' = g
  · subst hg
    have hold := h g'
    have hnew : task.id ∉ (s.lanes g').pending := by
      intro hmem
      obtain ⟨q,hq,hid⟩ := List.mem_map.mp hmem
      exact hnew q hq hid
    rw [Function.update_self]
    refine ⟨?_,?_,?_⟩
    · simp only [hold.order, List.append_assoc]
    · exact hold.nodup.append (List.nodup_singleton _) (by simpa using hnew)
    · intro id hid hmem
      rcases List.mem_append.mp hmem with hmem | hmem
      · exact hold.apart id hid hmem
      · rw [List.mem_singleton.mp hmem] at hid
        exact hrunning hid
  · rw [Function.update_of_ne hg]
    exact h g'

/-- A task starts at once only when its group has none pending. -/
theorem enqueueTask_orderly {s : GroupQueue F} (h : Orderly s) (hinv : Inv s) (g taskId : String)
    (fn : F) : Orderly (s.enqueueTask g taskId fn) := by
  rcases enqueueTask_cases s g taskId fn with
    ⟨_,he⟩ | ⟨_,hrunning,hnew,⟨_,_,he⟩ | ⟨_,_,he⟩ | ⟨_,_,he⟩ | ⟨hidle,hroom,he⟩⟩ <;> rw [he]
  · exact h
  · exact (addPending_orderly h hrunning hnew).frame (lanes_closeStdin _ g)
  · exact addPending_orderly h hrunning hnew
  · exact (addPending_orderly h hrunning hnew).frame (lanes_enterWaiting _ g)
  · have hnone : (s.groups g).pendingTasks = [] := by
      by_contra hne
      have hactive := Bool.eq_false_iff.mp hidle
      have hmem := (hinv.covered g (Or.inr hne)).resolve_left hactive
      have hfull := hinv.full (List.ne_nil_of_mem hmem)
      omega
    have hcreated : (s.lanes g).created = [] := hinv.toSlots.created_idle hidle
    have hpending : (s.lanes g).pending = [] := congrArg (List.map QueuedTask.id) hnone
    intro g'
    rw [lanes_startRunTask (by exact hinv.running), lanes_taskAccepted, Function.update_self,
      Function.update_idem]
    by_cases hg : g' = g
    · subst hg
      have horder := (h g').order
      rw [hcreated, hpending, List.append_nil] at horder
      rw [Function.update_self]
      refine ⟨?_,?_,?_⟩
      · simp [horder, hcreated, hpending]
      · simp [hpending]
      · simp [hpending]
    · rw [Function.update_of_ne hg]
      exact h g'

/-- A drain keeps the order. -/
theorem Freed.orderly {s : GroupQueue F} {g : String} (hf : Freed s g) (h : Orderly s) :
    Orderly (s.drainGroup g) := by
  refine hf.rule (P := Orderly) ?_ (fun t g' h hs hidle => startPending_orderly h hs hidle) h
  intro t g' rest h
  exact h.frame (lanes_record { t with waitingGroups := rest } (fun _ => rfl) (fun _ => rfl))

theorem freeRunTask_orderly {s : GroupQueue F} (h : Orderly s) (g : String) :
    Orderly (s.freeRunTask g) := by
  intro g'
  by_cases hg : g' = g
  · subst hg
    have hlane : (s.freeRunTask g').lanes g' = { s.lanes g' with running := none } := by
      simp [lanes, freeRunTask, setGroup]
    rw [hlane]
    exact ⟨(h g').order,(h g').nodup,fun id hid => by cases hid⟩
  · have hlane : (s.freeRunTask g).lanes g' = s.lanes g' := by
      simp [lanes, freeRunTask, setGroup, hg]
    rw [hlane]
    exact h g'

/-- The function of the one created task is called. -/
theorem invokeTask_orderly {s : GroupQueue F} (h : Orderly s) (hs : Slots s) {i : Nat}
    {b : Background F} (hb : s.backgroundTasks[i]? = some b) (hfresh : b.started = false)
    {g : String} {task : QueuedTask F} (hc : b.coro = .runTask g task) :
    Orderly ((s.parkTask i b).record (.taskInvoked g task.id)) := by
  obtain ⟨hcreated,hgone⟩ := hs.created_eq hb hfresh hc
  have hlane : ∀ g', ((s.parkTask i b).record (.taskInvoked g task.id)).lanes g' =
      { (s.dropTask i).lanes g' with
        started := (s.lanes g').started ++ (if g = g' then [task.id] else []) } := by
    intro g'
    rw [← lanes_parkTask_eq s i b]
    simp only [lanes, record, parkTask, acceptedTasks, startedTasks, List.filterMap_append]
    split <;> rename_i he <;> simp [he]
  intro g'
  rw [hlane]
  by_cases hg : g = g'
  · subst hg
    have horder := (h g).order
    rw [hcreated] at horder
    refine ⟨?_,(h g).nodup,(h g).apart⟩
    rw [if_pos rfl, hgone]
    exact horder.trans (by simp; rfl)
  · rw [if_neg hg, List.append_nil, lanes_dropTask hb (by simp [createdTask, hc, hg])]
    exact h g'

theorem step_orderly {s t : GroupQueue F} {a : Action F} (hinv : Inv s)
    (ht : t.shuttingDown = false) (h : Orderly s) (hstep : step s a = some t) : Orderly t := by
  have hpark : ∀ i b, s.backgroundTasks[i]? = some b → (∀ g, createdTask g b = none) →
      Orderly (s.parkTask i b) := by
    intro i b hb hnone g
    rw [lanes_parkTask_eq, lanes_dropTask hb (hnone g)]
    exact h g
  have hdrop : ∀ i b, s.backgroundTasks[i]? = some b → (∀ g, createdTask g b = none) →
      Orderly (s.dropTask i) := by
    intro i b hb hnone g
    rw [lanes_dropTask hb (hnone g)]
    exact h g
  cases a with
  | enqueueMessageCheck g => cases hstep; exact h.frame (lanes_enqueueMessageCheck s g)
  | enqueueTask g taskId fn => cases hstep; exact enqueueTask_orderly h hinv g taskId fn
  | notifyIdle g => cases hstep; exact h.frame (lanes_notifyIdle s g)
  | begin i =>
    obtain ⟨b,hb,hfresh,_,hc⟩ := begin_cases hstep
    rcases hc with ⟨g,hg,_,rfl⟩ | ⟨g,hg,_,rfl⟩ | ⟨g,task,hg,rfl⟩ | ⟨hg,rfl⟩
    · have hnone : ∀ g, createdTask g b = none := by simp [createdTask, hg, Coroutine.taskOf]
      exact (hpark i b hb hnone).frame (lanes_record _ (fun _ => rfl) (fun _ => rfl))
    · have hnone : ∀ g, createdTask g b = none := by simp [createdTask, hg, Coroutine.taskOf]
      refine (freeRunForGroup_freed hinv hb hg s.history rfl .success).orderly ?_
      exact (hdrop i b hb hnone).frame (lanes_freeRunForGroup (s.dropTask i) g .success)
    · exact invokeTask_orderly h hinv.toSlots hb hfresh hg
    · refine hpark i b hb (fun g => ?_)
      rcases hk : b.coro with g' | ⟨g',task⟩ | ⟨g',d⟩
      · rw [hk] at hg
        cases hg
      · rw [hk] at hg
        cases hg
      · simp [createdTask, hk, Coroutine.taskOf]
  | finish i outcome =>
    obtain ⟨b,hb,hs,hc⟩ := finish_cases hstep
    have hdropped := hdrop i b hb (fun g => by simp [createdTask, hs])
    rcases hc with ⟨g,hg,rfl⟩ | ⟨g,task,hg,rfl⟩
    · refine (freeRunForGroup_freed hinv hb hg _ rfl outcome).orderly ?_
      refine Orderly.frame ?_ (lanes_freeRunForGroup ((s.dropTask i).record _) g outcome)
      exact hdropped.frame (lanes_record _ (fun _ => rfl) (fun _ => rfl))
    · exact (freeRunTask_freed hinv hb hg).orderly (freeRunTask_orderly hdropped g)
  | fireRetry i =>
    obtain ⟨b,g,d,hb,hg,rfl⟩ := fireRetry_cases hstep
    have hdropped := hdrop i b hb (fun g => by simp [createdTask, hg, Coroutine.taskOf])
    split
    · exact hdropped
    · exact hdropped.frame (lanes_enqueueMessageCheck _ g)
  | shutdown => cases hstep; cases ht
  | dropCancelled i =>
    obtain ⟨b,hb,hc,_⟩ := dropCancelled_cases hstep
    rw [hinv.uncancelled b (List.mem_of_getElem? hb)] at hc
    cases hc

/-- After shutdown no task of a group is accepted or started. -/
theorem Stopped.step_tasks {s t : GroupQueue F} {a : Action F} (h : Stopped s)
    (hstep : GroupQueue.step s a = some t) (g : String) :
    (t.lanes g).accepted = (s.lanes g).accepted ∧ (t.lanes g).started = (s.lanes g).started := by
  have hsame : ∀ u : GroupQueue F, u.lanes g = s.lanes g →
      (u.lanes g).accepted = (s.lanes g).accepted ∧ (u.lanes g).started = (s.lanes g).started :=
    fun u he => by rw [he]; exact ⟨rfl,rfl⟩
  rcases h.step_cases hstep with rfl | rfl | ⟨g',_,rfl⟩ | ⟨i,b,_,hc⟩
  · exact ⟨rfl,rfl⟩
  · exact ⟨rfl,rfl⟩
  · exact hsame _ (congrFun (lanes_notifyIdle s g') g)
  · rcases hc with rfl | ⟨_,rfl⟩ | ⟨g',outcome,_,rfl⟩ | ⟨g',task,_,rfl⟩
    · exact ⟨rfl,rfl⟩
    · exact ⟨rfl,rfl⟩
    · rw [congrFun (lanes_freeRunForGroup _ g' outcome) g,
        congrFun (lanes_record (s.dropTask i) (fun _ => rfl) (fun _ => rfl)) g]
      exact ⟨rfl,rfl⟩
    · exact ⟨rfl,rfl⟩

/-- Before shutdown a task is refused only while its group runs it or has it pending. -/
theorem enqueueTask_accepted {s : GroupQueue F} (hopen : s.shuttingDown = false)
    (g taskId : String) (fn : F) :
    acceptedTasks g (s.enqueueTask g taskId fn).history =
      if (s.groups g).runningTaskId = some taskId ∨ taskId ∈ (s.groups g).pendingTasks.map (·.id)
      then acceptedTasks g s.history else acceptedTasks g s.history ++ [taskId] := by
  have hrecord : acceptedTasks g (s.history ++ [.taskAccepted g taskId]) =
      acceptedTasks g s.history ++ [taskId] := by
    simp [acceptedTasks]
  have hframe : ∀ u : GroupQueue F, u.lanes = (s.addPending g ⟨taskId,g,fn⟩).lanes →
      acceptedTasks g u.history = acceptedTasks g s.history ++ [taskId] := fun u hu =>
    (congrArg Lane.accepted (congrFun hu g)).trans hrecord
  rcases enqueueTask_cases s g taskId fn with ⟨hrefused,he⟩ | ⟨_,hrunning,hnew,hc⟩
  · rw [he, if_pos]
    rcases hrefused with hshut | hrunning | ⟨q,hq,hid⟩
    · rw [hopen] at hshut
      cases hshut
    · exact .inl hrunning
    · exact .inr (List.mem_map.mpr ⟨q,hq,hid⟩)
  · rw [if_neg]
    · rcases hc with ⟨_,_,he⟩ | ⟨_,_,he⟩ | ⟨_,_,he⟩ | ⟨_,_,he⟩ <;> rw [he]
      · exact hframe _ (lanes_closeStdin _ g)
      · exact hframe _ rfl
      · exact hframe _ (lanes_enterWaiting _ g)
      · exact hrecord
    · rintro (hc | hc)
      · exact hrunning hc
      · obtain ⟨q,hq,hid⟩ := List.mem_map.mp hc
        exact hnew q hq hid

/-- In every run the tasks of a group that have started are the first of those it accepted, in
the order it accepted them. Before shutdown a task is refused only while it is pending or runs, no
id is pending twice or while it runs, and when no run is in flight every accepted task has
started. -/
theorem tasks_in_order {maxC maxR base maxMs : Int} {p c : Bool} {s : GroupQueue F}
    (h : Reachable step (init maxC maxR base maxMs p c) s) :
    (∀ g, startedTasks g s.history <+: acceptedTasks g s.history) ∧
    (s.shuttingDown = false →
      (∀ g taskId fn, acceptedTasks g (s.enqueueTask g taskId fn).history =
        if (s.groups g).runningTaskId = some taskId ∨ taskId ∈ (s.groups g).pendingTasks.map (·.id)
        then acceptedTasks g s.history else acceptedTasks g s.history ++ [taskId]) ∧
      (∀ g, ((s.groups g).pendingTasks.map (·.id)).Nodup ∧
        ∀ id, (s.groups g).runningTaskId = some id → id ∉ (s.groups g).pendingTasks.map (·.id)) ∧
      ((∀ g, s.runsOf g = []) → ∀ g, startedTasks g s.history = acceptedTasks g s.history)) := by
  have hinit : Orderly (init (F := F) maxC maxR base maxMs p c) := by
    intro g
    exact ⟨rfl,List.nodup_nil,fun id hid => by cases hid⟩
  have hphase := reachable_phases (P := Orderly)
    (Q := fun s => ∀ g, (s.lanes g).started <+: (s.lanes g).accepted)
    (fun s a t hinv _ ht hs hstep => step_orderly hinv ht hs hstep)
    (fun s _ hs g => ⟨_,(hs g).order.symm⟩)
    (fun s a t hstopped hs hstep g => by
      obtain ⟨haccepted,hstarted⟩ := hstopped.step_tasks hstep g
      rw [haccepted, hstarted]
      exact hs g)
    h (inv_init maxC maxR base maxMs p c) rfl hinit
  rcases hphase with ⟨hopen,hinv,hs⟩ | ⟨hstopped,hs⟩
  · refine ⟨fun g => ⟨_,(hs g).order.symm⟩,
      fun _ => ⟨enqueueTask_accepted hopen,fun g => ⟨(hs g).nodup,(hs g).apart⟩,?_⟩⟩
    intro hquiet g
    have hmax : s.maxConcurrent = max 1 maxC :=
      congrArg Settings.maxConcurrent (reachable_settings h hopen)
    have hcreated := hinv.created_idle (hinv.idle_of_no_runs hquiet g)
    have hpending : (s.groups g).pendingTasks = [] := by
      by_contra hne
      exact hinv.no_work_of_no_runs (by omega) hquiet g (.inr hne)
    have horder := (hs g).order
    rw [hcreated] at horder
    simpa [lanes, hpending] using horder.symm
  · refine ⟨hs,fun hopen => ?_⟩
    rw [hstopped.shut] at hopen
    cases hopen

/-- With one slot, a second task of a group starts after the first has raised, and a task that is
asked for again while it waits is refused. -/
theorem tasks_in_order_one_slot :
    ∃ s : GroupQueue Unit, Reachable step (init 1 5 10 300000 true true) s ∧
      (∀ g, s.runsOf g = []) ∧ acceptedTasks "a" s.history = ["t","u"] ∧
      startedTasks "a" s.history = acceptedTasks "a" s.history ∧
      acceptedTasks "a" (s.enqueueTask "a" "t" ()).history = ["t","u","t"] := by
  obtain ⟨s,hs,hopen,hquiet,haccepted,hagain⟩ : ∃ s : GroupQueue Unit, exec step
      (init 1 5 10 300000 true true) [.enqueueTask "a" "t" (),.enqueueTask "a" "u" (),.begin 0,
        .enqueueTask "a" "u" (),.finish 0 .exception,.begin 0,.finish 0 .success] = some s ∧
      s.shuttingDown = false ∧ (∀ g, s.runsOf g = []) ∧ acceptedTasks "a" s.history = ["t","u"] ∧
      ¬((s.groups "a").runningTaskId = some "t" ∨
        "t" ∈ (s.groups "a").pendingTasks.map (·.id)) :=
    ⟨_,rfl,rfl,fun _ => rfl,rfl,by decide⟩
  obtain ⟨haccept,_,hstarted⟩ := (tasks_in_order ⟨_,hs⟩).2 hopen
  have hnext := haccept "a" "t" ()
  rw [if_neg hagain, haccepted] at hnext
  exact ⟨s,⟨_,hs⟩,hquiet,haccepted,hstarted hquiet "a",hnext⟩

end NanoClaw.GroupQueue
