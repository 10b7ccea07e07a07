import NanoClaw.Queue.Retry
import NanoClaw.Queue.Wakeup
import Mathlib.Algebra.BigOperators.Group.Finset.Basic

/-! Retries die out. What the queue still has to do has a size: every coroutine, every pending
check and task counts, and so do the retries a group has left. Moves of the queue's own lower it. -/
namespace NanoClaw
variable {F : Type}

def Coroutine.groupOf : Coroutine F → String
  | .runForGroup g => g
  | .runTask g _ => g
  | .retry g _ => g

namespace GroupQueue
open Execution

/-- The weight of a message run: it outweighs the retries that its success gives back. -/
def runWeight (retries : Nat) : Nat := 5 * (retries + 1)

/-- A coroutine weighs less with each move that it makes. -/
def taskWeight (retries : Nat) (b : Background F) : Nat :=
  match b.coro with
  | .runForGroup _ => runWeight retries + (if b.started then 0 else 1)
  | .retry _ _ => runWeight retries + (if b.started then 3 else 4)
  | .runTask _ _ => if b.started then 1 else 2

theorem taskWeight_pos (retries : Nat) (b : Background F) : 0 < taskWeight retries b := by
  rcases hc : b.coro with g | ⟨g,task⟩ | ⟨g,d⟩ <;> simp only [taskWeight, hc, runWeight] <;>
    split <;> omega

def groupWeight (retries : Nat) (state : GroupState F) : Nat :=
  5 * (retries - state.retryCount) + (if state.pendingMessages then runWeight retries + 2 else 0) +
    3 * state.pendingTasks.length

/-- The work left in a finite set of groups, and in the coroutines. -/
def workLeft (retries : Nat) (G : Finset String) (s : GroupQueue F) : Nat :=
  ∑ g ∈ G, groupWeight retries (s.groups g) + (s.backgroundTasks.map (taskWeight retries)).sum

/-- All work is in these groups. -/
structure Within (G : Finset String) (s : GroupQueue F) : Prop where
  tasks : ∀ b ∈ s.backgroundTasks, b.coro.groupOf ∈ G
  groups : ∀ g, HasWork (s.groups g) → g ∈ G

section Weights
variable {retries : Nat} {G : Finset String} (s : GroupQueue F) (g : String)

theorem workLeft_setGroup (hg : g ∈ G) (state : GroupState F) :
    workLeft retries G (s.setGroup g state) + groupWeight retries (s.groups g) =
      workLeft retries G s + groupWeight retries state := by
  have hsum : ∀ f : String → GroupState F,
      ∑ g' ∈ G, groupWeight retries (f g') =
        groupWeight retries (f g) + ∑ g' ∈ G.erase g, groupWeight retries (f g') :=
    fun f => (Finset.add_sum_erase G _ hg).symm
  have hrest : ∑ g' ∈ G.erase g, groupWeight retries (Function.update s.groups g state g') =
      ∑ g' ∈ G.erase g, groupWeight retries (s.groups g') := by
    refine Finset.sum_congr rfl (fun g' hg' => ?_)
    rw [Function.update_of_ne (Finset.ne_of_mem_erase hg')]
  simp only [workLeft, setGroup]
  rw [hsum, hsum s.groups, hrest, Function.update_self]
  omega

/-- Writing a state of the same weight, in whatever group. -/
theorem workLeft_setGroup_eq {state : GroupState F}
    (h : groupWeight retries state = groupWeight retries (s.groups g)) :
    workLeft retries G (s.setGroup g state) = workLeft retries G s := by
  have hsum : ∑ g' ∈ G, groupWeight retries ((s.setGroup g state).groups g') =
      ∑ g' ∈ G, groupWeight retries (s.groups g') := by
    refine Finset.sum_congr rfl (fun g' _ => ?_)
    simp only [setGroup, Function.update_apply]
    split
    · rename_i he
      rw [he, h]
    · rfl
  simp only [workLeft, hsum]
  rfl

theorem workLeft_createBackgroundTask (coro : Coroutine F) :
    workLeft retries G (s.createBackgroundTask coro) ≤
      workLeft retries G s + taskWeight retries { coro } := by
  simp only [createBackgroundTask, workLeft]
  split
  · simp [add_assoc]
  · omega

theorem workLeft_dropTask {i : Nat} {b : Background F} (hb : s.backgroundTasks[i]? = some b) :
    workLeft retries G (s.dropTask i) + taskWeight retries b = workLeft retries G s := by
  have hsum := ((erase_perm hb).map (taskWeight retries)).sum_eq
  simp only [workLeft, dropTask, hsum, List.map_cons, List.sum_cons]
  omega

theorem workLeft_parkTask {i : Nat} {b : Background F} (hb : s.backgroundTasks[i]? = some b)
    (hfresh : b.started = false) : workLeft retries G (s.parkTask i b) < workLeft retries G s := by
  have hdrop : workLeft retries G (s.dropTask i) + taskWeight retries b = workLeft retries G s :=
    workLeft_dropTask s hb
  have hpark : workLeft retries G (s.parkTask i b) =
      workLeft retries G (s.dropTask i) + taskWeight retries { b with started := true } := by
    simp [workLeft, parkTask, dropTask, add_assoc]
  have hless : taskWeight retries { b with started := true } < taskWeight retries b := by
    rcases hc : b.coro with g | ⟨g,task⟩ | ⟨g,d⟩ <;> simp [taskWeight, hc, hfresh]
  omega

@[simp] theorem workLeft_closeStdin : workLeft retries G (s.closeStdin g) = workLeft retries G s := by
  rw [closeStdin]
  split <;> rfl

@[simp] theorem workLeft_enterWaiting :
    workLeft retries G (s.enterWaiting g) = workLeft retries G s := by
  rw [enterWaiting]
  split <;> rfl

end Weights

section Within
variable {G : Finset String} {s : GroupQueue F} {g : String}

theorem Within.setGroup (h : Within G s) (hg : g ∈ G) (state : GroupState F) :
    Within G (s.setGroup g state) := by
  refine ⟨h.tasks,fun g' hg' => ?_⟩
  by_cases he : g' = g
  · rw [he]
    exact hg
  · exact h.groups g' (by simpa [GroupQueue.setGroup, he] using hg')

theorem Within.createBackgroundTask (h : Within G s) (coro : Coroutine F) (hg : coro.groupOf ∈ G) :
    Within G (s.createBackgroundTask coro) := by
  refine ⟨fun b hb => ?_,h.groups⟩
  simp only [GroupQueue.createBackgroundTask] at hb
  split at hb
  · rcases List.mem_append.mp hb with hb | hb
    · exact h.tasks b hb
    · rw [List.mem_singleton.mp hb]
      exact hg
  · exact h.tasks b hb

theorem Within.frame {t : GroupQueue F} (h : Within G s) (hgroups : t.groups = s.groups)
    (htasks : t.backgroundTasks = s.backgroundTasks) : Within G t :=
  ⟨fun b hb => h.tasks b (htasks ▸ hb),fun g hg => h.groups g (hgroups ▸ hg)⟩

theorem Within.closeStdin (h : Within G s) : Within G (s.closeStdin g) := by
  rw [GroupQueue.closeStdin]
  split
  · exact h.frame rfl rfl
  · exact h

theorem Within.enterWaiting (h : Within G s) : Within G (s.enterWaiting g) := by
  rw [GroupQueue.enterWaiting]
  split
  · exact h
  · exact h.frame rfl rfl

theorem Within.dropTask (h : Within G s) (i : Nat) : Within G (s.dropTask i) :=
  ⟨fun b hb => h.tasks b (List.mem_of_mem_eraseIdx hb),h.groups⟩

theorem Within.parkTask (h : Within G s) {i : Nat} {b : Background F}
    (hb : s.backgroundTasks[i]? = some b) : Within G (s.parkTask i b) := by
  refine ⟨fun b' hb' => ?_,h.groups⟩
  rcases List.mem_append.mp hb' with hb' | hb'
  · exact h.tasks b' (List.mem_of_mem_eraseIdx hb')
  · rw [List.mem_singleton.mp hb']
    exact h.tasks b (List.mem_of_getElem? hb)

end Within

section Starting
variable (retries : Nat) {G : Finset String} {s : GroupQueue F} {g : String}

/-- A message run that starts takes its group's pending check with it. -/
theorem startRunForGroup_work (h : Within G s) (hg : g ∈ G) :
    Within G (s.startRunForGroup g) ∧
      workLeft retries G (s.startRunForGroup g) +
          (if (s.groups g).pendingMessages then runWeight retries + 2 else 0) ≤
        workLeft retries G s + (runWeight retries + 1) := by
  let state : GroupState F := { s.groups g with
    active := true, idleWaiting := false, isTaskContainer := false, pendingMessages := false }
  let u : GroupQueue F := { s.setGroup g state with activeCount := s.activeCount + 1 }
  have hwithin : Within G u := (h.setGroup hg state).frame rfl rfl
  refine ⟨hwithin.createBackgroundTask (.runForGroup g) hg,?_⟩
  have hset : workLeft retries G (s.setGroup g state) + _ = _ := workLeft_setGroup s g hg state
  have hcreate : workLeft retries G (s.startRunForGroup g) ≤ workLeft retries G (s.setGroup g state) +
      taskWeight retries { coro := (.runForGroup g : Coroutine F) } :=
    workLeft_createBackgroundTask u (.runForGroup g)
  have hstate : groupWeight retries state +
      (if (s.groups g).pendingMessages then runWeight retries + 2 else 0) =
        groupWeight retries (s.groups g) := by
    simp only [groupWeight, state, Bool.false_eq_true, if_false]
    omega
  have hcoro : taskWeight retries { coro := (.runForGroup g : Coroutine F) } = runWeight retries + 1 := rfl
  omega

theorem startRunTask_work (h : Within G s) (hg : g ∈ G) (task : QueuedTask F) :
    Within G (s.startRunTask g task) ∧
      workLeft retries G (s.startRunTask g task) ≤ workLeft retries G s + 2 := by
  let state : GroupState F := { s.groups g with
    active := true, idleWaiting := false, isTaskContainer := true, runningTaskId := some task.id }
  let u : GroupQueue F := { s.setGroup g state with activeCount := s.activeCount + 1 }
  have hwithin : Within G u := (h.setGroup hg state).frame rfl rfl
  refine ⟨hwithin.createBackgroundTask (.runTask g task) hg,?_⟩
  have hset : workLeft retries G (s.setGroup g state) = workLeft retries G s :=
    workLeft_setGroup_eq s g rfl
  have hcreate : workLeft retries G (s.startRunTask g task) ≤ workLeft retries G (s.setGroup g state) +
      taskWeight retries { coro := (.runTask g task : Coroutine F) } :=
    workLeft_createBackgroundTask u (.runTask g task)
  have hcoro : taskWeight retries { coro := (.runTask g task : Coroutine F) } = 2 := rfl
  omega

/-- Pending work weighs more than the run it becomes. -/
theorem startPending_work (h : Within G s) :
    Within G (s.startPending g) ∧ workLeft retries G (s.startPending g) ≤ workLeft retries G s := by
  rcases startPending_cases s g with ⟨task,rest,hp,he⟩ | ⟨_,hm,he⟩ | ⟨_,he⟩
  · rw [he]
    have hg : g ∈ G := h.groups g (Or.inr (by simp [hp]))
    let state : GroupState F := { s.groups g with pendingTasks := rest }
    have hset : workLeft retries G (s.setGroup g state) + _ = _ := workLeft_setGroup s g hg state
    have hstate : groupWeight retries state + 3 = groupWeight retries (s.groups g) := by
      simp only [groupWeight, state, hp, List.length_cons]
      omega
    obtain ⟨hwithin,hstart⟩ := startRunTask_work retries (h.setGroup hg state) hg task
    have hle : workLeft retries G ((s.setGroup g state).startRunTask g task) ≤
        workLeft retries G s := by omega
    exact ⟨hwithin,hle⟩
  · rw [he]
    have hg : g ∈ G := h.groups g (Or.inl hm)
    obtain ⟨hwithin,hstart⟩ := startRunForGroup_work retries h hg
    refine ⟨hwithin,?_⟩
    simp only [hm, if_true] at hstart
    omega
  · rw [he]
    exact ⟨h,Nat.le_refl _⟩

theorem drainGroup_work (h : Within G s) :
    Within G (s.drainGroup g) ∧ workLeft retries G (s.drainGroup g) ≤ workLeft retries G s := by
  apply drainGroup_rule
    (P := fun t => Within G t ∧ workLeft retries G t ≤ workLeft retries G s)
  · rintro t g' rest _ ⟨hwithin,hle⟩
    exact ⟨hwithin.frame rfl rfl,hle⟩
  · rintro t g' ⟨hwithin,hle⟩
    obtain ⟨hstart,hless⟩ := startPending_work retries hwithin
    exact ⟨hstart,hless.trans hle⟩
  · exact ⟨h,Nat.le_refl _⟩

end Starting

section Ending
variable (retries : Nat) {G : Finset String} {s : GroupQueue F} {g : String}

/-- The end of a run gives back fewer retries than the run weighs, and a new timer costs one. -/
theorem settleRetry_work (h : Within G s) (hg : g ∈ G) (hretries : s.maxRetries.toNat = retries)
    (hcount : (s.groups g).retryCount ≤ retries) (outcome : Outcome) :
    Within G (s.settleRetry g outcome) ∧
      workLeft retries G (s.settleRetry g outcome) < workLeft retries G s + runWeight retries := by
  let counted : Nat → GroupState F := fun k => { s.groups g with retryCount := k }
  have hset : ∀ k, workLeft retries G (s.setGroup g (counted k)) +
      5 * (retries - (s.groups g).retryCount) = workLeft retries G s + 5 * (retries - k) := by
    intro k
    have hsum : workLeft retries G (s.setGroup g (counted k)) + _ = _ :=
      workLeft_setGroup s g hg (counted k)
    have hstate : groupWeight retries (counted k) + 5 * (retries - (s.groups g).retryCount) =
        groupWeight retries (s.groups g) + 5 * (retries - k) := by
      simp only [groupWeight, counted]
      omega
    omega
  have hrun : runWeight retries = 5 * (retries + 1) := rfl
  have hreset : workLeft retries G (s.setGroup g (counted 0)) <
      workLeft retries G s + runWeight retries := by
    have hzero := hset 0
    omega
  have hfailed : Within G (s.scheduleRetry g) ∧
      workLeft retries G (s.scheduleRetry g) < workLeft retries G s + runWeight retries := by
    simp only [scheduleRetry]
    split
    · exact ⟨h.setGroup hg _,hreset⟩
    · let k := (s.groups g).retryCount + 1
      let u := (s.setGroup g (counted k)).record (.retryScheduled g (s.retryDelayMs k))
      have hwithin : Within G u := (h.setGroup hg (counted k)).frame rfl rfl
      refine ⟨hwithin.createBackgroundTask (.retry g (s.retryDelayMs k)) hg,?_⟩
      have hcreate : workLeft retries G (u.createBackgroundTask (.retry g (s.retryDelayMs k))) ≤
          workLeft retries G (s.setGroup g (counted k)) + (runWeight retries + 4) :=
        workLeft_createBackgroundTask u _
      have hraised := hset k
      have hk : k = (s.groups g).retryCount + 1 := rfl
      exact hcreate.trans_lt (by omega)
  cases outcome with
  | success => exact ⟨h.setGroup hg _,hreset⟩
  | cancelled =>
    have hsame : workLeft retries G (s.settleRetry g .cancelled) = workLeft retries G s := rfl
    exact ⟨h,by omega⟩
  | failure => exact hfailed
  | exception => exact hfailed

theorem endRunForGroup_work (h : Within G s) (hg : g ∈ G) (hretries : s.maxRetries.toNat = retries)
    (hcount : (s.groups g).retryCount ≤ retries) (outcome : Outcome) :
    Within G (s.endRunForGroup g outcome) ∧
      workLeft retries G (s.endRunForGroup g outcome) < workLeft retries G s + runWeight retries := by
  obtain ⟨hwithin,hless⟩ := settleRetry_work retries h hg hretries hcount outcome
  let t := s.settleRetry g outcome
  let u : GroupQueue F := { t.setGroup g { t.groups g with active := false } with
    activeCount := t.activeCount - 1 }
  have hidle : workLeft retries G u = workLeft retries G t := workLeft_setGroup_eq t g rfl
  have hidleWithin : Within G u := (hwithin.setGroup hg _).frame rfl rfl
  obtain ⟨hdrain,hle⟩ := drainGroup_work retries (g := g) hidleWithin
  exact ⟨hdrain,hle.trans_lt (hidle ▸ hless)⟩

theorem endRunTask_work (h : Within G s) (hg : g ∈ G) :
    Within G (s.endRunTask g) ∧ workLeft retries G (s.endRunTask g) ≤ workLeft retries G s := by
  let state : GroupState F := { s.groups g with
    active := false, idleWaiting := false, isTaskContainer := false, runningTaskId := none }
  let u : GroupQueue F := { s.setGroup g state with activeCount := s.activeCount - 1 }
  have hidle : workLeft retries G u = workLeft retries G s := workLeft_setGroup_eq s g rfl
  have hwithin : Within G u := (h.setGroup hg state).frame rfl rfl
  obtain ⟨hdrain,hle⟩ := drainGroup_work retries (g := g) hwithin
  exact ⟨hdrain,hidle ▸ hle⟩

/-- A noted check weighs less than the timer that made it. -/
theorem notePending_work (h : Within G s) (hg : g ∈ G) :
    Within G (s.notePending g) ∧
      workLeft retries G (s.notePending g) ≤ workLeft retries G s + (runWeight retries + 2) := by
  let state : GroupState F := { s.groups g with pendingMessages := true }
  have hu : Within G (s.record (.checkAccepted g)) := h.frame rfl rfl
  have hset : workLeft retries G (s.notePending g) + groupWeight retries (s.groups g) =
      workLeft retries G s + groupWeight retries state :=
    workLeft_setGroup (s.record (.checkAccepted g)) g hg state
  have hstate : groupWeight retries state ≤ groupWeight retries (s.groups g) + (runWeight retries + 2) := by
    simp only [groupWeight, state, if_true]
    omega
  exact ⟨hu.setGroup hg state,by omega⟩

theorem enqueueMessageCheck_work (h : Within G s) (hg : g ∈ G) :
    Within G (s.enqueueMessageCheck g) ∧
      workLeft retries G (s.enqueueMessageCheck g) ≤ workLeft retries G s + (runWeight retries + 2) := by
  obtain ⟨hnote,hle⟩ := notePending_work retries h hg
  rcases enqueueMessageCheck_cases s g with ⟨_,he⟩ | ⟨_,he⟩ | ⟨_,_,he⟩ | ⟨_,_,he⟩ <;> rw [he]
  · exact ⟨h,Nat.le_add_right _ _⟩
  · exact ⟨hnote,hle⟩
  · exact ⟨hnote.enterWaiting,(workLeft_enterWaiting _ g).le.trans hle⟩
  · have hu : Within G (s.record (.checkAccepted g)) := h.frame rfl rfl
    obtain ⟨hwithin,hless⟩ := startRunForGroup_work retries hu hg
    refine ⟨hwithin,?_⟩
    have hless : workLeft retries G ((s.record (.checkAccepted g)).startRunForGroup g) ≤
        workLeft retries G s + (runWeight retries + 1) := (Nat.le_add_right _ _).trans hless
    exact hless.trans (by omega)

theorem notifyIdle_work (h : Within G s) (g : String) :
    Within G (s.notifyIdle g) ∧ workLeft retries G (s.notifyIdle g) ≤ workLeft retries G s := by
  have hmark : workLeft retries G (s.markIdle g) = workLeft retries G s :=
    workLeft_setGroup_eq s g rfl
  have hwithin : Within G (s.markIdle g) := by
    refine ⟨h.tasks,fun g' hg' => h.groups g' ?_⟩
    by_cases he : g' = g
    · subst he
      simpa [markIdle, setGroup, HasWork] using hg'
    · simpa [markIdle, setGroup, he] using hg'
  rcases notifyIdle_cases s g with ⟨_,he⟩ | ⟨_,he⟩ <;> rw [he]
  · exact ⟨hwithin,hmark.le⟩
  · exact ⟨hwithin.closeStdin,(workLeft_closeStdin _ g).le.trans hmark.le⟩

theorem shutdown_work (h : Within G s) :
    Within G s.shutdown ∧ workLeft retries G s.shutdown = workLeft retries G s := by
  have hmap : (s.backgroundTasks.map (fun b => { b with cancelled := true })).map (taskWeight retries) =
      s.backgroundTasks.map (taskWeight retries) := by
    rw [List.map_map]
    rfl
  refine ⟨⟨fun b hb => ?_,h.groups⟩,?_⟩
  · obtain ⟨b',hb',rfl⟩ := List.mem_map.mp hb
    exact h.tasks b' hb'
  · simp [workLeft, GroupQueue.shutdown, hmap]

end Ending

/-- Every action but the two calls from outside. -/
def Action.internal : Action F → Prop
  | .enqueueMessageCheck _ | .enqueueTask _ _ _ => False
  | _ => True

/-- The moves of coroutines: a run begins or ends, a timer fires, a cancelled one goes. -/
def Action.moves : Action F → Bool
  | .begin _ | .finish _ _ | .fireRetry _ | .dropCancelled _ => true
  | _ => false

/-- Every move of a coroutine leaves less to do, and nothing but the calls from outside more. -/
theorem step_work {retries : Nat} {G : Finset String} {s t : GroupQueue F} {a : Action F}
    (h : Within G s) (hacc : Accounted s) (hretries : s.maxRetries.toNat = retries)
    (ha : a.internal) (hstep : step s a = some t) :
    Within G t ∧ workLeft retries G t + a.moves.toNat ≤ workLeft retries G s := by
  have hcount : ∀ g, (s.groups g).retryCount ≤ retries := by
    intro g
    have hmod : (s.groups g).retryCount = _ := hacc.counted g
    have hlt := Nat.mod_lt (s.account.failures g) (Nat.succ_pos s.maxRetries.toNat)
    rw [← hretries, hmod]
    exact Nat.lt_succ_iff.mp hlt
  have hdrop : ∀ i b, s.backgroundTasks[i]? = some b →
      workLeft retries G (s.dropTask i) + taskWeight retries b = workLeft retries G s :=
    fun i b hb => workLeft_dropTask s hb
  have hgroup : ∀ (i : Nat) (b : Background F), s.backgroundTasks[i]? = some b →
      ∀ c, b.coro = c → c.groupOf ∈ G :=
    fun i b hb c hc => hc ▸ h.tasks b (List.mem_of_getElem? hb)
  cases a with
  | enqueueMessageCheck g => cases ha
  | enqueueTask g taskId fn => cases ha
  | notifyIdle g =>
    cases hstep
    exact notifyIdle_work retries h g
  | begin i =>
    obtain ⟨b,hb,hfresh,_,hc⟩ := begin_cases hstep
    have hpark : workLeft retries G (s.parkTask i b) < workLeft retries G s :=
      workLeft_parkTask s hb hfresh
    rcases hc with ⟨g,_,_,rfl⟩ | ⟨g,hg,_,rfl⟩ | ⟨g,task,_,rfl⟩ | ⟨_,rfl⟩
    · exact ⟨(h.parkTask hb).frame rfl rfl,hpark⟩
    · have hin : g ∈ G := hgroup i b hb _ hg
      obtain ⟨hwithin,hless⟩ := endRunForGroup_work retries (h.dropTask i) hin hretries (hcount g) .success
      have hweight : taskWeight retries b = runWeight retries + 1 := by simp [taskWeight, hg, hfresh]
      have hold := hdrop i b hb
      exact ⟨hwithin,by simp only [Action.moves, Bool.toNat_true]; omega⟩
    · exact ⟨(h.parkTask hb).frame rfl rfl,hpark⟩
    · exact ⟨h.parkTask hb,hpark⟩
  | finish i outcome =>
    obtain ⟨b,hb,hstarted,hc⟩ := finish_cases hstep
    have hold := hdrop i b hb
    rcases hc with ⟨g,hg,rfl⟩ | ⟨g,task,hg,rfl⟩
    · have hin : g ∈ G := hgroup i b hb _ hg
      have hended : Within G ((s.dropTask i).record (.messagesEnded g outcome)) :=
        (h.dropTask i).frame rfl rfl
      obtain ⟨hwithin,hless⟩ := endRunForGroup_work retries hended hin hretries (hcount g) outcome
      have hsame : workLeft retries G ((s.dropTask i).record (.messagesEnded g outcome)) =
          workLeft retries G (s.dropTask i) := rfl
      have hweight : taskWeight retries b = runWeight retries := by simp [taskWeight, hg, hstarted]
      exact ⟨hwithin,by simp only [Action.moves, Bool.toNat_true]; omega⟩
    · have hin : g ∈ G := hgroup i b hb _ hg
      obtain ⟨hwithin,hle⟩ := endRunTask_work retries (h.dropTask i) hin
      have hweight : taskWeight retries b = 1 := by simp [taskWeight, hg, hstarted]
      exact ⟨hwithin,by simp only [Action.moves, Bool.toNat_true]; omega⟩
  | fireRetry i =>
    obtain ⟨b,g,d,hb,hg,rfl⟩ := fireRetry_cases hstep
    have hin : g ∈ G := hgroup i b hb _ hg
    have hold := hdrop i b hb
    have hweight : runWeight retries + 3 ≤ taskWeight retries b := by
      simp only [taskWeight, hg]
      split <;> omega
    simp only [Action.moves, Bool.toNat_true]
    split
    · exact ⟨h.dropTask i,by omega⟩
    · obtain ⟨hwithin,hle⟩ := enqueueMessageCheck_work retries (h.dropTask i) hin
      exact ⟨hwithin,by omega⟩
  | shutdown =>
    cases hstep
    obtain ⟨hwithin,hsame⟩ := shutdown_work retries h
    exact ⟨hwithin,hsame.le⟩
  | dropCancelled i =>
    obtain ⟨b,hb,_,_,rfl⟩ := dropCancelled_cases hstep
    have hold := hdrop i b hb
    have hweight := taskWeight_pos retries b
    exact ⟨h.dropTask i,by simp only [Action.moves, Bool.toNat_true]; omega⟩

theorem Within.insert {G : Finset String} {s : GroupQueue F} (h : Within G s) (g : String) :
    Within (insert g G) s :=
  ⟨fun b hb => Finset.mem_insert_of_mem (h.tasks b hb),
    fun g' hg' => Finset.mem_insert_of_mem (h.groups g' hg')⟩

theorem enqueueTask_within {G : Finset String} {s : GroupQueue F} (h : Within G s) {g : String}
    (hg : g ∈ G) (taskId : String) (fn : F) : Within G (s.enqueueTask g taskId fn) := by
  have hu : Within G (s.record (.taskAccepted g taskId)) := h.frame rfl rfl
  have hadd : Within G (s.addPending g ⟨taskId,g,fn⟩) := hu.setGroup hg _
  rcases enqueueTask_cases s g taskId fn with
    ⟨_,he⟩ | ⟨_,_,_,⟨_,_,he⟩ | ⟨_,_,he⟩ | ⟨_,_,he⟩ | ⟨_,_,he⟩⟩ <;> rw [he]
  · exact h
  · exact hadd.closeStdin
  · exact hadd
  · exact hadd.enterWaiting
  · exact (startRunTask_work 0 hu hg _).1

/-- At any time only finitely many groups have work. -/
theorem reachable_within {maxC maxR base maxMs : Int} {p c : Bool} {s : GroupQueue F}
    (h : Reachable step (init maxC maxR base maxMs p c) s) : ∃ G, Within G s := by
  refine (h.invariant (P := fun s => Accounted s ∧ ∃ G, Within G s) ?_ ⟨?_,∅,?_⟩).2
  · rintro s a t ⟨hacc,G,hG⟩ hstep
    refine ⟨step_accounted hacc hstep,?_⟩
    have hinternal : a.internal → ∃ G, Within G t :=
      fun ha => ⟨G,(step_work hG hacc rfl ha hstep).1⟩
    cases a with
    | enqueueMessageCheck g =>
      cases hstep
      exact ⟨insert g G,(enqueueMessageCheck_work 0 (hG.insert g) (Finset.mem_insert_self g G)).1⟩
    | enqueueTask g taskId fn =>
      cases hstep
      exact ⟨insert g G,enqueueTask_within (hG.insert g) (Finset.mem_insert_self g G) taskId fn⟩
    | notifyIdle g => exact hinternal trivial
    | begin i => exact hinternal trivial
    | finish i outcome => exact hinternal trivial
    | fireRetry i => exact hinternal trivial
    | shutdown => exact hinternal trivial
    | dropCancelled i => exact hinternal trivial
  · exact reachable_accounted (Reachable.refl step _)
  · exact ⟨fun b hb => absurd hb List.not_mem_nil,fun g hg => by simp [init, HasWork] at hg⟩

/-- While a coroutine is left, one of them can move. -/
theorem tasks_nil_of_stuck {s : GroupQueue F} (h : ∀ a : Action F, a.moves = true → step s a = none) :
    s.backgroundTasks = [] := by
  by_contra hne
  obtain ⟨b,bs,hb⟩ := List.exists_cons_of_ne_nil hne
  have hzero : s.backgroundTasks[0]? = some b := by rw [hb]; rfl
  have hbegin := h (.begin 0) rfl
  have hfinish := h (.finish 0 .success) rfl
  have hfire := h (.fireRetry 0) rfl
  have hdrop := h (.dropCancelled 0) rfl
  simp only [step, begin, finish, fireRetry, dropCancelled, hzero] at hbegin hfinish hfire hdrop
  cases hs : b.started <;> cases hc : b.cancelled <;> rcases hk : b.coro with g | ⟨g,task⟩ | ⟨g,d⟩ <;>
    simp [hs, hc, hk, Coroutine.runGroup] at hbegin hfinish hfire hdrop
  split at hbegin <;> cases hbegin

/-- From every reachable state and without calls from outside, the coroutines make a bounded
number of moves, however the runs end; when none can move no run is in flight, no timer is set
and, before shutdown, no work is pending. -/
theorem retries_die_out {maxC maxR base maxMs : Int} {p c : Bool} {s : GroupQueue F}
    (h : Reachable step (init maxC maxR base maxMs p c) s) :
    ∃ bound, ∀ as t, (∀ a ∈ as, Action.internal a) → exec step s as = some t →
      as.countP Action.moves ≤ bound ∧
      ((∀ a : Action F, a.moves = true → step t a = none) →
        t.backgroundTasks = [] ∧ (t.shuttingDown = false → ∀ g, ¬HasWork (t.groups g))) := by
  obtain ⟨G,hG⟩ := reachable_within h
  let retries := s.maxRetries.toNat
  refine ⟨workLeft retries G s,fun as t has he => ⟨?_,fun hstuck => ?_⟩⟩
  · have hcount := count_moves_le (I := Action.internal)
      (P := fun u => Within G u ∧ Accounted u ∧ u.maxRetries.toNat = retries) Action.moves
      (workLeft retries G) ?_ ⟨hG,reachable_accounted h,rfl⟩ has he
    · exact (Nat.le_add_left _ _).trans hcount.2
    · rintro u a v ⟨hwithin,hacc,hR⟩ ha hstep
      obtain ⟨hwithin',hless⟩ := step_work hwithin hacc hR ha hstep
      have hmax : v.maxRetries = u.maxRetries := congrArg Settings.maxRetries (step_limits hstep)
      exact ⟨⟨hwithin',step_accounted hacc hstep,hmax ▸ hR⟩,hless⟩
  · have hnil := tasks_nil_of_stuck hstuck
    refine ⟨hnil,fun hrun => ?_⟩
    have hreach := h.extend he
    have hinv := reachable_inv hreach (inv_init maxC maxR base maxMs p c) hrun
    have hmax : t.maxConcurrent = max 1 maxC :=
      congrArg Settings.maxConcurrent (reachable_settings hreach hrun)
    exact hinv.no_work_of_no_runs (by omega) (fun g => by simp [runsOf, hnil])

theorem retries_die_out_two_groups :
    ∃ s : GroupQueue Unit, Reachable step (init 1 5 10 300000 true true) s ∧
      ∃ bound, ∀ as t, (∀ a ∈ as, Action.internal a) → exec step s as = some t →
        as.countP Action.moves ≤ bound := by
  refine ⟨_,⟨[.enqueueMessageCheck "a",.begin 0,.enqueueTask "b" "t" ()],rfl⟩,?_⟩
  obtain ⟨bound,h⟩ := @retries_die_out Unit 1 5 10 300000 true true _
    ⟨[.enqueueMessageCheck "a",.begin 0,.enqueueTask "b" "t" ()],rfl⟩
  exact ⟨bound,fun as t has he => (h as t has he).1⟩

end GroupQueue
end NanoClaw
