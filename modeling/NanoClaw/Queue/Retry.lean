import NanoClaw.Queue.Safety
import Mathlib.Data.Multiset.AddSub

/-! The retry accounting. A group's counter is the number of its failures in a row, counted
anew after every success and after one failure more than there are retries. -/
namespace NanoClaw

/-- The group and the delay of a retry timer. -/
def Coroutine.timerOf {F : Type} : Coroutine F → Option (String × Int)
  | .retry g d => some (g,d)
  | _ => none

namespace GroupQueue
open Execution
variable {F : Type}

def timers (s : GroupQueue F) : Multiset (String × Int) :=
  ↑(s.backgroundTasks.filterMap (fun b => b.coro.timerOf))

/-- One event more in the count of a group's failures. -/
def countFailure (g : String) (k : Nat) : Event → Nat
  | .messagesEnded g' outcome =>
    if g' = g then
      match outcome with
      | .success => 0
      | .failure | .exception => k + 1
      | .cancelled => k
    else k
  | _ => k

/-- The failures of a group's message runs since the last one that succeeded. -/
def failures (g : String) (h : List Event) : Nat := h.foldl (countFailure g) 0

@[simp] theorem failures_append (g : String) (h : List Event) (e : Event) :
    failures g (h ++ [e]) = countFailure g (failures g h) e := by
  simp [failures, List.foldl_append]

/-- What the retry accounting is about: the counters, the timers and the failures so far. -/
structure Account where
  retryCount : String → Nat
  timers : Multiset (String × Int)
  failures : String → Nat

def account (s : GroupQueue F) : Account where
  retryCount := fun g => (s.groups g).retryCount
  timers := s.timers
  failures := fun g => failures g s.history

section Frame
variable (s : GroupQueue F) (g : String)

theorem account_setGroup (state : GroupState F)
    (h : state.retryCount = (s.groups g).retryCount) : (s.setGroup g state).account = s.account := by
  have hcount : (fun g' => ((s.setGroup g state).groups g').retryCount) =
      fun g' => (s.groups g').retryCount := by
    funext g'
    simp only [setGroup, Function.update_apply]
    split
    · rename_i he
      rw [he, h]
    · rfl
  simp only [account, hcount]
  rfl

theorem account_record {e : Event} (h : ∀ g k, countFailure g k e = k) :
    (s.record e).account = s.account := by
  have hfail : (fun g => failures g (s.record e).history) = fun g => failures g s.history := by
    funext g
    rw [record, failures_append, h]
  simp only [account, hfail]
  rfl

@[simp] theorem account_closeStdin : (s.closeStdin g).account = s.account := by
  rw [closeStdin]
  split
  · exact account_record s (fun _ _ => rfl)
  · rfl

@[simp] theorem account_enterWaiting : (s.enterWaiting g).account = s.account := by
  rw [enterWaiting]
  split
  · rfl
  · exact account_record { s with waitingGroups := s.waitingGroups ++ [g] } (fun _ _ => rfl)

theorem timers_createBackgroundTask {coro : Coroutine F} (h : coro.timerOf = none) :
    (s.createBackgroundTask coro).timers = s.timers := by
  simp only [createBackgroundTask, timers]
  split
  · simp [h]
  · rfl

theorem account_createBackgroundTask {coro : Coroutine F} (h : coro.timerOf = none) :
    (s.createBackgroundTask coro).account = s.account := by
  simp only [account, timers_createBackgroundTask s h]
  rfl

@[simp] theorem account_startRunForGroup : (s.startRunForGroup g).account = s.account := by
  have hgroup := account_setGroup s g { s.groups g with
    active := true, idleWaiting := false, isTaskContainer := false, pendingMessages := false } rfl
  exact (account_createBackgroundTask _ rfl).trans hgroup

@[simp] theorem account_startRunTask (task : QueuedTask F) :
    (s.startRunTask g task).account = s.account := by
  have hgroup := account_setGroup s g { s.groups g with
    active := true, idleWaiting := false, isTaskContainer := true,
    runningTaskId := some task.id } rfl
  exact (account_createBackgroundTask _ rfl).trans hgroup

@[simp] theorem account_startPending : (s.startPending g).account = s.account := by
  rcases startPending_cases s g with ⟨task,rest,_,h⟩ | ⟨_,_,h⟩ | ⟨_,h⟩
  · rw [h, account_startRunTask]
    exact account_setGroup s g _ rfl
  · rw [h, account_startRunForGroup]
  · rw [h]

@[simp] theorem account_drainGroup : (s.drainGroup g).account = s.account := by
  apply drainGroup_rule (P := fun t => t.account = s.account)
  · intro t g' rest _ h
    exact (account_record { t with waitingGroups := rest } (fun _ _ => rfl)).trans h
  · intro t g' h
    exact (account_startPending t g').trans h
  · rfl

@[simp] theorem account_notePending : (s.notePending g).account = s.account := by
  rw [notePending, account_setGroup]
  · exact account_record s (fun _ _ => rfl)
  · rfl

@[simp] theorem account_addPending (task : QueuedTask F) :
    (s.addPending g task).account = s.account := by
  rw [addPending, account_setGroup]
  · exact account_record s (fun _ _ => rfl)
  · rfl

@[simp] theorem account_markIdle : (s.markIdle g).account = s.account := account_setGroup s g _ rfl

@[simp] theorem account_enqueueMessageCheck :
    (s.enqueueMessageCheck g).account = s.account := by
  rcases enqueueMessageCheck_cases s g with ⟨_,h⟩ | ⟨_,h⟩ | ⟨_,_,h⟩ | ⟨_,_,h⟩ <;> rw [h]
  · exact account_notePending s g
  · exact (account_enterWaiting _ g).trans (account_notePending s g)
  · exact (account_startRunForGroup _ g).trans (account_record s (fun _ _ => rfl))

@[simp] theorem account_enqueueTask (taskId : String) (fn : F) :
    (s.enqueueTask g taskId fn).account = s.account := by
  rcases enqueueTask_cases s g taskId fn with
    ⟨_,h⟩ | ⟨_,_,_,⟨_,_,h⟩ | ⟨_,_,h⟩ | ⟨_,_,h⟩ | ⟨_,_,h⟩⟩ <;> rw [h]
  · exact (account_closeStdin _ g).trans (account_addPending s g _)
  · exact account_addPending s g _
  · exact (account_enterWaiting _ g).trans (account_addPending s g _)
  · exact (account_startRunTask _ g _).trans (account_record s (fun _ _ => rfl))

@[simp] theorem account_notifyIdle : (s.notifyIdle g).account = s.account := by
  rcases notifyIdle_cases s g with ⟨_,h⟩ | ⟨_,h⟩ <;> rw [h]
  · exact account_markIdle s g
  · exact (account_closeStdin _ g).trans (account_markIdle s g)

@[simp] theorem account_endRunTask : (s.endRunTask g).account = s.account :=
  (account_drainGroup _ g).trans (account_setGroup s g { s.groups g with
    active := false, idleWaiting := false, isTaskContainer := false, runningTaskId := none } rfl)

theorem account_endRunForGroup (outcome : Outcome) :
    (s.endRunForGroup g outcome).account = (s.settleRetry g outcome).account :=
  (account_drainGroup _ g).trans (account_setGroup (s.settleRetry g outcome) g
    { (s.settleRetry g outcome).groups g with active := false } rfl)

@[simp] theorem account_shutdown : s.shutdown.account = s.account := by
  simp only [account, shutdown, timers, List.filterMap_map]
  rfl

end Frame

section Coroutines
variable {s : GroupQueue F} {i : Nat} {b : Background F}

/-- A coroutine that leaves the loop takes its timer with it, if it is one. -/
theorem timers_dropTask (hb : s.backgroundTasks[i]? = some b) :
    s.timers = (b.coro.timerOf).elim 0 (fun t => {t}) + (s.dropTask i).timers := by
  have hperm := (erase_perm hb).filterMap (fun b => b.coro.timerOf)
  rw [timers, Multiset.coe_eq_coe.mpr hperm, List.filterMap_cons]
  rcases b.coro.timerOf with _ | t
  · simp [timers, dropTask]
  · simp [timers, dropTask, ← Multiset.cons_coe]

theorem timers_dropTask_le (hb : s.backgroundTasks[i]? = some b) :
    (s.dropTask i).timers ≤ s.timers := by
  rw [timers_dropTask hb]
  exact Multiset.le_add_left _ _

theorem account_dropTask (hb : s.backgroundTasks[i]? = some b) (h : b.coro.timerOf = none) :
    (s.dropTask i).account = s.account := by
  have ht := timers_dropTask hb
  rw [h, Option.elim_none, zero_add] at ht
  simp only [account, ht]
  rfl

theorem account_parkTask (hb : s.backgroundTasks[i]? = some b) :
    (s.parkTask i b).account = s.account := by
  have ht : (s.parkTask i b).timers = s.timers := by
    rw [timers_dropTask hb]
    rcases hc : b.coro.timerOf with _ | t <;>
      simp [timers, parkTask, dropTask, hc, ← Multiset.coe_add, add_comm]
  simp only [account, ht]
  rfl

end Coroutines

section Settling
variable (s : GroupQueue F) (g : String)

theorem account_setRetryCount (k : Nat) :
    (s.setGroup g { s.groups g with retryCount := k }).account =
      { s.account with retryCount := Function.update s.account.retryCount g k } := by
  have hcount : (fun g' => ((s.setGroup g { s.groups g with retryCount := k }).groups g').retryCount) =
      Function.update s.account.retryCount g k := by
    funext g'
    simp only [setGroup, account, Function.update_apply]
    split <;> rfl
  simp only [account, hcount]
  rfl

theorem account_createRetry (hloop : s.loopRunning = true) (d : Int) :
    (s.createBackgroundTask (.retry g d)).account =
      { s.account with timers := (g,d) ::ₘ s.timers } := by
  have htimers : (s.createBackgroundTask (.retry g d)).timers = (g,d) ::ₘ s.timers := by
    simp [createBackgroundTask, timers, hloop, Coroutine.timerOf, ← Multiset.coe_add, add_comm]
  simp only [account, htimers]
  rfl

/-- A failure raises the counter and sets one timer, or starts the count anew. -/
theorem account_scheduleRetry (hloop : s.loopRunning = true) :
    (s.scheduleRetry g).account =
      if ((s.groups g).retryCount : Int) + 1 ≤ s.maxRetries then
        { s.account with
          retryCount := Function.update s.account.retryCount g ((s.groups g).retryCount + 1)
          timers := (g,s.retryDelayMs ((s.groups g).retryCount + 1)) ::ₘ s.timers }
      else { s.account with retryCount := Function.update s.account.retryCount g 0 } := by
  simp only [scheduleRetry, Nat.cast_add, Nat.cast_one]
  split
  · rename_i hover
    rw [if_neg (by omega)]
    exact account_setRetryCount s g 0
  · rename_i hover
    rw [if_pos (by omega)]
    let k := (s.groups g).retryCount + 1
    let raised := s.setGroup g { s.groups g with retryCount := k }
    let event : Event := .retryScheduled g (s.retryDelayMs k)
    have hraised : (raised.record event).account = raised.account :=
      account_record raised (fun _ _ => rfl)
    refine (account_createRetry (raised.record event) g hloop _).trans ?_
    rw [hraised, account_setRetryCount]
    rfl

theorem account_settleRetry_success :
    (s.settleRetry g .success).account =
      { s.account with retryCount := Function.update s.account.retryCount g 0 } :=
  account_setRetryCount s g 0

end Settling

/-- The account when a message run of a group ends: what the queue is to do about it. -/
def Account.ended (a : Account) (maxRetries : Int) (delayMs : Nat → Int) (g : String) :
    Outcome → Account
  | .success =>
    { a with
      retryCount := Function.update a.retryCount g 0
      failures := Function.update a.failures g 0 }
  | .cancelled => a
  | .failure | .exception =>
    let k := a.retryCount g + 1
    { retryCount := Function.update a.retryCount g (if (k : Int) ≤ maxRetries then k else 0)
      timers := if (k : Int) ≤ maxRetries then (g,delayMs k) ::ₘ a.timers else a.timers
      failures := Function.update a.failures g (a.failures g + 1) }

theorem failures_ended (g : String) (outcome : Outcome) (h : List Event) :
    (fun g' => failures g' (h ++ [.messagesEnded g outcome])) =
      match outcome with
      | .success => Function.update (fun g' => failures g' h) g 0
      | .failure | .exception => Function.update (fun g' => failures g' h) g (failures g h + 1)
      | .cancelled => fun g' => failures g' h := by
  funext g'
  rw [failures_append]
  by_cases hg : g = g'
  · subst hg
    cases outcome <;> simp only [countFailure, if_true, Function.update_self]
  · cases outcome <;> simp only [countFailure, if_neg hg, Function.update_of_ne (Ne.symm hg)]

/-- The retry of a failure whose event has just been recorded. -/
private theorem account_failed {s : GroupQueue F} (hloop : s.loopRunning = true) (g : String)
    {e : Event} (he : (s.record e).account = { s.account with
      failures := Function.update s.account.failures g (s.account.failures g + 1) }) :
    ((s.record e).scheduleRetry g).account =
      s.account.ended s.maxRetries s.retryDelayMs g .failure := by
  rw [account_scheduleRetry (s.record e) g hloop]
  change (if ((s.groups g).retryCount : Int) + 1 ≤ s.maxRetries then _ else _) = _
  simp only [Account.ended, Nat.cast_add, Nat.cast_one]
  split <;> rename_i hle
  · have hle : (s.account.retryCount g : Int) + 1 ≤ s.maxRetries := hle
    rw [if_pos hle, if_pos hle, he]
    rfl
  · have hle : ¬(s.account.retryCount g : Int) + 1 ≤ s.maxRetries := hle
    rw [if_neg hle, if_neg hle, he]

theorem account_ended {s : GroupQueue F} (hloop : s.loopRunning = true) (g : String)
    (outcome : Outcome) :
    ((s.record (.messagesEnded g outcome)).endRunForGroup g outcome).account =
      s.account.ended s.maxRetries s.retryDelayMs g outcome := by
  have he : (s.record (.messagesEnded g outcome)).account = { s.account with
      failures := fun g' => failures g' (s.history ++ [.messagesEnded g outcome]) } := rfl
  rw [failures_ended] at he
  refine (account_endRunForGroup _ g outcome).trans ?_
  cases outcome with
  | success => exact (account_settleRetry_success _ g).trans (by rw [he]; rfl)
  | cancelled => exact he
  | failure => exact account_failed hloop g he
  | exception => exact account_failed hloop g he

theorem finish_account {s t : GroupQueue F} {i : Nat} {b : Background F} {g : String}
    {outcome : Outcome} (hloop : s.loopRunning = true) (hb : s.backgroundTasks[i]? = some b)
    (hc : b.coro = .runForGroup g) (h : s.finish i outcome = some t) :
    t.account = s.account.ended s.maxRetries s.retryDelayMs g outcome := by
  obtain ⟨b',hb',_,hends⟩ := finish_cases h
  obtain rfl : b = b' := Option.some.inj (hb.symm.trans hb')
  rcases hends with ⟨g',hg',rfl⟩ | ⟨g',task,hg',_⟩
  · obtain rfl : g = g' := by
      rw [hc] at hg'
      cases hg'
      rfl
    rw [account_ended (s := s.dropTask i) hloop, account_dropTask hb (by rw [hc]; rfl)]
    rfl
  · rw [hc] at hg'
    cases hg'

/-- What the end of a message run does to its group; `k` is the place of a failure in its row. -/
def Settled (maxRetries baseRetryMs maxRetryMs : Int) (s t : GroupQueue F) (g : String) :
    Outcome → Prop
  | .success => (t.groups g).retryCount = 0 ∧ t.timers = s.timers
  | .cancelled => (t.groups g).retryCount = (s.groups g).retryCount ∧ t.timers = s.timers
  | .failure | .exception =>
    let k := failures g s.history % (maxRetries.toNat + 1) + 1
    ((k : Int) ≤ maxRetries ∧ (t.groups g).retryCount = k ∧
        t.timers = (g,min (baseRetryMs * 2 ^ (k - 1)) maxRetryMs) ::ₘ s.timers) ∨
      ((k : Int) = maxRetries + 1 ∧ (t.groups g).retryCount = 0 ∧ t.timers = s.timers)

/-- A counter is the number of failures in a row, counted anew after each row that is full. -/
def Account.Counted (a : Account) (maxRetries : Int) : Prop :=
  ∀ g, a.retryCount g = a.failures g % (maxRetries.toNat + 1)

private theorem succ_mod (f n : Nat) :
    (f + 1) % (n + 1) = if f % (n + 1) + 1 ≤ n then f % (n + 1) + 1 else 0 := by
  have hlt : f % (n + 1) < n + 1 := Nat.mod_lt f (Nat.succ_pos n)
  rw [← Nat.mod_add_mod]
  split
  · rename_i hle
    exact Nat.mod_eq_of_lt (by omega)
  · rename_i hgt
    rw [show f % (n + 1) + 1 = n + 1 by omega, Nat.mod_self]

theorem Account.Counted.ended {a : Account} {maxRetries : Int} (h : a.Counted maxRetries)
    (delayMs : Nat → Int) (g : String) (outcome : Outcome) :
    (a.ended maxRetries delayMs g outcome).Counted maxRetries := by
  have hfailed : ∀ g', Function.update a.retryCount g (if ((a.retryCount g + 1 : Nat) : Int) ≤ maxRetries
      then a.retryCount g + 1 else 0) g' =
        Function.update a.failures g (a.failures g + 1) g' % (maxRetries.toNat + 1) := by
    intro g'
    simp only [Function.update_apply]
    split
    · rw [succ_mod, ← h g]
      split <;> split <;> omega
    · exact h g'
  cases outcome with
  | success =>
    intro g'
    simp only [Account.ended, Function.update_apply]
    split
    · simp
    · exact h g'
  | cancelled => exact h
  | failure => exact hfailed
  | exception => exact hfailed

/-- Only the end of a message run sets a timer. A run that has no message function to wait for
counts as a success. -/
theorem step_account {s t : GroupQueue F} {a : Action F} (hloop : s.loopRunning = true)
    (hstep : step s a = some t) :
    (∃ i b g outcome, a = .finish i outcome ∧ s.backgroundTasks[i]? = some b ∧ b.started = true ∧
        b.coro = .runForGroup g ∧ t.account = s.account.ended s.maxRetries s.retryDelayMs g outcome) ∨
      (s.processMessagesFn = false ∧ ∃ g, t.account =
        { s.account with retryCount := Function.update s.account.retryCount g 0 }) ∨
      (t.timers ≤ s.timers ∧ t.account = { s.account with timers := t.timers }) := by
  have hsame : t.account = s.account →
      t.timers ≤ s.timers ∧ t.account = { s.account with timers := t.timers } := by
    intro he
    have ht : t.timers = s.timers := congrArg Account.timers he
    refine ⟨ht.le,?_⟩
    rw [he, ht]
    rfl
  have hdrop : ∀ i b, s.backgroundTasks[i]? = some b → t.account = (s.dropTask i).account →
      t.timers ≤ s.timers ∧ t.account = { s.account with timers := t.timers } := by
    intro i b hb he
    have ht : t.timers = (s.dropTask i).timers := congrArg Account.timers he
    refine ⟨ht ▸ timers_dropTask_le hb,?_⟩
    rw [he, ht]
    rfl
  cases a with
  | enqueueMessageCheck g => cases hstep; exact .inr (.inr (hsame (account_enqueueMessageCheck s g)))
  | enqueueTask g taskId fn => cases hstep; exact .inr (.inr (hsame (account_enqueueTask s g taskId fn)))
  | notifyIdle g => cases hstep; exact .inr (.inr (hsame (account_notifyIdle s g)))
  | begin i =>
    obtain ⟨b,hb,_,_,hc⟩ := begin_cases hstep
    have hparked := account_parkTask hb
    rcases hc with ⟨g,_,_,rfl⟩ | ⟨g,hg,hfn,rfl⟩ | ⟨g,task,_,rfl⟩ | ⟨_,rfl⟩
    · exact .inr (.inr (hsame ((account_record _ (fun _ _ => rfl)).trans hparked)))
    · refine .inr (.inl ⟨hfn,g,?_⟩)
      rw [account_endRunForGroup, account_settleRetry_success,
        account_dropTask hb (by rw [hg]; rfl)]
    · exact .inr (.inr (hsame ((account_record _ (fun _ _ => rfl)).trans hparked)))
    · exact .inr (.inr (hsame hparked))
  | finish i outcome =>
    obtain ⟨b,hb,hs,hc⟩ := finish_cases hstep
    rcases hc with ⟨g,hg,_⟩ | ⟨g,task,hg,rfl⟩
    · exact .inl ⟨i,b,g,outcome,rfl,hb,hs,hg,finish_account hloop hb hg hstep⟩
    · exact .inr (.inr (hdrop i b hb (account_endRunTask _ g)))
  | fireRetry i =>
    obtain ⟨b,g,d,hb,_,rfl⟩ := fireRetry_cases hstep
    refine .inr (.inr (hdrop i b hb ?_))
    split
    · rfl
    · exact account_enqueueMessageCheck _ g
  | shutdown => cases hstep; exact .inr (.inr (hsame (account_shutdown s)))
  | dropCancelled i =>
    obtain ⟨b,hb,_,_,rfl⟩ := dropCancelled_cases hstep
    exact .inr (.inr (hdrop i b hb rfl))

/-- Without a message function no run comes to wait, and none fails. -/
structure Accounted (s : GroupQueue F) : Prop where
  running : s.loopRunning = true
  counted : s.account.Counted s.maxRetries
  unset : s.processMessagesFn = false →
    (∀ g, s.account.failures g = 0) ∧ ∀ b ∈ s.parked, ∀ g, b.coro ≠ .runForGroup g

theorem Accounted.counter_unset {s : GroupQueue F} (h : Accounted s)
    (hfn : s.processMessagesFn = false) (g : String) :
    { s.account with retryCount := Function.update s.account.retryCount g 0 } = s.account := by
  have hzero : s.account.retryCount g = 0 := by
    rw [h.counted g, (h.unset hfn).1 g, Nat.zero_mod]
  rw [← hzero, Function.update_eq_self]

/-- No move makes a message run wait that was not waiting, unless there is a message function. -/
private theorem step_parked {s t : GroupQueue F} {a : Action F} (hfn : s.processMessagesFn = false)
    (hstep : step s a = some t) (h : ∀ b ∈ s.parked, ∀ g, b.coro ≠ .runForGroup g) :
    ∀ b ∈ t.parked, ∀ g, b.coro ≠ .runForGroup g := by
  have hdrop : ∀ i, t.parked = (s.dropTask i).parked → ∀ b ∈ t.parked, ∀ g, b.coro ≠ .runForGroup g :=
    fun i he b hb => h b ((parked_dropTask_sublist s i).subset (he ▸ hb))
  have hpark : ∀ i b, (∀ g, b.coro ≠ .runForGroup g) → t.parked = (s.parkTask i b).parked →
      ∀ b ∈ t.parked, ∀ g, b.coro ≠ .runForGroup g := by
    intro i b hb he b' hb'
    rw [he, parked_parkTask] at hb'
    rcases List.mem_append.mp hb' with hb' | hb'
    · exact h b' ((parked_dropTask_sublist s i).subset hb')
    · rw [List.mem_singleton.mp hb']
      exact hb
  cases a with
  | enqueueMessageCheck g => cases hstep; simpa using h
  | enqueueTask g taskId fn => cases hstep; simpa using h
  | notifyIdle g => cases hstep; simpa using h
  | begin i =>
    obtain ⟨b,_,_,_,hc⟩ := begin_cases hstep
    rcases hc with ⟨g,_,hyes,_⟩ | ⟨g,_,_,rfl⟩ | ⟨g,task,hg,rfl⟩ | ⟨hg,rfl⟩
    · rw [hfn] at hyes
      cases hyes
    · exact hdrop i (parked_endRunForGroup _ g _)
    · exact hpark i b (fun g' hc => by rw [hg] at hc; cases hc) rfl
    · exact hpark i b (fun g' hc => by rw [hc] at hg; cases hg) rfl
  | finish i outcome =>
    obtain ⟨b,_,_,hc⟩ := finish_cases hstep
    rcases hc with ⟨g,_,rfl⟩ | ⟨g,task,_,rfl⟩
    · exact hdrop i (parked_endRunForGroup _ g _)
    · exact hdrop i (parked_endRunTask _ g)
  | fireRetry i =>
    obtain ⟨b,g,d,_,_,rfl⟩ := fireRetry_cases hstep
    refine hdrop i ?_
    split
    · rfl
    · exact parked_enqueueMessageCheck _ g
  | shutdown =>
    cases hstep
    intro b hb
    obtain ⟨b',hb',rfl⟩ : ∃ b' ∈ s.parked, { b' with cancelled := true } = b := by
      simpa [parked, GroupQueue.shutdown, List.filter_map, Function.comp_def] using hb
    exact h b' hb'
  | dropCancelled i =>
    obtain ⟨b,_,_,_,rfl⟩ := dropCancelled_cases hstep
    exact hdrop i rfl

theorem step_accounted {s t : GroupQueue F} {a : Action F} (h : Accounted s)
    (hstep : step s a = some t) : Accounted t := by
  have hlimits := step_limits hstep
  have hmax : t.maxRetries = s.maxRetries := congrArg Settings.maxRetries hlimits
  have hfn : t.processMessagesFn = s.processMessagesFn := congrArg Settings.processMessagesFn hlimits
  refine ⟨(congrArg Settings.loopRunning hlimits).trans h.running,?_,fun ht => ?_⟩
  · rw [hmax]
    rcases step_account h.running hstep with ⟨i,b,g,outcome,_,_,_,_,he⟩ | ⟨hno,g,he⟩ | ⟨_,he⟩
    · rw [he]
      exact h.counted.ended s.retryDelayMs g outcome
    · rw [he, h.counter_unset hno]
      exact h.counted
    · rw [he]
      exact h.counted
  · have hs := hfn ▸ ht
    refine ⟨fun g => ?_,step_parked hs hstep (h.unset hs).2⟩
    rcases step_account h.running hstep with ⟨i,b,g',outcome,_,hb,hstarted,hc,_⟩ | ⟨_,g',he⟩ | ⟨_,he⟩
    · have hparked : b ∈ s.parked := List.mem_filter.mpr ⟨List.mem_of_getElem? hb,hstarted⟩
      exact absurd hc ((h.unset hs).2 b hparked g')
    · rw [he]
      exact (h.unset hs).1 g
    · rw [he]
      exact (h.unset hs).1 g

theorem reachable_accounted {maxC maxR base maxMs : Int} {p c : Bool} {s : GroupQueue F}
    (h : Reachable step (init maxC maxR base maxMs p c) s) : Accounted s := by
  refine h.invariant (fun _ _ _ hs hstep => step_accounted hs hstep) ⟨rfl,fun g => ?_,fun _ => ⟨?_,?_⟩⟩
  · rfl
  · exact fun g => rfl
  · intro b hb
    cases hb

private theorem Settled.of_ended {s t : GroupQueue F} {maxR base maxMs : Int} {g : String}
    {outcome : Outcome} (hmax : 0 ≤ maxR) (hcounted : s.account.Counted maxR)
    (hdelay : ∀ k, s.retryDelayMs k = min (base * 2 ^ (k - 1)) maxMs)
    (h : t.account = s.account.ended maxR s.retryDelayMs g outcome) :
    Settled maxR base maxMs s t g outcome := by
  have hcount : (s.groups g).retryCount = failures g s.history % (maxR.toNat + 1) := hcounted g
  have hlt : failures g s.history % (maxR.toNat + 1) < maxR.toNat + 1 := Nat.mod_lt _ (Nat.succ_pos _)
  have hnew : (t.groups g).retryCount = (s.account.ended maxR s.retryDelayMs g outcome).retryCount g :=
    congrFun (congrArg Account.retryCount h) g
  have htimers : t.timers = (s.account.ended maxR s.retryDelayMs g outcome).timers :=
    congrArg Account.timers h
  have hfailed : s.account.ended maxR s.retryDelayMs g outcome =
      s.account.ended maxR s.retryDelayMs g .failure → Settled maxR base maxMs s t g .failure := by
    intro hsame
    rw [hsame] at hnew htimers
    simp only [Account.ended, Function.update_self] at hnew htimers
    have hcount : s.account.retryCount g = failures g s.history % (maxR.toNat + 1) := hcount
    rw [hcount] at hnew htimers
    split at hnew <;> rename_i hle
    · rw [if_pos hle, hdelay] at htimers
      exact .inl ⟨hle,hnew,htimers⟩
    · rw [if_neg hle] at htimers
      exact .inr ⟨by omega,hnew,htimers⟩
  cases outcome with
  | success => exact ⟨hnew.trans (Function.update_self ..),htimers⟩
  | cancelled => exact ⟨hnew,htimers⟩
  | failure => exact hfailed rfl
  | exception => exact hfailed rfl

/-- In every run, a failure that is the `k`-th in its row sets one timer with the delay of its
place, or none after the last retry, when the count starts anew; nothing else sets a timer or
moves a counter, but a success, which sets it to zero. -/
theorem retries_accounted {maxC maxR base maxMs : Int} {p c : Bool} {s : GroupQueue F}
    (hmax : 0 ≤ maxR) (h : Reachable step (init maxC maxR base maxMs p c) s) :
    (∀ g, (s.groups g).retryCount = failures g s.history % (maxR.toNat + 1) ∧
      ((s.groups g).retryCount : Int) ≤ maxR) ∧
    (∀ i b g outcome t, s.backgroundTasks[i]? = some b → b.coro = .runForGroup g →
      step s (.finish i outcome) = some t → Settled maxR base maxMs s t g outcome ∧
        ∀ g', g' ≠ g → (t.groups g').retryCount = (s.groups g').retryCount) ∧
    (∀ a t, step s a = some t →
      (∀ i outcome b g, a = .finish i outcome → s.backgroundTasks[i]? = some b →
        b.coro ≠ .runForGroup g) →
      t.timers ≤ s.timers ∧ ∀ g, (t.groups g).retryCount = (s.groups g).retryCount) := by
  have hs := reachable_accounted h
  have hlimits := reachable_limits h
  have hR : s.maxRetries = maxR := congrArg Settings.maxRetries hlimits
  have hdelay : ∀ k, s.retryDelayMs k = min (base * 2 ^ (k - 1)) maxMs := by
    intro k
    have hbase : s.baseRetryMs = base := congrArg Settings.baseRetryMs hlimits
    have hms : s.maxRetryMs = maxMs := congrArg Settings.maxRetryMs hlimits
    rw [retryDelayMs, hbase, hms]
  have hcounted : s.account.Counted maxR := hR ▸ hs.counted
  refine ⟨fun g => ⟨hcounted g,?_⟩,?_,?_⟩
  · have hcount : (s.groups g).retryCount = failures g s.history % (maxR.toNat + 1) := hcounted g
    have hlt : failures g s.history % (maxR.toNat + 1) < maxR.toNat + 1 := Nat.mod_lt _ (Nat.succ_pos _)
    omega
  · intro i b g outcome t hb hc hstep
    have he := finish_account hs.running hb hc hstep
    rw [hR] at he
    refine ⟨Settled.of_ended hmax hcounted hdelay he,fun g' hne => ?_⟩
    have hother := congrFun (congrArg Account.retryCount he) g'
    refine hother.trans ?_
    cases outcome <;> simp [Account.ended, account, hne]
  · intro a t hstep hnot
    rcases step_account hs.running hstep with ⟨i,b,g,outcome,ha,hb,_,hc,_⟩ | ⟨hno,g,he⟩ | ⟨hle,he⟩
    · exact absurd hc (hnot i outcome b g ha hb)
    · rw [hs.counter_unset hno] at he
      exact ⟨(congrArg Account.timers he).le,congrFun (congrArg Account.retryCount he)⟩
    · exact ⟨hle,congrFun (congrArg Account.retryCount he)⟩

theorem retries_accounted_first_failure :
    ∃ s t : GroupQueue Unit, Reachable step (init 1 5 10 300000 true true) s ∧
      step s (.finish 0 .failure) = some t ∧ Settled 5 10 300000 s t "a" .failure := by
  refine ⟨_,_,⟨[.enqueueMessageCheck "a",.begin 0],rfl⟩,rfl,?_⟩
  have h := @retries_accounted Unit 1 5 10 300000 true true _ (by decide)
    ⟨[.enqueueMessageCheck "a",.begin 0],rfl⟩
  exact (h.2.1 0 _ "a" .failure _ rfl rfl rfl).1

end GroupQueue
end NanoClaw
