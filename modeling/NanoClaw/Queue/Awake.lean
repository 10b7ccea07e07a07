import NanoClaw.Queue.Wakeup
import NanoClaw.Queue.Retry

/-! What makes the queue call the message function of a group again: a check that no invocation has
answered, or a retry timer. Only an invocation for the group takes both away. -/
namespace NanoClaw.GroupQueue
open Execution
variable {F : Type}

def Awake (s : GroupQueue F) (g : String) : Prop := owed g s.history = true ∨ ∃ d, (g,d) ∈ s.timers

/-- The history goes on without an invocation for the group. -/
def Grows (g : String) (s t : GroupQueue F) : Prop :=
  ∃ post, t.history = s.history ++ post ∧ .messagesInvoked g ∉ post

section Histories
variable {s t u : GroupQueue F} {g g' : String}

theorem grows_same (h : t.history = s.history) : Grows g s t :=
  ⟨[],by rw [h, List.append_nil],by simp⟩

theorem grows_record {e : Event} (he : e ≠ .messagesInvoked g) : Grows g s (s.record e) :=
  ⟨[e],rfl,fun h => he (List.mem_singleton.mp h).symm⟩

theorem Grows.trans (h : Grows g s t) (h' : Grows g t u) : Grows g s u := by
  obtain ⟨post,hpost,hno⟩ := h
  obtain ⟨post',hpost',hno'⟩ := h'
  refine ⟨post ++ post',by rw [hpost', hpost, List.append_assoc],fun hmem => ?_⟩
  exact (List.mem_append.mp hmem).elim hno hno'

/-- What is owed to a group stays owed until an invocation for it. -/
theorem Grows.owed (h : Grows g s t) (ho : owed g s.history = true) : owed g t.history = true := by
  obtain ⟨post,hpost,hno⟩ := h
  have hfold : s.history.foldl (owe g) false = true := ho
  rw [hpost, GroupQueue.owed, List.foldl_append, hfold]
  exact owed_stays g post hno

theorem grows_enterWaiting : Grows g s (s.enterWaiting g') := by
  unfold enterWaiting
  split
  · exact grows_same rfl
  · exact grows_record (by simp)

theorem grows_closeStdin : Grows g s (s.closeStdin g') := by
  unfold closeStdin
  split
  · exact grows_record (by simp)
  · exact grows_same rfl

theorem grows_drainGroup : Grows g s (s.drainGroup g') := by
  refine drainGroup_rule (P := fun t => Grows g s t) ?_ ?_ (grows_same rfl)
  · exact fun t g' rest _ h => h.trans (grows_record (by simp))
  · exact fun t g' h => h.trans (grows_same (startPending_history t g'))

theorem grows_endRunForGroup (outcome : Outcome) : Grows g s (s.endRunForGroup g' outcome) := by
  obtain ⟨k,events,timers,_,hevents,he⟩ := settleRetry_eq s g' outcome
  have hsettle : Grows g s (s.freeRunForGroup g' outcome) := by
    refine ⟨events,by rw [freeRunForGroup, he]; rfl,fun hmem => ?_⟩
    obtain ⟨d,hd⟩ := hevents _ hmem
    cases hd
  exact hsettle.trans grows_drainGroup

theorem grows_enqueueMessageCheck : Grows g s (s.enqueueMessageCheck g') := by
  have hrecord : Grows g s (s.record (.checkAccepted g')) := grows_record (by simp)
  rcases enqueueMessageCheck_cases s g' with ⟨_,he⟩ | ⟨_,he⟩ | ⟨_,_,he⟩ | ⟨_,_,he⟩ <;> rw [he]
  · exact grows_same rfl
  · exact hrecord
  · exact Grows.trans (t := s.notePending g') hrecord grows_enterWaiting
  · exact hrecord

theorem grows_enqueueTask (taskId : String) (fn : F) : Grows g s (s.enqueueTask g' taskId fn) := by
  have hrecord : Grows g s (s.record (.taskAccepted g' taskId)) := grows_record (by simp)
  rcases enqueueTask_cases s g' taskId fn with
    ⟨_,he⟩ | ⟨_,_,_,⟨_,_,he⟩ | ⟨_,_,he⟩ | ⟨_,_,he⟩ | ⟨_,_,he⟩⟩ <;> rw [he]
  · exact grows_same rfl
  · exact Grows.trans (t := s.addPending g' ⟨taskId,g',fn⟩) hrecord grows_closeStdin
  · exact hrecord
  · exact Grows.trans (t := s.addPending g' ⟨taskId,g',fn⟩) hrecord grows_enterWaiting
  · exact hrecord

theorem grows_notifyIdle : Grows g s (s.notifyIdle g') := by
  rcases notifyIdle_cases s g' with ⟨_,he⟩ | ⟨_,he⟩ <;> rw [he]
  · exact grows_same rfl
  · exact Grows.trans (t := s.markIdle g') (grows_same rfl) grows_closeStdin

/-- Only the body of a message run of the group invokes its message function. -/
theorem step_grows {a : Action F} (hstep : step s a = some t)
    (hbegin : ∀ i b, a = .begin i → s.backgroundTasks[i]? = some b → b.coro ≠ .runForGroup g) :
    Grows g s t := by
  cases a with
  | enqueueMessageCheck g' => cases hstep; exact grows_enqueueMessageCheck
  | enqueueTask g' taskId fn => cases hstep; exact grows_enqueueTask taskId fn
  | notifyIdle g' => cases hstep; exact grows_notifyIdle
  | begin i =>
    obtain ⟨b,hb,_,_,hc⟩ := begin_cases hstep
    have hother := hbegin i b rfl hb
    rcases hc with ⟨g',hg',_,rfl⟩ | ⟨g',_,_,rfl⟩ | ⟨g',task,_,rfl⟩ | ⟨_,rfl⟩
    · refine Grows.trans (t := s.parkTask i b) (grows_same rfl) (grows_record fun he => ?_)
      cases he
      exact hother hg'
    · exact Grows.trans (t := s.dropTask i) (grows_same rfl) (grows_endRunForGroup .success)
    · exact Grows.trans (t := s.parkTask i b) (grows_same rfl) (grows_record (by simp))
    · exact grows_same rfl
  | finish i outcome =>
    obtain ⟨b,_,_,hc⟩ := finish_cases hstep
    rcases hc with ⟨g',_,rfl⟩ | ⟨g',task,_,rfl⟩
    · have hrecord : Grows g s ((s.dropTask i).record (.messagesEnded g' outcome)) :=
        Grows.trans (t := s.dropTask i) (grows_same rfl) (grows_record (by simp))
      exact hrecord.trans (grows_endRunForGroup outcome)
    · exact Grows.trans (t := (s.dropTask i).freeRunTask g') (grows_same rfl) grows_drainGroup
  | fireRetry i =>
    obtain ⟨b,g',d,_,_,rfl⟩ := fireRetry_cases hstep
    split
    · exact grows_same rfl
    · exact Grows.trans (t := s.dropTask i) (grows_same rfl) grows_enqueueMessageCheck
  | shutdown => cases hstep; exact grows_same rfl
  | dropCancelled i =>
    obtain ⟨b,_,_,_,rfl⟩ := dropCancelled_cases hstep
    exact grows_same rfl

end Histories

section Timers
variable {s t : GroupQueue F} {g : String} {d : Int}

theorem enqueueMessageCheck_owed (hopen : s.shuttingDown = false) :
    owed g (s.enqueueMessageCheck g).history = true := by
  have hrecord : owed g (s.record (.checkAccepted g)).history = true := by
    simp [record, owe]
  simp only [enqueueMessageCheck, hopen, Bool.false_eq_true, if_false]
  split
  · exact hrecord
  split
  · exact (grows_enterWaiting (s := (s.record (.checkAccepted g)).setGroup g _)).owed hrecord
  · exact hrecord

theorem Account.le_ended (a : Account) (maxRetries : Int) (delayMs : Nat → Int) (outcome : Outcome) :
    a.timers ≤ (a.ended maxRetries delayMs g outcome).timers := by
  have hfailed : a.timers ≤ (a.ended maxRetries delayMs g .failure).timers := by
    simp only [Account.ended]
    split
    · exact Multiset.le_cons_self _ _
    · exact le_rfl
  cases outcome with
  | success => exact le_rfl
  | cancelled => exact le_rfl
  | failure => exact hfailed
  | exception => exact hfailed

/-- A timer runs until it fires, and then the group is owed a check. -/
theorem step_timers {a : Action F} (hinv : Inv s) (ht : t.shuttingDown = false)
    (hfn : s.processMessagesFn = true) (hstep : step s a = some t) (h : (g,d) ∈ s.timers) :
    (g,d) ∈ t.timers ∨ owed g t.history = true := by
  have hrun := step_shuttingDown hstep ht
  have hkeep (he : t.account = s.account) : (g,d) ∈ t.timers := by
    have htimers : t.timers = s.timers := congrArg Account.timers he
    rwa [htimers]
  cases a with
  | enqueueMessageCheck g' => cases hstep; exact .inl (hkeep (account_enqueueMessageCheck s g'))
  | enqueueTask g' taskId fn => cases hstep; exact .inl (hkeep (account_enqueueTask s g' taskId fn))
  | notifyIdle g' => cases hstep; exact .inl (hkeep (account_notifyIdle s g'))
  | begin i =>
    obtain ⟨b,hb,_,_,hc⟩ := begin_cases hstep
    have hparked := account_parkTask hb
    rcases hc with ⟨g',_,_,rfl⟩ | ⟨g',_,hno,_⟩ | ⟨g',task,_,rfl⟩ | ⟨_,rfl⟩
    · exact .inl (hkeep ((account_record _ (fun _ _ => rfl)).trans hparked))
    · rw [hfn] at hno
      cases hno
    · exact .inl (hkeep ((account_record _ (fun _ _ => rfl)).trans hparked))
    · exact .inl (hkeep hparked)
  | finish i outcome =>
    obtain ⟨b,hb,_,hc⟩ := finish_cases hstep
    rcases hc with ⟨g',hg',_⟩ | ⟨g',task,hg',rfl⟩
    · have hended := finish_account hinv.running hb hg' hstep
      have htimers : t.timers = _ := congrArg Account.timers hended
      exact .inl (htimers ▸ Multiset.mem_of_le (Account.le_ended _ _ _ _) h)
    · have hdrop := account_dropTask hb (by rw [hg']; rfl)
      exact .inl (hkeep ((account_endRunTask _ g').trans hdrop))
  | fireRetry i =>
    obtain ⟨b,g',d',hb,hg',rfl⟩ := fireRetry_cases hstep
    rw [if_neg (by simp [hrun])]
    have hsplit := timers_dropTask hb
    rw [hg', Coroutine.timerOf, Option.elim_some] at hsplit
    rw [hsplit, Multiset.singleton_add, Multiset.mem_cons] at h
    have htimers : ((s.dropTask i).enqueueMessageCheck g').timers = (s.dropTask i).timers :=
      congrArg Account.timers (account_enqueueMessageCheck _ g')
    rcases h with hsame | hrest
    · cases hsame
      exact .inr (enqueueMessageCheck_owed (s := s.dropTask i) hrun)
    · exact .inl (htimers ▸ hrest)
  | shutdown => cases hstep; cases ht
  | dropCancelled i =>
    obtain ⟨b,hb,hc,_⟩ := dropCancelled_cases hstep
    rw [hinv.uncancelled b (List.mem_of_getElem? hb)] at hc
    cases hc

/-- The queue forgets no group: only its own message run, as it begins, answers what makes it awake. -/
theorem step_awake {a : Action F} (hinv : Inv s) (ht : t.shuttingDown = false)
    (hfn : s.processMessagesFn = true) (hstep : step s a = some t)
    (hbegin : ∀ i b, a = .begin i → s.backgroundTasks[i]? = some b → b.coro ≠ .runForGroup g)
    (h : Awake s g) : Awake t g := by
  rcases h with howed | ⟨d,hd⟩
  · exact .inl ((step_grows hstep hbegin).owed howed)
  · exact (step_timers hinv ht hfn hstep hd).elim (fun h => .inr ⟨d,h⟩) .inl

/-- A run that fails leaves a timer, as long as there are retries. -/
theorem finish_awake {i : Nat} {b : Background F} {outcome : Outcome} (hinv : Inv s)
    (hb : s.backgroundTasks[i]? = some b) (hc : b.coro = .runForGroup g)
    (hfailed : outcome = .failure ∨ outcome = .exception)
    (hretries : ((s.groups g).retryCount : Int) + 1 ≤ s.maxRetries)
    (hstep : step s (.finish i outcome) = some t) : Awake t g := by
  have hended := finish_account hinv.running hb hc hstep
  have hcount : ((s.account.retryCount g + 1 : Nat) : Int) ≤ s.maxRetries := by
    rw [Nat.cast_add]
    exact hretries
  have htimers : t.timers = (g,s.retryDelayMs (s.account.retryCount g + 1)) ::ₘ s.timers := by
    refine (congrArg Account.timers hended).trans ?_
    rcases hfailed with rfl | rfl <;> exact if_pos hcount
  exact .inr ⟨_,htimers ▸ Multiset.mem_cons_self _ _⟩

/-- With nothing in flight nobody is awake. -/
theorem not_awake_of_empty (hinv : Inv s) (hlog : Logged s) (hmax : 1 ≤ s.maxConcurrent)
    (hempty : s.backgroundTasks = []) : ¬Awake s g := by
  have hruns (g : String) : s.runsOf g = [] := by
    rw [runsOf, hempty, List.filter_nil]
  rintro (howed | ⟨d,hd⟩)
  · rcases hlog.promised g howed with hflag | ⟨b,hb,_⟩
    · exact hinv.no_work_of_no_runs hmax hruns g (.inl hflag)
    · rw [hempty] at hb
      cases hb
  · rw [timers, hempty] at hd
    cases hd

end Timers

section Parked
variable {s t : GroupQueue F}

theorem mem_parked {b : Background F} : b ∈ s.parked ↔ b ∈ s.backgroundTasks ∧ b.started = true :=
  List.mem_filter

theorem mem_parked_dropTask {i : Nat} {b b' : Background F} (h : b ∈ s.parked)
    (hb' : s.backgroundTasks[i]? = some b') (hne : b ≠ b') : b ∈ (s.dropTask i).parked := by
  obtain ⟨hmem,hstarted⟩ := mem_parked.mp h
  have hrest := (List.mem_cons.mp ((erase_perm hb').mem_iff.mp hmem)).resolve_left hne
  exact mem_parked.mpr ⟨hrest,hstarted⟩

/-- A run that has reached its await stays there until its own end. -/
theorem parked_stays {a : Action F} (hinv : Inv s) (ht : t.shuttingDown = false) {b : Background F}
    (h : b ∈ s.parked) (hb : b.coro.runGroup ≠ none)
    (hend : ∀ i outcome b', a = .finish i outcome → s.backgroundTasks[i]? = some b' → b ≠ b')
    (hstep : step s a = some t) : b ∈ t.parked := by
  have hrun := step_shuttingDown hstep ht
  cases a with
  | enqueueMessageCheck g => cases hstep; rwa [parked_enqueueMessageCheck]
  | enqueueTask g taskId fn => cases hstep; rwa [parked_enqueueTask]
  | notifyIdle g => cases hstep; rwa [parked_notifyIdle]
  | begin i =>
    obtain ⟨b',hb',hfresh,_,hc⟩ := begin_cases hstep
    have hdrop : b ∈ (s.dropTask i).parked := by
      refine mem_parked_dropTask h hb' ?_
      rintro rfl
      rw [(mem_parked.mp h).2] at hfresh
      cases hfresh
    have hpark : b ∈ (s.parkTask i b').parked := by
      rw [parked_parkTask]
      exact List.mem_append_left _ hdrop
    rcases hc with ⟨g,_,_,rfl⟩ | ⟨g,_,_,rfl⟩ | ⟨g,task,_,rfl⟩ | ⟨_,rfl⟩
    · exact hpark
    · rwa [parked_endRunForGroup]
    · exact hpark
    · exact hpark
  | finish i outcome =>
    obtain ⟨b',hb',_,hc⟩ := finish_cases hstep
    have hdrop := mem_parked_dropTask h hb' (hend i outcome b' rfl hb')
    rcases hc with ⟨g,_,rfl⟩ | ⟨g,task,_,rfl⟩
    · rw [parked_endRunForGroup]
      exact hdrop
    · rwa [parked_endRunTask]
  | fireRetry i =>
    obtain ⟨b',g,d,hb',hg,rfl⟩ := fireRetry_cases hstep
    rw [if_neg (by simp [hrun]), parked_enqueueMessageCheck]
    refine mem_parked_dropTask h hb' ?_
    rintro rfl
    rw [hg] at hb
    exact hb rfl
  | shutdown => cases hstep; cases ht
  | dropCancelled i =>
    obtain ⟨b',hb',hc,_⟩ := dropCancelled_cases hstep
    rw [hinv.uncancelled b' (List.mem_of_getElem? hb')] at hc
    cases hc

/-- Nothing else comes to await than the coroutine whose body begins. -/
theorem mem_parked_step {a : Action F} (ha : a ≠ .shutdown) {b : Background F} (h : b ∈ t.parked)
    (hstep : step s a = some t) :
    b ∈ s.parked ∨ ∃ i b', a = .begin i ∧ s.backgroundTasks[i]? = some b' ∧ b.coro = b'.coro := by
  cases a with
  | enqueueMessageCheck g => cases hstep; exact .inl (parked_enqueueMessageCheck s g ▸ h)
  | enqueueTask g taskId fn => cases hstep; exact .inl (parked_enqueueTask s g taskId fn ▸ h)
  | notifyIdle g => cases hstep; exact .inl (parked_notifyIdle s g ▸ h)
  | begin i =>
    obtain ⟨b',hb',_,_,hc⟩ := begin_cases hstep
    have hpark (h : b ∈ (s.parkTask i b').parked) : b ∈ s.parked ∨ ∃ j b', Action.begin i = .begin (F := F) j ∧
        s.backgroundTasks[j]? = some b' ∧ b.coro = b'.coro := by
      rw [parked_parkTask] at h
      rcases List.mem_append.mp h with h | h
      · exact .inl ((parked_dropTask_sublist s i).subset h)
      · exact .inr ⟨i,b',rfl,hb',by rw [List.mem_singleton.mp h]⟩
    rcases hc with ⟨g,_,_,rfl⟩ | ⟨g,_,_,rfl⟩ | ⟨g,task,_,rfl⟩ | ⟨_,rfl⟩
    · exact hpark h
    · rw [parked_endRunForGroup] at h
      exact .inl ((parked_dropTask_sublist s i).subset h)
    · exact hpark h
    · exact hpark h
  | finish i outcome =>
    obtain ⟨b',_,_,hc⟩ := finish_cases hstep
    rcases hc with ⟨g,_,rfl⟩ | ⟨g,task,_,rfl⟩
    · rw [parked_endRunForGroup] at h
      exact .inl ((parked_dropTask_sublist s i).subset h)
    · rw [parked_endRunTask] at h
      exact .inl ((parked_dropTask_sublist s i).subset h)
  | fireRetry i =>
    obtain ⟨b',g,d,_,_,rfl⟩ := fireRetry_cases hstep
    have h : b ∈ (s.dropTask i).parked := by
      split at h
      · exact h
      · rwa [parked_enqueueMessageCheck] at h
    exact .inl ((parked_dropTask_sublist s i).subset h)
  | shutdown => exact absurd rfl ha
  | dropCancelled i =>
    obtain ⟨b',_,_,_,rfl⟩ := dropCancelled_cases hstep
    exact .inl ((parked_dropTask_sublist s i).subset h)

/-- With its run the group's part in what is awaited ends. -/
theorem finish_unparked {g : String} {i : Nat} {b : Background F} {outcome : Outcome} (h : Slots s)
    (hb : s.backgroundTasks[i]? = some b) (hg : b.coro.runGroup = some g)
    (hstep : step s (.finish i outcome) = some t) : ∀ b' ∈ t.parked, b'.coro.runGroup ≠ some g := by
  have hdrop : t.parked = (s.dropTask i).parked := by
    obtain ⟨_,_,_,hc⟩ := finish_cases hstep
    rcases hc with ⟨g',_,rfl⟩ | ⟨g',task,_,rfl⟩
    · exact parked_endRunForGroup _ g' outcome
    · exact parked_endRunTask _ g'
  have hruns : s.runGroups.Perm (g :: (s.dropTask i).runGroups) := by
    have hperm := (erase_perm hb).filterMap (fun b => b.coro.runGroup)
    rwa [List.filterMap_cons, hg] at hperm
  have hcount : (s.dropTask i).runGroups.count g = 0 := by
    have hone := h.single g
    rw [hruns.count_eq, List.count_cons_self] at hone
    split at hone <;> omega
  intro b' hb' hg'
  rw [hdrop] at hb'
  exact List.count_eq_zero.mp hcount (List.mem_filterMap.mpr ⟨b',(mem_parked.mp hb').1,hg'⟩)

end Parked

end NanoClaw.GroupQueue
