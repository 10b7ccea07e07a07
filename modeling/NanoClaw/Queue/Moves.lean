import NanoClaw.Queue.GroupQueue

/-! What each move of the event loop can do. The limits and the callbacks of the
queue are its settings, and no move but shutdown changes them. -/
namespace NanoClaw.GroupQueue
variable {F : Type}

/-- A check that does not start a run at once is noted for its group. -/
def notePending (s : GroupQueue F) (g : String) : GroupQueue F :=
  (s.record (.checkAccepted g)).setGroup g { s.groups g with pendingMessages := true }

/-- A task that does not start at once is the last one pending for its group. -/
def addPending (s : GroupQueue F) (g : String) (task : QueuedTask F) : GroupQueue F :=
  (s.record (.taskAccepted g task.id)).setGroup g
    { s.groups g with pendingTasks := (s.groups g).pendingTasks ++ [task] }

def markIdle (s : GroupQueue F) (g : String) : GroupQueue F :=
  s.setGroup g { s.groups g with idleWaiting := true }

section Calls
variable (s : GroupQueue F) (g : String)

theorem enqueueMessageCheck_cases :
    (s.shuttingDown = true ∧ s.enqueueMessageCheck g = s) ∨
      ((s.groups g).active = true ∧ s.enqueueMessageCheck g = s.notePending g) ∨
      ((s.groups g).active = false ∧ s.activeCount ≥ s.maxConcurrent ∧
        s.enqueueMessageCheck g = (s.notePending g).enterWaiting g) ∨
      ((s.groups g).active = false ∧ s.activeCount < s.maxConcurrent ∧
        s.enqueueMessageCheck g = (s.record (.checkAccepted g)).startRunForGroup g) := by
  simp only [enqueueMessageCheck]
  split
  next hshut => exact .inl ⟨hshut,rfl⟩
  refine .inr ?_
  split
  next hactive => exact .inl ⟨hactive,rfl⟩
  next hactive =>
    refine .inr ?_
    split
    next hfull => exact .inl ⟨Bool.eq_false_iff.mpr hactive,hfull,rfl⟩
    next hroom => exact .inr ⟨Bool.eq_false_iff.mpr hactive,Int.not_le.mp hroom,rfl⟩

/-- A task that its group already runs or has pending is refused, as any task is after shutdown. -/
theorem enqueueTask_cases (taskId : String) (fn : F) :
    ((s.shuttingDown = true ∨ (s.groups g).runningTaskId = some taskId ∨
        ∃ q ∈ (s.groups g).pendingTasks, q.id = taskId) ∧ s.enqueueTask g taskId fn = s) ∨
      (s.shuttingDown = false ∧ (s.groups g).runningTaskId ≠ some taskId ∧
        (∀ q ∈ (s.groups g).pendingTasks, q.id ≠ taskId) ∧
        (((s.groups g).active = true ∧ (s.groups g).idleWaiting = true ∧
            s.enqueueTask g taskId fn = (s.addPending g ⟨taskId,g,fn⟩).closeStdin g) ∨
          ((s.groups g).active = true ∧ (s.groups g).idleWaiting = false ∧
            s.enqueueTask g taskId fn = s.addPending g ⟨taskId,g,fn⟩) ∨
          ((s.groups g).active = false ∧ s.activeCount ≥ s.maxConcurrent ∧
            s.enqueueTask g taskId fn = (s.addPending g ⟨taskId,g,fn⟩).enterWaiting g) ∨
          ((s.groups g).active = false ∧ s.activeCount < s.maxConcurrent ∧
            s.enqueueTask g taskId fn =
              (s.record (.taskAccepted g taskId)).startRunTask g ⟨taskId,g,fn⟩))) := by
  simp only [enqueueTask]
  split
  next hshut => exact .inl ⟨.inl hshut,rfl⟩
  next hopen =>
    split
    next hrunning => exact .inl ⟨.inr (.inl hrunning),rfl⟩
    next hrunning =>
      split
      next hpending => exact .inl ⟨.inr (.inr (by simpa using hpending)),rfl⟩
      next hpending =>
        refine .inr ⟨Bool.eq_false_iff.mpr hopen,hrunning,by simpa using hpending,?_⟩
        split
        next hactive =>
          split
          next hidle => exact .inl ⟨hactive,hidle,rfl⟩
          next hidle => exact .inr (.inl ⟨hactive,Bool.eq_false_iff.mpr hidle,rfl⟩)
        next hactive =>
          have hactive := Bool.eq_false_iff.mpr hactive
          split
          next hfull => exact .inr (.inr (.inl ⟨hactive,hfull,rfl⟩))
          next hroom => exact .inr (.inr (.inr ⟨hactive,Int.not_le.mp hroom,rfl⟩))

theorem notifyIdle_cases :
    ((s.groups g).pendingTasks = [] ∧ s.notifyIdle g = s.markIdle g) ∨
      ((s.groups g).pendingTasks ≠ [] ∧ s.notifyIdle g = (s.markIdle g).closeStdin g) := by
  simp only [notifyIdle]
  split
  next hpending => exact .inl ⟨List.isEmpty_iff.mp hpending,rfl⟩
  next hpending => exact .inr ⟨fun hnil => hpending (List.isEmpty_iff.mpr hnil),rfl⟩

end Calls

def HasWork (state : GroupState F) : Prop := state.pendingMessages = true ∨ state.pendingTasks ≠ []

/-- What a drain starts for a group: its oldest task, else its messages, else nothing. -/
theorem startPending_cases (s : GroupQueue F) (g : String) :
    (∃ task rest, (s.groups g).pendingTasks = task :: rest ∧ s.startPending g =
      (s.setGroup g { s.groups g with pendingTasks := rest }).startRunTask g task) ∨
    ((s.groups g).pendingTasks = [] ∧ (s.groups g).pendingMessages = true ∧
      s.startPending g = s.startRunForGroup g) ∨
    (¬ HasWork (s.groups g) ∧ s.startPending g = s) := by
  cases ht : (s.groups g).pendingTasks with
  | cons task rest => exact .inl ⟨task,rest,rfl,by simp [startPending, ht]⟩
  | nil =>
    cases hm : (s.groups g).pendingMessages with
    | true => exact .inr (.inl ⟨rfl,rfl,by simp [startPending, ht, hm]⟩)
    | false => exact .inr (.inr ⟨by simp [HasWork, ht, hm],by simp [startPending, ht, hm]⟩)

section Fields
variable (s : GroupQueue F) (g : String)

@[simp] theorem startPending_waitingGroups : (s.startPending g).waitingGroups = s.waitingGroups := by
  obtain ⟨_,_,_,h⟩ | ⟨_,_,h⟩ | ⟨_,h⟩ := startPending_cases s g <;> rw [h] <;> rfl
@[simp] theorem startPending_history : (s.startPending g).history = s.history := by
  obtain ⟨_,_,_,h⟩ | ⟨_,_,h⟩ | ⟨_,h⟩ := startPending_cases s g <;> rw [h] <;> rfl
@[simp] theorem startPending_maxConcurrent : (s.startPending g).maxConcurrent = s.maxConcurrent := by
  obtain ⟨_,_,_,h⟩ | ⟨_,_,h⟩ | ⟨_,h⟩ := startPending_cases s g <;> rw [h] <;> rfl

theorem startPending_other {g' : String} (hne : g' ≠ g) :
    (s.startPending g).groups g' = s.groups g' := by
  obtain ⟨_,_,_,h⟩ | ⟨_,_,h⟩ | ⟨_,h⟩ := startPending_cases s g
  · simp [h, startRunTask, createBackgroundTask, setGroup, hne]
  · simp [h, startRunForGroup, createBackgroundTask, setGroup, hne]
  · rw [h]

end Fields

theorem mem_createBackgroundTask {s : GroupQueue F} {coro : Coroutine F} {b : Background F}
    (h : b ∈ (s.createBackgroundTask coro).backgroundTasks) :
    b ∈ s.backgroundTasks ∨ b = { coro } := by
  simp only [createBackgroundTask] at h
  split at h
  · rcases List.mem_append.mp h with h | h
    · exact .inl h
    · exact .inr (List.mem_singleton.mp h)
  · exact .inl h

section Drains
variable {P : GroupQueue F → Prop}

/-- What one turn of the loop preserves, the loop preserves. -/
theorem drainWaitingLoop_rule
    (hturn : ∀ s g rest, s.waitingGroups = g :: rest → s.activeCount < s.maxConcurrent → P s →
      P (({ s with waitingGroups := rest }.record (.waitLeft g)).startPending g))
    {l : List String} {s : GroupQueue F} (hl : s.waitingGroups = l) (h : P s) :
    P (drainWaitingLoop l s) := by
  induction l generalizing s with
  | nil => exact h
  | cons g rest ih =>
    unfold drainWaitingLoop
    split
    next hroom =>
      apply ih
      · exact startPending_waitingGroups _ g
      · exact hturn s g rest hl hroom h
    next => exact h

/-- What leaving the waiting list and starting pending work preserve, a drain preserves. -/
theorem drainGroup_rule
    (hleave : ∀ s g rest, s.waitingGroups = g :: rest → P s →
      P ({ s with waitingGroups := rest }.record (.waitLeft g)))
    (hstart : ∀ s g, P s → P (s.startPending g)) {s : GroupQueue F} {g : String} (h : P s) :
    P (s.drainGroup g) := by
  simp only [drainGroup]
  split
  · exact h
  · split
    · exact hstart s g h
    · apply drainWaitingLoop_rule ?_ rfl h
      intro t g' rest hl _ h
      exact hstart _ g' (hleave t g' rest hl h)

end Drains

structure Settings where
  maxConcurrent : Int
  maxRetries : Int
  baseRetryMs : Int
  maxRetryMs : Int
  processMessagesFn : Bool
  closeStdinFn : Bool
  loopRunning : Bool
  shuttingDown : Bool

def settings (s : GroupQueue F) : Settings where
  maxConcurrent := s.maxConcurrent
  maxRetries := s.maxRetries
  baseRetryMs := s.baseRetryMs
  maxRetryMs := s.maxRetryMs
  processMessagesFn := s.processMessagesFn
  closeStdinFn := s.closeStdinFn
  loopRunning := s.loopRunning
  shuttingDown := s.shuttingDown

section
variable (s : GroupQueue F) (g : String)

@[simp] theorem settings_enterWaiting : (s.enterWaiting g).settings = s.settings := by
  unfold enterWaiting; split <;> rfl
@[simp] theorem settings_closeStdin : (s.closeStdin g).settings = s.settings := by
  unfold closeStdin; split <;> rfl
@[simp] theorem settings_setGroup (state : GroupState F) :
    (s.setGroup g state).settings = s.settings := rfl
@[simp] theorem settings_record (e : Event) : (s.record e).settings = s.settings := rfl
@[simp] theorem settings_startRunForGroup : (s.startRunForGroup g).settings = s.settings := rfl
@[simp] theorem settings_startRunTask (task : QueuedTask F) :
    (s.startRunTask g task).settings = s.settings := rfl
@[simp] theorem settings_dropTask (i : Nat) : (s.dropTask i).settings = s.settings := rfl
@[simp] theorem settings_parkTask (i : Nat) (b : Background F) :
    (s.parkTask i b).settings = s.settings := rfl

@[simp] theorem settings_startPending : (s.startPending g).settings = s.settings := by
  obtain ⟨_,_,_,h⟩ | ⟨_,_,h⟩ | ⟨_,h⟩ := startPending_cases s g <;> rw [h] <;> rfl

@[simp] theorem settings_notePending : (s.notePending g).settings = s.settings := rfl
@[simp] theorem settings_addPending (task : QueuedTask F) :
    (s.addPending g task).settings = s.settings := rfl
@[simp] theorem settings_markIdle : (s.markIdle g).settings = s.settings := rfl

@[simp] theorem settings_enqueueMessageCheck : (s.enqueueMessageCheck g).settings = s.settings := by
  rcases enqueueMessageCheck_cases s g with ⟨_,h⟩ | ⟨_,h⟩ | ⟨_,_,h⟩ | ⟨_,_,h⟩ <;> simp [h]

@[simp] theorem settings_enqueueTask (taskId : String) (fn : F) :
    (s.enqueueTask g taskId fn).settings = s.settings := by
  rcases enqueueTask_cases s g taskId fn with
    ⟨_,h⟩ | ⟨_,_,_,⟨_,_,h⟩ | ⟨_,_,h⟩ | ⟨_,_,h⟩ | ⟨_,_,h⟩⟩ <;> simp [h]

@[simp] theorem settings_notifyIdle : (s.notifyIdle g).settings = s.settings := by
  rcases notifyIdle_cases s g with ⟨_,h⟩ | ⟨_,h⟩ <;> simp [h]

@[simp] theorem settings_drainGroup : (s.drainGroup g).settings = s.settings := by
  apply drainGroup_rule (P := fun t => t.settings = s.settings)
  · exact fun _ _ _ _ h => h
  · exact fun t g h => (settings_startPending t g).trans h
  · rfl

@[simp] theorem settings_settleRetry (outcome : Outcome) :
    (s.settleRetry g outcome).settings = s.settings := by
  have hretry : (s.scheduleRetry g).settings = s.settings := by
    simp only [scheduleRetry]; split <;> rfl
  cases outcome <;> first | rfl | exact hretry

@[simp] theorem settings_endRunForGroup (outcome : Outcome) :
    (s.endRunForGroup g outcome).settings = s.settings := by
  unfold endRunForGroup
  rw [settings_drainGroup]
  exact settings_settleRetry s g outcome

@[simp] theorem settings_endRunTask : (s.endRunTask g).settings = s.settings := by
  unfold endRunTask
  rw [settings_drainGroup]
  rfl

end

/-- The coroutines whose body has reached its await. -/
def parked (s : GroupQueue F) : List (Background F) := s.backgroundTasks.filter (·.started)

section Parked
variable (s : GroupQueue F) (g : String)

@[simp] theorem parked_createBackgroundTask (coro : Coroutine F) :
    (s.createBackgroundTask coro).parked = s.parked := by
  simp only [createBackgroundTask, parked]
  split <;> simp

@[simp] theorem parked_closeStdin : (s.closeStdin g).parked = s.parked := by
  unfold closeStdin
  split <;> rfl

@[simp] theorem parked_enterWaiting : (s.enterWaiting g).parked = s.parked := by
  unfold enterWaiting
  split <;> rfl

@[simp] theorem parked_startRunForGroup : (s.startRunForGroup g).parked = s.parked :=
  parked_createBackgroundTask _ _

@[simp] theorem parked_startRunTask (task : QueuedTask F) :
    (s.startRunTask g task).parked = s.parked := parked_createBackgroundTask _ _

@[simp] theorem parked_startPending : (s.startPending g).parked = s.parked := by
  obtain ⟨_,_,_,h⟩ | ⟨_,_,h⟩ | ⟨_,h⟩ := startPending_cases s g <;> rw [h]
  · exact parked_startRunTask _ g _
  · exact parked_startRunForGroup s g

@[simp] theorem parked_drainGroup : (s.drainGroup g).parked = s.parked := by
  apply drainGroup_rule (P := fun t => t.parked = s.parked)
  · exact fun _ _ _ _ h => h
  · exact fun t g h => (parked_startPending t g).trans h
  · rfl

@[simp] theorem parked_endRunForGroup (outcome : Outcome) :
    (s.endRunForGroup g outcome).parked = s.parked := by
  have hretry : (s.scheduleRetry g).parked = s.parked := by
    simp only [scheduleRetry]
    split
    · rfl
    · exact parked_createBackgroundTask _ _
  refine (parked_drainGroup _ g).trans ?_
  cases outcome <;> first | rfl | exact hretry

@[simp] theorem parked_endRunTask : (s.endRunTask g).parked = s.parked := parked_drainGroup _ g

@[simp] theorem parked_enqueueMessageCheck : (s.enqueueMessageCheck g).parked = s.parked := by
  rcases enqueueMessageCheck_cases s g with ⟨_,h⟩ | ⟨_,h⟩ | ⟨_,_,h⟩ | ⟨_,_,h⟩ <;> rw [h]
  · rfl
  · exact parked_enterWaiting _ g
  · exact parked_startRunForGroup _ g

@[simp] theorem parked_enqueueTask (taskId : String) (fn : F) :
    (s.enqueueTask g taskId fn).parked = s.parked := by
  rcases enqueueTask_cases s g taskId fn with
    ⟨_,h⟩ | ⟨_,_,_,⟨_,_,h⟩ | ⟨_,_,h⟩ | ⟨_,_,h⟩ | ⟨_,_,h⟩⟩ <;> rw [h]
  · exact parked_closeStdin _ g
  · rfl
  · exact parked_enterWaiting _ g
  · exact parked_startRunTask _ g _

@[simp] theorem parked_notifyIdle : (s.notifyIdle g).parked = s.parked := by
  rcases notifyIdle_cases s g with ⟨_,h⟩ | ⟨_,h⟩ <;> rw [h]
  · rfl
  · exact parked_closeStdin _ g

theorem parked_dropTask_sublist (i : Nat) : (s.dropTask i).parked.Sublist s.parked :=
  (List.eraseIdx_sublist _ _).filter _

theorem parked_parkTask (i : Nat) (b : Background F) :
    (s.parkTask i b).parked = (s.dropTask i).parked ++ [{ b with started := true }] := by
  simp [parked, parkTask, dropTask]

end Parked

/-- The moves that need a coroutine say which one, and what they do with it. -/
theorem begin_cases {s t : GroupQueue F} {i : Nat} (h : s.begin i = some t) :
    ∃ b, s.backgroundTasks[i]? = some b ∧ b.started = false ∧ b.cancelled = false ∧
      ((∃ g, b.coro = .runForGroup g ∧ s.processMessagesFn = true ∧
          t = (s.parkTask i b).record (.messagesInvoked g)) ∨
        (∃ g, b.coro = .runForGroup g ∧ s.processMessagesFn = false ∧
          t = (s.dropTask i).endRunForGroup g .success) ∨
        (∃ g task, b.coro = .runTask g task ∧
          t = (s.parkTask i b).record (.taskInvoked g task.id)) ∨
        (b.coro.runGroup = none ∧ t = s.parkTask i b)) := by
  unfold begin at h
  cases hb : s.backgroundTasks[i]? with
  | none => simp [hb] at h
  | some b =>
    simp only [hb] at h
    split at h
    · cases h
    next hfresh =>
      refine ⟨b,rfl,by simpa using fun hs => hfresh (.inl hs),by simpa using fun hc => hfresh (.inr hc),?_⟩
      cases hc : b.coro with
      | runForGroup g =>
        simp only [hc] at h
        split at h
        next hf => exact .inl ⟨g,rfl,hf,(Option.some.inj h).symm⟩
        next hf => exact .inr (.inl ⟨g,rfl,Bool.eq_false_iff.mpr hf,(Option.some.inj h).symm⟩)
      | runTask g task =>
        simp only [hc] at h
        exact .inr (.inr (.inl ⟨g,task,rfl,(Option.some.inj h).symm⟩))
      | retry g d =>
        simp only [hc] at h
        exact .inr (.inr (.inr ⟨rfl,(Option.some.inj h).symm⟩))

theorem finish_cases {s t : GroupQueue F} {i : Nat} {outcome : Outcome}
    (h : s.finish i outcome = some t) :
    ∃ b, s.backgroundTasks[i]? = some b ∧ b.started = true ∧
      ((∃ g, b.coro = .runForGroup g ∧
          t = ((s.dropTask i).record (.messagesEnded g outcome)).endRunForGroup g outcome) ∨
        (∃ g task, b.coro = .runTask g task ∧ t = (s.dropTask i).endRunTask g)) := by
  unfold finish at h
  cases hb : s.backgroundTasks[i]? with
  | none => simp [hb] at h
  | some b =>
    simp only [hb] at h
    split at h
    next hs =>
      refine ⟨b,rfl,hs,?_⟩
      cases hc : b.coro with
      | runForGroup g =>
        simp only [hc] at h
        exact .inl ⟨g,rfl,(Option.some.inj h).symm⟩
      | runTask g task =>
        simp only [hc] at h
        exact .inr ⟨g,task,rfl,(Option.some.inj h).symm⟩
      | retry g d => simp [hc] at h
    · cases h

theorem fireRetry_cases {s t : GroupQueue F} {i : Nat} (h : s.fireRetry i = some t) :
    ∃ b g d, s.backgroundTasks[i]? = some b ∧ b.coro = .retry g d ∧
      t = if s.shuttingDown then s.dropTask i else (s.dropTask i).enqueueMessageCheck g := by
  unfold fireRetry at h
  cases hb : s.backgroundTasks[i]? with
  | none => simp [hb] at h
  | some b =>
    simp only [hb] at h
    split at h
    · cases hc : b.coro with
      | retry g d =>
        simp only [hc] at h
        exact ⟨b,g,d,rfl,hc,(Option.some.inj h).symm⟩
      | runForGroup g => simp [hc] at h
      | runTask g task => simp [hc] at h
    · cases h

theorem dropCancelled_cases {s t : GroupQueue F} {i : Nat} (h : s.dropCancelled i = some t) :
    ∃ b, s.backgroundTasks[i]? = some b ∧ b.cancelled = true ∧
      (b.started = false ∨ b.coro.runGroup = none) ∧ t = s.dropTask i := by
  unfold dropCancelled at h
  cases hb : s.backgroundTasks[i]? with
  | none => simp [hb] at h
  | some b =>
    simp only [hb] at h
    split at h
    next hc => exact ⟨b,rfl,hc.1,hc.2,(Option.some.inj h).symm⟩
    · cases h

theorem step_settings {s t : GroupQueue F} {a : Action F} (h : step s a = some t) :
    t.settings = s.settings ∨ a = .shutdown := by
  cases a with
  | enqueueMessageCheck g => cases h; simp
  | enqueueTask g taskId fn => cases h; simp
  | notifyIdle g => cases h; simp
  | begin i =>
    obtain ⟨b,_,_,_,h⟩ := begin_cases h
    rcases h with ⟨g,_,_,rfl⟩ | ⟨g,_,_,rfl⟩ | ⟨g,task,_,rfl⟩ | ⟨_,rfl⟩ <;> simp
  | finish i outcome =>
    obtain ⟨b,_,_,h⟩ := finish_cases h
    rcases h with ⟨g,_,rfl⟩ | ⟨g,task,_,rfl⟩ <;> simp
  | fireRetry i =>
    obtain ⟨b,g,d,_,_,rfl⟩ := fireRetry_cases h
    split <;> simp
  | shutdown => exact .inr rfl
  | dropCancelled i =>
    obtain ⟨b,_,_,_,rfl⟩ := dropCancelled_cases h
    exact .inl rfl

/-- Shutdown is never taken back. -/
theorem step_shuttingDown {s t : GroupQueue F} {a : Action F} (h : step s a = some t)
    (ht : t.shuttingDown = false) : s.shuttingDown = false := by
  rcases step_settings h with he | rfl
  · exact (congrArg Settings.shuttingDown he).symm.trans ht
  · cases h
    cases ht

/-- The settings that not even shutdown changes. -/
def limits (s : GroupQueue F) : Settings := { s.settings with shuttingDown := false }

theorem step_limits {s t : GroupQueue F} {a : Action F} (h : step s a = some t) :
    t.limits = s.limits := by
  rcases step_settings h with he | rfl
  · rw [limits, he]
    rfl
  · cases h
    rfl

end NanoClaw.GroupQueue
