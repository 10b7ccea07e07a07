import NanoClaw.Queue.Idle

/-! A run that has not reported idle. Only its own report or a new run changes that, and only its
own end takes it out of flight. -/
namespace NanoClaw.GroupQueue
open Execution
variable {F : Type}

/-- How often the group was asked to close. -/
def closings (g : String) (h : List Event) : Nat :=
  (signals g h).countP (fun | .stdinClosed _ => true | _ => false)

/-- The group has not reported idle, and was not asked to close, since its function was called. -/
structure Quiet (g : String) (s : GroupQueue F) : Prop where
  idle : (s.groups g).idleWaiting = false
  unasked : (signals g s.history).getLast? ≠ some (.stdinClosed g)

section Idle
variable {s : GroupQueue F} {g : String}

theorem setGroup_idle (h : (s.groups g).idleWaiting = false) (g' : String) (state : GroupState F)
    (hstate : state.idleWaiting = (s.groups g').idleWaiting ∨ state.idleWaiting = false) :
    ((s.setGroup g' state).groups g).idleWaiting = false := by
  simp only [setGroup, Function.update_apply]
  split
  · rename_i hg
    rcases hstate with hs | hs
    · rw [hs, ← hg]
      exact h
    · exact hs
  · exact h

theorem startRunForGroup_idle (h : (s.groups g).idleWaiting = false) (g' : String) :
    ((s.startRunForGroup g').groups g).idleWaiting = false :=
  setGroup_idle h g' _ (.inr rfl)

theorem startRunTask_idle (h : (s.groups g).idleWaiting = false) (g' : String) (task : QueuedTask F) :
    ((s.startRunTask g' task).groups g).idleWaiting = false :=
  setGroup_idle h g' _ (.inr rfl)

theorem startPending_idle (h : (s.groups g).idleWaiting = false) (g' : String) :
    ((s.startPending g').groups g).idleWaiting = false := by
  rcases startPending_cases s g' with ⟨task,rest,_,he⟩ | ⟨_,_,he⟩ | ⟨_,he⟩
  · rw [he]
    exact startRunTask_idle
      (setGroup_idle h g' { s.groups g' with pendingTasks := rest } (.inl rfl)) g' task
  · rw [he]
    exact startRunForGroup_idle h g'
  · rw [he]
    exact h

theorem drainGroup_idle (h : (s.groups g).idleWaiting = false) (g' : String) :
    ((s.drainGroup g').groups g).idleWaiting = false := by
  apply drainGroup_rule (P := fun t => (t.groups g).idleWaiting = false)
  · intro t g' rest _ h
    exact h
  · intro t g' h
    exact startPending_idle h g'
  · exact h

theorem endRunForGroup_idle (h : (s.groups g).idleWaiting = false) (g' : String) (outcome : Outcome) :
    ((s.endRunForGroup g' outcome).groups g).idleWaiting = false := by
  rw [endRunForGroup_eq]
  apply drainGroup_idle
  obtain ⟨k,events,timers,_,_,he⟩ := settleRetry_eq s g' outcome
  have hsettled : ((s.settleRetry g' outcome).groups g).idleWaiting = false := by
    rw [he]
    exact setGroup_idle h g' { s.groups g' with retryCount := k } (.inl rfl)
  exact setGroup_idle hsettled g' _ (.inl rfl)

theorem endRunTask_idle (h : (s.groups g).idleWaiting = false) (g' : String) :
    ((s.endRunTask g').groups g).idleWaiting = false := by
  rw [endRunTask_eq]
  apply drainGroup_idle
  exact setGroup_idle h g' _ (.inr rfl)

theorem enterWaiting_groups (s : GroupQueue F) (g : String) : (s.enterWaiting g).groups = s.groups := by
  unfold enterWaiting
  split <;> rfl

theorem closeStdin_groups (s : GroupQueue F) (g : String) : (s.closeStdin g).groups = s.groups := by
  unfold closeStdin
  split <;> rfl

theorem notePending_idle (h : (s.groups g).idleWaiting = false) (g' : String) :
    ((s.notePending g').groups g).idleWaiting = false :=
  setGroup_idle (s := s.record _) h g' _ (.inl rfl)

theorem addPending_idle (h : (s.groups g).idleWaiting = false) (g' : String) (task : QueuedTask F) :
    ((s.addPending g' task).groups g).idleWaiting = false :=
  setGroup_idle (s := s.record _) h g' _ (.inl rfl)

theorem enqueueMessageCheck_idle (h : (s.groups g).idleWaiting = false) (g' : String) :
    ((s.enqueueMessageCheck g').groups g).idleWaiting = false := by
  rcases enqueueMessageCheck_cases s g' with ⟨_,he⟩ | ⟨_,he⟩ | ⟨_,_,he⟩ | ⟨_,_,he⟩ <;> rw [he]
  · exact h
  · exact notePending_idle h g'
  · rw [enterWaiting_groups]
    exact notePending_idle h g'
  · exact startRunForGroup_idle (s := s.record _) h g'

theorem enqueueTask_idle (h : (s.groups g).idleWaiting = false) (g' taskId : String) (task : F) :
    ((s.enqueueTask g' taskId task).groups g).idleWaiting = false := by
  rcases enqueueTask_cases s g' taskId task with
    ⟨_,he⟩ | ⟨_,_,_,⟨_,_,he⟩ | ⟨_,_,he⟩ | ⟨_,_,he⟩ | ⟨_,_,he⟩⟩ <;> rw [he]
  · exact h
  · rw [closeStdin_groups]
    exact addPending_idle h g' _
  · exact addPending_idle h g' _
  · rw [enterWaiting_groups]
    exact addPending_idle h g' _
  · exact startRunTask_idle (s := s.record _) h g' _

/-- A report changes one flag of its group. -/
theorem notifyIdle_groups (s : GroupQueue F) (g : String) :
    (s.notifyIdle g).groups = (s.markIdle g).groups := by
  rcases notifyIdle_cases s g with ⟨_,he⟩ | ⟨_,he⟩ <;> rw [he]
  exact closeStdin_groups _ g

theorem notifyIdle_idle (s : GroupQueue F) (g : String) :
    ((s.notifyIdle g).groups g).idleWaiting = true := by
  rw [notifyIdle_groups]
  simp [markIdle, setGroup]

/-- Nothing but a report of the group itself makes it idle. -/
theorem step_idle {t : GroupQueue F} {a : Action F} (h : (s.groups g).idleWaiting = false)
    (ha : a ≠ .notifyIdle g) (hstep : step s a = some t) : (t.groups g).idleWaiting = false := by
  cases a with
  | enqueueMessageCheck g' => cases hstep; exact enqueueMessageCheck_idle h g'
  | enqueueTask g' taskId task => cases hstep; exact enqueueTask_idle h g' taskId task
  | notifyIdle g' =>
    cases hstep
    have hne : g ≠ g' := fun he => ha (by rw [he])
    rw [notifyIdle_groups]
    simpa [markIdle, setGroup, hne] using h
  | begin i =>
    obtain ⟨b,hb,_,_,hc⟩ := begin_cases hstep
    rcases hc with ⟨g',_,_,rfl⟩ | ⟨g',_,_,rfl⟩ | ⟨g',task,_,rfl⟩ | ⟨_,rfl⟩
    · exact h
    · exact endRunForGroup_idle (s := s.dropTask i) h g' .success
    · exact h
    · exact h
  | finish i outcome =>
    obtain ⟨b,hb,_,hc⟩ := finish_cases hstep
    rcases hc with ⟨g',_,rfl⟩ | ⟨g',task,_,rfl⟩
    · exact endRunForGroup_idle (s := (s.dropTask i).record _) h g' outcome
    · exact endRunTask_idle (s := s.dropTask i) h g'
  | fireRetry i =>
    obtain ⟨b,g',d,_,_,rfl⟩ := fireRetry_cases hstep
    split
    · exact h
    · exact enqueueMessageCheck_idle (s := s.dropTask i) h g'
  | shutdown => cases hstep; exact h
  | dropCancelled i =>
    obtain ⟨b,_,_,_,rfl⟩ := dropCancelled_cases hstep
    exact h

end Idle

section InFlight
variable {s t : GroupQueue F} {a : Action F} {g : String}

theorem inFlight_iff : InFlight s g ↔ ∃ b ∈ s.parked, b.coro.runGroup = some g := by
  simp only [InFlight, mem_runsOf, parked, List.mem_filter]
  constructor
  · rintro ⟨b,⟨hb,hg⟩,hstarted⟩
    exact ⟨b,⟨hb,hstarted⟩,hg⟩
  · rintro ⟨b,⟨hb,hstarted⟩,hg⟩
    exact ⟨b,⟨hb,hg⟩,hstarted⟩

theorem InFlight.of_parked (h : InFlight s g) (hparked : t.parked = s.parked) : InFlight t g := by
  rw [inFlight_iff] at h ⊢
  rw [hparked]
  exact h

/-- Another coroutine than the run of the group goes. -/
theorem InFlight.dropTask (h : InFlight s g) {i : Nat} {b : Background F}
    (hb : s.backgroundTasks[i]? = some b) (hother : b.started = true → b.coro.runGroup ≠ some g) :
    InFlight (s.dropTask i) g := by
  obtain ⟨b',hb',hstarted⟩ := h
  obtain ⟨hmem,hg⟩ := mem_runsOf.mp hb'
  rcases List.mem_cons.mp ((erase_perm hb).mem_iff.mp hmem) with rfl | hrest
  · exact absurd hg (hother hstarted)
  · exact ⟨b',mem_runsOf.mpr ⟨hrest,hg⟩,hstarted⟩

theorem InFlight.parkTask (h : InFlight (s.dropTask i) g) (b : Background F) :
    InFlight (s.parkTask i b) g := by
  rw [inFlight_iff] at h ⊢
  obtain ⟨b',hb',hg⟩ := h
  exact ⟨b',by rw [parked_parkTask]; exact List.mem_append_left _ hb',hg⟩

/-- A run stays in flight until its own end. -/
theorem step_inFlight (h : InFlight s g) (hend : ∀ i outcome b, a = .finish i outcome →
      s.backgroundTasks[i]? = some b → b.coro.runGroup ≠ some g)
    (hstep : step s a = some t) : InFlight t g := by
  cases a with
  | enqueueMessageCheck g' => cases hstep; exact h.of_parked (parked_enqueueMessageCheck s g')
  | enqueueTask g' taskId task => cases hstep; exact h.of_parked (parked_enqueueTask s g' taskId task)
  | notifyIdle g' => cases hstep; exact h.of_parked (parked_notifyIdle s g')
  | begin i =>
    obtain ⟨b,hb,hfresh,_,hc⟩ := begin_cases hstep
    have hdrop : InFlight (s.dropTask i) g := by
      apply h.dropTask hb
      intro hstarted
      rw [hfresh] at hstarted
      cases hstarted
    rcases hc with ⟨g',_,_,rfl⟩ | ⟨g',_,_,rfl⟩ | ⟨g',task,_,rfl⟩ | ⟨_,rfl⟩
    · exact hdrop.parkTask b
    · exact hdrop.of_parked (parked_endRunForGroup _ g' .success)
    · exact hdrop.parkTask b
    · exact hdrop.parkTask b
  | finish i outcome =>
    obtain ⟨b,hb,_,hc⟩ := finish_cases hstep
    have hdrop := h.dropTask hb (fun _ => hend i outcome b rfl hb)
    rcases hc with ⟨g',_,rfl⟩ | ⟨g',task,_,rfl⟩
    · exact hdrop.of_parked (parked_endRunForGroup ((s.dropTask i).record _) g' outcome)
    · exact hdrop.of_parked (parked_endRunTask (s.dropTask i) g')
  | fireRetry i =>
    obtain ⟨b,g',d,hb,hg,rfl⟩ := fireRetry_cases hstep
    have hdrop : InFlight (s.dropTask i) g := by
      apply h.dropTask hb
      rw [hg]
      simp [Coroutine.runGroup]
    split
    · exact hdrop
    · exact hdrop.of_parked (parked_enqueueMessageCheck _ g')
  | shutdown =>
    cases hstep
    obtain ⟨b,hb,hstarted⟩ := h
    obtain ⟨hmem,hg⟩ := mem_runsOf.mp hb
    exact ⟨{ b with cancelled := true },mem_runsOf.mpr ⟨List.mem_map_of_mem hmem,hg⟩,hstarted⟩
  | dropCancelled i =>
    obtain ⟨b,hb,_,hunused,rfl⟩ := dropCancelled_cases hstep
    apply h.dropTask hb
    intro hstarted
    rcases hunused with hfresh | hnone
    · rw [hfresh] at hstarted
      cases hstarted
    · rw [hnone]
      simp

/-- While a run of a group is in flight, none is waiting to begin. -/
theorem Slots.started_of_inFlight (hs : Slots s) (h : InFlight s g) {b : Background F}
    (hb : b ∈ s.backgroundTasks) (hg : b.coro.runGroup = some g) : b.started = true := by
  obtain ⟨b',hb',hstarted⟩ := h
  rw [hs.run_unique (mem_runsOf.mpr ⟨hb,hg⟩) hb']
  exact hstarted

end InFlight

section Signals
variable {s t : GroupQueue F} {a : Action F} {g : String}

/-- A run whose function has just been called is in flight. -/
theorem InFlight.begun (s : GroupQueue F) (i : Nat) {b : Background F} (e : Event)
    (hg : b.coro.runGroup = some g) : InFlight ((s.parkTask i b).record e) g := by
  have hflight : InFlight (s.parkTask i b) g := by
    rw [inFlight_iff]
    exact ⟨{ b with started := true },by rw [parked_parkTask]; simp,hg⟩
  exact hflight

theorem Quiet.of_called {e : Event} (hidle : (t.groups g).idleWaiting = false)
    (he : ∀ g', e ≠ .stdinClosed g') (hcalled : signals g t.history = signals g s.history ++ [e]) :
    Quiet g t := by
  refine ⟨hidle,?_⟩
  rw [hcalled, List.getLast?_append, List.getLast?_singleton, Option.some_or]
  exact fun hlast => he g (Option.some.inj hlast)

/-- Whatever happens but its own report, a quiet group stays quiet and is not asked to close. -/
theorem Quiet.step (h : Quiet g s) (ha : a ≠ .notifyIdle g) (hstep : GroupQueue.step s a = some t) :
    Quiet g t ∧ closings g t.history = closings g s.history := by
  have hidle := step_idle h.idle ha hstep
  rcases step_signals hstep with
    hsame | ⟨hasked | ⟨_,hasked⟩,_⟩ | ⟨_,_,e,_,_,_,_,_,he,_,hcalled⟩
  · refine ⟨⟨hidle,?_⟩,?_⟩
    · rw [hsame]
      exact h.unasked
    · rw [closings, hsame, closings]
  · exact absurd hasked ha
  · rw [Idling, h.idle] at hasked
    cases hasked.2
  · refine ⟨.of_called hidle he hcalled,?_⟩
    rw [closings, hcalled, closings, List.countP_append]
    cases e with
    | stdinClosed g' => exact absurd rfl (he g')
    | _ => rfl

/-- A function is called by a run that was waiting to begin. -/
theorem step_calls (hstep : step s a = some t) :
    calls g t.history = calls g s.history ∨
      ∃ b ∈ s.backgroundTasks, b.coro.runGroup = some g ∧ b.started = false ∧ b.cancelled = false ∧
        InFlight t g ∧ ((s.groups g).idleWaiting = false → Quiet g t) := by
  rcases step_signals (g := g) hstep with
    hsame | ⟨_,_,_,hasked⟩ | ⟨i,b,e,hb,hg,hfresh,hlive,rfl,he,ha,hcalled⟩
  · exact .inl (by rw [calls, hsame, calls])
  · exact .inl (by rw [calls, hasked, calls, List.countP_append]; simp)
  · refine .inr ⟨b,List.mem_of_getElem? hb,hg,hfresh,hlive,.begun s i e hg,fun hidle => ?_⟩
    apply Quiet.of_called (step_idle hidle _ hstep) he hcalled
    rw [ha]
    simp

end Signals

end NanoClaw.GroupQueue
