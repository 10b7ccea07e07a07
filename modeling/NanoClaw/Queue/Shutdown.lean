import NanoClaw.Queue.Safety

/-! Shutdown is final. Whatever the event loop still does with the queue, no function of a run is
called any more, and no slot is taken. -/
namespace NanoClaw.GroupQueue
open Execution
variable {F : Type}

/-- The calls of `process_messages_fn` and of the functions of queued tasks. -/
def invocations (h : List Event) : List Event :=
  h.filter fun
    | .messagesInvoked _ => true
    | .taskInvoked _ _ => true
    | _ => false

@[simp] theorem invocations_append (h l : List Event) :
    invocations (h ++ l) = invocations h ++ invocations l := List.filter_append ..

/-- No function is called and no slot is taken between two states. -/
structure Ebbs (s t : GroupQueue F) : Prop where
  calls : invocations t.history = invocations s.history
  slots : t.activeCount ≤ s.activeCount

theorem Ebbs.refl (s : GroupQueue F) : Ebbs s s := ⟨rfl,le_rfl⟩

theorem Ebbs.trans {s t u : GroupQueue F} (h : Ebbs s t) (h' : Ebbs t u) : Ebbs s u :=
  ⟨h'.calls.trans h.calls,h'.slots.trans h.slots⟩

theorem Ebbs.record {s t : GroupQueue F} (h : Ebbs s t) {e : Event} (he : invocations [e] = []) :
    Ebbs s (t.record e) := by
  refine ⟨?_,h.slots⟩
  change invocations (t.history ++ [e]) = invocations s.history
  rw [invocations_append, he, List.append_nil]
  exact h.calls

theorem notifyIdle_ebbs (s : GroupQueue F) (g : String) : Ebbs s (s.notifyIdle g) := by
  have hidle : Ebbs s (s.markIdle g) := ⟨rfl,le_rfl⟩
  rcases notifyIdle_cases s g with ⟨_,he⟩ | ⟨_,he⟩
  · rw [he]
    exact hidle
  · rw [he, closeStdin]
    split
    · exact hidle.record rfl
    · exact hidle

/-- The end of a run records retries at most, and gives its slot back. -/
theorem freeRunForGroup_ebbs (s : GroupQueue F) (g : String) (outcome : Outcome) :
    Ebbs s (s.freeRunForGroup g outcome) := by
  obtain ⟨k,events,timers,_,hevents,he⟩ := settleRetry_eq s g outcome
  have hnone : invocations events = [] := by
    apply List.filter_eq_nil_iff.mpr
    intro e hmem
    obtain ⟨d,rfl⟩ := hevents e hmem
    simp
  rw [freeRunForGroup, he]
  constructor
  · change invocations (s.history ++ events) = invocations s.history
    rw [invocations_append, hnone, List.append_nil]
  · change s.activeCount - 1 ≤ s.activeCount
    omega

theorem freeRunTask_ebbs (s : GroupQueue F) (g : String) : Ebbs s (s.freeRunTask g) := by
  refine ⟨rfl,?_⟩
  change s.activeCount - 1 ≤ s.activeCount
  omega

/-- No move of a queue that is shut down calls a function or takes a slot. -/
theorem Stopped.ebbs {s t : GroupQueue F} {a : Action F} (h : Stopped s)
    (hstep : GroupQueue.step s a = some t) : Ebbs s t := by
  have hdrop : ∀ i, Ebbs s (s.dropTask i) := fun _ => ⟨rfl,le_rfl⟩
  rcases h.step_cases hstep with rfl | rfl | ⟨g,_,rfl⟩ | ⟨i,b,_,hc⟩
  · exact .refl t
  · exact ⟨rfl,le_rfl⟩
  · exact notifyIdle_ebbs s g
  · rcases hc with rfl | ⟨_,rfl⟩ | ⟨g,outcome,_,rfl⟩ | ⟨g,_,_,rfl⟩
    · exact hdrop i
    · exact ⟨rfl,le_rfl⟩
    · exact ((hdrop i).record rfl).trans (freeRunForGroup_ebbs _ g outcome)
    · exact (hdrop i).trans (freeRunTask_ebbs _ g)

theorem Stopped.reachable {s t : GroupQueue F} (hs : Stopped s)
    (h : Reachable GroupQueue.step s t) : Stopped t ∧ Ebbs s t := by
  refine h.invariant (P := fun t => Stopped t ∧ Ebbs s t) ?_ ⟨hs,.refl s⟩
  rintro u a v ⟨hu,hebbs⟩ hstep
  exact ⟨hu.step hstep,hebbs.trans (hu.ebbs hstep)⟩

/-- From a shutdown on, whatever is enqueued, reported, fired or ended, and whether the cancelled
runs raise or go on, the queue calls no function, and its count of active runs only goes down. -/
theorem shutdown_final {s t u : GroupQueue F} (ht : Reachable step s.shutdown t)
    (hu : Reachable step t u) :
    invocations u.history = invocations s.history ∧ u.activeCount ≤ t.activeCount := by
  obtain ⟨hstopped,hebbs⟩ := (stopped_shutdown s).reachable ht
  obtain ⟨_,hlater⟩ := hstopped.reachable hu
  exact ⟨hlater.calls.trans hebbs.calls,hlater.slots⟩

/-- A run swallows its cancellation, fails and sets a timer, while another group's run has not
begun and more is enqueued. -/
theorem shutdown_final_swallowed :
    ∃ s t u, exec step (init 2 5 5000 300000 true true : GroupQueue Unit)
        [.enqueueMessageCheck "a",.begin 0,.enqueueTask "b" "t" ()] = some s ∧
      exec step s.shutdown [.finish 0 .failure] = some t ∧
      exec step t [.enqueueMessageCheck "c",.notifyIdle "b",.begin 1,.fireRetry 1,.dropCancelled 0] =
        some u ∧
      s.activeCount = 2 ∧ t.activeCount = 1 ∧
      invocations u.history = invocations s.history ∧ u.activeCount ≤ t.activeCount :=
  ⟨_,_,_,rfl,rfl,rfl,rfl,rfl,shutdown_final ⟨[.finish 0 .failure],rfl⟩
    ⟨[.enqueueMessageCheck "c",.notifyIdle "b",.begin 1,.fireRetry 1,.dropCancelled 0],rfl⟩⟩

end NanoClaw.GroupQueue
