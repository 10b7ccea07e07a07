import NanoClaw.Queue.Safety

/-! Preemption of idle runs. A run that reports idle while a task is pending for its group is asked
to close, once, and nobody else is. -/
namespace NanoClaw.GroupQueue
open Execution
variable {F : Type}

/-- The calls of a group's functions and the requests to close its container, in order. -/
def signals (g : String) (h : List Event) : List Event :=
  h.filter fun
    | .messagesInvoked g' => g' == g
    | .taskInvoked g' _ => g' == g
    | .stdinClosed g' => g' == g
    | _ => false

/-- How many runs of the group have called their function. -/
def calls (g : String) (h : List Event) : Nat :=
  (signals g h).countP (fun | .stdinClosed _ => false | _ => true)

@[simp] theorem signals_append (g : String) (h l : List Event) :
    signals g (h ++ l) = signals g h ++ signals g l := List.filter_append ..

/-- `notify_idle` is called only from inside a run in flight for its group. -/
def CalledInside (s : GroupQueue F) : Action F → Prop
  | .notifyIdle g => ∃ b ∈ s.backgroundTasks, b.coro.runGroup = some g ∧ b.started = true
  | _ => True

def Idling (s : GroupQueue F) (g : String) : Prop :=
  (s.groups g).active = true ∧ (s.groups g).idleWaiting = true

/-- An active group that is idle has reported so in its current run, and was asked to close if a
task is pending. -/
structure Heard (fn : Bool) (reported : String → Nat → Prop) (s : GroupQueue F) : Prop where
  told : ∀ g, Idling s g → reported g (calls g s.history)
  asked : ∀ g, Idling s g → (s.groups g).pendingTasks ≠ [] → fn = true →
    (signals g s.history).getLast? = some (.stdinClosed g)

/-- No run that has not begun is idle. -/
def Fresh (s : GroupQueue F) : Prop :=
  ∀ b ∈ s.backgroundTasks, ∀ g, b.coro.runGroup = some g → b.started = false →
    (s.groups g).idleWaiting = false

section Frame
variable {s t : GroupQueue F} {fn : Bool} {reported : String → Nat → Prop}

theorem Heard.mono (h : Heard fn reported s)
    (hkeep : ∀ g, Idling t g → Idling s g ∧ (t.groups g).pendingTasks = (s.groups g).pendingTasks ∧
      signals g t.history = signals g s.history) : Heard fn reported t := by
  refine ⟨fun g hg => ?_,fun g hg hne hfn => ?_⟩
  · obtain ⟨hidling,_,hsignals⟩ := hkeep g hg
    rw [calls, hsignals]
    exact h.told g hidling
  · obtain ⟨hidling,hpending,hsignals⟩ := hkeep g hg
    rw [hsignals]
    exact h.asked g hidling (hpending ▸ hne) hfn

/-- A group that is not idle, or not active, after a move says nothing. -/
theorem Heard.leave (h : Heard fn reported s) (g : String) (hother : ∀ g', g' ≠ g →
      t.groups g' = s.groups g' ∧ signals g' t.history = signals g' s.history)
    (hg : ¬Idling t g) : Heard fn reported t := by
  refine h.mono (fun g' hidling => ?_)
  have hne : g' ≠ g := fun he => hg (he ▸ hidling)
  obtain ⟨hgroup,hsignals⟩ := hother g' hne
  rw [Idling, hgroup] at hidling
  exact ⟨hidling,by rw [hgroup],hsignals⟩

theorem Fresh.mono (h : Fresh s)
    (hkeep : ∀ b ∈ t.backgroundTasks, ∀ g, b.coro.runGroup = some g → b.started = false →
      (t.groups g).idleWaiting = false ∨
        (b ∈ s.backgroundTasks ∧ (t.groups g).idleWaiting = (s.groups g).idleWaiting)) :
    Fresh t := by
  intro b hb g hg hfresh
  rcases hkeep b hb g hg hfresh with hidle | ⟨hmem,hsame⟩
  · exact hidle
  · rw [hsame]
    exact h b hmem g hg hfresh

end Frame

/-- What holds before shutdown. -/
structure Attentive (fn : Bool) (reported : String → Nat → Prop) (s : GroupQueue F) : Prop
    extends Heard fn reported s where
  fresh : Fresh s

section Moves
variable {s : GroupQueue F} {fn : Bool} {reported : String → Nat → Prop}

theorem Heard.keep {t : GroupQueue F} (h : Heard fn reported s)
    (hgroups : ∀ g, (t.groups g).active = (s.groups g).active ∧
      (t.groups g).idleWaiting = (s.groups g).idleWaiting ∧
      (t.groups g).pendingTasks = (s.groups g).pendingTasks)
    (hsignals : ∀ g, signals g t.history = signals g s.history) : Heard fn reported t := by
  refine h.mono (fun g hg => ?_)
  obtain ⟨hactive,hidle,hpending⟩ := hgroups g
  rw [Idling, hactive, hidle] at hg
  exact ⟨hg,hpending,hsignals g⟩

/-- A run that starts is not idle. -/
theorem Attentive.start {t : GroupQueue F} (h : Attentive fn reported s) (g : String)
    (hother : ∀ g', g' ≠ g → t.groups g' = s.groups g' ∧
      signals g' t.history = signals g' s.history)
    (hidle : (t.groups g).idleWaiting = false)
    (hruns : ∀ b ∈ t.backgroundTasks, b ∈ s.backgroundTasks ∨ b.coro.runGroup = some g) :
    Attentive fn reported t := by
  refine ⟨h.toHeard.leave g hother (fun hidling => ?_),h.fresh.mono (fun b hb g' hg _ => ?_)⟩
  · rw [hidling.2] at hidle
    cases hidle
  · by_cases hne : g' = g
    · exact .inl (hne ▸ hidle)
    · refine .inr ⟨(hruns b hb).resolve_right (fun he => ?_),by rw [(hother g' hne).1]⟩
      rw [he] at hg
      exact hne (Option.some.inj hg).symm

theorem startRunForGroup_attentive (h : Attentive fn reported s) (g : String) :
    Attentive fn reported (s.startRunForGroup g) := by
  apply h.start g
  · intro g' hne
    refine ⟨?_,rfl⟩
    simp [startRunForGroup, createBackgroundTask, setGroup, hne]
  · simp [startRunForGroup, createBackgroundTask, setGroup]
  · intro b hb
    rcases mem_createBackgroundTask hb with hb | rfl
    · exact .inl hb
    · exact .inr rfl

theorem startRunTask_attentive (h : Attentive fn reported s) (g : String) (task : QueuedTask F) :
    Attentive fn reported (s.startRunTask g task) := by
  apply h.start g
  · intro g' hne
    refine ⟨?_,rfl⟩
    simp [startRunTask, createBackgroundTask, setGroup, hne]
  · simp [startRunTask, createBackgroundTask, setGroup]
  · intro b hb
    rcases mem_createBackgroundTask hb with hb | rfl
    · exact .inl hb
    · exact .inr rfl

/-- Only the pending tasks of a group that is no idle run change. -/
theorem setPending_attentive (h : Attentive fn reported s) {g : String}
    (hg : (s.groups g).active = false) (state : GroupState F)
    (hactive : state.active = (s.groups g).active)
    (hidle : state.idleWaiting = (s.groups g).idleWaiting) :
    Attentive fn reported (s.setGroup g state) := by
  have hother : ∀ g', g' ≠ g → (s.setGroup g state).groups g' = s.groups g' :=
    fun g' hne => by simp [setGroup, hne]
  refine ⟨h.toHeard.leave g (fun g' hne => ⟨hother g' hne,rfl⟩) (fun hidling => ?_),?_⟩
  · have hact := hidling.1
    simp only [setGroup, Function.update_self] at hact
    rw [hactive, hg] at hact
    cases hact
  · refine h.fresh.mono (fun b hb g' _ _ => .inr ⟨hb,?_⟩)
    by_cases hne : g' = g
    · subst hne
      simpa [setGroup] using hidle
    · rw [hother g' hne]

theorem startPending_attentive (h : Attentive fn reported s) {g : String}
    (hg : (s.groups g).active = false) : Attentive fn reported (s.startPending g) := by
  rcases startPending_cases s g with ⟨task,rest,_,he⟩ | ⟨_,_,he⟩ | ⟨_,he⟩
  · rw [he]
    exact startRunTask_attentive
      (setPending_attentive h hg { s.groups g with pendingTasks := rest } rfl rfl) g task
  · rw [he]
    exact startRunForGroup_attentive h g
  · rw [he]
    exact h

theorem Attentive.record (h : Attentive fn reported s) {e : Event}
    (hsignal : ∀ g, signals g [e] = []) : Attentive fn reported (s.record e) := by
  refine ⟨h.toHeard.keep (fun _ => ⟨rfl,rfl,rfl⟩) (fun g => ?_),h.fresh⟩
  exact (signals_append g s.history [e]).trans (by rw [hsignal g, List.append_nil])

theorem enterWaiting_attentive (h : Attentive fn reported s) (g : String) :
    Attentive fn reported (s.enterWaiting g) := by
  unfold enterWaiting
  split
  · exact h
  · exact Attentive.record (s := { s with waitingGroups := s.waitingGroups ++ [g] })
      ⟨h.toHeard.keep (fun _ => ⟨rfl,rfl,rfl⟩) (fun _ => rfl),h.fresh⟩ (fun _ => rfl)

theorem Freed.attentive {g : String} (hf : Freed s g) (h : Attentive fn reported s) :
    Attentive fn reported (s.drainGroup g) := by
  refine hf.rule (P := Attentive fn reported) ?_ (fun t g' h _ hidle => startPending_attentive h hidle) h
  intro t g' rest h
  exact Attentive.record (s := { t with waitingGroups := rest })
    ⟨h.toHeard.keep (fun _ => ⟨rfl,rfl,rfl⟩) (fun _ => rfl),h.fresh⟩ (fun _ => rfl)

theorem notePending_attentive (h : Attentive fn reported s) (g : String) :
    Attentive fn reported (s.notePending g) := by
  have hrecord := h.record (e := .checkAccepted g) (fun _ => rfl)
  have hsame : ∀ g', ((s.notePending g).groups g').active = (s.groups g').active ∧
      ((s.notePending g).groups g').idleWaiting = (s.groups g').idleWaiting ∧
      ((s.notePending g).groups g').pendingTasks = (s.groups g').pendingTasks := by
    intro g'
    by_cases hne : g' = g
    · subst hne
      simp [notePending, setGroup]
    · simp [notePending, GroupQueue.record, setGroup, hne]
  exact ⟨hrecord.toHeard.keep hsame (fun _ => rfl),
    hrecord.fresh.mono (fun b hb g' _ _ => .inr ⟨hb,(hsame g').2.1⟩)⟩

theorem enqueueMessageCheck_attentive (h : Attentive fn reported s) (g : String) :
    Attentive fn reported (s.enqueueMessageCheck g) := by
  rcases enqueueMessageCheck_cases s g with ⟨_,he⟩ | ⟨_,he⟩ | ⟨_,_,he⟩ | ⟨_,_,he⟩ <;> rw [he]
  · exact h
  · exact notePending_attentive h g
  · exact enterWaiting_attentive (notePending_attentive h g) g
  · exact startRunForGroup_attentive (h.record (fun _ => rfl)) g

/-- A request to close is no call of a function, and it is the last signal of its group. -/
theorem Heard.of_closeStdin (hfn : s.closeStdinFn = fn) {g : String}
    (htold : ∀ g', Idling s g' → reported g' (calls g' s.history))
    (hasked : ∀ g', g' ≠ g → Idling s g' → (s.groups g').pendingTasks ≠ [] → fn = true →
      (signals g' s.history).getLast? = some (.stdinClosed g')) :
    Heard fn reported (s.closeStdin g) := by
  unfold closeStdin
  split
  · have hcalls : ∀ g', calls g' (s.history ++ [.stdinClosed g]) = calls g' s.history := by
      intro g'
      rw [calls, signals_append, List.countP_append, calls]
      by_cases hg : g = g' <;> simp [signals, hg]
    refine ⟨fun g' hg => ?_,fun g' hg hne hyes => ?_⟩
    · exact (hcalls g').symm ▸ htold g' hg
    · simp only [record, signals_append]
      by_cases he : g' = g
      · subst he
        simp [signals]
      · have hnone : signals g' [.stdinClosed g] = [] := by simp [signals, Ne.symm he]
        rw [hnone, List.append_nil]
        exact hasked g' he hg hne hyes
  · rename_i hno
    refine ⟨htold,fun _ _ _ hyes => ?_⟩
    rw [hfn] at hno
    exact absurd hyes hno

theorem closeStdin_fresh (h : Fresh s) (g : String) : Fresh (s.closeStdin g) := by
  unfold closeStdin
  split
  · exact h
  · exact h

/-- A task that joins the pending ones leaves the runs as they are. -/
theorem addPending_other (s : GroupQueue F) (g : String) (task : QueuedTask F) (g' : String) :
    ((s.addPending g task).groups g').active = (s.groups g').active ∧
      ((s.addPending g task).groups g').idleWaiting = (s.groups g').idleWaiting ∧
      (g' ≠ g → (s.addPending g task).groups g' = s.groups g') := by
  by_cases hne : g' = g
  · subst hne
    simp [addPending, setGroup]
  · simp [addPending, record, setGroup, hne]

theorem enqueueTask_attentive (h : Attentive fn reported s) (hfn : s.closeStdinFn = fn)
    (g taskId : String) (task : F) : Attentive fn reported (s.enqueueTask g taskId task) := by
  have hu : Attentive fn reported (s.record (.taskAccepted g taskId)) := h.record (fun _ => rfl)
  have hadded := addPending_other s g ⟨taskId,g,task⟩
  have hfresh : Fresh (s.addPending g ⟨taskId,g,task⟩) :=
    hu.fresh.mono (fun b hb g' _ _ => .inr ⟨hb,(hadded g').2.1⟩)
  have hidling : ∀ g', Idling (s.addPending g ⟨taskId,g,task⟩) g' → Idling s g' :=
    fun g' hg => ⟨(hadded g').1.symm.trans hg.1,(hadded g').2.1.symm.trans hg.2⟩
  rcases enqueueTask_cases s g taskId task with
    ⟨_,he⟩ | ⟨_,_,_,⟨_,_,he⟩ | ⟨_,hidle,he⟩ | ⟨hidle,_,he⟩ | ⟨_,_,he⟩⟩ <;> rw [he]
  · exact h
  · refine ⟨Heard.of_closeStdin (s := s.addPending g ⟨taskId,g,task⟩) hfn ?_ ?_,
      closeStdin_fresh hfresh g⟩
    · exact fun g' hg => hu.told g' (hidling g' hg)
    · intro g' hne hg hpending
      rw [(hadded g').2.2 hne] at hpending
      exact hu.asked g' (hidling g' hg) hpending
  · refine ⟨hu.toHeard.leave g (fun g' hne => ⟨(hadded g').2.2 hne,rfl⟩) (fun hg => ?_),hfresh⟩
    exact Bool.eq_false_iff.mp hidle (hidling g hg).2
  · apply enterWaiting_attentive
    apply setPending_attentive hu hidle
    · rfl
    · rfl
  · exact startRunTask_attentive hu g ⟨taskId,g,task⟩

theorem Heard.weaken {reported' : String → Nat → Prop} (h : Heard fn reported s)
    (hle : ∀ g n, reported g n → reported' g n) : Heard fn reported' s :=
  ⟨fun g hg => hle g _ (h.told g hg),h.asked⟩

theorem markIdle_other (s : GroupQueue F) {g g' : String} (hne : g' ≠ g) :
    (s.markIdle g).groups g' = s.groups g' := by
  simp [markIdle, setGroup, hne]

theorem notifyIdle_heard (h : Heard fn reported s) (hfn : s.closeStdinFn = fn) {g : String}
    (hnow : reported g (calls g s.history)) : Heard fn reported (s.notifyIdle g) := by
  have htold : ∀ g', Idling (s.markIdle g) g' → reported g' (calls g' s.history) := by
    intro g' hg
    by_cases hne : g' = g
    · exact hne ▸ hnow
    · rw [Idling, markIdle_other s hne] at hg
      exact h.told g' hg
  have hasked : ∀ g', g' ≠ g → Idling (s.markIdle g) g' →
      ((s.markIdle g).groups g').pendingTasks ≠ [] → fn = true →
      (signals g' s.history).getLast? = some (.stdinClosed g') := by
    intro g' hne hg hpending
    rw [Idling, markIdle_other s hne] at hg
    rw [markIdle_other s hne] at hpending
    exact h.asked g' hg hpending
  rcases notifyIdle_cases s g with ⟨hnone,he⟩ | ⟨_,he⟩ <;> rw [he]
  · refine ⟨htold,fun g' hg hpending => ?_⟩
    refine hasked g' (fun he => hpending ?_) hg hpending
    rw [he]
    simpa [markIdle, setGroup] using hnone
  · exact Heard.of_closeStdin (s := s.markIdle g) hfn htold hasked

/-- The one run in flight has begun, so no other run of its group is waiting to begin. -/
theorem notifyIdle_fresh (h : Fresh s) (hs : Slots s) {g : String}
    (hinside : CalledInside s (.notifyIdle g)) : Fresh (s.notifyIdle g) := by
  have hset : Fresh (s.markIdle g) := by
    obtain ⟨b₀,hb₀,hg₀,hstarted⟩ := hinside
    refine h.mono (fun b hb g' hg hfresh => ?_)
    by_cases hne : g' = g
    · subst hne
      rw [hs.run_unique (mem_runsOf.mpr ⟨hb,hg⟩) (mem_runsOf.mpr ⟨hb₀,hg₀⟩), hstarted] at hfresh
      cases hfresh
    · exact .inr ⟨hb,by rw [markIdle_other s hne]⟩
  rcases notifyIdle_cases s g with ⟨_,he⟩ | ⟨_,he⟩ <;> rw [he]
  · exact hset
  · exact closeStdin_fresh hset g

/-- A run calls its function: it was not idle before. -/
theorem invoke_attentive (h : Attentive fn reported s) {i : Nat} {b : Background F}
    (hb : s.backgroundTasks[i]? = some b) (hfresh : b.started = false) {g : String}
    (hg : b.coro.runGroup = some g) {e : Event} (hother : ∀ g', g' ≠ g → signals g' [e] = []) :
    Attentive fn reported ((s.parkTask i b).record e) := by
  have hidle := h.fresh b (List.mem_of_getElem? hb) g hg hfresh
  refine ⟨h.toHeard.leave g (fun g' hne => ⟨rfl,?_⟩) (fun hidling => ?_),?_⟩
  · exact (signals_append g' s.history [e]).trans (by rw [hother g' hne, List.append_nil])
  · rw [show (s.groups g).idleWaiting = true from hidling.2] at hidle
    cases hidle
  · refine h.fresh.mono (fun b' hb' g' _ hfresh' => .inr ⟨?_,rfl⟩)
    rcases List.mem_append.mp hb' with hb' | hb'
    · exact List.mem_of_mem_eraseIdx hb'
    · rw [List.mem_singleton.mp hb'] at hfresh'
      cases hfresh'

/-- A group whose run has just ended is not active, and no run of it is waiting to begin. -/
theorem Attentive.free {t : GroupQueue F} (h : Attentive fn reported s) {g : String}
    (hf : Freed t g)
    (hother : ∀ g', g' ≠ g → t.groups g' = s.groups g' ∧
      signals g' t.history = signals g' s.history)
    (hruns : ∀ b ∈ t.backgroundTasks, b.coro.runGroup ≠ none → b ∈ s.backgroundTasks) :
    Attentive fn reported t := by
  refine ⟨h.toHeard.leave g hother (fun hidling => ?_),h.fresh.mono (fun b hb g' hg _ => ?_)⟩
  · have hactive := hf.idle.symm.trans hidling.1
    cases hactive
  · by_cases hne : g' = g
    · subst hne
      have hmem : b ∈ t.runsOf g' := mem_runsOf.mpr ⟨hb,hg⟩
      rw [hf.toSlots.runsOf_idle hf.idle] at hmem
      cases hmem
    · refine .inr ⟨hruns b hb (by simp [hg]),by rw [(hother g' hne).1]⟩

theorem freeRunForGroup_views (s : GroupQueue F) (g : String) (outcome : Outcome) :
    (∀ g', g' ≠ g → (s.freeRunForGroup g outcome).groups g' = s.groups g') ∧
    (∀ g', signals g' (s.freeRunForGroup g outcome).history = signals g' s.history) ∧
    ∀ b ∈ (s.freeRunForGroup g outcome).backgroundTasks, b.coro.runGroup ≠ none →
      b ∈ s.backgroundTasks := by
  obtain ⟨k,events,timers,htimers,hevents,he⟩ := settleRetry_eq s g outcome
  have hquiet : ∀ g', signals g' events = [] := by
    intro g'
    apply List.filter_eq_nil_iff.mpr
    intro e hmem
    obtain ⟨d,rfl⟩ := hevents e hmem
    simp
  refine ⟨fun g' hne => ?_,fun g' => ?_,fun b hb hrun => ?_⟩
  · simp [freeRunForGroup, he, setGroup, hne]
  · simp [freeRunForGroup, he, setGroup, hquiet]
  · rw [freeRunForGroup, he] at hb
    rcases List.mem_append.mp hb with hb | hb
    · exact hb
    · obtain ⟨d,rfl⟩ := htimers b hb
      exact absurd rfl hrun

theorem step_attentive {t : GroupQueue F} {a : Action F} (hinv : Inv s)
    (ht : t.shuttingDown = false) (hfn : s.closeStdinFn = fn) (h : Attentive fn reported s)
    (hinside : CalledInside s a) (hnow : ∀ g, a = .notifyIdle g → reported g (calls g s.history))
    (hstep : step s a = some t) : Attentive fn reported t := by
  have hended : ∀ i b g outcome, s.backgroundTasks[i]? = some b → b.coro = .runForGroup g →
      ∀ l, (∀ g', signals g' l = signals g' s.history) →
      Attentive fn reported (GroupQueue.endRunForGroup { s.dropTask i with history := l } g outcome) := by
    intro i b g outcome hb hg l hl
    have hf := freeRunForGroup_freed hinv hb hg l rfl outcome
    obtain ⟨hgroups,hsignals,hruns⟩ :=
      freeRunForGroup_views { s.dropTask i with history := l } g outcome
    refine hf.attentive (h.free hf (fun g' hne => ⟨hgroups g' hne,?_⟩) (fun b' hb' hrun => ?_))
    · exact (hsignals g').trans (hl g')
    · exact List.mem_of_mem_eraseIdx (hruns b' hb' hrun)
  have hdrop : ∀ i, Attentive fn reported (s.dropTask i) := fun i =>
    ⟨h.toHeard.keep (fun _ => ⟨rfl,rfl,rfl⟩) (fun _ => rfl),
      h.fresh.mono (fun b hb _ _ _ => .inr ⟨List.mem_of_mem_eraseIdx hb,rfl⟩)⟩
  cases a with
  | enqueueMessageCheck g => cases hstep; exact enqueueMessageCheck_attentive h g
  | enqueueTask g taskId task => cases hstep; exact enqueueTask_attentive h hfn g taskId task
  | notifyIdle g =>
    cases hstep
    exact ⟨notifyIdle_heard h.toHeard hfn (hnow g rfl),notifyIdle_fresh h.fresh hinv.toSlots hinside⟩
  | begin i =>
    obtain ⟨b,hb,hfresh,_,hc⟩ := begin_cases hstep
    rcases hc with ⟨g,hg,_,rfl⟩ | ⟨g,hg,_,rfl⟩ | ⟨g,task,hg,rfl⟩ | ⟨hg,rfl⟩
    · refine invoke_attentive h hb hfresh (g := g) (by rw [hg]; rfl) (fun g' hne => ?_)
      simp [signals, Ne.symm hne]
    · exact hended i b g .success hb hg s.history (fun _ => rfl)
    · refine invoke_attentive h hb hfresh (g := g) (by rw [hg]; rfl) (fun g' hne => ?_)
      simp [signals, Ne.symm hne]
    · refine ⟨h.toHeard.keep (fun _ => ⟨rfl,rfl,rfl⟩) (fun _ => rfl),?_⟩
      refine h.fresh.mono (fun b' hb' g' hg' hfresh' => .inr ⟨?_,rfl⟩)
      rcases List.mem_append.mp hb' with hb' | hb'
      · exact List.mem_of_mem_eraseIdx hb'
      · rw [List.mem_singleton.mp hb'] at hfresh'
        cases hfresh'
  | finish i outcome =>
    obtain ⟨b,hb,_,hc⟩ := finish_cases hstep
    rcases hc with ⟨g,hg,rfl⟩ | ⟨g,task,hg,rfl⟩
    · refine hended i b g outcome hb hg _ (fun g' => ?_)
      exact (signals_append g' s.history _).trans (List.append_nil _)
    · have hf := freeRunTask_freed hinv hb hg
      refine hf.attentive ((hdrop i).free hf (fun g' hne => ⟨?_,rfl⟩) (fun b' hb' _ => hb'))
      simp [freeRunTask, setGroup, hne]
  | fireRetry i =>
    obtain ⟨b,g,d,hb,hg,rfl⟩ := fireRetry_cases hstep
    split
    · exact hdrop i
    · exact enqueueMessageCheck_attentive (hdrop i) g
  | shutdown => cases hstep; cases ht
  | dropCancelled i =>
    obtain ⟨b,_,_,_,rfl⟩ := dropCancelled_cases hstep
    exact hdrop i

/-- After shutdown runs still report, and no other run takes their place. -/
theorem Stopped.step_heard {t : GroupQueue F} {a : Action F} (hs : Stopped s)
    (hfn : s.closeStdinFn = fn) (h : Heard fn reported s)
    (hnow : ∀ g, a = .notifyIdle g → reported g (calls g s.history))
    (hstep : GroupQueue.step s a = some t) : Heard fn reported t := by
  have hleave : ∀ (u : GroupQueue F) g, Heard fn reported u →
      ∀ v : GroupQueue F, (∀ g', g' ≠ g → v.groups g' = u.groups g') →
      (∀ g', signals g' v.history = signals g' u.history) → (v.groups g).active = false →
      Heard fn reported v := by
    intro u g hu v hgroups hsignals hidle
    refine hu.leave g (fun g' hne => ⟨hgroups g' hne,hsignals g'⟩) (fun hidling => ?_)
    have hactive := hidle.symm.trans hidling.1
    cases hactive
  rcases hs.step_cases hstep with rfl | rfl | ⟨g,ha,rfl⟩ | ⟨i,b,_,hc⟩
  · exact h
  · exact h.keep (fun _ => ⟨rfl,rfl,rfl⟩) (fun _ => rfl)
  · exact notifyIdle_heard h hfn (hnow g ha)
  · have hdrop : Heard fn reported (s.dropTask i) := h.keep (fun _ => ⟨rfl,rfl,rfl⟩) (fun _ => rfl)
    rcases hc with rfl | ⟨_,rfl⟩ | ⟨g,outcome,_,rfl⟩ | ⟨g,task,_,rfl⟩
    · exact hdrop
    · exact h.keep (fun _ => ⟨rfl,rfl,rfl⟩) (fun _ => rfl)
    · obtain ⟨hgroups,hsignals,_⟩ :=
        freeRunForGroup_views ((s.dropTask i).record (.messagesEnded g outcome)) g outcome
      refine hleave _ g hdrop _ hgroups (fun g' => ?_) (by simp [freeRunForGroup, setGroup])
      refine (hsignals g').trans ?_
      exact (signals_append g' s.history _).trans (List.append_nil _)
    · exact hleave _ g hdrop _ (fun g' hne => by simp [freeRunTask, setGroup, hne]) (fun _ => rfl)
        (by simp [freeRunTask, setGroup])

end Moves

section Signals
variable (s : GroupQueue F) (g g' : String)

theorem signals_enterWaiting : signals g' (s.enterWaiting g).history = signals g' s.history := by
  unfold enterWaiting
  split
  · rfl
  · exact (signals_append g' s.history _).trans (List.append_nil _)

theorem signals_enqueueMessageCheck :
    signals g' (s.enqueueMessageCheck g).history = signals g' s.history := by
  have hrecord : signals g' (s.record (.checkAccepted g)).history = signals g' s.history :=
    (signals_append g' s.history _).trans (List.append_nil _)
  rcases enqueueMessageCheck_cases s g with ⟨_,he⟩ | ⟨_,he⟩ | ⟨_,_,he⟩ | ⟨_,_,he⟩ <;> rw [he]
  · exact hrecord
  · exact (signals_enterWaiting _ g g').trans hrecord
  · exact hrecord

theorem signals_drainGroup : signals g' (s.drainGroup g).history = signals g' s.history := by
  refine drainGroup_rule (P := fun t => signals g' t.history = signals g' s.history) ?_ ?_ rfl
  · intro t g rest _ h
    exact ((signals_append g' t.history _).trans (List.append_nil _)).trans h
  · intro t g h
    rw [startPending_history]
    exact h

theorem signals_endRunForGroup (outcome : Outcome) :
    signals g' (s.endRunForGroup g outcome).history = signals g' s.history :=
  (signals_drainGroup _ g g').trans ((freeRunForGroup_views s g outcome).2.1 g')

end Signals

/-- A task that comes to an idle run asks it to close, and no other task does. -/
theorem enqueueTask_signals (s : GroupQueue F) (g taskId : String) (task : F) :
    (∀ g', signals g' (s.enqueueTask g taskId task).history = signals g' s.history) ∨
    (s.shuttingDown = false ∧ Idling s g ∧
      (s.enqueueTask g taskId task).history = s.history ++ [.taskAccepted g taskId,.stdinClosed g] ∧
      ((s.enqueueTask g taskId task).groups g).pendingTasks ≠ [] ∧
      (s.enqueueTask g taskId task).backgroundTasks = s.backgroundTasks) := by
  have hrecord : ∀ g', signals g' (s.record (.taskAccepted g taskId)).history = signals g' s.history :=
    fun g' => (signals_append g' s.history _).trans (List.append_nil _)
  rcases enqueueTask_cases s g taskId task with
    ⟨_,he⟩ | ⟨hopen,_,_,⟨hactive,hidle,he⟩ | ⟨_,_,he⟩ | ⟨_,_,he⟩ | ⟨_,_,he⟩⟩ <;> rw [he]
  · exact .inl (fun _ => rfl)
  · unfold closeStdin
    split
    · refine .inr ⟨hopen,⟨hactive,hidle⟩,?_,?_,rfl⟩
      · simp [addPending, record, setGroup]
      · simp [addPending, record, setGroup]
    · exact .inl hrecord
  · exact .inl hrecord
  · exact .inl (fun g' => (signals_enterWaiting _ g g').trans (hrecord g'))
  · exact .inl hrecord

theorem notifyIdle_signals (s : GroupQueue F) (g : String) :
    (∀ g', signals g' (s.notifyIdle g).history = signals g' s.history) ∨
    ((s.notifyIdle g).history = s.history ++ [.stdinClosed g] ∧
      ((s.notifyIdle g).groups g).pendingTasks ≠ [] ∧
      (s.notifyIdle g).backgroundTasks = s.backgroundTasks) := by
  rcases notifyIdle_cases s g with ⟨_,he⟩ | ⟨hpending,he⟩ <;> rw [he]
  · exact .inl (fun _ => rfl)
  · unfold closeStdin
    split
    · refine .inr ⟨rfl,?_,rfl⟩
      simpa [markIdle, record, setGroup] using hpending
    · exact .inl (fun _ => rfl)

section Steps
variable {s t : GroupQueue F} {a : Action F} {g : String}

private theorem signals_closed {g' : String} (h : t.history = s.history ++ [.stdinClosed g']) :
    signals g t.history = signals g s.history ∨
      (g' = g ∧ signals g t.history = signals g s.history ++ [.stdinClosed g]) := by
  rw [h, signals_append]
  by_cases hg : g' = g
  · subst hg
    exact .inr ⟨rfl,by simp [signals]⟩
  · exact .inl (by simp [signals, hg])

private theorem signals_begun (s : GroupQueue F) (i : Nat) {b : Background F} {g' : String} {e : Event}
    (hg' : b.coro.runGroup = some g') (hloud : signals g' [e] = [e]) (hother : g' ≠ g → signals g [e] = []) :
    signals g ((s.parkTask i b).record e).history = signals g s.history ∨
      (b.coro.runGroup = some g ∧
        signals g ((s.parkTask i b).record e).history = signals g s.history ++ [e]) := by
  have happend : signals g ((s.parkTask i b).record e).history = signals g s.history ++ signals g [e] :=
    signals_append g s.history [e]
  by_cases hg : g' = g
  · subst hg
    exact .inr ⟨hg',by rw [happend, hloud]⟩
  · refine .inl ?_
    rw [happend, hother hg, List.append_nil]

/-- What a move can signal to a group: nothing; a request to close, by an idle report while a task
is pending or for a task that comes to an idle run; or the call of its function. -/
theorem step_signals (hstep : step s a = some t) :
    signals g t.history = signals g s.history ∨
    ((a = .notifyIdle g ∨ (s.shuttingDown = false ∧ Idling s g)) ∧
      (t.groups g).pendingTasks ≠ [] ∧ t.backgroundTasks = s.backgroundTasks ∧
      signals g t.history = signals g s.history ++ [.stdinClosed g]) ∨
    ∃ i b e, s.backgroundTasks[i]? = some b ∧ b.coro.runGroup = some g ∧ b.started = false ∧
      b.cancelled = false ∧ t = (s.parkTask i b).record e ∧ (∀ g', e ≠ .stdinClosed g') ∧
      a = .begin i ∧ signals g t.history = signals g s.history ++ [e] := by
  cases a with
  | enqueueMessageCheck g' => cases hstep; exact .inl (signals_enqueueMessageCheck s g' g)
  | enqueueTask g' taskId task =>
    cases hstep
    rcases enqueueTask_signals s g' taskId task with hquiet | ⟨hopen,hidling,hhistory,hpending,hsame⟩
    · exact .inl (hquiet g)
    · have hrecord : signals g (s.record (.taskAccepted g' taskId)).history = signals g s.history :=
        (signals_append g s.history _).trans (List.append_nil _)
      have hlast : (s.enqueueTask g' taskId task).history =
          (s.record (.taskAccepted g' taskId)).history ++ [.stdinClosed g'] := by
        simp [hhistory, record]
      have hclosed := signals_closed (g := g) hlast
      rw [hrecord] at hclosed
      rcases hclosed with hquiet | ⟨rfl,hasked⟩
      · exact .inl hquiet
      · exact .inr (.inl ⟨.inr ⟨hopen,hidling⟩,hpending,hsame,hasked⟩)
  | notifyIdle g' =>
    cases hstep
    rcases notifyIdle_signals s g' with hquiet | ⟨hhistory,hpending,hsame⟩
    · exact .inl (hquiet g)
    · rcases signals_closed (g := g) hhistory with hquiet | ⟨rfl,hasked⟩
      · exact .inl hquiet
      · exact .inr (.inl ⟨.inl rfl,hpending,hsame,hasked⟩)
  | begin i =>
    obtain ⟨b,hb,hfresh,hlive,hc⟩ := begin_cases hstep
    rcases hc with ⟨g',hg',_,rfl⟩ | ⟨g',_,_,rfl⟩ | ⟨g',task,hg',rfl⟩ | ⟨_,rfl⟩
    · have hbegun := signals_begun (g := g) (e := .messagesInvoked g') s i (by rw [hg']; rfl)
        (by simp [signals]) (fun hne => by simp [signals, hne])
      rcases hbegun with hquiet | ⟨hg,hcalled⟩
      · exact .inl hquiet
      · exact .inr (.inr ⟨i,b,_,hb,hg,hfresh,hlive,rfl,by simp,rfl,hcalled⟩)
    · exact .inl (signals_endRunForGroup (s.dropTask i) g' g .success)
    · have hbegun := signals_begun (g := g) (e := .taskInvoked g' task.id) s i (by rw [hg']; rfl)
        (by simp [signals]) (fun hne => by simp [signals, hne])
      rcases hbegun with hquiet | ⟨hg,hcalled⟩
      · exact .inl hquiet
      · exact .inr (.inr ⟨i,b,_,hb,hg,hfresh,hlive,rfl,by simp,rfl,hcalled⟩)
    · exact .inl rfl
  | finish i outcome =>
    obtain ⟨b,hb,_,hc⟩ := finish_cases hstep
    rcases hc with ⟨g',_,rfl⟩ | ⟨g',task,_,rfl⟩
    · refine .inl ((signals_endRunForGroup _ g' g outcome).trans ?_)
      exact (signals_append g s.history _).trans (List.append_nil _)
    · exact .inl (signals_drainGroup ((s.dropTask i).freeRunTask g') g' g)
  | fireRetry i =>
    obtain ⟨b,g',d,_,_,rfl⟩ := fireRetry_cases hstep
    split
    · exact .inl rfl
    · exact .inl (signals_enqueueMessageCheck (s.dropTask i) g' g)
  | shutdown => cases hstep; exact .inl rfl
  | dropCancelled i =>
    obtain ⟨b,_,_,_,rfl⟩ := dropCancelled_cases hstep
    exact .inl rfl

/-- A request to close is made by an idle report while a task is pending, or for a task that comes
to an idle run. -/
theorem step_closes (hstep : step s a = some t) {post : List Event}
    (hpost : t.history = s.history ++ post) (hmem : .stdinClosed g ∈ post) :
    (a = .notifyIdle g ∨ (s.shuttingDown = false ∧ Idling s g)) ∧
      (t.groups g).pendingTasks ≠ [] ∧ t.backgroundTasks = s.backgroundTasks ∧
      calls g t.history = calls g s.history := by
  have hsignal : .stdinClosed g ∈ signals g post := by simp [signals, hmem]
  have hsplit : signals g t.history = signals g s.history ++ signals g post := by
    rw [hpost, signals_append]
  rcases step_signals (g := g) hstep with
    hquiet | ⟨hwho,hpending,hsame,hasked⟩ | ⟨_,_,e,_,_,_,_,_,he,_,hcalled⟩
  · rw [List.append_right_eq_self.mp (hsplit.symm.trans hquiet)] at hsignal
    cases hsignal
  · refine ⟨hwho,hpending,hsame,?_⟩
    rw [calls, hasked, calls, List.countP_append]
    simp
  · rw [List.append_cancel_left (hsplit.symm.trans hcalled), List.mem_singleton] at hsignal
    exact absurd hsignal.symm (he g)

end Steps

/-- An idle report of a group, after which no run of it has called its function: `n` calls in all. -/
def Reported (s₀ : GroupQueue F) (as : List (Action F)) (g : String) (n : Nat) : Prop :=
  ∃ xs ys u, as = xs ++ .notifyIdle g :: ys ∧ exec step s₀ xs = some u ∧ calls g u.history = n

/-- A group's run whose function has been called and has not ended. -/
def InFlight (s : GroupQueue F) (g : String) : Prop := ∃ b ∈ s.runsOf g, b.started = true

theorem Reported.snoc {s₀ : GroupQueue F} {as : List (Action F)} {g : String} {n : Nat}
    (h : Reported s₀ as g n) (a : Action F) : Reported s₀ (as ++ [a]) g n := by
  obtain ⟨xs,ys,u,rfl,hu,hn⟩ := h
  exact ⟨xs,ys ++ [a],u,by simp,hu,hn⟩

/-- What holds after a run of the queue, with the runs that wait to begin only before shutdown. -/
structure Watched (s₀ : GroupQueue F) (fn : Bool) (as : List (Action F)) (s : GroupQueue F) : Prop where
  heard : Heard fn (Reported s₀ as) s
  phase : (s.shuttingDown = false ∧ Inv s ∧ Fresh s) ∨ Stopped s

theorem Watched.inFlight {s₀ s : GroupQueue F} {fn : Bool} {as : List (Action F)}
    (h : Watched s₀ fn as s) (hopen : s.shuttingDown = false) {g : String} (hg : Idling s g) :
    InFlight s g := by
  rcases h.phase with ⟨_,hinv,hfresh⟩ | hstopped
  · obtain ⟨b,hb⟩ := hinv.toSlots.runsOf_active hg.1
    have hmem : b ∈ s.runsOf g := by simp [hb]
    refine ⟨b,hmem,?_⟩
    obtain ⟨hin,hrun⟩ := mem_runsOf.mp hmem
    by_contra hstarted
    have hidle := hfresh b hin g hrun (Bool.eq_false_iff.mpr hstarted)
    rw [show (s.groups g).idleWaiting = true from hg.2] at hidle
    cases hidle
  · rw [hstopped.shut] at hopen
    cases hopen

theorem Watched.step {s₀ s t : GroupQueue F} {fn : Bool} {as : List (Action F)} {a : Action F}
    (h : Watched s₀ fn as s) (hfn : s.closeStdinFn = fn) (he : exec GroupQueue.step s₀ as = some s)
    (hinside : CalledInside s a) (hstep : GroupQueue.step s a = some t) :
    Watched s₀ fn (as ++ [a]) t := by
  have hlater := h.heard.weaken (fun g n hr => hr.snoc a)
  have hnow : ∀ g, a = .notifyIdle g → Reported s₀ (as ++ [a]) g (calls g s.history) := by
    rintro g rfl
    exact ⟨as,[],s,rfl,he,rfl⟩
  rcases h.phase with ⟨hopen,hinv,hfresh⟩ | hstopped
  · rcases step_settings hstep with hsame | rfl
    · have ht : t.shuttingDown = false := (congrArg Settings.shuttingDown hsame).trans hopen
      have hattentive := step_attentive hinv ht hfn ⟨hlater,hfresh⟩ hinside hnow hstep
      exact ⟨hattentive.toHeard,.inl ⟨ht,step_inv hinv hopen ht hstep,hattentive.fresh⟩⟩
    · cases hstep
      exact ⟨hlater.keep (fun _ => ⟨rfl,rfl,rfl⟩) (fun _ => rfl),.inr (stopped_shutdown s)⟩
  · exact ⟨hstopped.step_heard hfn hlater hnow hstep,.inr (hstopped.step hstep)⟩

/-- In every run in which idle reports come from runs in flight: an active group that is idle and
has a task pending was asked to close since its run called its function; and a request to close is
made only while a run is in flight, a task is pending and the run has reported that it is idle. -/
theorem preemption_exact {maxC maxR base maxMs : Int} {p c : Bool} {as : List (Action F)}
    {s : GroupQueue F} (hC : Allowed step CalledInside (init maxC maxR base maxMs p c) as)
    (h : exec step (init maxC maxR base maxMs p c) as = some s) :
    (∀ g, (s.groups g).active = true → (s.groups g).idleWaiting = true →
      (s.groups g).pendingTasks ≠ [] → c = true →
      (signals g s.history).getLast? = some (.stdinClosed g)) ∧
    (∀ a t g post, CalledInside s a → step s a = some t → t.history = s.history ++ post →
      .stdinClosed g ∈ post → InFlight t g ∧ (t.groups g).pendingTasks ≠ [] ∧
        Reported (init maxC maxR base maxMs p c) (as ++ [a]) g (calls g t.history)) := by
  have hfn : ∀ u : GroupQueue F, Reachable step (init maxC maxR base maxMs p c) u → u.closeStdinFn = c :=
    fun u hu => congrArg Settings.closeStdinFn (reachable_limits hu)
  have hs := allowed_trace_invariant (P := Watched (init maxC maxR base maxMs p c) c) ?_ ?_ hC h
  · refine ⟨fun g hactive hidle hpending hc => ?_,fun a t g post hinside hstep hpost hmem => ?_⟩
    · exact hs.heard.asked g ⟨hactive,hidle⟩ hpending hc
    · obtain ⟨hwho,hpending,hsame,hcalls⟩ := step_closes hstep hpost hmem
      rw [InFlight, runsOf, hsame, hcalls]
      rcases hwho with rfl | ⟨hopen,hidling⟩
      · obtain ⟨b,hb,hg,hstarted⟩ := hinside
        exact ⟨⟨b,by simp [hb, hg],hstarted⟩,hpending,as,[],s,rfl,h,rfl⟩
      · refine ⟨hs.inFlight hopen hidling,hpending,?_⟩
        exact (hs.heard.told g hidling).snoc a
  · intro as s a t he hs hinside hstep
    exact hs.step (hfn s ⟨as,he⟩) he hinside hstep
  · refine ⟨⟨fun g hg => ?_,fun g hg => ?_⟩,.inl ⟨rfl,inv_init maxC maxR base maxMs p c,?_⟩⟩
    · cases hg.1
    · cases hg.1
    · intro b hb
      cases hb

theorem preemption_exact_task_first :
    ∃ s : GroupQueue Unit, exec step (init 1 5 10 300000 true true)
        [.enqueueMessageCheck "a",.begin 0,.enqueueTask "a" "t" (),.notifyIdle "a"] = some s ∧
      (signals "a" s.history).getLast? = some (.stdinClosed "a") := by
  refine ⟨_,rfl,?_⟩
  have hC : Allowed step CalledInside (init 1 5 10 300000 true true)
      [.enqueueMessageCheck "a",.begin 0,.enqueueTask "a" "t" (),.notifyIdle "a"] :=
    .cons trivial rfl (.cons trivial rfl (.cons trivial rfl
      (.cons ⟨_,List.mem_singleton_self _,rfl,rfl⟩ rfl trivial)))
  have h := @preemption_exact Unit 1 5 10 300000 true true _ _ hC rfl
  exact h.1 "a" rfl rfl (by decide) rfl

end NanoClaw.GroupQueue
