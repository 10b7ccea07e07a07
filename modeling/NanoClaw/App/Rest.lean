import NanoClaw.App.Service
import NanoClaw.Queue.Paths

/-! Without new messages and new tasks the system comes to rest: its coroutines make a bounded number of
moves, and when none can move, none is left. -/
namespace NanoClaw.App.Service
open Store Execution
variable {F : Type}

/-- Every action but a message and a task from outside. -/
def Action.internal : Action F → Prop
  | .inbound _ _ | .enqueueTask _ _ _ => False
  | _ => True

/-- The moves of coroutines. -/
def Action.moves : Action F → Bool
  | .begin _ _ | .finish _ _ | .fail _ _ | .finishTask _ _ | .fireRetry _ => true
  | _ => false

/-- A run that waits for its call has one in flight. -/
def Called (s : Service F) : Prop := ∀ g, Calling s.queue g → (s.flights g).isSome

/-- The run of the queue that an action of the system makes. -/
abbrev Path (s : Service F) (a : Action F) (t : Service F) (path : List (GroupQueue.Action F)) : Prop :=
  GroupQueue.Path s.queue t.queue a.internal a.moves path

section Paths
variable {cfg : Config} {s t u : Service F} {i : Nat} {g : String} {read : List NewMessage} {done : Ending}
  {ended : Except PyExc Bool}

theorem endCall_finish (h : s.endCall i g read done ended = some t) :
    GroupQueue.step s.queue (.finish i (outcomeOf ended)) = some t.queue := by
  obtain ⟨queue,hfinish,rfl⟩ := Option.map_eq_some_iff.mp h
  exact hfinish

theorem begin_path {allowlist : SenderAllowlistConfig} (h : s.begin cfg allowlist i = some t) :
    ∃ path, Path s (.begin allowlist i) t path := by
  obtain ⟨queue,hqueue,h⟩ := Option.bind_eq_some_iff.mp h
  have hbegin : GroupQueue.step s.queue (.begin i) = some queue := hqueue
  have hone : ∀ t : Service F, t.queue = queue → ∃ path, Path s (.begin allowlist i) t path := by
    rintro t rfl
    exact ⟨_,GroupQueue.path_one hbegin (by simp) (fun _ => trivial) (fun _ => rfl)⟩
  have htwo {j : Nat} {g : String} {read : List NewMessage} {done : Ending} {ended : Except PyExc Bool}
      (h : { s with queue }.endCall j g read done ended = some t) : ∃ path,
        Path s (.begin allowlist i) t path := by
    refine ⟨[.begin i,.finish j (outcomeOf ended)],?_,by simp,fun _ x hx => ?_,Nat.succ_pos _⟩
    · have hfinish : GroupQueue.step queue (.finish j (outcomeOf ended)) = some t.queue := endCall_finish h
      rw [exec, hbegin, Option.bind_some, exec, hfinish]
      rfl
    · rcases List.mem_pair.mp hx with rfl | rfl <;> trivial
  dsimp only at h
  split at h
  · split at h
    · cases h
      exact hone _ rfl
    · exact htwo h
    · exact htwo h
  · cases h
    exact hone _ rfl

/-- The queue of the system moves as the queue does. -/
theorem step_path {a : Action F} (h : step cfg s a = some t) : ∃ path, Path s a t path := by
  cases a with
  | inbound allowlist m =>
    rw [step] at h
    split_ifs at h with htakes
    · cases h
      refine ⟨_,GroupQueue.path_one (x := .enqueueMessageCheck m.chatJid) rfl (by simp) (fun ha => by cases ha) (fun ha => ?_)⟩
      cases ha
    · cases h
      exact ⟨_,GroupQueue.path_nil rfl rfl⟩
  | post jid text uuid now failure =>
    rw [step] at h
    split at h <;> cases h <;> exact ⟨_,GroupQueue.path_nil rfl rfl⟩
  | enqueueTask g taskId fn =>
    cases h
    refine ⟨_,GroupQueue.path_one (x := .enqueueTask g taskId fn) rfl (by simp) (fun ha => by cases ha) (fun ha => ?_)⟩
    cases ha
  | notifyIdle g =>
    cases h
    exact ⟨_,GroupQueue.path_one (x := .notifyIdle g) rfl (by simp) (fun _ => trivial) (fun ha => by cases ha)⟩
  | begin allowlist i => exact begin_path h
  | output i out uuid now failure =>
    obtain ⟨⟨g,flight⟩,_,h⟩ := Option.bind_eq_some_iff.mp h
    dsimp only at h
    split at h
    · exact ⟨_,GroupQueue.path_one (endCall_finish h) (by simp) (fun _ => trivial) (fun _ => rfl)⟩
    · cases h
      by_cases hsuccess : out.status = "success"
      · refine ⟨_,GroupQueue.path_one (x := .notifyIdle g) ?_ (by simp) (fun _ => trivial) (fun ha => by cases ha)⟩
        rw [if_pos hsuccess]
        rfl
      · exact ⟨_,GroupQueue.path_nil rfl (if_neg hsuccess)⟩
  | finish i result =>
    obtain ⟨⟨g,flight⟩,_,h⟩ := Option.bind_eq_some_iff.mp h
    have hqueue := endCall_finish (s := { s with app := (finishRun s.app flight.run result).1 }) h
    exact ⟨_,GroupQueue.path_one hqueue (by simp) (fun _ => trivial) (fun _ => rfl)⟩
  | fail i exc =>
    obtain ⟨⟨g,flight⟩,_,h⟩ := Option.bind_eq_some_iff.mp h
    exact ⟨_,GroupQueue.path_one (endCall_finish h) (by simp) (fun _ => trivial) (fun _ => rfl)⟩
  | finishTask i outcome =>
    rw [step] at h
    split at h
    · obtain ⟨queue,hqueue,rfl⟩ := Option.map_eq_some_iff.mp h
      exact ⟨_,GroupQueue.path_one (x := .finish i outcome) hqueue (by simp) (fun _ => trivial) (fun _ => rfl)⟩
    · cases h
  | fireRetry i =>
    obtain ⟨queue,hqueue,rfl⟩ := Option.map_eq_some_iff.mp h
    exact ⟨_,GroupQueue.path_one (x := .fireRetry i) hqueue (by simp) (fun _ => trivial) (fun _ => rfl)⟩

end Paths

section Calls
variable {cfg : Config} {s t : Service F} {i : Nat} {g : String}

theorem calling_of_step {queue queue' : GroupQueue F} {x : GroupQueue.Action F} (hx : x ≠ .shutdown)
    (hbegin : ∀ i b, x = .begin i → queue.backgroundTasks[i]? = some b → b.coro ≠ .runForGroup g)
    (hstep : GroupQueue.step queue x = some queue') (h : Calling queue' g) : Calling queue g := by
  obtain ⟨b,hb,hcoro⟩ := h
  rcases GroupQueue.mem_parked_step hx hb hstep with hold | ⟨i,b',rfl,hb',he⟩
  · exact ⟨b,hold,hcoro⟩
  · exact absurd (he ▸ hcoro) (hbegin i b' rfl hb')

/-- With its call the group's run has ended. -/
theorem called_endCall {b : Background F} {read : List NewMessage} {done : Ending}
    {ended : Except PyExc Bool} (hslots : GroupQueue.Slots s.queue)
    (hb : s.queue.backgroundTasks[i]? = some b) (hcoro : b.coro = .runForGroup g)
    (h : ∀ g', g' ≠ g → Calling s.queue g' → (s.flights g').isSome)
    (hend : s.endCall i g read done ended = some t) : Called t := by
  obtain ⟨queue,hfinish,rfl⟩ := Option.map_eq_some_iff.mp hend
  have hstep : GroupQueue.step s.queue (.finish i (outcomeOf ended)) = some queue := hfinish
  intro g' hcalling
  have hne : g' ≠ g := by
    rintro rfl
    obtain ⟨b',hb',hcoro'⟩ := hcalling
    exact GroupQueue.finish_unparked hslots hb (by rw [hcoro]; rfl) hstep b' hb' (by rw [hcoro']; rfl)
  have hold := h g' hne (calling_of_step (by simp) (by simp) hstep hcalling)
  simpa [setFlight, hne] using hold

theorem Called.moveQueue (h : Called s) {queue : GroupQueue F} {x : GroupQueue.Action F}
    (hx : x ≠ .shutdown)
    (hbegin : ∀ i b g, x = .begin i → s.queue.backgroundTasks[i]? = some b → b.coro ≠ .runForGroup g)
    (hstep : GroupQueue.step s.queue x = some queue) : Called { s with queue } :=
  fun g hg => h g (calling_of_step hx (fun i b hi hb => hbegin i b g hi hb) hstep hg)

theorem Called.begin (h : Called s) (hruns : Runs s.queue) {allowlist : SenderAllowlistConfig}
    (hstep : step cfg s (.begin allowlist i) = some t) : Called t := by
  obtain ⟨queue,hqueue,hstep⟩ := Option.bind_eq_some_iff.mp hstep
  have hbegin : GroupQueue.step s.queue (.begin i) = some queue := hqueue
  obtain ⟨⟨coro,started,cancelled⟩,hb,_⟩ := GroupQueue.begin_cases hqueue
  simp only [hb] at hstep
  have hother (hcoro : ∀ g, coro ≠ .runForGroup g) : Called { s with queue } := by
    refine h.moveQueue (by simp) (fun j b' g hj hb' => ?_) hbegin
    cases hj
    rw [hb] at hb'
    cases hb'
    exact hcoro g
  cases coro with
  | runTask g task => cases hstep; exact hother (by simp)
  | retry g d => cases hstep; exact hother (by simp)
  | runForGroup g =>
    have hbegun := hruns.begun hb rfl hqueue
    obtain ⟨b,hlast,_,hcoro⟩ := hbegun.parked
    have hrest (g' : String) (hne : g' ≠ g) (hcalling : Calling queue g') : (s.flights g').isSome := by
      refine h g' (calling_of_step (by simp) (fun j b' hj hb' hcoro' => ?_) hbegin hcalling)
      cases hj
      rw [hb] at hb'
      cases hb'
      cases hcoro'
      exact hne rfl
    dsimp only at hstep
    split at hstep
    · cases hstep
      intro g' hcalling
      by_cases hne : g' = g
      · simp [setFlight, hne]
      · simpa [setFlight, hne] using hrest g' hne hcalling
    · exact called_endCall (s := { s with queue }) hbegun.runs.inv.toSlots hlast hcoro hrest hstep
    · exact called_endCall (s := { s with queue }) hbegun.runs.inv.toSlots hlast hcoro hrest hstep

theorem step_called {a : Action F} (h : Called s) (hruns : Runs s.queue)
    (hstep : step cfg s a = some t) : Called t := by
  have hended {i : Nat} {g : String} {flight : Flight} {x : AppState} {read : List NewMessage}
      {done : Ending} {ended : Except PyExc Bool} (hcall : s.call i = some (g,flight))
      (hend : { s with app := x }.endCall i g read done ended = some t) : Called t := by
    obtain ⟨b,hb,hcoro,_⟩ := call_spec hcall
    exact called_endCall (s := { s with app := x }) hruns.inv.toSlots hb hcoro (fun g' _ => h g') hend
  cases a with
  | inbound allowlist m =>
    rw [step] at hstep
    split_ifs at hstep
    · cases hstep
      exact h.moveQueue (x := .enqueueMessageCheck m.chatJid) (by simp) (by simp) rfl
    · cases hstep
      exact h
  | post jid text uuid now failure =>
    rw [step] at hstep
    split at hstep <;> cases hstep <;> exact h
  | enqueueTask g taskId fn =>
    cases hstep
    exact h.moveQueue (x := .enqueueTask g taskId fn) (by simp) (by simp) rfl
  | notifyIdle g =>
    cases hstep
    exact h.moveQueue (x := .notifyIdle g) (by simp) (by simp) rfl
  | begin allowlist i => exact h.begin hruns hstep
  | output i out uuid now failure =>
    obtain ⟨⟨g,flight⟩,hcall,hstep⟩ := Option.bind_eq_some_iff.mp hstep
    dsimp only at hstep
    split at hstep
    · exact hended hcall hstep
    · rename_i app run _
      have hset : Called ({ s with app }.setFlight g (some { flight with run })) := by
        intro g' hcalling
        by_cases hne : g' = g
        · simp [setFlight, hne]
        · simpa [setFlight, hne] using h g' hcalling
      cases hstep
      split_ifs
      · exact hset.moveQueue (x := .notifyIdle g) (by simp) (by simp) rfl
      · exact hset
  | finish i result =>
    obtain ⟨⟨g,flight⟩,hcall,hstep⟩ := Option.bind_eq_some_iff.mp hstep
    exact hended hcall hstep
  | fail i exc =>
    obtain ⟨⟨g,flight⟩,hcall,hstep⟩ := Option.bind_eq_some_iff.mp hstep
    exact hended (x := s.app) hcall hstep
  | finishTask i outcome =>
    rw [step] at hstep
    split at hstep
    · obtain ⟨queue,hqueue,rfl⟩ := Option.map_eq_some_iff.mp hstep
      exact h.moveQueue (x := .finish i outcome) (by simp) (by simp) hqueue
    · cases hstep
  | fireRetry i =>
    obtain ⟨queue,hqueue,rfl⟩ := Option.map_eq_some_iff.mp hstep
    exact h.moveQueue (x := .fireRetry i) (by simp) (by simp) hqueue

end Calls

section Rest
variable {cfg : Config} {s t : Service F}

theorem endCall_isSome {i : Nat} {g : String} {b : Background F} {read : List NewMessage} {done : Ending}
    {ended : Except PyExc Bool} (hb : s.queue.backgroundTasks[i]? = some b) (hstarted : b.started = true)
    (hcoro : b.coro = .runForGroup g) : (s.endCall i g read done ended).isSome := by
  simp [endCall, GroupQueue.finish, hb, hstarted, hcoro]

theorem begin_isSome {i : Nat} {b : Background F} {allowlist : SenderAllowlistConfig} (hruns : Runs s.queue)
    (hb : s.queue.backgroundTasks[i]? = some b) (hfresh : b.started = false)
    (hlive : b.cancelled = false) : (s.begin cfg allowlist i).isSome := by
  have hqueue : (s.queue.begin i).isSome := by
    simp only [GroupQueue.begin, hb, hfresh, hlive]
    rcases b.coro with g | ⟨g,task⟩ | ⟨g,d⟩ <;> simp [hruns.calls]
  obtain ⟨queue,hqueue⟩ := Option.isSome_iff_exists.mp hqueue
  rw [Service.begin, hqueue, Option.bind_some, hb]
  obtain ⟨coro,started,cancelled⟩ := b
  cases coro with
  | runTask g task => rfl
  | retry g d => rfl
  | runForGroup g =>
    obtain ⟨last,hlast,hstarted,hcoro⟩ := (hruns.begun hb rfl hqueue).parked
    dsimp only
    split
    · rfl
    · exact endCall_isSome (s := { s with queue }) hlast hstarted hcoro
    · exact endCall_isSome (s := { s with queue }) hlast hstarted hcoro

/-- While a coroutine is left, one of them can move. -/
theorem empty_of_stuck (hruns : Runs s.queue) (hcalled : Called s)
    (hstuck : ∀ a : Action F, a.moves = true → step cfg s a = none) : s.queue.backgroundTasks = [] := by
  by_contra hne
  obtain ⟨b,bs,hb⟩ := List.exists_cons_of_ne_nil hne
  have hzero : s.queue.backgroundTasks[0]? = some b := by rw [hb]; rfl
  have hmem : b ∈ s.queue.backgroundTasks := List.mem_of_getElem? hzero
  have hlive := hruns.inv.uncancelled b hmem
  cases hs : b.started with
  | false =>
    have hbegin : (step cfg s (.begin everyone 0)).isSome :=
      begin_isSome hruns hzero hs hlive
    rw [hstuck _ rfl] at hbegin
    cases hbegin
  | true =>
    cases hc : b.coro with
    | runForGroup g =>
      obtain ⟨flight,hflight⟩ := Option.isSome_iff_exists.mp
        (hcalled g ⟨b,GroupQueue.mem_parked.mpr ⟨hmem,hs⟩,hc⟩)
      obtain ⟨coro,started,cancelled⟩ := b
      cases hc
      cases hs
      have hcall : s.call 0 = some (g,flight) := by simp [call, hzero, hflight]
      have hfail := hstuck (.fail 0 .runtimeError) rfl
      rw [step, hcall, Option.bind_some] at hfail
      have hend : (s.endCall 0 g flight.read .committed (.error .runtimeError)).isSome :=
        endCall_isSome hzero rfl rfl
      dsimp only at hfail
      rw [hfail] at hend
      cases hend
    | runTask g task =>
      obtain ⟨coro,started,cancelled⟩ := b
      cases hc
      cases hs
      have hfinish := hstuck (.finishTask 0 .success) rfl
      simp [step, hzero, GroupQueue.finish] at hfinish
    | retry g d =>
      have hfire := hstuck (.fireRetry 0) rfl
      simp [step, GroupQueue.fireRetry, hzero, hs, hlive, hc] at hfire

theorem reachable_recover (queue : GroupQueue F) (jids : List String) :
    Reachable GroupQueue.step queue (jids.foldl GroupQueue.enqueueMessageCheck queue) ∧
      (jids.foldl GroupQueue.enqueueMessageCheck queue).parked = queue.parked := by
  induction jids generalizing queue with
  | nil => exact ⟨Reachable.refl _ queue,rfl⟩
  | cons jid jids ih =>
    obtain ⟨⟨path,hpath⟩,hparked⟩ := ih (queue.enqueueMessageCheck jid)
    refine ⟨⟨.enqueueMessageCheck jid :: path,hpath⟩,?_⟩
    exact hparked.trans (GroupQueue.parked_enqueueMessageCheck queue jid)

theorem reachable_called {maxC maxR base maxMs : Int} {c : Bool} {app : AppState}
    (h : Reachable (step cfg) (start cfg (GroupQueue.init maxC maxR base maxMs true c) app) s) : Called s := by
  refine (h.invariant (P := fun s => Called s ∧ Inv cfg s) ?_ ⟨?_,?_⟩).1
  · rintro s a t ⟨hcalled,hinv⟩ hstep
    exact ⟨step_called hcalled hinv.runs hstep,step_inv hinv hstep⟩
  · rintro g ⟨b,hb,_⟩
    rw [show (start cfg (GroupQueue.init maxC maxR base maxMs true c) app).queue.parked = [] from
      (reachable_recover _ (recoverPendingMessages cfg app)).2] at hb
    cases hb
  · exact reachable_inv (Reachable.refl _ _)

/-- From wherever the system comes to before a shutdown, and without new messages and new tasks, its
coroutines make a bounded number of moves, whatever the agents do and however the calls end. When none can
move, none is left, and a message is pending only where a last call read it and ended without another to
come. -/
theorem comes_to_rest (cfg : Config) (maxC maxR base maxMs : Int) (c : Bool) (app : AppState)
    (actions : List (Action F)) {s : Service F}
    (he : exec (step cfg) (start cfg (GroupQueue.init maxC maxR base maxMs true c) app) actions = some s) :
    ∃ bound, ∀ as t, (∀ a ∈ as, a.internal) → exec (step cfg) s as = some t →
      as.countP Action.moves ≤ bound ∧
      ((∀ a : Action F, a.moves = true → step cfg t a = none) →
        t.queue.backgroundTasks = [] ∧
          ∀ g, (t.app.registeredGroups.get? g).isSome → ∀ m ∈ t.pending cfg g,
            ∃ look, t.looked g = some look ∧ m ∈ look.read ∧ Over cfg t g look) := by
  have hreach : Reachable (step cfg) (start cfg (GroupQueue.init maxC maxR base maxMs true c) app) s :=
    ⟨actions,he⟩
  have hpaths (s : Service F) (a : Action F) (t : Service F) (h : step cfg s a = some t) :
      ∃ path, Path s a t path := step_path h
  obtain ⟨bound,hbound⟩ := GroupQueue.bounded_of_paths hpaths (GroupQueue.reachable_of_paths hpaths
    (reachable_recover _ (recoverPendingMessages cfg app)).1 hreach)
  refine ⟨bound,fun as t has he => ⟨hbound as t has he,fun hstuck => ?_⟩⟩
  have hinv := reachable_inv (hreach.extend he)
  have hempty := empty_of_stuck hinv.runs (reachable_called (hreach.extend he)) hstuck
  exact ⟨hempty,fun g hg m hm => hinv.at_rest hempty hg hm⟩

/-- Without coroutines nothing moves. -/
theorem stuck_of_empty (hempty : s.queue.backgroundTasks = []) {a : Action F} (hmoves : a.moves = true) :
    step cfg s a = none := by
  match a, hmoves with
  | .begin .., _ | .finish .., _ | .fail .., _ | .finishTask .., _ | .fireRetry _, _ =>
    simp [step, Service.begin, call, GroupQueue.begin, GroupQueue.fireRetry, hempty]

private def oneRetry : List (Action Unit) :=
  [.begin everyone 0,.fail 0 .runtimeError]

/-- The timer of the retry is up, and the agent raises again. -/
private def retried : List (Action Unit) :=
  [.begin everyone 0,.fireRetry 0,.begin everyone 0,.fail 0 .runtimeError]

/-- A system whose agent has just raised, with a retry to come: at rest its message is still pending. -/
theorem comes_to_rest_retry : ∃ (s t : Service Unit) (bound : Nat),
    exec (step localCfg) (start localCfg (GroupQueue.init 1 1 10 10 true true) askedApp) oneRetry = some s ∧
      exec (step localCfg) s retried = some t ∧ retried.countP Action.moves ≤ bound ∧
      t.queue.backgroundTasks = [] ∧ (t.pending localCfg "local:main").length = 1 ∧
      ∀ g, (t.app.registeredGroups.get? g).isSome → ∀ m ∈ t.pending localCfg g,
        ∃ look, t.looked g = some look ∧ m ∈ look.read ∧ Over localCfg t g look := by
  have hruns : (exec (step localCfg) (start localCfg (GroupQueue.init 1 1 10 10 true true) askedApp)
      oneRetry).bind (fun s => (exec (step localCfg) s retried).map (fun t =>
        (t.queue.backgroundTasks.length,(t.pending localCfg "local:main").length))) = some (0,1) := by
    decide +kernel
  obtain ⟨s,hs,hruns⟩ := Option.bind_eq_some_iff.mp hruns
  obtain ⟨t,ht,hruns⟩ := Option.map_eq_some_iff.mp hruns
  obtain ⟨hlength,hpending⟩ := Prod.mk.inj hruns
  obtain ⟨bound,h⟩ := comes_to_rest localCfg 1 1 10 10 true askedApp oneRetry hs
  obtain ⟨hle,hrest⟩ := h retried t (by simp [retried, Action.internal]) ht
  have hempty := List.length_eq_zero_iff.mp hlength
  exact ⟨s,t,bound,hs,ht,hle,hempty,hpending,(hrest (fun a ha => stuck_of_empty hempty ha)).2⟩

end Rest

end NanoClaw.App.Service
