import NanoClaw.Agent.Runner
import NanoClaw.Queue.Quiet

/-! The idle and close handshake of one group: the queue, the call of `run_container_agent` in the
group's run, and its agent. The agent waits for the close sentinel, the queue for an idle report,
and the report for the end of the agent. -/
namespace NanoClaw.Handshake
open Json Framing Runner Execution GroupQueue
variable {F : Type}

/-- Where `run_container_agent` stands: not called yet by the group's run, in `communicate`, between
two calls of `on_output`, or done. -/
inductive HostPhase where
  | before
  | communicating
  | delivering (outputs : List ContainerOutput)
  | returned

/-- `clean` says that no sentinel lay in the directory when the agent was started. -/
structure System (F : Type) where
  queue : GroupQueue F
  host : HostPhase
  agent : Option Agent
  dir : InputDir
  clean : Bool

/-- `spawn` starts the process, `reply` ends a call of `_run_claude`, `poll` is a turn of the agent's
loop and `input` a file that somebody writes. The host reads the outputs when the agent has exited,
hands over one after the other (where there is a text to send, `send_message` may raise), or kills
the agent after the timeout. All other moves are the queue's. -/
inductive Action (F : Type) where
  | queue (a : GroupQueue.Action F)
  | spawn (sessionId : Option String)
  | reply (result : Except String String)
  | poll
  | input (bytes : List UInt8)
  | receive
  | deliver (raises : Bool)
  | timeout

/-- `output.status == "success"`. -/
def succeeded (out : ContainerOutput) : Bool :=
  match out.status with
  | .str status => status == "success"
  | _ => false

section Step
variable (host : Framing.Host) (g : String)

/-- The run of the group whose function has been called, and has not been cancelled. -/
def live (queue : GroupQueue F) : Bool := (queue.runsOf g).any (fun b => b.started && !b.cancelled)

/-- A move of the queue. A call of the group's function has started no process, and a call of
`close_stdin` for the group writes its sentinel. -/
def System.setQueue (s : System F) (queue : GroupQueue F) : System F :=
  { s with
    queue := queue
    host := if calls g s.queue.history < calls g queue.history then .before else s.host
    dir := { s.dir with
      close := s.dir.close || decide (closings g s.queue.history < closings g queue.history) } }

/-- Whether the function of the group's run can end: it waits for no process, or it was cancelled
while it did. -/
def mayEnd (phase : HostPhase) (cancelled : Bool) (outcome : Outcome) : Bool :=
  match phase, outcome with
  | .before, _ | .returned, _ => true
  | _, .cancelled => cancelled
  | _, _ => false

/-- The queue's own moves. Idle reports of the group come from `on_output` only, and those of
another group from its own run. -/
def queueStep (s : System F) (a : GroupQueue.Action F) : Option (System F) :=
  match a with
  | .notifyIdle g' =>
    if g' ≠ g ∧ (s.queue.runsOf g').any (·.started) then
      (s.queue.step (.notifyIdle g')).map (s.setQueue g)
    else none
  | .finish i outcome =>
    match s.queue.backgroundTasks[i]? with
    | none => none
    | some b =>
      if b.coro.runGroup = some g then
        if mayEnd s.host b.cancelled outcome then
          (s.queue.step (.finish i outcome)).map (fun queue =>
            { s.setQueue g queue with host := .returned })
        else none
      else (s.queue.step (.finish i outcome)).map (s.setQueue g)
  | a => (s.queue.step a).map (s.setQueue g)

def step (s : System F) : Action F → Option (System F)
  | .queue a => queueStep g s a
  | .spawn sessionId =>
    match s.host with
    | .before =>
      if live g s.queue then
        some { s with
          host := .communicating
          agent := some ⟨.answering true,sessionId,[]⟩
          clean := !s.dir.close }
      else none
    | _ => none
  | .reply result => (s.agent.bind (·.reply result)).map (fun agent => { s with agent := some agent })
  | .poll =>
    (s.agent.bind (·.poll host.toInterp s.dir)).map (fun (agent,dir) =>
      { s with agent := some agent, dir := dir })
  | .input bytes => some { s with dir := { s.dir with files := s.dir.files ++ [bytes] } }
  | .receive =>
    match s.host, s.agent with
    | .communicating, some agent =>
      match agent.phase with
      | .exited _ =>
        if live g s.queue then
          match extractMarkers host (stdout agent.written) with
          | .ok outputs => some { s with host := .delivering outputs }
          | .error _ => some { s with host := .returned }
        else none
      | _ => none
    | _, _ => none
  | .deliver raises =>
    match s.host with
    | .delivering [] => some { s with host := .returned }
    | .delivering (out :: outputs) =>
      if live g s.queue then
        if raises && out.result.truthy then some { s with host := .returned }
        else if succeeded out then
          some ({ s with host := .delivering outputs }.setQueue g (s.queue.notifyIdle g))
        else some { s with host := .delivering outputs }
      else none
    | _ => none
  | .timeout =>
    match s.host with
    | .communicating =>
      if live g s.queue then
        some { s with
          host := .returned
          agent := s.agent.map (fun agent => { agent with phase := .exited (-9) }) }
      else none
    | _ => none

end Step

/-- Before the first run of the group. -/
def init (queue : GroupQueue F) (files : List (List UInt8)) : System F where
  queue := queue
  host := .returned
  agent := none
  dir := ⟨false,files⟩
  clean := true

/-- The queue before shutdown, in which no run that has not begun is idle, or after it. -/
def Phased (queue : GroupQueue F) : Prop :=
  (queue.shuttingDown = false ∧ Inv queue ∧
    Attentive queue.closeStdinFn (fun _ _ => True) queue) ∨ Stopped queue

theorem Phased.step {queue queue' : GroupQueue F} {a : GroupQueue.Action F} (h : Phased queue)
    (hinside : CalledInside queue a) (hstep : queue.step a = some queue') : Phased queue' := by
  rcases h with ⟨hopen,hinv,hattentive⟩ | hstopped
  · rcases step_settings hstep with hsame | rfl
    · have hopen' := (congrArg Settings.shuttingDown hsame).trans hopen
      have hfn : queue.closeStdinFn = queue'.closeStdinFn :=
        (congrArg Settings.closeStdinFn hsame).symm
      refine .inl ⟨hopen',step_inv hinv hopen hopen' hstep,?_⟩
      exact step_attentive hinv hopen' hfn (hfn ▸ hattentive) hinside (fun _ _ => trivial) hstep
    · cases hstep
      exact .inr (stopped_shutdown queue)
  · exact .inr (hstopped.step hstep)

/-- A run whose function is called is the only one of its group in flight, and is quiet. -/
theorem Phased.called {queue queue' : GroupQueue F} {a : GroupQueue.Action F} {g : String}
    (h : Phased queue) (hstep : queue.step a = some queue') :
    calls g queue'.history = calls g queue.history ∨
      (¬InFlight queue g ∧ ¬Stopped queue ∧ InFlight queue' g ∧ Quiet g queue') := by
  rcases step_calls hstep with hsame | ⟨b,hb,hg,hfresh,hlive,hflight,hquiet⟩
  · exact .inl hsame
  · have hstopped : ¬Stopped queue := by
      intro hstopped
      rw [hstopped.cancelled b hb (by simp [hg])] at hlive
      cases hlive
    obtain ⟨_,hinv,hattentive⟩ := h.resolve_right hstopped
    refine .inr ⟨fun hflying => ?_,hstopped,hflight,hquiet (hattentive.fresh b hb g hg hfresh)⟩
    rw [hinv.toSlots.started_of_inFlight hflying hb hg] at hfresh
    cases hfresh

/-- What holds in every reachable state. Until the agent has exited nobody reports the group idle,
so nobody asks it to close. -/
structure Kept (g : String) (s : System F) : Prop where
  phase : Phased s.queue
  calling : s.host = .before ∨ s.host = .communicating → InFlight s.queue g ∧ Quiet g s.queue
  alive : ∀ agent, s.agent = some agent → agent.Alive → s.host = .communicating ∨
    (s.host = .returned ∧ Stopped s.queue ∧ Quiet g s.queue)
  clean : ∀ agent, s.agent = some agent → agent.Alive → s.clean = true → s.dir.close = false

section Invariant
variable {host : Framing.Host} {g : String} {s t : System F}

theorem Kept.quiet (h : Kept g s) {agent : Agent} (hagent : s.agent = some agent)
    (halive : agent.Alive) : Quiet g s.queue := by
  rcases h.alive agent hagent halive with hhost | ⟨_,_,hquiet⟩
  · exact (h.calling (.inr hhost)).2
  · exact hquiet

/-- A move of the queue that neither reports the group idle nor ends its run. -/
theorem Kept.setQueue (h : Kept g s) {queue : GroupQueue F} {a : GroupQueue.Action F}
    (hinside : CalledInside s.queue a) (ha : a ≠ .notifyIdle g)
    (hend : ∀ i outcome b, a = .finish i outcome → s.queue.backgroundTasks[i]? = some b →
      b.coro.runGroup ≠ some g)
    (hstep : s.queue.step a = some queue) : Kept g (s.setQueue g queue) := by
  have hhost : (s.setQueue g queue).host = s.host ∨
      ((s.setQueue g queue).host = .before ∧ ¬InFlight s.queue g ∧ ¬Stopped s.queue ∧
        InFlight queue g ∧ Quiet g queue) := by
    rcases h.phase.called (g := g) hstep with hsame | hcalled
    · exact .inl (if_neg (by rw [hsame]; omega))
    · by_cases hlt : calls g s.queue.history < calls g queue.history
      · exact .inr ⟨if_pos hlt,hcalled⟩
      · exact .inl (if_neg hlt)
  refine ⟨h.phase.step hinside hstep,fun hcalling => ?_,fun agent hagent halive => ?_,?_⟩
  · rcases hhost with hsame | ⟨_,_,_,hflight,hquiet⟩
    · rw [hsame] at hcalling
      obtain ⟨hflight,hquiet⟩ := h.calling hcalling
      exact ⟨step_inFlight hflight hend hstep,(hquiet.step ha hstep).1⟩
    · exact ⟨hflight,hquiet⟩
  · rcases h.alive agent hagent halive with hcomm | ⟨hreturned,hstopped,hquiet⟩
    · rcases hhost with hsame | ⟨_,hnone,_⟩
      · exact .inl (hsame.trans hcomm)
      · exact absurd (h.calling (.inr hcomm)).1 hnone
    · rcases hhost with hsame | ⟨_,_,hno,_⟩
      · exact .inr ⟨hsame.trans hreturned,hstopped.step hstep,(hquiet.step ha hstep).1⟩
      · exact absurd hstopped hno
  · intro agent hagent halive hclean
    have hsame := ((h.quiet hagent halive).step ha hstep).2
    have hclose := h.clean agent hagent halive hclean
    simp only [System.setQueue, hclose, hsame, lt_irrefl, decide_false, Bool.or_false]

/-- The run of the group ends: its function waits for no process, or was cancelled by shutdown. -/
theorem Kept.finish (h : Kept g s) {queue : GroupQueue F} {i : Nat} {outcome : Outcome}
    {b : Background F} (hb : s.queue.backgroundTasks[i]? = some b)
    (hend : mayEnd s.host b.cancelled outcome = true)
    (hstep : s.queue.step (.finish i outcome) = some queue) :
    Kept g { s.setQueue g queue with host := .returned } := by
  have hquiet : ∀ agent, s.agent = some agent → agent.Alive →
      Quiet g queue ∧ closings g queue.history = closings g s.queue.history :=
    fun agent hagent halive => (h.quiet hagent halive).step (by simp) hstep
  refine ⟨h.phase.step (a := .finish i outcome) trivial hstep,?_,fun agent hagent halive => ?_,?_⟩
  · rintro (hhost | hhost)
    · cases hhost
    · cases hhost
  · refine .inr ⟨rfl,?_,(hquiet agent hagent halive).1⟩
    rcases h.alive agent hagent halive with hcomm | ⟨_,hstopped,_⟩
    · have hcancelled : b.cancelled = true := by
        rw [hcomm] at hend
        cases outcome <;> first | exact hend | cases hend
      rcases h.phase with ⟨_,hinv,_⟩ | hstopped
      · rw [hinv.uncancelled b (List.mem_of_getElem? hb)] at hcancelled
        cases hcancelled
      · exact hstopped.step hstep
    · exact hstopped.step hstep
  · intro agent hagent halive hclean
    have hclose := h.clean agent hagent halive hclean
    simp only [System.setQueue, hclose, (hquiet agent hagent halive).2, lt_irrefl, decide_false,
      Bool.or_false]

/-- A move of the queue is one that leaves the group's run alone, or the end of that run. -/
theorem queueStep_cases {a : GroupQueue.Action F} (hstep : queueStep g s a = some t) :
    ∃ queue, s.queue.step a = some queue ∧
      ((t = s.setQueue g queue ∧ CalledInside s.queue a ∧ a ≠ .notifyIdle g ∧
          ∀ i outcome b, a = .finish i outcome → s.queue.backgroundTasks[i]? = some b →
            b.coro.runGroup ≠ some g) ∨
        ∃ i outcome b, a = .finish i outcome ∧ s.queue.backgroundTasks[i]? = some b ∧
          mayEnd s.host b.cancelled outcome = true ∧
          t = { s.setQueue g queue with host := .returned }) := by
  have hother : ∀ a : GroupQueue.Action F, CalledInside s.queue a → a ≠ .notifyIdle g →
      (∀ i outcome, a ≠ .finish i outcome) → (s.queue.step a).map (s.setQueue g) = some t →
      ∃ queue, s.queue.step a = some queue ∧
        ((t = s.setQueue g queue ∧ CalledInside s.queue a ∧ a ≠ .notifyIdle g ∧
            ∀ i outcome b, a = .finish i outcome → s.queue.backgroundTasks[i]? = some b →
              b.coro.runGroup ≠ some g) ∨
          ∃ i outcome b, a = .finish i outcome ∧ s.queue.backgroundTasks[i]? = some b ∧
            mayEnd s.host b.cancelled outcome = true ∧
            t = { s.setQueue g queue with host := .returned }) := by
    intro a hinside ha hfinish hstep
    obtain ⟨queue,hqueue,rfl⟩ := Option.map_eq_some_iff.mp hstep
    exact ⟨queue,hqueue,.inl ⟨rfl,hinside,ha,fun i outcome b he _ => absurd he (hfinish i outcome)⟩⟩
  cases a with
  | notifyIdle g' =>
    simp only [Handshake.queueStep] at hstep
    split at hstep
    · rename_i hc
      obtain ⟨hne,hany⟩ := hc
      obtain ⟨b,hb,hstarted⟩ := List.any_eq_true.mp hany
      obtain ⟨hmem,hg⟩ := mem_runsOf.mp hb
      exact hother (.notifyIdle g') ⟨b,hmem,hg,hstarted⟩ (by simpa using hne) (by simp) hstep
    · cases hstep
  | finish i outcome =>
    simp only [Handshake.queueStep] at hstep
    split at hstep
    · cases hstep
    · rename_i b hb
      split at hstep
      · split at hstep
        · rename_i hend
          obtain ⟨queue,hqueue,rfl⟩ := Option.map_eq_some_iff.mp hstep
          exact ⟨queue,hqueue,.inr ⟨i,outcome,b,rfl,hb,hend,rfl⟩⟩
        · cases hstep
      · rename_i hg
        obtain ⟨queue,hqueue,rfl⟩ := Option.map_eq_some_iff.mp hstep
        refine ⟨queue,hqueue,.inl ⟨rfl,trivial,by simp,fun i' outcome' b' he hb' => ?_⟩⟩
        cases he
        cases Option.some.inj (hb.symm.trans hb')
        exact hg
  | enqueueMessageCheck g' => exact hother (.enqueueMessageCheck g') trivial (by simp) (by simp) hstep
  | enqueueTask g' taskId task => exact hother (.enqueueTask g' taskId task) trivial (by simp) (by simp) hstep
  | begin i => exact hother (.begin i) trivial (by simp) (by simp) hstep
  | fireRetry i => exact hother (.fireRetry i) trivial (by simp) (by simp) hstep
  | shutdown => exact hother (.shutdown) trivial (by simp) (by simp) hstep
  | dropCancelled i => exact hother (.dropCancelled i) trivial (by simp) (by simp) hstep

/-- Once the agent has exited, what the host does next needs no more of the invariant. -/
theorem kept_exited {queue : GroupQueue F} (hphase : Phased queue) {phase : HostPhase}
    (hcalling : phase ≠ .before ∧ phase ≠ .communicating) {agent : Option Agent} {dir : InputDir}
    {clean : Bool} (hagent : ∀ a, agent = some a → ¬a.Alive) :
    Kept g ⟨queue,phase,agent,dir,clean⟩ := by
  refine ⟨hphase,?_,fun a ha halive => absurd halive (hagent a ha),
    fun a ha halive => absurd halive (hagent a ha)⟩
  rintro (hhost | hhost)
  · exact absurd hhost hcalling.1
  · exact absurd hhost hcalling.2

/-- While the host hands over outputs, no agent is alive. -/
theorem Kept.delivering (h : Kept g s) {outputs : List ContainerOutput}
    (hhost : s.host = .delivering outputs) : ∀ agent, s.agent = some agent → ¬agent.Alive := by
  intro agent hagent halive
  rcases h.alive agent hagent halive with hcomm | ⟨hreturned,_⟩
  · rw [hhost] at hcomm
    cases hcomm
  · rw [hhost] at hreturned
    cases hreturned

/-- An agent that moves was alive. -/
theorem Kept.moveAgent (h : Kept g s) {agent agent' : Agent} {dir : InputDir}
    (hagent : s.agent = some agent) (halive : agent.Alive)
    (hdir : s.dir.close = false → dir.close = false) :
    Kept g { s with agent := some agent', dir := dir } := by
  refine ⟨h.phase,h.calling,fun _ _ _ => h.alive agent hagent halive,fun _ _ _ hclean => ?_⟩
  exact hdir (h.clean agent hagent halive hclean)

/-- An idle report from `on_output` comes after the agent's end. -/
theorem Kept.report (h : Kept g s) {out : ContainerOutput} {outputs : List ContainerOutput}
    (hlive : live g s.queue = true) (hhost : s.host = .delivering (out :: outputs)) :
    Kept g ({ s with host := .delivering outputs }.setQueue g (s.queue.notifyIdle g)) := by
  obtain ⟨b,hb,hstarted⟩ := List.any_eq_true.mp hlive
  obtain ⟨hmem,hg⟩ := mem_runsOf.mp hb
  have hinside : CalledInside s.queue (.notifyIdle g) :=
    ⟨b,hmem,hg,(Bool.and_eq_true_iff.mp hstarted).1⟩
  have hphase : Phased (s.queue.notifyIdle g) := h.phase.step hinside rfl
  have hcalls : ¬calls g s.queue.history < calls g (s.queue.notifyIdle g).history := by
    rcases h.phase.called (a := .notifyIdle g) (g := g) rfl with hsame | ⟨_,_,_,hquiet⟩
    · rw [hsame]
      omega
    · have hidle := hquiet.idle
      rw [notifyIdle_idle] at hidle
      cases hidle
  rw [System.setQueue, if_neg hcalls]
  exact kept_exited hphase (by simp) (h.delivering hhost)

theorem step_kept (h : Kept g s) {a : Action F} (hstep : step host g s a = some t) : Kept g t := by
  cases a with
  | queue a =>
    obtain ⟨queue,hqueue,⟨rfl,hinside,ha,hend⟩ | ⟨i,outcome,b,rfl,hb,hend,rfl⟩⟩ :=
      queueStep_cases hstep
    · exact h.setQueue hinside ha hend hqueue
    · exact h.finish hb hend hqueue
  | spawn sessionId =>
    simp only [step] at hstep
    split at hstep
    · rename_i hhost
      split at hstep
      · cases hstep
        refine ⟨h.phase,fun _ => h.calling (.inl hhost),fun _ _ _ => .inl rfl,fun _ _ _ hclean => ?_⟩
        simpa using hclean
      · cases hstep
    · cases hstep
  | reply result =>
    obtain ⟨agent',hreply,rfl⟩ := Option.map_eq_some_iff.mp hstep
    obtain ⟨agent,hagent,hreply⟩ := Option.bind_eq_some_iff.mp hreply
    exact h.moveAgent hagent (Agent.alive_of_reply hreply) id
  | poll =>
    obtain ⟨⟨agent',dir⟩,hpoll,rfl⟩ := Option.map_eq_some_iff.mp hstep
    obtain ⟨agent,hagent,hpoll⟩ := Option.bind_eq_some_iff.mp hpoll
    exact h.moveAgent hagent (Agent.alive_of_poll hpoll) (fun hclose => Agent.poll_close hclose hpoll)
  | input bytes =>
    cases hstep
    exact ⟨h.phase,h.calling,h.alive,h.clean⟩
  | receive =>
    simp only [step] at hstep
    split at hstep
    · rename_i agent hhost hagent
      split at hstep
      · rename_i code hexit
        have hgone : ∀ a, s.agent = some a → ¬a.Alive := by
          intro a ha halive
          cases Option.some.inj (hagent.symm.trans ha)
          exact halive code hexit
        split at hstep
        · split at hstep <;> cases hstep <;> exact kept_exited h.phase (by simp) hgone
        · cases hstep
      · cases hstep
    · cases hstep
  | deliver raises =>
    simp only [step] at hstep
    split at hstep
    · rename_i hhost
      cases hstep
      exact kept_exited h.phase (by simp) (h.delivering hhost)
    · rename_i out outputs hhost
      have hgone := h.delivering hhost
      split at hstep
      · rename_i hlive
        split at hstep
        · cases hstep
          exact kept_exited h.phase (by simp) hgone
        · split at hstep
          · cases hstep
            exact h.report hlive hhost
          · cases hstep
            exact kept_exited h.phase (by simp) hgone
      · cases hstep
    · cases hstep
  | timeout =>
    simp only [step] at hstep
    split at hstep
    · split at hstep
      · cases hstep
        refine kept_exited h.phase (by simp) (fun a ha halive => ?_)
        obtain ⟨agent,_,rfl⟩ := Option.map_eq_some_iff.mp ha
        exact halive (-9) rfl
      · cases hstep
    · cases hstep

theorem kept_init (maxC maxR base maxMs : Int) (p c : Bool) (files : List (List UInt8)) :
    Kept (F := F) g (init (GroupQueue.init maxC maxR base maxMs p c) files) where
  phase := by
    refine .inl ⟨rfl,inv_init maxC maxR base maxMs p c,⟨fun _ _ => trivial,fun g hg => ?_⟩,?_⟩
    · cases hg.1
    · intro b hb
      cases hb
  calling := by
    rintro (hhost | hhost)
    · cases hhost
    · cases hhost
  alive := by
    intro agent hagent
    cases hagent
  clean := by
    intro agent hagent
    cases hagent

end Invariant

section Progress
variable (host : Framing.Host) (g : String)

/-- The host has written the close sentinel since the function of the group's run was called. -/
def Asked (s : System F) : Prop := (signals g s.queue.history).getLast? = some (.stdinClosed g)

/-- Any step but the container timeout and the death of the agent by a file it cannot read. -/
def Calm (s : System F) : Action F → Prop
  | .timeout => False
  | .poll => ∃ messages, (drainIpcInputs host.toInterp s.dir.files).1 = .ok messages
  | _ => True

/-- The host has written the sentinel for this run, or steps other than the container timeout lead
to writing it. -/
def Progress (s : System F) : Prop :=
  Asked g s ∨ ∃ as t, Allowed (step host g) (Calm host) s as ∧ exec (step host g) s as = some t ∧
    Asked g t

/-- An agent that was started on a directory without a sentinel has answered and polls for follow-up
input, while a task is pending for the group. -/
structure Waits (s : System F) : Prop where
  answered : ∃ agent, s.agent = some agent ∧ agent.phase = .polling ∧
    ∃ payload ∈ agent.written, payload.status = "success"
  clean : s.clean = true
  pending : (s.queue.groups g).pendingTasks ≠ []

end Progress

section Stuck
variable {host : Framing.Host} {g : String} {s t : System F}

/-- The host does write the sentinel for a pending task, but with the outputs of an agent that has
exited. -/
theorem deliver_asks {out : ContainerOutput} {outputs : List ContainerOutput}
    (hhost : s.host = .delivering (out :: outputs)) (hlive : live g s.queue = true)
    (hok : succeeded out = true) (hpending : (s.queue.groups g).pendingTasks ≠ [])
    (hfn : s.queue.closeStdinFn = true) :
    ∃ t, step host g s (.deliver false) = some t ∧ Asked g t := by
  have hasked : (s.queue.notifyIdle g).history = s.queue.history ++ [.stdinClosed g] := by
    rcases notifyIdle_cases s.queue g with ⟨hnone,_⟩ | ⟨_,he⟩
    · exact absurd hnone hpending
    · rw [he]
      exact congrArg GroupQueue.history (if_pos hfn)
  simp only [step, hhost, hlive, hok, if_true, Bool.false_and, Bool.false_eq_true, if_false]
  refine ⟨_,rfl,?_⟩
  change (signals g (s.queue.notifyIdle g).history).getLast? = some (.stdinClosed g)
  rw [hasked, signals_append]
  simp [signals]

/-- The agent is in its loop, and nobody has asked it to leave. -/
structure Looping (g : String) (s : System F) : Prop extends Kept g s where
  looping : ∃ agent, s.agent = some agent ∧ agent.Looping
  untouched : s.clean = true

theorem Looping.not_asked (h : Looping g s) : ¬Asked g s := by
  obtain ⟨agent,hagent,hlooping⟩ := h.looping
  exact (h.toKept.quiet hagent hlooping.alive).unasked

/-- The loop goes on: only the timeout or an unreadable file would end it. -/
theorem Looping.step (h : Looping g s) {a : Action F} (hcalm : Calm host s a)
    (hstep : Handshake.step host g s a = some t) : Looping g t := by
  have hkept := step_kept h.toKept hstep
  obtain ⟨agent,hagent,hlooping⟩ := h.looping
  have hhost := h.alive agent hagent hlooping.alive
  have hbusy : s.host ≠ .before ∧ ∀ outputs, s.host ≠ .delivering outputs := by
    rcases hhost with hcomm | ⟨hreturned,_⟩
    · simp [hcomm]
    · simp [hreturned]
  cases a with
  | queue a =>
    have hsame : t.agent = s.agent ∧ t.clean = s.clean := by
      obtain ⟨queue,_,⟨rfl,_⟩ | ⟨_,_,_,_,_,_,rfl⟩⟩ := queueStep_cases hstep
      · exact ⟨rfl,rfl⟩
      · exact ⟨rfl,rfl⟩
    exact ⟨hkept,⟨agent,hsame.1.trans hagent,hlooping⟩,hsame.2.trans h.untouched⟩
  | spawn sessionId =>
    simp only [Handshake.step] at hstep
    split at hstep
    · rename_i hbefore
      exact absurd hbefore hbusy.1
    · cases hstep
  | reply result =>
    obtain ⟨agent',hreply,rfl⟩ := Option.map_eq_some_iff.mp hstep
    rw [hagent, Option.bind_some] at hreply
    exact ⟨hkept,⟨agent',rfl,hlooping.reply hreply⟩,h.untouched⟩
  | poll =>
    obtain ⟨⟨agent',dir⟩,hpoll,rfl⟩ := Option.map_eq_some_iff.mp hstep
    rw [hagent, Option.bind_some] at hpoll
    have hclose := h.clean agent hagent hlooping.alive h.untouched
    exact ⟨hkept,⟨agent',rfl,(hlooping.poll hclose hcalm hpoll).1⟩,h.untouched⟩
  | input bytes =>
    cases hstep
    exact ⟨hkept,⟨agent,hagent,hlooping⟩,h.untouched⟩
  | receive =>
    simp only [Handshake.step] at hstep
    split at hstep
    · rename_i agent' _ hagent'
      cases Option.some.inj (hagent.symm.trans hagent')
      split at hstep
      · rename_i code hexit
        exact absurd hexit (hlooping.alive code)
      · cases hstep
    · cases hstep
  | deliver raises =>
    simp only [Handshake.step] at hstep
    split at hstep
    · rename_i hdelivering
      exact absurd hdelivering (hbusy.2 _)
    · rename_i out outputs hdelivering
      exact absurd hdelivering (hbusy.2 _)
    · cases hstep
  | timeout => exact absurd hcalm id

theorem Looping.not_progress (h : Looping g s) : ¬Progress host g s := by
  rintro (hasked | ⟨as,t,hcalm,he,hasked⟩)
  · exact h.not_asked hasked
  · have hlooping : Looping g t :=
      allowed_invariant (fun s a t h hcalm hstep => h.step hcalm hstep) h hcalm he
    exact hlooping.not_asked hasked

theorem Kept.looping (h : Kept g s) (hwaits : Waits g s) : Looping g s := by
  obtain ⟨agent,hagent,hpolling,_⟩ := hwaits.answered
  exact ⟨h,⟨agent,hagent,.inl hpolling⟩,hwaits.clean⟩

/-- Whenever an agent waits for follow-up input while a task is pending for its group, the host has
not written the sentinel, and nothing but the container timeout or the death of the agent leads to
writing it. -/
theorem handshake_stuck {maxC maxR base maxMs : Int} {p c : Bool} {files : List (List UInt8)}
    (h : Reachable (step host g) (init (GroupQueue.init maxC maxR base maxMs p c) files) s)
    (hwaits : Waits g s) : ¬Progress host g s := by
  have hkept : Kept g s :=
    h.invariant (fun _ _ _ h hstep => step_kept h hstep) (kept_init maxC maxR base maxMs p c files)
  exact (hkept.looping hwaits).not_progress

end Stuck

section Runs

private def pyHost : Framing.Host where
  floatRepr := String.ofList
  depth := 10
  strOf := fun _ => ""
  room := by decide

private def oneSlot : System Unit := init (GroupQueue.init 1 5 5000 300000 true true) []

/-- A message is answered, and then a task comes for the same chat. -/
private def taskBehind : List (Action Unit) :=
  [.queue (.enqueueMessageCheck "a"),.queue (.begin 0),.spawn none,.reply (.ok "hello"),
    .queue (.enqueueTask "a" "t" ()),.poll]

private theorem taskBehind_waits :
    ∃ s, exec (step pyHost "a") oneSlot taskBehind = some s ∧ Waits "a" s := by
  have hrun : (exec (step pyHost "a") oneSlot taskBehind).map (fun s =>
      (s.agent,s.clean,(s.queue.groups "a").pendingTasks.isEmpty)) =
      some (some ⟨.polling,none,[answer none (.ok "hello")]⟩,true,false) := by decide +kernel
  obtain ⟨s,hs,h⟩ := Option.map_eq_some_iff.mp hrun
  obtain ⟨hagent,hclean,hpending⟩ : s.agent = _ ∧ s.clean = true ∧
      (s.queue.groups "a").pendingTasks.isEmpty = false := by simpa using h
  refine ⟨s,hs,⟨_,hagent,rfl,_,List.mem_singleton_self _,rfl⟩,hclean,fun hnil => ?_⟩
  rw [hnil] at hpending
  cases hpending

/-- The agent waits for the sentinel, the queue for an idle report, and the host for the agent. -/
theorem task_behind_answer :
    ∃ s, exec (step pyHost "a") oneSlot taskBehind = some s ∧ Waits "a" s ∧
      ¬Progress pyHost "a" s := by
  obtain ⟨s,hs,hwaits⟩ := taskBehind_waits
  have hkept : Kept "a" s := by
    apply allowed_invariant (C := fun _ _ => True) (fun s a t h _ hstep => step_kept h hstep) _ _ hs
    · exact kept_init 1 5 5000 300000 true true []
    · exact allowed_of_take (fun _ _ _ _ _ => trivial)
  exact ⟨s,hs,hwaits,(hkept.looping hwaits).not_progress⟩

theorem handshake_stuck_task_behind :
    ∃ s, exec (step pyHost "a") oneSlot taskBehind = some s ∧ ¬Asked "a" s := by
  obtain ⟨s,hs,hwaits⟩ := taskBehind_waits
  have hstuck : ¬Progress pyHost "a" s := handshake_stuck ⟨_,hs⟩ hwaits
  exact ⟨s,hs,fun hasked => hstuck (.inl hasked)⟩

end Runs

end NanoClaw.Handshake
