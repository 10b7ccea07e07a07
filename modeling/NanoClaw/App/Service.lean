import NanoClaw.App.Live
import NanoClaw.App.Recovery
import NanoClaw.App.World
import NanoClaw.Queue.Awake

/-! The app and its queue as one system. The queue calls `process_group_messages`, what it returns
settles the retries, and every message that is stored asks for a call: no message of a registered chat
is left behind without the system having looked at it. There is no shutdown here, and a call that has
committed its cursor does not raise. -/
namespace NanoClaw.App
open Store Channels Router Execution

/-- How the last call for a chat ended. -/
inductive Ending where
  /-- Without a run: nothing to answer, or no trigger that this allowlist admits. -/
  | ignored (allowlist : SenderAllowlistConfig)
  | committed
  /-- With an error after a reply went out, which the queue takes for a success. -/
  | answered
  | retried
  | givenUp

/-- The table that the last call for a chat read, and how the call ended; the code keeps neither. -/
structure Look where
  read : List NewMessage
  ending : Ending

structure Service (F : Type) where
  queue : GroupQueue F
  app : AppState
  flights : String → Option Flight
  looked : String → Option Look

namespace Service
variable {F : Type}

/-- `post` is `send_message` called by the watcher or by the run of a task, `enqueueTask` comes from
the scheduler, and `notifyIdle` from the run of a task. -/
inductive Action (F : Type) where
  | inbound (allowlist : SenderAllowlistConfig) (m : NewMessage)
  | post (jid text uuid now : String) (failure : Option PyExc)
  | enqueueTask (groupJid taskId : String) (fn : F)
  | notifyIdle (groupJid : String)
  | begin (allowlist : SenderAllowlistConfig) (i : Nat)
  | output (i : Nat) (out : AgentOutput) (uuid now : String) (failure : Option PyExc)
  | finish (i : Nat) (result : AgentOutput)
  | fail (i : Nat) (exc : PyExc)
  | finishTask (i : Nat) (outcome : Outcome)
  | fireRetry (i : Nat)

section Calls
variable (s : Service F)

/-- The call in flight of a message run. -/
def call (i : Nat) : Option (String × Flight) :=
  match s.queue.backgroundTasks[i]? with
  | some ⟨.runForGroup g,true,_⟩ => (s.flights g).map (g,·)
  | _ => none

def setFlight (g : String) (flight : Option Flight) : Service F :=
  { s with flights := Function.update s.flights g flight }

/-- What the queue makes of a call that has not done its work. -/
def verdict (g : String) : Ending :=
  if ((s.queue.groups g).retryCount : Int) + 1 ≤ s.queue.maxRetries then .retried else .givenUp

/-- The call of a run is over. -/
def endCall (i : Nat) (g : String) (read : List NewMessage) (done : Ending) (ended : Except PyExc Bool) :
    Option (Service F) :=
  let ending :=
    match ended with
    | .ok true => done
    | _ => s.verdict g
  (s.queue.finish i (outcomeOf ended)).map (fun queue =>
    { s.setFlight g none with queue, looked := Function.update s.looked g (some ⟨read,ending⟩) })

end Calls

variable (cfg : Config)

/-- The body of a coroutine begins. A message run goes on to its agent, or to its end. -/
def begin (s : Service F) (allowlist : SenderAllowlistConfig) (i : Nat) : Option (Service F) :=
  (s.queue.begin i).bind fun queue =>
    let t := { s with queue }
    match s.queue.backgroundTasks[i]? with
    | some ⟨.runForGroup g,_,_⟩ =>
      let last := queue.backgroundTasks.length - 1
      match processGroupMessages cfg allowlist s.app g with
      | .invokes run => some (t.setFlight g (some ⟨run,s.app.messages,s.app.cursor g⟩))
      | .returns result => t.endCall last g s.app.messages (.ignored allowlist) (.ok result)
      | .raises e => t.endCall last g s.app.messages .committed (.error e)
    | _ => some t

def step (s : Service F) : Action F → Option (Service F)
  | .inbound allowlist m =>
    some (if takesInbound allowlist s.app m.chatJid m then
      { s with
        app := onInboundMessage allowlist s.app m.chatJid m
        queue := s.queue.enqueueMessageCheck m.chatJid }
    else s)
  | .post jid text uuid now failure =>
    match sendMessage cfg s.app jid text uuid now failure with
    | .ok app => some { s with app }
    | .error _ => some s
  | .enqueueTask g taskId fn => some { s with queue := s.queue.enqueueTask g taskId fn }
  | .notifyIdle g => some { s with queue := s.queue.notifyIdle g }
  | .begin allowlist i => s.begin cfg allowlist i
  | .output i out uuid now failure =>
    (s.call i).bind fun (g,flight) =>
      match onOutput cfg s.app flight.run out uuid now failure with
      | .error e => s.endCall i g flight.read .committed (.error e)
      | .ok (app,run) =>
        let queue := if out.status = "success" then s.queue.notifyIdle g else s.queue
        some { s.setFlight g (some { flight with run }) with queue, app }
  | .finish i result =>
    (s.call i).bind fun (g,flight) =>
      let done := if flight.run.succeeds result then .committed else .answered
      { s with app := (finishRun s.app flight.run result).1 }.endCall i g flight.read done
        (.ok (finishRun s.app flight.run result).2)
  | .fail i exc =>
    (s.call i).bind fun (g,flight) => s.endCall i g flight.read .committed (.error exc)
  | .finishTask i outcome =>
    match s.queue.backgroundTasks[i]? with
    | some ⟨.runTask _ _,_,_⟩ => (s.queue.finish i outcome).map (fun queue => { s with queue })
    | _ => none
  | .fireRetry i => (s.queue.fireRetry i).map (fun queue => { s with queue })

/-- An app that starts on these tables: `recover_pending_messages` asks for the first calls. -/
def start (queue : GroupQueue F) (app : AppState) : Service F where
  queue := (recoverPendingMessages cfg app).foldl GroupQueue.enqueueMessageCheck queue
  app
  flights := fun _ => none
  looked := fun _ => none

section Seen
variable {cfg}

/-- The messages the query would find for a chat. -/
def pending (cfg : Config) (s : Service F) (g : String) : List NewMessage :=
  pendingSince s.app.messages g (s.app.cursor g) cfg.assistantName

/-- The last call for a chat ended without another to come: it had no channel or no admitted trigger in
the batch it read, or it failed after a reply, or for the last time. -/
def Over (cfg : Config) (s : Service F) (g : String) (look : Look) : Prop :=
  match look.ending with
  | .ignored allowlist =>
    findChannel cfg.channels g = none ∨
      ∃ group, s.app.registeredGroups.get? g = some group ∧ group.isMain ≠ some true ∧
        group.requiresTrigger ≠ some false ∧
        hasTrigger cfg allowlist g (getMessagesSince cfg.plan look.read g (s.app.cursor g)
          cfg.assistantName defaultLimit) = false
  | .answered => True
  | .givenUp => True
  | .committed => False
  | .retried => False

/-- Where a pending message of a chat stands. -/
inductive Stands (cfg : Config) (s : Service F) (g : String) (m : NewMessage) : Prop where
  | awake (h : s.queue.Awake g)
  | flying (flight : Flight) (h : s.flights g = some flight) (hm : m ∈ flight.read)
  | settled (look : Look) (hnone : s.flights g = none) (h : s.looked g = some look) (hm : m ∈ look.read)
    (hover : Over cfg s g look)

/-- A message run of the group waits for its call. -/
def Calling (queue : GroupQueue F) (g : String) : Prop := ∃ b ∈ queue.parked, b.coro = .runForGroup g

/-- A call in flight: what its agent was given is the batch of the table it read. -/
structure Flies (cfg : Config) (s : Service F) (g : String) (flight : Flight) : Prop where
  running : Calling s.queue g
  chat : flight.run.chatJid = g
  registered : (s.app.registeredGroups.get? g).isSome
  since : flight.since = s.app.cursor g
  batch : flight.run.messages =
    getMessagesSince cfg.plan flight.read g flight.since cfg.assistantName defaultLimit
  nonempty : flight.run.messages ≠ []

/-- The queue before shutdown, with its message function set. -/
structure Runs (queue : GroupQueue F) : Prop where
  inv : queue.Inv
  logged : queue.Logged
  opened : queue.shuttingDown = false
  calls : queue.processMessagesFn = true
  bounded : 1 ≤ queue.maxConcurrent

structure Inv (cfg : Config) (s : Service F) : Prop where
  runs : Runs s.queue
  flies : ∀ g flight, s.flights g = some flight → Flies cfg s g flight
  stands : ∀ g, (s.app.registeredGroups.get? g).isSome → ∀ m ∈ s.pending cfg g, Stands cfg s g m

end Seen

section Queues
variable {queue queue' : GroupQueue F} {g : String}

theorem Runs.step (h : Runs queue) {a : GroupQueue.Action F} (ha : a ≠ .shutdown)
    (hstep : GroupQueue.step queue a = some queue') : Runs queue' := by
  have hsettings : queue'.settings = queue.settings :=
    (GroupQueue.step_settings hstep).resolve_right ha
  have hopen : queue'.shuttingDown = false :=
    (congrArg GroupQueue.Settings.shuttingDown hsettings).trans h.opened
  refine ⟨GroupQueue.step_inv h.inv h.opened hopen hstep,
    GroupQueue.step_logged h.inv h.logged h.calls h.opened hopen hstep,hopen,
    (congrArg GroupQueue.Settings.processMessagesFn hsettings).trans h.calls,?_⟩
  rw [show queue'.maxConcurrent = queue.maxConcurrent from
    congrArg GroupQueue.Settings.maxConcurrent hsettings]
  exact h.bounded

/-- Whatever the queue does but begin a message run of the group leaves it awake. -/
theorem Runs.awake (h : Runs queue) {a : GroupQueue.Action F} (ha : a ≠ .shutdown)
    (hstep : GroupQueue.step queue a = some queue')
    (hbegin : ∀ i b, a = .begin i → queue.backgroundTasks[i]? = some b → b.coro ≠ .runForGroup g)
    (hawake : queue.Awake g) : queue'.Awake g :=
  GroupQueue.step_awake h.inv (h.step ha hstep).opened h.calls hstep hbegin hawake

/-- A call goes on until its own run ends. -/
theorem Runs.calling (h : Runs queue) {a : GroupQueue.Action F} (ha : a ≠ .shutdown)
    (hstep : GroupQueue.step queue a = some queue')
    (hend : ∀ i outcome b, a = .finish i outcome → queue.backgroundTasks[i]? = some b →
      b.coro ≠ .runForGroup g) (hcalling : Calling queue g) : Calling queue' g := by
  obtain ⟨b,hb,hcoro⟩ := hcalling
  refine ⟨b,GroupQueue.parked_stays h.inv (h.step ha hstep).opened hb (by simp [hcoro, Coroutine.runGroup]) ?_
    hstep,hcoro⟩
  rintro i outcome b' ha hb' rfl
  exact hend i outcome b ha hb' hcoro

end Queues

/-- What the statements about a call in flight read of it. -/
def view (flight : Flight) : String × List NewMessage × String × List NewMessage :=
  (flight.run.chatJid,flight.run.messages,flight.since,flight.read)

section Frames
variable {cfg : Config} {s t : Service F}

/-- The chat is as it was. -/
structure SameChat (s t : Service F) (g : String) : Prop where
  groups : t.app.registeredGroups = s.app.registeredGroups
  cursor : t.app.cursor g = s.app.cursor g

theorem SameChat.settled {g : String} (h : SameChat s t g) {look : Look} (hover : Over cfg s g look) :
    Over cfg t g look := by
  obtain ⟨read,ending⟩ := look
  cases ending with
  | ignored allowlist =>
    simp only [Over, h.groups, h.cursor]
    exact hover
  | _ => exact hover

theorem view_some {o : Option Flight} {flight : Flight} {flights : String → Option Flight} {g : String}
    (hview : o.map view = (flights g).map view) (h : o = some flight) :
    ∃ f₀, flights g = some f₀ ∧ view f₀ = view flight := by
  rw [h, Option.map_some] at hview
  obtain ⟨f₀,hf₀,he⟩ := Option.map_eq_some_iff.mp hview.symm
  exact ⟨f₀,hf₀,he⟩

theorem Flies.of_view {g : String} {f₀ flight : Flight} (h : Flies cfg s g f₀)
    (hview : view f₀ = view flight) (hrunning : Calling t.queue g) (hchat : SameChat s t g) :
    Flies cfg t g flight := by
  simp only [view, Prod.mk.injEq] at hview
  obtain ⟨hjid,hmessages,hsince,hread⟩ := hview
  refine ⟨hrunning,hjid ▸ h.chat,hchat.groups ▸ h.registered,?_,?_,hmessages ▸ h.nonempty⟩
  · rw [← hsince, hchat.cursor]
    exact h.since
  · rw [← hmessages, ← hread, ← hsince]
    exact h.batch

/-- A step that ends no call and forgets no group: what is pending is so already, or the queue is awake. -/
theorem Inv.keep (h : Inv cfg s) (hruns : Runs t.queue) (hchats : ∀ g, SameChat s t g)
    (hawake : ∀ g, s.queue.Awake g → t.queue.Awake g)
    (hrunning : ∀ g, Calling s.queue g → Calling t.queue g)
    (hflights : ∀ g, (t.flights g).map view = (s.flights g).map view) (hlooked : t.looked = s.looked)
    (hpending : ∀ g, (s.app.registeredGroups.get? g).isSome → ∀ m ∈ t.pending cfg g,
      m ∈ s.pending cfg g ∨ t.queue.Awake g) : Inv cfg t where
  runs := hruns
  flies g flight hf := by
    obtain ⟨f₀,hf₀,hview⟩ := view_some (hflights g) hf
    have hold := h.flies g f₀ hf₀
    exact hold.of_view hview (hrunning g hold.running) (hchats g)
  stands g hg m hm := by
    rw [(hchats g).groups] at hg
    rcases hpending g hg m hm with hm | hnew
    · cases h.stands g hg m hm with
      | awake ha => exact .awake (hawake g ha)
      | flying f₀ hf₀ hm =>
        obtain ⟨flight,hflight,hview⟩ := view_some (hflights g).symm hf₀
        have hread : flight.read = f₀.read := congrArg (·.2.2.2) hview
        exact .flying flight hflight (hread ▸ hm)
      | settled look hnone hlook hm hover =>
        refine .settled look ?_ (hlooked ▸ hlook) hm ((hchats g).settled hover)
        have hview := hflights g
        rw [hnone, Option.map_none] at hview
        exact Option.map_eq_none_iff.mp hview
    · exact .awake hnew

end Frames

section Ends
variable {cfg : Config} {s t : Service F} {i : Nat} {g : String} {b : Background F}
  {read : List NewMessage} {done : Ending} {ended : Except PyExc Bool}

theorem outcomeOf_ne_success (h : ended ≠ .ok true) :
    outcomeOf ended = .failure ∨ outcomeOf ended = .exception := by
  rcases ended with e | _ | _
  · exact .inr rfl
  · exact .inl rfl
  · exact absurd rfl h

/-- The end of a call keeps the invariant where what is pending for its chat was in the table it read,
or asks for another call. -/
theorem inv_endCall (hruns : Runs s.queue) (hb : s.queue.backgroundTasks[i]? = some b)
    (hcoro : b.coro = .runForGroup g)
    (hflies : ∀ g', g' ≠ g → ∀ flight, s.flights g' = some flight → Flies cfg s g' flight)
    (hstands : ∀ g', g' ≠ g → (s.app.registeredGroups.get? g').isSome →
      ∀ m ∈ s.pending cfg g', Stands cfg s g' m)
    (hown : (s.app.registeredGroups.get? g).isSome → ∀ m ∈ s.pending cfg g,
      s.queue.Awake g ∨ (m ∈ read ∧ (ended = .ok true → Over cfg s g ⟨read,done⟩)))
    (hend : s.endCall i g read done ended = some t) : Inv cfg t := by
  obtain ⟨queue,hfinish,rfl⟩ := Option.map_eq_some_iff.mp hend
  have hstep : GroupQueue.step s.queue (.finish i (outcomeOf ended)) = some queue := hfinish
  have hnext := hruns.step (by simp) hstep
  have hawake (g' : String) : s.queue.Awake g' → queue.Awake g' :=
    hruns.awake (by simp) hstep (by simp)
  have hrunning (g' : String) (hne : g' ≠ g) : Calling s.queue g' → Calling queue g' := by
    refine hruns.calling (by simp) hstep ?_
    rintro j outcome b' ha hb' hcoro'
    cases ha
    rw [hb] at hb'
    cases hb'
    rw [hcoro] at hcoro'
    cases hcoro'
    exact hne rfl
  refine ⟨hnext,fun g' flight hf => ?_,fun g' hg m hm => ?_⟩
  · simp only [setFlight, Function.update_apply] at hf
    split_ifs at hf with hne
    have hold := hflies g' hne flight hf
    exact hold.of_view rfl (hrunning g' hne hold.running) ⟨rfl,rfl⟩
  · by_cases hne : g' = g
    · subst hne
      rcases hown hg m hm with ha | ⟨hin,hover⟩
      · exact .awake (hawake g' ha)
      by_cases hdone : ended = .ok true
      · subst hdone
        refine .settled ⟨read,done⟩ (Function.update_self ..) (Function.update_self ..) hin ?_
        exact (⟨rfl,rfl⟩ : SameChat s _ g').settled (hover rfl)
      · by_cases hretries : ((s.queue.groups g').retryCount : Int) + 1 ≤ s.queue.maxRetries
        · exact .awake (GroupQueue.finish_awake hruns.inv hb hcoro (outcomeOf_ne_success hdone) hretries hstep)
        · refine .settled ⟨read,.givenUp⟩ (Function.update_self ..) ?_ hin trivial
          simp only [Function.update_self]
          rcases ended with e | _ | _
          · simp only [verdict, if_neg hretries]
          · simp only [verdict, if_neg hretries]
          · exact absurd rfl hdone
    · cases hstands g' hne hg m hm with
      | awake ha => exact .awake (hawake g' ha)
      | flying flight hflight hm =>
        exact .flying flight ((Function.update_of_ne hne ..).trans hflight) hm
      | settled look hnone hlook hm hover =>
        refine .settled look ((Function.update_of_ne hne ..).trans hnone)
          ((Function.update_of_ne hne ..).trans hlook) hm ?_
        exact (⟨rfl,rfl⟩ : SameChat s _ g').settled hover

end Ends

section Steps
variable {cfg : Config} {s t : Service F} {i : Nat} {g : String}

theorem call_spec {flight : Flight} (h : s.call i = some (g,flight)) :
    ∃ b, s.queue.backgroundTasks[i]? = some b ∧ b.coro = .runForGroup g ∧ s.flights g = some flight := by
  rw [call] at h
  split at h
  · rename_i g' cancelled hb
    obtain ⟨flight',hflight,he⟩ := Option.map_eq_some_iff.mp h
    cases he
    exact ⟨_,hb,rfl,hflight⟩
  · cases h

/-- A move of the queue alone that neither begins nor ends a message run. -/
theorem Inv.moveQueue (h : Inv cfg s) {queue : GroupQueue F} {a : GroupQueue.Action F}
    (ha : a ≠ .shutdown)
    (hbegin : ∀ i b g, a = .begin i → s.queue.backgroundTasks[i]? = some b → b.coro ≠ .runForGroup g)
    (hend : ∀ i outcome b g, a = .finish i outcome → s.queue.backgroundTasks[i]? = some b →
      b.coro ≠ .runForGroup g)
    (hstep : GroupQueue.step s.queue a = some queue) : Inv cfg { s with queue } :=
  h.keep (h.runs.step ha hstep) (fun _ => ⟨rfl,rfl⟩)
    (fun g => h.runs.awake ha hstep (fun i b hi hb => hbegin i b g hi hb))
    (fun g => h.runs.calling ha hstep (fun i outcome b hi hb => hend i outcome b g hi hb))
    (fun _ => rfl) rfl (fun _ _ _ hm => .inl hm)

/-- A row that the queries pass over changes nothing that is pending, but by taking another's place. -/
theorem pending_storeMessage {m row : NewMessage}
    (hm : m ∈ pending cfg { s with app := { s.app with messages := storeMessage s.app.messages row } } g) :
    m ∈ s.pending cfg g ∨ (m = row ∧ row.chatJid = g ∧ Eligible cfg.assistantName row) := by
  obtain ⟨hmem,hchat,hlater,heligible⟩ := mem_pendingSince.mp hm
  rcases mem_storeMessage hmem with hold | rfl
  · exact .inl (mem_pendingSince.mpr ⟨hold,hchat,hlater,heligible⟩)
  · exact .inr ⟨rfl,hchat,heligible⟩

theorem Inv.inbound (h : Inv cfg s) (allowlist : SenderAllowlistConfig) (m : NewMessage)
    (hstep : step cfg s (.inbound allowlist m) = some t) : Inv cfg t := by
  rw [step] at hstep
  split_ifs at hstep with htakes
  · cases hstep
    have hcheck : GroupQueue.step s.queue (.enqueueMessageCheck m.chatJid) =
        some (s.queue.enqueueMessageCheck m.chatJid) := rfl
    simp only [onInboundMessage, htakes, if_true]
    refine h.keep (h.runs.step (by simp) hcheck) (fun _ => ⟨rfl,rfl⟩)
      (fun _ => h.runs.awake (by simp) hcheck (by simp)) (fun _ => h.runs.calling (by simp) hcheck (by simp))
      (fun _ => rfl) rfl (fun g _ m' hm' => ?_)
    refine (pending_storeMessage (s := s) hm').imp_right ?_
    rintro ⟨rfl,rfl,_⟩
    exact .inl (GroupQueue.enqueueMessageCheck_owed h.runs.opened)
  · cases hstep
    exact h

/-- A row of the bot is no message to answer. -/
theorem Inv.botRow (h : Inv cfg s) {row : NewMessage} (hbot : row.isBotMessage = true)
    (sent : List (String × String)) :
    Inv cfg { s with app := { s.app with sent := sent, messages := storeMessage s.app.messages row } } := by
  refine h.keep h.runs (fun _ => ⟨rfl,rfl⟩) (fun _ => id) (fun _ => id) (fun _ => rfl) rfl
    (fun g _ m hm => .inl ?_)
  rcases pending_storeMessage (s := s) hm with hold | ⟨_,_,heligible⟩
  · exact hold
  · rw [heligible.1] at hbot
    cases hbot

theorem Inv.post (h : Inv cfg s) {jid text uuid now : String} {failure : Option PyExc}
    (hstep : step cfg s (.post jid text uuid now failure) = some t) : Inv cfg t := by
  rw [step] at hstep
  split at hstep
  · rename_i app hsend
    cases hstep
    rw [sendMessage_ok hsend]
    exact h.botRow rfl _
  · cases hstep
    exact h

/-- A call that raises: what it read is left to the retries. -/
theorem Inv.raised (h : Inv cfg s) {flight : Flight} {e : PyExc} {done : Ending}
    (hcall : s.call i = some (g,flight)) (hend : s.endCall i g flight.read done (.error e) = some t) :
    Inv cfg t := by
  obtain ⟨b,hb,hcoro,hflight⟩ := call_spec hcall
  refine inv_endCall h.runs hb hcoro (fun g' _ => h.flies g') (fun g' _ => h.stands g')
    (fun hg m hm => ?_) hend
  cases h.stands g hg m hm with
  | awake ha => exact .inl ha
  | flying flight' hf hin =>
    obtain rfl : flight = flight' := Option.some.inj (hflight.symm.trans hf)
    exact .inr ⟨hin,fun he => by cases he⟩
  | settled look hnone => rw [hflight] at hnone; cases hnone

theorem Inv.output (h : Inv cfg s) {out : AgentOutput} {uuid now : String} {failure : Option PyExc}
    (hstep : step cfg s (.output i out uuid now failure) = some t) : Inv cfg t := by
  obtain ⟨⟨g,flight⟩,hcall,hstep⟩ := Option.bind_eq_some_iff.mp hstep
  dsimp only at hstep
  split at hstep
  · exact h.raised hcall hstep
  · rename_i app run hout
    obtain ⟨_,_,_,hflight⟩ := call_spec hcall
    obtain ⟨⟨hjid,hmessages⟩,happ⟩ := onOutput_sent hout
    have hsame : Inv cfg { s with app } := by
      rcases happ with rfl | ⟨text,rfl⟩
      · exact h
      · exact h.botRow rfl _
    have hview : Inv cfg ({ s with app }.setFlight g (some { flight with run })) := by
      refine hsame.keep hsame.runs (fun _ => ⟨rfl,rfl⟩) (fun _ => id) (fun _ => id) (fun g' => ?_) rfl
        (fun _ _ _ hm => .inl hm)
      by_cases hne : g' = g
      · subst hne
        simp [setFlight, hflight, view, hjid, hmessages]
      · exact congrArg (Option.map view) (Function.update_of_ne hne ..)
    cases hstep
    split_ifs with hsuccess
    · exact hview.moveQueue (a := .notifyIdle g) (by simp) (by simp) (by simp) rfl
    · exact hview

/-- Every row that was pending when the batch was read is no later than its last. -/
theorem pending_le_last {plan : Plan} {rows : List NewMessage} {since botPrefix : String}
    {last m : NewMessage}
    (hlast : (getMessagesSince plan rows g since botPrefix defaultLimit).getLast? = some last)
    (hm : m ∈ pendingSince rows g since botPrefix) : m.timestamp ≤ last.timestamp := by
  obtain ⟨omitted,hperm,homits⟩ := (@getMessagesSince_isLatest plan rows g since botPrefix defaultLimit).omits
  rcases List.mem_append.mp (hperm.mem_iff.mpr hm) with hin | hout
  · exact getMessagesSince_le_last hlast hin
  · exact homits m hout last (List.mem_of_getLast? hlast)

theorem Inv.finish (h : Inv cfg s) {result : AgentOutput}
    (hstep : step cfg s (.finish i result) = some t) : Inv cfg t := by
  obtain ⟨⟨g,flight⟩,hcall,hstep⟩ := Option.bind_eq_some_iff.mp hstep
  obtain ⟨b,hb,hcoro,hflight⟩ := call_spec hcall
  have hown := h.flies g flight hflight
  obtain ⟨last,hlast⟩ := Option.ne_none_iff_exists'.mp
    (fun hn => hown.nonempty (List.getLast?_eq_none_iff.mp hn))
  have hcursor (g' : String) (hg' : (s.app.registeredGroups.get? g').isSome) :
      (finishRun s.app flight.run result).1.cursor g' =
        if flight.run.succeeds result ∧ g' = g then last.timestamp else s.app.cursor g' := by
    rw [cursor_finishRun]
    split
    · rename_i hsucceeds
      rw [cursor_commitCursor hlast hg', hown.chat]
      simp [hsucceeds]
    · rename_i hfails
      simp [hfails]
  have hchat (g' : String) (hne : g' ≠ g) (hg' : (s.app.registeredGroups.get? g').isSome) :
      SameChat s { s with app := (finishRun s.app flight.run result).1 } g' :=
    ⟨registeredGroups_finishRun,by rw [hcursor g' hg', if_neg (fun hs => hne hs.2)]⟩
  have hgroups (g' : String) : ((finishRun s.app flight.run result).1.registeredGroups.get? g').isSome =
      (s.app.registeredGroups.get? g').isSome := by
    rw [registeredGroups_finishRun]
  refine inv_endCall (s := { s with app := (finishRun s.app flight.run result).1 }) h.runs hb hcoro ?_ ?_ ?_ hstep
  · intro g' hne flight' hf
    have hold := h.flies g' flight' hf
    exact hold.of_view rfl hold.running (hchat g' hne hold.registered)
  · intro g' hne hg' m hm
    have hg' := (hgroups g').symm.trans hg'
    have hsame := hchat g' hne hg'
    have hm : m ∈ s.pending cfg g' := by
      rw [pending, hsame.cursor, messages_finishRun] at hm
      exact hm
    cases h.stands g' hg' m hm with
    | awake ha => exact .awake ha
    | flying flight' hf hin => exact .flying flight' hf hin
    | settled look hnone hlook hin hover => exact .settled look hnone hlook hin (hsame.settled hover)
  · intro hg m hm
    have hg := (hgroups g).symm.trans hg
    rw [pending, messages_finishRun, hcursor g hg] at hm
    by_cases hsucceeds : flight.run.succeeds result = true
    · rw [if_pos ⟨hsucceeds,rfl⟩] at hm
      obtain ⟨hmem,hjid,hlater,heligible⟩ := mem_pendingSince.mp hm
      rw [hown.batch] at hlast
      have hsince : s.app.cursor g < last.timestamp := by
        rw [← hown.since]
        exact (mem_pendingSince.mp (mem_of_mem_getMessagesSince (List.mem_of_getLast? hlast))).2.2.1
      have hpending : m ∈ s.pending cfg g :=
        mem_pendingSince.mpr ⟨hmem,hjid,hsince.trans hlater,heligible⟩
      cases h.stands g hg m hpending with
      | awake ha => exact .inl ha
      | flying flight' hf hin =>
        obtain rfl : flight = flight' := Option.some.inj (hflight.symm.trans hf)
        have hread : m ∈ pendingSince flight.read g flight.since cfg.assistantName := by
          rw [hown.since]
          exact mem_pendingSince.mpr ⟨hin,hjid,hsince.trans hlater,heligible⟩
        exact absurd hlater (not_lt.mpr (pending_le_last hlast hread))
      | settled look hnone => rw [hflight] at hnone; cases hnone
    · rw [if_neg (fun hs => hsucceeds hs.1)] at hm
      cases h.stands g hg m hm with
      | awake ha => exact .inl ha
      | flying flight' hf hin =>
        obtain rfl : flight = flight' := Option.some.inj (hflight.symm.trans hf)
        exact .inr ⟨hin,fun _ => by simp [hsucceeds, Over]⟩
      | settled look hnone => rw [hflight] at hnone; cases hnone

/-- A call that returns before its agent found no channel for the chat, or no trigger in its batch. -/
theorem over_of_returns {allowlist : SenderAllowlistConfig} {result : Bool} {m : NewMessage}
    (h : processGroupMessages cfg allowlist s.app g = .returns result)
    (hg : (s.app.registeredGroups.get? g).isSome) (hm : m ∈ s.pending cfg g) :
    Over cfg s g ⟨s.app.messages,.ignored allowlist⟩ := by
  obtain ⟨group,hgroup⟩ := Option.isSome_iff_exists.mp hg
  have hbatch : getMessagesSince cfg.plan s.app.messages g (s.app.cursor g) cfg.assistantName
      defaultLimit ≠ [] := by
    refine hasMessagesSince_iff_getMessagesSince.mp (hasMessagesSince_iff.mpr ⟨m,?_⟩)
    exact mem_pendingSince.mp hm
  simp only [processGroupMessages, hgroup] at h
  split_ifs at h with hchannel hnomain
  · exact .inl hchannel
  · exact .inr ⟨group,hgroup,hnomain⟩
  · split at h <;> cases h

/-- The queue after the body of a message run has begun. -/
structure Begun (queue : GroupQueue F) (g : String) (queue' : GroupQueue F) : Prop where
  runs : Runs queue'
  awake : ∀ g', g' ≠ g → queue.Awake g' → queue'.Awake g'
  calling : ∀ g', Calling queue g' → Calling queue' g'
  parked : ∃ b, queue'.backgroundTasks[queue'.backgroundTasks.length - 1]? = some b ∧
    b.started = true ∧ b.coro = .runForGroup g

theorem Runs.begun {queue queue' : GroupQueue F} (h : Runs queue) {b : Background F}
    (hb : queue.backgroundTasks[i]? = some b) (hcoro : b.coro = .runForGroup g)
    (hbegin : queue.begin i = some queue') : Begun queue g queue' := by
  have hstep : GroupQueue.step queue (.begin i) = some queue' := hbegin
  obtain ⟨b₀,hb₀,hfresh,_,hcases⟩ := GroupQueue.begin_cases hbegin
  obtain rfl : b = b₀ := Option.some.inj (hb.symm.trans hb₀)
  refine ⟨h.step (by simp) hstep,fun g' hne => ?_,fun g' => h.calling (by simp) hstep (by simp),?_⟩
  · refine h.awake (by simp) hstep (fun j b' hj hb' hcoro' => ?_)
    cases hj
    rw [hb] at hb'
    cases hb'
    rw [hcoro] at hcoro'
    cases hcoro'
    exact hne rfl
  · rcases hcases with ⟨g',_,_,rfl⟩ | ⟨_,_,hno,_⟩ | ⟨_,_,hno,_⟩ | ⟨hno,_⟩
    · refine ⟨{ b with started := true },?_,rfl,hcoro⟩
      simp [GroupQueue.record, GroupQueue.parkTask]
    · rw [h.calls] at hno
      cases hno
    · rw [hcoro] at hno
      cases hno
    · rw [hcoro] at hno
      cases hno

/-- The body of a message run goes to its agent, or ends at once. -/
theorem Inv.call (h : Inv cfg s) {allowlist : SenderAllowlistConfig} {queue : GroupQueue F}
    (hbegun : Begun s.queue g queue)
    (hstep : (match processGroupMessages cfg allowlist s.app g with
      | .invokes run => some ({ s with queue }.setFlight g (some ⟨run,s.app.messages,s.app.cursor g⟩))
      | .returns result => { s with queue }.endCall (queue.backgroundTasks.length - 1) g s.app.messages
          (.ignored allowlist) (.ok result)
      | .raises e => { s with queue }.endCall (queue.backgroundTasks.length - 1) g s.app.messages
          .committed (.error e)) = some t) : Inv cfg t := by
  have hflies (g' : String) (flight : Flight) (hf : s.flights g' = some flight) :
      Flies cfg { s with queue } g' flight :=
    (h.flies g' flight hf).of_view rfl (hbegun.calling g' (h.flies g' flight hf).running) ⟨rfl,rfl⟩
  have hstands (g' : String) (hne : g' ≠ g) (hg' : (s.app.registeredGroups.get? g').isSome)
      (m : NewMessage) (hm : m ∈ s.pending cfg g') : Stands cfg { s with queue } g' m := by
    cases h.stands g' hg' m hm with
    | awake ha => exact .awake (hbegun.awake g' hne ha)
    | flying flight hf hin => exact .flying flight hf hin
    | settled look hnone hlook hin hover =>
      exact .settled look hnone hlook hin ((⟨rfl,rfl⟩ : SameChat s _ g').settled hover)
  obtain ⟨b,hb,hstarted,hcoro⟩ := hbegun.parked
  have hread {m : NewMessage} (hm : m ∈ s.pending cfg g) : m ∈ s.app.messages := (mem_pendingSince.mp hm).1
  split at hstep
  · rename_i run hinvokes
    obtain ⟨hjid,hregistered,hnonempty,hbatch,_⟩ := processGroupMessages_invokes hinvokes
    cases hstep
    refine ⟨hbegun.runs,fun g' flight hf => ?_,fun g' hg' m hm => ?_⟩
    · simp only [setFlight, Function.update_apply] at hf
      split_ifs at hf with hne
      · cases hf
        subst hne
        exact ⟨⟨b,GroupQueue.mem_parked.mpr ⟨List.mem_of_getElem? hb,hstarted⟩,hcoro⟩,hjid,hregistered,rfl,
          hbatch,hnonempty⟩
      · exact (hflies g' flight hf).of_view rfl (hflies g' flight hf).running ⟨rfl,rfl⟩
    · by_cases hne : g' = g
      · subst hne
        exact .flying _ (Function.update_self ..) (hread hm)
      · cases hstands g' hne hg' m hm with
        | awake ha => exact .awake ha
        | flying flight hf hin => exact .flying flight ((Function.update_of_ne hne ..).trans hf) hin
        | settled look hnone hlook hin hover =>
          refine .settled look ((Function.update_of_ne hne ..).trans hnone) hlook hin ?_
          exact (⟨rfl,rfl⟩ : SameChat s _ g').settled ((⟨rfl,rfl⟩ : SameChat _ s g').settled hover)
  · rename_i result hreturns
    exact inv_endCall (s := { s with queue }) hbegun.runs hb hcoro (fun g' _ => hflies g') hstands
      (fun hg m hm => .inr ⟨hread hm,fun _ => over_of_returns hreturns hg hm⟩) hstep
  · exact inv_endCall (s := { s with queue }) hbegun.runs hb hcoro (fun g' _ => hflies g') hstands
      (fun hg m hm => .inr ⟨hread hm,fun he => by cases he⟩) hstep

theorem Inv.begin (h : Inv cfg s) {allowlist : SenderAllowlistConfig}
    (hstep : step cfg s (.begin allowlist i) = some t) : Inv cfg t := by
  obtain ⟨queue,hqueue,hstep⟩ := Option.bind_eq_some_iff.mp hstep
  obtain ⟨⟨coro,started,cancelled⟩,hb,_⟩ := GroupQueue.begin_cases hqueue
  simp only [hb] at hstep
  have hother (hcoro : ∀ g, coro ≠ .runForGroup g) : Inv cfg { s with queue } := by
    refine h.moveQueue (a := .begin i) (by simp) (fun j b' g hj hb' => ?_) (by simp) hqueue
    cases hj
    rw [hb] at hb'
    cases hb'
    exact hcoro g
  cases coro with
  | runTask g task => cases hstep; exact hother (by simp)
  | retry g d => cases hstep; exact hother (by simp)
  | runForGroup g => exact h.call (h.runs.begun hb rfl hqueue) hstep

/-- Every step keeps the invariant. -/
theorem step_inv {a : Action F} (h : Inv cfg s) (hstep : step cfg s a = some t) : Inv cfg t := by
  cases a with
  | inbound allowlist m => exact h.inbound allowlist m hstep
  | post jid text uuid now failure => exact h.post hstep
  | enqueueTask g taskId fn =>
    cases hstep
    exact h.moveQueue (a := .enqueueTask g taskId fn) (by simp) (by simp) (by simp) rfl
  | notifyIdle g =>
    cases hstep
    exact h.moveQueue (a := .notifyIdle g) (by simp) (by simp) (by simp) rfl
  | begin allowlist i => exact h.begin hstep
  | output i out uuid now failure => exact h.output hstep
  | finish i result => exact h.finish hstep
  | fail i exc =>
    obtain ⟨⟨g,flight⟩,hcall,hend⟩ := Option.bind_eq_some_iff.mp hstep
    exact h.raised hcall hend
  | finishTask i outcome =>
    rw [step] at hstep
    split at hstep
    · rename_i g task started cancelled hb
      obtain ⟨queue,hqueue,rfl⟩ := Option.map_eq_some_iff.mp hstep
      refine h.moveQueue (a := .finish i outcome) (by simp) (by simp) (fun j outcome' b' g' hj hb' => ?_) hqueue
      cases hj
      rw [hb] at hb'
      cases hb'
      simp
    · cases hstep
  | fireRetry i =>
    obtain ⟨queue,hqueue,rfl⟩ := Option.map_eq_some_iff.mp hstep
    exact h.moveQueue (a := .fireRetry i) (by simp) (by simp) (by simp) hqueue

end Steps

section Runs
variable {cfg : Config}

/-- A start asks for a call for each chat that has something pending. -/
theorem Runs.recover {queue : GroupQueue F} (h : Runs queue) (jids : List String) :
    Runs (jids.foldl GroupQueue.enqueueMessageCheck queue) ∧
      ∀ g, queue.Awake g ∨ g ∈ jids → (jids.foldl GroupQueue.enqueueMessageCheck queue).Awake g := by
  induction jids generalizing queue with
  | nil => exact ⟨h,fun g hg => hg.resolve_right List.not_mem_nil⟩
  | cons jid jids ih =>
    have hstep : GroupQueue.step queue (.enqueueMessageCheck jid) = some (queue.enqueueMessageCheck jid) :=
      rfl
    obtain ⟨hruns,hawake⟩ := ih (h.step (by simp) hstep)
    refine ⟨hruns,fun g hg => hawake g ?_⟩
    rcases hg with hg | hg
    · exact .inl (h.awake (by simp) hstep (by simp) hg)
    rcases List.mem_cons.mp hg with rfl | hg
    · exact .inl (.inl (GroupQueue.enqueueMessageCheck_owed h.opened))
    · exact .inr hg

theorem runs_init (maxC maxR base maxMs : Int) (c : Bool) :
    Runs (GroupQueue.init (F := F) maxC maxR base maxMs true c) where
  inv := GroupQueue.inv_init maxC maxR base maxMs true c
  logged := GroupQueue.reachable_logged maxC maxR base maxMs c _ ⟨[],rfl⟩ rfl
  opened := rfl
  calls := rfl
  bounded := le_max_left 1 maxC

theorem inv_start {queue : GroupQueue F} (h : Runs queue) (app : AppState) :
    Inv cfg (start cfg queue app) := by
  obtain ⟨hruns,hawake⟩ := h.recover (recoverPendingMessages cfg app)
  have hflights (g : String) (flight : Flight) : (start cfg queue app).flights g ≠ some flight := by simp [start]
  refine ⟨hruns,fun g flight hf => absurd hf (hflights g flight),fun g hg m hm => .awake (hawake g (.inr ?_))⟩
  refine mem_recoverPendingMessages.mpr ⟨hg,hasMessagesSince_iff_getMessagesSince.mp ?_⟩
  exact hasMessagesSince_iff.mpr ⟨m,mem_pendingSince.mp hm⟩

theorem reachable_inv {maxC maxR base maxMs : Int} {c : Bool} {app : AppState} {s : Service F}
    (h : Reachable (step cfg) (start cfg (GroupQueue.init maxC maxR base maxMs true c) app) s) : Inv cfg s :=
  h.invariant (fun _ _ _ h hstep => step_inv h hstep) (inv_start (runs_init maxC maxR base maxMs c) app)

/-- With nothing in flight, what is pending was read by a last call. -/
theorem Inv.at_rest {s : Service F} (h : Inv cfg s) (hempty : s.queue.backgroundTasks = []) {g : String}
    (hg : (s.app.registeredGroups.get? g).isSome) {m : NewMessage} (hm : m ∈ s.pending cfg g) :
    ∃ look, s.looked g = some look ∧ m ∈ look.read ∧ Over cfg s g look := by
  cases h.stands g hg m hm with
  | awake ha =>
    exact absurd ha (GroupQueue.not_awake_of_empty h.runs.inv h.runs.logged h.runs.bounded hempty)
  | flying flight hf =>
    obtain ⟨b,hb,_⟩ := (h.flies g flight hf).running
    have hmem := (GroupQueue.mem_parked.mp hb).1
    rw [hempty] at hmem
    cases hmem
  | settled look _ hlook hin hover => exact ⟨look,hlook,hin,hover⟩

/-- Wherever the system comes to before a shutdown, a pending message of a registered chat has a call to
come, is in the table that a call in flight read, or was in the table of a last call that ended without
another. Where nothing is in flight only the last is left: the chat had no channel or its batch no admitted
trigger, or the agent failed after a reply or for the last time. -/
theorem no_message_left_behind (cfg : Config) (maxC maxR base maxMs : Int) (c : Bool) (app : AppState)
    (actions : List (Action F)) {s : Service F}
    (he : exec (step cfg) (start cfg (GroupQueue.init maxC maxR base maxMs true c) app) actions = some s) :
    (∀ g, (s.app.registeredGroups.get? g).isSome → ∀ m ∈ s.pending cfg g, Stands cfg s g m) ∧
      (s.queue.backgroundTasks = [] →
        ∀ g, (s.app.registeredGroups.get? g).isSome → ∀ m ∈ s.pending cfg g,
          ∃ look, s.looked g = some look ∧ m ∈ look.read ∧ Over cfg s g look) := by
  have hinv := reachable_inv ⟨actions,he⟩
  exact ⟨hinv.stands,fun hempty _ hg _ hm => hinv.at_rest hempty hg hm⟩

/-- A message that was there at the start, and an agent that raises at the only try. -/
theorem no_message_left_behind_given_up : ∃ s : Service Unit,
    exec (step localCfg) (start localCfg (GroupQueue.init 1 0 10 10 true true) askedApp)
        [.begin everyone 0,.fail 0 .runtimeError] = some s ∧
      ∀ g, (s.app.registeredGroups.get? g).isSome → ∀ m ∈ s.pending localCfg g,
        ∃ look, s.looked g = some look ∧ m ∈ look.read ∧ Over localCfg s g look := by
  have hruns : (exec (step (F := Unit) localCfg)
      (start localCfg (GroupQueue.init 1 0 10 10 true true) askedApp)
        [.begin everyone 0,.fail 0 .runtimeError]).map
          (fun s => s.queue.backgroundTasks.isEmpty) = some true := by decide +kernel
  obtain ⟨s,he,hempty⟩ := Option.map_eq_some_iff.mp hruns
  exact ⟨s,he,(no_message_left_behind localCfg 1 0 10 10 true askedApp _ he).2 (List.isEmpty_iff.mp hempty)⟩

end Runs

end Service
end NanoClaw.App
