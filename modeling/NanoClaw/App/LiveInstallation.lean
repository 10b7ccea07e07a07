import NanoClaw.App.Live

/-! The app over its whole life with agents that return any JSON values: a session in memory is what
an agent returned, and what is stored of it may differ. -/
namespace NanoClaw.App
open Store Channels Execution Json Framing
variable {cfg : Config} {env : Outside} {interp : Interp}

/-- The app with the sessions as the agents returned them, its calls in flight, and the rows of
`registered_groups`. -/
structure LiveInstallation where
  live : Live
  flights : String → Option Run
  groupRows : List GroupRow

/-- What happens over the life of an installation, as in `LifeAction`, with outputs of any JSON
values. `register` is a call of `register_group` that does not raise. -/
inductive LiveAction where
  | inbound (allowlist : SenderAllowlistConfig) (m : NewMessage)
  | process (allowlist : SenderAllowlistConfig) (chatJid : String)
  | output (chatJid : String) (out : Streamed)
  | finish (chatJid : String) (result : ContainerOutput)
  | fail (chatJid : String)
  | register (jid : String) (group : RegisteredGroup)
  | store (m : NewMessage)
  | send (jid text uuid now : String) (failure : Option PyExc)
  | save
  | restart

/-- The messages and the replies of an app on the same tables. -/
def Live.withChat (l : Live) (app : AppState) : Live :=
  { l with messages := app.messages, sent := app.sent }

namespace LiveInstallation

section
variable (s : LiveInstallation)

/-- A new app on an empty database. -/
def fresh : LiveInstallation where
  live := Live.ofApp Installation.fresh.app
  flights := fun _ => none
  groupRows := []

def setFlight (chatJid : String) (flight : Option Run) : LiveInstallation :=
  { s with flights := Function.update s.flights chatJid flight }

/-- `register_group`; its row replaces that of the chat and that of the folder. -/
def registerGroup (jid : String) (group : RegisteredGroup) : Option LiveInstallation :=
  match setRegisteredGroup s.groupRows jid group with
  | .ok rows =>
    some { s with
      live := { s.live with registeredGroups := s.live.registeredGroups.set jid group }
      groupRows := rows }
  | .error _ => none

end

def step (cfg : Config) (env : Outside) (interp : Interp) (s : LiveInstallation) :
    LiveAction → Option LiveInstallation
  | .inbound allowlist m =>
    some { s with live := s.live.withChat (onInboundMessage allowlist s.live.app m.chatJid m) }
  | .process allowlist chatJid =>
    match s.flights chatJid with
    | some _ => none
    | none =>
      match App.processGroupMessages cfg allowlist s.live.app chatJid with
      | .invokes run => some (s.setFlight chatJid (some run))
      | _ => some s
  | .output chatJid out =>
    (s.flights chatJid).map (fun run =>
      match s.live.onOutput cfg env run out with
      | (live, _, some _) => { s with live := live }.setFlight chatJid none
      | (live, run, none) => { s with live := live }.setFlight chatJid (some run))
  | .finish chatJid result =>
    (s.flights chatJid).map (fun run =>
      { s with live := (s.live.finishRun env run result).1 }.setFlight chatJid none)
  | .fail chatJid => (s.flights chatJid).map (fun _ => s.setFlight chatJid none)
  | .register jid group => s.registerGroup jid group
  | .store m => some { s with live := { s.live with messages := storeMessage s.live.messages m } }
  | .send jid text uuid now failure =>
    match sendMessage cfg s.live.app jid text uuid now failure with
    | .ok app => some { s with live := s.live.withChat app }
    | .error _ => some s
  | .save => some { s with live := s.live.saveState }
  | .restart =>
    (loadState interp s.live.app s.groupRows).map (fun app =>
      { s with live := Live.ofApp app, flights := fun _ => none })

section Steps
variable {s t : LiveInstallation} {a : LiveAction}

/-- An output changes messages and replies only. -/
theorem onOutput_frame (l : Live) (run : Run) (out : Streamed) :
    ∃ messages sent, (l.onOutput cfg env run out).1 = { l with messages := messages, sent := sent } := by
  rw [Live.onOutput]
  split
  · exact ⟨_,_,rfl⟩
  · exact ⟨_,_,rfl⟩
  · exact ⟨_,_,rfl⟩
  · split
    · exact ⟨_,_,rfl⟩
    · exact ⟨_,_,rfl⟩

/-- The step registers no chat, and ends no call but one with an error. -/
def Passing (s : LiveInstallation) : LiveAction → Prop
  | .register _ _ => False
  | .finish chatJid result =>
    ∀ run, s.flights chatJid = some run → (hasStatus "error" result || run.hadError) = true
  | _ => True

/-- What a step can do: to messages, replies and calls in flight, or at the end of a call without an
error, by a registration, a save or a restart. -/
theorem step_cases (h : step cfg env interp s a = some t) :
    (Passing s a ∧ ∃ messages sent flights,
      t = ⟨{ s.live with messages := messages, sent := sent },flights,s.groupRows⟩) ∨
    (∃ chatJid result run, a = .finish chatJid result ∧ s.flights chatJid = some run ∧
      (hasStatus "error" result || run.hadError) = false ∧
      t.live = ((s.live.commitCursor run).keepSession env run result.newSessionId).1 ∧
      t.groupRows = s.groupRows) ∨
    (∃ jid group rows, a = .register jid group ∧ setRegisteredGroup s.groupRows jid group = .ok rows ∧
      t = { s with
        live := { s.live with registeredGroups := s.live.registeredGroups.set jid group }
        groupRows := rows }) ∨
    (a = .save ∧ t = { s with live := s.live.saveState }) ∨
    (a = .restart ∧ ∃ app, loadState interp s.live.app s.groupRows = some app ∧
      t = { s with live := Live.ofApp app, flights := fun _ => none }) := by
  cases a with
  | inbound allowlist m =>
    cases h
    exact .inl ⟨trivial,_,_,_,rfl⟩
  | process allowlist chatJid =>
    simp only [step] at h
    split at h
    · cases h
    · split at h <;> cases h <;> exact .inl ⟨trivial,_,_,_,rfl⟩
  | output chatJid out =>
    obtain ⟨run,_,rfl⟩ := Option.map_eq_some_iff.mp h
    obtain ⟨messages,sent,hframe⟩ := @onOutput_frame cfg env s.live run out
    refine .inl ⟨trivial,messages,sent,?_⟩
    rcases hout : s.live.onOutput cfg env run out with ⟨l,run',_ | e⟩
    · rw [hout] at hframe
      exact ⟨_,congrArg (fun l => LiveInstallation.mk l _ s.groupRows) hframe⟩
    · rw [hout] at hframe
      exact ⟨_,congrArg (fun l => LiveInstallation.mk l _ s.groupRows) hframe⟩
  | finish chatJid result =>
    obtain ⟨run,hrun,rfl⟩ := Option.map_eq_some_iff.mp h
    cases herror : hasStatus "error" result || run.hadError with
    | false =>
      refine .inr (.inl ⟨chatJid,result,run,rfl,hrun,herror,?_,rfl⟩)
      simp only [setFlight, Live.finishRun, herror, Bool.false_eq_true, if_false]
    | true =>
      refine .inl ⟨fun run' hrun' => ?_,s.live.messages,s.live.sent,
        Function.update s.flights chatJid none,?_⟩
      · rw [hrun] at hrun'
        cases hrun'
        exact herror
      · simp only [setFlight, Live.finishRun, herror, if_true]
  | fail chatJid =>
    obtain ⟨run,_,rfl⟩ := Option.map_eq_some_iff.mp h
    exact .inl ⟨trivial,_,_,_,rfl⟩
  | register jid group =>
    simp only [step, registerGroup] at h
    split at h
    · rename_i rows hset
      cases h
      exact .inr (.inr (.inl ⟨jid,group,rows,rfl,hset,rfl⟩))
    · cases h
  | store m =>
    cases h
    exact .inl ⟨trivial,_,_,_,rfl⟩
  | send jid text uuid now failure =>
    simp only [step] at h
    split at h <;> cases h <;> exact .inl ⟨trivial,_,_,_,rfl⟩
  | save =>
    cases h
    exact .inr (.inr (.inr (.inl ⟨rfl,rfl⟩)))
  | restart =>
    obtain ⟨app,hload,rfl⟩ := Option.map_eq_some_iff.mp h
    exact .inr (.inr (.inr (.inr ⟨rfl,app,hload,rfl⟩)))

end Steps

/-- An installation whose agents have returned texts only. -/
def ofInstallation (s : Installation) : LiveInstallation where
  live := Live.ofApp s.app
  flights := fun chatJid => (s.world.flights chatJid).map (·.run)
  groupRows := s.groupRows

/-- What happens there. -/
def ofLifeAction : LifeAction → LiveAction
  | .app (.inbound allowlist m) => .inbound allowlist m
  | .app (.process allowlist chatJid) => .process allowlist chatJid
  | .app (.output chatJid out uuid now failure) =>
    .output chatJid ⟨out.decoded,uuid,now,failure,none⟩
  | .app (.finish chatJid result) => .finish chatJid result.decoded
  | .app (.fail chatJid) => .fail chatJid
  | .register jid group => .register jid group
  | .store m => .store m
  | .send jid text uuid now failure => .send jid text uuid now failure
  | .save => .save
  | .restart => .restart

section Texts
variable {s : Installation}

theorem withChat_ofApp {app app' : AppState} {messages : List NewMessage} {sent : List (String × String)}
    (h : app' = { app with messages := messages, sent := sent }) :
    (Live.ofApp app).withChat app' = Live.ofApp app' := by
  rw [h]
  rfl

theorem ofInstallation_setFlight (w : World) (rows : List GroupRow) (chatJid : String)
    (flight : Option Flight) :
    (ofInstallation ⟨w,rows⟩).setFlight chatJid (flight.map (·.run)) =
      ofInstallation ⟨w.setFlight chatJid flight,rows⟩ := by
  simp only [ofInstallation, setFlight, World.setFlight, Installation.app]
  refine congrArg (fun flights => LiveInstallation.mk _ flights rows) (funext fun jid => ?_)
  simp only [Function.update_apply]
  split <;> rfl

/-- With agents that return texts every step but a registration that raises is one of the
installation that knows no others. -/
theorem step_ofInstallation {a : LifeAction}
    (hok : ∀ jid group, a = .register jid group →
      ∃ rows, setRegisteredGroup s.groupRows jid group = .ok rows) :
    step cfg env interp (ofInstallation s) (ofLifeAction a) =
      (Installation.step cfg interp s a).map ofInstallation := by
  obtain ⟨⟨app,flights,delivered⟩,rows⟩ := s
  have happ : (ofInstallation ⟨⟨app,flights,delivered⟩,rows⟩).live.app = app := Live.app_ofApp app
  have hflight : ∀ jid, (ofInstallation ⟨⟨app,flights,delivered⟩,rows⟩).flights jid =
    (flights jid).map (·.run) := fun _ => rfl
  have hlive : ∀ app' messages sent, app' = { app with messages := messages, sent := sent } →
      { ofInstallation ⟨⟨app,flights,delivered⟩,rows⟩ with
        live := (Live.ofApp app).withChat app' } = ofInstallation ⟨⟨app',flights,delivered⟩,rows⟩ :=
    fun app' messages sent h => congrArg (fun l => LiveInstallation.mk l _ rows) (withChat_ofApp h)
  cases a with
  | app a =>
    cases a with
    | inbound allowlist m =>
      simp only [ofLifeAction, step, happ, Installation.step, App.step, Option.map_some]
      refine congrArg some (hlive _ (onInboundMessage allowlist app m.chatJid m).messages app.sent ?_)
      rw [onInboundMessage]
      split <;> rfl
    | process allowlist chatJid =>
      simp only [ofLifeAction, step, happ, hflight, Installation.step, App.step]
      cases flights chatJid with
      | some flight => rfl
      | none =>
        cases processGroupMessages cfg allowlist app chatJid with
        | invokes run =>
          exact congrArg some (ofInstallation_setFlight ⟨app,flights,delivered⟩ rows chatJid (some ⟨run,_,_⟩))
        | returns result => rfl
        | raises e => rfl
    | output chatJid out uuid now failure =>
      simp only [ofLifeAction, step, hflight, Installation.step, App.step]
      cases flights chatJid with
      | none => rfl
      | some flight =>
        have hout : (ofInstallation ⟨⟨app,flights,delivered⟩,rows⟩).live.onOutput cfg env flight.run
            ⟨out.decoded,uuid,now,failure,none⟩ = _ := Live.onOutput_ofApp app flight.run out uuid now failure
        simp only [Option.map_some, hout]
        cases App.onOutput cfg app flight.run out uuid now failure with
        | error e =>
          exact congrArg some (ofInstallation_setFlight ⟨app,flights,delivered⟩ rows chatJid none)
        | ok after =>
          exact congrArg some (ofInstallation_setFlight ⟨after.1,flights,delivered⟩ rows chatJid
            (some { flight with run := after.2 }))
    | finish chatJid result =>
      simp only [ofLifeAction, step, hflight, Installation.step, App.step]
      cases flights chatJid with
      | none => rfl
      | some flight =>
        have hend : (ofInstallation ⟨⟨app,flights,delivered⟩,rows⟩).live.finishRun env flight.run
            result.decoded = _ := Live.finishRun_ofApp app flight.run result
        simp only [Option.map_some, hend]
        exact congrArg some (ofInstallation_setFlight ⟨_,flights,_⟩ rows chatJid none)
    | fail chatJid =>
      simp only [ofLifeAction, step, hflight, Installation.step, App.step]
      cases flights chatJid with
      | none => rfl
      | some flight =>
        exact congrArg some (ofInstallation_setFlight ⟨app,flights,delivered⟩ rows chatJid none)
  | register jid group =>
    obtain ⟨rows',hset⟩ := hok jid group rfl
    have hset' : setRegisteredGroup (ofInstallation ⟨⟨app,flights,delivered⟩,rows⟩).groupRows jid group =
      .ok rows' := hset
    simp only [ofLifeAction, step, registerGroup, hset', Installation.step, Option.map_some,
      Installation.registerGroup, Installation.setApp, Installation.app, hset]
    rfl
  | store m => rfl
  | send jid text uuid now failure =>
    simp only [ofLifeAction, step, happ, Installation.step, Installation.app, Installation.setApp]
    cases hsend : sendMessage cfg app jid text uuid now failure with
    | error e => rfl
    | ok app' => exact congrArg some (hlive app' _ _ (sendMessage_ok hsend))
  | save =>
    exact congrArg (fun l => some (LiveInstallation.mk l _ rows)) (Live.saveState_ofApp app)
  | restart =>
    simp only [ofLifeAction, step, happ, Installation.step, Installation.app]
    have hrows : (ofInstallation ⟨⟨app,flights,delivered⟩,rows⟩).groupRows = rows := rfl
    rw [hrows]
    cases loadState interp app rows with
    | none => rfl
    | some app' => rfl

/-- Runs of that installation are runs with agents that return texts. -/
theorem exec_ofInstallation {t : Installation} {as : List LifeAction}
    (hok : Allowed (Installation.step cfg interp) (fun u a => ∀ jid group, a = .register jid group →
      ∃ rows, setRegisteredGroup u.groupRows jid group = .ok rows) s as)
    (he : exec (Installation.step cfg interp) s as = some t) :
    exec (step cfg env interp) (ofInstallation s) (as.map ofLifeAction) = some (ofInstallation t) := by
  induction as generalizing s with
  | nil =>
    cases he
    rfl
  | cons a as ih =>
    obtain ⟨u,hu,he⟩ := (exec_cons_iff _ s t a as).mp he
    refine (exec_cons_iff _ _ _ _ _).mpr ⟨ofInstallation u,?_,ih (hok.2 u hu) he⟩
    rw [step_ofInstallation hok.1, hu, Option.map_some]

end Texts

end LiveInstallation

end NanoClaw.App
