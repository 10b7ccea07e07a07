import NanoClaw.App.State
import NanoClaw.Library.Execution
import Mathlib.Logic.Function.Basic

/-! The app in time: inbound messages, and calls of `process_group_messages` that wait for
their agents while other things happen. The queue lets one call of a chat run at a time. -/
namespace NanoClaw.App
open Store Execution

/-- A call in flight. `read` is the table as the call read it and `since` the cursor then;
the code keeps neither. -/
structure Flight where
  run : Run
  read : List NewMessage
  since : String

/-- `delivered` collects the messages of the prompts whose calls committed their cursor. -/
structure World where
  app : AppState
  flights : String → Option Flight
  delivered : List NewMessage

/-- `inbound` is a call of `on_message`, `process` begins a call for a chat, `output` is one
output streamed by its agent, and the call ends with `finish` or, by an exception, with
`fail`. -/
inductive Action where
  | inbound (allowlist : SenderAllowlistConfig) (m : NewMessage)
  | process (allowlist : SenderAllowlistConfig) (chatJid : String)
  | output (chatJid : String) (out : AgentOutput) (uuid now : String) (failure : Option PyExc)
  | finish (chatJid : String) (result : AgentOutput)
  | fail (chatJid : String)

namespace World
variable (w : World)

def setFlight (chatJid : String) (flight : Option Flight) : World :=
  { w with flights := Function.update w.flights chatJid flight }

/-- The messages that count as answered when a call ends with a result. -/
def committed (flight : Flight) (result : AgentOutput) : List NewMessage :=
  if flight.run.succeeds result then flight.run.messages else []

end World

variable (cfg : Config)

def step (w : World) : Action → Option World
  | .inbound allowlist m => some { w with app := onInboundMessage allowlist w.app m.chatJid m }
  | .process allowlist chatJid =>
    match w.flights chatJid with
    | some _ => none
    | none =>
      match processGroupMessages cfg allowlist w.app chatJid with
      | .invokes run => some (w.setFlight chatJid (some ⟨run,w.app.messages,w.app.cursor chatJid⟩))
      | _ => some w
  | .output chatJid out uuid now failure =>
    (w.flights chatJid).map (fun flight =>
      match onOutput cfg w.app flight.run out uuid now failure with
      | .error _ => w.setFlight chatJid none
      | .ok (app, run) =>
        { w with app := app }.setFlight chatJid (some { flight with run := run }))
  | .finish chatJid result =>
    (w.flights chatJid).map (fun flight =>
      { w with
        app := (finishRun w.app flight.run result).1
        delivered := w.delivered ++ World.committed flight result }.setFlight chatJid none)
  | .fail chatJid => (w.flights chatJid).map (fun _ => w.setFlight chatJid none)

/-- An app that has just started on these tables. -/
def World.init (app : AppState) : World := ⟨app,fun _ => none,[]⟩

section Steps
variable {cfg : Config}

/-- What a step does to the app: rows and replies apart, only a call that ends well changes it. -/
theorem app_step {w w' : World} {a : Action} (h : step cfg w a = some w') :
    (∃ messages sent, w'.app = { w.app with messages := messages, sent := sent }) ∨
      ∃ flight result, w'.app = keepSession (commitCursor w.app flight.run) flight.run result ∧
        ∃ chatJid, a = .finish chatJid result ∧ w.flights chatJid = some flight := by
  have hsame : ∃ messages sent, w.app = { w.app with messages := messages, sent := sent } :=
    ⟨_,_,rfl⟩
  cases a with
  | inbound allowlist m =>
    cases h
    refine .inl ?_
    simp only [onInboundMessage]
    split
    · exact ⟨_,_,rfl⟩
    · exact hsame
  | process allowlist chatJid =>
    simp only [step] at h
    split at h
    · cases h
    · split at h <;> cases h <;> exact .inl hsame
  | output chatJid out uuid now failure =>
    obtain ⟨flight,_,rfl⟩ := Option.map_eq_some_iff.mp h
    refine .inl ?_
    split
    · exact hsame
    · rename_i app run hout
      rcases (onOutput_sent hout).2 with rfl | ⟨text,rfl⟩
      · exact hsame
      · exact ⟨_,_,rfl⟩
  | finish chatJid result =>
    obtain ⟨flight,hf,rfl⟩ := Option.map_eq_some_iff.mp h
    simp only [World.setFlight, finishRun]
    split
    · exact .inr ⟨flight,result,rfl,chatJid,rfl,hf⟩
    · exact .inl hsame
  | fail chatJid =>
    obtain ⟨flight,_,rfl⟩ := Option.map_eq_some_iff.mp h
    exact .inl hsame

/-- No step of a running app registers a chat. -/
theorem registeredGroups_step {w w' : World} {a : Action} (h : step cfg w a = some w') :
    w'.app.registeredGroups = w.app.registeredGroups := by
  rcases app_step h with ⟨messages,sent,happ⟩ | ⟨flight,result,happ,_⟩
  · rw [happ]
  · rw [happ, registeredGroups_keepSession, registeredGroups_commitCursor]

/-- A step that ends no call moves no cursor. -/
theorem cursor_step {w w' : World} {a : Action} (h : step cfg w a = some w')
    (ha : ∀ chatJid result, a ≠ .finish chatJid result) (jid : String) :
    w'.app.cursor jid = w.app.cursor jid := by
  rcases app_step h with ⟨messages,sent,happ⟩ | ⟨_,result,_,chatJid,hfinish,_⟩
  · rw [happ]
    rfl
  · exact absurd hfinish (ha chatJid result)

theorem delivered_step {w w' : World} {a : Action} (h : step cfg w a = some w')
    (ha : ∀ chatJid result, a ≠ .finish chatJid result) : w'.delivered = w.delivered := by
  cases a with
  | inbound allowlist m =>
    cases h
    rfl
  | process allowlist chatJid =>
    simp only [step] at h
    split at h
    · cases h
    · split at h <;> cases h <;> rfl
  | output chatJid out uuid now failure =>
    obtain ⟨flight,_,rfl⟩ := Option.map_eq_some_iff.mp h
    split <;> rfl
  | finish chatJid result => exact absurd rfl (ha chatJid result)
  | fail chatJid =>
    obtain ⟨flight,_,rfl⟩ := Option.map_eq_some_iff.mp h
    rfl

/-- A step stores one row at most: a message that comes in, or one of the bot. -/
theorem messages_step {w w' : World} {a : Action} (h : step cfg w a = some w') :
    w'.app.messages = w.app.messages ∨ ∃ m, w'.app.messages = storeMessage w.app.messages m ∧
      (m.isBotMessage = true ∨
        ∃ allowlist, a = .inbound allowlist m ∧ takesInbound allowlist w.app m.chatJid m = true) := by
  cases a with
  | inbound allowlist m =>
    cases h
    simp only [onInboundMessage]
    split
    · rename_i htakes
      exact .inr ⟨m,rfl,.inr ⟨allowlist,rfl,htakes⟩⟩
    · exact .inl rfl
  | process allowlist chatJid =>
    simp only [step] at h
    split at h
    · cases h
    · split at h <;> cases h <;> exact .inl rfl
  | output chatJid out uuid now failure =>
    obtain ⟨flight,_,rfl⟩ := Option.map_eq_some_iff.mp h
    split
    · exact .inl rfl
    · rename_i app run hout
      rcases (onOutput_sent hout).2 with rfl | ⟨text,rfl⟩
      · exact .inl rfl
      · exact .inr ⟨_,rfl,.inl rfl⟩
  | finish chatJid result =>
    obtain ⟨flight,_,rfl⟩ := Option.map_eq_some_iff.mp h
    exact .inl messages_finishRun
  | fail chatJid =>
    obtain ⟨flight,_,rfl⟩ := Option.map_eq_some_iff.mp h
    exact .inl rfl

theorem mem_messages_step {w w' : World} {a : Action} (h : step cfg w a = some w') {m : NewMessage}
    (hm : m ∈ w'.app.messages) :
    m ∈ w.app.messages ∨ m.isBotMessage = true ∨
      ∃ allowlist, a = .inbound allowlist m ∧ takesInbound allowlist w.app m.chatJid m = true := by
  rcases messages_step h with hsame | ⟨m₀,hstore,hnew⟩
  · exact .inl (hsame ▸ hm)
  · rw [hstore] at hm
    rcases mem_storeMessage hm with hm | rfl
    · exact .inl hm
    · exact .inr hnew

/-- A call in flight after a step was in flight before it, with the same batch, or begins. -/
theorem flights_step {w w' : World} {a : Action} (h : step cfg w a = some w') {jid : String}
    {f : Flight} (hf : w'.flights jid = some f) :
    (∃ f₀, w.flights jid = some f₀ ∧ (∀ result, a ≠ .finish jid result) ∧ f.read = f₀.read ∧
        f.since = f₀.since ∧ f.run.chatJid = f₀.run.chatJid ∧ f.run.messages = f₀.run.messages) ∨
      ∃ allowlist run, w'.app = w.app ∧
        processGroupMessages cfg allowlist w.app jid = .invokes run ∧
        f = ⟨run,w.app.messages,w.app.cursor jid⟩ := by
  cases a with
  | inbound allowlist m =>
    cases h
    exact .inl ⟨f,hf,by simp,rfl,rfl,rfl,rfl⟩
  | process allowlist chatJid =>
    simp only [step] at h
    split at h
    · cases h
    · split at h
      · rename_i run hrun
        cases h
        simp only [World.setFlight, Function.update_apply] at hf
        split at hf
        · rename_i hj
          cases hf
          subst hj
          exact .inr ⟨allowlist,run,rfl,hrun,rfl⟩
        · exact .inl ⟨f,hf,by simp,rfl,rfl,rfl,rfl⟩
      · cases h
        exact .inl ⟨f,hf,by simp,rfl,rfl,rfl,rfl⟩
  | output chatJid out uuid now failure =>
    obtain ⟨flight,hflight,rfl⟩ := Option.map_eq_some_iff.mp h
    refine .inl ?_
    split at hf
    · simp only [World.setFlight, Function.update_apply] at hf
      split at hf
      · cases hf
      · exact ⟨f,hf,by simp,rfl,rfl,rfl,rfl⟩
    · rename_i app run hout
      simp only [World.setFlight, Function.update_apply] at hf
      split at hf
      · rename_i hj
        cases hf
        subst hj
        exact ⟨flight,hflight,by simp,rfl,rfl,(onOutput_sent hout).1⟩
      · exact ⟨f,hf,by simp,rfl,rfl,rfl,rfl⟩
  | finish chatJid result =>
    obtain ⟨flight,hflight,rfl⟩ := Option.map_eq_some_iff.mp h
    simp only [World.setFlight, Function.update_apply] at hf
    split at hf
    · cases hf
    · rename_i hj
      refine .inl ⟨f,hf,fun result' he => ?_,rfl,rfl,rfl,rfl⟩
      cases he
      exact hj rfl
  | fail chatJid =>
    obtain ⟨flight,hflight,rfl⟩ := Option.map_eq_some_iff.mp h
    simp only [World.setFlight, Function.update_apply] at hf
    split at hf
    · cases hf
    · exact .inl ⟨f,hf,by simp,rfl,rfl,rfl,rfl⟩

end Steps

end NanoClaw.App
