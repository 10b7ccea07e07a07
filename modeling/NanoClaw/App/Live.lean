import NanoClaw.Agent.Framing
import NanoClaw.App.Recovery
import NanoClaw.App.Restart
import NanoClaw.Queue.GroupQueue
import NanoClaw.Store.Chats

/-! A whole call of `process_group_messages` with an agent that may return any JSON values, and with
everything in it that can raise. -/
namespace NanoClaw.App
open Store Channels Router Timezone Json Framing

/-- The app with its tables, where a session in memory is whatever an agent returned. -/
structure Live where
  registeredGroups : Groups
  messages : List NewMessage
  lastTimestamp : String
  lastAgentTimestamp : Dict String String
  sessions : Dict String Json
  routerState : Dict String String
  savedSessions : Dict String String
  sent : List (String × String)

/-- The sessions that are texts. -/
def textEntries : List (String × Json) → List (String × String)
  | [] => []
  | (folder, .str id) :: rest => (folder,id) :: textEntries rest
  | _ :: rest => textEntries rest

theorem textEntries_sublist (l : List (String × Json)) :
    ((textEntries l).map Prod.fst).Sublist (l.map Prod.fst) := by
  induction l with
  | nil => exact List.Sublist.slnil
  | cons e rest ih =>
    obtain ⟨folder,value⟩ := e
    cases value <;> first | exact ih.cons_cons folder | exact ih.cons folder

namespace Live

def app (l : Live) : AppState where
  registeredGroups := l.registeredGroups
  messages := l.messages
  lastTimestamp := l.lastTimestamp
  lastAgentTimestamp := l.lastAgentTimestamp
  sessions := ⟨textEntries l.sessions.entries,l.sessions.nodup.sublist (textEntries_sublist _)⟩
  routerState := l.routerState
  savedSessions := l.savedSessions
  sent := l.sent

/-- `save_state`. -/
def saveState (l : Live) : Live :=
  let saved := App.saveState l.app
  let folders := l.registeredGroups.values.map (·.folder)
  { l with
    lastAgentTimestamp := saved.lastAgentTimestamp
    routerState := saved.routerState
    sessions :=
      if l.registeredGroups.entries.isEmpty then l.sessions
      else l.sessions.filterKeys (fun k => k ∈ folders) }

end Live

/-- What lies outside: the text SQLite makes of a float, and what `format_outbound` makes of a text
with a lone surrogate, none where one is left. -/
structure Outside where
  realText : String → String
  formatIllFormed : List Nat → Option String

/-- What an output has for the chat. -/
inductive Reply where
  | nothing
  | text (s : String)
  | illFormed

def Reply.ofText (s : String) : Reply := if s = "" then .nothing else .text s

/-- `if output.result: text = format_outbound(output.result)`. -/
def reply (env : Outside) (result : Json) : Except PyExc Reply :=
  if result.truthy = false then .ok .nothing
  else
    match result with
    | .str s => .ok (.ofText (formatOutbound s))
    | .illFormed codes => .ok ((env.formatIllFormed codes).elim .illFormed .ofText)
    | _ => .error .typeError

/-- A streamed output, with the row's id and time, and what the channel and `notify_idle` raise. -/
structure Streamed where
  output : ContainerOutput
  uuid : String
  now : String
  failure : Option PyExc
  idleFailure : Option PyExc

def hasStatus (status : String) (output : ContainerOutput) : Bool :=
  match output.status with
  | .str s => s == status
  | _ => false

/-- How the flags of `_on_output` and `notify_idle` end it. -/
def settle (run : Run) (s : Streamed) : Run × Option PyExc :=
  ({ run with hadError := run.hadError || hasStatus "error" s.output },
    if hasStatus "success" s.output then s.idleFailure else none)

section Calls
variable (cfg : Config) (env : Outside)

/-- `_on_output`. A text with a lone surrogate goes to the channel, and then fits no row. -/
def Live.onOutput (l : Live) (run : Run) (s : Streamed) : Live × Run × Option PyExc :=
  match reply env s.output.result with
  | .error e => (l,run,some e)
  | .ok .nothing => (l,settle run s)
  | .ok .illFormed => (l,run,some (s.failure.getD .unicodeEncodeError))
  | .ok (.text text) =>
    match sendMessage cfg l.app run.chatJid text s.uuid s.now s.failure with
    | .error e => (l,run,some e)
    | .ok app =>
      ({ l with messages := app.messages, sent := app.sent },
        settle { run with outputSent := true } s)

/-- The outputs of an agent, up to the first that raises. -/
def Live.stream : Live → Run → List Streamed → Live × Run × Option PyExc
  | l, run, [] => (l,run,none)
  | l, run, s :: rest =>
    match l.onOutput cfg env run s with
    | (l, run, some e) => (l,run,some e)
    | (l, run, none) => l.stream run rest

/-- The cursor goes to the last message of the batch. -/
def Live.commitCursor (l : Live) (run : Run) : Live :=
  match run.messages.getLast? with
  | none => l
  | some last =>
    Live.saveState
      { l with lastAgentTimestamp := l.lastAgentTimestamp.set run.chatJid last.timestamp }

/-- `if result.new_session_id`: the session is set in memory, and then bound for its row, which takes
no `NULL`. -/
def Live.keepSession (l : Live) (run : Run) (newSessionId : Json) : Live × Except PyExc Bool :=
  if newSessionId.truthy = false then (l,.ok true)
  else
    let l := { l with sessions := l.sessions.set run.folder newSessionId }
    match columnText env.realText newSessionId with
    | .error e => (l,.error e)
    | .ok none => (l,.error .integrityError)
    | .ok (some id) => ({ l with savedSessions := l.savedSessions.set run.folder id },.ok true)

/-- `process_group_messages` from the agent's return on. -/
def Live.finishRun (l : Live) (run : Run) (result : ContainerOutput) : Live × Except PyExc Bool :=
  if hasStatus "error" result || run.hadError then (l,.ok run.outputSent)
  else (l.commitCursor run).keepSession env run result.newSessionId

/-- What an agent does: what writing the snapshots for it raises, the outputs it streams, and how it
ends. -/
structure Behaviour where
  prepare : Option PyExc
  streamed : List Streamed
  final : Except PyExc ContainerOutput

def Live.invoke (l : Live) (run : Run) (b : Behaviour) : Live × Except PyExc Bool :=
  match b.prepare with
  | some e => (l,.error e)
  | none =>
    match l.stream cfg env run b.streamed with
    | (l, _, some e) => (l,.error e)
    | (l, run, none) =>
      match b.final with
      | .error e => (l,.error e)
      | .ok result => l.finishRun env run result

/-- `process_group_messages`. -/
def Live.processGroupMessages (allowlist : SenderAllowlistConfig) (l : Live) (chatJid : String)
    (b : Behaviour) : Live × Except PyExc Bool :=
  match App.processGroupMessages cfg allowlist l.app chatJid with
  | .returns result => (l,.ok result)
  | .raises e => (l,.error e)
  | .invokes run => l.invoke cfg env run b

end Calls

/-- How `_run_for_group` takes the end of a call. -/
def outcomeOf : Except PyExc Bool → Outcome
  | .ok true => .success
  | .ok false => .failure
  | .error _ => .exception

section Texts
variable {cfg : Config} {env : Outside}

/-- The app where every session is a text. -/
def Live.ofApp (s : AppState) : Live where
  registeredGroups := s.registeredGroups
  messages := s.messages
  lastTimestamp := s.lastTimestamp
  lastAgentTimestamp := s.lastAgentTimestamp
  sessions := s.sessions.mapValues Json.str
  routerState := s.routerState
  savedSessions := s.savedSessions
  sent := s.sent

/-- The output as the host decodes it. -/
def AgentOutput.decoded (out : AgentOutput) : ContainerOutput where
  status := .str out.status
  result := optional out.result
  newSessionId := optional out.newSessionId
  error := .null

@[simp] theorem Live.app_ofApp (s : AppState) : (Live.ofApp s).app = s := by
  have htexts : ∀ l : List (String × String), textEntries (l.map (fun e => (e.1,Json.str e.2))) = l := by
    intro l
    induction l with
    | nil => rfl
    | cons e rest ih => rw [List.map_cons, textEntries, ih]
  obtain ⟨_,_,_,_,sessions,_,_,_⟩ := s
  simp only [Live.ofApp, Live.app, Dict.mapValues, htexts]

@[simp] theorem hasStatus_decoded (status : String) (out : AgentOutput) :
    hasStatus status out.decoded = (out.status == status) := rfl

theorem Live.saveState_ofApp (s : AppState) :
    (Live.ofApp s).saveState = Live.ofApp (App.saveState s) := by
  simp only [Live.saveState, Live.app_ofApp]
  cases hempty : s.registeredGroups.entries.isEmpty with
  | true => simp only [Live.ofApp, App.saveState, hempty, if_true]
  | false =>
    simp only [Live.ofApp, App.saveState, hempty, Bool.false_eq_true, if_false,
      Dict.mapValues_filterKeys]
    rfl

theorem Live.commitCursor_ofApp (s : AppState) (run : Run) :
    (Live.ofApp s).commitCursor run = Live.ofApp (App.commitCursor s run) := by
  rw [Live.commitCursor, App.commitCursor]
  cases run.messages.getLast? with
  | none => rfl
  | some last =>
    exact Live.saveState_ofApp
      { s with lastAgentTimestamp := s.lastAgentTimestamp.set run.chatJid last.timestamp }

theorem Live.keepSession_ofApp (s : AppState) (run : Run) (out : AgentOutput) :
    (Live.ofApp s).keepSession env run out.decoded.newSessionId =
      (Live.ofApp (App.keepSession s run out),.ok true) := by
  rw [Live.keepSession, App.keepSession, AgentOutput.decoded]
  cases out.newSessionId with
  | none => rfl
  | some id =>
    by_cases hid : id = ""
    · simp [Framing.optional, truthy, hid]
    · simp [Framing.optional, truthy, hid, columnText, Live.ofApp, Dict.mapValues_set]

/-- With outputs of texts the call ends as it does for the app. -/
theorem Live.finishRun_ofApp (s : AppState) (run : Run) (out : AgentOutput) :
    (Live.ofApp s).finishRun env run out.decoded =
      (Live.ofApp (App.finishRun s run out).1,.ok (App.finishRun s run out).2) := by
  rw [Live.finishRun, App.finishRun, Run.succeeds, hasStatus_decoded]
  cases out.status == "error" || run.hadError with
  | true => rfl
  | false =>
    rw [Live.commitCursor_ofApp]
    exact Live.keepSession_ofApp _ _ _

theorem reply_decoded (out : AgentOutput) :
    reply env out.decoded.result = .ok (.ofText (formatOutbound (out.result.getD ""))) := by
  cases hresult : out.result with
  | none => simp only [reply, AgentOutput.decoded, hresult, Framing.optional]; rfl
  | some r =>
    simp only [reply, AgentOutput.decoded, hresult, Framing.optional, Option.getD_some]
    split_ifs with hempty
    · have hr : r = "" := by simpa [truthy] using hempty
      rw [hr]
      rfl
    · rfl

/-- An output of texts is sent as it is for the app. -/
theorem Live.onOutput_ofApp (s : AppState) (run : Run) (out : AgentOutput) (uuid now : String)
    (failure : Option PyExc) :
    (Live.ofApp s).onOutput cfg env run ⟨out.decoded,uuid,now,failure,none⟩ =
      match App.onOutput cfg s run out uuid now failure with
      | .error e => (Live.ofApp s,run,some e)
      | .ok (s', run') => (Live.ofApp s',run',none) := by
  have hsettle : ∀ run : Run, settle run ⟨out.decoded,uuid,now,failure,none⟩ =
      ({ run with hadError := run.hadError || out.status == "error" },none) := by
    intro run
    rw [settle, ite_self]
    rfl
  rw [Live.onOutput, reply_decoded, App.onOutput, Reply.ofText]
  by_cases htext : formatOutbound (out.result.getD "") = ""
  · simp only [htext, or_true, if_true, hsettle]
  · have hresult : out.result.getD "" ≠ "" := fun h => htext (by rw [h]; rfl)
    simp only [htext, hresult, or_self, if_false, Live.app_ofApp, hsettle]
    cases hsend : sendMessage cfg s run.chatJid (formatOutbound (out.result.getD "")) uuid now
        failure with
    | error e => rfl
    | ok s' =>
      rw [sendMessage_ok hsend]
      rfl

end Texts

end NanoClaw.App
