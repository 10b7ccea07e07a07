import NanoClaw.Channels.Inbound
import NanoClaw.Messages.Router
import NanoClaw.Store.Groups

/-! The orchestrator: its state, inbound messages, and a call of `process_group_messages` cut
at the points where it waits for the agent. -/
namespace NanoClaw.App
open Store Channels Router Timezone

inductive AllowMode where
  | trigger
  | drop
  deriving DecidableEq, Repr

/-- An entry of the sender allowlist; no list of senders stands for `"*"`. -/
structure ChatAllowlistEntry where
  allow : Option (List String)
  mode : AllowMode

structure SenderAllowlistConfig where
  default : ChatAllowlistEntry
  chats : Dict String ChatAllowlistEntry

def getEntry (chatJid : String) (allowlist : SenderAllowlistConfig) : ChatAllowlistEntry :=
  (allowlist.chats.get? chatJid).getD allowlist.default

def isSenderAllowed (chatJid sender : String) (allowlist : SenderAllowlistConfig) : Bool :=
  match (getEntry chatJid allowlist).allow with
  | none => true
  | some senders => decide (sender ∈ senders)

def shouldDropMessage (chatJid : String) (allowlist : SenderAllowlistConfig) : Bool :=
  (getEntry chatJid allowlist).mode = .drop

def isTriggerAllowed (chatJid sender : String) (allowlist : SenderAllowlistConfig) : Bool :=
  isSenderAllowed chatJid sender allowlist

/-- The settings of the process. `isWord` is `\w` of `re`, and `plan` the order SQLite visits
rows in. -/
structure Config where
  assistantName : String
  timezone : String
  zones : Zones
  isWord : Char → Bool
  channels : List Channel
  plan : Plan

/-- The app with its tables. `sent` is what the channels were given. -/
structure AppState where
  registeredGroups : Groups
  messages : List NewMessage
  lastTimestamp : String
  lastAgentTimestamp : Dict String String
  sessions : Dict String String
  routerState : Dict String String
  savedSessions : Dict String String
  sent : List (String × String)

/-- `self.last_agent_timestamp.get(chat_jid, "")`. -/
def AppState.cursor (s : AppState) (chatJid : String) : String :=
  (s.lastAgentTimestamp.get? chatJid).getD ""

/-- `save_state`. -/
def saveState (s : AppState) : AppState :=
  let folders := s.registeredGroups.values.map (·.folder)
  let s :=
    if s.registeredGroups.entries.isEmpty then s
    else
      { s with
        lastAgentTimestamp := s.lastAgentTimestamp.filterKeys (fun k => k ∈ s.registeredGroups.keys)
        sessions := s.sessions.filterKeys (fun k => k ∈ folders) }
  let saved := Json.dumps (.obj (s.lastAgentTimestamp.entries.map (fun (k,v) => (k,.str v))))
  { s with
    routerState :=
      (s.routerState.set "last_timestamp" s.lastTimestamp).set "last_agent_timestamp"
        (String.ofList saved) }

/-- Whether `_on_inbound_message` stores the message. -/
def takesInbound (allowlist : SenderAllowlistConfig) (s : AppState) (chatJid : String)
    (m : NewMessage) : Bool :=
  (s.registeredGroups.get? chatJid).isSome &&
    !(!m.isFromMe && !m.isBotMessage && shouldDropMessage chatJid allowlist &&
      !isSenderAllowed chatJid m.sender allowlist)

def onInboundMessage (allowlist : SenderAllowlistConfig) (s : AppState) (chatJid : String)
    (m : NewMessage) : AppState :=
  if takesInbound allowlist s chatJid m then { s with messages := storeMessage s.messages m } else s

section Calls
variable (cfg : Config)

/-- `TRIGGER_PATTERN.search`: the assistant's name behind an at sign, up to a word boundary. -/
def triggerSearch (text : List Char) : Bool :=
  match dropLiteral ('@' :: cfg.assistantName.toList) text with
  | none => false
  | some rest =>
    cfg.assistantName ≠ "" &&
      (cfg.isWord (text.getD cfg.assistantName.length ' ') != (rest.head?.map cfg.isWord).getD false)

def hasTrigger (allowlist : SenderAllowlistConfig) (chatJid : String) (messages : List NewMessage) :
    Bool :=
  messages.any (fun m =>
    triggerSearch cfg (PyText.strip m.content.toList) &&
      (m.isFromMe || isTriggerAllowed chatJid m.sender allowlist))

/-- A call that waits for its agent, with what the agent was invoked with. -/
structure Run where
  chatJid : String
  folder : String
  isMain : Bool
  messages : List NewMessage
  prompt : String
  sessionId : Option String
  outputSent : Bool
  hadError : Bool
  deriving DecidableEq, Repr

/-- How far a call comes before it waits. -/
inductive Started where
  | returns (result : Bool)
  | raises (exc : PyExc)
  | invokes (run : Run)
  deriving DecidableEq, Repr

/-- The call that waits for its agent. -/
def Started.run? : Started → Option Run
  | .invokes run => some run
  | .returns _ | .raises _ => none

theorem Started.run?_eq_some {started : Started} {run : Run} :
    started.run? = some run ↔ started = .invokes run := by
  cases started <;> simp [Started.run?]

/-- `process_group_messages` up to the call of the agent. -/
def processGroupMessages (allowlist : SenderAllowlistConfig) (s : AppState) (chatJid : String) :
    Started :=
  match s.registeredGroups.get? chatJid with
  | none => .returns true
  | some group =>
    if findChannel cfg.channels chatJid = none then .returns true
    else
      let messages := getMessagesSince cfg.plan s.messages chatJid (s.cursor chatJid)
        cfg.assistantName defaultLimit
      let isMain := group.isMain = some true
      if messages = [] then .returns true
      else if ¬isMain ∧ group.requiresTrigger ≠ some false ∧
          hasTrigger cfg allowlist chatJid messages = false then .returns true
      else
        match formatMessages cfg.zones messages cfg.timezone with
        | .error e => .raises e
        | .ok prompt =>
          .invokes ⟨chatJid,group.folder,isMain,messages,prompt,s.sessions.get? group.folder,false,false⟩

/-- An output of the agent, of the types `ContainerOutput` declares. A result of another type
makes `format_outbound` raise, as a failing call does; the app in which a session can be of another
type, or a text with a lone surrogate, is `Live`. -/
structure AgentOutput where
  status : String
  result : Option String
  newSessionId : Option String

/-- `send_message`. The new row's id and time come from outside, and so does what the channel
raises. -/
def sendMessage (s : AppState) (jid text uuid now : String) (failure : Option PyExc) :
    Except PyExc AppState :=
  if findChannel cfg.channels jid = none then .error .valueError
  else
    match failure with
    | some e => .error e
    | none =>
      .ok { s with
        sent := s.sent ++ [(jid,text)]
        messages := storeMessage s.messages
          { id := uuid
            chatJid := jid
            sender := String.ofList (cfg.assistantName.toList.map Char.toLower) ++ "@nanoclaw.local"
            senderName := cfg.assistantName
            content := text
            timestamp := now
            isFromMe := true
            isBotMessage := true } }

/-- `_on_output`. -/
def onOutput (s : AppState) (run : Run) (out : AgentOutput) (uuid now : String)
    (failure : Option PyExc) : Except PyExc (AppState × Run) :=
  let text := formatOutbound (out.result.getD "")
  let run' := { run with hadError := run.hadError || out.status == "error" }
  if out.result.getD "" = "" ∨ text = "" then .ok (s,run')
  else
    match sendMessage cfg s run.chatJid text uuid now failure with
    | .error e => .error e
    | .ok s' => .ok (s',{ run' with outputSent := true })

/-- Whether the call goes on to its last part. -/
def Run.succeeds (run : Run) (result : AgentOutput) : Bool :=
  !(result.status == "error" || run.hadError)

/-- The cursor goes to the last message of the batch. -/
def commitCursor (s : AppState) (run : Run) : AppState :=
  match run.messages.getLast? with
  | none => s
  | some last =>
    saveState { s with lastAgentTimestamp := s.lastAgentTimestamp.set run.chatJid last.timestamp }

/-- `if result.new_session_id:`. A text is set in memory and in its row alike. -/
def keepSession (s : AppState) (run : Run) (result : AgentOutput) : AppState :=
  match result.newSessionId with
  | none => s
  | some id =>
    if id = "" then s
    else
      { s with
        sessions := s.sessions.set run.folder id
        savedSessions := s.savedSessions.set run.folder id }

/-- `process_group_messages` from the agent's return on. -/
def finishRun (s : AppState) (run : Run) (result : AgentOutput) : AppState × Bool :=
  if run.succeeds result then (keepSession (commitCursor s run) run result,true)
  else (s,run.outputSent)

end Calls

section Lemmas
variable {cfg : Config} {allowlist : SenderAllowlistConfig} {s : AppState}

theorem cursor_saveState {jid : String} (h : (s.registeredGroups.get? jid).isSome) :
    (saveState s).cursor jid = s.cursor jid := by
  simp only [saveState, AppState.cursor]
  split
  · rfl
  · exact congrArg (Option.getD · "")
      (Dict.get?_filterKeys _ (decide_eq_true (Dict.mem_keys_of_get? h)))

@[simp] theorem registeredGroups_saveState : (saveState s).registeredGroups = s.registeredGroups := by
  simp only [saveState]
  split <;> rfl

@[simp] theorem messages_saveState : (saveState s).messages = s.messages := by
  simp only [saveState]
  split <;> rfl

@[simp] theorem registeredGroups_commitCursor {run : Run} :
    (commitCursor s run).registeredGroups = s.registeredGroups := by
  rw [commitCursor]
  split <;> simp

@[simp] theorem messages_commitCursor {run : Run} : (commitCursor s run).messages = s.messages := by
  rw [commitCursor]
  split <;> simp

/-- A commit sets the cursor of its own chat to the last timestamp of the batch. -/
theorem cursor_commitCursor {run : Run} {last : NewMessage} {jid : String}
    (hlast : run.messages.getLast? = some last) (h : (s.registeredGroups.get? jid).isSome) :
    (commitCursor s run).cursor jid = if jid = run.chatJid then last.timestamp else s.cursor jid := by
  simp only [commitCursor, hlast]
  refine (cursor_saveState (by exact h)).trans ?_
  simp only [AppState.cursor]
  split
  · rename_i hj
    rw [hj, Dict.get?_set_self]
    rfl
  · rename_i hj
    rw [Dict.get?_set_ne _ _ hj]

@[simp] theorem registeredGroups_keepSession {run : Run} {result : AgentOutput} :
    (keepSession s run result).registeredGroups = s.registeredGroups := by
  rw [keepSession]
  split
  · rfl
  · split <;> rfl

@[simp] theorem messages_keepSession {run : Run} {result : AgentOutput} :
    (keepSession s run result).messages = s.messages := by
  rw [keepSession]
  split
  · rfl
  · split <;> rfl

@[simp] theorem cursor_keepSession {run : Run} {result : AgentOutput} {jid : String} :
    (keepSession s run result).cursor jid = s.cursor jid := by
  rw [keepSession]
  split
  · rfl
  · split <;> rfl

@[simp] theorem registeredGroups_finishRun {run : Run} {result : AgentOutput} :
    (finishRun s run result).1.registeredGroups = s.registeredGroups := by
  rw [finishRun]
  split <;> simp

@[simp] theorem messages_finishRun {run : Run} {result : AgentOutput} :
    (finishRun s run result).1.messages = s.messages := by
  rw [finishRun]
  split <;> simp

theorem cursor_finishRun {run : Run} {result : AgentOutput} {jid : String} :
    (finishRun s run result).1.cursor jid =
      if run.succeeds result then (commitCursor s run).cursor jid else s.cursor jid := by
  rw [finishRun]
  split <;> simp

/-- The row that `send_message` stores. -/
def sentRow (cfg : Config) (jid text uuid now : String) : NewMessage where
  id := uuid
  chatJid := jid
  sender := String.ofList (cfg.assistantName.toList.map Char.toLower) ++ "@nanoclaw.local"
  senderName := cfg.assistantName
  content := text
  timestamp := now
  isFromMe := true
  isBotMessage := true

theorem sendMessage_ok {s' : AppState} {jid text uuid now : String} {failure : Option PyExc}
    (h : sendMessage cfg s jid text uuid now failure = .ok s') :
    s' = { s with
      sent := s.sent ++ [(jid,text)]
      messages := storeMessage s.messages (sentRow cfg jid text uuid now) } := by
  simp only [sendMessage] at h
  split_ifs at h
  split at h
  · cases h
  · cases h
    rfl

/-- A streamed output sends at most one message, to the chat of the call. -/
theorem onOutput_sent {run run' : Run} {s' : AppState} {out : AgentOutput} {uuid now : String}
    {failure : Option PyExc} (h : onOutput cfg s run out uuid now failure = .ok (s',run')) :
    (run'.chatJid = run.chatJid ∧ run'.messages = run.messages) ∧
      (s' = s ∨ ∃ text, s' = { s with
        sent := s.sent ++ [(run.chatJid,text)]
        messages := storeMessage s.messages (sentRow cfg run.chatJid text uuid now) }) := by
  simp only [onOutput] at h
  split_ifs at h with hempty
  · cases h
    exact ⟨⟨rfl,rfl⟩,.inl rfl⟩
  · split at h
    · cases h
    · rename_i s₁ hsend
      cases h
      exact ⟨⟨rfl,rfl⟩,.inr ⟨_,sendMessage_ok hsend⟩⟩

/-- What the agent is invoked with: the pending batch of a registered chat. -/
theorem processGroupMessages_invokes {chatJid : String} {run : Run}
    (h : processGroupMessages cfg allowlist s chatJid = .invokes run) :
    run.chatJid = chatJid ∧ (s.registeredGroups.get? chatJid).isSome ∧ run.messages ≠ [] ∧
      run.messages = getMessagesSince cfg.plan s.messages chatJid (s.cursor chatJid)
        cfg.assistantName defaultLimit ∧
      formatMessages cfg.zones run.messages cfg.timezone = .ok run.prompt := by
  rw [processGroupMessages] at h
  split at h
  · cases h
  · rename_i group hgroup
    simp only at h
    split_ifs at h with hchannel hempty htrigger
    split at h
    · cases h
    · rename_i prompt hprompt
      cases h
      exact ⟨rfl,by simp [hgroup],hempty,rfl,hprompt⟩

/-- A call that comes to its agent, as its group and the sessions have it. -/
theorem invokes_spec {chatJid : String} {run : Run}
    (h : processGroupMessages cfg allowlist s chatJid = .invokes run) :
    ∃ group, s.registeredGroups.get? chatJid = some group ∧
      findChannel cfg.channels chatJid ≠ none ∧ run.folder = group.folder ∧
      run.isMain = decide (group.isMain = some true) ∧
      run.sessionId = s.sessions.get? group.folder ∧ run.outputSent = false ∧ run.hadError = false := by
  rw [processGroupMessages] at h
  split at h
  · cases h
  · rename_i group hgroup
    simp only at h
    split_ifs at h with hchannel
    split at h
    · cases h
    · cases h
      exact ⟨group,hgroup,hchannel,rfl,rfl,rfl,rfl,rfl⟩

end Lemmas

/-- A configuration with the local channel, in UTC. -/
def localCfg : Config where
  assistantName := "Andy"
  timezone := "UTC"
  zones := ⟨fun _ => .ok (fun _ => 0),0⟩
  isWord := Char.isAlphanum
  channels := [.localFile]
  plan := .stored

def webhookCfg : Config := { localCfg with channels := [.webhookHttp] }

/-- An allowlist that lets everyone through. -/
def everyone : SenderAllowlistConfig := ⟨⟨none,.trigger⟩,Dict.empty⟩

/-- An app with these chats and messages that has answered nothing. -/
def AppState.unanswered (groups : Groups) (messages : List NewMessage) : AppState where
  registeredGroups := groups
  messages := messages
  lastTimestamp := ""
  lastAgentTimestamp := Dict.empty
  sessions := Dict.empty
  routerState := Dict.empty
  savedSessions := Dict.empty
  sent := []

def firstMessage (chatJid : String) : NewMessage :=
  ⟨"1",chatJid,"u","U","hi","2026-01-01T00:00:00Z",false,false⟩

/-- An app with one message in its main chat. -/
def askedApp : AppState := .unanswered mainGroups [firstMessage "local:main"]

end NanoClaw.App
