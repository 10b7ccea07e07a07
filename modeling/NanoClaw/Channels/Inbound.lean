import NanoClaw.Library.Json
import NanoClaw.Library.PyText
import NanoClaw.Library.Utf8
import NanoClaw.Store.Messages

/-! The channels: which chats they own, and what each accepts as an inbound message. -/
namespace NanoClaw.Channels
open Store Json

inductive Channel where
  | localFile
  | cliStdio
  | webhookHttp
  deriving DecidableEq, Repr

def Channel.ownsJid (channel : Channel) (jid : String) : Bool :=
  match channel with
  | .localFile => "local:".toList.isPrefixOf jid.toList
  | .cliStdio => "cli:".toList.isPrefixOf jid.toList
  | .webhookHttp => "webhook:".toList.isPrefixOf jid.toList

def findChannel (channels : List Channel) (jid : String) : Option Channel :=
  channels.find? (·.ownsJid jid)

/-- What a channel passes to the app. A text is none where it has a lone surrogate. -/
structure Inbound where
  id : Option String
  chatJid : Option String
  sender : Option String
  senderName : Option String
  content : Option String
  timestamp : Option String
  chatName : Json
  isFromMe : Bool
  isBotMessage : Bool

/-- What a channel takes from its surroundings: the interpreter, the clock and `uuid4`. -/
structure Env where
  interp : Interp
  reprOf : Json → String
  now : String
  uuid : String

section Validation
variable (env : Env)

/-- `str(fields.get(key) or default)`. -/
def textOr (fields : List (String × Json)) (key default : String) : Option String :=
  ((getKey key fields).orElse (str default)).text? env.reprOf

/-- `bool(fields.get(key, False))`. -/
def flag (fields : List (String × Json)) (key : String) : Bool := (getKey key fields).truthy

def stripText (s : String) : String := String.ofList (PyText.strip s.toList)

/-- `not text.strip()`; a surrogate is no white space. -/
def isBlank : Option String → Bool
  | none => false
  | some s => stripText s = ""

/-- `_validate_payload` of the webhook channel, with what `poll` makes of the result. -/
def validatePayload : Json → Option Inbound
  | .obj fields =>
    if ¬(["chat_jid","sender","sender_name","content"].all (fun k => (getKey k fields).isText)) then
      none
    else
      let content := (textOr env fields "content" "").map stripText
      if content = some "" then none
      else
        let timestamp := getKey "timestamp" fields
        some
          { id := textOr env fields "id" env.uuid
            chatJid := (getKey "chat_jid" fields).text? env.reprOf
            sender := (getKey "sender" fields).text? env.reprOf
            senderName := (getKey "sender_name" fields).text? env.reprOf
            content := content
            timestamp :=
              (if timestamp.isText ∧ timestamp.truthy then timestamp else str env.now).text? env.reprOf
            chatName := getKey "chat_name" fields
            isFromMe := false
            isBotMessage := false }
  | _ => none

/-- `do_POST` of the webhook channel from the body on: what it answers with 202. -/
def webhookInbound (body : List UInt8) : Option Inbound :=
  match Utf8.decode? body with
  | none => none
  | some text =>
    match loads env.interp text with
    | .error _ => none
    | .ok payload => validatePayload env payload

/-- The turn of the local-file channel's `poll` for one file. -/
def localFileInbound (bytes : List UInt8) : Option Inbound :=
  match Utf8.decode? bytes with
  | none => none
  | some text =>
    match loads env.interp text with
    | .ok (.obj fields) =>
      let content := textOr env fields "content" ""
      if isBlank content then none
      else
        some
          { id := textOr env fields "id" env.uuid
            chatJid := textOr env fields "chat_jid" "local:main"
            sender := textOr env fields "sender" "local:user"
            senderName := textOr env fields "sender_name" "User"
            content := content
            timestamp := textOr env fields "timestamp" env.now
            chatName := getKey "chat_name" fields
            isFromMe := flag fields "is_from_me"
            isBotMessage := flag fields "is_bot_message" }
    | _ => none

/-- `_parse_line` from the decoded value on. -/
def parseFields (fields : List (String × Json)) : Option Inbound :=
  let content := (textOr env fields "content" "").map stripText
  if content = some "" then none
  else
    some
      { id := textOr env fields "id" env.uuid
        chatJid := textOr env fields "chat_jid" "cli:main"
        sender := textOr env fields "sender" "cli:user"
        senderName := textOr env fields "sender_name" "CLI User"
        content := content
        timestamp := textOr env fields "timestamp" env.now
        chatName := getKey "chat_name" fields
        isFromMe := flag fields "is_from_me"
        isBotMessage := flag fields "is_bot_message" }

/-- `_parse_line` of the cli channel: a line that is no JSON is the content itself. -/
def parseLine (raw : String) : Option Inbound :=
  let stripped := stripText raw
  if stripped = "" then none
  else
    match loads env.interp stripped.toList with
    | .ok (.str s) => parseFields env [("content",str s)]
    | .ok (.illFormed codes) => parseFields env [("content",illFormed codes)]
    | .ok (.obj fields) => parseFields env fields
    | .ok _ => none
    | .error .jsonDecodeError => parseFields env [("content",str stripped)]
    | .error _ => none

end Validation

/-- A value SQLite takes as a parameter. -/
def bindable : Json → Bool
  | .null | .bool _ | .float _ | .str _ => true
  | .int n => -9223372036854775808 ≤ n && n ≤ 9223372036854775807
  | _ => false

/-- The message `on_message` is called with, when all its texts can be stored; `on_chat_metadata`
comes first and has to store the chat's name. -/
def Inbound.message? (i : Inbound) : Option NewMessage :=
  match i.id, i.chatJid, i.sender, i.senderName, i.content, i.timestamp with
  | some id, some chatJid, some sender, some senderName, some content, some timestamp =>
    if bindable (i.chatName.orElse (str chatJid)) then
      some ⟨id,chatJid,sender,senderName,content,timestamp,i.isFromMe,i.isBotMessage⟩
    else none
  | _, _, _, _, _, _ => none

/-- One inbound payload as it reaches a channel. -/
inductive Payload where
  | webhook (body : List UInt8)
  | localFile (bytes : List UInt8)
  | cliLine (raw : String)

/-- The payloads the channels' own validation accepts. -/
def accepts (env : Env) : Payload → Option Inbound
  | .webhook body => webhookInbound env body
  | .localFile bytes => localFileInbound env bytes
  | .cliLine raw => parseLine env raw

def webhookEnv : Env := ⟨⟨String.ofList,10⟩,fun _ => "","2024-01-01T00:00:00Z","u1"⟩

end NanoClaw.Channels
