import NanoClaw.App.Callbacks
import NanoClaw.Library.Execution

/-! A connected webhook channel: requests put what they validate into its queue, and polls hand it
to the app, one item after the other. -/
namespace NanoClaw.App
open Store Channels Execution Json

/-- What `_validate_payload` returns. A text is none where it has a lone surrogate. -/
structure Parsed where
  id : Json
  chatJid : Option String
  sender : Option String
  senderName : Option String
  content : Option String
  timestamp : Option String
  chatName : Json
  isGroup : Bool

/-- `_MAX_PAYLOAD_BYTES`. -/
def maxPayloadBytes : Nat := 1048576

section Requests
variable (env : Env)

/-- `_validate_payload`. -/
def parsePayload : Json → Option Parsed
  | .obj fields =>
    if ¬(["chat_jid","sender","sender_name","content"].all (fun k => (getKey k fields).isText)) then
      none
    else
      let content := (textOr env fields "content" "").map stripText
      if content = some "" then none
      else
        let timestamp := getKey "timestamp" fields
        some
          { id := getKey "id" fields
            chatJid := (getKey "chat_jid" fields).text? env.reprOf
            sender := (getKey "sender" fields).text? env.reprOf
            senderName := (getKey "sender_name" fields).text? env.reprOf
            content := content
            timestamp :=
              (if timestamp.isText ∧ timestamp.truthy then timestamp else str env.now).text? env.reprOf
            chatName := getKey "chat_name" fields
            isGroup := (Dict.lookup "is_group" fields).elim true truthy }
  | _ => none

/-- What `poll` passes on of an item, with the id it makes up if there is none. -/
def Parsed.inbound (p : Parsed) (reprOf : Json → String) (uuid : String) : Inbound where
  id := (p.id.orElse (str uuid)).text? reprOf
  chatJid := p.chatJid
  sender := p.sender
  senderName := p.senderName
  content := p.content
  timestamp := p.timestamp
  chatName := p.chatName
  isFromMe := false
  isBotMessage := false

/-- The body of a request that `do_POST` answers with 202, as it goes into the queue. -/
def postPayload (body : List UInt8) : Option Parsed :=
  if maxPayloadBytes < body.length then none
  else
    match Utf8.decode? body with
    | none => none
    | some text =>
      match loads env.interp text with
      | .error _ => none
      | .ok payload => parsePayload env payload

theorem validatePayload_eq (payload : Json) :
    validatePayload env payload =
      (parsePayload env payload).map (fun p => p.inbound env.reprOf env.uuid) := by
  cases payload with
  | obj fields =>
    simp only [validatePayload, parsePayload]
    split
    · rfl
    · split <;> rfl
  | _ => rfl

/-- Up to its size a request is answered with 202 when the channel's validation accepts it. -/
theorem webhookInbound_eq {body : List UInt8} (hsize : body.length ≤ maxPayloadBytes) :
    webhookInbound env body =
      (postPayload env body).map (fun p => p.inbound env.reprOf env.uuid) := by
  rw [webhookInbound, postPayload, if_neg (Nat.not_lt.mpr hsize)]
  cases hdecode : Utf8.decode? body with
  | none => rfl
  | some text =>
    simp only
    cases loads env.interp text with
    | error e => rfl
    | ok payload => exact validatePayload_eq env payload

end Requests

/-- The channel and the app's tables. `accepted` lists the items answered with 202, and `calls`
the messages passed to `on_message`. -/
structure Webhook where
  queue : List Parsed
  accepted : List Parsed
  calls : List Inbound
  chats : ChatTable
  messages : List NewMessage

namespace Webhook

def start (chats : ChatTable) (messages : List NewMessage) : Webhook := ⟨[],[],[],chats,messages⟩

/-- A request with a body comes in, or `poll_channels` polls the channel. `uuids` gives `uuid4` in
the turn for an item by the number of items behind it. -/
inductive Action where
  | post (now : String) (body : List UInt8)
  | poll (cb : Callbacks) (uuids : Nat → String)

section Steps
variable (env : Env)

/-- The loop of `poll`: an item is off the queue before it is handled, and an exception ends the
loop. -/
def drain (cb : Callbacks) (uuids : Nat → String) (w : Webhook) : List Parsed → Webhook
  | [] => { w with queue := [] }
  | p :: rest =>
    let inbound := p.inbound env.reprOf (uuids rest.length)
    match onChatMetadata cb w.chats inbound "webhook-http" p.isGroup with
    | .error _ => { w with queue := rest }
    | .ok chats =>
      match onMessage cb w.messages inbound with
      | .error _ => { w with queue := rest, chats := chats, calls := w.calls ++ [inbound] }
      | .ok messages =>
        drain cb uuids { w with chats := chats, messages := messages, calls := w.calls ++ [inbound] }
          rest

def step (w : Webhook) : Action → Option Webhook
  | .post now body =>
    match postPayload { env with now := now } body with
    | none => some w
    | some p => some { w with queue := w.queue ++ [p], accepted := w.accepted ++ [p] }
  | .poll cb uuids => some (drain env cb uuids w w.queue)

/-- The chat of an item can be stored with its name and time. -/
def isBindable (p : Parsed) : Bool :=
  match p.chatJid with
  | none => false
  | some jid => p.timestamp.isSome && bindable (p.chatName.orElse (str jid))

/-- A call of `on_message` with the validated fields of an item. -/
def Delivers (p : Parsed) (i : Inbound) : Prop := ∃ uuid, i = p.inbound env.reprOf uuid

/-- The items that are off the queue and can be stored have each been passed on once, in order. -/
def Handled (w : Webhook) : Prop :=
  ∃ done, w.accepted = done ++ w.queue ∧
    List.Forall₂ (Delivers env) (done.filter isBindable) w.calls

end Steps

variable {env : Env}

theorem hasStorableChat_inbound {p : Parsed} {uuid : String} :
    HasStorableChat (p.inbound env.reprOf uuid) ↔ isBindable p = true := by
  simp only [HasStorableChat, isBindable, Parsed.inbound]
  cases p.chatJid <;> simp

/-- One more item handled: it is passed on if it can be stored. -/
theorem forall₂_done {done : List Parsed} {calls : List Inbound} {p : Parsed} {i : Inbound}
    (h : List.Forall₂ (Delivers env) (done.filter isBindable) calls) (hp : isBindable p = true)
    (hi : Delivers env p i) :
    List.Forall₂ (Delivers env) ((done ++ [p]).filter isBindable) (calls ++ [i]) := by
  rw [List.filter_append, List.filter_cons_of_pos hp, List.filter_nil]
  exact List.rel_append h (.cons hi .nil)

section Runs

end Runs

end Webhook

end NanoClaw.App
