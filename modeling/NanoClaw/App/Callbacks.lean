import NanoClaw.App.State
import NanoClaw.Store.Chats

/-! The two callbacks the app gives to every channel, and which inbound messages they refuse. -/
namespace NanoClaw.App
open Store Channels Json

/-- What the callbacks take from the app and its surroundings. `allowlist` is what
`load_sender_allowlist` returns or raises. -/
structure Callbacks where
  realText : String → String
  registeredGroups : Groups
  allowlist : Except PyExc SenderAllowlistConfig

section Calls
variable (cb : Callbacks)

/-- `_on_chat_metadata`, for the fields of an inbound message. -/
def onChatMetadata (chats : ChatTable) (inbound : Inbound) (channel : String) (isGroup : Bool) :
    Except PyExc ChatTable :=
  storeChatMetadata cb.realText chats inbound.chatJid inbound.timestamp inbound.chatName
    (some channel) (some isGroup)

/-- `is_sender_allowed`; no list names a sender with a lone surrogate. -/
def isInboundAllowed (jid : String) (allowlist : SenderAllowlistConfig) : Option String → Bool
  | some sender => isSenderAllowed jid sender allowlist
  | none => (getEntry jid allowlist).allow.isNone

/-- The message of an inbound message whose texts can all be stored. -/
def storable? (i : Inbound) : Option NewMessage :=
  match i.id, i.chatJid, i.sender, i.senderName, i.content, i.timestamp with
  | some id, some chatJid, some sender, some senderName, some content, some timestamp =>
    some ⟨id,chatJid,sender,senderName,content,timestamp,i.isFromMe,i.isBotMessage⟩
  | _, _, _, _, _, _ => none

def storeInbound (messages : List NewMessage) (i : Inbound) : Except PyExc (List NewMessage) :=
  match storable? i with
  | some m => .ok (storeMessage messages m)
  | none => .error .unicodeEncodeError

/-- `_on_inbound_message`; the message check that it enqueues raises nothing. -/
def onMessage (messages : List NewMessage) (i : Inbound) : Except PyExc (List NewMessage) :=
  match i.chatJid with
  | none => .ok messages
  | some jid =>
    if (cb.registeredGroups.get? jid).isNone then .ok messages
    else if !i.isFromMe && !i.isBotMessage then
      match cb.allowlist with
      | .error e => .error e
      | .ok allowlist =>
        if shouldDropMessage jid allowlist && !isInboundAllowed jid allowlist i.sender then
          .ok messages
        else storeInbound messages i
    else storeInbound messages i

end Calls

/-- The chat's jid, name and time can be bound. -/
def HasStorableChat (i : Inbound) : Prop :=
  ∃ jid, i.chatJid = some jid ∧ i.timestamp.isSome ∧ bindable (i.chatName.orElse (str jid)) = true

/-- The message is for a registered chat, and the allowlist cannot be read or lets through a
sender some text of whose message cannot be stored. -/
def RaisesOnMessage (cb : Callbacks) (i : Inbound) : Prop :=
  ∃ jid, i.chatJid = some jid ∧ (cb.registeredGroups.get? jid).isSome ∧
    if i.isFromMe ∨ i.isBotMessage then storable? i = none
    else
      match cb.allowlist with
      | .error _ => True
      | .ok allowlist =>
        (shouldDropMessage jid allowlist = true → isInboundAllowed jid allowlist i.sender = true) ∧
          storable? i = none

theorem columnText_eq_ok_iff {realText : String → String} {v : Json} :
    (∃ text, columnText realText v = .ok text) ↔ bindable v = true := by
  cases v with
  | int n =>
    simp only [columnText, bindable, Bool.and_eq_true, decide_eq_true_eq]
    split_ifs with h
    · simp [h]
    · simp [h]
  | _ => simp [columnText, bindable]

/-- The metadata of an inbound message is stored exactly when its chat is storable. -/
theorem onChatMetadata_ok_iff {cb : Callbacks} {chats : ChatTable} {i : Inbound} {channel : String}
    {isGroup : Bool} :
    (∃ chats', onChatMetadata cb chats i channel isGroup = .ok chats') ↔ HasStorableChat i := by
  unfold onChatMetadata storeChatMetadata HasStorableChat
  cases hjid : i.chatJid with
  | none => simp
  | some jid =>
    simp only [Option.some.injEq, exists_eq_left']
    have hname := @columnText_eq_ok_iff cb.realText (i.chatName.orElse (str jid))
    rw [← hname]
    cases hname : columnText cb.realText (i.chatName.orElse (str jid)) with
    | error e => simp
    | ok name =>
      cases htime : i.timestamp with
      | none => simp
      | some time => simp

theorem storeInbound_ok_iff {messages : List NewMessage} {i : Inbound} :
    (∃ messages', storeInbound messages i = .ok messages') ↔ storable? i ≠ none := by
  rw [storeInbound]
  cases storable? i with
  | none => simp
  | some m => simp

theorem onMessage_ok_iff {cb : Callbacks} {messages : List NewMessage} {i : Inbound} :
    (∃ messages', onMessage cb messages i = .ok messages') ↔ ¬RaisesOnMessage cb i := by
  unfold onMessage RaisesOnMessage
  cases hjid : i.chatJid with
  | none => simp
  | some jid =>
    simp only [Option.some.injEq, exists_eq_left']
    cases hgroup : cb.registeredGroups.get? jid with
    | none => simp
    | some group =>
      by_cases hown : i.isFromMe = true ∨ i.isBotMessage = true
      · have hskip : (!i.isFromMe && !i.isBotMessage) = false := by
          rcases hown with h | h <;> simp [h]
        simp [hown, hskip, storeInbound_ok_iff]
      · have htake : (!i.isFromMe && !i.isBotMessage) = true := by
          simpa [not_or] using hown
        cases hallow : cb.allowlist with
        | error e => simp [hown, htake]
        | ok allowlist =>
          have hpass : (shouldDropMessage jid allowlist = true →
              isInboundAllowed jid allowlist i.sender = true) ↔
                ¬(shouldDropMessage jid allowlist &&
                  !isInboundAllowed jid allowlist i.sender) = true := by
            simp
          simp only [Option.isNone_some, Option.isSome_some, true_and, if_neg hown, htake, if_true,
            Bool.false_eq_true, if_false, hpass, not_and]
          split_ifs with hdenied
          · simp [hdenied]
          · simp [hdenied, storeInbound_ok_iff]

section Congruence
variable {i : Inbound} {id timestamp : Option String}

theorem hasStorableChat_congr (htime : timestamp.isSome = i.timestamp.isSome) :
    HasStorableChat { i with id := id, timestamp := timestamp } ↔ HasStorableChat i := by
  simp only [HasStorableChat, htime]

theorem storable?_isSome (i : Inbound) : (storable? i).isSome =
    (i.id.isSome && i.chatJid.isSome && i.sender.isSome && i.senderName.isSome &&
      i.content.isSome && i.timestamp.isSome) := by
  obtain ⟨id,chatJid,sender,senderName,content,timestamp,_,_,_⟩ := i
  cases id <;> cases chatJid <;> cases sender <;> cases senderName <;> cases content <;>
    cases timestamp <;> rfl

theorem raisesOnMessage_congr {cb : Callbacks} (hid : id.isSome = i.id.isSome)
    (htime : timestamp.isSome = i.timestamp.isSome) :
    RaisesOnMessage cb { i with id := id, timestamp := timestamp } ↔ RaisesOnMessage cb i := by
  have hstorable : storable? { i with id := id, timestamp := timestamp } = none ↔
      storable? i = none := by
    simp only [← Option.isNone_iff_eq_none, ← Option.not_isSome, storable?_isSome, hid, htime]
  simp only [RaisesOnMessage, hstorable]

end Congruence

/-- The callbacks of an app without chats. -/
def noGroups : Callbacks := ⟨id,Dict.empty,.ok everyone⟩

end NanoClaw.App
