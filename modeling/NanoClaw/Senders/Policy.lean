import NanoClaw.App.Callbacks
import NanoClaw.Senders.Allowlist

/-! A loaded configuration as the app uses it: the policy functions over it, and the inbound messages
that are lost with a file that does not load. -/
namespace NanoClaw.Senders
open Json Channels

/-- The chats as a `dict`. -/
def SenderAllowlistConfig.chatDict (config : SenderAllowlistConfig) : Dict String ChatAllowlistEntry :=
  config.chats.foldl (fun d item => d.set item.1 item.2) Dict.empty

section Source
variable (chatJid sender : String) (config : SenderAllowlistConfig)

/-- `_get_entry`. -/
def getEntry : ChatAllowlistEntry := (config.chatDict.get? chatJid).getD config.default

/-- `is_sender_allowed`. -/
def isSenderAllowed : Bool :=
  match (getEntry chatJid config).allow with
  | .str s => s == "*"
  | .arr items => items.any (fun x => match x with | .str s => s == sender | _ => false)
  | _ => false

/-- `should_drop_message`. -/
def shouldDropMessage : Bool :=
  match (getEntry chatJid config).mode with
  | .str s => s == "drop"
  | _ => false

end Source

def textOf : Json → Option String
  | .str s => some s
  | _ => none

/-- An entry as the app has it: the senders that are texts, or everyone. -/
def ChatAllowlistEntry.policy (entry : ChatAllowlistEntry) : App.ChatAllowlistEntry where
  allow :=
    match entry.allow with
    | .arr items => some (items.filterMap textOf)
    | _ => none
  mode :=
    match entry.mode with
    | .str s => if s = "drop" then .drop else .trigger
    | _ => .trigger

def SenderAllowlistConfig.policy (config : SenderAllowlistConfig) : App.SenderAllowlistConfig :=
  ⟨config.default.policy,config.chatDict.mapValues ChatAllowlistEntry.policy⟩

section Agreement
variable {config : SenderAllowlistConfig}

theorem getEntry_policy (chatJid : String) (config : SenderAllowlistConfig) :
    App.getEntry chatJid config.policy = (getEntry chatJid config).policy := by
  rw [App.getEntry, getEntry, SenderAllowlistConfig.policy, Dict.get?_mapValues]
  cases config.chatDict.get? chatJid <;> rfl

/-- An entry of a valid configuration is valid, the default's in place of one that is missing. -/
theorem valid_getEntry (h : config.Valid) (chatJid : String) : (getEntry chatJid config).Valid := by
  rw [getEntry]
  cases hentry : config.chatDict.get? chatJid with
  | none => exact h.1
  | some entry =>
    apply Dict.of_get?_foldl_set h.2 _ hentry
    rintro _ ⟨⟩

theorem mem_filterMap_textOf {items : List Json} {sender : String} :
    items.any (fun x => match x with | .str s => s == sender | _ => false) = true ↔
      sender ∈ items.filterMap textOf := by
  rw [List.any_eq_true, List.mem_filterMap]
  apply exists_congr
  intro x
  apply and_congr_right
  intro _
  cases x <;> simp [textOf]

/-- The policy lets in the senders that a valid configuration does. -/
theorem isSenderAllowed_policy (h : config.Valid) (chatJid sender : String) :
    App.isSenderAllowed chatJid sender config.policy = isSenderAllowed chatJid sender config := by
  obtain ⟨hallow | ⟨items,hallow,_⟩,_⟩ := valid_getEntry h chatJid
  · rw [App.isSenderAllowed, getEntry_policy, isSenderAllowed, ChatAllowlistEntry.policy, hallow]
    rfl
  · rw [App.isSenderAllowed, getEntry_policy, isSenderAllowed, ChatAllowlistEntry.policy, hallow]
    rw [Bool.eq_iff_iff, decide_eq_true_eq]
    exact mem_filterMap_textOf.symm

/-- The policy drops the messages that a valid configuration does. -/
theorem shouldDropMessage_policy (h : config.Valid) (chatJid : String) :
    App.shouldDropMessage chatJid config.policy = shouldDropMessage chatJid config := by
  obtain ⟨_,hmode | hmode⟩ := valid_getEntry h chatJid
  · rw [App.shouldDropMessage, getEntry_policy, shouldDropMessage, ChatAllowlistEntry.policy, hmode]
    rfl
  · rw [App.shouldDropMessage, getEntry_policy, shouldDropMessage, ChatAllowlistEntry.policy, hmode]
    rfl

end Agreement

/-- With a file that is not digestible, no message for a registered chat is taken in, but what the app
or another bot wrote. -/
theorem onMessage_raises {loads : List Char → Except PyExc Json} {file : TextFile}
    (hfile : ¬Digestible loads file) (cb : App.Callbacks) {mtime : Nat} {before after : Option Nat}
    (hload : cb.allowlist =
      (loadSenderAllowlist loads ⟨none,mtime⟩ before file after).1.map (·.policy))
    {i : Inbound} {jid : String} (hjid : i.chatJid = some jid)
    (hgroup : (cb.registeredGroups.get? jid).isSome = true) (hown : ¬(i.isFromMe ∨ i.isBotMessage))
    (messages : List Store.NewMessage) : ¬∃ messages', App.onMessage cb messages i = .ok messages' := by
  rw [App.onMessage_ok_iff, not_not]
  refine ⟨jid,hjid,hgroup,?_⟩
  rw [if_neg hown, hload, loadSenderAllowlist_fresh]
  cases hloaded : loadUncached loads file with
  | error e => trivial
  | ok config => exact absurd (loadUncached_ok_iff.mp ⟨config,hloaded⟩) hfile

end NanoClaw.Senders
