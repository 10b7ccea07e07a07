import NanoClaw.App.State
import NanoClaw.Store.MessageRows

/-! The checks a start requests, next to the batches `process_group_messages` finds. -/
namespace NanoClaw.App
open Store Channels Router Timezone

/-- `recover_pending_messages`: the chats it requests a check for. -/
def recoverPendingMessages (cfg : Config) (s : AppState) : List String :=
  s.registeredGroups.keys.filter (fun jid =>
    hasMessagesSince s.messages jid (s.cursor jid) cfg.assistantName)

/-- `process_group_messages` up to its query: the group and the batch it finds. -/
def findBatch (cfg : Config) (s : AppState) (chatJid : String) :
    Option (RegisteredGroup × List NewMessage) :=
  match s.registeredGroups.get? chatJid with
  | none => none
  | some group =>
    if findChannel cfg.channels chatJid = none then none
    else
      let messages := getMessagesSince cfg.plan s.messages chatJid (s.cursor chatJid)
        cfg.assistantName defaultLimit
      if messages = [] then none else some (group,messages)

section Batch
variable {cfg : Config} {allowlist : SenderAllowlistConfig} {s : AppState} {chatJid : String}

/-- A call that finds no batch is done, and one that finds one goes on with it. -/
theorem processGroupMessages_eq_findBatch :
    processGroupMessages cfg allowlist s chatJid =
      match findBatch cfg s chatJid with
      | none => .returns true
      | some (group,messages) =>
        if group.isMain ≠ some true ∧ group.requiresTrigger ≠ some false ∧
            hasTrigger cfg allowlist chatJid messages = false then .returns true
        else
          match formatMessages cfg.zones messages cfg.timezone with
          | .error e => .raises e
          | .ok prompt =>
            .invokes ⟨chatJid,group.folder,group.isMain = some true,messages,prompt,
              s.sessions.get? group.folder,false,false⟩ := by
  cases hgroup : s.registeredGroups.get? chatJid with
  | none => simp only [processGroupMessages, findBatch, hgroup]
  | some group =>
    simp only [processGroupMessages, findBatch, hgroup]
    by_cases hchannel : findChannel cfg.channels chatJid = none
    · rw [if_pos hchannel, if_pos hchannel]
    · rw [if_neg hchannel, if_neg hchannel]
      cases getMessagesSince cfg.plan s.messages chatJid (s.cursor chatJid) cfg.assistantName
        defaultLimit with
      | nil => rfl
      | cons => rfl

theorem findBatch_eq_some {group : RegisteredGroup} {messages : List NewMessage}
    (h : findBatch cfg s chatJid = some (group,messages)) :
    s.registeredGroups.get? chatJid = some group ∧ findChannel cfg.channels chatJid ≠ none := by
  rw [findBatch] at h
  cases hgroup : s.registeredGroups.get? chatJid with
  | none =>
    rw [hgroup] at h
    contradiction
  | some registered =>
    rw [hgroup] at h
    dsimp only at h
    split_ifs at h with hchannel
    cases h
    exact ⟨rfl,hchannel⟩

theorem findBatch_isSome :
    (findBatch cfg s chatJid).isSome ↔
      (s.registeredGroups.get? chatJid).isSome ∧ findChannel cfg.channels chatJid ≠ none ∧
        getMessagesSince cfg.plan s.messages chatJid (s.cursor chatJid) cfg.assistantName
          defaultLimit ≠ [] := by
  rw [findBatch]
  cases s.registeredGroups.get? chatJid with
  | none => simp
  | some group =>
    dsimp only
    split_ifs with hchannel hempty
    · simp [hchannel]
    · simp [hempty]
    · simp [hchannel, hempty]

/-- The probe of the app's table answers whether its query returns anything. -/
theorem hasMessagesSince_iff_getMessagesSince {plan : Plan} {messages : List NewMessage}
    {since botPrefix : String} :
    hasMessagesSince messages chatJid since botPrefix = true ↔
      getMessagesSince plan messages chatJid since botPrefix defaultLimit ≠ [] := by
  have hlatest : getMessagesSince plan messages chatJid since botPrefix defaultLimit = [] ↔
      pendingSince messages chatJid since botPrefix = [] :=
    Latest.latest_eq_nil_iff plan.perm (by decide)
  rw [Ne, hlatest, hasMessagesSince, Bool.not_eq_true', List.isEmpty_eq_false_iff]

theorem mem_recoverPendingMessages :
    chatJid ∈ recoverPendingMessages cfg s ↔
      (s.registeredGroups.get? chatJid).isSome ∧
        getMessagesSince cfg.plan s.messages chatJid (s.cursor chatJid) cfg.assistantName
          defaultLimit ≠ [] := by
  rw [recoverPendingMessages, List.mem_filter, hasMessagesSince_iff_getMessagesSince,
    Dict.mem_keys_iff]

end Batch

/-- The probe and the query of any table agree, so a start requests a check, once, for each
registered chat whose query returns something. Of the chats that a channel owns these are the ones
for which a batch is found. -/
theorem recovery_agrees (cfg : Config) (s : AppState) :
    (∀ (probe query : Rows.Scan) (rows : List Rows.MessageRow) (chatJid since botPrefix : String),
      Rows.hasMessagesSince probe rows chatJid since botPrefix = true ↔
        ∃ messages,
          Rows.getMessagesSince query rows chatJid since botPrefix defaultLimit = .ok messages ∧
            messages ≠ []) ∧
    (recoverPendingMessages cfg s).Nodup ∧
    ∀ chatJid,
      (chatJid ∈ recoverPendingMessages cfg s ↔
        (s.registeredGroups.get? chatJid).isSome ∧
          getMessagesSince cfg.plan s.messages chatJid (s.cursor chatJid) cfg.assistantName
            defaultLimit ≠ []) ∧
      (chatJid ∈ recoverPendingMessages cfg s ∧ findChannel cfg.channels chatJid ≠ none ↔
        (findBatch cfg s chatJid).isSome) := by
  refine ⟨?_,s.registeredGroups.nodup.filter _,fun chatJid => ⟨mem_recoverPendingMessages,?_⟩⟩
  · intro probe query rows chatJid since botPrefix
    rw [← Rows.hasMessagesSince_iff_fetched, Rows.hasMessagesSince_iff, Rows.hasMessagesSince_iff]
  · rw [mem_recoverPendingMessages, findBatch_isSome, and_assoc, and_comm (b := _ ≠ none)]

private def recoveryCfg : Config := { localCfg with channels := [] }

private def orphaned : AppState :=
  .unanswered (Dict.empty.set "webhook:1" mainGroup) [firstMessage "webhook:1"]

/-- A chat whose channel is not connected any more: its check is requested and finds no batch. -/
theorem unowned_chat_requested :
    "webhook:1" ∈ recoverPendingMessages recoveryCfg orphaned ∧
      findBatch recoveryCfg orphaned "webhook:1" = none ∧
      processGroupMessages recoveryCfg everyone orphaned "webhook:1" =
        .returns true := by
  refine ⟨?_,rfl,rfl⟩
  decide +kernel

end NanoClaw.App
