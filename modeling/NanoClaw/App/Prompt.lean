import NanoClaw.App.World

/-! Whether the messages a channel accepts can be made into a prompt: it hangs on their
timestamps alone. -/
namespace NanoClaw.App
open Store Channels Router Timezone Execution

/-- A message as some channel hands it over after its own validation. -/
def Accepted (m : NewMessage) : Prop :=
  ∃ env payload, (accepts env payload).bind Inbound.message? = some m

/-- Only the channels call `on_message`. -/
def FromChannel (_ : World) : Action → Prop
  | .inbound _ m => Accepted m
  | _ => True

/-- The batch a call for a chat reads when its cursor is `since`. -/
def batchSince (cfg : Config) (s : AppState) (chatJid since : String) : List NewMessage :=
  getMessagesSince cfg.plan s.messages chatJid since cfg.assistantName defaultLimit

private theorem accepted_rows_step {cfg : Config} {w w' : World} {a : Action}
    (hw : ∀ m ∈ w.app.messages, m.isBotMessage = false → Accepted m) (ha : FromChannel w a)
    (h : step cfg w a = some w') :
    ∀ m ∈ w'.app.messages, m.isBotMessage = false → Accepted m := by
  intro m hm hbot
  rcases mem_messages_step h hm with hm | hm | ⟨allowlist,rfl,_⟩
  · exact hw m hm hbot
  · rw [hbot] at hm
    cases hm
  · exact ha

private theorem raises_unformatted {cfg : Config} {allowlist : SenderAllowlistConfig} {s : AppState}
    {chatJid : String} {e : PyExc}
    (h : processGroupMessages cfg allowlist s chatJid = .raises e) :
    formatMessages cfg.zones (batchSince cfg s chatJid (s.cursor chatJid)) cfg.timezone = .error e := by
  rw [processGroupMessages] at h
  split at h
  · cases h
  · simp only at h
    split_ifs at h
    split at h
    · rename_i e' hformat
      cases h
      exact hformat
    · cases h

/-- In every run of the app, each message of a batch was accepted by a channel, and the prompt
of the batch is made exactly when every one of its timestamps can be displayed. Where the allowlist can
be loaded, nothing else in the making of a prompt raises. -/
theorem prompt_iff_displayable {cfg : Config} {app : AppState} {w : World} {as : List Action}
    (happ : app.messages = []) (hin : Allowed (step cfg) FromChannel (World.init app) as)
    (he : exec (step cfg) (World.init app) as = some w) (chatJid since : String) :
    (∀ m ∈ batchSince cfg w.app chatJid since, Accepted m) ∧
      ((∃ prompt, formatMessages cfg.zones (batchSince cfg w.app chatJid since) cfg.timezone =
          .ok prompt) ↔
        ∀ m ∈ batchSince cfg w.app chatJid since,
          Displayable cfg.zones cfg.timezone m.timestamp) ∧
      ∀ allowlist e, processGroupMessages cfg allowlist w.app chatJid = .raises e →
        ∃ m ∈ batchSince cfg w.app chatJid (w.app.cursor chatJid),
          ¬Displayable cfg.zones cfg.timezone m.timestamp := by
  have hrows : ∀ m ∈ w.app.messages, m.isBotMessage = false → Accepted m := by
    refine allowed_invariant (P := fun w => ∀ m ∈ w.app.messages, m.isBotMessage = false → Accepted m)
      (fun w a w' hw ha h => accepted_rows_step hw ha h) ?_ hin he
    intro m hm
    rw [World.init, happ] at hm
    cases hm
  refine ⟨fun m hm => ?_,formatMessages_isOk_iff,fun allowlist e h => ?_⟩
  · obtain ⟨hm,_,_,hbot,_⟩ := mem_pendingSince.mp (mem_of_mem_getMessagesSince hm)
    exact hrows m hm hbot
  · by_contra hall
    simp only [not_exists, not_and, not_not] at hall
    obtain ⟨prompt,hprompt⟩ := formatMessages_isOk_iff.mpr hall
    rw [raises_unformatted h] at hprompt
    cases hprompt

section Runs

private def app : AppState := .unanswered (Dict.empty.set "webhook:1" mainGroup) []

/-- The body of a webhook request with a given timestamp. -/
private def body (timestamp : String) : List UInt8 :=
  ("\x7b\"chat_jid\": \"webhook:1\", \"sender\": \"a\", \"sender_name\": \"A\", \"content\": \"hi\", " ++
    "\"timestamp\": \"" ++ timestamp ++ "\"\x7d").toList.map (fun c => UInt8.ofNat c.toNat)

private def message (timestamp : String) : NewMessage :=
  ⟨"u1","webhook:1","a","A","hi",timestamp,false,false⟩

theorem prompt_iff_displayable_one_message :
    (∃ prompt, formatMessages localCfg.zones [message "2024-01-01T00:00:00Z"] "UTC" = .ok prompt) ↔
      ∀ m ∈ [message "2024-01-01T00:00:00Z"], Displayable localCfg.zones "UTC" m.timestamp :=
  (@prompt_iff_displayable webhookCfg app _ [.inbound everyone (message "2024-01-01T00:00:00Z")] rfl
    ⟨⟨webhookEnv,.webhook (body "2024-01-01T00:00:00Z"),by decide +kernel⟩,fun _ _ => trivial⟩ rfl
    "webhook:1" "").2.1

/-- The webhook accepts the timestamp `x`, and then no prompt of its chat can be made. -/
theorem accepted_message_blocks_chat :
    Accepted (message "x") ∧
      ∃ w, exec (step webhookCfg) (World.init app) [.inbound everyone (message "x")] = some w ∧
        message "x" ∈ batchSince webhookCfg w.app "webhook:1" (w.app.cursor "webhook:1") ∧
        processGroupMessages webhookCfg everyone w.app "webhook:1" = .raises .valueError :=
  ⟨⟨webhookEnv,.webhook (body "x"),by decide +kernel⟩,_,rfl,by decide +kernel,by decide +kernel⟩

end Runs

end NanoClaw.App
