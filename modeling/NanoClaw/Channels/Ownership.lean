import NanoClaw.Channels.Inbound

/-! Whose chats a channel speaks for. Replies go to the channel that owns a chat, and what comes in
names its chat itself. -/
namespace NanoClaw.Channels
open Json

/-- The channel a payload reaches. -/
def Payload.channel : Payload → Channel
  | .webhook _ => .webhookHttp
  | .localFile _ => .localFile
  | .cliLine _ => .cliStdio

/-- No chat has two owners. -/
theorem ownsJid_unique {c c' : Channel} {jid : String} (h : c.ownsJid jid = true)
    (h' : c'.ownsJid jid = true) : c = c' := by
  have hstarts : ∀ p q : List Char, p.isPrefixOf jid.toList = true → q.isPrefixOf jid.toList = true →
      p.head? = q.head? ∨ p = [] ∨ q = [] := by
    intro p q hp hq
    cases p with
    | nil => exact .inr (.inl rfl)
    | cons a p =>
      cases q with
      | nil => exact .inr (.inr rfl)
      | cons b q =>
        obtain ⟨t,ht⟩ := List.isPrefixOf_iff_prefix.mp hp
        obtain ⟨u,hu⟩ := List.isPrefixOf_iff_prefix.mp hq
        rw [← hu] at ht
        exact .inl (congrArg some (List.cons.inj ht).1)
  cases c <;> cases c' <;> first | rfl | exact absurd (hstarts _ _ h h') (by decide)

theorem findChannel_eq_some_iff {channels : List Channel} {jid : String} {c : Channel} :
    findChannel channels jid = some c ↔ c ∈ channels ∧ c.ownsJid jid = true := by
  constructor
  · intro h
    exact ⟨List.mem_of_find?_eq_some h,by simpa using List.find?_some h⟩
  · rintro ⟨hc,howns⟩
    cases hf : findChannel channels jid with
    | none => exact absurd howns (by simpa using List.find?_eq_none.mp hf c hc)
    | some c' =>
      have hother : c'.ownsJid jid = true := by simpa using List.find?_some hf
      rw [ownsJid_unique hother howns]

/-- The chat that a channel gives to a payload which names none. -/
def Channel.defaultChat : Channel → Option String
  | .localFile => some "local:main"
  | .cliStdio => some "cli:main"
  | .webhookHttp => none

theorem ownsJid_defaultChat : ∀ c : Channel, ∀ jid ∈ c.defaultChat, c.ownsJid jid = true := by
  intro c jid hjid
  cases c <;> cases hjid <;> decide

section Payloads
variable (env : Env)

/-- What a payload says its chat is; `None` where it says nothing. -/
def Payload.chatField (payload : Payload) : Json :=
  let text? :=
    match payload with
    | .webhook body => Utf8.decode? body
    | .localFile bytes => Utf8.decode? bytes
    | .cliLine raw => some (stripText raw).toList
  match text?.map (loads env.interp) with
  | some (.ok (.obj fields)) => getKey "chat_jid" fields
  | _ => .null

/-- A payload that names no chat, where its channel has a default one, or a chat of its channel. -/
def Payload.NamesOwnChat (payload : Payload) : Prop :=
  ((payload.chatField env).truthy = false ∧ payload.channel.defaultChat ≠ none) ∨
    ∃ jid, (payload.chatField env).text? env.reprOf = some jid ∧
      payload.channel.ownsJid jid = true

end Payloads

variable {env : Env} {payload : Payload} {inbound : Inbound}

private theorem webhookInbound_chatJid {body : List UInt8}
    (h : webhookInbound env body = some inbound) :
    inbound.chatJid = (Payload.chatField env (.webhook body)).text? env.reprOf := by
  simp only [webhookInbound] at h
  cases htext : Utf8.decode? body with
  | none =>
    simp only [htext] at h
    cases h
  | some text =>
    simp only [htext] at h
    split at h
    · cases h
    · rename_i v hv
      simp only [validatePayload] at h
      split at h
      · split at h
        · cases h
        · split at h
          · cases h
          · cases h
            simp only [Payload.chatField, htext, Option.map_some, hv]
      · cases h

private theorem localFileInbound_chatJid {bytes : List UInt8}
    (h : localFileInbound env bytes = some inbound) : inbound.chatJid =
      ((Payload.chatField env (.localFile bytes)).orElse (str "local:main")).text? env.reprOf := by
  simp only [localFileInbound] at h
  cases htext : Utf8.decode? bytes with
  | none =>
    simp only [htext] at h
    cases h
  | some text =>
    simp only [htext] at h
    split at h
    · rename_i fields hv
      split_ifs at h
      cases h
      simp only [Payload.chatField, htext, Option.map_some, hv]
      rfl
    · cases h

private theorem parseLine_chatJid {raw : String} (h : parseLine env raw = some inbound) :
    inbound.chatJid =
      ((Payload.chatField env (.cliLine raw)).orElse (str "cli:main")).text? env.reprOf := by
  have hnone : ∀ {content : Json}, parseFields env [("content",content)] = some inbound →
      inbound.chatJid = some "cli:main" := by
    intro content h
    simp only [parseFields] at h
    split_ifs at h
    cases h
    rfl
  simp only [parseLine] at h
  split_ifs at h
  simp only [Payload.chatField, Option.map_some]
  split at h
  · rename_i hv
    rw [hv]
    exact hnone h
  · rename_i hv
    rw [hv]
    exact hnone h
  · rename_i hv
    rw [hv]
    simp only [parseFields] at h
    split_ifs at h
    cases h
    rfl
  · cases h
  · rename_i hv
    rw [hv]
    exact hnone h
  · cases h

/-- The chat of an accepted payload is the one it names, or else the default of its channel. -/
theorem accepts_chatJid (h : accepts env payload = some inbound) :
    inbound.chatJid = ((payload.chatField env).orElse
      ((payload.channel.defaultChat.map str).getD (payload.chatField env))).text? env.reprOf := by
  have horElse : ∀ v : Json, v.orElse v = v := fun v => ite_self v
  cases payload with
  | webhook body =>
    simp only [Payload.channel, Channel.defaultChat, Option.map_none, Option.getD_none, horElse]
    exact webhookInbound_chatJid h
  | localFile bytes => exact localFileInbound_chatJid h
  | cliLine raw => exact parseLine_chatJid h

/-- For any set of connected channels: the chat that an accepted payload is delivered to belongs to
the channel it came in by exactly when the payload names a chat of that channel, or none where
the channel has a default. -/
theorem replies_return_iff {channels : List Channel} {jid : String}
    (hconnected : payload.channel ∈ channels) (haccepts : accepts env payload = some inbound)
    (hjid : inbound.chatJid = some jid) :
    findChannel channels jid = some payload.channel ↔ payload.NamesOwnChat env := by
  have hchat := (accepts_chatJid haccepts).symm.trans hjid
  rw [findChannel_eq_some_iff, and_iff_right hconnected, Payload.NamesOwnChat]
  rw [Json.orElse] at hchat
  split at hchat
  · rename_i htruthy
    simp [htruthy, hchat]
  · rename_i hfalsy
    cases hdefault : payload.channel.defaultChat with
    | none =>
      rw [hdefault] at hchat
      simp only [Option.map_none, Option.getD_none] at hchat
      simp [hchat]
    | some chat =>
      rw [hdefault] at hchat
      cases hchat
      have howns := ownsJid_defaultChat payload.channel jid hdefault
      simp [howns, hfalsy]

section Runs

/-- The body of a webhook request for a chat. -/
private def bodyFor (chatJid : String) : List UInt8 :=
  ("\x7b\"chat_jid\": \"" ++ chatJid ++ "\", \"sender\": \"a\", \"sender_name\": \"A\", " ++
    "\"content\": \"hi\"\x7d").toList.map (fun c => UInt8.ofNat c.toNat)

theorem replies_return_iff_own_chat :
    findChannel [.localFile,.webhookHttp] "webhook:1" = some .webhookHttp ↔
      (Payload.webhook (bodyFor "webhook:1")).NamesOwnChat webhookEnv := by
  have haccepts : (accepts webhookEnv (.webhook (bodyFor "webhook:1"))).map (·.chatJid) =
      some (some "webhook:1") := by decide +kernel
  obtain ⟨inbound,haccepts,hjid⟩ := Option.map_eq_some_iff.mp haccepts
  exact replies_return_iff (by decide) haccepts hjid

/-- A webhook request for the main chat is accepted, and the reply goes to the local files. -/
theorem webhook_speaks_for_main :
    (accepts webhookEnv (.webhook (bodyFor "local:main"))).map (·.chatJid) =
        some (some "local:main") ∧
      findChannel [.localFile,.webhookHttp] "local:main" = some .localFile := by
  decide +kernel

end Runs

end NanoClaw.Channels
