import NanoClaw.App.World

/-! The agent cursor over runs of the app: which messages are answered, and when one that is not
falls behind the cursor. -/
namespace NanoClaw.App
open Store Execution
variable {cfg : Config}

/-- A message the app owes an answer: stored for a registered chat, and eligible. -/
def Owed (cfg : Config) (w : World) (m : NewMessage) : Prop :=
  m ∈ w.app.messages ∧ (w.app.registeredGroups.get? m.chatJid).isSome ∧
    Eligible cfg.assistantName m

instance (w : World) (m : NewMessage) : Decidable (Owed cfg w m) := by
  unfold Owed
  infer_instance

/-- A message not yet answered is still ahead of its chat's cursor, where the query finds it. -/
def NothingLost (cfg : Config) (w : World) : Prop :=
  ∀ m, Owed cfg w m → m ∈ w.delivered ∨
    (w.app.cursor m.chatJid < m.timestamp ∧
      hasMessagesSince w.app.messages m.chatJid (w.app.cursor m.chatJid) cfg.assistantName = true)

/-- The condition on a step. A message that arrives is later than its chat's cursor, and when a
call commits its cursor it had at most as many messages before it as the query returns, and all
that were stored since it read the table are later than its whole batch. -/
def InOrder (cfg : Config) (w : World) : Action → Prop
  | .inbound allowlist m =>
    takesInbound allowlist w.app m.chatJid m = true → Eligible cfg.assistantName m →
      m ∈ w.delivered ∨ w.app.cursor m.chatJid < m.timestamp
  | .finish chatJid result =>
    ∀ flight, w.flights chatJid = some flight → flight.run.succeeds result = true →
      (pendingSince flight.read chatJid flight.since cfg.assistantName).length ≤ defaultLimit ∧
        ∀ m, Owed cfg w m → m.chatJid = chatJid → m ∉ flight.read →
          m ∈ w.delivered ∨ ∀ b ∈ flight.run.messages, b.timestamp < m.timestamp
  | _ => True

/-- What holds of a call in flight: its batch is what the query returned, and what it did not
have to answer when it read the table is answered. -/
structure FlightOk (cfg : Config) (w : World) (chatJid : String) (flight : Flight) : Prop where
  chat : flight.run.chatJid = chatJid
  registered : (w.app.registeredGroups.get? chatJid).isSome
  batch : flight.run.messages =
    getMessagesSince cfg.plan flight.read chatJid flight.since cfg.assistantName defaultLimit
  nonempty : flight.run.messages ≠ []
  read : ∀ m ∈ flight.read, m.chatJid = chatJid → Eligible cfg.assistantName m →
    m ∈ w.delivered ∨ flight.since < m.timestamp

structure Inv (cfg : Config) (w : World) : Prop where
  ahead : ∀ m, Owed cfg w m → m ∈ w.delivered ∨ w.app.cursor m.chatJid < m.timestamp
  flights : ∀ chatJid flight, w.flights chatJid = some flight → FlightOk cfg w chatJid flight

/-- The rows a successful call leaves unanswered are ahead of its new cursor. -/
private theorem ahead_of_last {w : World} {chatJid : String} {flight : Flight}
    {result : AgentOutput} {last m : NewMessage} (hi : Inv cfg w)
    (hc : InOrder cfg w (.finish chatJid result)) (hf : w.flights chatJid = some flight)
    (hs : flight.run.succeeds result = true)
    (hlast : flight.run.messages.getLast? = some last) (hm : Owed cfg w m)
    (hchat : m.chatJid = chatJid) :
    m ∈ w.delivered ++ flight.run.messages ∨ last.timestamp < m.timestamp := by
  obtain ⟨hlimit,hsince⟩ := hc flight hf hs
  have hok := hi.flights chatJid flight hf
  by_cases hread : m ∈ flight.read
  · rcases hok.read m hread hchat hm.2.2 with hd | hlt
    · exact Or.inl (List.mem_append_left _ hd)
    · have hpending : m ∈ pendingSince flight.read chatJid flight.since cfg.assistantName :=
        mem_pendingSince.mpr ⟨hread,hchat,hlt,hm.2.2⟩
      refine Or.inl (List.mem_append_right _ ?_)
      rw [hok.batch]
      exact mem_getMessagesSince hlimit hpending
  · rcases hsince m hm hchat hread with hd | hlt
    · exact Or.inl (List.mem_append_left _ hd)
    · exact Or.inr (hlt last (List.mem_of_getLast? hlast))

/-- A step that ends no call keeps what is ahead of the cursors, and what it stores is. -/
private theorem ahead_step {w w' : World} {a : Action} (hi : Inv cfg w) (hc : InOrder cfg w a)
    (h : step cfg w a = some w') (ha : ∀ chatJid result, a ≠ .finish chatJid result) :
    ∀ m, Owed cfg w' m → m ∈ w'.delivered ∨ w'.app.cursor m.chatJid < m.timestamp := by
  rintro m ⟨hm,hreg,he⟩
  rw [delivered_step h ha, cursor_step h ha]
  rcases mem_messages_step h hm with hm | hbot | ⟨allowlist,rfl,htakes⟩
  · exact hi.ahead m ⟨hm,registeredGroups_step h ▸ hreg,he⟩
  · rw [he.1] at hbot
    cases hbot
  · exact hc htakes he

private theorem ahead_finish {w w' : World} {chatJid : String} {result : AgentOutput}
    (hi : Inv cfg w) (hc : InOrder cfg w (.finish chatJid result))
    (h : step cfg w (.finish chatJid result) = some w') :
    ∀ m, Owed cfg w' m → m ∈ w'.delivered ∨ w'.app.cursor m.chatJid < m.timestamp := by
  obtain ⟨flight,hf,rfl⟩ := Option.map_eq_some_iff.mp h
  have hok := hi.flights chatJid flight hf
  rintro m ⟨hm,hreg,he⟩
  have hm : Owed cfg w m := ⟨messages_finishRun ▸ hm,registeredGroups_finishRun (s := w.app) ▸ hreg,he⟩
  have hold := (hi.ahead m hm).imp_left (fun hd =>
    List.mem_append_left (World.committed flight result) hd)
  simp only [World.setFlight, cursor_finishRun]
  split
  · rename_i hs
    obtain ⟨last,hlast⟩ := Option.ne_none_iff_exists'.mp
      (fun hn => hok.nonempty (List.getLast?_eq_none_iff.mp hn))
    rw [cursor_commitCursor hlast hm.2.1, hok.chat]
    split
    · rename_i hchat
      rw [World.committed, if_pos hs]
      exact ahead_of_last hi hc hf hs hlast hm hchat
    · exact hold
  · exact hold

private theorem delivered_subset {w w' : World} {a : Action} (h : step cfg w a = some w') :
    w.delivered ⊆ w'.delivered := by
  cases a with
  | finish chatJid result =>
    obtain ⟨flight,_,rfl⟩ := Option.map_eq_some_iff.mp h
    exact List.subset_append_left _ _
  | _ => rw [delivered_step h (by simp)]; exact List.Subset.refl _

private theorem flights_ok {w w' : World} {a : Action} (hi : Inv cfg w) (h : step cfg w a = some w')
    {jid : String} {f : Flight} (hf : w'.flights jid = some f) : FlightOk cfg w' jid f := by
  have hgroups := registeredGroups_step h
  have hdelivered := delivered_subset h
  rcases flights_step h hf with
    ⟨f₀,hf₀,_,hread,hsince,hchat,hmessages⟩ | ⟨allowlist,run,happ,hrun,rfl⟩
  · have hold := hi.flights jid f₀ hf₀
    refine ⟨hchat.trans hold.chat,hgroups ▸ hold.registered,?_,hmessages ▸ hold.nonempty,?_⟩
    · rw [hmessages, hread, hsince]
      exact hold.batch
    · rw [hread, hsince]
      exact fun m hm hmc he => (hold.read m hm hmc he).imp_left (fun hd => hdelivered hd)
  · obtain ⟨hchat,hreg,hne,hbatch,_⟩ := processGroupMessages_invokes hrun
    refine ⟨hchat,hgroups ▸ hreg,hbatch,hne,fun m hm hmc he => ?_⟩
    have hahead := hi.ahead m ⟨hm,hmc ▸ hreg,he⟩
    rw [hmc] at hahead
    exact hahead.imp_left (fun hd => hdelivered hd)

theorem inv_step {w w' : World} {a : Action} (hi : Inv cfg w) (hc : InOrder cfg w a)
    (h : step cfg w a = some w') : Inv cfg w' := by
  refine ⟨?_,fun jid f hf => flights_ok hi h hf⟩
  cases a with
  | finish chatJid result => exact ahead_finish hi hc h
  | _ => exact ahead_step hi hc h (by simp)

/-- When every message arrives later than what its chat's cursor and the batch in flight already
cover, and no batch is cut off at the limit, no run of the app loses a message. -/
theorem nothing_lost {w₀ w : World} {as : List Action} (hidle : ∀ jid, w₀.flights jid = none)
    (hinit : NothingLost cfg w₀) (hin : Allowed (step cfg) (InOrder cfg) w₀ as)
    (he : exec (step cfg) w₀ as = some w) : NothingLost cfg w := by
  have hi : Inv cfg w := by
    refine allowed_invariant (fun s a t hs ha h => inv_step hs ha h) ⟨?_,?_⟩ hin he
    · exact fun m hm => (hinit m hm).imp_right And.left
    · intro chatJid flight hf
      rw [hidle] at hf
      cases hf
  intro m hm
  refine (hi.ahead m hm).imp_right (fun hlt => ⟨hlt,?_⟩)
  exact hasMessagesSince_iff.mpr ⟨m,hm.1,rfl,hlt,hm.2.2⟩

section Runs

private def mainOnly : World := World.init (.unanswered mainGroups [])

private def said (id timestamp : String) : NewMessage :=
  ⟨id,"local:main","local:user","User","hi",timestamp,false,false⟩

/-- A message, a call for it, and a second message before the agent is done. -/
private def overlapping (second : NewMessage) : List Action :=
  [.inbound everyone (said "a" "2024-01-01T00:00:00Z"),.process everyone "local:main",
    .inbound everyone second,.finish "local:main" ⟨"success",none,none⟩]

theorem nothing_lost_two_messages :
    ∃ w, exec (step localCfg) mainOnly (overlapping (said "b" "2024-01-01T00:00:01Z")) = some w ∧
      NothingLost localCfg w := by
  refine ⟨_,rfl,?_⟩
  refine @nothing_lost localCfg mainOnly _ (overlapping (said "b" "2024-01-01T00:00:01Z"))
    (fun _ => rfl) (fun m hm => absurd hm.1 List.not_mem_nil) ?_ rfl
  refine .cons (fun _ _ => Or.inr (by decide +kernel)) rfl (.cons trivial rfl
    (.cons (fun _ _ => Or.inr (by decide +kernel)) rfl (.cons ?_ rfl trivial)))
  rintro flight ⟨⟩ _
  refine ⟨by decide +kernel,fun m hm => ?_⟩
  have hrows : ∀ r ∈ [said "a" "2024-01-01T00:00:00Z",said "b" "2024-01-01T00:00:01Z"],
      r ∉ [said "a" "2024-01-01T00:00:00Z"] →
        ∀ b ∈ [said "a" "2024-01-01T00:00:00Z"], b.timestamp < r.timestamp := by decide +kernel
  exact fun _ hread => Or.inr (hrows m hm.1 hread)

/-- Two messages of one second, the second while the agent answers the first: it is stored, it
was in no prompt, and the cursor is no longer before it. -/
theorem equal_timestamp_lost :
    ∃ w, exec (step localCfg) mainOnly (overlapping (said "b" "2024-01-01T00:00:00Z")) = some w ∧
      ¬NothingLost localCfg w := by
  refine ⟨_,rfl,fun h => ?_⟩
  have hlost := h (said "b" "2024-01-01T00:00:00Z") (by decide +kernel)
  revert hlost
  decide +kernel

end Runs

end NanoClaw.App
