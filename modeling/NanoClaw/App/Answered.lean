import NanoClaw.App.Restart

/-! What is answered stays answered: over the life of an installation the cursor of a chat only
moves forward, and no row is in the prompts of two calls that committed it. -/
namespace NanoClaw.App
open Store Channels Execution Json
variable {cfg : Config} {interp : Interp}

/-- A call in flight whose cursor nobody has moved since it began. -/
structure Begun (cfg : Config) (w : World) (chatJid : String) (flight : Flight) : Prop where
  chat : flight.run.chatJid = chatJid
  registered : (w.app.registeredGroups.get? chatJid).isSome
  since : flight.since = w.app.cursor chatJid
  batch : flight.run.messages =
    getMessagesSince cfg.plan flight.read chatJid flight.since cfg.assistantName defaultLimit
  nonempty : flight.run.messages ≠ []
  keys : (flight.read.map (·.key)).Nodup

structure Flying (cfg : Config) (w : World) : Prop where
  keys : (w.app.messages.map (·.key)).Nodup
  flights : ∀ chatJid flight, w.flights chatJid = some flight → Begun cfg w chatJid flight

theorem Begun.mono {w w' : World} {chatJid : String} {flight : Flight}
    (h : Begun cfg w chatJid flight)
    (hregistered : (w.app.registeredGroups.get? chatJid).isSome →
      (w'.app.registeredGroups.get? chatJid).isSome)
    (hcursor : w'.app.cursor chatJid = w.app.cursor chatJid) : Begun cfg w' chatJid flight where
  chat := h.chat
  registered := hregistered h.registered
  since := h.since.trans hcursor.symm
  batch := h.batch
  nonempty := h.nonempty
  keys := h.keys

/-- The rows of a batch are later than the cursor, and the last one is the latest. -/
theorem Begun.later {w : World} {chatJid : String} {flight : Flight}
    (h : Begun cfg w chatJid flight) {last : NewMessage}
    (hlast : flight.run.messages.getLast? = some last) :
    ∀ m ∈ flight.run.messages, m.chatJid = chatJid ∧ w.app.cursor chatJid < m.timestamp ∧
      m.timestamp ≤ last.timestamp := by
  intro m hm
  have hbatch := h.batch ▸ hm
  obtain ⟨_,hchat,hlater,_⟩ := mem_pendingSince.mp (mem_of_mem_getMessagesSince hbatch)
  exact ⟨hchat,h.since ▸ hlater,getMessagesSince_le_last (h.batch ▸ hlast) hbatch⟩

theorem Begun.exists_last {w : World} {chatJid : String} {flight : Flight}
    (h : Begun cfg w chatJid flight) : ∃ last, flight.run.messages.getLast? = some last :=
  Option.ne_none_iff_exists'.mp (fun hn => h.nonempty (List.getLast?_eq_none_iff.mp hn))

/-- The cursor of a chat after a call that ends for some chat. -/
theorem cursor_finish {w : World} {chatJid : String} {flight : Flight} {result : AgentOutput}
    {last : NewMessage} (h : Begun cfg w chatJid flight)
    (hlast : flight.run.messages.getLast? = some last) {jid : String}
    (hjid : (w.app.registeredGroups.get? jid).isSome) :
    (finishRun w.app flight.run result).1.cursor jid =
      if flight.run.succeeds result ∧ jid = chatJid then last.timestamp else w.app.cursor jid := by
  rw [cursor_finishRun]
  split
  · rename_i hs
    rw [cursor_commitCursor hlast hjid, h.chat]
    simp [hs]
  · rename_i hs
    simp [hs]

/-- Only the end of its own call moves the cursor of a chat. -/
theorem Flying.cursor_step {w w' : World} {a : Action} (h : Flying cfg w)
    (hstep : step cfg w a = some w') {jid : String} (hjid : (w.app.registeredGroups.get? jid).isSome)
    (ha : ∀ result, a ≠ .finish jid result) : w'.app.cursor jid = w.app.cursor jid := by
  rcases app_step hstep with ⟨messages,sent,happ⟩ | ⟨flight,result,happ,chatJid,rfl,hf⟩
  · rw [happ]
    rfl
  · have hbegun := h.flights chatJid flight hf
    obtain ⟨last,hlast⟩ := hbegun.exists_last
    rw [happ, cursor_keepSession, cursor_commitCursor hlast hjid, hbegun.chat]
    exact if_neg (fun he : jid = chatJid => ha result (by rw [he]))

theorem step_flying {w w' : World} {a : Action} (h : Flying cfg w) (hstep : step cfg w a = some w') :
    Flying cfg w' := by
  refine ⟨?_,fun jid f hf => ?_⟩
  · rcases messages_step hstep with hsame | ⟨m,hstore,_⟩
    · rw [hsame]
      exact h.keys
    · rw [hstore]
      exact storeMessage_nodup h.keys m
  · have hgroups := registeredGroups_step hstep
    rcases flights_step hstep hf with
      ⟨f₀,hf₀,ha,hread,hsince,hchat,hmessages⟩ | ⟨allowlist,run,happ,hrun,rfl⟩
    · have hold := h.flights jid f₀ hf₀
      refine ⟨hchat.trans hold.chat,hgroups ▸ hold.registered,?_,?_,hmessages ▸ hold.nonempty,?_⟩
      · rw [hsince, h.cursor_step hstep hold.registered ha]
        exact hold.since
      · rw [hmessages, hread, hsince]
        exact hold.batch
      · rw [hread]
        exact hold.keys
    · obtain ⟨hchat,hreg,hne,hbatch,_⟩ := processGroupMessages_invokes hrun
      exact ⟨hchat,hgroups ▸ hreg,by rw [happ],hbatch,hne,h.keys⟩

/-- What makes a row the same row. -/
def NewMessage.stored (m : NewMessage) : String × String × String := (m.id,m.chatJid,m.timestamp)

/-- What one step answers for a chat lies between its cursor before and its cursor after. -/
theorem step_answers {w w' : World} {a : Action} {jid : String} (h : Flying cfg w)
    (hjid : (w.app.registeredGroups.get? jid).isSome) (hstep : step cfg w a = some w') :
    w.app.cursor jid ≤ w'.app.cursor jid ∧ ∃ answered, w'.delivered = w.delivered ++ answered ∧
      (answered.map (·.key)).Nodup ∧
      ∀ m ∈ answered, m.chatJid = jid →
        w.app.cursor jid < m.timestamp ∧ m.timestamp ≤ w'.app.cursor jid := by
  cases a with
  | finish chatJid result =>
    obtain ⟨flight,hf,rfl⟩ := Option.map_eq_some_iff.mp hstep
    have hbegun := h.flights chatJid flight hf
    obtain ⟨last,hlast⟩ := hbegun.exists_last
    have hcursor : (finishRun w.app flight.run result).1.cursor jid = _ :=
      cursor_finish hbegun hlast hjid
    by_cases hs : flight.run.succeeds result = true
    · have hanswered : World.committed flight result = flight.run.messages := if_pos hs
      by_cases hj : jid = chatJid
      · subst hj
        have hafter : (finishRun w.app flight.run result).1.cursor jid = last.timestamp := by
          rw [hcursor, if_pos ⟨hs,rfl⟩]
        have hlater := hbegun.later hlast
        refine ⟨?_,flight.run.messages,by rw [← hanswered]; rfl,?_,fun m hm _ => ?_⟩
        · refine (hlater last (List.mem_of_getLast? hlast)).2.1.le.trans ?_
          exact hafter.ge
        · exact hbegun.batch ▸ getMessagesSince_nodup hbegun.keys
        · exact ⟨(hlater m hm).2.1,(hlater m hm).2.2.trans hafter.ge⟩
      · rw [if_neg (fun hc => hj hc.2)] at hcursor
        refine ⟨hcursor.ge,flight.run.messages,by rw [← hanswered]; rfl,?_,fun m hm hchat => ?_⟩
        · exact hbegun.batch ▸ getMessagesSince_nodup hbegun.keys
        · exact absurd (hchat.symm.trans (hbegun.later hlast m hm).1) hj
    · rw [if_neg (fun hc => hs hc.1)] at hcursor
      have hanswered : World.committed flight result = [] := if_neg hs
      exact ⟨hcursor.ge,[],by rw [← hanswered]; rfl,List.nodup_nil,by simp⟩
  | _ =>
    refine ⟨(cursor_step hstep (by simp) jid).ge,[],?_,List.nodup_nil,by simp⟩
    rw [delivered_step hstep (by simp), List.append_nil]

namespace Installation

/-- What holds of an installation whatever has happened to it. -/
structure Sound (cfg : Config) (interp : Interp) (s : Installation) : Prop where
  saved : Saved interp s.app
  loaded : ∀ row ∈ s.groupRows, isValidGroupFolder row.folder = true →
    (s.app.registeredGroups.get? row.jid).isSome
  flying : Flying cfg s.world

theorem sound_fresh : Sound cfg interp fresh where
  saved := rfl
  loaded := by simp [fresh]
  flying := ⟨List.nodup_nil,fun chatJid flight hf => by cases hf⟩

/-- A running app forgets no chat, and the database keeps no other. -/
theorem registerGroup_loaded {s : Installation} (h : ∀ row ∈ s.groupRows,
      isValidGroupFolder row.folder = true → (s.app.registeredGroups.get? row.jid).isSome)
    (jid : String) (group : RegisteredGroup) :
    (∀ jid', (s.app.registeredGroups.get? jid').isSome →
      ((s.registerGroup jid group).app.registeredGroups.get? jid').isSome) ∧
    ∀ row ∈ (s.registerGroup jid group).groupRows, isValidGroupFolder row.folder = true →
      ((s.registerGroup jid group).app.registeredGroups.get? row.jid).isSome := by
  obtain ⟨rows,hregister,hset⟩ := registerGroup_cases s jid group
  have hkept : ∀ jid', (s.app.registeredGroups.get? jid').isSome →
      ((s.app.registeredGroups.set jid group).get? jid').isSome := by
    intro jid' hjid
    by_cases hj : jid' = jid
    · rw [hj, Dict.get?_set_self]
      rfl
    · rwa [Dict.get?_set_ne _ _ hj]
  have hrows : ∀ row ∈ rows, row ∈ s.groupRows ∨ row.jid = jid := by
    intro row hrow
    rcases hset with hset | ⟨_,rfl⟩
    · exact mem_setRegisteredGroup hset hrow
    · exact .inl hrow
  rw [hregister]
  refine ⟨hkept,fun row hrow hvalid => ?_⟩
  rcases hrows row hrow with hold | rfl
  · exact hkept _ (h row hold hvalid)
  · exact (congrArg Option.isSome (Dict.get?_set_self ..)).trans rfl

theorem step_sound {s t : Installation} {a : LifeAction} (hdepth : 0 < interp.depth)
    (h : Sound cfg interp s) (hstep : step cfg interp s a = some t) : Sound cfg interp t := by
  cases a with
  | app a =>
    obtain ⟨w,hw,rfl⟩ := Option.map_eq_some_iff.mp hstep
    refine ⟨saved_step hdepth h.saved hw,fun row hrow hvalid => ?_,step_flying h.flying hw⟩
    have hgroups := registeredGroups_step hw
    exact hgroups.symm ▸ h.loaded row hrow hvalid
  | register jid group =>
    cases hstep
    obtain ⟨hkept,hloaded⟩ := registerGroup_loaded h.loaded jid group
    obtain ⟨rows,hregister,_⟩ := registerGroup_cases s jid group
    rw [hregister] at hkept hloaded ⊢
    refine ⟨h.saved,hloaded,h.flying.keys,fun chatJid f hf => ?_⟩
    exact (h.flying.flights chatJid f hf).mono (hkept chatJid) rfl
  | store m =>
    cases hstep
    refine ⟨h.saved,h.loaded,storeMessage_nodup h.flying.keys m,fun chatJid f hf => ?_⟩
    exact (h.flying.flights chatJid f hf).mono id rfl
  | send jid text uuid now failure =>
    rcases send_cases hstep with rfl | rfl
    · exact h
    · refine ⟨h.saved,h.loaded,storeMessage_nodup h.flying.keys _,fun chatJid f hf => ?_⟩
      exact (h.flying.flights chatJid f hf).mono id rfl
  | save =>
    cases hstep
    have hgroups : (saveState s.app).registeredGroups = s.app.registeredGroups :=
      registeredGroups_saveState
    have hrows : (saveState s.app).messages = s.app.messages := messages_saveState
    refine ⟨saved_saveState hdepth _,fun row hrow hvalid => ?_,hrows.symm ▸ h.flying.keys,fun chatJid f hf => ?_⟩
    · exact hgroups.symm ▸ h.loaded row hrow hvalid
    · have hold := h.flying.flights chatJid f hf
      exact hold.mono (fun hr => hgroups.symm ▸ hr) (cursor_saveState hold.registered)
  | restart =>
    obtain ⟨cursors,groups,hcursors,hgroups,rfl⟩ := restart_cases hstep
    refine ⟨hcursors,fun row hrow hvalid => ?_,h.flying.keys,fun chatJid f hf => by cases hf⟩
    exact isSome_getAllRegisteredGroups interp hgroups hrow hvalid

theorem reachable_sound {s : Installation} (hdepth : 0 < interp.depth)
    (h : Reachable (step cfg interp) fresh s) : Sound cfg interp s :=
  h.invariant (fun _ _ _ hs hstep => step_sound hdepth hs hstep) sound_fresh

/-- What one step answers for a chat that the running app knows, and that the database keeps when
the process starts anew. -/
theorem step_progress {s t : Installation} {a : LifeAction} {jid : String} (h : Sound cfg interp s)
    (hjid : (s.app.registeredGroups.get? jid).isSome) (hkept : a = .restart → s.Keeps jid)
    (hstep : step cfg interp s a = some t) :
    (t.app.registeredGroups.get? jid).isSome ∧ s.app.cursor jid ≤ t.app.cursor jid ∧
      ∃ answered, t.world.delivered = s.world.delivered ++ answered ∧
        (answered.map (·.key)).Nodup ∧ ∀ m ∈ answered, m.chatJid = jid →
          s.app.cursor jid < m.timestamp ∧ m.timestamp ≤ t.app.cursor jid := by
  have hnone : ∀ t : Installation, t.world.delivered = s.world.delivered →
      (t.app.registeredGroups.get? jid).isSome → t.app.cursor jid = s.app.cursor jid →
      (t.app.registeredGroups.get? jid).isSome ∧ s.app.cursor jid ≤ t.app.cursor jid ∧
        ∃ answered, t.world.delivered = s.world.delivered ++ answered ∧
          (answered.map (·.key)).Nodup ∧ ∀ m ∈ answered, m.chatJid = jid →
            s.app.cursor jid < m.timestamp ∧ m.timestamp ≤ t.app.cursor jid :=
    fun t hdelivered hgroups hcursor => ⟨hgroups,hcursor.ge,[],by simp [hdelivered],by simp,by simp⟩
  cases a with
  | app a =>
    obtain ⟨w,hw,rfl⟩ := Option.map_eq_some_iff.mp hstep
    have hgroups := registeredGroups_step hw
    exact ⟨hgroups.symm ▸ hjid,step_answers h.flying hjid hw⟩
  | register jid' group =>
    cases hstep
    obtain ⟨hgroups,_⟩ := registerGroup_loaded h.loaded jid' group
    obtain ⟨rows,hregister,_⟩ := registerGroup_cases s jid' group
    rw [hregister] at hgroups ⊢
    exact hnone _ rfl (hgroups jid hjid) rfl
  | store m =>
    cases hstep
    exact hnone _ rfl hjid rfl
  | send jid' text uuid now failure =>
    rcases send_cases hstep with rfl | rfl
    · exact hnone _ rfl hjid rfl
    · exact hnone _ rfl hjid rfl
  | save =>
    cases hstep
    have hgroups : (saveState s.app).registeredGroups = s.app.registeredGroups :=
      registeredGroups_saveState
    exact hnone _ rfl (by rw [← hgroups] at hjid; exact hjid) (cursor_saveState hjid)
  | restart =>
    obtain ⟨row,hrow,hrowjid,hvalid⟩ := hkept rfl
    obtain ⟨cursors,groups,hcursors,hgroups,rfl⟩ := restart_cases hstep
    have hsame : cursors = s.app.lastAgentTimestamp :=
      Option.some.inj (hcursors.symm.trans h.saved)
    subst hsame
    exact hnone _ rfl (hrowjid ▸ isSome_getAllRegisteredGroups interp hgroups hrow hvalid) rfl

/-- What an installation has committed for a chat since another moment of its life. -/
structure Committed (jid : String) (s t : Installation) (committed : List NewMessage) : Prop where
  delivered : t.world.delivered = s.world.delivered ++ committed
  cursor : s.app.cursor jid ≤ t.app.cursor jid
  past : ∀ m ∈ committed, m.chatJid = jid → m.timestamp ≤ t.app.cursor jid
  once : ((committed.filter (fun m => m.chatJid = jid)).map NewMessage.stored).Nodup

theorem committed_refl (jid : String) (s : Installation) : Committed jid s s [] :=
  ⟨(List.append_nil _).symm,le_refl _,by simp,List.nodup_nil⟩

theorem Committed.step {jid : String} {s t u : Installation} {committed : List NewMessage}
    {a : LifeAction} (h : Committed jid s t committed) (hsound : Sound cfg interp t)
    (hjid : (t.app.registeredGroups.get? jid).isSome) (hkept : a = .restart → t.Keeps jid)
    (hstep : Installation.step cfg interp t a = some u) :
    ∃ committed', Committed jid s u committed' := by
  obtain ⟨_,hcursor,answered,hdelivered,hkeys,hbetween⟩ := step_progress hsound hjid hkept hstep
  refine ⟨committed ++ answered,?_,h.cursor.trans hcursor,?_,?_⟩
  · rw [hdelivered, h.delivered, List.append_assoc]
  · intro m hm hchat
    rcases List.mem_append.mp hm with hm | hm
    · exact (h.past m hm hchat).trans hcursor
    · exact (hbetween m hm hchat).2
  · have hnew : (answered.map NewMessage.stored).Nodup := by
      refine List.Nodup.of_map (fun k => (k.1,k.2.1)) ?_
      rw [List.map_map]
      exact hkeys
    rw [List.filter_append, List.map_append]
    refine h.once.append (hnew.sublist (List.filter_sublist.map _)) ?_
    intro k hold hlate
    obtain ⟨m,hm,rfl⟩ := List.mem_map.mp hold
    obtain ⟨m',hm',he⟩ := List.mem_map.mp hlate
    obtain ⟨hm,hchat⟩ := List.mem_filter.mp hm
    obtain ⟨hm',hchat'⟩ := List.mem_filter.mp hm'
    have hpast := h.past m hm (of_decide_eq_true hchat)
    have hlater := (hbetween m' hm' (of_decide_eq_true hchat')).1
    have hsame : m'.timestamp = m.timestamp := congrArg (fun k => k.2.2) he
    rw [hsame] at hlater
    exact absurd hpast (not_le_of_gt hlater)

/-- From any moment of an installation on, and as long as the database keeps the chat, its cursor
never moves back, and no row is in the prompts of two calls that commit it, over all restarts. -/
theorem committed_once {s t : Installation} {as : List LifeAction} {jid : String}
    (hdepth : 0 < interp.depth) (hs : Reachable (Installation.step cfg interp) fresh s)
    (hkept : Allowed (Installation.step cfg interp) (fun u _ => u.Keeps jid) s as)
    (he : exec (Installation.step cfg interp) s as = some t) :
    s.app.cursor jid ≤ t.app.cursor jid ∧ ∃ committed,
      t.world.delivered = s.world.delivered ++ committed ∧
        ((committed.filter (fun m => m.chatJid = jid)).map NewMessage.stored).Nodup := by
  have hrun := allowed_invariant
    (P := fun u => Sound cfg interp u ∧ ∃ committed, Committed jid s u committed) ?_
    ⟨reachable_sound hdepth hs,[],committed_refl jid s⟩ hkept he
  · obtain ⟨_,committed,hc⟩ := hrun
    exact ⟨hc.cursor,committed,hc.delivered,hc.once⟩
  · rintro u a v ⟨hsound,committed,hc⟩ hkeeps hstep
    obtain ⟨row,hrow,hrowjid,hvalid⟩ := hkeeps
    have hjid := hrowjid ▸ hsound.loaded row hrow hvalid
    exact ⟨step_sound hdepth hsound hstep,
      hc.step hsound hjid (fun _ => ⟨row,hrow,hrowjid,hvalid⟩) hstep⟩

/-- Only a registration changes the table of groups. -/
theorem groupRows_step {s t : Installation} {a : LifeAction} (h : step cfg interp s a = some t)
    (ha : ∀ jid group, a ≠ .register jid group) : t.groupRows = s.groupRows := by
  cases a with
  | app a =>
    obtain ⟨w,_,rfl⟩ := Option.map_eq_some_iff.mp h
    rfl
  | register jid group => exact absurd rfl (ha jid group)
  | store m =>
    cases h
    rfl
  | send jid text uuid now failure => rcases send_cases h with rfl | rfl <;> rfl
  | save =>
    cases h
    rfl
  | restart =>
    obtain ⟨app,_,rfl⟩ := Option.map_eq_some_iff.mp h
    rfl

/-- The database keeps a chat as long as nothing is registered. -/
theorem Keeps.allowed {s : Installation} {jid : String} {as : List LifeAction} (h : s.Keeps jid)
    (ha : ∀ a ∈ as, ∀ jid group, a ≠ .register jid group) :
    Allowed (step cfg interp) (fun u _ => u.Keeps jid) s as := by
  induction as generalizing s with
  | nil => trivial
  | cons a as ih =>
    refine ⟨h,fun t ht => ih ?_ (fun b hb => ha b (List.mem_cons_of_mem a hb))⟩
    rw [Keeps, groupRows_step ht (ha a List.mem_cons_self)]
    exact h

/-- A call that ends without an error answers its batch for good: whatever a later call of the
chat reads is later than all of it. A call that ends with an error leaves the app as it was, with the
cursor before its batch, and reports to the queue whether it had sent a reply. -/
theorem answered_for_good {s t : Installation} {jid : String} {flight : Flight}
    {result : AgentOutput} (hdepth : 0 < interp.depth)
    (hs : Reachable (Installation.step cfg interp) fresh s)
    (hf : s.world.flights jid = some flight)
    (hstep : Installation.step cfg interp s (.app (.finish jid result)) = some t) :
    (flight.run.succeeds result = true → ∀ as u allowlist run,
      Allowed (Installation.step cfg interp) (fun u a => a = .restart → u.Keeps jid) t as →
      exec (Installation.step cfg interp) t as = some u →
      processGroupMessages cfg allowlist u.app jid = .invokes run →
      ∀ m ∈ flight.run.messages, ∀ m' ∈ run.messages, m.timestamp < m'.timestamp) ∧
    (flight.run.succeeds result = false →
      t.app = s.app ∧ (∀ m ∈ flight.run.messages, t.app.cursor jid < m.timestamp) ∧
        (finishRun s.app flight.run result).2 = flight.run.outputSent) := by
  have hsound := reachable_sound hdepth hs
  have hbegun := hsound.flying.flights jid flight hf
  obtain ⟨last,hlast⟩ := hbegun.exists_last
  have ht : t.app = (finishRun s.app flight.run result).1 := by
    simp only [Installation.step, App.step, hf, Option.map_some] at hstep
    cases hstep
    rfl
  refine ⟨fun hok as u allowlist run hkept he hrun m hm m' hm' => ?_,fun herror => ?_⟩
  · have hcursor : t.app.cursor jid = last.timestamp := by
      rw [ht]
      exact (cursor_finish hbegun hlast hbegun.registered).trans (if_pos ⟨hok,rfl⟩)
    have hgroups : (t.app.registeredGroups.get? jid).isSome := by
      rw [ht, registeredGroups_finishRun]
      exact hbegun.registered
    have hlater : t.app.cursor jid ≤ u.app.cursor jid := by
      have hall := allowed_invariant
        (P := fun u => Sound cfg interp u ∧ (u.app.registeredGroups.get? jid).isSome ∧
          t.app.cursor jid ≤ u.app.cursor jid) ?_
        ⟨step_sound hdepth hsound hstep,hgroups,le_refl _⟩ hkept he
      · exact hall.2.2
      · rintro v a w ⟨hv,hjid,hle⟩ hkeeps hvw
        obtain ⟨hjid',hle',_⟩ := step_progress hv hjid hkeeps hvw
        exact ⟨step_sound hdepth hv hvw,hjid',hle.trans hle'⟩
    obtain ⟨_,_,_,hbatch,_⟩ := processGroupMessages_invokes hrun
    obtain ⟨_,_,hsince,_⟩ := mem_pendingSince.mp (mem_of_mem_getMessagesSince (hbatch ▸ hm'))
    calc m.timestamp ≤ last.timestamp := (hbegun.later hlast m hm).2.2
      _ = t.app.cursor jid := hcursor.symm
      _ ≤ u.app.cursor jid := hlater
      _ < m'.timestamp := hsince
  · have hsame : t.app = s.app := by
      rw [ht, finishRun, herror]
      rfl
    refine ⟨hsame,fun m hm => ?_,?_⟩
    · rw [hsame]
      exact (hbegun.later hlast m hm).2.1
    · rw [finishRun, herror]
      rfl

end Installation

section Runs
open Installation

private def question (id timestamp : String) : NewMessage :=
  ⟨id,"local:main","local:user","User","hi",timestamp,false,false⟩

/-- A message is read by a call, and another one comes after the call has ended. -/
private def twoQuestions (streamed result : AgentOutput) : List LifeAction :=
  [.register "local:main" mainGroup,.app (.inbound everyone (question "a" "2024-01-01T00:00:00Z")),
    .app (.process everyone "local:main"),
    .app (.output "local:main" streamed "r" "2024-01-01T00:00:01Z" none),
    .app (.finish "local:main" result),
    .app (.inbound everyone (question "b" "2024-01-01T00:00:02Z"))]

/-- The next call of the main chat. -/
private def reads (s : Installation) : Option Run :=
  (processGroupMessages localCfg everyone s.app "local:main").run?

/-- A reply is delivered and the agent ends with an error: the next call reads the answered
message once more. -/
theorem answered_batch_again :
    ∃ s, exec (Installation.step localCfg localInterp) fresh
        (twoQuestions ⟨"success",some "partial",none⟩ ⟨"error",none,none⟩) = some s ∧
      s.app.sent = [("local:main","partial")] ∧
      ∃ run, processGroupMessages localCfg everyone s.app "local:main" = .invokes run ∧
        question "a" "2024-01-01T00:00:00Z" ∈ run.messages := by
  have hrun : (exec (Installation.step localCfg localInterp) fresh
      (twoQuestions ⟨"success",some "partial",none⟩ ⟨"error",none,none⟩)).map
        (fun s => (s.app.sent,(reads s).map (·.messages))) = some ([("local:main","partial")],
          some [question "a" "2024-01-01T00:00:00Z",question "b" "2024-01-01T00:00:02Z"]) := by
    decide +kernel
  obtain ⟨s,hs,h⟩ := Option.map_eq_some_iff.mp hrun
  obtain ⟨run,hreads,hbatch⟩ := Option.map_eq_some_iff.mp (congrArg Prod.snd h)
  refine ⟨s,hs,congrArg Prod.fst h,run,Started.run?_eq_some.mp hreads,?_⟩
  rw [hbatch]
  exact List.mem_cons_self

/-- The run of the last theorem, but the agent ends without an error. -/
theorem answered_for_good_two_questions :
    ∃ s t u flight run, exec (Installation.step localCfg localInterp) fresh
        ((twoQuestions ⟨"success",some "hello",none⟩ ⟨"success",none,none⟩).take 4) = some s ∧
      s.world.flights "local:main" = some flight ∧
      Installation.step localCfg localInterp s
        (.app (.finish "local:main" ⟨"success",none,none⟩)) = some t ∧
      exec (Installation.step localCfg localInterp) t
        [.app (.inbound everyone (question "b" "2024-01-01T00:00:02Z"))] = some u ∧
      processGroupMessages localCfg everyone u.app "local:main" = .invokes run ∧
      ∀ m ∈ flight.run.messages, ∀ m' ∈ run.messages, m.timestamp < m'.timestamp := by
  have hrun : ((exec (Installation.step localCfg localInterp) fresh
      ((twoQuestions ⟨"success",some "hello",none⟩ ⟨"success",none,none⟩).take 4)).bind (fun s =>
        (s.world.flights "local:main").bind (fun flight =>
          (Installation.step localCfg localInterp s
            (.app (.finish "local:main" ⟨"success",none,none⟩))).bind (fun t =>
              (exec (Installation.step localCfg localInterp) t
                [.app (.inbound everyone (question "b" "2024-01-01T00:00:02Z"))]).bind (fun u =>
                  (reads u).map (fun _ => flight.run.succeeds ⟨"success",none,none⟩)))))) =
      some true := by decide +kernel
  obtain ⟨s,hs,hrun⟩ := Option.bind_eq_some_iff.mp hrun
  obtain ⟨flight,hflight,hrun⟩ := Option.bind_eq_some_iff.mp hrun
  obtain ⟨t,ht,hrun⟩ := Option.bind_eq_some_iff.mp hrun
  obtain ⟨u,hu,hrun⟩ := Option.bind_eq_some_iff.mp hrun
  obtain ⟨run,hreads,hok⟩ := Option.map_eq_some_iff.mp hrun
  have hinvokes := Started.run?_eq_some.mp hreads
  refine ⟨s,t,u,flight,run,hs,hflight,ht,hu,hinvokes,?_⟩
  have hkept : Allowed (Installation.step localCfg localInterp)
      (fun u a => a = .restart → u.Keeps "local:main") t
      [.app (.inbound everyone (question "b" "2024-01-01T00:00:02Z"))] :=
    ⟨fun hrestart => (by cases hrestart),fun _ _ => trivial⟩
  exact (answered_for_good (by decide) ⟨_,hs⟩ hflight ht).1 hok _ u everyone run hkept hu hinvokes

/-- Two questions are answered one after the other, and the process starts anew between them. -/
private def answersAcrossRestart : List LifeAction :=
  [.app (.inbound everyone (question "a" "2024-01-01T00:00:00Z")),
    .app (.process everyone "local:main"),
    .app (.finish "local:main" ⟨"success",none,none⟩),.restart,
    .app (.inbound everyone (question "b" "2024-01-01T00:00:02Z")),
    .app (.process everyone "local:main"),
    .app (.finish "local:main" ⟨"success",none,none⟩)]

/-- Both calls commit, and each row is in the prompt of one of them. -/
theorem committed_once_restart :
    ∃ s t committed, exec (Installation.step localCfg localInterp) fresh
        [.register "local:main" mainGroup] = some s ∧
      exec (Installation.step localCfg localInterp) s answersAcrossRestart = some t ∧
      s.app.cursor "local:main" = "" ∧ t.app.cursor "local:main" = "2024-01-01T00:00:02Z" ∧
      s.app.cursor "local:main" ≤ t.app.cursor "local:main" ∧
      t.world.delivered = s.world.delivered ++ committed ∧
      committed.map (·.id) = ["a","b"] ∧
      ((committed.filter (fun m => m.chatJid = "local:main")).map NewMessage.stored).Nodup := by
  have hrun : ((exec (Installation.step localCfg localInterp) fresh
      [.register "local:main" mainGroup]).bind (fun s =>
        (exec (Installation.step localCfg localInterp) s answersAcrossRestart).map (fun t =>
          ((s.groupRows,s.world.delivered),s.app.cursor "local:main",t.app.cursor "local:main",
            t.world.delivered.map (·.id))))) =
      some (([⟨"local:main","Main","main","@Andy","",none,some true,true⟩],[]),"",
        "2024-01-01T00:00:02Z",["a","b"]) := by decide +kernel
  obtain ⟨s,hs,hrun⟩ := Option.bind_eq_some_iff.mp hrun
  obtain ⟨t,ht,hrun⟩ := Option.map_eq_some_iff.mp hrun
  obtain ⟨hstart,hrun⟩ := Prod.mk.inj hrun
  obtain ⟨hrows,hnone⟩ := Prod.mk.inj hstart
  obtain ⟨hbefore,hrun⟩ := Prod.mk.inj hrun
  obtain ⟨hafter,hids⟩ := Prod.mk.inj hrun
  have hkeeps : s.Keeps "local:main" :=
    ⟨_,hrows ▸ List.mem_singleton_self _,rfl,by decide +kernel⟩
  obtain ⟨hle,committed,hdelivered,hnodup⟩ := committed_once (by decide) ⟨_,hs⟩
    (hkeeps.allowed (by simp [answersAcrossRestart])) ht
  have hall : committed = t.world.delivered := by rw [hdelivered, hnone, List.nil_append]
  exact ⟨s,t,committed,hs,ht,hbefore,hafter,hle,hdelivered,hall ▸ hids,hnodup⟩

end Runs

end NanoClaw.App
