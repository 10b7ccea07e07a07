import NanoClaw.App.Live

/-! Whether a call of `process_group_messages` commits all or nothing: the cursor and the session, in
memory and in the tables. -/
namespace NanoClaw.App
open Store Channels Router Json Framing

/-- An output at which `_on_output` raises. -/
def Streamed.raises (env : Outside) (s : Streamed) : Bool :=
  let idle := hasStatus "success" s.output && s.idleFailure.isSome
  match reply env s.output.result with
  | .error _ | .ok .illFormed => true
  | .ok .nothing => idle
  | .ok (.text _) => s.failure.isSome || idle

/-- What streaming outputs may change: messages are sent and stored, and the flags of the call set. -/
structure Streams (l : Live) (run : Run) (l' : Live) (run' : Run) : Prop where
  frame : l' = { l with messages := l'.messages, sent := l'.sent }
  grows : l.sent.length ≤ l'.sent.length
  replied : run'.outputSent = true → run.outputSent = true ∨ l.sent.length < l'.sent.length
  call : run'.chatJid = run.chatJid ∧ run'.folder = run.folder ∧ run'.messages = run.messages

section Streaming
variable {cfg : Config} {env : Outside} {l l₁ l₂ : Live} {run run₁ run₂ : Run} {s : Streamed}

theorem Streams.refl (l : Live) (run : Run) : Streams l run l run :=
  ⟨rfl,Nat.le_refl _,Or.inl,rfl,rfl,rfl⟩

theorem Streams.trans (h : Streams l run l₁ run₁) (h' : Streams l₁ run₁ l₂ run₂) :
    Streams l run l₂ run₂ where
  frame := by
    rw [h'.frame, h.frame]
  grows := h.grows.trans h'.grows
  replied := by
    intro hsent
    have hgrows := h.grows
    have hgrows' := h'.grows
    rcases h'.replied hsent with hmid | hlt
    · rcases h.replied hmid with hold | hlt
      · exact Or.inl hold
      · exact Or.inr (by omega)
    · exact Or.inr (by omega)
  call := ⟨h'.call.1.trans h.call.1,h'.call.2.1.trans h.call.2.1,h'.call.2.2.trans h.call.2.2⟩

theorem Streams.settle (h : Streams l run l₁ run₁) : Streams l run l₁ (settle run₁ s).1 :=
  ⟨h.frame,h.grows,h.replied,h.call⟩

/-- What a streamed output does, and when it raises. -/
theorem onOutput_spec (hchannel : findChannel cfg.channels run.chatJid ≠ none) :
    Streams l run (l.onOutput cfg env run s).1 (l.onOutput cfg env run s).2.1 ∧
      ((l.onOutput cfg env run s).2.2 = none ↔ s.raises env = false) ∧
      ((l.onOutput cfg env run s).2.2 = none →
        (l.onOutput cfg env run s).2.1.hadError = (run.hadError || hasStatus "error" s.output)) := by
  have hidle : ∀ run : Run, (settle run s).2 = none ↔
      (hasStatus "success" s.output && s.idleFailure.isSome) = false := by
    intro run
    rw [App.settle]
    cases hasStatus "success" s.output <;> simp
  rw [Live.onOutput, Streamed.raises]
  cases hreply : reply env s.output.result with
  | error e => exact ⟨Streams.refl l run,by simp,by simp⟩
  | ok r =>
    cases r with
    | nothing => exact ⟨(Streams.refl l run).settle,hidle run,fun _ => rfl⟩
    | illFormed => exact ⟨Streams.refl l run,by simp,by simp⟩
    | text text =>
      cases hfailure : s.failure with
      | some e =>
        simp only [sendMessage, if_neg hchannel]
        exact ⟨Streams.refl l run,by simp,by simp⟩
      | none =>
        simp only [sendMessage, if_neg hchannel]
        refine ⟨Streams.settle ⟨rfl,?_,fun _ => Or.inr ?_,rfl,rfl,rfl⟩,hidle _,fun _ => rfl⟩
        · simp [Live.app]
        · simp [Live.app]

/-- What the outputs of an agent do, up to the first that raises. -/
theorem stream_spec (hchannel : findChannel cfg.channels run.chatJid ≠ none) (outs : List Streamed) :
    Streams l run (l.stream cfg env run outs).1 (l.stream cfg env run outs).2.1 ∧
      ((l.stream cfg env run outs).2.2 = none ↔ ∀ s ∈ outs, s.raises env = false) ∧
      ((l.stream cfg env run outs).2.2 = none →
        ((l.stream cfg env run outs).2.1.hadError = true ↔
          run.hadError = true ∨ ∃ s ∈ outs, hasStatus "error" s.output = true)) := by
  induction outs generalizing l run with
  | nil => exact ⟨Streams.refl l run,by simp [Live.stream],by simp [Live.stream]⟩
  | cons s rest ih =>
    obtain ⟨hstreams,hraises,herror⟩ := @onOutput_spec cfg env l run s hchannel
    rw [Live.stream]
    rcases hout : l.onOutput cfg env run s with ⟨l₁,run₁,_ | e⟩
    · rw [hout] at hstreams hraises herror
      dsimp only at hstreams hraises herror ⊢
      have hchannel₁ : findChannel cfg.channels run₁.chatJid ≠ none := by rwa [hstreams.call.1]
      obtain ⟨hstreams₁,hraises₁,herror₁⟩ := @ih l₁ run₁ hchannel₁
      refine ⟨hstreams.trans hstreams₁,?_,fun hend => ?_⟩
      · rw [hraises₁, List.forall_mem_cons, and_iff_right (hraises.mp rfl)]
      · rw [herror₁ hend, herror rfl]
        simp [or_assoc]
    · rw [hout] at hstreams hraises herror
      dsimp only at hstreams hraises ⊢
      refine ⟨hstreams,iff_of_false (by simp) (fun hall => ?_),by simp⟩
      have hnone := hraises.mpr (hall s List.mem_cons_self)
      contradiction

end Streaming

/-- The agent is called and returns, and neither its final status nor one of its outputs is an
error. -/
structure Succeeds (cfg : Config) (env : Outside) (batch : List NewMessage) (b : Behaviour)
    (result : ContainerOutput) : Prop where
  prompt : ∃ prompt, formatMessages cfg.zones batch cfg.timezone = .ok prompt
  prepared : b.prepare = none
  streamed : ∀ s ∈ b.streamed, s.raises env = false ∧ hasStatus "error" s.output = false
  final : b.final = .ok result
  status : hasStatus "error" result = false

/-- The cursor of the chat is at the end of the batch, and the session of the group is the one
returned, if there is one: in memory and in the tables. -/
structure Committed (host : Host) (l l' : Live) (chatJid folder : String) (last : NewMessage)
    (newSessionId : Json) : Prop where
  cursor : l'.lastAgentTimestamp.get? chatJid = some last.timestamp
  savedCursor : ∃ cursors, loadCursors host.toInterp (l'.routerState.get? "last_agent_timestamp") =
    some cursors ∧ cursors.get? chatJid = some last.timestamp
  session : l'.sessions.get? folder =
    if newSessionId.truthy then some newSessionId else l.sessions.get? folder
  savedSession : if newSessionId.truthy
    then ∃ id, newSessionId = .str id ∧ l'.savedSessions.get? folder = some id
    else l'.savedSessions.get? folder = l.savedSessions.get? folder

/-- The cursors and the sessions are as they were, and a call without a reply counts as a failure. -/
structure Untouched (l l' : Live) (ended : Except PyExc Bool) : Prop where
  cursors : l'.lastAgentTimestamp = l.lastAgentTimestamp
  sessions : l'.sessions = l.sessions
  routerState : l'.routerState = l.routerState
  savedSessions : l'.savedSessions = l.savedSessions
  failure : l'.sent = l.sent → outcomeOf ended ≠ .success

def AllOrNothing (host : Host) (cfg : Config) (env : Outside) (l : Live) (b : Behaviour)
    (chatJid folder : String) (batch : List NewMessage) (last : NewMessage)
    (after : Live × Except PyExc Bool) : Prop :=
  (∀ result, Succeeds cfg env batch b result →
    Committed host l after.1 chatJid folder last result.newSessionId) ∧
  ((¬∃ result, Succeeds cfg env batch b result) → Untouched l after.1 after.2)

section Commit
variable {cfg : Config} {env : Outside} {l : Live} {run : Run} {b : Behaviour}

/-- The call goes to its last part exactly when the agent succeeds. -/
theorem invoke_succeeds {result : ContainerOutput}
    (hchannel : findChannel cfg.channels run.chatJid ≠ none) (herror : run.hadError = false)
    (h : Succeeds cfg env run.messages b result) :
    ∃ l₁ run₁, Streams l run l₁ run₁ ∧ l.invoke cfg env run b =
      (l₁.commitCursor run₁).keepSession env run₁ result.newSessionId := by
  obtain ⟨hstreams,hraises,hflag⟩ := @stream_spec cfg env l run hchannel b.streamed
  have hend := hraises.mpr (fun s hs => (h.streamed s hs).1)
  have hclean : (l.stream cfg env run b.streamed).2.1.hadError = false := by
    rw [← Bool.not_eq_true, hflag hend, herror]
    rintro (hflag | ⟨s,hs,hstatus⟩)
    · contradiction
    · rw [(h.streamed s hs).2] at hstatus
      contradiction
  rcases hstream : l.stream cfg env run b.streamed with ⟨l₁,run₁,_ | e⟩
  · rw [hstream] at hstreams hclean
    dsimp only at hclean
    refine ⟨l₁,run₁,hstreams,?_⟩
    simp only [Live.invoke, h.prepared, hstream, h.final, Live.finishRun, h.status, hclean,
      Bool.or_self, Bool.false_eq_true, if_false]
  · rw [hstream] at hend
    contradiction

theorem Streams.untouched {l₁ : Live} {run₁ : Run} {ended : Except PyExc Bool}
    (h : Streams l run l₁ run₁) (hfailure : l₁.sent = l.sent → outcomeOf ended ≠ .success) :
    Untouched l l₁ ended := by
  obtain ⟨_,_,_,_,_,_,_,_⟩ := l₁
  obtain ⟨rfl,rfl,rfl,rfl,rfl,rfl⟩ := by simpa using h.frame
  exact ⟨rfl,rfl,rfl,rfl,hfailure⟩

/-- Any other call returns or raises before. -/
theorem invoke_fails (hchannel : findChannel cfg.channels run.chatJid ≠ none)
    (hprompt : ∃ prompt, formatMessages cfg.zones run.messages cfg.timezone = .ok prompt)
    (hfresh : run.outputSent = false)
    (h : ¬∃ result, Succeeds cfg env run.messages b result) :
    Untouched l (l.invoke cfg env run b).1 (l.invoke cfg env run b).2 := by
  obtain ⟨hstreams,hraises,hflag⟩ := @stream_spec cfg env l run hchannel b.streamed
  rw [Live.invoke]
  cases hprepare : b.prepare with
  | some e => exact (Streams.refl l run).untouched (fun _ => by simp [outcomeOf])
  | none =>
    rcases hstream : l.stream cfg env run b.streamed with ⟨l₁,run₁,_ | e⟩
    · rw [hstream] at hstreams hraises hflag
      dsimp only at hstreams hraises hflag ⊢
      cases hfinal : b.final with
      | error e => exact hstreams.untouched (fun _ => by simp [outcomeOf])
      | ok result =>
        dsimp only
        rw [Live.finishRun]
        split_ifs with hstatus
        · refine hstreams.untouched (fun hsent => ?_)
          have hnone : run₁.outputSent = false := by
            rw [← Bool.not_eq_true]
            intro hsome
            rcases hstreams.replied hsome with hold | hlt
            · rw [hfresh] at hold
              contradiction
            · rw [hsent] at hlt
              exact Nat.lt_irrefl _ hlt
          simp [hnone, outcomeOf]
        · -- neither an exception nor an error is left
          rw [Bool.or_eq_true, not_or, Bool.not_eq_true, Bool.not_eq_true] at hstatus
          have hflags : ¬∃ s ∈ b.streamed, hasStatus "error" s.output = true := by
            intro hsome
            have hset := (hflag rfl).mpr (Or.inr hsome)
            rw [hstatus.2] at hset
            contradiction
          refine absurd ⟨result,hprompt,hprepare,fun s hs => ⟨hraises.mp rfl s hs,?_⟩,hfinal,
            hstatus.1⟩ h
          rw [← Bool.not_eq_true]
          exact fun hset => hflags ⟨s,hs,hset⟩
    · rw [hstream] at hstreams
      exact hstreams.untouched (fun _ => by simp [outcomeOf])

/-- `save_state` keeps the cursor of a registered chat. -/
theorem get?_saveState {s : AppState} {jid : String} (h : (s.registeredGroups.get? jid).isSome) :
    (App.saveState s).lastAgentTimestamp.get? jid = s.lastAgentTimestamp.get? jid := by
  simp only [App.saveState]
  split
  · rfl
  · exact Dict.get?_filterKeys _ (decide_eq_true (Dict.mem_keys_of_get? h))

/-- The commit of the cursor, in memory and in the table. Sessions of registered groups stay. -/
theorem commitCursor_spec (host : Host) {group : RegisteredGroup} {last : NewMessage}
    (hgroup : l.registeredGroups.get? run.chatJid = some group) (hfolder : run.folder = group.folder)
    (hlast : run.messages.getLast? = some last) :
    (l.commitCursor run).lastAgentTimestamp.get? run.chatJid = some last.timestamp ∧
      loadCursors host.toInterp ((l.commitCursor run).routerState.get? "last_agent_timestamp") =
        some (l.commitCursor run).lastAgentTimestamp ∧
      (l.commitCursor run).sessions.get? run.folder = l.sessions.get? run.folder ∧
      (l.commitCursor run).savedSessions = l.savedSessions := by
  simp only [Live.commitCursor, hlast, Live.saveState]
  refine ⟨?_,saved_saveState host.room _,?_,trivial⟩
  · rw [get?_saveState (Option.isSome_iff_exists.mpr ⟨group,hgroup⟩)]
    exact Dict.get?_set_self _ _ _
  · have hmem : run.folder ∈ l.registeredGroups.values.map (·.folder) :=
      hfolder ▸ List.mem_map_of_mem (Dict.mem_values_of_get? hgroup)
    split
    · rfl
    · exact Dict.get?_filterKeys _ (decide_eq_true hmem)

/-- Once the cursor is committed, the session is too exactly when there is none to keep or it is a
text. -/
theorem committed_iff (host : Host) {l₁ : Live} {run₁ : Run} {group : RegisteredGroup}
    {last : NewMessage} {newSessionId : Json} (hstreams : Streams l run l₁ run₁)
    (hgroup : l.registeredGroups.get? run.chatJid = some group) (hfolder : run.folder = group.folder)
    (hlast : run.messages.getLast? = some last) :
    Committed host l ((l₁.commitCursor run₁).keepSession env run₁ newSessionId).1 run.chatJid
        run.folder last newSessionId ↔
      (newSessionId.truthy = true → ∃ id, newSessionId = .str id) := by
  obtain ⟨hjid,hfolder₁,hmessages⟩ := hstreams.call
  have hframe := hstreams.frame
  have hgroup₁ : l₁.registeredGroups.get? run₁.chatJid = some group := by
    rw [hframe, hjid]
    exact hgroup
  obtain ⟨hcursor,hsaved,hsession,hsavedSession⟩ := commitCursor_spec host hgroup₁
    (hfolder₁.trans hfolder) (hmessages.symm ▸ hlast)
  rw [hjid] at hcursor
  rw [hfolder₁] at hsession
  have hsessions : l₁.sessions = l.sessions := by rw [hframe]
  have hsavedSessions : l₁.savedSessions = l.savedSessions := by rw [hframe]
  rw [Live.keepSession]
  by_cases hnew : newSessionId.truthy = true
  · rw [if_neg (by rw [hnew]; decide)]
    constructor
    · intro h _
      have hkept := h.savedSession
      rw [if_pos hnew] at hkept
      obtain ⟨id,hid,_⟩ := hkept
      exact ⟨id,hid⟩
    · intro h
      obtain ⟨id,rfl⟩ := h hnew
      refine ⟨hcursor,⟨_,hsaved,hcursor⟩,?_,?_⟩
      · rw [if_pos hnew, hfolder₁]
        exact Dict.get?_set_self _ _ _
      · rw [if_pos hnew, hfolder₁]
        exact ⟨id,rfl,Dict.get?_set_self _ _ _⟩
  · rw [if_pos (Bool.not_eq_true _ ▸ hnew)]
    refine iff_of_true ⟨hcursor,⟨_,hsaved,hcursor⟩,?_,?_⟩ (absurd · hnew)
    · rw [if_neg hnew, hsession, hsessions]
    · rw [if_neg hnew, hsavedSession, hsavedSessions]

/-- When the agent does not succeed, all that counts is that nothing is touched. -/
theorem allOrNothing_of_untouched (host : Host) {chatJid folder : String} {batch : List NewMessage}
    {last : NewMessage} {after : Live × Except PyExc Bool}
    (hnever : ¬∃ result, Succeeds cfg env batch b result) (h : Untouched l after.1 after.2) :
    AllOrNothing host cfg env l b chatJid folder batch last after ↔
      ∀ result, Succeeds cfg env batch b result → result.newSessionId.truthy = true →
        ∃ id, result.newSessionId = .str id :=
  iff_of_true ⟨fun result hresult => absurd ⟨result,hresult⟩ hnever,fun _ => h⟩
    (fun result hresult => absurd ⟨result,hresult⟩ hnever)

/-- The part of a call in which the agent runs. -/
theorem invoke_allOrNothing_iff (host : Host) {group : RegisteredGroup} {last : NewMessage}
    (hgroup : l.registeredGroups.get? run.chatJid = some group) (hfolder : run.folder = group.folder)
    (hchannel : findChannel cfg.channels run.chatJid ≠ none)
    (hprompt : ∃ prompt, formatMessages cfg.zones run.messages cfg.timezone = .ok prompt)
    (hlast : run.messages.getLast? = some last) (hfresh : run.outputSent = false)
    (herror : run.hadError = false) :
    AllOrNothing host cfg env l b run.chatJid run.folder run.messages last
        (l.invoke cfg env run b) ↔
      ∀ result, Succeeds cfg env run.messages b result → result.newSessionId.truthy = true →
        ∃ id, result.newSessionId = .str id := by
  by_cases h : ∃ result, Succeeds cfg env run.messages b result
  · obtain ⟨result,hresult⟩ := h
    have honly : ∀ result', Succeeds cfg env run.messages b result' → result' = result :=
      fun result' h' => Except.ok.inj (h'.final.symm.trans hresult.final)
    obtain ⟨l₁,run₁,hstreams,heq⟩ := invoke_succeeds hchannel herror hresult
    have hcommit := @committed_iff env l run host l₁ run₁ group last result.newSessionId hstreams
      hgroup hfolder hlast
    rw [heq]
    constructor
    · intro hall result' h'
      rw [honly result' h']
      exact hcommit.mp (hall.1 result hresult)
    · intro htext
      refine ⟨fun result' h' => ?_,fun hnone => absurd ⟨result,hresult⟩ hnone⟩
      rw [honly result' h']
      exact hcommit.mpr (htext result hresult)
  · exact allOrNothing_of_untouched host h (invoke_fails hchannel hprompt hfresh h)

end Commit

/-- A call commits all or nothing exactly when an agent that succeeds returns no new session or one
that is a text. -/
theorem all_or_nothing_iff (host : Host) (cfg : Config) (env : Outside)
    (allowlist : SenderAllowlistConfig) (l : Live) (chatJid : String) (b : Behaviour)
    {group : RegisteredGroup} {batch : List NewMessage} {last : NewMessage}
    (hbatch : findBatch cfg l.app chatJid = some (group,batch))
    (htriggered : ¬(group.isMain ≠ some true ∧ group.requiresTrigger ≠ some false ∧
      hasTrigger cfg allowlist chatJid batch = false))
    (hlast : batch.getLast? = some last) :
    AllOrNothing host cfg env l b chatJid group.folder batch last
        (l.processGroupMessages cfg env allowlist chatJid b) ↔
      ∀ result, Succeeds cfg env batch b result → result.newSessionId.truthy = true →
        ∃ id, result.newSessionId = .str id := by
  obtain ⟨hgroup,hchannel⟩ := findBatch_eq_some hbatch
  rw [Live.processGroupMessages, processGroupMessages_eq_findBatch, hbatch]
  dsimp only
  rw [if_neg htriggered]
  cases hprompt : formatMessages cfg.zones batch cfg.timezone with
  | error e =>
    apply allOrNothing_of_untouched host
    · rintro ⟨result,h⟩
      obtain ⟨prompt,hok⟩ := h.prompt
      rw [hprompt] at hok
      contradiction
    · exact ⟨rfl,rfl,rfl,rfl,fun _ => by simp [outcomeOf]⟩
  | ok prompt =>
    let run : Run := ⟨chatJid,group.folder,group.isMain = some true,batch,prompt,
      l.app.sessions.get? group.folder,false,false⟩
    exact @invoke_allOrNothing_iff cfg env l run b host group last hgroup rfl hchannel
      ⟨prompt,hprompt⟩ hlast rfl rfl

section Runs

private def greeting : NewMessage := firstMessage "webhook:1"

private def greeted : Live :=
  .ofApp (.unanswered (Dict.empty.set "webhook:1" mainGroup) [greeting])

private def outside : Outside := ⟨id,fun _ => none⟩

private def reader : Host := ⟨⟨String.ofList,10⟩,fun _ => "",by decide⟩

/-- An agent that streams nothing and succeeds with a session. -/
private def returning (newSessionId : Json) : Behaviour where
  prepare := none
  streamed := []
  final := .ok ⟨.str "success",.null,newSessionId,.null⟩

private theorem returning_succeeds (newSessionId : Json) :
    Succeeds webhookCfg outside [greeting] (returning newSessionId)
      ⟨.str "success",.null,newSessionId,.null⟩ := by
  refine ⟨?_,rfl,by simp [returning],rfl,rfl⟩
  have hprompt : (formatMessages webhookCfg.zones [greeting] webhookCfg.timezone).isOk = true := by
    decide +kernel
  cases hformat : formatMessages webhookCfg.zones [greeting] webhookCfg.timezone with
  | ok prompt => exact ⟨prompt,rfl⟩
  | error e =>
    rw [hformat] at hprompt
    contradiction

theorem all_or_nothing_iff_named_session :
    Committed reader greeted (greeted.processGroupMessages webhookCfg outside everyone "webhook:1"
      (returning (.str "s1"))).1 "webhook:1" "main" greeting (.str "s1") := by
  have hbatch : findBatch webhookCfg greeted.app "webhook:1" = some (mainGroup,[greeting]) := rfl
  refine ((all_or_nothing_iff reader webhookCfg outside everyone greeted "webhook:1"
    (returning (.str "s1")) hbatch (by decide) rfl).mpr ?_).1 _ (returning_succeeds (.str "s1"))
  intro result hresult _
  obtain rfl := Except.ok.inj hresult.final
  exact ⟨"s1",rfl⟩

/-- A session that is a text with a lone surrogate: the cursor is committed, and then the call raises
and the table has no session. -/
theorem surrogate_session_half_committed :
    ¬AllOrNothing reader webhookCfg outside greeted (returning (.illFormed [0xd800])) "webhook:1" "main"
        [greeting] greeting (greeted.processGroupMessages webhookCfg outside everyone "webhook:1"
          (returning (.illFormed [0xd800]))) ∧
      (greeted.processGroupMessages webhookCfg outside everyone "webhook:1"
        (returning (.illFormed [0xd800]))).2 = .error .unicodeEncodeError ∧
      (greeted.processGroupMessages webhookCfg outside everyone "webhook:1"
        (returning (.illFormed [0xd800]))).1.lastAgentTimestamp.get? "webhook:1" =
          some "2026-01-01T00:00:00Z" ∧
      (greeted.processGroupMessages webhookCfg outside everyone "webhook:1"
        (returning (.illFormed [0xd800]))).1.savedSessions.get? "main" = none := by
  refine ⟨fun h => ?_,by decide +kernel,by decide +kernel,by decide +kernel⟩
  obtain ⟨id,hid,_⟩ := (h.1 _ (returning_succeeds (.illFormed [0xd800]))).savedSession
  contradiction

end Runs

end NanoClaw.App
