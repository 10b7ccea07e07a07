import NanoClaw.Agent.OneShot
import NanoClaw.App.Commit
import NanoClaw.App.Listed

/-! A whole call of `process_group_messages` with the process of its agent: from the pending messages
through the two programs to the reply in the chat. -/
namespace NanoClaw.App
open Store Channels Router Json Framing Container

/-- What an output of a call takes from its surroundings: the id and the time of the row, and what the
channel and `notify_idle` raise. -/
structure Emission where
  uuid : String
  now : String
  failure : Option PyExc
  idleFailure : Option PyExc

def Emission.streamed (emission : Emission) (output : ContainerOutput) : Streamed :=
  ⟨output,emission.uuid,emission.now,emission.failure,emission.idleFailure⟩

/-- What the agent is given for a call. -/
def containerInput (cfg : Config) (run : Run) : ContainerInput where
  prompt := run.prompt
  groupFolder := run.folder
  chatJid := run.chatJid
  isMain := run.isMain
  sessionId := run.sessionId
  isScheduledTask := false
  assistantName := some cfg.assistantName

/-- The same with the session as it is in memory. -/
def Live.containerInput (cfg : Config) (l : Live) (run : Run) : ContainerInput Json :=
  { (App.containerInput cfg run).decoded with sessionId := (l.sessions.get? run.folder).getD null }

section Calls
variable (cfg : Config) (env : Outside) (emissions : Nat → Emission)

/-- The callback of a call, which counts its outputs. -/
def agentCallback (s : Live × Run × Nat) (output : ContainerOutput) :
    (Live × Run × Nat) × Option PyExc :=
  match s.1.onOutput cfg env s.2.1 ((emissions s.2.2).streamed output) with
  | (l, run, raised) => ((l,run,s.2.2 + 1),raised)

/-- The end of a call behind its agent. -/
def afterAgent (call : Call (Live × Run × Nat)) : Live × Except PyExc Bool :=
  match call.result with
  | .error e => (call.state.1,.error e)
  | .ok result => call.state.1.finishRun env call.state.2.1 result

/-- `process_group_messages` with `run_container_agent` as its agent. -/
def Live.processWithContainer (container : Surroundings) (allowlist : SenderAllowlistConfig) (l : Live)
    (chatJid : String) (prepare : Option PyExc) : Live × Except PyExc Bool :=
  match App.processGroupMessages cfg allowlist l.app chatJid with
  | .returns result => (l,.ok result)
  | .raises e => (l,.error e)
  | .invokes run =>
    match prepare, l.registeredGroups.get? chatJid with
    | some e, _ => (l,.error e)
    | none, none => (l,.ok true)
    | none, some group =>
      afterAgent env (runContainerAgent container (agentCallback cfg env emissions) (l,run,0) group
        (l.containerInput cfg run) none)

/-- The outputs of an agent, each with its surroundings. -/
def emittedFrom : Nat → List ContainerOutput → List Streamed
  | _, [] => []
  | n, out :: outs => (emissions n).streamed out :: emittedFrom (n + 1) outs

end Calls

section Behaviours
variable {cfg : Config} {env : Outside} {emissions : Nat → Emission}

/-- The runner hands the outputs to the callback as a stream does. -/
theorem deliver_eq_stream (cfg : Config) (env : Outside) (emissions : Nat → Emission)
    (outs : List ContainerOutput) (l : Live) (run : Run) (n : Nat) :
    ∃ m, deliver (agentCallback cfg env emissions) (l,run,n) outs =
      match l.stream cfg env run (emittedFrom emissions n outs) with
      | (l, run, raised) => ((l,run,m),raised) := by
  induction outs generalizing l run n with
  | nil => exact ⟨n,rfl⟩
  | cons out outs ih =>
    rw [deliver, agentCallback, emittedFrom, Live.stream]
    rcases hout : l.onOutput cfg env run ((emissions n).streamed out) with ⟨l',run',_ | e⟩
    · obtain ⟨m,hm⟩ := ih l' run' (n + 1)
      exact ⟨m,hm⟩
    · exact ⟨n + 1,rfl⟩

/-- The call ends as with an agent of some behaviour. -/
def Behaves (cfg : Config) (env : Outside) (l : Live) (run : Run) (call : Call (Live × Run × Nat)) : Prop :=
  ∃ b : Behaviour, b.prepare = none ∧ l.invoke cfg env run b = afterAgent env call

theorem behaves_of_deliver (emissions : Nat → Emission) {l : Live} {run : Run} (outs : List ContainerOutput)
    {s : Live × Run × Nat} {raised : Option PyExc} (h : deliver (agentCallback cfg env emissions) (l,run,0) outs = (s,raised))
    (final : Except PyExc ContainerOutput) (fate : Fate) :
    Behaves cfg env l run ⟨s,raised.elim final .error,fate⟩ := by
  obtain ⟨m,hm⟩ := deliver_eq_stream cfg env emissions outs l run 0
  refine ⟨⟨none,emittedFrom emissions 0 outs,final⟩,rfl,?_⟩
  rw [h] at hm
  rcases hstream : l.stream cfg env run (emittedFrom emissions 0 outs) with ⟨l',run',_ | e⟩
  · rw [hstream] at hm
    cases hm
    simp only [Live.invoke, hstream]
    rfl
  · rw [hstream] at hm
    cases hm
    simp only [Live.invoke, hstream]
    rfl

theorem conclude_behaves (container : Surroundings) (l : Live) (run : Run) (exit : Exit) :
    Behaves cfg env l run (conclude container (agentCallback cfg env emissions) (l,run,0) exit) := by
  rw [conclude]
  cases extractMarkers container.host (Utf8.decodeIgnore exit.stdout) with
  | error e => exact behaves_of_deliver emissions [] rfl (.error e) .ended
  | ok outs =>
    rcases hdeliver : deliver (agentCallback cfg env emissions) (l,run,0) outs with ⟨s,_ | e⟩
    · simp only [hdeliver]
      split_ifs
      · exact behaves_of_deliver emissions outs hdeliver (finish (errorOutput _)) .ended
      · cases outs.getLast? with
        | none => exact behaves_of_deliver emissions outs hdeliver (finish (errorOutput _)) .ended
        | some out => exact behaves_of_deliver emissions outs hdeliver (finish out) .ended
    · simp only [hdeliver]
      exact behaves_of_deliver emissions outs hdeliver (.error e) .ended

theorem runContainerAgent_behaves (cfg : Config) (env : Outside) (emissions : Nat → Emission)
    (container : Surroundings) (l : Live) (run : Run) (group : RegisteredGroup)
    (input : ContainerInput Json) (command : Option (List Char)) :
    Behaves cfg env l run
      (runContainerAgent container (agentCallback cfg env emissions) (l,run,0) group input command) := by
  have hsilent (final : Except PyExc ContainerOutput) (fate : Fate) :
      Behaves cfg env l run ⟨(l,run,0),final,fate⟩ :=
    behaves_of_deliver emissions [] rfl final fate
  unfold runContainerAgent attend
  dsimp only
  repeat' split
  all_goals first
    | exact hsilent _ _
    | exact conclude_behaves container l run _

/-- Whatever command is given, whatever its process does and whatever bytes it prints, a call through
`run_container_agent` is a call with an agent of some behaviour. -/
theorem processWithContainer_refines (cfg : Config) (env : Outside) (emissions : Nat → Emission)
    (container : Surroundings) (allowlist : SenderAllowlistConfig) (l : Live) (chatJid : String)
    (prepare : Option PyExc) : ∃ b : Behaviour,
      l.processWithContainer cfg env emissions container allowlist chatJid prepare =
        l.processGroupMessages cfg env allowlist chatJid b := by
  rw [Live.processWithContainer]
  cases hcall : App.processGroupMessages cfg allowlist l.app chatJid with
  | returns result =>
    refine ⟨⟨none,[],.error .runtimeError⟩,?_⟩
    rw [Live.processGroupMessages, hcall]
  | raises e =>
    refine ⟨⟨none,[],.error .runtimeError⟩,?_⟩
    rw [Live.processGroupMessages, hcall]
  | invokes run =>
    obtain ⟨group,hgroup,_⟩ := invokes_spec hcall
    have hgroup : l.registeredGroups.get? chatJid = some group := hgroup
    cases prepare with
    | some e =>
      refine ⟨⟨some e,[],.error .runtimeError⟩,?_⟩
      rw [Live.processGroupMessages, hcall]
      rfl
    | none =>
      obtain ⟨b,_,hb⟩ := runContainerAgent_behaves cfg env emissions container l run group
        (l.containerInput cfg run) none
      refine ⟨b,?_⟩
      rw [Live.processGroupMessages, hcall, hgroup]
      exact hb.symm

end Behaviours

section Answers
variable {cfg : Config} {env : Outside} {emissions : Nat → Emission} {container : Surroundings}

/-- The app after an answer that was shown in the chat, where anything of it is public. -/
def shown (cfg : Config) (s : AppState) (chatJid answer : String) (emission : Emission) : AppState :=
  if formatOutbound answer = "" then s
  else
    { s with
      sent := s.sent ++ [(chatJid,formatOutbound answer)]
      messages := storeMessage s.messages
        (sentRow cfg chatJid (formatOutbound answer) emission.uuid emission.now) }

/-- What the call keeps of an answer: the cursor stands behind the last message of the batch and no other
cursor has moved, and the group is in the session it was in. -/
structure Answered (cfg : Config) (s t : AppState) (run : Run) (answer : String) (emission : Emission) :
    Prop where
  sent : t.sent = (shown cfg s run.chatJid answer emission).sent
  messages : t.messages = (shown cfg s run.chatJid answer emission).messages
  groups : t.registeredGroups = s.registeredGroups
  cursor : ∀ jid, (s.registeredGroups.get? jid).isSome → ∀ last, run.messages.getLast? = some last →
    t.cursor jid = if jid = run.chatJid then last.timestamp else s.cursor jid
  session : t.sessions.get? run.folder = s.sessions.get? run.folder

theorem deliver_singleton {S : Type} (onOutput : S → ContainerOutput → S × Option PyExc) (s : S)
    (out : ContainerOutput) : deliver onOutput s [out] = onOutput s out := by
  rw [deliver]
  rcases onOutput s out with ⟨t,_ | e⟩
  · rfl
  · rfl

/-- The end of a process that has written one frame and exits with 0. -/
theorem conclude_frame {S : Type} (onOutput : S → ContainerOutput → S × Option PyExc) (s : S)
    {p : Framing.Payload} (h : p.Faithful) :
    conclude container onOutput s ⟨Utf8.encode (writeOutput p),[],0⟩ =
      ⟨(onOutput s p.output).1,(onOutput s p.output).2.elim (.ok p.output) .error,.ended⟩ := by
  simp only [conclude, OneShot.extractMarkers_writeOutput container.host h, deliver_singleton]
  rcases onOutput s p.output with ⟨t,_ | e⟩
  · exact congrArg (fun result => Call.mk t result .ended) (finish_output p)
  · rfl

/-- Where all sessions are texts the agent is given that of its group. -/
theorem containerInput_ofApp {s : AppState} {run : Run} (h : run.sessionId = s.sessions.get? run.folder) :
    (Live.ofApp s).containerInput cfg run = (containerInput cfg run).decoded := by
  have hsession : ((Live.ofApp s).sessions.get? run.folder).getD null = Framing.optional run.sessionId := by
    rw [Live.ofApp, Dict.get?_mapValues, h]
    cases s.sessions.get? run.folder <;> rfl
  rw [Live.containerInput, hsession]
  rfl

theorem registeredGroups_shown {s : AppState} {chatJid answer : String} {emission : Emission} :
    (shown cfg s chatJid answer emission).registeredGroups = s.registeredGroups := by
  rw [shown]
  split_ifs <;> rfl

theorem sessions_shown {s : AppState} {chatJid answer : String} {emission : Emission} :
    (shown cfg s chatJid answer emission).sessions = s.sessions := by
  rw [shown]
  split_ifs <;> rfl

theorem cursor_shown {s : AppState} {chatJid answer jid : String} {emission : Emission} :
    (shown cfg s chatJid answer emission).cursor jid = s.cursor jid := by
  rw [shown]
  split_ifs <;> rfl

/-- An output with an answer is shown, where the channel takes it. -/
theorem onOutput_answer {s : AppState} {run : Run} {out : AgentOutput} {answer : String} {emission : Emission}
    (hchannel : findChannel cfg.channels run.chatJid ≠ none) (hresult : out.result = some answer)
    (hstatus : out.status = "success") (hfailure : emission.failure = none) :
    ∃ sentNow, App.onOutput cfg s run out emission.uuid emission.now emission.failure =
      .ok (shown cfg s run.chatJid answer emission,{ run with outputSent := sentNow }) := by
  have herror : (run.hadError || out.status == "error") = run.hadError := by
    rw [hstatus]
    simp
  rw [App.onOutput, hresult, Option.getD_some, herror, shown]
  by_cases htext : formatOutbound answer = ""
  · exact ⟨run.outputSent,by simp [htext]⟩
  · have hanswer : answer ≠ "" := fun he => htext (by rw [he]; rfl)
    exact ⟨true,by simp [htext, hanswer, sendMessage, hchannel, hfailure, sentRow]⟩

/-- A success sends nothing more, and leaves the sessions of registered groups. -/
theorem sent_commitCursor {s : AppState} {run : Run} : (commitCursor s run).sent = s.sent := by
  rw [commitCursor]
  split
  · rfl
  · rw [saveState]
    split_ifs <;> rfl

theorem sessions_commitCursor {s : AppState} {run : Run} {group : RegisteredGroup} {jid : String}
    (hgroup : s.registeredGroups.get? jid = some group) :
    (commitCursor s run).sessions.get? group.folder = s.sessions.get? group.folder := by
  have hmem : group.folder ∈ s.registeredGroups.values.map (·.folder) :=
    List.mem_map_of_mem (Dict.mem_values_of_get? hgroup)
  rw [commitCursor]
  split
  · rfl
  · simp only [saveState]
    split_ifs
    · rfl
    · exact Dict.get?_filterKeys _ (decide_eq_true hmem)

theorem sent_keepSession {s : AppState} {run : Run} {out : AgentOutput} :
    (keepSession s run out).sent = s.sent := by
  rw [keepSession]
  split
  · rfl
  · split_ifs <;> rfl

/-- The session that is kept is one that is not empty, or the one before. -/
theorem sessions_keepSession {s : AppState} {run : Run} {out : AgentOutput} :
    (keepSession s run out).sessions.get? run.folder =
      match out.newSessionId with
      | none => s.sessions.get? run.folder
      | some id => if id = "" then s.sessions.get? run.folder else some id := by
  rw [keepSession]
  cases out.newSessionId with
  | none => rfl
  | some id =>
    dsimp only
    split_ifs
    · rfl
    · exact Dict.get?_set_self _ _ _

/-- The end of the call after an answer. -/
theorem answered_finishRun {s : AppState} {run : Run} {answer : String} {emission : Emission} {sentNow : Bool}
    {group : RegisteredGroup} (hgroup : s.registeredGroups.get? run.chatJid = some group)
    (hfolder : run.folder = group.folder) (hsession : run.sessionId = s.sessions.get? group.folder)
    (herror : run.hadError = false) :
    ∃ t, App.finishRun (shown cfg s run.chatJid answer emission) { run with outputSent := sentNow }
        ⟨"success",some answer,run.sessionId⟩ = (t,true) ∧ Answered cfg s t run answer emission := by
  have hsucceeds : Run.succeeds { run with outputSent := sentNow } ⟨"success",some answer,run.sessionId⟩ =
      true := by
    simp [Run.succeeds, herror]
  have hgroups (jid : String) : (shown cfg s run.chatJid answer emission).registeredGroups.get? jid =
      s.registeredGroups.get? jid := by
    rw [registeredGroups_shown]
  rw [App.finishRun, if_pos hsucceeds]
  refine ⟨_,rfl,?_,?_,?_,?_,?_⟩
  · rw [sent_keepSession, sent_commitCursor]
  · rw [messages_keepSession, messages_commitCursor]
  · rw [registeredGroups_keepSession, registeredGroups_commitCursor, registeredGroups_shown]
  · intro jid hjid last hlast
    have hcursor : (commitCursor (shown cfg s run.chatJid answer emission)
        { run with outputSent := sentNow }).cursor jid = _ :=
      cursor_commitCursor hlast ((congrArg Option.isSome (hgroups jid)).trans hjid)
    rw [cursor_shown] at hcursor
    exact cursor_keepSession.trans hcursor
  · have hkept := @sessions_commitCursor _ { run with outputSent := sentNow } _ _
      ((hgroups run.chatJid).trans hgroup)
    rw [sessions_shown, ← hfolder] at hkept
    refine Eq.trans (@sessions_keepSession _ { run with outputSent := sentNow } _) ?_
    dsimp only
    cases hid : run.sessionId with
    | none => exact hkept
    | some id =>
      dsimp only
      split_ifs
      · exact hkept
      · rw [← hid, hsession, hfolder]

/-- A call for a group whose agent is the one that comes with the host, in time and with texts that
stand in a frame, where neither the channel nor `notify_idle` raises: where the CLI answers, the public
part of the answer is sent to the chat, the cursor is committed and the session stays; where the CLI
fails, nothing changes and the call is to be tried again. -/
theorem conversation (allowlist : SenderAllowlistConfig) (s : AppState) (chatJid : String) (run : Run)
    (group : RegisteredGroup) (agent : OneShot.Environment) (duration : Nat)
    (hrun : App.processGroupMessages cfg allowlist s chatJid = .invokes run)
    (hgroup : s.registeredGroups.get? chatJid = some group)
    (hstarts : Starts container group (OneShot.process agent duration))
    (htime : duration ≤ timeoutMs container.containerTimeout group) (hdepth : 0 < agent.interp.depth)
    (hfaithful : (OneShot.reply agent (containerInput cfg run)).Faithful)
    (hfailure : (emissions 0).failure = none) (hidle : (emissions 0).idleFailure = none) :
    match OneShot.claudeText agent run.prompt run.sessionId with
    | .ok answer => ∃ t, (Live.ofApp s).processWithContainer cfg env emissions container allowlist chatJid none =
        (Live.ofApp t,.ok true) ∧ Answered cfg s t run answer (emissions 0)
    | .error _ => (Live.ofApp s).processWithContainer cfg env emissions container allowlist chatJid none =
        (Live.ofApp s,.ok false) := by
  obtain ⟨group',hgroup',hchannel,hfolder,_,hsession,hsent,herror⟩ := invokes_spec hrun
  obtain rfl : group' = group := Option.some.inj (hgroup'.symm.trans hgroup)
  obtain ⟨hjid,_⟩ := processGroupMessages_invokes hrun
  subst hjid
  have hcall : (Live.ofApp s).processWithContainer cfg env emissions container allowlist run.chatJid none =
      afterAgent env ⟨(agentCallback cfg env emissions (Live.ofApp s,run,0)
          (OneShot.reply agent (containerInput cfg run)).output).1,
        (agentCallback cfg env emissions (Live.ofApp s,run,0)
          (OneShot.reply agent (containerInput cfg run)).output).2.elim
            (.ok (OneShot.reply agent (containerInput cfg run)).output) .error,.ended⟩ := by
    have hprocess : OneShot.process agent duration (containerInput cfg run).decoded.stdin
        (timeoutMs container.containerTimeout group') =
        some ⟨Utf8.encode (writeOutput (OneShot.reply agent (containerInput cfg run))),[],0⟩ := by
      rw [OneShot.process, OneShot.main_stdin agent _ hdepth]
      exact if_pos htime
    have hgroups : (Live.ofApp s).registeredGroups = s.registeredGroups := rfl
    rw [Live.processWithContainer, Live.app_ofApp, hrun, hgroups, hgroup]
    dsimp only
    rw [containerInput_ofApp (hsession.trans (congrArg _ hfolder.symm)),
      runContainerAgent_starts _ hstarts _ _ hprocess]
    exact congrArg (afterAgent env) (conclude_frame _ _ hfaithful)
  rw [hcall]
  cases hclaude : OneShot.claudeText agent run.prompt run.sessionId with
  | error err =>
    have hout : (OneShot.reply agent (containerInput cfg run)).output =
        ⟨str "error",null,null,str err⟩ := by
      simp only [OneShot.reply, containerInput, hclaude]
      rfl
    rw [hout]
    have hcallback : agentCallback cfg env emissions (Live.ofApp s,run,0) ⟨str "error",null,null,str err⟩ =
        ((Live.ofApp s,{ run with hadError := true },1),none) := by
      simp [agentCallback, Live.onOutput, Emission.streamed, reply, truthy, settle, hasStatus]
    rw [hcallback]
    simp [afterAgent, Live.finishRun, hasStatus, hsent]
  | ok answer =>
    have hout : (OneShot.reply agent (containerInput cfg run)).output =
        AgentOutput.decoded ⟨"success",some answer,run.sessionId⟩ := by
      simp only [OneShot.reply, containerInput, hclaude]
      rfl
    obtain ⟨sentNow,hshown⟩ := @onOutput_answer cfg s run ⟨"success",some answer,run.sessionId⟩ answer
      (emissions 0) hchannel rfl rfl hfailure
    have hcallback : agentCallback cfg env emissions (Live.ofApp s,run,0)
        (AgentOutput.decoded ⟨"success",some answer,run.sessionId⟩) =
        ((Live.ofApp (shown cfg s run.chatJid answer (emissions 0)),{ run with outputSent := sentNow },1),
          none) := by
      rw [agentCallback, Emission.streamed, hidle, Live.onOutput_ofApp, hshown]
    obtain ⟨t,ht,hanswered⟩ := @answered_finishRun cfg s run answer (emissions 0) sentNow group' hgroup hfolder
      hsession herror
    refine ⟨t,?_,hanswered⟩
    rw [hout, hcallback]
    change Live.finishRun env _ _ _ = _
    rw [Live.finishRun_ofApp, ht]

end Answers

section Runs

/-- A CLI that greets everybody. -/
private def greeter : OneShot.Environment where
  interp := ⟨String.ofList,10⟩
  reprOf := fun _ => ""
  excText := fun _ => ""
  claude := some ("claude",fun _ => .exited 0 "Hello!\n" "")

private theorem talk_room : 0 < 10 := by decide

private def talkSurroundings : Surroundings where
  host := ⟨⟨String.ofList,10⟩,fun _ => "",talk_room⟩
  defaultCommand := defaultAgentCommand "python".toList
  runtimeFault := none
  spawn := fun _ => .ok (OneShot.process greeter 500)
  onProcess := none
  mountsFault := fun _ _ _ => none
  killFault := none
  containerTimeout := 1800000

theorem conversation_greeting : ∃ run,
    App.processGroupMessages localCfg everyone askedApp "local:main" = .invokes run ∧
      ∃ t, (Live.ofApp askedApp).processWithContainer localCfg ⟨id,fun _ => none⟩
          (fun _ => ⟨"u1","2026-01-01T00:00:05Z",none,none⟩) talkSurroundings everyone "local:main" none =
        (Live.ofApp t,.ok true) ∧
        Answered localCfg askedApp t run "Hello!" ⟨"u1","2026-01-01T00:00:05Z",none,none⟩ := by
  have hinvokes : (App.processGroupMessages localCfg everyone askedApp "local:main").run?.isSome = true := by
    decide +kernel
  obtain ⟨run,hrun⟩ := Option.isSome_iff_exists.mp hinvokes
  rw [Started.run?_eq_some] at hrun
  obtain ⟨group,hgroup,_,_,_,hsession,_⟩ := invokes_spec hrun
  have hnone : run.sessionId = none := hsession
  have htext : OneShot.claudeText greeter run.prompt run.sessionId = .ok "Hello!" := by
    rw [hnone]
    rfl
  have hreply : OneShot.reply greeter (containerInput localCfg run) =
      ⟨"success",some "Hello!",some none,none⟩ := by
    rw [OneShot.reply, containerInput, htext, hnone]
    rfl
  have hfaithful : (OneShot.reply greeter (containerInput localCfg run)).Faithful := by
    rw [hreply]
    exact ⟨by decide,by decide,by decide⟩
  have hstarts : Starts talkSurroundings mainGroup (OneShot.process greeter 500) := by
    refine ⟨⟨"python".toList,["-m".toList,"nanoclaw.agent_runner".toList],by decide +kernel,
      fun _ => rfl,rfl⟩,rfl,?_,by decide +kernel⟩
    intro mounts _ hmounts
    cases hmounts
  have hcall := @conversation localCfg ⟨id,fun _ => none⟩
    (fun _ => ⟨"u1","2026-01-01T00:00:05Z",none,none⟩) talkSurroundings
    everyone askedApp "local:main" run mainGroup greeter 500 hrun rfl hstarts (by decide +kernel)
    (by decide) hfaithful rfl rfl
  rw [htext] at hcall
  exact ⟨run,hrun,hcall⟩

end Runs

end NanoClaw.App
