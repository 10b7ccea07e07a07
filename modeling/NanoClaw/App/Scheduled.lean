import NanoClaw.App.Commit

/-! The output callback of a scheduled run beside that of a message run: what each hands to the channel
for the same outputs, and when they hand it the same texts. -/
namespace NanoClaw.App
open Store Channels Router Json

section Callbacks
variable (cfg : Config) (env : Outside)

/-- `format_outbound` of any value; none for a text in which a lone surrogate is left. -/
def formatResult : Json → Except PyExc (Option String)
  | .str s => .ok (some (formatOutbound s))
  | .illFormed codes => .ok (env.formatIllFormed codes)
  | _ => .error .typeError

/-- What `notify_idle` raises, if the output has it called. -/
def idleError (s : Streamed) : Option PyExc :=
  if hasStatus "success" s.output then s.idleFailure else none

/-- `_on_output` of `_run_scheduled_task`, with its `streamed_result`. -/
def Live.onTaskOutput (l : Live) (chatJid : String) (streamedResult : Json) (s : Streamed) :
    Live × Json × Option PyExc :=
  if s.output.result.truthy = false then (l,streamedResult,idleError s)
  else
    match formatResult env s.output.result with
    | .error e => (l,s.output.result,some e)
    | .ok none =>
      (l,s.output.result,
        some (if findChannel cfg.channels chatJid = none then .valueError
          else s.failure.getD .unicodeEncodeError))
    | .ok (some text) =>
      match sendMessage cfg l.app chatJid text s.uuid s.now s.failure with
      | .error e => (l,s.output.result,some e)
      | .ok app => ({ l with messages := app.messages, sent := app.sent },s.output.result,idleError s)

/-- What `send_message` hands to the channel: the text, where a channel owns the chat. It is none for a
text with a lone surrogate. -/
def handed (chatJid : String) (text : Option String) : List (Option String) :=
  if findChannel cfg.channels chatJid = none then [] else [text]

/-- What `_on_output` of a scheduled run hands to the channel. -/
def taskTexts (chatJid : String) (s : Streamed) : List (Option String) :=
  if s.output.result.truthy = false then []
  else
    match formatResult env s.output.result with
    | .error _ => []
    | .ok text => handed cfg chatJid text

/-- What `_on_output` of a message run hands to the channel. -/
def messageTexts (chatJid : String) (s : Streamed) : List (Option String) :=
  match reply env s.output.result with
  | .error _ | .ok .nothing => []
  | .ok (.text text) => handed cfg chatJid (some text)
  | .ok .illFormed => handed cfg chatJid none

/-- The outputs of a scheduled run, up to the first on which the callback raises. -/
def Live.streamTask (chatJid : String) : Live → Json → List Streamed → Live × Json × Option PyExc
  | l, streamedResult, [] => (l,streamedResult,none)
  | l, streamedResult, s :: rest =>
    match l.onTaskOutput cfg env chatJid streamedResult s with
    | (l, streamedResult, some e) => (l,streamedResult,some e)
    | (l, streamedResult, none) => l.streamTask chatJid streamedResult rest

/-- The texts of a scheduled run, up to the output on which the callback raises. -/
def Live.taskStream (chatJid : String) : Live → Json → List Streamed → List (Option String)
  | _, _, [] => []
  | l, streamedResult, s :: rest =>
    taskTexts cfg env chatJid s ++
      match l.onTaskOutput cfg env chatJid streamedResult s with
      | (_, _, some _) => []
      | (l, streamedResult, none) => l.taskStream chatJid streamedResult rest

/-- The texts of a message run, up to the output on which the callback raises. -/
def Live.messageStream : Live → Run → List Streamed → List (Option String)
  | _, _, [] => []
  | l, run, s :: rest =>
    messageTexts cfg env run.chatJid s ++
      match l.onOutput cfg env run s with
      | (_, _, some _) => []
      | (l, run, none) => l.messageStream run rest

/-- An output whose result is null or has something to show. -/
def Showing (s : Streamed) : Prop :=
  s.output.result.truthy = true → formatResult env s.output.result ≠ .ok (some "")

/-- Every output up to the first that raises shows something, if it has a result. -/
def Shows : List Streamed → Prop
  | [] => True
  | s :: rest => Showing env s ∧ (s.raises env = false → Shows rest)

end Callbacks

section Streams
variable {cfg : Config} {env : Outside} {l : Live} {run : Run} {s : Streamed} {chatJid : String}

theorem reply_truthy {result : Json} (h : result.truthy = true) :
    reply env result = (formatResult env result).map (·.elim .illFormed .ofText) := by
  have hne : ¬result.truthy = false := by simp [h]
  cases result <;> simp only [reply, if_neg hne, formatResult, Except.map, Option.elim_some]

theorem reply_falsy {result : Json} (h : result.truthy = false) : reply env result = .ok .nothing :=
  if_pos h

theorem sendMessage_fails {s : AppState} {text uuid now : String}
    (hchannel : findChannel cfg.channels chatJid ≠ none) (e : PyExc) :
    sendMessage cfg s chatJid text uuid now (some e) = .error e := if_neg hchannel

theorem sendMessage_goes (hchannel : findChannel cfg.channels chatJid ≠ none) (s : AppState)
    (text uuid now : String) :
    ∃ app, sendMessage cfg s chatJid text uuid now none = .ok app := ⟨_,if_neg hchannel⟩

theorem onOutput_chatJid : (l.onOutput cfg env run s).2.1.chatJid = run.chatJid := by
  rw [Live.onOutput]
  cases reply env s.output.result with
  | error e => rfl
  | ok r =>
    cases r with
    | text text =>
      dsimp only
      cases sendMessage cfg l.app run.chatJid text s.uuid s.now s.failure <;> rfl
    | _ => rfl

theorem idleError_eq_none :
    idleError s = none ↔ (hasStatus "success" s.output && s.idleFailure.isSome) = false := by
  rw [idleError]
  cases hasStatus "success" s.output <;> simp

/-- On an output that shows something, a scheduled run raises when a message run does. -/
theorem onTaskOutput_raises {streamedResult : Json}
    (hchannel : findChannel cfg.channels chatJid ≠ none) (hs : Showing env s) :
    (l.onTaskOutput cfg env chatJid streamedResult s).2.2 = none ↔ s.raises env = false := by
  rw [Live.onTaskOutput, Streamed.raises]
  cases htruthy : s.output.result.truthy with
  | false =>
    rw [reply_falsy htruthy]
    exact idleError_eq_none
  | true =>
    have hshow := hs htruthy
    rw [reply_truthy htruthy, if_neg (by simp)]
    cases hformat : formatResult env s.output.result with
    | error e => simp [Except.map]
    | ok text =>
      cases text with
      | none => simp [Except.map]
      | some text =>
        have hne : text ≠ "" := by
          rintro rfl
          exact hshow hformat
        simp only [Except.map, Option.elim_some, Reply.ofText, if_neg hne]
        cases s.failure with
        | some e => simp [sendMessage_fails hchannel e]
        | none =>
          obtain ⟨app,happ⟩ := sendMessage_goes hchannel l.app text s.uuid s.now
          simp only [happ, Option.isSome_none, Bool.false_or]
          exact idleError_eq_none

/-- Both callbacks hand on the same for an output that shows something, and no empty text. -/
theorem texts_showing (hs : Showing env s) :
    messageTexts cfg env chatJid s = taskTexts cfg env chatJid s ∧
      some "" ∉ taskTexts cfg env chatJid s := by
  rw [messageTexts, taskTexts]
  cases htruthy : s.output.result.truthy with
  | false =>
    rw [reply_falsy htruthy]
    exact ⟨rfl,by simp⟩
  | true =>
    have hshow := hs htruthy
    rw [reply_truthy htruthy, if_neg (by simp)]
    cases hformat : formatResult env s.output.result with
    | error e => exact ⟨rfl,by simp⟩
    | ok text =>
      cases text with
      | none =>
        refine ⟨rfl,?_⟩
        dsimp only
        rw [handed]
        split_ifs <;> simp
      | some text =>
        have hne : text ≠ "" := by
          rintro rfl
          exact hshow hformat
        simp only [Except.map, Option.elim_some, Reply.ofText, if_neg hne]
        refine ⟨trivial,?_⟩
        rw [handed]
        split_ifs
        · simp
        · simp [Ne.symm hne]

/-- A scheduled run hands on an empty text for an output that shows nothing. -/
theorem taskTexts_hidden (hchannel : findChannel cfg.channels chatJid ≠ none) (hs : ¬Showing env s) :
    some "" ∈ taskTexts cfg env chatJid s := by
  rw [Showing, Classical.not_imp, not_not] at hs
  rw [taskTexts, if_neg (by simp [hs.1]), hs.2]
  dsimp only
  rw [handed, if_neg hchannel]
  exact List.mem_cons_self

/-- The texts that are handed on and can be stored, as they are sent to a chat. -/
def sentTo (chatJid : String) (texts : List (Option String)) : List (String × String) :=
  texts.filterMap (·.map (chatJid,·))

theorem sentTo_append (texts texts' : List (Option String)) :
    sentTo chatJid (texts ++ texts') = sentTo chatJid texts ++ sentTo chatJid texts' :=
  List.filterMap_append

theorem sendMessage_sent {s s' : AppState} {text uuid now : String} {failure : Option PyExc}
    (h : sendMessage cfg s chatJid text uuid now failure = .ok s') :
    s'.sent = s.sent ++ sentTo chatJid (handed cfg chatJid (some text)) := by
  have hchannel : findChannel cfg.channels chatJid ≠ none := by
    intro hnone
    have hfails : sendMessage cfg s chatJid text uuid now failure = .error .valueError := if_pos hnone
    rw [hfails] at h
    cases h
  rw [sendMessage_ok h, handed, if_neg hchannel]
  rfl

/-- What a message run hands on without raising is what it sends. -/
theorem onOutput_sends (h : (l.onOutput cfg env run s).2.2 = none) :
    (l.onOutput cfg env run s).1.sent =
      l.sent ++ sentTo run.chatJid (messageTexts cfg env run.chatJid s) := by
  rw [Live.onOutput] at h ⊢
  rw [messageTexts]
  cases hreply : reply env s.output.result with
  | error e =>
    rw [hreply] at h
    cases h
  | ok r =>
    rw [hreply] at h
    cases r with
    | nothing => exact (List.append_nil _).symm
    | illFormed => cases h
    | text text =>
      dsimp only at h ⊢
      cases hsend : sendMessage cfg l.app run.chatJid text s.uuid s.now s.failure with
      | error e =>
        rw [hsend] at h
        cases h
      | ok app => exact sendMessage_sent hsend

theorem onTaskOutput_sends {streamedResult : Json}
    (h : (l.onTaskOutput cfg env chatJid streamedResult s).2.2 = none) :
    (l.onTaskOutput cfg env chatJid streamedResult s).1.sent =
      l.sent ++ sentTo chatJid (taskTexts cfg env chatJid s) := by
  rw [Live.onTaskOutput] at h ⊢
  rw [taskTexts]
  by_cases htruthy : s.output.result.truthy = false
  · rw [if_pos htruthy, if_pos htruthy]
    exact (List.append_nil _).symm
  · rw [if_neg htruthy] at h
    rw [if_neg htruthy, if_neg htruthy]
    cases hformat : formatResult env s.output.result with
    | error e =>
      rw [hformat] at h
      cases h
    | ok text =>
      rw [hformat] at h
      cases text with
      | none => cases h
      | some text =>
        dsimp only at h ⊢
        cases hsend : sendMessage cfg l.app chatJid text s.uuid s.now s.failure with
        | error e =>
          rw [hsend] at h
          cases h
        | ok app => exact sendMessage_sent hsend

theorem messageStream_cons (l : Live) (run : Run) (s : Streamed) (rest : List Streamed) :
    l.messageStream cfg env run (s :: rest) = messageTexts cfg env run.chatJid s ++
      if (l.onOutput cfg env run s).2.2 = none then
        (l.onOutput cfg env run s).1.messageStream cfg env (l.onOutput cfg env run s).2.1 rest
      else [] := by
  rw [Live.messageStream]
  rcases l.onOutput cfg env run s with ⟨l₁,run₁,_ | e⟩ <;> rfl

theorem taskStream_cons (l : Live) (chatJid : String) (streamedResult : Json) (s : Streamed)
    (rest : List Streamed) :
    l.taskStream cfg env chatJid streamedResult (s :: rest) = taskTexts cfg env chatJid s ++
      if (l.onTaskOutput cfg env chatJid streamedResult s).2.2 = none then
        (l.onTaskOutput cfg env chatJid streamedResult s).1.taskStream cfg env chatJid
          (l.onTaskOutput cfg env chatJid streamedResult s).2.1 rest
      else [] := by
  rw [Live.taskStream]
  rcases l.onTaskOutput cfg env chatJid streamedResult s with ⟨l₁,result₁,_ | e⟩ <;> rfl

/-- A message run that does not raise has sent the texts that it handed on. -/
theorem messageStream_sent {streamed : List Streamed}
    (h : (l.stream cfg env run streamed).2.2 = none) :
    (l.stream cfg env run streamed).1.sent =
      l.sent ++ sentTo run.chatJid (l.messageStream cfg env run streamed) := by
  induction streamed generalizing l run with
  | nil => exact (List.append_nil _).symm
  | cons s rest ih =>
    rw [Live.stream] at h ⊢
    rw [messageStream_cons, sentTo_append]
    have hsends := @onOutput_sends cfg env l run s
    have hjid := @onOutput_chatJid cfg env l run s
    rcases hout : l.onOutput cfg env run s with ⟨l₁,run₁,_ | e⟩
    · rw [hout] at h hsends hjid
      dsimp only at h hsends hjid ⊢
      rw [if_pos rfl, ih h, hsends rfl, hjid, List.append_assoc]
    · rw [hout] at h
      cases h

theorem taskStream_sent {streamedResult : Json} {streamed : List Streamed}
    (h : (l.streamTask cfg env chatJid streamedResult streamed).2.2 = none) :
    (l.streamTask cfg env chatJid streamedResult streamed).1.sent =
      l.sent ++ sentTo chatJid (l.taskStream cfg env chatJid streamedResult streamed) := by
  induction streamed generalizing l streamedResult with
  | nil => exact (List.append_nil _).symm
  | cons s rest ih =>
    rw [Live.streamTask] at h ⊢
    rw [taskStream_cons, sentTo_append]
    have hsends := @onTaskOutput_sends cfg env l s chatJid streamedResult
    rcases hout : l.onTaskOutput cfg env chatJid streamedResult s with ⟨l₁,result₁,_ | e⟩
    · rw [hout] at h hsends
      dsimp only at h hsends ⊢
      rw [if_pos rfl, ih h, hsends rfl, List.append_assoc]
    · rw [hout] at h
      cases h

/-- Where no channel owns the chat, nothing is handed on. -/
theorem texts_unowned (hchannel : findChannel cfg.channels chatJid = none) (s : Streamed) :
    messageTexts cfg env chatJid s = [] ∧ taskTexts cfg env chatJid s = [] := by
  have hnone : ∀ text, handed cfg chatJid text = [] := fun text => if_pos hchannel
  constructor
  · rw [messageTexts]
    cases reply env s.output.result with
    | error e => rfl
    | ok r => cases r <;> simp only [hnone]
  · rw [taskTexts]
    cases formatResult env s.output.result <;> simp only [hnone, ite_self]

theorem messageStream_unowned (hchannel : findChannel cfg.channels run.chatJid = none)
    (streamed : List Streamed) : l.messageStream cfg env run streamed = [] := by
  induction streamed generalizing l run with
  | nil => rfl
  | cons s rest ih =>
    rw [messageStream_cons, (texts_unowned hchannel s).1]
    split_ifs
    · apply ih
      rw [onOutput_chatJid, hchannel]
    · rfl

theorem taskStream_unowned (hchannel : findChannel cfg.channels chatJid = none)
    (streamedResult : Json) (streamed : List Streamed) :
    l.taskStream cfg env chatJid streamedResult streamed = [] := by
  induction streamed generalizing l streamedResult with
  | nil => rfl
  | cons s rest ih =>
    rw [taskStream_cons, (texts_unowned hchannel s).2]
    split_ifs
    · apply ih
    · rfl

/-- Where a channel owns the chat, the two runs hand on alike exactly when all outputs show something
that are come to. -/
theorem streams_alike_iff (hchannel : findChannel cfg.channels run.chatJid ≠ none) (l' : Live)
    (streamedResult : Json) (streamed : List Streamed) :
    (l.messageStream cfg env run streamed =
        l'.taskStream cfg env run.chatJid streamedResult streamed ∧
      some "" ∉ l'.taskStream cfg env run.chatJid streamedResult streamed) ↔ Shows env streamed := by
  induction streamed generalizing l run l' streamedResult with
  | nil => simp [Live.messageStream, Live.taskStream, Shows]
  | cons s rest ih =>
    rw [messageStream_cons, taskStream_cons, Shows, List.mem_append, not_or]
    by_cases hs : Showing env s
    · obtain ⟨htexts,hempty⟩ := @texts_showing cfg env s run.chatJid hs
      have hmessage := (@onOutput_spec cfg env l run s hchannel).2.1
      have htask := @onTaskOutput_raises cfg env l' s run.chatJid streamedResult hchannel hs
      rw [htexts, List.append_cancel_left_eq, and_iff_right hempty, and_iff_right hs]
      cases hraises : s.raises env with
      | true =>
        -- both callbacks raise here, and hand on nothing more
        rw [if_neg (by simp [hmessage, hraises]), if_neg (by simp [htask, hraises])]
        simp
      | false =>
        rw [if_pos (hmessage.mpr hraises), if_pos (htask.mpr hraises)]
        have hjid := @onOutput_chatJid cfg env l run s
        have hrest := @ih (l.onOutput cfg env run s).1 (l.onOutput cfg env run s).2.1
          (hjid.symm ▸ hchannel) (l'.onTaskOutput cfg env run.chatJid streamedResult s).1
          (l'.onTaskOutput cfg env run.chatJid streamedResult s).2.1
        rw [hjid] at hrest
        rw [hrest]
        simp
    · refine iff_of_false (fun h => ?_) (fun h => hs h.1)
      exact h.2.1 (taskTexts_hidden hchannel hs)

/-- A message run and a scheduled run hand the same texts to the channel for the same outputs, none of
them empty, exactly when no channel owns the chat or all outputs show something that are come to. -/
theorem runs_deliver_alike_iff (cfg : Config) (env : Outside) (l l' : Live) (run : Run)
    (streamedResult : Json) (streamed : List Streamed) :
    (l.messageStream cfg env run streamed =
        l'.taskStream cfg env run.chatJid streamedResult streamed ∧
      some "" ∉ l'.taskStream cfg env run.chatJid streamedResult streamed) ↔
      (findChannel cfg.channels run.chatJid = none ∨ Shows env streamed) := by
  by_cases hchannel : findChannel cfg.channels run.chatJid = none
  · rw [messageStream_unowned hchannel, taskStream_unowned hchannel]
    simp [hchannel]
  · rw [or_iff_right hchannel]
    exact streams_alike_iff hchannel l' streamedResult streamed

end Streams

section Hidden

private def idleApp : Live := ⟨Dict.empty,[],"",Dict.empty,Dict.empty,Dict.empty,Dict.empty,[]⟩

private def mainRun : Run := ⟨"local:main","main",true,[],"",none,false,false⟩

/-- An output that is internal from end to end. -/
private def aside : Streamed where
  output := ⟨.str "success",.str "<internal>x</internal>",.null,.null⟩
  uuid := "1"
  now := "2026-01-01T00:00:00Z"
  failure := none
  idleFailure := none

/-- Of an internal output a message run hands on nothing, and a scheduled run an empty text. -/
theorem internal_output_sent_empty :
    idleApp.messageStream localCfg ⟨id,fun _ => none⟩ mainRun [aside] = [] ∧
      idleApp.taskStream localCfg ⟨id,fun _ => none⟩ "local:main" .null [aside] = [some ""] :=
  ⟨by decide +kernel,by decide +kernel⟩

end Hidden

end NanoClaw.App
