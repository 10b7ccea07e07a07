import NanoClaw.Ipc.Isolation
import NanoClaw.Ipc.Written

/-! What becomes of the requests that the server in an agent's container has acknowledged: when the
watcher does what was asked for. -/
namespace NanoClaw.Ipc
open Store Json Calendar

section Requests
variable (lib : Lib) (groups : Groups) (source : String) (server : Server) (moment : Moment)
  (arguments : List (String × Json))

/-- A call for the agent's own chat, or for a task of its own that exists. -/
def OwnCall (s : State) : Tool → Prop
  | .sendMessage => ownsChat groups source (messageChat server arguments) = true
  | .scheduleTask =>
    ownsChat groups source (toText server.reprOf (requestedChat server arguments)) = true
  | .mutation _ => ∃ task, s.db.getTaskById task.id = some task ∧ task.groupFolder = source ∧
    toText server.reprOf (getKey "task_id" arguments) = .str task.id

/-- What a call asks for, from the state before it is carried out to the state afterwards. -/
def TakesEffect (s s' : State) : Tool → Prop
  | .sendMessage =>
    s'.sends = s.sends ++ [(messageChat server arguments,messageText server arguments)]
  | .scheduleTask => ∃ task, s.db.getTaskById task.id = none ∧
    s'.db.getTaskById task.id = some task ∧ task.status = .active ∧ task.nextRun ≠ none ∧
    reportedId server moment arguments = .str task.id
  | .mutation m => ∃ id, toText server.reprOf (getKey "task_id" arguments) = .str id ∧
    (s'.db.getTaskById id).map (·.status) = m.asked

/-- The calls that the watcher carries out as they were acknowledged. -/
def Carried (env : Env) (s : State) : Tool → Prop
  | .sendMessage =>
    source ≠ "errors" ∧ nesting (getKey "sender" arguments) < lib.interp.depth
  | .scheduleTask =>
    source ≠ "errors" ∧ nesting (requestedMode arguments) < lib.interp.depth ∧
    (∃ jid, requestedChat server arguments = .str jid) ∧
    (∃ prompt, getKey "prompt" arguments = .str prompt) ∧
    (∃ type value, getKey "schedule_type" arguments = .str type ∧
      getKey "schedule_value" arguments = .str value ∧ Schedulable lib env.now type value) ∧
    ∃ id, requestedId moment arguments = .str id ∧ s.db.getTaskById id = none
  | .mutation m =>
    (source ≠ "errors" ∧ 0 < lib.interp.depth ∧ ∃ id, getKey "task_id" arguments = .str id) ∨
    ∃ task, toText server.reprOf (getKey "task_id" arguments) = .str task.id ∧
      s.db.getTaskById task.id = some task ∧ some task.status = m.asked

end Requests

section Sending
variable {lib : Lib} {groups : Groups} {source : String} {server : Server} {moment : Moment}
  {arguments : List (String × Json)} {env : Env} {s : State}

theorem decoded_messagePayload (hargs : Decoded lib.interp.floatRepr (.obj arguments))
    (htime : FloatText lib.interp.floatRepr moment.time) :
    Decoded lib.interp.floatRepr (.obj (messagePayload server moment arguments)) := by
  refine .obj ?_ (by simp [messagePayload])
  simp only [messagePayload, List.forall_mem_cons]
  exact ⟨.str _,decoded_toText (decoded_orElse (decoded_getKey hargs _) (.str _)),
    decoded_strip (decoded_toText (decoded_orElse (decoded_getKey hargs _) (.str _))),
    decoded_getKey hargs _,.str _,.float htime,fun _ h => absurd h List.not_mem_nil⟩

theorem nesting_messagePayload : nesting (.obj (messagePayload server moment arguments)) =
    nesting (getKey "sender" arguments) + 1 := by
  have hchat : nesting (messageChat server arguments) = 0 := nesting_of_isText (isText_toText _ _)
  have htext : nesting (messageText server arguments) = 0 := nesting_of_isText (isText_ofCodes _)
  simp [messagePayload, nesting, nestingFields, hchat, htext]

/-- A message for the agent's own chat is sent exactly when its payload is read. -/
theorem sendMessage_iff (hargs : Decoded lib.interp.floatRepr (.obj arguments))
    (htime : FloatText lib.interp.floatRepr moment.time)
    (hown : OwnCall groups source server arguments s .sendMessage) :
    TakesEffect server moment arguments s
        (runOnce lib groups s [inbox source env (.messages,
          Utf8.encode (dumps (.obj (messagePayload server moment arguments))))]).1.state .sendMessage ↔
      Carried lib source server moment arguments env s .sendMessage := by
  have hsent : (processWritten lib groups source env s (messagePayload server moment arguments)
      .messages).sends = s.sends ++ [(messageChat server arguments,messageText server arguments)] := by
    have hchat : (messageChat server arguments).isText = true := isText_toText _ _
    have htext : (messageText server arguments).isText = true := isText_ofCodes _
    have howns : ownsChat groups source (messageChat server arguments) = true := hown
    simp [processWritten, processMessagePayload, messagePayload, getKey, Dict.lookup, isStr, hchat,
      htext, howns]
  rw [runOnce_written (decoded_messagePayload hargs htime), nesting_messagePayload, TakesEffect,
    Carried]
  split_ifs with h
  · exact iff_of_true hsent h
  · exact iff_of_false (by simp) h

end Sending

section Mutations
variable {lib : Lib} {groups : Groups} {source : String} {server : Server} {moment : Moment}
  {arguments : List (String × Json)} {env : Env} {s : State} {m : Mutation}

theorem decoded_mutationPayload (hargs : Decoded lib.interp.floatRepr (.obj arguments))
    (htime : FloatText lib.interp.floatRepr moment.time) :
    Decoded lib.interp.floatRepr (.obj (mutationPayload moment arguments m)) := by
  refine .obj ?_ (by simp [mutationPayload])
  simp only [mutationPayload, List.forall_mem_cons]
  exact ⟨.str _,decoded_getKey hargs _,.float htime,fun _ h => absurd h List.not_mem_nil⟩

theorem nesting_mutationPayload : nesting (.obj (mutationPayload moment arguments m)) =
    nesting (getKey "task_id" arguments) + 1 := by
  simp [mutationPayload, nesting, nestingFields]

private theorem processWritten_mutation : processWritten lib groups source env s
    (mutationPayload moment arguments m) .tasks =
      (handleTaskMutation source (isMainFolder groups source) s (.str m.name)
        (getKey "task_id" arguments)).state := by
  have htype : isStr (.str m.name) "schedule_task" = false := by cases m <;> decide
  simp [processWritten, processTaskPayload, mutationPayload, getKey, Dict.lookup, htype]

/-- The effect of a mutation, on the task that it names. -/
private theorem mutation_effect_iff {task : ScheduledTask}
    (hname : toText server.reprOf (getKey "task_id" arguments) = .str task.id) (t : State) :
    TakesEffect server moment arguments s t (.mutation m) ↔
      (t.db.getTaskById task.id).map (·.status) = m.asked := by
  constructor
  · rintro ⟨id,hid,h⟩
    rwa [Json.str.inj (hid.symm.trans hname)] at h
  · intro h
    exact ⟨task.id,hname,h⟩

private theorem unchanged_iff {task : ScheduledTask}
    (hname : toText server.reprOf (getKey "task_id" arguments) = .str task.id)
    (hstored : s.db.getTaskById task.id = some task) :
    (∃ task', toText server.reprOf (getKey "task_id" arguments) = .str task'.id ∧
        s.db.getTaskById task'.id = some task' ∧ some task'.status = m.asked) ↔
      some task.status = m.asked := by
  constructor
  · rintro ⟨task',hid,hstored',h⟩
    rw [Json.str.inj (hid.symm.trans hname), hstored] at hstored'
    rwa [Option.some.inj hstored']
  · intro h
    exact ⟨task,hname,hstored,h⟩

/-- A mutation of one of the agent's own tasks is made exactly when it names the task by a text that
is read, or has nothing to change. -/
theorem mutation_iff (hargs : Decoded lib.interp.floatRepr (.obj arguments))
    (htime : FloatText lib.interp.floatRepr moment.time)
    (hown : OwnCall groups source server arguments s (.mutation m)) :
    TakesEffect server moment arguments s
        (runOnce lib groups s [inbox source env (.tasks,
          Utf8.encode (dumps (.obj (mutationPayload moment arguments m))))]).1.state (.mutation m) ↔
      Carried lib source server moment arguments env s (.mutation m) := by
  obtain ⟨task,hstored,hfolder,hname⟩ := hown
  have hnow := @mutation_effect_iff server moment arguments s m task hname
  have hbefore := @unchanged_iff server arguments s m task hname hstored
  rw [runOnce_written (decoded_mutationPayload hargs htime), hnow, nesting_mutationPayload, Carried,
    hbefore]
  by_cases htext : ∃ id, getKey "task_id" arguments = .str id
  · obtain ⟨id,hid⟩ := htext
    obtain rfl : id = task.id := by
      rw [hid] at hname
      exact Json.str.inj hname
    have hdone := @handleTaskMutation_own source s m task (isMainFolder groups source) hstored hfolder
    rw [← hid] at hdone
    have hnesting : nesting (getKey "task_id" arguments) = 0 := by
      rw [hid]
      rfl
    split_ifs with h
    · rw [processWritten_mutation]
      exact iff_of_true hdone (.inl ⟨h.1,by omega,_,hid⟩)
    · rw [hstored, Option.map_some]
      refine ⟨Or.inr,?_⟩
      rintro (hreads | h')
      · exact absurd ⟨hreads.1,by omega⟩ h
      · exact h'
  · have hsame : (if source ≠ "errors" ∧ nesting (getKey "task_id" arguments) + 1 ≤ lib.interp.depth
        then processWritten lib groups source env s (mutationPayload moment arguments m) .tasks
        else s) = s := by
      rw [processWritten_mutation, handleTaskMutation_unnamed _ (fun id h => htext ⟨id,h⟩), ite_self]
    rw [hsame, hstored, Option.map_some]
    exact ⟨Or.inr,fun h => h.resolve_left (fun h => htext h.2.2)⟩

end Mutations

section Scheduling
variable {lib : Lib} {groups : Groups} {source : String} {server : Server} {moment : Moment}
  {arguments : List (String × Json)} {env : Env} {s : State}

theorem decoded_schedulePayload (hargs : Decoded lib.interp.floatRepr (.obj arguments))
    (htime : FloatText lib.interp.floatRepr moment.time) :
    Decoded lib.interp.floatRepr (.obj (schedulePayload server moment arguments)) := by
  refine .obj ?_ (by simp [schedulePayload])
  simp only [schedulePayload, List.forall_mem_cons]
  exact ⟨.str _,decoded_orElse (decoded_getKey hargs _) (.str _),decoded_getKey hargs _,
    decoded_getKey hargs _,decoded_getKey hargs _,decoded_orElse (decoded_getKey hargs _) (.str _),
    decoded_orElse (decoded_getKey hargs _) (.str _),.float htime,fun _ h => absurd h List.not_mem_nil⟩

private theorem processWritten_schedule : processWritten lib groups source env s
    (schedulePayload server moment arguments) .tasks =
      (handleScheduleTask lib groups source (isMainFolder groups source) env s
        (schedulePayload server moment arguments)).state := by
  have htype : getKey "type" (schedulePayload server moment arguments) = .str "schedule_task" := rfl
  simp [processWritten, processTaskPayload, htype, isStr]

/-- The `repr` of a container begins with its bracket. -/
structure ReprOfLaw (reprOf : Json → String) : Prop where
  arr : ∀ items, (reprOf (.arr items)).toList.head? = some '['
  obj : ∀ fields, (reprOf (.obj fields)).toList.head? = some '\x7b'

private theorem head_digit {r : String} {c : Char} {t : List Char} (hr : r.toList = c :: t)
    (hc : isDigit c = true) : r.toList.head? ≠ some 't' := by
  rw [hr]
  rintro ⟨⟩
  cases hc

private theorem head_minus {r : String} {t : List Char} (hr : r.toList = '-' :: t) :
    r.toList.head? ≠ some 't' := by
  rw [hr]
  rintro ⟨⟩

theorem head_int (n : Int) : (toString n).toList.head? ≠ some 't' := by
  cases n with
  | ofNat m =>
    obtain ⟨c,t,hd,hc⟩ := (digits_toDigits m).head
    exact head_digit ((dumps_ofNat m).trans hd) hc
  | negSucc m => exact head_minus (dumps_negSucc m)

theorem head_float {floatRepr : List Char → String} {r : String} (h : FloatText floatRepr r) :
    r.toList.head? ≠ some 't' := by
  rcases h with rfl | rfl | rfl | ⟨⟨sign,body,hbody,hr⟩,_⟩
  · decide
  · decide
  · decide
  · obtain ⟨c,t,rfl,hc⟩ := hbody.head
    cases sign with
    | false => exact head_digit hr hc
    | true => exact head_minus hr

/-- Only a text reads like the id of a task that the watcher names. -/
theorem toText_ne_newId {reprOf : Json → String} (hreprOf : ReprOfLaw reprOf) {v : Json}
    (h : Decoded lib.interp.floatRepr v) (htext : ∀ id, v ≠ .str id) (uuid : String) :
    toText reprOf v ≠ .str ("task-" ++ uuid) := by
  have hhead : ∀ {r : String}, r.toList.head? ≠ some 't' → Json.str r ≠ .str ("task-" ++ uuid) := by
    rintro r hr ⟨⟩
    exact hr (by simp [String.toList_append])
  have hcontainer : ∀ {r : String} {c : Char}, r.toList.head? = some c → c ≠ 't' →
      r.toList.head? ≠ some 't' := by
    intro r c hr hc
    rw [hr]
    exact fun h => hc (Option.some.inj h)
  cases h with
  | null => exact @hhead "None" (by decide)
  | bool b =>
    cases b with
    | false => exact @hhead "False" (by decide)
    | true => exact @hhead "True" (by decide)
  | int h => exact hhead (head_int _)
  | float h => exact hhead (head_float h)
  | str s => exact absurd rfl (htext s)
  | illFormed h hlone => exact Json.noConfusion
  | arr h => exact hhead (hcontainer (hreprOf.arr _) (by decide))
  | obj h hnodup => exact hhead (hcontainer (hreprOf.obj _) (by decide))

/-- A row has the id that was reported only if the request names the id by a text. -/
private theorem requestedId_of_reported (hreprOf : ReprOfLaw server.reprOf)
    (hargs : Decoded lib.interp.floatRepr (.obj arguments)) {id : String}
    (hid : newTaskId env (requestedId moment arguments) = some id)
    (hreported : reportedId server moment arguments = .str id) :
    requestedId moment arguments = .str id := by
  by_contra hother
  have htext : ∀ id, requestedId moment arguments ≠ .str id := by
    intro id' hid'
    rw [reportedId, hid'] at hreported
    exact hother (hid'.trans hreported)
  have hdecoded : Decoded lib.interp.floatRepr (requestedId moment arguments) :=
    decoded_orElse (decoded_getKey hargs _) (.str _)
  have hnewId : ∃ uuid, id = "task-" ++ uuid := by
    revert hid htext
    cases requestedId moment arguments with
    | str id' => exact fun _ htext => absurd rfl (htext id')
    | illFormed codes => exact fun hid _ => nomatch hid
    | _ => exact fun hid _ => ⟨_,(Option.some.inj hid).symm⟩
  obtain ⟨uuid,rfl⟩ := hnewId
  exact toText_ne_newId hreprOf hdecoded htext uuid hreported

/-- A task that is requested for the agent's own chat is stored under the id that was reported exactly
when the request can be read, has texts and a schedule, and names no id or a new one. -/
theorem scheduleTask_iff (hreprOf : ReprOfLaw server.reprOf)
    (hargs : Decoded lib.interp.floatRepr (.obj arguments))
    (htime : FloatText lib.interp.floatRepr moment.time)
    (hown : OwnCall groups source server arguments s .scheduleTask) :
    TakesEffect server moment arguments s
        (runOnce lib groups s [inbox source env (.tasks,
          Utf8.encode (dumps (.obj (schedulePayload server moment arguments))))]).1.state
        .scheduleTask ↔
      Carried lib source server moment arguments env s .scheduleTask := by
  rw [runOnce_written (decoded_schedulePayload hargs htime), processWritten_schedule]
  constructor
  · rintro ⟨task,hnew,hstored,_,_,hreported⟩
    split_ifs at hstored with hreads
    · have h := handleScheduleTask_stored hnew hstored
      have hmode := nestingFields_le_iff.mp (Nat.le_pred_of_lt hreads.2)
        ("context_mode",requestedMode arguments) (by simp [schedulePayload])
      have hpos : 0 < lib.interp.depth := Nat.lt_of_lt_of_le (Nat.succ_pos _) hreads.2
      obtain ⟨t,hfirst,_⟩ := h.schedule
      obtain ⟨type,htype,hschedulable⟩ := computeFirstRun_eq_ok_iff.mp ⟨_,hfirst⟩
      refine ⟨hreads.1,Nat.lt_of_le_pred hpos hmode,⟨_,h.chat⟩,⟨_,h.prompt⟩,
        ⟨type,_,htype,h.value,hschedulable⟩,task.id,?_,hnew⟩
      exact requestedId_of_reported hreprOf hargs h.id hreported
    · rw [hnew] at hstored
      cases hstored
  · rintro ⟨herrors,hdepth,⟨jid,hjid⟩,⟨prompt,hprompt⟩,⟨type,value,htype,hvalue,hschedulable⟩,id,hid,
      hnew⟩
    have hreads : nesting (.obj (schedulePayload server moment arguments)) ≤ lib.interp.depth := by
      simpa [schedulePayload, nesting, nestingFields, hjid, hprompt, htype, hvalue, hid,
        Nat.succ_le_iff] using hdepth
    rw [if_pos ⟨herrors,hreads⟩]
    have howns : ownsChat groups source (.str jid) = true := by
      rw [OwnCall, hjid] at hown
      exact hown
    obtain ⟨_,g,hsame,hg,hfolder⟩ := ownsChat_eq_true howns
    cases hsame
    obtain ⟨schedule,hschedule⟩ := computeFirstRun_eq_ok_iff.mpr ⟨type,rfl,hschedulable⟩
    have hchat : getKey "targetJid" (schedulePayload server moment arguments) = .str jid := hjid
    obtain ⟨task,rfl,hactive,hnext,hstored⟩ := handleScheduleTask_creates hchat hg hfolder hprompt
      htype hvalue hschedule hid hnew
    exact ⟨task,hnew,hstored,hactive,hnext,by rw [reportedId, hid]; rfl⟩

end Scheduling

/-- A file holds what was written, or nothing was. -/
private theorem writeIpcFile_eq_ok {server : Server} {dir : IpcDir} {payload : List (String × Json)}
    {result : Json} {outcome : Outcome} (h : writeIpcFile server dir payload result = .ok outcome) :
    outcome.file = some (dir,Utf8.encode (dumps (.obj payload))) := by
  rw [writeIpcFile] at h
  split at h
  · cases h
    rfl
  · cases h

/-- A call with any object as its arguments that is answered without an error writes one file. The
watcher does what the call asked for exactly under the conditions of the tool: in a run over this
file alone, and when a run over any directories comes to it. -/
theorem acknowledged_takes_effect_iff {lib : Lib} {groups : Groups} {source : String} {server : Server}
    {moment : Moment} {env : Env} {s : State} {tool : Tool} {room : Nat} {text : List Char}
    {arguments : List (String × Json)} {outcome : Outcome} (hrepr : ReprLaw lib.interp.floatRepr)
    (hreprOf : ReprOfLaw server.reprOf) (htime : FloatText lib.interp.floatRepr moment.time)
    (hargs : loads ⟨lib.interp.floatRepr,room⟩ text = .ok (.obj arguments))
    (hcall : callTool server moment arguments tool = .ok outcome)
    (hack : isError outcome.result = false) (hown : OwnCall groups source server arguments s tool) :
    ∃ file, outcome.file = some file ∧
      (TakesEffect server moment arguments s (runOnce lib groups s [inbox source env file]).1.state
          tool ↔
        Carried lib source server moment arguments env s tool) ∧
      ∀ s₀ ds, ComesTo lib groups source file.1 ⟨file.2,env⟩ s₀ ds s →
        (TakesEffect server moment arguments s
            (handleIn lib groups source file.1 s ⟨file.2,env⟩).state tool ↔
          Carried lib source server moment arguments env s tool) := by
  have hdecoded := @decoded_of_loads ⟨lib.interp.floatRepr,room⟩ hrepr text (.obj arguments) hargs
  have halone : ∃ file, outcome.file = some file ∧
      (TakesEffect server moment arguments s (runOnce lib groups s [inbox source env file]).1.state
          tool ↔
        Carried lib source server moment arguments env s tool) := by
    cases tool with
    | sendMessage =>
      simp only [callTool, toolSendMessage] at hcall
      split at hcall
      · cases hcall
        cases hack
      · exact ⟨_,writeIpcFile_eq_ok hcall,sendMessage_iff hdecoded htime hown⟩
    | scheduleTask =>
      simp only [callTool, toolScheduleTask] at hcall
      exact ⟨_,writeIpcFile_eq_ok hcall,scheduleTask_iff hreprOf hdecoded htime hown⟩
    | mutation m =>
      simp only [callTool, toolTaskMutation] at hcall
      split at hcall
      · cases hcall
        cases hack
      · exact ⟨_,writeIpcFile_eq_ok hcall,mutation_iff hdecoded htime hown⟩
  obtain ⟨file,hfile,heffect⟩ := halone
  refine ⟨file,hfile,heffect,?_⟩
  intro s₀ ds hcomes
  rw [← hcomes.alone]
  exact heffect

section Calls

private def literalRepr (literal : List Char) : String := String.ofList literal

private theorem literalRepr_law : ReprLaw literalRepr := by
  intro literal h
  refine .inr (.inr (.inr ?_))
  simp [literalRepr, h]

private def containerRepr (v : Json) : String := String.ofList (dumps v)

private theorem containerRepr_law : ReprOfLaw containerRepr where
  arr items := by simp [containerRepr, dumps]
  obj fields := by simp [containerRepr, dumps]

private def watcherLib : Lib := ⟨⟨literalRepr,100⟩,fun _ t => .ok (t + 60000000)⟩

private def salesGroups : Groups := Dict.empty.set "local:sales"
  { name := "Sales", folder := "sales", trigger := "@Andy", addedAt := "" }

private def salesServer : Server := ⟨"local:sales","sales",containerRepr,100⟩

private def now : Moment := ⟨"0123abcd","1767225600.5"⟩

private def watcherEnv : Env := ⟨63902822400000000,"89abcdef",none⟩

/-- The arguments of a call that schedules a task every minute. -/
private def everyMinute (scheduleValue : Json) : List (String × Json) :=
  [("prompt",.str "do work"),("schedule_type",.str "interval"),("schedule_value",scheduleValue)]

private theorem now_floatText : FloatText literalRepr now.time := by
  have hbody : FloatBody ("1767225600".toList ++ ".5".toList ++ []) :=
    .mk (.digits ⟨by decide,List.all_eq_true.mp rfl⟩ (by decide))
      (@Fraction.digits ['5'] ⟨by decide,List.all_eq_true.mp rfl⟩) .none (by decide)
  exact .inr (.inr (.inr ⟨⟨false,_,hbody,by decide⟩,by decide⟩))

private theorem everyMinute_own (scheduleValue : Json) : OwnCall salesGroups "sales" salesServer
    (everyMinute scheduleValue) ⟨TaskDb.empty,[]⟩ .scheduleTask := rfl

theorem acknowledged_takes_effect_every_minute :
    ∃ outcome, callTool salesServer now (everyMinute (.str "60000")) .scheduleTask = .ok outcome ∧
      ∃ file, outcome.file = some file ∧
        TakesEffect salesServer now (everyMinute (.str "60000")) ⟨TaskDb.empty,[]⟩
          (runOnce watcherLib salesGroups ⟨TaskDb.empty,[]⟩
            [inbox "sales" watcherEnv file]).1.state .scheduleTask := by
  have hcall : ∃ outcome, callTool salesServer now (everyMinute (.str "60000")) .scheduleTask =
      .ok outcome ∧ isError outcome.result = false := ⟨_,rfl,rfl⟩
  obtain ⟨outcome,hcall,hack⟩ := hcall
  have hread : Readable 1 (.obj (everyMinute (.str "60000"))) := by
    refine .obj ?_ (by simp [everyMinute])
    simp only [everyMinute, List.forall_mem_cons]
    exact ⟨.str _,.str _,.str _,fun _ h => absurd h List.not_mem_nil⟩
  obtain ⟨file,hfile,heffect,_⟩ := @acknowledged_takes_effect_iff watcherLib salesGroups "sales"
    salesServer now watcherEnv ⟨TaskDb.empty,[]⟩ .scheduleTask 1 _ _ _ literalRepr_law
    containerRepr_law now_floatText (loads_readable hread) hcall hack (everyMinute_own _)
  refine ⟨outcome,hcall,file,hfile,heffect.mpr ?_⟩
  refine ⟨by decide,by decide,⟨_,rfl⟩,⟨_,rfl⟩,⟨_,_,rfl,rfl,?_⟩,_,rfl,rfl⟩
  exact .inr (.inl ⟨rfl,60000,by decide,by decide,by decide⟩)

/-- The value of a schedule as a number: the call is acknowledged, and no task is stored. -/
theorem numeric_schedule_lost :
    ∃ outcome file, callTool salesServer now (everyMinute (.int 60000)) .scheduleTask = .ok outcome ∧
      isError outcome.result = false ∧ outcome.file = some file ∧
      OwnCall salesGroups "sales" salesServer (everyMinute (.int 60000)) ⟨TaskDb.empty,[]⟩
        .scheduleTask ∧
      ¬TakesEffect salesServer now (everyMinute (.int 60000)) ⟨TaskDb.empty,[]⟩
        (runOnce watcherLib salesGroups ⟨TaskDb.empty,[]⟩
          [inbox "sales" watcherEnv file]).1.state .scheduleTask := by
  refine ⟨_,_,rfl,rfl,rfl,everyMinute_own _,?_⟩
  rintro ⟨task,_,hstored,_⟩
  have hrows : (runOnce watcherLib salesGroups ⟨TaskDb.empty,[]⟩ [inbox "sales" watcherEnv
      (.tasks,Utf8.encode (dumps (.obj (schedulePayload salesServer now
        (everyMinute (.int 60000))))))]).1.state.db.tasks.rows = [] := by
    decide +kernel
  have hmem := (TaskDb.getTaskById_eq_some_iff.mp hstored).1
  rw [hrows] at hmem
  cases hmem

end Calls

end NanoClaw.Ipc
