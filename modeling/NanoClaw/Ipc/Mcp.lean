import NanoClaw.Agent.Malformed
import NanoClaw.Ipc.Acknowledged
import NanoClaw.Library.Each
import NanoClaw.Library.TextFile

/-! The loop of the server inside an agent's container: which request lines it answers, and which end
it. -/
namespace NanoClaw.Ipc.Mcp
open Json

/-- The process of the server, with the nesting that the text of a response has room for. Its own
responses nest four deep. -/
structure Process extends Server where
  interp : Interp
  isMain : Bool
  room : Nat
  enough : 4 ≤ depth ∧ 4 ≤ room

/-- A line of the standard input, and what the process finds when it comes to it: its surroundings and
the two snapshot files. -/
structure Line where
  text : List Char
  moment : Moment
  currentTasks : TextFile
  availableGroups : TextFile

/-- The entries of `_TOOL_DISPATCH`. -/
inductive Handler where
  | writing (tool : Tool)
  | listTasks
  | listAvailableGroups
  deriving DecidableEq, Repr

def toolDispatch : Json → Option Handler
  | .str "send_message" => some (.writing .sendMessage)
  | .str "schedule_task" => some (.writing .scheduleTask)
  | .str "pause_task" => some (.writing (.mutation .pauseTask))
  | .str "resume_task" => some (.writing (.mutation .resumeTask))
  | .str "cancel_task" => some (.writing (.mutation .cancelTask))
  | .str "list_tasks" => some .listTasks
  | .str "list_available_groups" => some .listAvailableGroups
  | _ => none

private def toolEntry (name description : String) : Json :=
  .obj [("name",.str name),("description",.str description)]

/-- `_TOOLS`. -/
def tools : List Json :=
  [toolEntry "send_message" "Send a message to the active chat",
    toolEntry "schedule_task" "Create a scheduled task",
    toolEntry "list_tasks" "List current tasks snapshot",
    toolEntry "pause_task" "Pause a task",
    toolEntry "resume_task" "Resume a task",
    toolEntry "cancel_task" "Cancel a task",
    toolEntry "list_available_groups" "List available groups snapshot"]

/-- `_read_json`. -/
def readJson (interp : Interp) (file : TextFile) (default : Json) : Except PyExc Json :=
  match file.readText with
  | .error .osError => .ok default
  | .error e => .error e
  | .ok text =>
    match loads interp text with
    | .error .jsonDecodeError => .ok default
    | read => read

/-- What `for x in value` gives. -/
def iterate : Json → Except PyExc (List Json)
  | .arr items => .ok items
  | .obj fields => .ok (fields.map (fun p => .str p.1))
  | .str s => .ok (s.toList.map (fun c => .str (String.singleton c)))
  | .illFormed codes => .ok (codes.map (fun n => ofCodes [n]))
  | _ => .error .typeError

/-- The turn of a comprehension that keeps the tasks of a folder. -/
def ownTask (groupFolder : String) : Json → Except PyExc (Option Json)
  | .obj task =>
    .ok (if isStr (getKey "groupFolder" task) groupFolder then some (.obj task) else none)
  | _ => .error .attributeError

section Requests
variable (p : Process) (line : Line)

/-- The result whose text is the JSON of a value. -/
def dumped (v : Json) : Except PyExc Outcome :=
  if nesting v ≤ p.depth then .ok ⟨content (.str (String.ofList (dumps v))),none⟩
  else .error .recursionError

/-- The part of `_tool_list_tasks` behind the reading. -/
def listTasks (tasks : Json) : Except PyExc Outcome :=
  if p.isMain then dumped p tasks
  else do
    let items ← iterate tasks
    let own ← Each.collect (ownTask p.groupFolder) items
    dumped p (.arr own)

def toolListTasks : Except PyExc Outcome :=
  readJson p.interp line.currentTasks (.arr []) >>= listTasks p

def toolListAvailableGroups : Except PyExc Outcome :=
  readJson p.interp line.availableGroups (.obj [("groups",.arr [])]) >>= dumped p

/-- `_call_tool`, whose name is a text. -/
def callNamed (name : Json) (arguments : List (String × Json)) : Except PyExc Outcome :=
  match toolDispatch name with
  | none =>
    .ok ⟨.obj [("isError",.bool true),textContent (joinTexts [.str "unknown tool: ",name])],none⟩
  | some (.writing tool) => callTool p.toServer line.moment arguments tool
  | some .listTasks => toolListTasks p line
  | some .listAvailableGroups => toolListAvailableGroups p line

/-- `value if isinstance(value, dict) else {}`. -/
def dictOr : Json → List (String × Json)
  | .obj fields => fields
  | _ => []

/-- How the turn of a line ends: what it raises, the response it writes and the file of its request. -/
structure Turn where
  exc : Option PyExc
  response : Option (List (String × Json))
  file : Option (IpcDir × List UInt8)

/-- The response to a request, behind the file that its tool has written. -/
def writeResponse (reqId : Json) (outcome : String × Json) (file : Option (IpcDir × List UInt8)) :
    Turn :=
  let resp := [("jsonrpc",.str "2.0"),("id",reqId),outcome]
  if nesting (.obj resp) ≤ p.room then ⟨none,some resp,file⟩ else ⟨some .recursionError,none,file⟩

/-- The turn of a decoded object. -/
def respond (req : List (String × Json)) : Turn :=
  let method := getKey "method" req
  let reqId := getKey "id" req
  let params := dictOr (getKey "params" req)
  if isStr method "tools/list" then
    writeResponse p reqId ("result",.obj [("tools",.arr tools)]) none
  else if isStr method "tools/call" then
    match callNamed p line (toText p.reprOf (getKey "name" params)) (dictOr (getKey "arguments" params))
    with
    | .error e => ⟨some e,none,none⟩
    | .ok outcome => writeResponse p reqId ("result",outcome.result) outcome.file
  else
    writeResponse p reqId
      ("error",.obj [("code",.int (-32601)),
        ("message",joinTexts [.str "method not found: ",toText p.reprOf method])]) none

/-- The turn of the loop. -/
def turn : Turn :=
  let text := PyText.strip line.text
  if text = [] then ⟨none,none,none⟩
  else
    match loads p.interp text with
    | .error .jsonDecodeError => ⟨none,none,none⟩
    | .error e => ⟨some e,none,none⟩
    | .ok (.obj req) => respond p line req
    | .ok _ => ⟨some .attributeError,none,none⟩

/-- What a run of `main` has raised and written. -/
structure Ran where
  exc : Option PyExc
  responses : List (List (String × Json))
  files : List (IpcDir × List UInt8)

def main : List Line → Ran
  | [] => ⟨none,[],[]⟩
  | line :: lines =>
    let t := turn p line
    match t.exc with
    | some e => ⟨some e,t.response.toList,t.file.toList⟩
    | none =>
      let rest := main lines
      ⟨rest.exc,t.response.toList ++ rest.responses,t.file.toList ++ rest.files⟩

end Requests

section Conditions
variable (p : Process) (line : Line)

/-- A snapshot file that reads as this value. -/
def Snapshot (interp : Interp) (file : TextFile) (default v : Json) : Prop :=
  match file with
  | .missing | .unreadable => v = default
  | .bytes content => ∃ text, Utf8.decode? content = some text ∧
    (loads interp text = .ok v ∨ loads interp text = .error .jsonDecodeError ∧ v = default)

/-- The JSON of a list of these tasks has room. Those of other folders are left out for a group that
is not the main one, and each of them is an object. -/
def Listable (v : Json) : Prop :=
  if p.isMain then nesting v ≤ p.depth
  else
    v.isText = true ∧ codesOf v = [] ∨ v = .obj [] ∨
      ∃ tasks : List (List (String × Json)), v = .arr (tasks.map .obj) ∧
        ∀ task ∈ tasks, getKey "groupFolder" task = .str p.groupFolder → nesting (.obj task) < p.depth

/-- The calls that a tool answers. -/
def Answers (arguments : List (String × Json)) : Handler → Prop
  | .writing .sendMessage =>
    (messageText p.toServer arguments).truthy = false ∨ nesting (getKey "sender" arguments) < p.depth
  | .writing .scheduleTask =>
    ∀ key ∈ ["taskId","prompt","schedule_type","schedule_value","context_mode","targetJid"],
      nesting (getKey key arguments) < p.depth
  | .writing (.mutation _) => nesting (getKey "task_id" arguments) < p.depth
  | .listTasks => ∃ v, Snapshot p.interp line.currentTasks (.arr []) v ∧ Listable p v
  | .listAvailableGroups =>
    ∃ v, Snapshot p.interp line.availableGroups (.obj [("groups",.arr [])]) v ∧ nesting v ≤ p.depth

/-- A line that is blank, no JSON, or an object whose id fits a response and whose tool, if it calls
one, answers. -/
def HarmlessLine : Prop :=
  PyText.strip line.text = [] ∨ loads p.interp (PyText.strip line.text) = .error .jsonDecodeError ∨
    ∃ req, loads p.interp (PyText.strip line.text) = .ok (.obj req) ∧
      nesting (getKey "id" req) < p.room ∧
      (getKey "method" req = .str "tools/call" →
        ∀ handler, toolDispatch (toText p.reprOf (getKey "name" (dictOr (getKey "params" req)))) =
            some handler →
          Answers p line (dictOr (getKey "arguments" (dictOr (getKey "params" req)))) handler)

/-- The object on a line. -/
def request? : Option (List (String × Json)) :=
  match loads p.interp (PyText.strip line.text) with
  | .ok (.obj req) => some req
  | _ => none

/-- `main` comes to its end, and has answered the objects among the lines one by one, each under its
own id. -/
structure Outlives (lines : List Line) : Prop where
  returns : (main p lines).exc = none
  answered : (main p lines).responses.map (getKey "id") =
    (lines.filterMap (request? p)).map (getKey "id")

end Conditions

section Tools
variable {p : Process} {line : Line} {arguments : List (String × Json)}

/-- What a call replaces by its default is no container, or an empty one. -/
theorem nesting_of_falsy {v : Json} (h : v.truthy = false) : nesting v ≤ 1 := by
  cases v with
  | arr items =>
    cases items with
    | nil => exact le_rfl
    | cons => cases h
  | obj fields =>
    cases fields with
    | nil => exact le_rfl
    | cons => cases h
  | _ => exact Nat.zero_le 1

theorem nesting_orElse_lt_iff {v w : Json} {depth : Nat} (hdepth : 1 < depth) (hw : nesting w = 0) :
    nesting (v.orElse w) < depth ↔ nesting v < depth := by
  rw [orElse]
  split_ifs with h
  · rfl
  · have := nesting_of_falsy (Bool.eq_false_iff.mpr h)
    omega

theorem writeIpcFile_ok_iff {server : Server} {dir : IpcDir} {payload : List (String × Json)}
    {result : Json} : (∃ outcome, writeIpcFile server dir payload result = .ok outcome) ↔
      nesting (.obj payload) ≤ server.depth := by
  rw [writeIpcFile]
  split_ifs with h
  · exact iff_of_true ⟨_,rfl⟩ h
  · refine iff_of_false ?_ h
    rintro ⟨outcome,hok⟩
    cases hok

theorem nesting_schedulePayload_le_iff {moment : Moment} (hdepth : 1 < p.depth) :
    nesting (.obj (schedulePayload p.toServer moment arguments)) ≤ p.depth ↔
      ∀ key ∈ ["taskId","prompt","schedule_type","schedule_value","context_mode","targetJid"],
        nesting (getKey key arguments) < p.depth := by
  have hid : nesting (requestedId moment arguments) < p.depth ↔
      nesting (getKey "taskId" arguments) < p.depth := nesting_orElse_lt_iff hdepth rfl
  have hchat : nesting (requestedChat p.toServer arguments) < p.depth ↔
      nesting (getKey "targetJid" arguments) < p.depth := nesting_orElse_lt_iff hdepth rfl
  have hmode : nesting (requestedMode arguments) < p.depth ↔
      nesting (getKey "context_mode" arguments) < p.depth := nesting_orElse_lt_iff hdepth rfl
  have htext : 0 < p.depth := Nat.zero_lt_of_lt hdepth
  rw [nesting, Nat.succ_le_iff, schedulePayload]
  simp only [nestingFields, nesting, max_lt_iff, List.forall_mem_cons, hid, hchat, hmode, htext,
    true_and, and_true, List.not_mem_nil, false_implies, implies_true]

/-- A tool that writes requests answers when the payload has room. -/
theorem callTool_ok_iff (tool : Tool) :
    (∃ outcome, callTool p.toServer line.moment arguments tool = .ok outcome) ↔
      Answers p line arguments (.writing tool) := by
  have hdepth : 1 < p.depth := by have := p.enough.1; omega
  cases tool with
  | sendMessage =>
    rw [callTool, toolSendMessage, Answers]
    split_ifs with htext
    · rw [writeIpcFile_ok_iff, nesting_messagePayload, Nat.succ_le_iff, htext]
      simp
    · exact iff_of_true ⟨_,rfl⟩ (Or.inl (Bool.eq_false_iff.mpr htext))
  | scheduleTask =>
    rw [callTool, toolScheduleTask, writeIpcFile_ok_iff]
    exact nesting_schedulePayload_le_iff hdepth
  | mutation m =>
    rw [callTool, toolTaskMutation, Answers]
    split_ifs with hid
    · rw [writeIpcFile_ok_iff, nesting_mutationPayload, Nat.succ_le_iff]
    · have := nesting_of_falsy (Bool.eq_false_iff.mpr hid)
      exact iff_of_true ⟨_,rfl⟩ (by omega)

end Tools

section Snapshots
variable {p : Process} {line : Line} {arguments : List (String × Json)}

theorem readJson_eq_ok_iff {interp : Interp} {file : TextFile} {default v : Json} :
    readJson interp file default = .ok v ↔ Snapshot interp file default v := by
  cases file with
  | missing | unreadable => simp [readJson, TextFile.readText, Snapshot, eq_comm]
  | bytes content =>
    rw [readJson, TextFile.readText, Snapshot]
    cases hdecode : Utf8.decode? content with
    | none => simp
    | some text =>
      cases hloads : loads interp text with
      | ok w => simp [hloads]
      | error e => cases e <;> simp [hloads, eq_comm]

theorem dumped_ok_iff {v : Json} : (∃ outcome, dumped p v = .ok outcome) ↔ nesting v ≤ p.depth := by
  rw [dumped]
  split_ifs with h
  · exact iff_of_true ⟨_,rfl⟩ h
  · refine iff_of_false ?_ h
    rintro ⟨outcome,hok⟩
    cases hok

theorem toolListAvailableGroups_ok_iff :
    (∃ outcome, toolListAvailableGroups p line = .ok outcome) ↔
      Answers p line arguments .listAvailableGroups := by
  rw [toolListAvailableGroups, Each.bind_ok_iff, Answers]
  exact exists_congr (fun v => and_congr readJson_eq_ok_iff dumped_ok_iff)

private theorem ownTask_of_isText {folder : String} {v : Json} (h : v.isText = true) :
    ownTask folder v = .error .attributeError := by
  cases v <;> first | rfl | cases h

/-- Texts have no `get`. -/
private theorem collect_texts {folder : String} {items : List Json} (h : ∀ v ∈ items, v.isText = true) :
    (∃ own, Each.collect (ownTask folder) items = .ok own) ↔ items = [] := by
  rw [Each.collect_ok_iff]
  constructor
  · intro hall
    refine List.eq_nil_iff_forall_not_mem.mpr (fun v hv => ?_)
    obtain ⟨out,hout⟩ := hall v hv
    rw [ownTask_of_isText (h v hv)] at hout
    cases hout
  · rintro rfl
    exact List.forall_mem_nil _

/-- The tasks that are kept. -/
private theorem collect_tasks {folder : String} (tasks : List (List (String × Json))) :
    Each.collect (ownTask folder) (tasks.map .obj) =
      .ok ((tasks.filter (fun task => isStr (getKey "groupFolder" task) folder)).map .obj) := by
  induction tasks with
  | nil => rfl
  | cons task tasks ih =>
    rw [List.map_cons, Each.collect_cons, ih, ownTask, List.filter_cons]
    dsimp only
    cases isStr (getKey "groupFolder" task) folder <;> rfl

private theorem objects_of_collect {folder : String} {items own : List Json}
    (h : Each.collect (ownTask folder) items = .ok own) :
    ∃ tasks : List (List (String × Json)), items = tasks.map .obj := by
  have hall := Each.collect_ok_iff.mp ⟨own,h⟩
  clear h
  induction items with
  | nil => exact ⟨[],rfl⟩
  | cons v items ih =>
    obtain ⟨⟨out,hout⟩,hitems⟩ := List.forall_mem_cons.mp hall
    obtain ⟨tasks,rfl⟩ := ih hitems
    cases v with
    | obj task => exact ⟨task :: tasks,rfl⟩
    | _ => cases hout

/-- Nothing that is iterated over as texts stands for a task. -/
private theorem listTasks_texts {v : Json} {items : List Json} (hmain : ¬p.isMain = true)
    (hitems : iterate v = .ok items) (htexts : ∀ w ∈ items, w.isText = true) :
    (∃ outcome, listTasks p v = .ok outcome) ↔ items = [] := by
  have hdepth : 1 ≤ p.depth := by have := p.enough.1; omega
  rw [listTasks, if_neg hmain, hitems, Each.bind_ok_iff]
  constructor
  · rintro ⟨_,hok,hrest⟩
    cases hok
    obtain ⟨own,hown,_⟩ := Each.bind_ok_iff.mp hrest
    exact (collect_texts htexts).mp ⟨own,hown⟩
  · rintro rfl
    exact ⟨[],rfl,Each.bind_ok_iff.mpr ⟨[],rfl,dumped_ok_iff.mpr hdepth⟩⟩

/-- A list is listed when it holds tasks, and those of the group have room. -/
private theorem listTasks_arr {items : List Json} (hmain : ¬p.isMain = true) :
    (∃ outcome, listTasks p (.arr items) = .ok outcome) ↔
      ∃ tasks : List (List (String × Json)), items = tasks.map .obj ∧
        ∀ task ∈ tasks, getKey "groupFolder" task = .str p.groupFolder →
          nesting (.obj task) < p.depth := by
  have hroom (tasks : List (List (String × Json))) :
      (∃ outcome, dumped p (.arr ((tasks.filter
          (fun task => isStr (getKey "groupFolder" task) p.groupFolder)).map .obj)) = .ok outcome) ↔
        ∀ task ∈ tasks, getKey "groupFolder" task = .str p.groupFolder →
          nesting (.obj task) < p.depth := by
    have hdepth : 0 < p.depth := by have := p.enough.1; omega
    rw [dumped_ok_iff, nesting, Nat.succ_le_iff, ← Nat.le_sub_one_iff_lt hdepth, nestingItems_le_iff]
    simp only [List.forall_mem_map, List.mem_filter, isStr_eq_true, and_imp,
      Nat.le_sub_one_iff_lt hdepth]
  rw [listTasks, if_neg hmain, Each.bind_ok_iff]
  constructor
  · rintro ⟨_,hok,hrest⟩
    cases hok
    obtain ⟨own,hown,hfits⟩ := Each.bind_ok_iff.mp hrest
    obtain ⟨tasks,rfl⟩ := objects_of_collect hown
    rw [collect_tasks] at hown
    cases hown
    exact ⟨tasks,rfl,(hroom tasks).mp hfits⟩
  · rintro ⟨tasks,rfl,hfits⟩
    exact ⟨_,rfl,Each.bind_ok_iff.mpr ⟨_,collect_tasks tasks,(hroom tasks).mpr hfits⟩⟩

theorem listTasks_ok_iff {v : Json} : (∃ outcome, listTasks p v = .ok outcome) ↔ Listable p v := by
  rw [Listable]
  split_ifs with hmain
  · rw [listTasks, if_pos hmain]
    exact dumped_ok_iff
  · cases v with
    | arr items =>
      rw [listTasks_arr hmain]
      simp [isText]
    | obj fields =>
      have htexts : ∀ w ∈ fields.map (fun q => Json.str q.1), w.isText = true :=
        List.forall_mem_map.mpr (fun _ _ => rfl)
      rw [listTasks_texts hmain rfl htexts, List.map_eq_nil_iff]
      simp [isText]
    | str s =>
      have htexts : ∀ w ∈ s.toList.map (fun c => Json.str (String.singleton c)), w.isText = true :=
        List.forall_mem_map.mpr (fun _ _ => rfl)
      rw [listTasks_texts hmain rfl htexts, List.map_eq_nil_iff]
      simp [isText, codesOf]
    | illFormed codes =>
      have htexts : ∀ w ∈ codes.map (fun n => ofCodes [n]), w.isText = true :=
        List.forall_mem_map.mpr (fun _ _ => isText_ofCodes _)
      rw [listTasks_texts hmain rfl htexts, List.map_eq_nil_iff]
      simp [isText, codesOf]
    | null | bool | int | float =>
      rw [listTasks, if_neg hmain]
      refine iff_of_false ?_ (by simp [isText])
      rintro ⟨outcome,h⟩
      cases h

/-- A call is answered for a name that is unknown, and where its tool answers. -/
theorem callNamed_ok_iff {name : Json} : (∃ outcome, callNamed p line name arguments = .ok outcome) ↔
    ∀ handler, toolDispatch name = some handler → Answers p line arguments handler := by
  rw [callNamed]
  cases toolDispatch name with
  | none => exact iff_of_true ⟨_,rfl⟩ (fun _ h => by cases h)
  | some handler =>
    simp only [Option.some.injEq, forall_eq']
    cases handler with
    | writing tool => exact callTool_ok_iff tool
    | listTasks =>
      dsimp only
      rw [toolListTasks, Each.bind_ok_iff, Answers]
      exact exists_congr (fun v => and_congr readJson_eq_ok_iff listTasks_ok_iff)
    | listAvailableGroups => exact toolListAvailableGroups_ok_iff

end Snapshots

section Responses
variable {p : Process} {line : Line} {arguments : List (String × Json)}

theorem nesting_content {text : Json} (h : text.isText = true) : nesting (content text) = 3 := by
  simp [content, textContent, nesting, nestingFields, nestingItems, nesting_of_isText h]

theorem nesting_errorResult (text : String) : nesting (errorResult text) = 3 := rfl

private theorem writeIpcFile_result {server : Server} {dir : IpcDir} {payload : List (String × Json)}
    {result : Json} {outcome : Outcome} (h : writeIpcFile server dir payload result = .ok outcome) :
    outcome.result = result := by
  rw [writeIpcFile] at h
  split_ifs at h
  cases h
  rfl

/-- Every result of a tool is a list with one text. -/
theorem nesting_callTool {tool : Tool} {outcome : Outcome}
    (h : callTool p.toServer line.moment arguments tool = .ok outcome) : nesting outcome.result = 3 := by
  cases tool with
  | sendMessage =>
    rw [callTool, toolSendMessage] at h
    split_ifs at h
    · rw [writeIpcFile_result h]
      exact nesting_content rfl
    · cases h
      exact nesting_errorResult _
  | scheduleTask =>
    rw [callTool, toolScheduleTask] at h
    rw [writeIpcFile_result h]
    exact nesting_content (isText_ofCodes _)
  | mutation m =>
    rw [callTool, toolTaskMutation] at h
    split_ifs at h
    · rw [writeIpcFile_result h]
      exact nesting_content (isText_ofCodes _)
    · cases h
      exact nesting_errorResult _

private theorem nesting_dumped {v : Json} {outcome : Outcome} (h : dumped p v = .ok outcome) :
    nesting outcome.result = 3 := by
  rw [dumped] at h
  split_ifs at h
  cases h
  exact nesting_content rfl

private theorem nesting_listTasks {v : Json} {outcome : Outcome} (h : listTasks p v = .ok outcome) :
    nesting outcome.result = 3 := by
  rw [listTasks] at h
  split_ifs at h
  · exact nesting_dumped h
  · obtain ⟨items,_,h⟩ := Each.bind_eq_ok_iff.mp h
    obtain ⟨own,_,h⟩ := Each.bind_eq_ok_iff.mp h
    exact nesting_dumped h

theorem nesting_callNamed {name : Json} {outcome : Outcome}
    (h : callNamed p line name arguments = .ok outcome) : nesting outcome.result = 3 := by
  rw [callNamed] at h
  split at h
  · have htext : nesting (joinTexts [.str "unknown tool: ",name]) = 0 :=
      nesting_of_isText (isText_ofCodes _)
    cases h
    simp [textContent, nesting, nestingFields, nestingItems, htext]
  · exact nesting_callTool h
  · obtain ⟨tasks,_,h⟩ := Each.bind_eq_ok_iff.mp h
    exact nesting_listTasks h
  · obtain ⟨payload,_,h⟩ := Each.bind_eq_ok_iff.mp h
    exact nesting_dumped h

/-- Only the id of the request may be too deep for the response. -/
theorem writeResponse_exc_iff {reqId : Json} {outcome : String × Json}
    {file : Option (IpcDir × List UInt8)} (h : nesting outcome.2 ≤ 3) :
    (writeResponse p reqId outcome file).exc = none ↔ nesting reqId < p.room := by
  have hroom := p.enough.2
  have hnesting : nesting (.obj [("jsonrpc",.str "2.0"),("id",reqId),outcome]) ≤ p.room ↔
      nesting reqId < p.room := by
    simp only [nesting, nestingFields]
    omega
  rw [writeResponse, ← hnesting]
  split_ifs with hfits
  · exact iff_of_true rfl hfits
  · exact iff_of_false (fun he => by cases he) hfits

theorem writeResponse_id {reqId : Json} {outcome : String × Json}
    {file : Option (IpcDir × List UInt8)} (h : (writeResponse p reqId outcome file).exc = none) :
    (writeResponse p reqId outcome file).response.map (getKey "id") = some reqId := by
  rw [writeResponse] at h ⊢
  split_ifs at h ⊢
  rfl

/-- A request is answered when its id is not too deep and its tool answers. -/
theorem respond_exc_iff {req : List (String × Json)} :
    (respond p line req).exc = none ↔
      nesting (getKey "id" req) < p.room ∧
        (getKey "method" req = .str "tools/call" →
          ∀ handler, toolDispatch (toText p.reprOf (getKey "name" (dictOr (getKey "params" req)))) =
              some handler →
            Answers p line (dictOr (getKey "arguments" (dictOr (getKey "params" req)))) handler) := by
  rw [respond]
  split_ifs with hlist hcall
  · rw [writeResponse_exc_iff (by decide), isStr_eq_true.mp hlist]
    simp
  · rw [← callNamed_ok_iff]
    simp only [isStr_eq_true.mp hcall, forall_const]
    cases hnamed : callNamed p line (toText p.reprOf (getKey "name" (dictOr (getKey "params" req))))
        (dictOr (getKey "arguments" (dictOr (getKey "params" req)))) with
    | error e =>
      refine iff_of_false (fun h => by cases h) ?_
      rintro ⟨_,outcome,h⟩
      cases h
    | ok outcome =>
      dsimp only
      rw [writeResponse_exc_iff (nesting_callNamed hnamed).le]
      exact (and_iff_left ⟨outcome,rfl⟩).symm
  · have hmessage : nesting (joinTexts [.str "method not found: ",
        toText p.reprOf (getKey "method" req)]) = 0 := nesting_of_isText (isText_ofCodes _)
    rw [writeResponse_exc_iff (by simp [nesting, nestingFields, hmessage])]
    exact (and_iff_left (fun h => absurd (isStr_eq_true.mpr h) hcall)).symm

theorem respond_id {req : List (String × Json)} (h : (respond p line req).exc = none) :
    (respond p line req).response.map (getKey "id") = some (getKey "id" req) := by
  rw [respond] at h ⊢
  split_ifs at h ⊢
  · exact writeResponse_id h
  · split at h
    · cases h
    · exact writeResponse_id h
  · exact writeResponse_id h

end Responses

section Loop
variable {p : Process} {line : Line}

theorem turn_exc_iff : (turn p line).exc = none ↔ HarmlessLine p line := by
  rw [turn, HarmlessLine]
  split_ifs with hblank
  · exact iff_of_true rfl (Or.inl hblank)
  · cases hloads : loads p.interp (PyText.strip line.text) with
    | error e => cases e <;> simp [hblank]
    | ok v =>
      cases v with
      | obj req => simp [hblank, respond_exc_iff]
      | _ => simp [hblank]

/-- The turn of an object answers it, and no other turn answers anything. -/
theorem turn_id (h : (turn p line).exc = none) :
    (turn p line).response.map (getKey "id") = (request? p line).map (getKey "id") := by
  rw [turn] at h ⊢
  rw [request?]
  split_ifs at h ⊢ with hblank
  · rw [hblank, Framing.loads_nil]
  · cases hloads : loads p.interp (PyText.strip line.text) with
    | error e =>
      rw [hloads] at h
      cases e with
      | jsonDecodeError => rfl
      | _ => cases h
    | ok v =>
      rw [hloads] at h
      cases v with
      | obj req => exact respond_id h
      | _ => cases h

theorem main_exc_iff {lines : List Line} :
    (main p lines).exc = none ↔ ∀ line ∈ lines, (turn p line).exc = none := by
  induction lines with
  | nil => exact iff_of_true rfl (List.forall_mem_nil _)
  | cons line lines ih =>
    rw [List.forall_mem_cons, ← ih, main]
    cases (turn p line).exc <;> simp

theorem main_ids {lines : List Line} (h : (main p lines).exc = none) :
    (main p lines).responses.map (getKey "id") = (lines.filterMap (request? p)).map (getKey "id") := by
  induction lines with
  | nil => rfl
  | cons line lines ih =>
    obtain ⟨hline,hlines⟩ := List.forall_mem_cons.mp (main_exc_iff.mp h)
    rw [main, hline]
    dsimp only
    rw [List.map_append, ih (main_exc_iff.mpr hlines), List.filterMap_cons]
    have hid := turn_id hline
    cases hreq : request? p line with
    | none =>
      rw [hreq] at hid
      rw [Option.map_eq_none_iff.mp hid]
      rfl
    | some req =>
      rw [hreq] at hid
      obtain ⟨resp,hresp,hkey⟩ := Option.map_eq_some_iff.mp hid
      rw [hresp, List.map_cons, ← hkey]
      rfl

end Loop

/-- The server comes to the end of its input, and has answered every object on the way under its own
id, exactly when each line is harmless. -/
theorem outlives_iff (p : Process) (lines : List Line) :
    Outlives p lines ↔ ∀ line ∈ lines, HarmlessLine p line := by
  constructor
  · intro h line hline
    exact turn_exc_iff.mp (main_exc_iff.mp h.returns line hline)
  · intro h
    have hexc : (main p lines).exc = none :=
      main_exc_iff.mpr (fun line hline => turn_exc_iff.mpr (h line hline))
    exact ⟨hexc,main_ids hexc⟩

private def salesProcess : Process where
  chatJid := "tg:1"
  groupFolder := "sales"
  reprOf := fun _ => ""
  depth := 10
  interp := ⟨String.ofList,10⟩
  isMain := false
  room := 10
  enough := by decide

private def typed (text : String) : Line := ⟨text.toList,⟨"","0.5"⟩,.missing,.missing⟩

private def listFirst : List Line :=
  [typed "[]",typed "\x7b\"id\": 1, \"method\": \"tools/list\"\x7d"]

/-- A list on a line ends the server, and the request behind it stays without an answer. -/
theorem list_line_ends : main salesProcess listFirst = ⟨some .attributeError,[],[]⟩ ∧
    ¬Outlives salesProcess listFirst := by
  have hends : main salesProcess listFirst = ⟨some .attributeError,[],[]⟩ := rfl
  refine ⟨hends,?_⟩
  rintro ⟨hreturns,_⟩
  rw [hends] at hreturns
  cases hreturns

end NanoClaw.Ipc.Mcp
