import Mathlib.Data.List.DropRight
import NanoClaw.Ipc.Watcher
import NanoClaw.Library.JsonLoads

/-! The tools of the server inside an agent's container that write requests: what they answer and
which file they write. -/
namespace NanoClaw.Ipc
open Json

section Texts

/-- The code points of a text. -/
def codesOf : Json → List Nat
  | .str s => s.toList.map Char.toNat
  | .illFormed codes => codes
  | _ => []

/-- `str(value)`. -/
def toText (reprOf : Json → String) : Json → Json
  | .illFormed codes => .illFormed codes
  | v => .str ((v.text? reprOf).getD "")

/-- A surrogate is no white space. -/
def isSpaceCode (n : Nat) : Bool := PyText.isSpace (Char.ofNat n)

/-- `text.strip()`. -/
def strip (text : Json) : Json :=
  ofCodes (((codesOf text).dropWhile isSpaceCode).rdropWhile isSpaceCode)

/-- The text of an f-string from its parts. -/
def joinTexts (parts : List Json) : Json := ofCodes (parts.flatMap codesOf)

variable {floatRepr : List Char → String}

theorem codes_codesOf {v : Json} (h : Decoded floatRepr v) : Codes (codesOf v) := by
  cases h with
  | str s =>
    have hscalar : ∀ n ∈ s.toList.map Char.toNat, n < 0xd800 ∨ 0xdfff < n ∧ n < 0x110000 := by
      intro n hn
      obtain ⟨c,_,rfl⟩ := List.mem_map.mp hn
      exact c.valid
    constructor
    · intro n hn
      have := hscalar n hn
      omega
    · refine (List.pairwise_of_forall_mem_list ?_).isChain
      rintro n hn m _ ⟨hhigh,_⟩
      have := hscalar n hn
      rw [IsHigh] at hhigh
      omega
  | illFormed h hlone => exact h
  | _ => exact ⟨fun n hn => absurd hn List.not_mem_nil,List.isChain_nil⟩

theorem decoded_toText {reprOf : Json → String} {v : Json} (h : Decoded floatRepr v) :
    Decoded floatRepr (toText reprOf v) := by
  cases h with
  | illFormed h hlone => exact .illFormed h hlone
  | _ => exact .str _

theorem decoded_strip {v : Json} (h : Decoded floatRepr v) : Decoded floatRepr (strip v) :=
  .text (Codes.part (codes_codesOf h)
    ((List.rdropWhile_prefix _ _).isInfix.trans (List.dropWhile_suffix _).isInfix))

theorem decoded_orElse {v w : Json} (hv : Decoded floatRepr v) (hw : Decoded floatRepr w) :
    Decoded floatRepr (v.orElse w) := by
  rw [orElse]
  split_ifs
  · exact hv
  · exact hw

theorem decoded_getKey {fields : List (String × Json)} (h : Decoded floatRepr (.obj fields))
    (key : String) : Decoded floatRepr (getKey key fields) := by
  cases h with
  | obj h hnodup =>
    rw [getKey]
    cases hkey : Dict.lookup key fields with
    | none => exact .null
    | some v => exact h _ (Dict.mem_of_lookup hkey)

theorem isText_toText (reprOf : Json → String) (v : Json) : (toText reprOf v).isText = true := by
  cases v <;> rfl

theorem isText_ofCodes (codes : List Nat) : (ofCodes codes).isText = true := by
  rw [ofCodes]
  split_ifs <;> rfl

theorem nesting_of_isText {v : Json} (h : v.isText = true) : nesting v = 0 := by
  cases v <;> first | rfl | cases h

end Texts

inductive Mutation where
  | pauseTask
  | resumeTask
  | cancelTask
  deriving DecidableEq, Repr

def Mutation.name : Mutation → String
  | .pauseTask => "pause_task"
  | .resumeTask => "resume_task"
  | .cancelTask => "cancel_task"

/-- The entries of `_TOOL_DISPATCH` that write requests. -/
inductive Tool where
  | sendMessage
  | scheduleTask
  | mutation (m : Mutation)
  deriving DecidableEq, Repr

/-- The environment of the server: its chat and its group, `repr` of containers, and the nesting
that `json.dumps` has room for. -/
structure Server where
  chatJid : String
  groupFolder : String
  reprOf : Json → String
  depth : Nat

/-- What a call takes from its surroundings: the digits of `uuid4` and the `repr` of `time.time()`. -/
structure Moment where
  uuid : String
  time : String

inductive IpcDir where
  | messages
  | tasks
  deriving DecidableEq, Repr

/-- The result of a call and the file that it wrote. -/
structure Outcome where
  result : Json
  file : Option (IpcDir × List UInt8)

def textContent (text : Json) : String × Json :=
  ("content",.arr [.obj [("type",.str "text"),("text",text)]])

def content (text : Json) : Json := .obj [textContent text]

def errorResult (text : String) : Json := .obj [("isError",.bool true),textContent (.str text)]

/-- Whether a result is an error. -/
def isError : Json → Bool
  | .obj result => (getKey "isError" result).truthy
  | _ => false

section Calls
variable (server : Server) (moment : Moment) (arguments : List (String × Json))

def writeIpcFile (dir : IpcDir) (payload : List (String × Json)) (result : Json) :
    Except PyExc Outcome :=
  if nesting (.obj payload) ≤ server.depth then
    .ok ⟨result,some (dir,Utf8.encode (dumps (.obj payload)))⟩
  else .error .recursionError

def messageChat : Json :=
  toText server.reprOf ((getKey "chatJid" arguments).orElse (.str server.chatJid))

def messageText : Json := strip (toText server.reprOf ((getKey "text" arguments).orElse (.str "")))

def messagePayload : List (String × Json) :=
  [("type",.str "message"),("chatJid",messageChat server arguments),
    ("text",messageText server arguments),("sender",getKey "sender" arguments),
    ("groupFolder",.str server.groupFolder),("timestamp",.float moment.time)]

def toolSendMessage : Except PyExc Outcome :=
  if ¬(messageText server arguments).truthy then .ok ⟨errorResult "text is required",none⟩
  else
    writeIpcFile server .messages (messagePayload server moment arguments)
      (content (.str "Message sent."))

def requestedId : Json := (getKey "taskId" arguments).orElse (.str ("task-" ++ moment.uuid))

def requestedChat : Json := (getKey "targetJid" arguments).orElse (.str server.chatJid)

def requestedMode : Json := (getKey "context_mode" arguments).orElse (.str "group")

def schedulePayload : List (String × Json) :=
  [("type",.str "schedule_task"),("taskId",requestedId moment arguments),
    ("prompt",getKey "prompt" arguments),("schedule_type",getKey "schedule_type" arguments),
    ("schedule_value",getKey "schedule_value" arguments),
    ("context_mode",requestedMode arguments),("targetJid",requestedChat server arguments),
    ("timestamp",.float moment.time)]

/-- The id that the answer to a call reports. -/
def reportedId : Json := toText server.reprOf (requestedId moment arguments)

def toolScheduleTask : Except PyExc Outcome :=
  writeIpcFile server .tasks (schedulePayload server moment arguments)
    (content (joinTexts [.str "Task ",reportedId server moment arguments,.str " scheduled."]))

def mutationPayload (m : Mutation) : List (String × Json) :=
  [("type",.str m.name),("taskId",getKey "task_id" arguments),("timestamp",.float moment.time)]

def toolTaskMutation (m : Mutation) : Except PyExc Outcome :=
  let taskId := getKey "task_id" arguments
  if ¬taskId.truthy then .ok ⟨errorResult "task_id is required",none⟩
  else
    writeIpcFile server .tasks (mutationPayload moment arguments m)
      (content (joinTexts [.str (m.name ++ " requested for "),toText server.reprOf taskId,.str "."]))

/-- `_call_tool`. -/
def callTool : Tool → Except PyExc Outcome
  | .sendMessage => toolSendMessage server moment arguments
  | .scheduleTask => toolScheduleTask server moment arguments
  | .mutation m => toolTaskMutation server moment arguments m

end Calls

/-- A group's directory in which a file of the server waits. -/
def inbox (folder : String) (env : Env) : IpcDir × List UInt8 → GroupDir
  | (.messages, bytes) => ⟨folder,[⟨bytes,env⟩],[]⟩
  | (.tasks, bytes) => ⟨folder,[],[⟨bytes,env⟩]⟩

end NanoClaw.Ipc
