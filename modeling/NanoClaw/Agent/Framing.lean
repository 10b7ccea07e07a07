import NanoClaw.Library.Cut
import NanoClaw.Library.Json
import NanoClaw.Library.PyText

/-! The output framing: the agent writes each payload as JSON between two markers, and the
host looks for the markers in what the process printed. -/
namespace NanoClaw.Framing
open Json Cut PyText

def outputStartMarker : List Char := "---NANOCLAW_OUTPUT_START---".toList

def outputEndMarker : List Char := "---NANOCLAW_OUTPUT_END---".toList

/-- A payload of the agent. The outer option of the last two fields says whether the key is
there at all. -/
structure Payload where
  status : String
  result : Option String
  newSessionId : Option (Option String)
  error : Option (Option String)
  deriving DecidableEq, Repr

def optional : Option String → Json
  | some s => str s
  | none => null

namespace Payload

/-- The payload as the dictionary handed to `_write_output`. -/
def fields (p : Payload) : List (String × Json) :=
  [("status",str p.status),("result",optional p.result)] ++
    (p.newSessionId.toList.map (fun s => ("newSessionId",optional s)) ++
      p.error.toList.map (fun s => ("error",optional s)))

end Payload

/-- `_write_output`: the text appended to the standard output. -/
def writeOutput (p : Payload) : List Char :=
  outputStartMarker ++ '\n' :: (dumps (obj p.fields) ++ '\n' :: (outputEndMarker ++ ['\n']))

/-- `_write_output` for any dictionary. -/
def writeObject (fields : List (String × Json)) : List Char :=
  outputStartMarker ++ '\n' :: (dumps (obj fields) ++ '\n' :: (outputEndMarker ++ ['\n']))

/-- The output of the whole process. -/
def stdout (ps : List Payload) : List Char := ps.flatMap writeOutput

/-- What the host makes of a frame. The fields are as `json` decoded them: a text, or any
other value where the frame held one. -/
structure ContainerOutput where
  status : Json
  result : Json
  newSessionId : Json
  error : Json

/-- `str(value)`, given what it is for values that are no texts. -/
def pyStr (strOf : Json → String) : Json → Json
  | str s => str s
  | illFormed codes => illFormed codes
  | v => str (strOf v)

/-- The interpreter's part in reading a frame. Its stack has room for the frame's object. -/
structure Host extends Interp where
  strOf : Json → String
  room : 0 < depth

def decodeFields (host : Host) (fields : List (String × Json)) : ContainerOutput where
  status := pyStr host.strOf (orElse (getKey "status" fields) (str "error"))
  result := getKey "result" fields
  newSessionId := orElse (getKey "newSessionId" fields) (getKey "new_session_id" fields)
  error := getKey "error" fields

/-- The body of the loop: a frame that is empty or no JSON is skipped, a value without `get`
raises. -/
def decodeRaw (host : Host) (raw : List Char) : Except PyExc (Option ContainerOutput) :=
  if raw = [] then .ok none
  else
    match loads host.toInterp raw with
    | .error .jsonDecodeError => .ok none
    | .error e => .error e
    | .ok (obj fields) => .ok (some (decodeFields host fields))
    | .ok _ => .error .attributeError

/-- One turn of the loop: the text between the markers and the text behind the end marker.
The end marker is searched from the beginning of the start marker on. -/
def nextFrame (text : List Char) : Option (List Char × List Char) :=
  match cut outputStartMarker text with
  | none => none
  | some (_, rest) =>
    (cut outputEndMarker (outputStartMarker ++ rest)).map (fun (upTo,after) =>
      (strip (upTo.drop outputStartMarker.length),after))

theorem nextFrame_length {text raw after : List Char} (h : nextFrame text = some (raw,after)) :
    after.length < text.length := by
  unfold nextFrame at h
  split at h
  · cases h
  · rename_i before rest hstart
    obtain ⟨⟨upTo,after'⟩,hend,hpair⟩ := Option.map_eq_some_iff.mp h
    cases hpair
    have hlen := congrArg List.length (cut_eq_some hend)
    have htext := congrArg List.length (cut_eq_some hstart)
    have hm : outputEndMarker.length = 25 := rfl
    simp only [List.length_append] at hlen htext
    omega

/-- `_extract_markers` on the text from the cursor on. -/
def extractMarkers (host : Host) (text : List Char) : Except PyExc (List ContainerOutput) :=
  match _h : nextFrame text with
  | none => .ok []
  | some (raw, after) =>
    match decodeRaw host raw with
    | .error e => .error e
    | .ok out => (extractMarkers host after).map (out.toList ++ ·)
termination_by text.length
decreasing_by exact nextFrame_length _h

/-- The output that stands for a payload: the same status, result, session and error. -/
def Payload.output (p : Payload) : ContainerOutput where
  status := str p.status
  result := optional p.result
  newSessionId := optional p.newSessionId.join
  error := optional p.error.join

end NanoClaw.Framing
