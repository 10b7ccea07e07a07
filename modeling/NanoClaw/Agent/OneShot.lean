import NanoClaw.Agent.Container
import NanoClaw.Agent.RoundTrip
import NanoClaw.Agent.Runner
import NanoClaw.Ipc.Tools

/-! The agent that comes with the host, without its follow-up loop: it reads what the host writes, asks the
CLI once and writes one frame, which the host reads. -/
namespace NanoClaw.OneShot
open Json Framing Container Ipc

/-- `ContainerInput` of the agent: the values as JSON gave them. -/
structure AgentInput where
  prompt : Json
  sessionId : Json
  groupFolder : Json
  chatJid : Json
  isMain : Bool
  isScheduledTask : Bool
  assistantName : Json

/-- How a run of the CLI ends: `TimeoutExpired`, another exception with its text, or with an exit code and
the two outputs. -/
inductive CliRun where
  | timedOut
  | failed (text : String)
  | exited (code : Int) (stdout stderr : String)
  deriving DecidableEq, Repr

/-- What the agent finds around it. `claude` is the path of the CLI with its runs on every command line;
`excText` is the text of what a standard input makes `_read_input` raise. -/
structure Environment where
  interp : Interp
  reprOf : Json → String
  excText : List UInt8 → String
  claude : Option (String × (List Json → CliRun))

section Agent
variable (env : Environment)

/-- `_read_input`, on an object. -/
def readFields (data : List (String × Json)) : AgentInput where
  prompt := toText env.reprOf ((getKey "prompt" data).orElse (str ""))
  sessionId := getKey "sessionId" data
  groupFolder := toText env.reprOf ((getKey "groupFolder" data).orElse (str "main"))
  chatJid := toText env.reprOf ((getKey "chatJid" data).orElse (str "local:main"))
  isMain := (getKey "isMain" data).truthy
  isScheduledTask := (getKey "isScheduledTask" data).truthy
  assistantName := getKey "assistantName" data

/-- `_read_input`. -/
def readInput (stdin : List UInt8) : Except PyExc AgentInput :=
  match Runner.readInput env.interp stdin with
  | .error e => .error e
  | .ok (.obj data) => .ok (readFields env data)
  | .ok _ => .error .attributeError

/-- The command line of the CLI. -/
def cliCommand (bin : String) (prompt sessionId : Json) : List Json :=
  [str bin,str "-p",prompt] ++ if sessionId.truthy then [str "--resume",sessionId] else []

/-- `_run_claude`: the result, or the error. The session comes back as it was given. -/
def runClaude (prompt sessionId : Json) : Except String Json :=
  match env.claude with
  | none => .ok (joinTexts [str "Echo: ",ofCodes ((codesOf prompt).take 400)])
  | some (bin, run) =>
    match run (cliCommand bin prompt sessionId) with
    | .timedOut => .error "Claude CLI timed out"
    | .failed text => .error ("Claude CLI failed: " ++ text)
    | .exited code stdout stderr =>
      if code ≠ 0 then
        .error ("Claude CLI exited with code " ++ toString code ++ ": " ++
          String.ofList (stderr.toList.drop (stderr.toList.length - 500)))
      else .ok (str (String.ofList (PyText.strip stdout.toList)))

/-- The dictionary of a success. -/
def successFields (result sessionId : Json) : List (String × Json) :=
  [("status",str "success"),("result",result),("newSessionId",sessionId)]

/-- The dictionary of an error. -/
def errorFields (error : String) : List (String × Json) :=
  [("status",str "error"),("result",null),("error",str error)]

/-- `_write_output` under the stack of the interpreter: a session that nests too deep leaves the start
marker alone. -/
def printed (fields : List (String × Json)) (code : Int) : List Char × Int :=
  if nesting (.obj fields) ≤ env.interp.depth then (writeObject fields,code)
  else (outputStartMarker ++ ['\n'],1)

/-- `main` without the follow-up loop: what it prints and its exit code. -/
def main (stdin : List UInt8) : List Char × Int :=
  match readInput env stdin with
  | .error _ => printed env (errorFields ("Invalid input: " ++ env.excText stdin)) 1
  | .ok input =>
    match runClaude env input.prompt input.sessionId with
    | .error err => printed env (errorFields err) 0
    | .ok result => printed env (successFields result input.sessionId) 0

/-- The process of the agent, which takes a while and writes nothing to its standard error. -/
def process (duration : Nat) : Process := fun stdin ms =>
  let (stdout,code) := main env stdin
  if duration ≤ ms then some ⟨Utf8.encode stdout,[],code⟩ else none

end Agent

section Input
variable (env : Environment) (input : ContainerInput)

/-- What the agent makes of the input of the host. An empty folder and an empty chat have defaults. -/
def received : AgentInput where
  prompt := str input.prompt
  sessionId := optional input.sessionId
  groupFolder := str (if input.groupFolder = "" then "main" else input.groupFolder)
  chatJid := str (if input.chatJid = "" then "local:main" else input.chatJid)
  isMain := input.isMain
  isScheduledTask := input.isScheduledTask
  assistantName := optional input.assistantName

theorem decoded_payload (floatRepr : List Char → String) :
    Decoded floatRepr (.obj input.decoded.payload) := by
  have hoptional : ∀ s : Option String, Decoded floatRepr (optional s) := by
    intro s
    cases s with
    | none => exact .null
    | some s => exact .str s
  refine .obj ?_ (by simp [ContainerInput.payload])
  simp [ContainerInput.payload, ContainerInput.decoded, Decoded.str, Decoded.bool, hoptional]

theorem toText_orElse (s default : String) :
    toText env.reprOf ((str s).orElse (str default)) = str (if s = "" then default else s) := by
  by_cases hs : s = ""
  · simp [orElse, truthy, hs, toText, text?]
  · simp [orElse, truthy, hs, toText, text?]

/-- The agent reads the input that the host has written. -/
theorem readInput_stdin (hdepth : 0 < env.interp.depth) :
    readInput env input.decoded.stdin = .ok (received input) := by
  have hdecoded := decoded_payload input env.interp.floatRepr
  have hread : Runner.readInput env.interp input.decoded.stdin = .ok (.obj input.decoded.payload) := by
    rw [Runner.readInput, ContainerInput.stdin, Utf8.decode_encode hdecoded.ascii]
    dsimp only
    rw [loads_decoded hdecoded, nesting_payload, if_pos (Nat.succ_le_of_lt hdepth)]
  rw [readInput, hread]
  refine congrArg Except.ok ?_
  simp [readFields, received, ContainerInput.payload, ContainerInput.decoded, getKey, Dict.lookup, toText_orElse, truthy]

end Input

section Answer
variable (env : Environment) (input : ContainerInput)

/-- What the CLI makes of a prompt in a session, as text. -/
def claudeText (prompt : String) (sessionId : Option String) : Except String String :=
  match env.claude with
  | none => .ok ("Echo: " ++ String.ofList (prompt.toList.take 400))
  | some (bin, run) =>
    match run (cliCommand bin (str prompt) (optional sessionId)) with
    | .timedOut => .error "Claude CLI timed out"
    | .failed text => .error ("Claude CLI failed: " ++ text)
    | .exited code stdout stderr =>
      if code ≠ 0 then
        .error ("Claude CLI exited with code " ++ toString code ++ ": " ++
          String.ofList (stderr.toList.drop (stderr.toList.length - 500)))
      else .ok (String.ofList (PyText.strip stdout.toList))

/-- The payload that the agent writes for an input of the host. -/
def reply : Payload := Runner.answer input.sessionId (claudeText env input.prompt input.sessionId)

theorem joinTexts_echo (prompt : String) :
    joinTexts [str "Echo: ",ofCodes ((codesOf (str prompt)).take 400)] =
      str ("Echo: " ++ String.ofList (prompt.toList.take 400)) := by
  have hcut : ofCodes ((codesOf (str prompt)).take 400) = str (String.ofList (prompt.toList.take 400)) := by
    rw [codesOf, ← List.map_take, ← ofCodes_toNat, String.toList_ofList]
  rw [hcut, joinTexts, ← ofCodes_toNat ("Echo: " ++ _)]
  simp [codesOf]

theorem runClaude_text (prompt : String) (sessionId : Option String) :
    runClaude env (str prompt) (optional sessionId) =
      (claudeText env prompt sessionId).map Json.str := by
  rw [runClaude, claudeText]
  cases env.claude with
  | none => exact congrArg Except.ok (joinTexts_echo prompt)
  | some claude =>
    dsimp only
    cases claude.2 (cliCommand claude.1 (str prompt) (optional sessionId)) with
    | timedOut => rfl
    | failed text => rfl
    | exited code stdout stderr =>
      dsimp only
      split_ifs <;> rfl

/-- The agent writes one frame for an input of the host, and exits with 0. -/
theorem main_stdin (hdepth : 0 < env.interp.depth) :
    main env input.decoded.stdin = (writeOutput (reply env input),0) := by
  have hoptional : nesting (optional input.sessionId) = 0 := by
    cases input.sessionId <;> rfl
  rw [main, readInput_stdin env input hdepth]
  simp only [received, runClaude_text, reply]
  cases claudeText env input.prompt input.sessionId with
  | error err =>
    refine if_pos ?_
    simpa [errorFields, nesting, nestingFields] using Nat.succ_le_of_lt hdepth
  | ok result =>
    refine if_pos ?_
    simpa [successFields, nesting, nestingFields, hoptional] using Nat.succ_le_of_lt hdepth

theorem ascii_writeOutput (p : Payload) : Utf8.Ascii (writeOutput p) := by
  have hreadable : Readable 1 (.obj p.fields) := p.flatObject.readable Nat.one_pos
  have hfields : Utf8.Ascii (dumps (.obj p.fields)) := (@hreadable.decoded String.ofList).1.ascii
  have hstart : Utf8.Ascii outputStartMarker := by decide
  have hend : Utf8.Ascii outputEndMarker := by decide
  simp [writeOutput, hfields, hstart, hend]

/-- The host reads back the frame of an agent. -/
theorem extractMarkers_writeOutput (host : Host) {p : Payload} (h : p.Faithful) :
    extractMarkers host (Utf8.decodeIgnore (Utf8.encode (writeOutput p))) = .ok [p.output] := by
  rw [Utf8.decodeIgnore_of_decode (Utf8.decode_encode (ascii_writeOutput p))]
  have hps : ∀ q ∈ [p], q.Faithful := List.forall_mem_singleton.mpr h
  have hread := extractMarkers_faithful host hps
  rwa [stdout, List.flatMap_singleton] at hread

end Answer

end NanoClaw.OneShot
