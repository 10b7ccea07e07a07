import NanoClaw.Agent.Framing
import NanoClaw.Library.PosixPath
import NanoClaw.Library.Shlex
import NanoClaw.Library.Utf8
import NanoClaw.Store.Groups

/-! A call of an agent: the command that is started, what goes to its process, and what comes of the
process and of its output. -/
namespace NanoClaw.Container
open Json Framing Store

/-- The input of a call. A session is declared to be a text, where there is one, and may be any JSON
value. -/
structure ContainerInput (Session : Type := Option String) where
  prompt : String
  groupFolder : String
  chatJid : String
  isMain : Bool
  sessionId : Session
  isScheduledTask : Bool
  assistantName : Option String
  deriving DecidableEq, Repr

def ContainerInput.decoded (input : ContainerInput) : ContainerInput Json where
  prompt := input.prompt
  groupFolder := input.groupFolder
  chatJid := input.chatJid
  isMain := input.isMain
  sessionId := optional input.sessionId
  isScheduledTask := input.isScheduledTask
  assistantName := input.assistantName

/-- The dictionary that goes to the standard input. -/
def ContainerInput.payload (input : ContainerInput Json) : List (String × Json) :=
  [("prompt",str input.prompt),("sessionId",input.sessionId),
    ("groupFolder",str input.groupFolder),("chatJid",str input.chatJid),("isMain",.bool input.isMain),
    ("isScheduledTask",.bool input.isScheduledTask),("assistantName",optional input.assistantName)]

def ContainerInput.stdin (input : ContainerInput Json) : List UInt8 :=
  Utf8.encode (dumps (.obj input.payload))

/-- What a process leaves at its end. -/
structure Exit where
  stdout : List UInt8
  stderr : List UInt8
  returncode : Int
  deriving DecidableEq, Repr

/-- A process that was started: its end for a standard input, none where it takes more than some
milliseconds. -/
abbrev Process := List UInt8 → Nat → Option Exit

/-- What a call finds around it: the interpreter, whose stack has the room for writing JSON that it has
for reading it, the default command, what the check of the container runtime raises, the programs, what
`on_process`, the check of the mounts and `kill` raise, and the default timeout. -/
structure Surroundings where
  host : Host
  defaultCommand : List Char
  runtimeFault : Option (PyExc × String)
  spawn : List (List Char) → Except (PyExc × String) Process
  onProcess : Option PyExc
  mountsFault : List AdditionalMount → String → Bool → Option PyExc
  killFault : Option PyExc
  containerTimeout : Int

/-- What has become of the process of a call. -/
inductive Fate where
  | notStarted
  | ended
  | killed
  | running
  deriving DecidableEq, Repr

/-- How a call ends, with what its outputs have made of the state of the callback. -/
structure Call (S : Type) where
  state : S
  result : Except PyExc ContainerOutput
  fate : Fate

/-- An output that the host makes itself. -/
def errorOutput (error : String) : ContainerOutput := ⟨str "error",null,null,str error⟩

/-- What `(error or "")[:200]` raises. Texts and lists can be cut; of a dictionary it is a `KeyError`
from Python 3.12 on. -/
def cutFault (error : Json) : Option PyExc :=
  match error with
  | null | str _ | illFormed _ | arr _ => none
  | .bool _ | .int _ | .float _ | obj _ => if error.truthy then some .typeError else none

/-- `_finish`: the log line of an error output has the beginning of its error. -/
def finish (output : ContainerOutput) : Except PyExc ContainerOutput :=
  match output.status with
  | str "error" => (cutFault output.error).elim (.ok output) .error
  | _ => .ok output

@[simp] theorem finish_errorOutput (error : String) :
    finish (errorOutput error) = .ok (errorOutput error) := rfl

/-- The error of the agent that comes with the host is a text, where there is one. -/
theorem finish_output (p : Payload) : finish p.output = .ok p.output := by
  have hcut : cutFault p.output.error = none := by
    rw [Payload.output]
    rcases p.error with _ | _ | error <;> rfl
  rw [finish]
  split
  · rw [hcut]
    rfl
  · rfl

/-- `lower` of a character, as far as the names of the runtimes go. -/
def lowerChar (c : Char) : Char := if c = '\u212a' then 'k' else c.toLower

/-- `Path(args[0]).name.lower()`. -/
def executableName (program : List Char) : List Char :=
  let components := (program.splitOn '/').filter (fun c => c ≠ [] ∧ c ≠ ['.'])
  (components.getLast?.getD []).map lowerChar

def requiresContainerRuntime (program : List Char) : Bool :=
  executableName program = "docker".toList ∨ executableName program = "podman".toList

example : requiresContainerRuntime "/usr/bin/Docker/".toList = true := by decide +kernel

/-- `max(1000, int(timeout_ms))`. -/
def timeoutMs (containerTimeout : Int) (group : RegisteredGroup) : Nat :=
  let configured := (group.containerConfig.bind (·.timeout)).getD 0
  (max 1000 (if configured = 0 then containerTimeout else configured)).toNat

/-- `timeout_ms / 1000` is too large for a float. -/
def overflows (ms : Nat) : Bool := (2 ^ 1024 - 2 ^ 970) * 1000 ≤ ms

section Calls
variable {S : Type} (env : Surroundings) (onOutput : S → ContainerOutput → S × Option PyExc)

/-- The outputs go to the callback, up to the first that makes it raise. -/
def deliver : S → List ContainerOutput → S × Option PyExc
  | s, [] => (s,none)
  | s, out :: outs =>
    match onOutput s out with
    | (s, some e) => (s,some e)
    | (s, none) => deliver s outs

/-- The end of a call whose process has ended. -/
def conclude (s : S) (exit : Exit) : Call S :=
  match extractMarkers env.host (Utf8.decodeIgnore exit.stdout) with
  | .error e => ⟨s,.error e,.ended⟩
  | .ok outputs =>
    match deliver onOutput s outputs with
    | (s, some e) => ⟨s,.error e,.ended⟩
    | (s, none) =>
      if exit.returncode ≠ 0 then
        let stderr := Utf8.decodeIgnore exit.stderr
        ⟨s,finish (errorOutput ("Container exited with code " ++ toString exit.returncode ++ ": " ++
          String.ofList (stderr.drop (stderr.length - 2000)))),.ended⟩
      else
        match outputs.getLast? with
        | some out => ⟨s,finish out,.ended⟩
        | none => ⟨s,finish (errorOutput "Failed to parse container output"),.ended⟩

/-- A call whose process was started. -/
def attend (s : S) (group : RegisteredGroup) (input : ContainerInput Json) (process : Process) :
    Call S :=
  let mounts := (group.containerConfig.bind (·.additionalMounts)).getD []
  let ms := timeoutMs env.containerTimeout group
  match env.onProcess with
  | some e => ⟨s,.error e,.running⟩
  | none =>
    match (if mounts = [] then none else env.mountsFault mounts group.name (group.isMain.getD false))
    with
    | some e => ⟨s,.error e,.running⟩
    | none =>
      if env.host.depth < nesting (.obj input.payload) then ⟨s,.error .recursionError,.running⟩
      else if overflows ms then ⟨s,.error .overflowError,.running⟩
      else
        match process input.stdin ms with
        | none =>
          match env.killFault with
          | some e => ⟨s,.error e,.ended⟩
          | none =>
            ⟨s,finish (errorOutput ("Container timed out after " ++ toString ms ++ "ms")),.killed⟩
        | some exit => conclude env onOutput s exit

/-- `run_container_agent`. -/
def runContainerAgent (s : S) (group : RegisteredGroup) (input : ContainerInput Json)
    (command : Option (List Char)) : Call S :=
  let cmd := if command.getD [] = [] then env.defaultCommand else command.getD []
  match Shlex.split cmd with
  | .error fault => ⟨s,finish (errorOutput ("Invalid agent command: " ++ fault.text)),.notStarted⟩
  | .ok [] => ⟨s,finish (errorOutput "Agent command is empty"),.notStarted⟩
  | .ok (program :: args) =>
    match (if requiresContainerRuntime program then env.runtimeFault else none) with
    | some (.runtimeError, text) => ⟨s,finish (errorOutput text),.notStarted⟩
    | some (e, _) => ⟨s,.error e,.notStarted⟩
    | none =>
      match env.spawn (program :: args) with
      | .error (.osError, text) =>
        ⟨s,finish (errorOutput ("Failed to start agent process: " ++ text)),.notStarted⟩
      | .error (e, _) => ⟨s,.error e,.notStarted⟩
      | .ok process => attend env onOutput s group input process

/-- The default command comes to a process that is given its input. -/
structure Starts (group : RegisteredGroup) (process : Process) : Prop where
  command : ∃ program args, Shlex.split env.defaultCommand = .ok (program :: args) ∧
    (requiresContainerRuntime program = true → env.runtimeFault = none) ∧
    env.spawn (program :: args) = .ok process
  onProcess : env.onProcess = none
  mounts : ∀ mounts, mounts ≠ [] → group.containerConfig.bind (·.additionalMounts) = some mounts →
    env.mountsFault mounts group.name (group.isMain.getD false) = none
  timeout : overflows (timeoutMs env.containerTimeout group) = false

theorem nesting_payload (input : ContainerInput) : nesting (.obj input.decoded.payload) = 1 := by
  have hoptional : ∀ s : Option String, nesting (optional s) = 0 := by
    intro s
    cases s <;> rfl
  simp [ContainerInput.payload, ContainerInput.decoded, nesting, nestingFields, hoptional]

variable {env} in
/-- A call with a session that is a text, or with none, comes to the end of its process. -/
theorem runContainerAgent_starts {group : RegisteredGroup} {process : Process} {exit : Exit}
    (h : Starts env group process) (s : S) (input : ContainerInput)
    (hexit : process input.decoded.stdin (timeoutMs env.containerTimeout group) = some exit) :
    runContainerAgent env onOutput s group input.decoded none = conclude env onOutput s exit := by
  obtain ⟨program,args,hsplit,hruntime,hspawn⟩ := h.command
  have hfault : (if requiresContainerRuntime program then env.runtimeFault else none) = none := by
    split_ifs with hrequires
    · exact hruntime hrequires
    · rfl
  have hattend : runContainerAgent env onOutput s group input.decoded none =
      attend env onOutput s group input.decoded process := by
    simp only [runContainerAgent, Option.getD_none, if_true, hsplit, hfault, hspawn]
  have hmounts : (if (group.containerConfig.bind (·.additionalMounts)).getD [] = [] then none
      else env.mountsFault ((group.containerConfig.bind (·.additionalMounts)).getD []) group.name
        (group.isMain.getD false)) = none := by
    split_ifs with hempty
    · rfl
    · cases hconfig : group.containerConfig.bind (·.additionalMounts) with
      | none =>
        rw [hconfig] at hempty
        exact absurd rfl hempty
      | some mounts =>
        rw [hconfig] at hempty
        exact h.mounts mounts hempty hconfig
  have hroom : ¬env.host.depth < nesting (.obj input.decoded.payload) := by
    rw [nesting_payload]
    exact Nat.not_lt.mpr env.host.room
  rw [hattend]
  simp only [attend, h.onProcess, hmounts, hroom, h.timeout, hexit, Bool.false_eq_true, if_false]

end Calls

/-- `f"{sys.executable} -m nanoclaw.agent_runner"`. -/
def defaultAgentCommand (executable : List Char) : List Char :=
  executable ++ " -m nanoclaw.agent_runner".toList

/-- The default command starts the interpreter of the host exactly when its path is not empty and has no
white space, quote or backslash. -/
theorem default_command_iff (executable : List Char) :
    Shlex.split (defaultAgentCommand executable) =
        .ok [executable,"-m".toList,"nanoclaw.agent_runner".toList] ↔
      executable ≠ [] ∧ ∀ c ∈ executable, Shlex.isSpecial c = false := by
  have hargs : ∀ w ∈ ["-m".toList,"nanoclaw.agent_runner".toList],
      w ≠ [] ∧ ∀ c ∈ w, Shlex.isSpecial c = false := by
    simp [Shlex.isSpecial, Shlex.isSpace, Shlex.isQuote]
  exact Shlex.split_command_iff hargs

end NanoClaw.Container
