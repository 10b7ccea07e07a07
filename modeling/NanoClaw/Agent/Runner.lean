import NanoClaw.Agent.Framing
import NanoClaw.Library.Utf8

/-! The process of an agent: its first answer, and the loop that answers follow-up input until it
finds the close sentinel. -/
namespace NanoClaw.Runner
open Json Framing

/-- `/workspace/ipc/input`: whether the close sentinel is there, and the bytes of the `*.json` files
in the order of their names. -/
structure InputDir where
  close : Bool
  files : List (List UInt8)
  deriving DecidableEq, Repr

/-- Where `main` stands: in `_run_claude`, at the head of its loop, or at its end. -/
inductive Phase where
  | answering (first : Bool)
  | polling
  | exited (code : Int)
  deriving DecidableEq, Repr

/-- The process, with what it has written to its standard output. -/
structure Agent where
  phase : Phase
  sessionId : Option String
  written : List Payload
  deriving DecidableEq, Repr

/-- What `main` writes for an answer or an error of `_run_claude`. -/
def answer (sessionId : Option String) : Except String String → Payload
  | .ok result => ⟨"success",some result,some sessionId,none⟩
  | .error err => ⟨"error",none,none,some (some err)⟩

/-- `json.loads(file_path.read_text(encoding="utf-8"))`. -/
def readInput (interp : Interp) (bytes : List UInt8) : Except PyExc Json :=
  match Utf8.decode? bytes with
  | none => .error .unicodeDecodeError
  | some text => loads interp text

/-- `_drain_ipc_inputs`, with the files it leaves: every file it comes to is removed, also the one
whose exception ends it. -/
def drainIpcInputs (interp : Interp) : List (List UInt8) → Except PyExc (List Json) × List (List UInt8)
  | [] => (.ok [],[])
  | bytes :: files =>
    match readInput interp bytes with
    | .error .jsonDecodeError => drainIpcInputs interp files
    | .error e => (.error e,files)
    | .ok (.obj fields) =>
      let text := getKey "text" fields
      let (messages,left) := drainIpcInputs interp files
      match getKey "type" fields with
      | .str "message" => (if text.isText then messages.map (text :: ·) else messages,left)
      | _ => (messages,left)
    | .ok _ => (.error .attributeError,files)

namespace Agent
variable (agent : Agent)

/-- `_run_claude` returns. An error ends the process at the first prompt only. -/
def reply (result : Except String String) : Option Agent :=
  match agent.phase with
  | .answering first =>
    some
      { agent with
        phase := match result with
          | .ok _ => .polling
          | .error _ => if first then .exited 0 else .polling
        written := agent.written ++ [answer agent.sessionId result] }
  | _ => none

/-- One turn of the loop. -/
def poll (interp : Interp) (dir : InputDir) : Option (Agent × InputDir) :=
  match agent.phase with
  | .polling =>
    if dir.close then
      some ({ agent with
        phase := .exited 0
        written := agent.written ++ [⟨"success",none,some agent.sessionId,none⟩] },
        { dir with close := false })
    else
      match drainIpcInputs interp dir.files with
      | (.error _, files) => some ({ agent with phase := .exited 1 },{ dir with files := files })
      | (.ok messages, files) =>
        some ({ agent with phase := if messages.isEmpty then .polling else .answering false },
          { dir with files := files })
  | _ => none

/-- The process is in its follow-up loop. -/
def Looping : Prop := agent.phase = .polling ∨ agent.phase = .answering false

def Alive : Prop := ∀ code, agent.phase ≠ .exited code

end Agent

section Lemmas
variable {agent agent' : Agent} {dir dir' : InputDir} {interp : Interp}

theorem Agent.Looping.alive (h : agent.Looping) : agent.Alive := by
  intro code hexit
  rcases h with h | h
  · rw [h] at hexit
    cases hexit
  · rw [h] at hexit
    cases hexit

/-- Only a running process answers. -/
theorem Agent.alive_of_reply {result : Except String String} (hreply : agent.reply result = some agent') :
    agent.Alive := by
  intro code hexit
  rw [Agent.reply, hexit] at hreply
  cases hreply

/-- Only a running process polls. -/
theorem Agent.alive_of_poll (hpoll : agent.poll interp dir = some (agent',dir')) : agent.Alive := by
  intro code hexit
  rw [Agent.poll, hexit] at hpoll
  cases hpoll

/-- A turn of the loop may take the sentinel away, and puts none there. -/
theorem Agent.poll_close (hclose : dir.close = false)
    (hpoll : agent.poll interp dir = some (agent',dir')) : dir'.close = false := by
  simp only [Agent.poll, hclose, Bool.false_eq_true, if_false] at hpoll
  split at hpoll
  · split at hpoll <;> cases hpoll <;> rfl
  · cases hpoll

/-- An answer to follow-up input never ends the process. -/
theorem Agent.Looping.reply {result : Except String String} (h : agent.Looping)
    (hreply : agent.reply result = some agent') : agent'.Looping := by
  rcases h with h | h
  · rw [Agent.reply, h] at hreply
    cases hreply
  · rw [Agent.reply, h] at hreply
    cases hreply
    cases result with
    | ok text => exact .inl rfl
    | error err => exact .inl rfl

/-- Without a sentinel a turn of the loop ends the process only by an exception. -/
theorem Agent.Looping.poll (h : agent.Looping) (hclose : dir.close = false)
    (hread : ∃ messages, (drainIpcInputs interp dir.files).1 = .ok messages)
    (hpoll : agent.poll interp dir = some (agent',dir')) : agent'.Looping ∧ dir'.close = false := by
  refine ⟨?_,Agent.poll_close hclose hpoll⟩
  obtain ⟨messages,hread⟩ := hread
  rcases h with h | h
  · simp only [Agent.poll, h, hclose, Bool.false_eq_true, if_false] at hpoll
    split at hpoll
    · rename_i e files hdrain
      rw [hdrain] at hread
      cases hread
    · cases hpoll
      simp only [Agent.Looping]
      split
      · exact .inl rfl
      · exact .inr rfl
  · rw [Agent.poll, h] at hpoll
    cases hpoll

end Lemmas

end NanoClaw.Runner
