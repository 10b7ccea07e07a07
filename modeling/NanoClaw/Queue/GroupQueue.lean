import NanoClaw.Library.Execution
import Mathlib.Algebra.Group.Int.Defs
import Mathlib.Logic.Function.Basic

/-! The run queue of group_queue.py. The dictionary of group states is a total
function with the default state, which is what `_get_group` makes of it. -/
namespace NanoClaw
variable {F : Type}

structure QueuedTask (F : Type) where
  id : String
  groupJid : String
  fn : F

structure GroupState (F : Type) where
  active : Bool := false
  idleWaiting : Bool := false
  isTaskContainer : Bool := false
  runningTaskId : Option String := none
  pendingMessages : Bool := false
  pendingTasks : List (QueuedTask F) := []
  retryCount : Nat := 0

/-- A coroutine that the queue hands to `asyncio.create_task`. -/
inductive Coroutine (F : Type) where
  | runForGroup (groupJid : String)
  | runTask (groupJid : String) (task : QueuedTask F)
  | retry (groupJid : String) (delayMs : Int)

/-- The group whose run the coroutine is; a retry timer is no run. -/
def Coroutine.runGroup : Coroutine F → Option String
  | .runForGroup g => some g
  | .runTask g _ => some g
  | .retry _ _ => none

/-- An asyncio task that has not ended: whether its body has reached its await,
and whether `cancel` has been called on it. -/
structure Background (F : Type) where
  coro : Coroutine F
  started : Bool := false
  cancelled : Bool := false

/-- How the awaited function of a run ends. -/
inductive Outcome where
  | success | failure | exception | cancelled

/-- The calls that cross the queue's boundary, and the moves of its waiting list. -/
inductive Event where
  | checkAccepted (groupJid : String)
  | taskAccepted (groupJid taskId : String)
  | waitEntered (groupJid : String)
  | waitLeft (groupJid : String)
  | messagesInvoked (groupJid : String)
  | messagesEnded (groupJid : String) (outcome : Outcome)
  | taskInvoked (groupJid taskId : String)
  | stdinClosed (groupJid : String)
  | retryScheduled (groupJid : String) (delayMs : Int)

/-- The fields of the source, the event loop's presence, and the history of events.
The history is for statements about runs: no operation reads it. -/
structure GroupQueue (F : Type) where
  groups : String → GroupState F
  activeCount : Int
  waitingGroups : List String
  processMessagesFn : Bool
  shuttingDown : Bool
  maxConcurrent : Int
  maxRetries : Int
  baseRetryMs : Int
  maxRetryMs : Int
  closeStdinFn : Bool
  backgroundTasks : List (Background F)
  loopRunning : Bool
  history : List Event

namespace GroupQueue

/-- The queue after its constructor; the flags say which of the two setters have run. -/
def init (maxConcurrentContainers maxRetries baseRetryMs maxRetryMs : Int)
    (processMessagesFn closeStdinFn : Bool) : GroupQueue F where
  groups := fun _ => {}
  activeCount := 0
  waitingGroups := []
  processMessagesFn := processMessagesFn
  shuttingDown := false
  maxConcurrent := max 1 maxConcurrentContainers
  maxRetries := maxRetries
  baseRetryMs := baseRetryMs
  maxRetryMs := maxRetryMs
  closeStdinFn := closeStdinFn
  backgroundTasks := []
  loopRunning := true
  history := []

def setGroup (s : GroupQueue F) (groupJid : String) (state : GroupState F) : GroupQueue F :=
  { s with groups := Function.update s.groups groupJid state }

def record (s : GroupQueue F) (e : Event) : GroupQueue F := { s with history := s.history ++ [e] }

/-- Without a running loop `create_task` raises, and the coroutine is closed and forgotten. -/
def createBackgroundTask (s : GroupQueue F) (coro : Coroutine F) : GroupQueue F :=
  { s with backgroundTasks :=
      if s.loopRunning then s.backgroundTasks ++ [{ coro }] else s.backgroundTasks }

def closeStdin (s : GroupQueue F) (groupJid : String) : GroupQueue F :=
  if s.closeStdinFn then s.record (.stdinClosed groupJid) else s

def startRunForGroup (s : GroupQueue F) (groupJid : String) : GroupQueue F :=
  let s := s.setGroup groupJid { s.groups groupJid with
    active := true, idleWaiting := false, isTaskContainer := false, pendingMessages := false }
  { s with activeCount := s.activeCount + 1 }.createBackgroundTask (.runForGroup groupJid)

def startRunTask (s : GroupQueue F) (groupJid : String) (task : QueuedTask F) : GroupQueue F :=
  let s := s.setGroup groupJid { s.groups groupJid with
    active := true, idleWaiting := false, isTaskContainer := true, runningTaskId := some task.id }
  { s with activeCount := s.activeCount + 1 }.createBackgroundTask (.runTask groupJid task)

/-- Join the waiting groups, once. -/
def enterWaiting (s : GroupQueue F) (groupJid : String) : GroupQueue F :=
  if groupJid ∈ s.waitingGroups then s
  else { s with waitingGroups := s.waitingGroups ++ [groupJid] }.record (.waitEntered groupJid)

def enqueueMessageCheck (s : GroupQueue F) (groupJid : String) : GroupQueue F :=
  if s.shuttingDown then s
  else
    let s := s.record (.checkAccepted groupJid)
    let state := s.groups groupJid
    if state.active then
      s.setGroup groupJid { state with pendingMessages := true }
    else if s.activeCount ≥ s.maxConcurrent then
      (s.setGroup groupJid { state with pendingMessages := true }).enterWaiting groupJid
    else s.startRunForGroup groupJid

def enqueueTask (s : GroupQueue F) (groupJid taskId : String) (fn : F) : GroupQueue F :=
  if s.shuttingDown then s
  else
    let state := s.groups groupJid
    if state.runningTaskId = some taskId then s
    else if state.pendingTasks.any (fun task => task.id == taskId) then s
    else
      let s := s.record (.taskAccepted groupJid taskId)
      let queued : QueuedTask F := ⟨taskId,groupJid,fn⟩
      if state.active then
        let s := s.setGroup groupJid { state with pendingTasks := state.pendingTasks ++ [queued] }
        if state.idleWaiting then s.closeStdin groupJid else s
      else if s.activeCount ≥ s.maxConcurrent then
        (s.setGroup groupJid
          { state with pendingTasks := state.pendingTasks ++ [queued] }).enterWaiting groupJid
      else s.startRunTask groupJid queued

def notifyIdle (s : GroupQueue F) (groupJid : String) : GroupQueue F :=
  let state := s.groups groupJid
  let s := s.setGroup groupJid { state with idleWaiting := true }
  if state.pendingTasks.isEmpty then s else s.closeStdin groupJid

/-- What both drains start for a group: its oldest task, else its messages. -/
def startPending (s : GroupQueue F) (groupJid : String) : GroupQueue F :=
  let state := s.groups groupJid
  match state.pendingTasks with
  | task :: rest =>
    (s.setGroup groupJid { state with pendingTasks := rest }).startRunTask groupJid task
  | [] => if state.pendingMessages then s.startRunForGroup groupJid else s

/-- The loop of `_drain_waiting`; the list is what is left of the waiting groups. -/
def drainWaitingLoop : List String → GroupQueue F → GroupQueue F
  | [], s => s
  | g :: rest, s =>
    if s.activeCount < s.maxConcurrent then
      drainWaitingLoop rest (({ s with waitingGroups := rest }.record (.waitLeft g)).startPending g)
    else s

def drainWaiting (s : GroupQueue F) : GroupQueue F := drainWaitingLoop s.waitingGroups s

def drainGroup (s : GroupQueue F) (groupJid : String) : GroupQueue F :=
  if s.shuttingDown then s
  else
    let state := s.groups groupJid
    if ¬ state.pendingTasks.isEmpty ∨ state.pendingMessages then s.startPending groupJid
    else s.drainWaiting

def retryDelayMs (s : GroupQueue F) (retryCount : Nat) : Int :=
  min (s.baseRetryMs * 2 ^ (retryCount - 1)) s.maxRetryMs

def scheduleRetry (s : GroupQueue F) (groupJid : String) : GroupQueue F :=
  let state := s.groups groupJid
  let retryCount := state.retryCount + 1
  if (retryCount : Int) > s.maxRetries then s.setGroup groupJid { state with retryCount := 0 }
  else
    let delayMs := s.retryDelayMs retryCount
    ((s.setGroup groupJid { state with retryCount }).record
      (.retryScheduled groupJid delayMs)).createBackgroundTask (.retry groupJid delayMs)

/-- The accounting before the `finally` block of a message run. -/
def settleRetry (s : GroupQueue F) (groupJid : String) : Outcome → GroupQueue F
  | .success => s.setGroup groupJid { s.groups groupJid with retryCount := 0 }
  | .failure | .exception => s.scheduleRetry groupJid
  | .cancelled => s

/-- `_run_for_group` from the end of its await. -/
def endRunForGroup (s : GroupQueue F) (groupJid : String) (outcome : Outcome) : GroupQueue F :=
  let s := s.settleRetry groupJid outcome
  let s := s.setGroup groupJid { s.groups groupJid with active := false }
  { s with activeCount := s.activeCount - 1 }.drainGroup groupJid

/-- `_run_task` from the end of its await; its `finally` block is the same for all outcomes. -/
def endRunTask (s : GroupQueue F) (groupJid : String) : GroupQueue F :=
  let s := s.setGroup groupJid { s.groups groupJid with
    active := false, idleWaiting := false, isTaskContainer := false, runningTaskId := none }
  { s with activeCount := s.activeCount - 1 }.drainGroup groupJid

/-- `shutdown` up to its wait: every asyncio task of the queue is cancelled. -/
def shutdown (s : GroupQueue F) : GroupQueue F :=
  { s with shuttingDown := true,
           backgroundTasks := s.backgroundTasks.map (fun b => { b with cancelled := true }) }

def dropTask (s : GroupQueue F) (i : Nat) : GroupQueue F :=
  { s with backgroundTasks := s.backgroundTasks.eraseIdx i }

def parkTask (s : GroupQueue F) (i : Nat) (b : Background F) : GroupQueue F :=
  { s with backgroundTasks := s.backgroundTasks.eraseIdx i ++ [{ b with started := true }] }

/-- The loop runs the body of a created coroutine up to its await. Without a message
function there is nothing to await. -/
def begin (s : GroupQueue F) (i : Nat) : Option (GroupQueue F) :=
  match s.backgroundTasks[i]? with
  | some b =>
    if b.started ∨ b.cancelled then none
    else match b.coro with
      | .runForGroup g =>
        if s.processMessagesFn then some ((s.parkTask i b).record (.messagesInvoked g))
        else some ((s.dropTask i).endRunForGroup g .success)
      | .runTask g task => some ((s.parkTask i b).record (.taskInvoked g task.id))
      | .retry _ _ => some (s.parkTask i b)
  | none => none

/-- The awaited function of a run ends. -/
def finish (s : GroupQueue F) (i : Nat) (outcome : Outcome) : Option (GroupQueue F) :=
  match s.backgroundTasks[i]? with
  | some b =>
    if b.started then
      match b.coro with
      | .runForGroup g =>
        some (((s.dropTask i).record (.messagesEnded g outcome)).endRunForGroup g outcome)
      | .runTask g _ => some ((s.dropTask i).endRunTask g)
      | .retry _ _ => none
    else none
  | none => none

/-- The sleep of a retry timer is over. -/
def fireRetry (s : GroupQueue F) (i : Nat) : Option (GroupQueue F) :=
  match s.backgroundTasks[i]? with
  | some b =>
    if b.started ∧ ¬ b.cancelled then
      match b.coro with
      | .retry g _ =>
        some (if s.shuttingDown then s.dropTask i else (s.dropTask i).enqueueMessageCheck g)
      | _ => none
    else none
  | none => none

/-- A cancelled asyncio task ends without its body, or inside the sleep of a timer. -/
def dropCancelled (s : GroupQueue F) (i : Nat) : Option (GroupQueue F) :=
  match s.backgroundTasks[i]? with
  | some b =>
    if b.cancelled ∧ (b.started = false ∨ b.coro.runGroup = none) then some (s.dropTask i)
    else none
  | none => none

inductive Action (F : Type) where
  | enqueueMessageCheck (groupJid : String)
  | enqueueTask (groupJid taskId : String) (fn : F)
  | notifyIdle (groupJid : String)
  | begin (i : Nat)
  | finish (i : Nat) (outcome : Outcome)
  | fireRetry (i : Nat)
  | shutdown
  | dropCancelled (i : Nat)

/-- One indivisible move of the event loop: what runs between two awaits. -/
def step (s : GroupQueue F) : Action F → Option (GroupQueue F)
  | .enqueueMessageCheck g => some (s.enqueueMessageCheck g)
  | .enqueueTask g taskId fn => some (s.enqueueTask g taskId fn)
  | .notifyIdle g => some (s.notifyIdle g)
  | .begin i => s.begin i
  | .finish i outcome => s.finish i outcome
  | .fireRetry i => s.fireRetry i
  | .shutdown => some s.shutdown
  | .dropCancelled i => s.dropCancelled i

end GroupQueue
end NanoClaw
