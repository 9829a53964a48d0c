import LumenCopilot.Construction.Library.Dict
import LumenCopilot.Construction.Tools.Runner

namespace LumenCopilot.Tools

open Python Library

/-- This is a call of `web_search` with the principal of its context. -/
structure WebSearch where
  callId : Text
  tenant : Uuid
  user : Uuid
  arguments : Json

/-- These are the arguments with the query stripped. -/
def WebSearch.normalised (search : WebSearch) : Json := stripQuery search.arguments

/-- This is the object under whose hash identical searches share a task. -/
def WebSearch.shared (search : WebSearch) : Json :=
  .dict [("tenant".toList, .str search.tenant.str), ("user".toList, .str search.user.str),
    ("args".toList, search.normalised)]

def WebSearch.key (search : WebSearch) : Text := hashArgs search.shared

/-- This is the task of an execution: it was created, it runs its handler, or it ended with a result
or as cancelled. -/
inductive SearchTask where
  | created (cancelling : Bool)
  | running (cancelling : Bool)
  | done (outcome : Option ToolResult)
  deriving DecidableEq

namespace SearchTask

/-- The task was cancelled and its handler has not ended. -/
def isCancelling : SearchTask → Bool
  | .created cancelling => cancelling
  | .running cancelling => cancelling
  | .done _ => false

/-- This is `Task.done`. -/
def isDone : SearchTask → Bool
  | .done _ => true
  | _ => false

/-- The task was cancelled or its result is not `ok`. -/
def isStale : SearchTask → Bool
  | .done none => true
  | .done (some result) => !result.ok
  | _ => false

/-- This is `Task.cancel`. -/
def cancel : SearchTask → SearchTask
  | .created _ => .created true
  | .running _ => .running true
  | .done outcome => .done outcome

/-- A task that is cancelled before its first step never runs its handler. -/
def start : SearchTask → Option SearchTask
  | .created true => some (.done none)
  | .created false => some (.running false)
  | _ => none

/-- The handler ends with a result, also when it was cancelled. -/
def finish (result : ToolResult) : SearchTask → Option SearchTask
  | .running _ => some (.done (some result))
  | _ => none

/-- A cancelled handler ends with its cancellation. -/
def abandon : SearchTask → Option SearchTask
  | .running true => some (.done none)
  | _ => none

end SearchTask

/-- This is `_WebExecution` with the call that created it. -/
structure WebExecution where
  search : WebSearch
  task : SearchTask
  waiters : Nat

/-- This is the result of a task as one of its callers returns it. -/
def WebExecution.share (execution : WebExecution) (callId : Text) (result : ToolResult) : ToolResult :=
  { result with
    summary := if execution.search.callId = callId then result.summary
      else "Reused identical web search: ".toList ++ result.summary }

/-- This is where a caller stands in `_execute_shared`: at the shielded task, at the task that it
cancelled, or past its end, with a result or with `CancelledError`. -/
inductive CallerStage where
  | shielded (place : Nat)
  | reaping (place : Nat)
  | left (outcome : Option ToolResult)
  deriving DecidableEq

structure WebCaller where
  search : WebSearch
  cancelled : Bool
  stage : CallerStage

/-- These are the shared executions of a `ToolRunner` and the callers of `_execute_shared`. -/
structure Sharing where
  executions : List WebExecution
  webExecutions : Dict Text Nat
  callers : List WebCaller

namespace Sharing

/-- This is a new runner. -/
def empty : Sharing := ⟨[], ∅, []⟩

variable (state : Sharing)

/-- This is the execution that a call finds: an ended one without a result that is `ok` is
dropped. -/
def found (key : Text) : Option Nat :=
  (state.webExecutions.lookup key).filter fun place =>
    (state.executions[place]?).all fun execution => !execution.task.isStale

/-- This is a call that finds no execution. -/
def create (search : WebSearch) : Sharing where
  executions := state.executions ++ [⟨search, .created false, 1⟩]
  webExecutions := state.webExecutions.insert search.key state.executions.length
  callers := state.callers ++ [⟨search, false, .shielded state.executions.length⟩]

/-- This is a call that joins an execution; it does not wait for a task that is done. -/
def join (search : WebSearch) (place : Nat) (execution : WebExecution) : Sharing :=
  match execution.task with
  | .done outcome =>
      { state with
        callers := state.callers ++
          [⟨search, false, .left (outcome.map (execution.share search.callId))⟩] }
  | _ =>
      { state with
        executions := state.executions.set place { execution with waiters := execution.waiters + 1 }
        callers := state.callers ++ [⟨search, false, .shielded place⟩] }

/-- This is the last statement of the `finally`. -/
def forget (key : Text) (place : Nat) : Sharing :=
  if (state.executions[place]?).any (fun execution => execution.task.isStale) ∧
      state.webExecutions.lookup key = some place then
    { state with webExecutions := state.webExecutions.erase key }
  else state

/-- This is the change of a task. -/
def setTask (place : Nat) (execution : WebExecution) (task : SearchTask) : Sharing :=
  { state with executions := state.executions.set place { execution with task } }

/-- This is the change of a caller. -/
def setStage (i : Nat) (caller : WebCaller) (stage : CallerStage) : Sharing :=
  { state with callers := state.callers.set i { caller with stage } }

/-- A caller does not wait any longer. -/
def leave (i : Nat) (caller : WebCaller) (place : Nat) (execution : WebExecution)
    (outcome : Option ToolResult) : Sharing where
  executions := state.executions.set place { execution with waiters := execution.waiters - 1 }
  webExecutions := state.webExecutions
  callers := state.callers.set i { caller with stage := .left outcome }

/-- This is a caller that leaves the shielded task: by its cancellation, or by the end of the
task. -/
def wake (i : Nat) (caller : WebCaller) (place : Nat) (execution : WebExecution) : Option Sharing :=
  if caller.cancelled then
    let state := state.leave i caller place execution none
    let execution := { execution with waiters := execution.waiters - 1 }
    if execution.waiters = 0 ∧ ¬ execution.task.isDone then
      some ((state.setTask place execution execution.task.cancel).setStage i caller (.reaping place))
    else some (state.forget caller.search.key place)
  else match execution.task with
    | .done outcome =>
        some ((state.leave i caller place execution
          (outcome.map (execution.share caller.search.callId))).forget caller.search.key place)
    | _ => none

end Sharing

/-- These are a call, the cancellation of a caller, the wakings of a caller, the first step of a
task and the ends of its handler. -/
inductive SharingAction where
  | call (search : WebSearch)
  | cancel (i : Nat)
  | wake (i : Nat)
  | reap (i : Nat)
  | start (place : Nat)
  | finish (place : Nat) (result : ToolResult)
  | abandon (place : Nat)

namespace Sharing

/-- This is one step of `_execute_shared` or of one of its tasks. -/
def step (state : Sharing) : SharingAction → Option Sharing
  | .call search =>
      match state.found search.key with
      | none => some (state.create search)
      | some place => (state.executions[place]?).map fun execution => state.join search place execution
  | .cancel i => do
      let caller ← state.callers[i]?
      match caller.stage with
      | .shielded _ =>
          some { state with callers := state.callers.set i { caller with cancelled := true } }
      | .reaping place => do
          let execution ← state.executions[place]?
          some (state.setTask place execution execution.task.cancel)
      | .left _ => none
  | .wake i => do
      let caller ← state.callers[i]?
      match caller.stage with
      | .shielded place => do
          let execution ← state.executions[place]?
          state.wake i caller place execution
      | _ => none
  | .reap i => do
      let caller ← state.callers[i]?
      match caller.stage with
      | .reaping place => do
          let execution ← state.executions[place]?
          if execution.task.isDone then
            some ((state.setStage i caller (.left none)).forget caller.search.key place)
          else none
      | _ => none
  | .start place => do
      let execution ← state.executions[place]?
      execution.task.start.map fun task => state.setTask place execution task
  | .finish place result => do
      let execution ← state.executions[place]?
      (execution.task.finish result).map fun task => state.setTask place execution task
  | .abandon place => do
      let execution ← state.executions[place]?
      execution.task.abandon.map fun task => state.setTask place execution task

/-- A call finds no execution whose cancelled handler has not ended. -/
def undisturbed (state : Sharing) : SharingAction → Bool
  | .call search =>
      ((state.found search.key).bind fun place => state.executions[place]?).all fun execution =>
        !execution.task.isCancelling
  | _ => true

end Sharing

end LumenCopilot.Tools
