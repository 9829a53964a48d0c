import LumenCopilot.Construction.Library.Dict
import LumenCopilot.Construction.Library.Program
import LumenCopilot.Construction.Tools.Runner

namespace LumenCopilot.Tools

open Python Library

abbrev Trace : Type := List (Event Ask Ask.Answer)

/-- This is where the task of a shared search stands. -/
inductive ExecutionPhase where
  | created
  | running
  | done (outcome : Except Interrupt ToolResult)

/-- This is `_WebExecution`, with what its task runs. -/
structure Execution where
  definition : ToolDefinition
  arguments : Json
  origin : Text
  waiters : Nat
  phase : ExecutionPhase

/-- This is one call of `ToolRunner.run`, with the events it has gone through. -/
structure Job where
  call : ToolCall
  ordinal : Nat
  isolated : Bool
  trace : Trace
  program : Op ToolResult

/-- This is the state of a `ToolRunner`; the writer holds the persist gate. -/
structure RunnerState where
  ordinal : Nat
  nextPersistOrdinal : Nat
  persistenceAborted : Bool
  writer : Option Nat
  executions : List Execution
  webExecutions : Dict Text Nat
  webOrigins : Dict Text Text
  jobs : List Job

def RunnerState.initial : RunnerState := ⟨0, 0, false, none, [], ∅, ∅, []⟩

/-- This is what the environment would answer to each question. -/
abbrev Choice : Type := (question : Ask) → question.Answer

/-- A finished task that was cancelled or failed is not used again. -/
def ExecutionPhase.stale : ExecutionPhase → Except Interrupt Bool
  | .done (.ok result) => .ok (!result.ok)
  | .done (.error .cancelled) => .ok true
  | .done (.error error) => .error error
  | _ => .ok false

/-- One more call waits for the execution. -/
def RunnerState.wait (state : RunnerState) (place : Nat) (execution : Execution) (callId : Text) :
    Except Interrupt Joined × RunnerState :=
  (.ok ⟨place, execution.origin, execution.arguments⟩,
    { state with
      executions := state.executions.set place { execution with waiters := execution.waiters + 1 }
      webOrigins := state.webOrigins.insert callId execution.origin })

/-- A new task runs the search. -/
def RunnerState.create (state : RunnerState) (key : Text) (definition : ToolDefinition)
    (arguments : Json) (callId : Text) : Except Interrupt Joined × RunnerState :=
  let place := state.executions.length
  (.ok ⟨place, callId, arguments⟩,
    { state with
      executions := state.executions ++ [⟨definition, arguments, callId, 1, .created⟩]
      webExecutions := state.webExecutions.insert key place
      webOrigins := state.webOrigins.insert callId callId })

/-- This is the part of `_execute_shared` before its first await. -/
def RunnerState.join (state : RunnerState) (key : Text) (definition : ToolDefinition)
    (arguments : Json) (callId : Text) : Except Interrupt Joined × RunnerState :=
  match state.webExecutions.lookup key with
  | none => state.create key definition arguments callId
  | some place =>
      match state.executions[place]? with
      | none => state.create key definition arguments callId
      | some execution =>
          match execution.phase.stale with
          | .error error => (.error error, state)
          | .ok true => state.create key definition arguments callId
          | .ok false => state.wait place execution callId

/-- The task of the execution has ended so. -/
def RunnerState.outcome (state : RunnerState) (place : Nat) :
    Option (Except Interrupt ToolResult) :=
  match state.executions[place]? with
  | some ⟨_, _, _, _, .done outcome⟩ => some outcome
  | _ => none

/-- One waiter leaves; the last one of a running task cancels it. -/
def RunnerState.leave (state : RunnerState) (place : Nat) : Bool × RunnerState :=
  match state.executions[place]? with
  | none => (false, state)
  | some execution =>
      let waiters := execution.waiters - 1
      (waiters = 0 && (state.outcome place).isNone,
        { state with executions := state.executions.set place { execution with waiters } })

/-- A stale task is forgotten while it is still the one of its key. -/
def RunnerState.forget (state : RunnerState) (key : Text) (place : Nat) :
    Except Interrupt Unit × RunnerState :=
  match state.executions[place]? with
  | none => (.ok (), state)
  | some execution =>
      match execution.phase.stale with
      | .error error => (.error error, state)
      | .ok stale =>
          if stale && state.webExecutions.lookup key = some place then
            (.ok (), { state with webExecutions := state.webExecutions.erase key })
          else (.ok (), state)

/-- This is the wait at the persist gate. -/
def RunnerState.turn (state : RunnerState) (place ordinal : Nat) (choice : Except Interrupt Unit) :
    Option (Except Interrupt Unit × RunnerState) :=
  match choice with
  | .error _ => some (.error .cancelled, state)
  | .ok () =>
      if state.writer.isSome then none
      else if state.persistenceAborted then some (.error .cancelled, state)
      else if state.nextPersistOrdinal = ordinal then
        some (.ok (), { state with writer := some place })
      else none

/-- This resolves one question of the call at the place; a waiting call gets no answer. -/
def RunnerState.answer (state : RunnerState) (place : Nat) (choice : Choice) :
    (question : Ask) → Option (question.Answer × RunnerState)
  | .gate request => some (choice (.gate request), state)
  | .intent event => some (choice (.intent event), state)
  | .openScope => some (choice .openScope, state)
  | .closeScope => some (choice .closeScope, state)
  | .starts _ _ => some ((), state)
  | .finishes => some (choice .finishes, state)
  | .join key definition arguments callId => some (state.join key definition arguments callId)
  | .shielded execution =>
      match choice (.shielded execution) with
      | .error _ => some (.error .cancelled, state)
      | .ok _ => (state.outcome execution).map fun outcome => (outcome, state)
  | .leave execution => some (state.leave execution)
  | .reap execution =>
      match choice (.reap execution) with
      | .error _ => some (.error .cancelled, state)
      | .ok _ => (state.outcome execution).map fun outcome => (outcome.map fun _ => (), state)
  | .forget key execution => some (state.forget key execution)
  | .webOrigin callId => some (state.webOrigins.lookup callId, state)
  | .turn ordinal => state.turn place ordinal (choice (.turn ordinal))
  | .emit event => some (choice (.emit event), state)
  | .record row => some (choice (.record row), state)
  | .advance => some ((), { state with
      nextPersistOrdinal := state.nextPersistOrdinal + 1, writer := none })

/-- Callers claim ordinals, start calls and abort; calls and shared tasks go on. -/
inductive RunnerAction where
  | claimOrdinal
  | run (call : ToolCall) (ordinal : Option Nat) (isolated : Bool)
  | advance (place : Nat) (choice : Choice)
  | startExecution (place : Nat)
  | endExecution (place : Nat) (finish : HandlerEnd)
  | abortPersistence

variable (config : Config)

/-- This is `ToolRunner.run` up to its first await. -/
def RunnerState.start (state : RunnerState) (call : ToolCall) (ordinal : Option Nat)
    (isolated : Bool) : RunnerState :=
  let claimed := ordinal.getD state.ordinal
  { state with
    ordinal := if ordinal.isNone then state.ordinal + 1 else state.ordinal
    jobs := state.jobs ++ [⟨call, claimed, isolated, [], runGoverned config call claimed isolated⟩] }

/-- The call has its answer. -/
def Job.take (job : Job) (question : Ask) (next : question.Answer → Op ToolResult)
    (answer : question.Answer) : Job :=
  { job with trace := job.trace ++ [⟨question, answer⟩], program := next answer }

/-- This is one await of the call at the place. -/
def RunnerState.advance (state : RunnerState) (place : Nat) (choice : Choice) : Option RunnerState :=
  match state.jobs[place]? with
  | none => none
  | some job =>
      match job.program with
      | .asks question next => (state.answer place choice question).map fun result =>
          { result.2 with jobs := state.jobs.set place (job.take question next result.1) }
      | _ => none

def RunnerState.setPhase (state : RunnerState) (place : Nat) (execution : Execution)
    (phase : ExecutionPhase) : RunnerState :=
  { state with executions := state.executions.set place { execution with phase } }

/-- This is one step of a runner and its callers. -/
def runnerStep (state : RunnerState) : RunnerAction → Option RunnerState
  | .claimOrdinal => some { state with ordinal := state.ordinal + 1 }
  | .run call ordinal isolated => some (state.start config call ordinal isolated)
  | .advance place choice => state.advance place choice
  | .startExecution place =>
      match state.executions[place]? with
      | some ⟨definition, arguments, origin, waiters, .created⟩ => some
          (state.setPhase place ⟨definition, arguments, origin, waiters, .created⟩ .running)
      | _ => none
  | .endExecution place finish =>
      match state.executions[place]? with
      | some ⟨definition, arguments, origin, waiters, .running⟩ => some
          (state.setPhase place ⟨definition, arguments, origin, waiters, .running⟩
            (.done finish.outcome))
      | some ⟨definition, arguments, origin, waiters, .created⟩ => some
          (state.setPhase place ⟨definition, arguments, origin, waiters, .created⟩
            (.done (.error .cancelled)))
      | _ => none
  | .abortPersistence =>
      if state.writer.isSome then none else some { state with persistenceAborted := true }

end LumenCopilot.Tools
