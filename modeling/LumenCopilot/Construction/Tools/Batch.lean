import LumenCopilot.Construction.Tools.System

namespace LumenCopilot.Tools

open Python Library

/-- These are the awaits of `_run_tool_batch` and its changes of tasks and calls. -/
inductive BatchAsk where
  | publishToolCall (place : Nat)
  | fanOut (places : List Nat)
  | completed
  | checkCancelled
  | publishToolResult (place : Nat)
  | cancelTasks
  | abortPersistence
  | gather
  | auditRetrieval (place : Nat)
  | beginRun (place : Nat)
  | endRun

abbrev BatchAsk.Answer : BatchAsk → Type
  | .publishToolCall _ => Except Interrupt Unit
  | .fanOut _ => Unit
  | .completed => Except Interrupt (Nat × ToolResult)
  | .checkCancelled => Except Interrupt Unit
  | .publishToolResult _ => Except Interrupt Unit
  | .cancelTasks => Unit
  | .abortPersistence => Except Interrupt Unit
  | .gather => Except Interrupt Unit
  | .auditRetrieval _ => Except Interrupt Unit
  | .beginRun _ => Unit
  | .endRun => Except Interrupt ToolResult

abbrev BatchOp : Type → Type := Program BatchAsk BatchAsk.Answer Interrupt

def askBatch (question : BatchAsk) : BatchOp question.Answer := .asks question .returns

def publishToolCall (place : Nat) : BatchOp Unit := do
  let answer ← askBatch (.publishToolCall place)
  Program.ofExcept answer

def completed : BatchOp (Nat × ToolResult) := do
  let answer ← askBatch .completed
  Program.ofExcept answer

def checkCancelled : BatchOp Unit := do
  let answer ← askBatch .checkCancelled
  Program.ofExcept answer

def publishToolResult (place : Nat) : BatchOp Unit := do
  let answer ← askBatch (.publishToolResult place)
  Program.ofExcept answer

def abortPersistence : BatchOp Unit := do
  let answer ← askBatch .abortPersistence
  Program.ofExcept answer

def gather : BatchOp Unit := do
  let answer ← askBatch .gather
  Program.ofExcept answer

def auditRetrieval (place : Nat) : BatchOp Unit := do
  let answer ← askBatch (.auditRetrieval place)
  Program.ofExcept answer

/-- This is `await runner.run(...)` in the coroutine of the dispatcher. -/
def runInline (place : Nat) : BatchOp ToolResult := do
  askBatch (.beginRun place)
  let answer ← askBatch .endRun
  Program.ofExcept answer

def forEach (body : Nat → BatchOp Unit) : List Nat → BatchOp Unit
  | [] => pure ()
  | place :: rest => do
      body place
      forEach body rest

/-- These are the results by the place of their call. -/
abbrev Done : Type := List (Nat × ToolResult)

/-- This is the loop over `asyncio.as_completed`. -/
def collect : Nat → Done → BatchOp Done
  | 0, done => pure done
  | count + 1, done => do
      let result ← completed
      checkCancelled
      publishToolResult result.1
      collect count (done ++ [result])

/-- This is what the dispatcher does before it raises the error again. -/
def abortBatch (error : Interrupt) : BatchOp Done := do
  askBatch .cancelTasks
  abortPersistence
  gather
  .raises error

/-- This is the concurrent part of the batch. -/
def fanOutCalls (retrieval : Nat → Bool) (places : List Nat) : BatchOp Done := do
  forEach publishToolCall places
  askBatch (.fanOut places)
  let done ← (collect places.length []).catching fun error => some (abortBatch error)
  forEach auditRetrieval (places.filter retrieval)
  pure done

/-- This is the serial form of the calls. -/
def serialCalls (retrieval : Nat → Bool) : List Nat → Done → BatchOp Done
  | [], done => pure done
  | place :: rest, done => do
      checkCancelled
      publishToolCall place
      checkCancelled
      let result ← runInline place
      checkCancelled
      if retrieval place then auditRetrieval place
      publishToolResult place
      serialCalls retrieval rest (done ++ [(place, result)])

/-- This is a batch: the calls of a turn, which of them are retrieval calls and the concurrency. -/
structure Batch where
  calls : List ToolCall
  retrieval : Nat → Bool
  toolConcurrency : Nat

variable (config : Config) (batch : Batch)

/-- These calls may run concurrently. -/
def Batch.safe : List Nat :=
  (List.range batch.calls.length).filter fun place =>
    batch.calls[place]?.any fun call => config.isConcurrencySafe call.name

def Batch.fanOut : List Nat :=
  if 1 < batch.toolConcurrency ∧ 1 < (batch.safe config).length then batch.safe config else []

def Batch.serialForm : List Nat :=
  (List.range batch.calls.length).filter fun place => place ∉ batch.fanOut config

/-- This is `_run_tool_batch`. -/
def runToolBatch : BatchOp (List ToolResult) := do
  let done ← match batch.fanOut config with
    | [] => pure []
    | place :: rest => fanOutCalls batch.retrieval (place :: rest)
  let done ← serialCalls batch.retrieval (batch.serialForm config) done
  pure ((List.range batch.calls.length).filterMap fun place => done.lookup place)

/-- This is where the task of a fanned-out call stands. -/
inductive WorkerPhase where
  | created
  | running (job : Nat)
  | stopped (error : Interrupt)
  deriving DecidableEq

/-- This is the task of a fanned-out call; the dispatcher receives each end once. -/
structure Worker where
  place : Nat
  ordinal : Nat
  phase : WorkerPhase
  delivered : Bool
  deriving DecidableEq

/-- These are the durable records of a call: the intent that an approval commits, and the set that
`_finalise` writes. -/
inductive RecordKind where
  | intent
  | invoked
  | result
  | row
  deriving DecidableEq

/-- This is a record in the order of the writes. -/
structure Written where
  kind : RecordKind
  ordinal : Nat
  deriving DecidableEq

/-- The dispatcher runs over the runner with its tasks; the log has every record. -/
structure BatchState where
  runner : RunnerState
  workers : List Worker
  serial : Option Nat
  dispatcher : BatchOp (List ToolResult)
  log : List Written

/-- The batch starts when every claimed ordinal has been persisted. -/
def BatchState.initial (start : Nat) : BatchState where
  runner := ⟨start, start, false, none, [], ∅, ∅, []⟩
  workers := []
  serial := none
  dispatcher := runToolBatch config batch
  log := []

/-- This is how the call at the place has ended. -/
def RunnerState.jobEnd (state : RunnerState) (place : Nat) : Option (Except Interrupt ToolResult) :=
  match state.jobs[place]? with
  | none => none
  | some job =>
      match job.program with
      | .returns result => some (.ok result)
      | .raises error => some (.error error)
      | .asks _ _ => none

/-- This is how the task of the worker has ended. -/
def BatchState.workerEnd (state : BatchState) (worker : Worker) :
    Option (Except Interrupt (Nat × ToolResult)) :=
  match worker.phase with
  | .created => none
  | .running job => (state.runner.jobEnd job).map fun ended =>
      ended.map fun result => (worker.place, result)
  | .stopped error => some (.error error)

/-- This resolves one await of the dispatcher: whether it passes and which task ended next. -/
structure BatchChoice where
  passes : Except Interrupt Unit := .ok ()
  worker : Option Nat := none

/-- The await of the next end; without a worker the dispatcher is cancelled. -/
def BatchState.complete (state : BatchState) :
    Option Nat → Option (Except Interrupt (Nat × ToolResult) × BatchState)
  | none => some (.error .cancelled, state)
  | some place =>
      match state.workers[place]? with
      | none => none
      | some worker =>
          if worker.delivered then none
          else (state.workerEnd worker).map fun ended =>
            (ended, { state with
              workers := state.workers.set place { worker with delivered := true } })

/-- An await that the choice may cancel. -/
def BatchChoice.await (choice : BatchChoice) : Except Interrupt Unit := choice.passes

/-- This resolves one question of the dispatcher; a waiting dispatcher gets no answer. -/
def BatchState.answer (state : BatchState) (choice : BatchChoice) :
    (question : BatchAsk) → Option (question.Answer × BatchState)
  | .publishToolCall _ => some (choice.await, state)
  | .fanOut places => some ((), { state with
      runner := { state.runner with ordinal := state.runner.ordinal + places.length }
      workers := state.workers ++ places.zipIdx.map fun entry =>
        ⟨entry.1, state.runner.ordinal + entry.2, .created, false⟩ })
  | .completed => state.complete choice.worker
  | .checkCancelled => some (choice.await, state)
  | .publishToolResult _ => some (choice.await, state)
  | .cancelTasks => some ((), state)
  | .abortPersistence =>
      match choice.passes with
      | .ok () => if state.runner.writer.isSome then none
          else some (.ok (),
            { state with runner := { state.runner with persistenceAborted := true } })
      | .error error => if state.runner.writer.isSome then some (.error error, state) else none
  | .gather =>
      if state.workers.all fun worker => (state.workerEnd worker).isSome then
        some (choice.await, { state with
          workers := state.workers.map fun worker => { worker with delivered := true } })
      else none
  | .auditRetrieval _ => some (choice.await, state)
  | .beginRun place =>
      match batch.calls[place]? with
      | none => none
      | some call => some ((), { state with
          runner := state.runner.start config call none false
          serial := some state.runner.jobs.length })
  | .endRun =>
      match state.serial with
      | none => none
      | some job => (state.runner.jobEnd job).map fun ended => (ended, { state with serial := none })

/-- The gate of the chat runtime reads the policy of the tenant. -/
def withPolicy (policy : Except Interrupt (Option (Option TenantToolPolicy))) (choice : Choice) :
    Choice
  | .gate request => policy.map fun read => .decision (policyDecision config.registry read request)
  | other => choice other

def ToolEvent.kind (event : ToolEvent) : RecordKind :=
  if event.action = .invoked then .invoked else .result

/-- This is the record that an event commits. -/
def written : Event Ask Ask.Answer → Option Written
  | ⟨.intent event, .ok _⟩ => some ⟨.intent, event.ordinal⟩
  | ⟨.emit event, .ok _⟩ => some ⟨event.kind, event.ordinal⟩
  | ⟨.record row, .ok _⟩ => some ⟨.row, row.ordinal⟩
  | _ => none

/-- This is the record of the last event of the call at the place. -/
def RunnerState.lastWritten (state : RunnerState) (place : Nat) : List Written :=
  ((state.jobs[place]?.bind fun job => job.trace.getLast?).bind written).toList

/-- The dispatcher, its tasks, the calls and the shared searches go on. -/
inductive BatchAction where
  | dispatch (choice : BatchChoice)
  | enter (worker : Nat) (passes : Except Interrupt Unit)
  | call (job : Nat) (policy : Except Interrupt (Option (Option TenantToolPolicy))) (choice : Choice)
  | startExecution (place : Nat)
  | endExecution (place : Nat) (finish : HandlerEnd)

/-- This is `_worker` up to the first await of its call. -/
def BatchState.enter (state : BatchState) (place : Nat) (passes : Except Interrupt Unit) :
    Option BatchState :=
  match state.workers[place]? with
  | some ⟨call, ordinal, .created, delivered⟩ =>
      match passes, batch.calls[call]? with
      | .error error, _ => some { state with
          workers := state.workers.set place ⟨call, ordinal, .stopped error, delivered⟩ }
      | .ok (), none => none
      | .ok (), some toolCall => some { state with
          runner := state.runner.start config toolCall (some ordinal)
            (config.requiresCallScope toolCall.name)
          workers := state.workers.set place
            ⟨call, ordinal, .running state.runner.jobs.length, delivered⟩ }
  | _ => none

/-- This is one step of a batch. -/
def batchStep (state : BatchState) : BatchAction → Option BatchState
  | .dispatch choice =>
      match state.dispatcher with
      | .asks question next => (state.answer config batch choice question).map fun result =>
          { result.2 with dispatcher := next result.1 }
      | _ => none
  | .enter worker passes => state.enter config batch worker passes
  | .call job policy choice =>
      (state.runner.advance job (withPolicy config policy choice)).map fun runner =>
        { state with runner, log := state.log ++ runner.lastWritten job }
  | .startExecution place => (runnerStep config state.runner (.startExecution place)).map fun runner =>
      { state with runner }
  | .endExecution place finish =>
      (runnerStep config state.runner (.endExecution place finish)).map fun runner =>
        { state with runner }

end LumenCopilot.Tools
