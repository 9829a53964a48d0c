import LumenCopilot.Construction.Chat.Envelope
import LumenCopilot.Construction.Runs.Repository
import LumenCopilot.Construction.Runs.System

namespace LumenCopilot.Runs

open Python

/-- The sink captures an envelope with the data that it reads beside the fold of the client. -/
structure Captured where
  envelope : Chat.Envelope
  messageId : Option Nat := none
  toolFailed : Bool := false
  toolError : Option Text := none
  deriving DecidableEq

/-- These are the kinds of a persisted step. -/
inductive RunStepKind where
  | delta
  | toolCall
  | toolResult
  | citation
  | error
  deriving DecidableEq

/-- This is `_step_kind`: another envelope is not a step of the transcript. -/
def stepKind : Chat.Payload → Option RunStepKind
  | .delta _ => some .delta
  | .error _ => some .error
  | .event .toolCall => some .toolCall
  | .event .toolResult => some .toolResult
  | .event .citation => some .citation
  | _ => none

/-- A step keeps the number, the kind and the data of its envelope. -/
structure RunStep where
  seq : Nat
  kind : RunStepKind
  payload : Chat.Payload
  deriving DecidableEq

/-- This is the step that `persist` writes for an envelope. -/
def Captured.step (captured : Captured) : Option RunStep :=
  (stepKind captured.envelope.payload).map fun kind =>
    ⟨captured.envelope.seq, kind, captured.envelope.payload⟩

/-- The steps of a stream come in the order of its envelopes. -/
def transcriptSteps (stream : List Captured) : List RunStep := stream.filterMap Captured.step

/-- This is `RunStepRepository.add` under the constraint `uq_run_steps_run_seq`. -/
def addStep (stored : List RunStep) (step : RunStep) : Option (List RunStep) :=
  if stored.any (·.seq == step.seq) then none else some (stored ++ [step])

/-- This is `RunTranscriptSink.persist`: a violated constraint stops it. -/
def persist (stored : List RunStep) (stream : List Captured) : Option (List RunStep) :=
  (transcriptSteps stream).foldlM addStep stored

/-- This is `RunStepRepository.list_for_run`: the stored steps in the order of their numbers. -/
def listForRun (stored : List RunStep) : List RunStep :=
  stored.mergeSort fun first second => first.seq ≤ second.seq

/-- These code points end a line for `splitlines`. -/
def isLineEnd (c : Char) : Bool :=
  let n := c.toNat
  (10 ≤ n && n ≤ 13) || (28 ≤ n && n ≤ 30) || n == 0x85 || n == 0x2028 || n == 0x2029

def strip (text : Text) : Text := rstrip (lstrip text)

/-- This is the digest line of an answer. -/
def summaryOf (answer : Text) : Text :=
  let text := strip answer
  if text.isEmpty then "The run produced no answer content.".toList
  else (strip (text.takeWhile fun c => !isLineEnd c)).take 200

def deltaText : Chat.Payload → Text
  | .delta text => text
  | _ => []

/-- This is `_summarize`: the text of all deltas. -/
def summarize (stream : List Captured) : Text :=
  summaryOf (stream.flatMap fun captured => deltaText captured.envelope.payload)

/-- These are the words of a code: the parts between other characters than letters and digits. -/
def codeTokens (code : Text) : List Text :=
  (code.splitBy fun first second => isCodeChar first == isCodeChar second).filter fun part =>
    part.all isCodeChar
where
  isCodeChar (c : Char) : Bool := ('a' ≤ c && c ≤ 'z') || ('0' ≤ c && c ≤ '9')

/-- This is `is_denied_or_unavailable_tool_error`. -/
def isDeniedOrUnavailableToolError (table : UnicodeTable) (code : Option Text) : Bool :=
  match code with
  | none => true
  | some code =>
      if isBlank code then true
      else
        let normalized := lower table (strip code)
        if ["dependency_unavailable".toList, "model_unavailable".toList,
            "service_unavailable".toList].contains normalized then false
        else if ["approval_denied".toList, "autonomy_denied".toList, "code_execution_denied".toList,
            "tool_not_found".toList, "tool_not_permitted".toList].contains normalized then true
        else if normalized = "not_permitted".toList ||
            "_not_permitted".toList.isSuffixOf normalized then true
        else
          let tokens := codeTokens normalized
          if ["denied".toList, "disabled".toList, "forbidden".toList,
              "unavailable".toList].any tokens.contains then true
          else tokens.contains "missing".toList &&
            (tokens.contains "adapter".toList || tokens.contains "tool".toList)

/-- This is `_has_denied_tool_result`. -/
def hasDeniedToolResult (table : UnicodeTable) (stream : List Captured) : Bool :=
  stream.any fun captured =>
    captured.envelope.payload = .event .toolResult && captured.toolFailed &&
      isDeniedOrUnavailableToolError table captured.toolError

/-- This is the outcome that the sink folds. -/
structure SinkOutcome where
  status : RunStatus
  summary : Option Text
  error : Option RunError
  deriving DecidableEq

/-- This is the failure that an error terminal stands for. -/
def problemError (problem : Chat.Problem) : RunError :=
  let detail := match problem.detail with
    | some detail => if detail.isEmpty then problem.title else detail
    | none => problem.title
  { code := if problem.code.isEmpty then "run_failed".toList else problem.code
    message := if detail.isEmpty then "The run failed.".toList else detail }

/-- This is `RunTranscriptSink.outcome`. -/
def sinkOutcome (table : UnicodeTable) (stream : List Captured) : SinkOutcome :=
  match stream.reverse.find? (·.envelope.payload.isTerminal) with
  | none => ⟨.failed, none, some ⟨"no_terminal".toList, "The run produced no terminal event.".toList⟩⟩
  | some terminal =>
      if hasDeniedToolResult table stream then
        ⟨.failed, none, some ⟨"tool_failure".toList,
          ("A tool the assistant needed was denied or unavailable, " ++
            "so the run could not complete as configured.").toList⟩⟩
      else
        match terminal.envelope.payload with
        | .error problem => ⟨.failed, none, some (problemError problem)⟩
        | _ => ⟨.succeeded, some (summarize stream), none⟩

/-- This is `message_id`: the identifier on the first `start` that has one. -/
def sinkMessageId (stream : List Captured) : Option Nat :=
  (stream.find? fun captured => captured.envelope.payload = .start && captured.messageId.isSome).bind
    (·.messageId)

/-- A run has its row and its persisted transcript. -/
structure RunRecord where
  row : RunRow
  steps : List RunStep
  deriving DecidableEq

def RunRecord.enqueued (ownerId : Nat) (createdAt : Int) : RunRecord :=
  ⟨RunRow.enqueued ownerId createdAt, []⟩

/-- An execution claims the run, runs in a chat session and captures its stream; some of the
messages of the session are persisted. -/
structure Execution where
  claim : Int
  attempt : Nat
  session : Nat
  stream : List Captured
  isPersisted : Nat → Bool
  finishedAt : Int

/-- A transient fault is driven again while the retry budget lasts. -/
def Execution.isRedriven (table : UnicodeTable) (runMaxRetries : Nat) (execution : Execution) : Bool :=
  isTransient (sinkOutcome table execution.stream).error && execution.attempt < runMaxRetries

/-- This is the terminal status that the outcome of an execution stands for. -/
def Execution.terminalStatus (table : UnicodeTable) (execution : Execution) : RunStatus :=
  classifyTerminal (sinkOutcome table execution.stream).status
    (sinkOutcome table execution.stream).error

/-- The identifier on the start names a persisted message of the session. -/
def Execution.hasPersistedAnswer (execution : Execution) : Bool :=
  (sinkMessageId execution.stream).any execution.isPersisted

/-- These errors stop the phase that writes the outcome. -/
inductive OutcomeError where
  | noPersistedResponse
  | duplicateStep
  deriving DecidableEq

/-- This is `_persist_run_outcome`. -/
def RunRecord.persistOutcome (table : UnicodeTable) (runMaxRetries : Nat) (record : RunRecord)
    (execution : Execution) : Except OutcomeError RunRecord :=
  let outcome := sinkOutcome table execution.stream
  let status := execution.terminalStatus table
  if execution.isRedriven table runMaxRetries then
    .ok { record with
      row := (record.row.markQueued (some .running) true record.row.startedAt).getD record.row }
  else if record.row.status.isTerminal then .ok record
  else if status = .succeeded && !execution.hasPersistedAnswer then .error .noPersistedResponse
  else
    match record.row.markTerminal
        { status := status, finishedAt := execution.finishedAt, summary := outcome.summary,
          messageId := if status = .succeeded then sinkMessageId execution.stream else none,
          sessionId := some execution.session, error := outcome.error }
        (some .running) none with
    | none => .ok record
    | some row =>
        match persist record.steps execution.stream with
        | none => .error .duplicateStep
        | some steps => .ok ⟨row, steps⟩

/-- This is `ensure_run_terminal_on_failure` after a raised error. -/
def RunRecord.ensureFailed (record : RunRecord) (finishedAt : Int) : RunRecord :=
  match record.row.markTerminal
      { status := .failed, finishedAt := finishedAt,
        error := some ⟨"internal_error".toList, "The run failed unexpectedly.".toList⟩ }
      (some .running) none with
  | none => record
  | some row => { record with row := row }

/-- This is the record after the claim of an execution. -/
def RunRecord.claimed (record : RunRecord) (execution : Execution) : Option RunRecord :=
  (record.row.markRunning (claimTime execution.claim record.row.startedAt)
    record.row.startedAt).map fun row =>
      { record with row := row.attachSession execution.session }

/-- An execution claims the queued run, runs, and writes its outcome or fails. -/
def RunRecord.execute (table : UnicodeTable) (runMaxRetries : Nat) (record : RunRecord)
    (execution : Execution) : Option RunRecord :=
  (record.claimed execution).map fun running =>
    match running.persistOutcome table runMaxRetries execution with
    | .ok written => written
    | .error _ => running.ensureFailed execution.finishedAt

/-- The owner of an escalated run resumes it or reroutes it, and a transient fault is driven
again. -/
inductive HandOff where
  | resume
  | reroute (toOwner : Nat)
  | redrive
  deriving DecidableEq

/-- These are `resume` and `reroute` on an escalated run, and the next delivery of a queued one. -/
def RunRecord.handOff (record : RunRecord) : HandOff → Option RunRecord
  | .redrive => if record.row.status = .queued then some record else none
  | .resume =>
      if record.row.status = .escalated then
        (record.row.markQueued none false none).map fun row => { record with row := row }
      else none
  | .reroute toOwner =>
      if record.row.status = .escalated ∧ toOwner ≠ record.row.ownerId then
        ((record.row.reassignOwner toOwner).markQueued none false none).map fun row =>
          { record with row := row }
      else none

/-- This is the record after executions that are each handed off to the next one. -/
def RunRecord.resumed (table : UnicodeTable) (runMaxRetries : Nat) (record : RunRecord) :
    List (Execution × HandOff) → Option RunRecord
  | [] => some record
  | (execution, control) :: rest =>
      (record.execute table runMaxRetries execution).bind fun executed =>
        (executed.handOff control).bind fun queued => queued.resumed table runMaxRetries rest

end LumenCopilot.Runs
