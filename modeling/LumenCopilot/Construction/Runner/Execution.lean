import LumenCopilot.Construction.Python.Bytes
import LumenCopilot.Construction.Python.Numerals
import LumenCopilot.Construction.Python.Text

namespace LumenCopilot.Runner

open Python

/-- This is `_MAX_STREAM_CHARS`. -/
def maxStreamChars : Nat := 256 * 1024

/-- This is the start of the truncation notice that the engine looks for. -/
def truncationMark : Text := "[output truncated at ".toList

/-- This is the notice of a clipped stream. -/
def truncationNotice : Text :=
  '\n' :: truncationMark ++ natText maxStreamChars ++ " characters]".toList

/-- This is `_clip`. -/
def clip (text : Text) : Text :=
  if text.length ≤ maxStreamChars then text else text.take maxStreamChars ++ truncationNotice

/-- A stream yields demultiplexed chunks, or plain chunks of the output. -/
inductive StreamChunk where
  | pair (out err : Option (List UInt8))
  | plain (out : List UInt8)
  deriving DecidableEq

/-- These are `out_chunk` and `err_chunk`; no bytes and no chunk are the same. -/
def StreamChunk.out : StreamChunk → List UInt8
  | .pair out _ => out.getD []
  | .plain out => out

def StreamChunk.err : StreamChunk → List UInt8
  | .pair _ err => err.getD []
  | .plain _ => []

/-- These are the parts of one stream, its remaining characters and its decoder. -/
structure Capture (decoder : IncrementalDecoder) where
  parts : Text
  left : Nat
  state : decoder.State

variable {decoder : IncrementalDecoder}

/-- One character more than the cap distinguishes clipping from an exact result. -/
def Capture.start : Capture decoder := ⟨[], maxStreamChars + 1, decoder.start⟩

/-- This is the body of the loop for one stream. -/
def Capture.take (capture : Capture decoder) (chunk : List UInt8) : Capture decoder :=
  if !chunk.isEmpty && 0 < capture.left then
    let fed := decoder.feed capture.state chunk
    let text := fed.1.take capture.left
    ⟨capture.parts ++ text, capture.left - text.length, fed.2⟩
  else capture

/-- This is the text of a stream after its end. -/
def Capture.finish (capture : Capture decoder) : Text :=
  capture.parts ++ (decoder.flush capture.state).take capture.left

/-- This is `_exec_streaming` from the chunks of the stream and the `ExitCode` of the inspection. -/
def execStreaming (decoder : IncrementalDecoder) (chunks : List StreamChunk) (exitCode : Option Int) :
    Int × Text × Text :=
  let captures := chunks.foldl (fun captures chunk =>
    (captures.1.take chunk.out, captures.2.take chunk.err))
    ((Capture.start, Capture.start) : Capture decoder × Capture decoder)
  (exitCode.getD 0, clip captures.1.finish, clip captures.2.finish)

/-- This is the `status` of a result. -/
inductive RunStatus where
  | succeeded
  | failed
  | killed
  | timeout
  deriving DecidableEq

/-- This is a `termination_reason`. -/
inductive TerminationReason where
  | completed
  | failed
  | killed
  | wallClock
  | memory
  | pids
  | scratch
  | output
  deriving DecidableEq

/-- This is the written reason. -/
def TerminationReason.text : TerminationReason → Text
  | completed => "completed".toList
  | failed => "failed".toList
  | killed => "killed".toList
  | wallClock => "sandbox_limit_wall_clock".toList
  | memory => "sandbox_limit_memory".toList
  | pids => "sandbox_limit_pids".toList
  | scratch => "sandbox_limit_scratch".toList
  | output => "sandbox_limit_output".toList

/-- This is `reason.startswith("sandbox_limit_")`. -/
def TerminationReason.isLimit (reason : TerminationReason) : Bool :=
  startsWith reason.text "sandbox_limit_".toList

/-- This is `part in text`. -/
def contains (part text : Text) : Bool := (find part text).isSome

/-- This is `_resource_reason`. -/
def resourceReason (table : CaseTable) (message : Text) : Option TerminationReason :=
  let message := strLower table message
  if contains "no space left on device".toList message then some .scratch
  else if contains "resource temporarily unavailable".toList message ||
      contains "can't start new thread".toList message then some .pids
  else if contains "memoryerror".toList message ||
      contains "cannot allocate memory".toList message then some .memory
  else none

/-- These are the parts of a result that the classification sets. -/
structure RunOutcome where
  status : RunStatus
  exitCode : Option Int
  stdout : Text
  stderr : Text
  outputFiles : List Text := []
  terminationReason : Option TerminationReason
  deriving DecidableEq

/-- These are the answers of the daemon and of the clock to one execution: the exceptions by their
texts, the streams of the program, the events of its control group and its collected files. -/
structure Observed where
  queueExpired : Bool := false
  preparation : Option Text := none
  failure : Option Text := none
  chunks : List StreamChunk := []
  exitCode : Option Int := none
  running : Bool := true
  oomKilled : Bool := false
  oomBefore : Nat := 0
  oomAfter : Nat := 0
  pidsBefore : Nat := 0
  pidsAfter : Nat := 0
  cleanup : Option Text := none
  budget : Nat := 0
  collected : Except Text (List Text × Bool) := .ok ([], false)
  timedOut : Bool := false

/-- This is what `_exec_streaming` returns. -/
def captured (observed : Observed) : Int × Text × Text :=
  execStreaming Utf8.decoder observed.chunks observed.exitCode

/-- This is the classification of a program that ran, in the `try` block of `_execute_body`. -/
def classify (table : CaseTable) (observed : Observed) (captured : Int × Text × Text) : RunOutcome :=
  if observed.oomKilled || observed.oomBefore < observed.oomAfter then
    ⟨.killed, some captured.1, captured.2.1,
      "Code execution exceeded its memory limit and was stopped.".toList, [], some .memory⟩
  else if captured.1 ≠ 0 ∧ !observed.running then
    ⟨.killed, none, [],
      "Code execution was cancelled or the sandbox container stopped.".toList, [], some .killed⟩
  else if observed.pidsBefore < observed.pidsAfter then
    ⟨.failed, some captured.1, captured.2.1, captured.2.2, [], some .pids⟩
  else
    ⟨if captured.1 = 0 then .succeeded else .failed, some captured.1, captured.2.1, captured.2.2, [],
      (resourceReason table captured.2.2).or (if captured.1 = 0 then some .completed else some .failed)⟩

/-- This is the note of a partial collection. -/
def collectionNote (budget : Nat) : Text :=
  "Only part of the output directory was collected: it exceeded the ".toList ++ natText budget ++
    "-byte limit for one execution. Write fewer or smaller files.".toList

/-- This is the collection of the output files. -/
def collect (observed : Observed) (outcome : RunOutcome) : Except Text RunOutcome :=
  if outcome.status = .succeeded ∨ outcome.status = .failed then
    observed.collected.map fun collected =>
      if collected.2 then
        { outcome with
          outputFiles := collected.1
          terminationReason :=
            if outcome.terminationReason = some .completed then some .output
            else outcome.terminationReason
          stderr :=
            if outcome.stderr.isEmpty then collectionNote observed.budget
            else outcome.stderr ++ '\n' :: collectionNote observed.budget }
      else { outcome with outputFiles := collected.1 }
  else .ok outcome

/-- This is the test for the truncation notice at the end of `_execute_body`. -/
def markTruncated (outcome : RunOutcome) : RunOutcome :=
  if contains truncationMark outcome.stdout || contains truncationMark outcome.stderr then
    { outcome with terminationReason := some .output }
  else outcome

/-- This is `_execute_body`, from the preparation of the container to its result. -/
def executeBody (table : CaseTable) (observed : Observed) : Except Text RunOutcome := do
  match observed.preparation with
  | some message => .error message
  | none =>
      let outcome ← match observed.failure with
        | some message =>
            if observed.running then .error ("sandbox execution failed: ".toList ++ message)
            else .ok ⟨.killed, none, [], "Sandbox container stopped.".toList, [], some .killed⟩
        | none => .ok (classify table observed (captured observed))
      match observed.cleanup with
      | some message => .error message
      | none => (collect observed outcome).map markTruncated

/-- This is the attribution of an exception of `_execute_body`. -/
def attributed (table : CaseTable) (timedOut : Bool) :
    Except Text RunOutcome → Except Text RunOutcome
  | .ok outcome => .ok outcome
  | .error message =>
      if !timedOut && (resourceReason table message).isNone then .error message
      else .ok ⟨.failed, none, [], message, [], resourceReason table message⟩

/-- An expired deadline replaces the outcome. -/
def expire (timedOut : Bool) (outcome : RunOutcome) : RunOutcome :=
  if timedOut then
    { outcome with
      status := .timeout
      exitCode := none
      outputFiles := []
      stderr := "Code execution exceeded its time limit and was stopped.".toList
      terminationReason := some .wallClock }
  else outcome

/-- A limit is no success. -/
def failLimited (outcome : RunOutcome) : RunOutcome :=
  if outcome.terminationReason.any TerminationReason.isLimit ∧ outcome.status = .succeeded then
    { outcome with status := .failed }
  else outcome

/-- This is `_execute_unlocked`. -/
def executeUnlocked (table : CaseTable) (observed : Observed) : Except Text RunOutcome :=
  if observed.queueExpired then
    .ok ⟨.timeout, none, [], "Execution deadline expired in the queue.".toList, [], some .wallClock⟩
  else
    (attributed table observed.timedOut (executeBody table observed)).map fun outcome =>
      failLimited (expire observed.timedOut outcome)

/-- This is the status and the termination reason of a result. -/
def verdict (table : CaseTable) (observed : Observed) :
    Except Text (RunStatus × Option TerminationReason) :=
  (executeUnlocked table observed).map fun outcome => (outcome.status, outcome.terminationReason)

end LumenCopilot.Runner
