import LumenCopilot.Construction.Python.Text

namespace LumenCopilot.Runs

open Python

/-- The run state machine has two active and three terminal statuses. -/
inductive RunStatus where
  | queued
  | running
  | succeeded
  | failed
  | escalated
  deriving DecidableEq

/-- This is membership in `_TERMINAL_RUN_STATUSES`. -/
def RunStatus.isTerminal : RunStatus → Bool
  | .queued | .running => false
  | .succeeded | .failed | .escalated => true

/-- This is a typed run failure or escalation reason. -/
structure RunError where
  code : Text
  message : Text
  deriving DecidableEq

/-- These are the fields of the `runs` row that its writers read or change. -/
structure RunRow where
  status : RunStatus
  ownerId : Nat
  createdAt : Int
  startedAt : Option Int := none
  finishedAt : Option Int := none
  sessionId : Option Nat := none
  summary : Option Text := none
  messageId : Option Nat := none
  error : Option RunError := none
  deriving DecidableEq

/-- A run is created queued, and no delivery has claimed it. -/
def RunRow.enqueued (ownerId : Nat) (createdAt : Int) : RunRow :=
  { status := .queued, ownerId := ownerId, createdAt := createdAt }

/-- This is `mark_running`: the claim matches the observed queued timestamp. -/
def RunRow.markRunning (startedAt : Int) (expectedStartedAt : Option Int) (row : RunRow) :
    Option RunRow :=
  if row.status = .queued ∧ row.startedAt = expectedStartedAt then
    some { row with status := .running, startedAt := some startedAt }
  else none

/-- This is `attach_session`. -/
def RunRow.attachSession (sessionId : Nat) (row : RunRow) : RunRow :=
  if row.status = .running then { row with sessionId := some sessionId } else row

/-- An absent expectation adds no condition to an update. -/
def meets {α : Type} [DecidableEq α] (expected : Option α) (actual : α) : Bool :=
  match expected with
  | some value => actual = value
  | none => true

/-- This is `mark_queued`. -/
def RunRow.markQueued (expectedStatus : Option RunStatus) (preserveClaim : Bool)
    (expectedStartedAt : Option Int) (row : RunRow) : Option RunRow :=
  if meets expectedStatus row.status && meets (expectedStartedAt.map some) row.startedAt then
    some { row with
      status := .queued
      finishedAt := none
      error := none
      startedAt := if preserveClaim then row.startedAt else none }
  else none

/-- This is `reassign_owner`. -/
def RunRow.reassignOwner (ownerId : Nat) (row : RunRow) : RunRow := { row with ownerId := ownerId }

/-- These are the values that a terminal write brings. -/
structure Terminal where
  status : RunStatus
  finishedAt : Int
  summary : Option Text := none
  messageId : Option Nat := none
  sessionId : Option Nat := none
  error : Option RunError := none
  deriving DecidableEq

/-- This is `mark_terminal`; an absent output keeps the stored one. -/
def RunRow.markTerminal (terminal : Terminal) (expectedStatus : Option RunStatus)
    (expectedStartedAt : Option Int) (row : RunRow) : Option RunRow :=
  if meets expectedStatus row.status && meets (expectedStartedAt.map some) row.startedAt then
    some { row with
      status := terminal.status
      finishedAt := some terminal.finishedAt
      error := terminal.error
      summary := terminal.summary.or row.summary
      messageId := terminal.messageId.or row.messageId
      sessionId := terminal.sessionId.or row.sessionId }
  else none

/-- This is `fail_stale_running`: a running row, or a queued row that was claimed, is too old. -/
def RunRow.failStaleRunning (olderThan finishedAt : Int) (error : RunError) (row : RunRow) :
    Option RunRow :=
  if (row.status = .running ∨ row.status = .queued ∧ row.startedAt.isSome) ∧
      row.startedAt.getD row.createdAt < olderThan then
    some { row with status := .failed, finishedAt := some finishedAt, error := some error }
  else none

/-- This is `normalize_reason`. -/
def normalizeReason (code : Text) : Text :=
  let aliases := [("approval_denied".toList, "approval_required".toList),
    ("forbidden".toList, "restricted_data".toList),
    ("permission_denied".toList, "restricted_data".toList),
    ("tool_error".toList, "tool_failed".toList)]
  (aliases.lookup code).getD code

/-- This is `is_transient`. -/
def isTransient : Option RunError → Bool
  | some error => ["dependency_unavailable".toList, "model_unavailable".toList,
      "service_unavailable".toList].contains error.code
  | none => false

/-- This is `should_escalate`. -/
def shouldEscalate : Option RunError → Bool
  | some error => ["ambiguous".toList, "missing_required_input".toList, "restricted_data".toList,
      "tool_failed".toList, "approval_required".toList].contains (normalizeReason error.code)
  | none => false

/-- This is `classify_terminal`. -/
def classifyTerminal (status : RunStatus) (error : Option RunError) : RunStatus :=
  if status = .failed && shouldEscalate error then .escalated else status

end LumenCopilot.Runs
