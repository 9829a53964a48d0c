import LumenCopilot.Construction.Library.Dict
import LumenCopilot.Construction.Python.Text

namespace LumenCopilot.Memory

open Library Python

/-- This is `_EVIDENCE_MAX_PAIRS`. -/
def evidenceMaxPairs : Nat := 20

/-- This is `_SUMMARY_MAX_CHARS`. -/
def summaryMaxChars : Nat := 6000

/-- This is `_MENTIONED_MAX_ENTRIES`. -/
def mentionedMaxEntries : Nat := 40

/-- This is a row of `session_summaries`; an absent value is a null. -/
structure SummaryRow where
  summary : Option Text
  coversThroughMessageId : Option Nat
  coversThroughCreatedAt : Option Int
  evidence : Option (List (Nat × Nat))
  mentionedDocuments : Option (Dict Nat Text)
  version : Nat

/-- This is a row with the defaults of its columns. -/
def SummaryRow.empty : SummaryRow := ⟨none, none, none, none, none, 0⟩

/-- A coverage cursor is a time and a message. -/
abbrev Cursor : Type := Int ×ₗ Nat

/-- This is the coverage cursor of the row. -/
def SummaryRow.cursor (row : SummaryRow) : Option Cursor :=
  match row.coversThroughCreatedAt, row.coversThroughMessageId with
  | some createdAt, some messageId => some (toLex (createdAt, messageId))
  | _, _ => none

/-- These are the arguments of `upsert_summary`. -/
structure SummaryWrite where
  summary : Text
  coversThroughMessageId : Nat
  coveredCreatedAt : Int
  mentionedDocuments : Option (Dict Nat Text)

/-- This is the cursor that a write advances to. -/
def SummaryWrite.cursor (write : SummaryWrite) : Cursor :=
  toLex (write.coveredCreatedAt, write.coversThroughMessageId)

/-- This is the mention map that a write stores. -/
def SummaryWrite.mentionedPayload (write : SummaryWrite) : Dict Nat Text :=
  ((write.mentionedDocuments.getD ∅).take mentionedMaxEntries).mapValues (·.take 200)

/-- This is the row that the insert branch of `upsert_summary` creates. -/
def SummaryWrite.inserted (write : SummaryWrite) : SummaryRow where
  summary := some (write.summary.take summaryMaxChars)
  coversThroughMessageId := some write.coversThroughMessageId
  coversThroughCreatedAt := some write.coveredCreatedAt
  evidence := none
  mentionedDocuments := some write.mentionedPayload
  version := 1

/-- This is the row that the update branch of `upsert_summary` leaves. -/
def SummaryWrite.updated (write : SummaryWrite) (row : SummaryRow) : SummaryRow :=
  { row with
    summary := some (write.summary.take summaryMaxChars)
    coversThroughMessageId := some write.coversThroughMessageId
    coversThroughCreatedAt := some write.coveredCreatedAt
    mentionedDocuments := some write.mentionedPayload
    version := row.version + 1 }

/-- This is the condition of the update branch; a comparison with a null does not hold. -/
def SummaryRow.admits (row : SummaryRow) (write : SummaryWrite) (replaceInvalidVersion : Option Nat) :
    Bool :=
  match replaceInvalidVersion with
  | some version => row.version = version
  | none =>
      match row.coversThroughCreatedAt with
      | none => true
      | some createdAt =>
          createdAt < write.coveredCreatedAt ||
            createdAt = write.coveredCreatedAt &&
              row.coversThroughMessageId.any (· < write.coversThroughMessageId)

/-- This is the statement of `upsert_summary` with its row count. -/
def upsertSummary (row : Option SummaryRow) (write : SummaryWrite)
    (replaceInvalidVersion : Option Nat) : SummaryRow × Nat :=
  match row with
  | none => (write.inserted, 1)
  | some row =>
      if row.admits write replaceInvalidVersion then (write.updated row, 1) else (row, 0)

/-- This is the first part of the answer of `upsert_summary`, from the row that it reads again. -/
def accepts (write : SummaryWrite) (rowcount : Nat) (row : Option SummaryRow) : Bool :=
  0 < rowcount && row.any fun row => row.coversThroughMessageId = some write.coversThroughMessageId

/-- This is the statement of `upsert_evidence`. -/
def upsertEvidence (row : Option SummaryRow) (evidence : List (Nat × Nat)) : SummaryRow :=
  match row with
  | none => { SummaryRow.empty with evidence := some (evidence.take evidenceMaxPairs) }
  | some row => { row with evidence := some (evidence.take evidenceMaxPairs) }

/-- This is where a call of `upsert_summary` stands; the name is that of what it has done. -/
inductive SummaryPhase where
  | observing
  | ready (replaceInvalidVersion : Option Nat)
  | executed (rowcount : Nat)
  | returned (rowcount : Nat) (accepted : Bool)
  deriving DecidableEq

/-- This is one call of `upsert_summary`. -/
structure SummaryCall where
  write : SummaryWrite
  phase : SummaryPhase

/-- This is where a call of `upsert_evidence` stands. -/
inductive EvidencePhase where
  | ready
  | executed
  | returned
  deriving DecidableEq

/-- This is one call of `upsert_evidence`. -/
structure EvidenceCall where
  evidence : List (Nat × Nat)
  phase : EvidencePhase

/-- These are the row of one session and the calls that write it. -/
structure SummaryState where
  row : Option SummaryRow
  summaries : List SummaryCall
  evidences : List EvidenceCall

/-- Calls come and go on; a replacement reads the version of the row before its call. -/
inductive SummaryAction where
  | callSummary (write : SummaryWrite)
  | callReplacement (write : SummaryWrite)
  | callEvidence (evidence : List (Nat × Nat))
  | summary (place : Nat)
  | evidence (place : Nat)

/-- This is the next step of a call of `upsert_summary`: the row after it and the phase. -/
def SummaryCall.advance (row : Option SummaryRow) (call : SummaryCall) :
    Option (Option SummaryRow × SummaryPhase) :=
  match call.phase with
  | .observing => row.map fun stored => (row, .ready (some stored.version))
  | .ready replaceInvalidVersion =>
      let written := upsertSummary row call.write replaceInvalidVersion
      some (some written.1, .executed written.2)
  | .executed rowcount => some (row, .returned rowcount (accepts call.write rowcount row))
  | .returned _ _ => none

/-- This is the next step of a call of `upsert_evidence`. -/
def EvidenceCall.advance (row : Option SummaryRow) (call : EvidenceCall) :
    Option (Option SummaryRow × EvidencePhase) :=
  match call.phase with
  | .ready => some (some (upsertEvidence row call.evidence), .executed)
  | .executed => some (row, .returned)
  | .returned => none

/-- This is one step of the session's calls. -/
def summaryStep (state : SummaryState) : SummaryAction → Option SummaryState
  | .callSummary write => some { state with summaries := state.summaries ++ [⟨write, .ready none⟩] }
  | .callReplacement write => some { state with summaries := state.summaries ++ [⟨write, .observing⟩] }
  | .callEvidence evidence => some { state with evidences := state.evidences ++ [⟨evidence, .ready⟩] }
  | .summary place =>
      match state.summaries[place]? with
      | none => none
      | some call => (call.advance state.row).map fun next =>
          { state with
            row := next.1
            summaries := state.summaries.set place { call with phase := next.2 } }
  | .evidence place =>
      match state.evidences[place]? with
      | none => none
      | some call => (call.advance state.row).map fun next =>
          { state with
            row := next.1
            evidences := state.evidences.set place { call with phase := next.2 } }

/-- The row is absent or an evidence write created it. -/
def Fresh (row : Option SummaryRow) : Prop :=
  row = none ∨ ∃ evidence, row = some (upsertEvidence none evidence)

/-- No call has come. -/
def SummaryState.initial (row : Option SummaryRow) : SummaryState := ⟨row, [], []⟩

/-- This is the stored row, with the defaults where it is absent. -/
def SummaryState.stored (state : SummaryState) : SummaryRow := state.row.getD .empty

/-- The statement of the call took effect. -/
def SummaryCall.effective (call : SummaryCall) : Bool :=
  match call.phase with
  | .executed rowcount | .returned rowcount _ => 0 < rowcount
  | _ => false

/-- This is the number of summary writes that took effect. -/
def SummaryState.effectiveWrites (state : SummaryState) : Nat :=
  state.summaries.countP SummaryCall.effective

end LumenCopilot.Memory
