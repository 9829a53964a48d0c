import LumenCopilot.Construction.Memory.Summary
import LumenCopilot.Construction.Python.Numerals
import LumenCopilot.Construction.Python.Text

namespace LumenCopilot.Memory

open Python

/-- This is `_REDACT_MIN_WINDOW_WORDS`. -/
def redactMinWindowWords : Nat := 4

/-- This is `_REDACT_MIN_WINDOW_CHARS`. -/
def redactMinWindowChars : Nat := 15

/-- This is `_REDACTION_MARKER`. -/
def redactionMarker : Text := "[cited source text removed]".toList

/-- These are the windows of a snippet in the order of the loops of `_redact_cited_snippets`. -/
def snippetWindows (snippet : Text) : List Text :=
  let words := splitBlank snippet
  let sizes := (List.range (words.length + 1 - redactMinWindowWords)).map fun less =>
    words.length - less
  let windows := sizes.flatMap fun size =>
    (List.range (words.length - size + 1)).map fun start =>
      join [' '] ((words.drop start).take size)
  windows.filter fun window => redactMinWindowChars ≤ window.length

/-- This is the inner loop of `_redact_cited_snippets` with a bound on its rounds. -/
def redactWindow (table : CaseTable) : Nat → Text → Text → Option Text
  | 0, _, _ => none
  | fuel + 1, window, redacted =>
      match find (strLower table window) (strLower table redacted) with
      | none => some redacted
      | some place =>
          redactWindow table fuel window
            (redacted.take place ++ redactionMarker ++ redacted.drop (place + window.length))

/-- This is `_redact_cited_snippets` with a bound on the rounds of each inner loop. -/
def redactCitedSnippets (table : CaseTable) (fuel : Nat) (summary : Text) (snippets : List Text) :
    Option Text :=
  (snippets.flatMap snippetWindows).foldlM (fun redacted window => redactWindow table fuel window redacted)
    summary

end LumenCopilot.Memory

namespace LumenCopilot.Memory

open Library Python

/-- These are the settings of `_summarize` within their bounds. -/
structure SummarySettings where
  chatSummaryKeepMessages : Nat
  chatSummaryMinBatch : Nat
  keepMessages_bounds : 2 ≤ chatSummaryKeepMessages ∧ chatSummaryKeepMessages ≤ 50
  minBatch_bounds : 1 ≤ chatSummaryMinBatch ∧ chatSummaryMinBatch ≤ 50

/-- These are the defaults of the settings. -/
def SummarySettings.defaults : SummarySettings := ⟨4, 2, by decide, by decide⟩

/-- This is `_MAX_BATCH_MESSAGES`. -/
def maxBatchMessages : Nat := 40

/-- This is the key of a committed message; a time counts microseconds from 1970. -/
structure Message where
  createdAt : Int
  id : Nat
  deriving DecidableEq

/-- This is the position of the message in the total order of the coverage cursor. -/
def Message.cursor (message : Message) : Cursor := toLex (message.createdAt, message.id)

/-- This is one second. -/
def oneSecond : Int := 1000000

/-- This is the condition of `list_for_session_after`. -/
def Message.listed (cursor : Cursor) (message : Message) : Bool :=
  (ofLex cursor).1 < message.createdAt ||
    (ofLex cursor).1 - oneSecond < message.createdAt && (ofLex cursor).2 < message.id

/-- These are the messages in the order of `list_for_session_after`. -/
def inOrder (messages : List Message) : List Message :=
  messages.insertionSort fun (message other : Message) => message.cursor ≤ other.cursor

/-- This is `list_for_session_after`. -/
def listForSessionAfter (messages : List Message) (cursor : Cursor) (limit : Option Nat) :
    List Message :=
  let listed := inOrder (messages.filter (Message.listed cursor))
  match limit with
  | none => listed
  | some limit => listed.take limit

/-- This is the sentinel cursor of the first pass. -/
def sentinel : Cursor := toLex (0, 0)

/-- These are the fetched messages beyond the cursor, where there is one. -/
def uncovered (fetched : List Message) : Option Cursor → List Message
  | some cursor => fetched.filter fun message : Message => cursor < message.cursor
  | none => fetched

/-- This is the batch that a pass folds, from the cursor that it has read. -/
def batchToCover (settings : SummarySettings) (messages : List Message) (after : Option Cursor) :
    List Message :=
  let keep := settings.chatSummaryKeepMessages
  let fetchLimit := maxBatchMessages + keep
  let fetched := listForSessionAfter messages (after.getD sentinel) (some fetchLimit)
  let uncovered := uncovered fetched after
  if fetchLimit ≤ fetched.length then uncovered.take maxBatchMessages
  else
    let toCover := if keep < uncovered.length then uncovered.take (uncovered.length - keep) else []
    toCover.take maxBatchMessages

/-- This is what a pass keeps of the row that it has read: the cursor, the version of an invalid
summary, and the messages that the previous summary and its ancestors have folded. -/
structure SummaryView where
  after : Option Cursor
  invalidVersion : Option Nat
  folded : List Message

/-- This is where a pass stands; the name is that of what it has done. -/
inductive PassPhase where
  | started
  | loaded (view : SummaryView)
  | fetched (view : SummaryView) (toCover : List Message)
  | skipped
  | returned (accepted : Bool)

/-- These are the committed messages of one session, its summary row, the messages that the stored
summary and its ancestors have folded, and the passes. -/
structure SessionState where
  messages : List Message
  row : Option SummaryRow
  folded : List Message
  passes : List PassPhase

/-- Messages commit, evidence is written, and passes start and go on; a pass that goes on may refuse
the completion. -/
inductive SessionAction where
  | commit (message : Message)
  | evidence (pairs : List (Nat × Nat))
  | start
  | load (place : Nat)
  | fetch (place : Nat)
  | refuse (place : Nat)
  | write (place : Nat) (summary : Text) (mentionedDocuments : Dict Nat Text)

variable (settings : SummarySettings) (parses : Text → Bool)

/-- This is `stored_summary_text` of the row, as to whether it returns a text. -/
def SummaryRow.readable (row : SummaryRow) : Bool :=
  row.summary.any fun summary => parses (summary.take summaryMaxChars)

/-- This is what `_summarize` keeps of the row. -/
def SessionState.view (state : SessionState) : SummaryView :=
  match state.row with
  | none => ⟨none, none, []⟩
  | some row =>
      if row.readable parses then ⟨row.cursor, none, state.folded⟩
      else ⟨none, if row.coversThroughMessageId.isSome then some row.version else none, []⟩

/-- This is the write of a pass at the boundary of its batch. -/
def SessionState.write (state : SessionState) (place : Nat) (view : SummaryView)
    (toCover : List Message) (boundary : Message) (summary : Text)
    (mentionedDocuments : Dict Nat Text) : SessionState :=
  let write : SummaryWrite :=
    ⟨summary, boundary.id, boundary.createdAt, some mentionedDocuments⟩
  let written := upsertSummary state.row write view.invalidVersion
  let accepted := accepts write written.2 (some written.1)
  { state with
    row := some written.1
    folded := if accepted then view.folded ++ toCover else state.folded
    passes := state.passes.set place (.returned accepted) }

/-- This is one step of the session; a message commits under a new identifier and with a time after
1970, and a pass writes only what parses. -/
def sessionStep (state : SessionState) : SessionAction → Option SessionState
  | .commit message =>
      if 0 < message.createdAt ∧ ∀ other ∈ state.messages, other.id ≠ message.id then
        some { state with messages := state.messages ++ [message] }
      else none
  | .evidence pairs => some { state with row := some (upsertEvidence state.row pairs) }
  | .start => some { state with passes := state.passes ++ [.started] }
  | .load place =>
      match state.passes[place]? with
      | some .started => some { state with
          passes := state.passes.set place (.loaded (state.view parses)) }
      | _ => none
  | .fetch place =>
      match state.passes[place]? with
      | some (.loaded view) =>
          let toCover := batchToCover settings state.messages view.after
          some { state with
            passes := state.passes.set place
              (if toCover.length < settings.chatSummaryMinBatch then .skipped
              else .fetched view toCover) }
      | _ => none
  | .refuse place =>
      match state.passes[place]? with
      | some (.fetched _ _) => some { state with passes := state.passes.set place .skipped }
      | _ => none
  | .write place summary mentionedDocuments =>
      match state.passes[place]? with
      | some (.fetched view toCover) =>
          match toCover.getLast? with
          | some boundary =>
              if parses summary then
                some (state.write place view toCover boundary summary mentionedDocuments)
              else none
          | none => none
      | _ => none

/-- These are the messages after the stored coverage cursor; without one this is `list_for_session`. -/
def SessionState.listed (state : SessionState) : List Message :=
  match state.row.bind SummaryRow.cursor with
  | none => state.messages
  | some cursor => listForSessionAfter state.messages cursor none

/-- The stored coverage cursor lists the message, or the stored summary or an ancestor of it has
folded it. -/
def SessionState.Remembers (state : SessionState) (message : Message) : Prop :=
  message ∈ state.listed ∨ message ∈ state.folded

instance (state : SessionState) (message : Message) : Decidable (state.Remembers message) :=
  inferInstanceAs (Decidable (_ ∨ _))

/-- The pass holds no cursor and no boundary at or beyond the message. -/
def PassPhase.below (message : Message) : PassPhase → Bool
  | .loaded view => view.after.all (· < message.cursor)
  | .fetched _ toCover => toCover.getLast?.all fun boundary => boundary.cursor < message.cursor
  | _ => true

/-- A message commits beyond the stored cursor and beyond what every pass in flight holds. -/
def timely (state : SessionState) : SessionAction → Bool
  | .commit message =>
      (state.row.bind SummaryRow.cursor).all (· < message.cursor) &&
        state.passes.all (PassPhase.below message)
  | _ => true

/-- An empty session. -/
def SessionState.empty : SessionState := ⟨[], none, [], []⟩

end LumenCopilot.Memory
