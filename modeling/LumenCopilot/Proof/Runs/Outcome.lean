import LumenCopilot.Construction.Runs.Repository
import LumenCopilot.Construction.Runs.Sink

namespace LumenCopilot.Runs

/-- A won claim finds the run queued with the observed claim time. -/
theorem RunRow.markRunning_guarded (startedAt : Int) (expected : Option Int) (row draft : RunRow)
    (writes : row.markRunning startedAt expected = some draft) :
    row.status = .queued ∧ row.startedAt = expected ∧ draft.status = .running ∧
      draft.startedAt = some startedAt := by
  unfold RunRow.markRunning at writes
  split at writes
  · next free =>
      obtain rfl := Option.some.inj writes
      exact ⟨free.1, free.2, rfl, rfl⟩
  · contradiction

theorem RunRow.attachSession_status (sessionId : Nat) (row : RunRow) :
    (row.attachSession sessionId).status = row.status := by
  unfold RunRow.attachSession
  split <;> rfl

/-- A guarded requeue meets its expectations and keeps the claim time. -/
theorem RunRow.markQueued_guarded (expected : RunStatus) (claim : Int) (row draft : RunRow)
    (writes : row.markQueued (some expected) true (some claim) = some draft) :
    row.status = expected ∧ row.startedAt = some claim ∧ draft.status = .queued ∧
      draft.startedAt = row.startedAt := by
  unfold RunRow.markQueued at writes
  split at writes
  · next met =>
      obtain rfl := Option.some.inj writes
      simp only [Bool.and_eq_true, meets, Option.map_some, decide_eq_true_eq] at met
      exact ⟨met.1, met.2, rfl, rfl⟩
  · contradiction

/-- A requeue without expectations always wins. -/
theorem RunRow.markQueued_unguarded (row : RunRow) :
    ∃ draft, row.markQueued none false none = some draft ∧ draft.status = .queued :=
  ⟨_, rfl, rfl⟩

/-- A guarded terminal write meets its expectations and keeps the claim time. -/
theorem RunRow.markTerminal_guarded (terminal : Terminal) (expected : RunStatus)
    (startedAt : Option Int) (row draft : RunRow)
    (writes : row.markTerminal terminal (some expected) startedAt = some draft) :
    row.status = expected ∧ (∀ claim, startedAt = some claim → row.startedAt = some claim) ∧
      draft.status = terminal.status ∧ draft.startedAt = row.startedAt := by
  unfold RunRow.markTerminal at writes
  split at writes
  · next met =>
      obtain rfl := Option.some.inj writes
      simp only [Bool.and_eq_true, meets, decide_eq_true_eq] at met
      refine ⟨met.1, ?_, rfl, rfl⟩
      intro claim known
      simpa [known] using met.2
  · contradiction

theorem RunRow.markTerminal_running (terminal : Terminal) (row : RunRow) (running : row.status = .running) :
    ∃ draft, row.markTerminal terminal (some .running) none = some draft ∧
      draft.status = terminal.status ∧ draft.startedAt = row.startedAt := by
  unfold RunRow.markTerminal
  rw [if_pos (by simp [meets, running])]
  exact ⟨_, rfl, rfl, rfl⟩

/-- A reaped row was active, and it keeps its claim time. -/
theorem RunRow.failStaleRunning_guarded (olderThan finishedAt : Int) (error : RunError)
    (row draft : RunRow) (writes : row.failStaleRunning olderThan finishedAt error = some draft) :
    row.status.isTerminal = false ∧ draft.status = .failed ∧ draft.startedAt = row.startedAt := by
  unfold RunRow.failStaleRunning at writes
  split at writes
  · next stale =>
      obtain rfl := Option.some.inj writes
      refine ⟨?_, rfl, rfl⟩
      rcases stale.1 with running | ⟨queued, -⟩
      · simp [running, RunStatus.isTerminal]
      · simp [queued, RunStatus.isTerminal]
  · contradiction

theorem RunStatus.ne_escalated_of_active {status : RunStatus} (active : status.isTerminal = false) :
    status ≠ .escalated := by
  rintro rfl
  contradiction

end LumenCopilot.Runs

namespace LumenCopilot.Runs

open Python Chat

variable {table : UnicodeTable} {stream : List Captured}

/-- This is the envelope that the outcome reads: the last terminal one. -/
def lastTerminal (stream : List Captured) : Option Captured :=
  stream.reverse.find? (·.envelope.payload.isTerminal)

/-- This is the status that the run gets from its stream. -/
def finalStatus (table : UnicodeTable) (stream : List Captured) : RunStatus :=
  classifyTerminal (sinkOutcome table stream).status (sinkOutcome table stream).error

/-- The last terminal envelope is a `done`. -/
def EndsDone (stream : List Captured) : Prop :=
  ∃ terminal, lastTerminal stream = some terminal ∧
    ∃ finishReason pending, terminal.envelope.payload = .done finishReason pending

/-- The last terminal envelope is a `cancelled`. -/
def endsCancelled (stream : List Captured) : Bool :=
  (lastTerminal stream).any fun terminal => terminal.envelope.payload = .cancelled

/-- A failed or escalated run has an error with a code. -/
def Fails (table : UnicodeTable) (stream : List Captured) : Prop :=
  (finalStatus table stream = .failed ∨ finalStatus table stream = .escalated) ∧
    ∃ error, (sinkOutcome table stream).error = some error ∧ error.code ≠ []

/-- A run succeeds only after a `done` without a denied tool, and otherwise fails with a code. -/
def Honest (table : UnicodeTable) (stream : List Captured) : Prop :=
  (finalStatus table stream = .succeeded →
      EndsDone stream ∧ hasDeniedToolResult table stream = false) ∧
    (¬ EndsDone stream ∨ hasDeniedToolResult table stream = true → Fails table stream)

/-- A failure stays a failure or is escalated. -/
theorem classifyTerminal_failed (error : Option RunError) :
    classifyTerminal .failed error = .failed ∨ classifyTerminal .failed error = .escalated := by
  cases escalates : shouldEscalate error with
  | true => exact Or.inr (by simp [classifyTerminal, escalates])
  | false => exact Or.inl (by simp [classifyTerminal, escalates])

theorem classifyTerminal_succeeded_iff {status : RunStatus} {error : Option RunError} :
    classifyTerminal status error = .succeeded ↔ status = .succeeded := by
  unfold classifyTerminal
  constructor
  · intro succeeded
    split at succeeded
    · contradiction
    · exact succeeded
  · intro succeeded
    simp [succeeded]

theorem problemError_code (problem : Problem) : (problemError problem).code ≠ [] := by
  unfold problemError
  cases code : problem.code with
  | nil => simp
  | cons c rest => simp

/-- An outcome that carries an error with a code is a failure. -/
theorem Fails.of_outcome {error : RunError}
    (outcome : sinkOutcome table stream = ⟨.failed, none, some error⟩) (coded : error.code ≠ []) :
    Fails table stream := by
  constructor
  · rw [finalStatus, outcome]
    exact classifyTerminal_failed (some error)
  · exact ⟨error, by rw [outcome], coded⟩

theorem Fails.not_succeeded (fails : Fails table stream) :
    finalStatus table stream ≠ .succeeded := by
  intro succeeded
  rcases fails.1 with failed | escalated
  · exact absurd (succeeded.symm.trans failed) (by decide)
  · exact absurd (succeeded.symm.trans escalated) (by decide)

/-- A failure is an honest outcome of every stream. -/
theorem Fails.honest (fails : Fails table stream) : Honest table stream :=
  ⟨fun succeeded => absurd succeeded fails.not_succeeded, fun _ => fails⟩

theorem lastTerminal_isTerminal {terminal : Captured} (found : lastTerminal stream = some terminal) :
    terminal.envelope.payload.isTerminal = true := by
  have holds := List.find?_some found
  exact holds

theorem endsCancelled_of_payload {terminal : Captured} (found : lastTerminal stream = some terminal)
    (payload : terminal.envelope.payload = .cancelled) : endsCancelled stream = true := by
  simp [endsCancelled, found, payload]

theorem not_endsCancelled {terminal : Captured} (found : lastTerminal stream = some terminal)
    (payload : terminal.envelope.payload ≠ .cancelled) : endsCancelled stream = false := by
  simp [endsCancelled, found, payload]

/-- The outcome of a stream is honest exactly when its last terminal envelope is not a `cancelled`
or a tool was denied. -/
theorem sinkOutcome_honest :
    Honest table stream ↔
      ¬ (endsCancelled stream = true ∧ hasDeniedToolResult table stream = false) := by
  cases found : lastTerminal stream with
  | none =>
      have outcome : sinkOutcome table stream = ⟨.failed, none, some ⟨"no_terminal".toList,
          "The run produced no terminal event.".toList⟩⟩ := by
        unfold lastTerminal at found
        simp only [sinkOutcome, found]
      have fails : Fails table stream := Fails.of_outcome outcome (by decide)
      have uncancelled : endsCancelled stream = false := by simp [endsCancelled, found]
      simp [fails.honest, uncancelled]
  | some terminal =>
      have outcome : sinkOutcome table stream = sinkOutcome table stream := rfl
      conv_rhs at outcome => unfold sinkOutcome
      rw [show stream.reverse.find? (·.envelope.payload.isTerminal) = some terminal from found]
        at outcome
      dsimp only at outcome
      cases denied : hasDeniedToolResult table stream with
      | true =>
          rw [denied, if_pos rfl] at outcome
          have fails : Fails table stream := Fails.of_outcome outcome (by decide)
          simp [fails.honest]
      | false =>
          rw [denied, if_neg (by decide)] at outcome
          have terminates := lastTerminal_isTerminal found
          cases payload : terminal.envelope.payload with
          | done finishReason pending =>
              have uncancelled := not_endsCancelled found (by simp [payload])
              have ends : EndsDone stream := ⟨terminal, found, finishReason, pending, payload⟩
              simp [Honest, denied, ends, uncancelled]
          | error problem =>
              rw [payload] at outcome
              have fails : Fails table stream := Fails.of_outcome outcome (problemError_code problem)
              have uncancelled := not_endsCancelled found (by simp [payload])
              simp [fails.honest, uncancelled]
          | cancelled =>
              rw [payload] at outcome
              have cancelled := endsCancelled_of_payload found payload
              have succeeded : finalStatus table stream = .succeeded := by
                rw [finalStatus, outcome]
                exact classifyTerminal_succeeded_iff.mpr rfl
              have dishonest : ¬ Honest table stream := by
                intro honest
                obtain ⟨⟨other, same, finishReason, pending, done⟩, -⟩ := honest.1 succeeded
                obtain rfl := Option.some.inj (found.symm.trans same)
                rw [payload] at done
                contradiction
              simp [dishonest, cancelled]
          | start | delta | answerRetract | narration | event | askUser | suggestions =>
              rw [payload] at terminates
              contradiction

/-- A stream that was cancelled before any tool was denied counts as a success. -/
theorem sinkOutcome_cancelled :
    ¬ Honest .symbols [{ envelope := ⟨0, .start⟩ }, { envelope := ⟨1, .cancelled⟩ }] := by
  intro honest
  obtain ⟨⟨terminal, last, finishReason, pending, done⟩, -⟩ := honest.1 (by decide)
  obtain rfl := Option.some.inj last
  contradiction

end LumenCopilot.Runs
