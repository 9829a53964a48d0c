import LumenCopilot.Construction.Runs.Sink
import LumenCopilot.Proof.Runs.Transcript

namespace LumenCopilot.Runs

open Python Chat

variable {table : UnicodeTable} {runMaxRetries : Nat}

/-- The last envelope of the stream is a `done`. -/
def endsInDone (stream : List Captured) : Bool :=
  match stream.getLast? with
  | some captured =>
      match captured.envelope.payload with
      | .done _ _ => true
      | _ => false
  | none => false

/-- The phase after the stream reaches the write of the terminal and the transcript. -/
def Execution.writesOutcome (table : UnicodeTable) (runMaxRetries : Nat) (execution : Execution) :
    Bool :=
  !execution.isRedriven table runMaxRetries &&
    (execution.terminalStatus table ≠ .succeeded || execution.hasPersistedAnswer)

/-- The next execution violates no constraint, and an answered one is stored after the earlier
steps. -/
def RunRecord.finishes (table : UnicodeTable) (runMaxRetries : Nat) (record : RunRecord)
    (execution : Execution) : Prop :=
  (∀ running, record.claimed execution = some running →
    running.persistOutcome table runMaxRetries execution ≠ .error .duplicateStep) ∧
  (endsInDone execution.stream → execution.hasPersistedAnswer →
    ∃ finished, record.execute table runMaxRetries execution = some finished ∧
      finished.row.status = .succeeded ∧ record.steps <+: finished.steps)

variable {record : RunRecord}

/-- A handed off run is queued. -/
theorem RunRecord.handOff_queued {queued : RunRecord} {control : HandOff}
    (handed : record.handOff control = some queued) : queued.row.status = .queued := by
  cases control with
  | redrive =>
      simp only [handOff] at handed
      split at handed
      · next already =>
          cases handed
          exact already
      · cases handed
  | resume =>
      simp only [handOff, RunRow.markQueued, meets] at handed
      split at handed
      · cases handed
        rfl
      · cases handed
  | reroute toOwner =>
      simp only [handOff, RunRow.markQueued, meets] at handed
      split at handed
      · cases handed
        rfl
      · cases handed

variable {history : List (Execution × HandOff)}

/-- A run that is queued at first is queued after each hand-off. -/
theorem RunRecord.resumed_queued {resumed : RunRecord} (queued : record.row.status = .queued)
    (handed : record.resumed table runMaxRetries history = some resumed) :
    resumed.row.status = .queued := by
  induction history generalizing record with
  | nil =>
      obtain rfl := Option.some.inj handed
      exact queued
  | cons entry rest ih =>
      obtain ⟨executed, -, continues⟩ := Option.bind_eq_some_iff.mp handed
      obtain ⟨next, handedOff, continues⟩ := Option.bind_eq_some_iff.mp continues
      exact ih (handOff_queued handedOff) continues

/-- The claim of a queued run is won, and it keeps the transcript. -/
theorem RunRecord.claimed_of_queued (execution : Execution) (queued : record.row.status = .queued) :
    ∃ running, record.claimed execution = some running ∧ running.row.status = .running ∧
      running.steps = record.steps := by
  simp [claimed, RunRow.markRunning, RunRow.attachSession, queued]

/-- A stream that ends in a `done` succeeds exactly when no tool was denied. -/
theorem sinkOutcome_of_endsInDone {stream : List Captured} (done : endsInDone stream) :
    (sinkOutcome table stream).status = .succeeded ↔ hasDeniedToolResult table stream = false := by
  unfold endsInDone at done
  split at done
  · next captured last =>
      split at done
      · next finishReason pending payload =>
          have found : stream.reverse.find? (·.envelope.payload.isTerminal) = some captured := by
            have front : stream.reverse.head? = some captured := by rw [List.head?_reverse, last]
            obtain ⟨rest, split⟩ := List.head?_eq_some_iff.mp front
            rw [split, List.find?_cons_of_pos (by simp [payload, Payload.isTerminal])]
          unfold sinkOutcome
          simp only [found, payload]
          cases hasDeniedToolResult table stream <;> simp
      · cases done
  · cases done

variable {execution : Execution}

theorem Execution.terminalStatus_succeeded :
    execution.terminalStatus table = .succeeded ↔
      (sinkOutcome table execution.stream).status = .succeeded := by
  unfold terminalStatus classifyTerminal
  constructor
  · intro classified
    split at classified
    · cases classified
    · exact classified
  · intro succeeded
    simp [succeeded]

/-- An answered execution without a denied tool writes its outcome. -/
theorem Execution.writesOutcome_of_succeeded
    (succeeded : (sinkOutcome table execution.stream).status = .succeeded)
    (answered : execution.hasPersistedAnswer) : execution.writesOutcome table runMaxRetries := by
  simp [writesOutcome, isRedriven, sinkOutcome_succeeded succeeded, isTransient, answered]

variable {running : RunRecord}

/-- The phase violates the constraint exactly when it writes a stored number again. -/
theorem RunRecord.persistOutcome_eq_duplicateStep (claims : running.row.status = .running) :
    running.persistOutcome table runMaxRetries execution = .error .duplicateStep ↔
      execution.writesOutcome table runMaxRetries ∧ persist running.steps execution.stream = none := by
  unfold persistOutcome Execution.writesOutcome
  cases redriven : execution.isRedriven table runMaxRetries with
  | true => simp
  | false =>
      simp only [claims, RunStatus.isTerminal, Bool.false_eq_true, if_false, RunRow.markTerminal,
        meets, decide_true, Option.map_none, Bool.and_self, if_true, Bool.not_false, Bool.true_and]
      by_cases missing : execution.terminalStatus table = .succeeded ∧ ¬ execution.hasPersistedAnswer
      · simp [missing]
      · cases persist running.steps execution.stream <;> grind

variable {steps : List RunStep}

/-- The phase writes the terminal and appends the steps. -/
theorem RunRecord.persistOutcome_of_writes (claims : running.row.status = .running)
    (writes : execution.writesOutcome table runMaxRetries)
    (stored : persist running.steps execution.stream = some steps) :
    ∃ row, running.persistOutcome table runMaxRetries execution = .ok ⟨row, steps⟩ ∧
      row.status = execution.terminalStatus table := by
  unfold Execution.writesOutcome at writes
  obtain ⟨final, kept⟩ := Bool.and_eq_true_iff.mp writes
  unfold persistOutcome
  simp only [claims, RunStatus.isTerminal, Bool.false_eq_true, if_false, RunRow.markTerminal, meets,
    decide_true, Option.map_none, Bool.and_self, if_true, stored]
  rw [if_neg (by simpa using final), if_neg (by grind)]
  exact ⟨_, rfl, rfl⟩

/-- An answered execution is stored as succeeded when its numbers are new and no tool was denied. -/
theorem RunRecord.execute_of_answered (queued : record.row.status = .queued)
    (succeeded : (sinkOutcome table execution.stream).status = .succeeded)
    (answered : execution.hasPersistedAnswer)
    (stored : persist record.steps execution.stream = some steps) :
    ∃ row, record.execute table runMaxRetries execution = some ⟨row, steps⟩ ∧
      row.status = .succeeded := by
  obtain ⟨running, claim, claims, same⟩ := claimed_of_queued execution queued
  have writes : execution.writesOutcome table runMaxRetries :=
    Execution.writesOutcome_of_succeeded succeeded answered
  obtain ⟨row, written, status⟩ := persistOutcome_of_writes claims writes (same ▸ stored)
  refine ⟨row, ?_, status.trans (Execution.terminalStatus_succeeded.mpr succeeded)⟩
  simp [execute, claim, written]

/-- A written outcome is queued again or has its terminal status. -/
theorem RunRecord.persistOutcome_status {written : RunRecord}
    (claims : running.row.status = .running)
    (writes : running.persistOutcome table runMaxRetries execution = .ok written) :
    written.row.status = .queued ∨ written.row.status = execution.terminalStatus table := by
  unfold persistOutcome at writes
  simp only [claims, RunStatus.isTerminal, Bool.false_eq_true, if_false, RunRow.markTerminal,
    RunRow.markQueued, meets, decide_true, Option.map_none, Bool.and_self, if_true] at writes
  split at writes
  · cases writes
    left
    cases running.row.startedAt <;> simp
  · split at writes
    · cases writes
    · split at writes
      · cases writes
      · cases writes
        right
        rfl

theorem RunRecord.ensureFailed_status (finishedAt : Int) (claims : running.row.status = .running) :
    (running.ensureFailed finishedAt).row.status = .failed := by
  simp [ensureFailed, RunRow.markTerminal, meets, claims]

/-- An execution that is stored as succeeded has a succeeded outcome. -/
theorem RunRecord.execute_status {finished : RunRecord} (queued : record.row.status = .queued)
    (executed : record.execute table runMaxRetries execution = some finished)
    (succeeded : finished.row.status = .succeeded) :
    (sinkOutcome table execution.stream).status = .succeeded := by
  obtain ⟨running, claim, claims, -⟩ := claimed_of_queued execution queued
  simp only [execute, claim, Option.map_some, Option.some.injEq] at executed
  split at executed
  · next written writes =>
      cases executed
      rcases persistOutcome_status claims writes with again | final
      · simp [again] at succeeded
      · exact Execution.terminalStatus_succeeded.mp (final.symm.trans succeeded)
  · cases executed
    simp [ensureFailed_status _ claims] at succeeded

/-- After any history of hand-offs, the next execution finishes exactly when it writes no stored
number again and, for an answered one, no tool was denied. -/
theorem resumed_run_finishes_iff {ownerId : Nat} {createdAt : Int}
    {history : List (Execution × HandOff)} {record : RunRecord} {execution : Execution}
    (handed : (RunRecord.enqueued ownerId createdAt).resumed table runMaxRetries history = some record)
    (increasing : Increasing execution.stream) :
    record.finishes table runMaxRetries execution ↔
      (execution.writesOutcome table runMaxRetries →
        ∀ step ∈ transcriptSteps execution.stream, ∀ earlier ∈ record.steps,
          earlier.seq ≠ step.seq) ∧
      (endsInDone execution.stream → execution.hasPersistedAnswer →
        hasDeniedToolResult table execution.stream = false) := by
  have queued := RunRecord.resumed_queued rfl handed
  obtain ⟨running, claim, claims, same⟩ := RunRecord.claimed_of_queued execution queued
  have fresh := @persist_isSome_iff execution.stream record.steps increasing
  constructor
  · rintro ⟨unviolated, stored⟩
    constructor
    · intro writes
      apply fresh.mp
      rw [Option.isSome_iff_ne_none]
      intro violated
      apply unviolated running claim
      exact (RunRecord.persistOutcome_eq_duplicateStep claims).mpr ⟨writes, by rw [same, violated]⟩
    · intro done answered
      obtain ⟨finished, executed, succeeded, -⟩ := stored done answered
      exact (sinkOutcome_of_endsInDone done).mp (RunRecord.execute_status queued executed succeeded)
  · rintro ⟨numbered, allowed⟩
    constructor
    · intro other claimed violated
      obtain rfl := Option.some.inj (claim.symm.trans claimed)
      obtain ⟨writes, absent⟩ := (RunRecord.persistOutcome_eq_duplicateStep claims).mp violated
      have present := fresh.mpr (numbered writes)
      rw [← same, absent] at present
      cases present
    · intro done answered
      have succeeded := (sinkOutcome_of_endsInDone done).mpr (allowed done answered)
      obtain ⟨steps, stored⟩ := Option.isSome_iff_exists.mp
        (fresh.mpr (numbered (Execution.writesOutcome_of_succeeded succeeded answered)))
      obtain ⟨row, executed, status⟩ := RunRecord.execute_of_answered queued succeeded answered stored
      refine ⟨⟨row, steps⟩, executed, status, ?_⟩
      rw [persist_eq stored]
      exact List.prefix_append _ _

/-- An execution that captures the payloads links its persisted message. -/
def linkedExecution (claim : Int) (payloads : List Payload) : Execution where
  claim := claim
  attempt := 0
  session := 1
  stream := (captures payloads).map fun captured => { captured with messageId := some 5 }
  isPersisted := fun messageId => messageId = 5
  finishedAt := claim + 1

/-- The data of the run is restricted, so the first execution escalates. -/
def restrictedExecution : Execution :=
  linkedExecution 10 [.start, .error ⟨403, "Forbidden".toList, "forbidden".toList, none⟩]

def answeredExecution : Execution :=
  linkedExecution 20 [.start, .delta "Paris".toList, .done "stop".toList false]

/-- This is the record after the owner resumes the restricted run. -/
def resumedRecord : RunRecord where
  row := { RunRow.enqueued 7 0 with sessionId := some 1 }
  steps := [⟨1, .error, .error ⟨403, "Forbidden".toList, "forbidden".toList, none⟩⟩]

/-- A lifecycle event takes the stored number, so the answer of the resumed run is stored. -/
def steppedExecution : Execution :=
  linkedExecution 20 [.start, .event .step, .delta "Paris".toList, .done "stop".toList false]

theorem resumed_run_finishes_iff_steppedExecution :
    resumedRecord.finishes .symbols 3 steppedExecution :=
  (@resumed_run_finishes_iff .symbols 3 7 0 [(restrictedExecution, .resume)] _ _
    (by decide) (by decide)).mpr ⟨by decide, by decide⟩

/-- The answer of the resumed run reuses a stored number, so the run fails. -/
theorem resumed_run_fails_resumedRecord :
    (RunRecord.enqueued 7 0).resumed .symbols 3 [(restrictedExecution, .resume)] =
        some resumedRecord ∧
      Increasing answeredExecution.stream ∧ endsInDone answeredExecution.stream ∧
      answeredExecution.hasPersistedAnswer ∧
      (resumedRecord.execute .symbols 3 answeredExecution).map (·.row.status) = some .failed ∧
      ¬ resumedRecord.finishes .symbols 3 answeredExecution := by
  have failed : (resumedRecord.execute .symbols 3 answeredExecution).map (·.row.status) =
      some .failed := by decide
  refine ⟨by decide, by decide, by decide, by decide, failed, ?_⟩
  rintro ⟨-, stored⟩
  obtain ⟨finished, executed, succeeded, -⟩ := stored (by decide) (by decide)
  rw [executed, Option.map_some, succeeded] at failed
  cases failed

end LumenCopilot.Runs
