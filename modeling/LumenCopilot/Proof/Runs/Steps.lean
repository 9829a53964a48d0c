import LumenCopilot.Construction.Runs.System

namespace LumenCopilot.Runs

variable {state after : State} {i : Nat}

/-- The first read either goes on with a queued row or ends. -/
theorem State.observe_cases (observes : state.observe i = some after) :
    ∃ attempt, state.processes i = .starting attempt ∧
      (state.row.status = .queued ∧ after = state.goto i (.observed attempt state.row) ∨
        after = state.goto i .done) := by
  unfold State.observe at observes
  split at observes
  · next attempt starting =>
      refine ⟨attempt, starting, ?_⟩
      split at observes
      · next queued => exact Or.inl ⟨queued, (Option.some.inj observes).symm⟩
      · exact Or.inr (Option.some.inj observes).symm
  · contradiction

theorem State.claim_cases {now : Int} (wins : state.claim i now = some after) :
    ∃ attempt seen, state.processes i = .observed attempt seen ∧
      state.update i .system (RunRow.markRunning (claimTime now seen.startedAt) seen.startedAt)
        (.claimed attempt (claimTime now seen.startedAt) seen) .done = some after := by
  unfold State.claim at wins
  split at wins
  · next attempt seen observed => exact ⟨attempt, seen, observed, wins⟩
  · contradiction

variable {finishedAt : Int} {error : RunError}

theorem State.refuse_cases (refuses : state.refuse i finishedAt error = some after) :
    ∃ attempt claim seen, state.processes i = .claimed attempt claim seen ∧
      state.update i (.claimant claim)
        (RunRow.markTerminal { status := .failed, finishedAt := finishedAt, error := some error }
          (some .running) none)
        (.writing none true failureEffects .stop) (.writing none true [] .stop) = some after := by
  unfold State.refuse at refuses
  split at refuses
  · next attempt claim seen claimed => exact ⟨attempt, claim, seen, claimed, refuses⟩
  · contradiction

/-- A retry keeps its session without a write, and another execution attaches a new one. -/
theorem State.prepare_cases {newSession : Nat} (prepares : state.prepare i newSession = some after) :
    ∃ attempt claim seen, state.processes i = .claimed attempt claim seen ∧
      ((∃ session, after = state.goto i (.writing none true [] (.execute attempt claim session))) ∨
        state.update i (.claimant claim) (fun row => some (row.attachSession newSession))
          (.writing none true [.started] (.execute attempt claim newSession)) .done = some after) := by
  unfold State.prepare at prepares
  split at prepares
  · next attempt claim seen claimed =>
      refine ⟨attempt, claim, seen, claimed, ?_⟩
      split at prepares
      · exact Or.inl ⟨_, (Option.some.inj prepares).symm⟩
      · exact Or.inr prepares
  · contradiction

variable {maxRetries : Nat} {outcome : Outcome}

theorem State.requeue_cases (requeues : state.requeue maxRetries i outcome = some after) :
    ∃ attempt claim session, state.processes i = .executing attempt claim session ∧
      state.update i (.claimant claim) (RunRow.markQueued (some .running) true (some claim))
        (.writing (some claim) true [] (.retry claim)) .done = some after := by
  unfold State.requeue at requeues
  split at requeues
  · next attempt claim session executing =>
      split at requeues
      · exact ⟨attempt, claim, session, executing, requeues⟩
      · contradiction
  · contradiction

/-- The settlement reads the row, and a terminal row ends it. -/
theorem State.fold_cases (folds : state.fold maxRetries i outcome = some after) :
    ∃ attempt claim session, state.processes i = .executing attempt claim session ∧
      (after = state.goto i .done ∨ after = state.goto i (.settling claim session outcome)) := by
  unfold State.fold at folds
  split at folds
  · next attempt claim session executing =>
      refine ⟨attempt, claim, session, executing, ?_⟩
      split at folds
      · contradiction
      · split at folds
        · exact Or.inl (Option.some.inj folds).symm
        · exact Or.inr (Option.some.inj folds).symm
  · contradiction

theorem State.finish_cases (finishes : state.finish i finishedAt = some after) :
    ∃ claim session outcome messageId, state.processes i = .settling claim session outcome ∧
      state.update i (.claimant claim)
        (RunRow.markTerminal
          { status := outcome.terminalStatus, finishedAt := finishedAt, summary := outcome.summary,
            messageId := messageId, sessionId := some session, error := outcome.error }
          (some .running) none)
        (.writing (some claim) true (finishEffects outcome.terminalStatus) .stop) .done = some after := by
  unfold State.finish at finishes
  split at finishes
  · next claim session outcome settling =>
      dsimp only at finishes
      generalize (if outcome.terminalStatus = .succeeded then outcome.messageId else none) =
        messageId at finishes
      split at finishes
      · contradiction
      · exact ⟨claim, session, outcome, messageId, settling, finishes⟩
  · contradiction

theorem State.publish_cases {succeeds : Bool} (publishes : state.publish i succeeds = some after) :
    ∃ claim, state.processes i = .retrying claim ∧
      after = state.goto i (if succeeds then .done else .ensuring (some claim) (some claim)) := by
  unfold State.publish at publishes
  split at publishes
  · next claim retrying => exact ⟨claim, retrying, (Option.some.inj publishes).symm⟩
  · contradiction

theorem State.ensure_cases (ensures : state.ensure i finishedAt error = some after) :
    ∃ claim retryStartedAt, state.processes i = .ensuring claim retryStartedAt ∧
      state.update i (.of claim)
        (RunRow.markTerminal { status := .failed, finishedAt := finishedAt, error := some error }
          (some (if retryStartedAt.isSome then .queued else .running)) retryStartedAt)
        (.writing (if retryStartedAt.isSome then none else claim) retryStartedAt.isNone
          failureEffects .stop) .done = some after := by
  unfold State.ensure at ensures
  split at ensures
  · next claim retryStartedAt ensuring => exact ⟨claim, retryStartedAt, ensuring, ensures⟩
  · contradiction

theorem State.reap_cases (reaps : state.reap i finishedAt = some after) :
    ∃ olderThan error, state.processes i = .reaping olderThan ∧
      state.update i .system (RunRow.failStaleRunning olderThan finishedAt error)
        (.writing none false failureEffects .stop) .done = some after := by
  unfold State.reap at reaps
  split at reaps
  · next olderThan reaping => exact ⟨olderThan, _, reaping, reaps⟩
  · contradiction

/-- The owner of an escalated run goes on with a control, and another caller ends. -/
theorem State.load_cases (loads : state.load i = some after) :
    ∃ control caller, state.processes i = .requesting control caller ∧
      (state.row.status = .escalated ∧ after = state.goto i (.deciding control state.row) ∨
        after = state.goto i .done) := by
  unfold State.load at loads
  split at loads
  · next control caller requesting =>
      refine ⟨control, caller, requesting, ?_⟩
      split at loads
      · next granted =>
          simp only [Bool.and_eq_true, decide_eq_true_eq] at granted
          exact Or.inl ⟨granted.2, (Option.some.inj loads).symm⟩
      · exact Or.inr (Option.some.inj loads).symm
  · contradiction

/-- A reroute ends without a write, or it reassigns the owner. -/
theorem State.reassign_cases {targetExists : Bool}
    (reassigns : state.reassign i targetExists = some after) :
    ∃ toOwner seen, state.processes i = .deciding (.reroute toOwner) seen ∧
      (after = state.goto i .done ∨
        state.update i .control (fun row => some (row.reassignOwner toOwner)) (.rerouting seen) .done =
          some after) := by
  unfold State.reassign at reassigns
  split at reassigns
  · next toOwner seen deciding =>
      refine ⟨toOwner, seen, deciding, ?_⟩
      split at reassigns
      · exact Or.inl (Option.some.inj reassigns).symm
      · exact Or.inr reassigns
  · contradiction

/-- A resume and a reroute queue the run, and a cancel fails it. -/
theorem State.control_cases (acts : state.control i finishedAt = some after) :
    (∃ seen, state.processes i = .deciding .resume seen ∧
        state.update i .control (RunRow.markQueued none false none)
          (.writing none false [.controlled] .stop) .done = some after) ∨
      (∃ seen error, state.processes i = .deciding .cancel seen ∧
        state.update i .control
          (RunRow.markTerminal { status := .failed, finishedAt := finishedAt, error := some error }
            none none)
          (.writing none false [.controlled] .stop) .done = some after) ∨
      ∃ seen, state.processes i = .rerouting seen ∧
        state.update i .control (RunRow.markQueued none false none)
          (.writing none false [.controlled] .stop) .done = some after := by
  unfold State.control at acts
  split at acts
  · next seen deciding => exact Or.inl ⟨seen, deciding, acts⟩
  · next seen deciding => exact Or.inr (Or.inl ⟨seen, _, deciding, acts⟩)
  · next seen rerouting => exact Or.inr (Or.inr ⟨seen, rerouting, acts⟩)
  · contradiction

end LumenCopilot.Runs
