import LumenCopilot.Proof.Chat.Billing

namespace LumenCopilot.Chat

open Python Library

variable {world : World} {holds : Ledger → Prop}

/-- These scopes of an answer that failed are recorded without a message. -/
def Ledger.salvagedRows (ledger : Ledger) : List UsageRow :=
  (ledger.scopes.filter fun scope =>
    0 < scope.2.totals.totalTokens || 0 < scope.2.totals.promptTokens).map
      fun scope => ⟨scope.1, scope.2, false⟩

/-- A failure has scopes to record. -/
def Ledger.salvages (ledger : Ledger) : Bool := ledger.salvage && !ledger.salvagedRows.isEmpty

/-- The accounts with the rows that a failure records. -/
def Ledger.salvaged (ledger : Ledger) : Ledger :=
  { ledger with rows := ledger.rows ++ ledger.salvagedRows }

/-- So many suspensions return, and the commit behind them lands. -/
def landsAfter : Nat → List Await → Bool
  | 0, script => (script.headD {}).ending = none || (script.headD {}).taken
  | count + 1, script => (script.headD {}).ending = none && landsAfter count script.tail

/-- So many suspensions come before the commit of the salvage: the cleanup of a sandbox, the release of
the resources of a stopped answer, and the opening of the transaction. -/
def World.settlementAwaits (interrupt : Interrupt) (world : World) : Nat :=
  (if interrupt = .cleanup then 1 else 0) + (if world.cancelRequested then 1 else 0) + 1

/-- No new Stop interrupts a suspension. -/
def World.Deaf (world : World) : Prop := world.cancelRequested = true ∨ world.locked = true

theorem World.suspend_deaf (deaf : world.Deaf) (outcome : Await) :
    (world.suspend outcome).1 = outcome.ending.map Fault.interrupt ∧
      (world.suspend outcome).2.Deaf ∧ (world.suspend outcome).2.script = world.script := by
  have passes := (world.suspend_spec outcome).2.1
  have stays : (world.suspend outcome).2.Deaf := deaf.imp passes.kept passes.locked.trans
  have unchanged : world.requestCancel.2.cancelRequested = world.cancelRequested ∧
      world.requestCancel.2.script = world.script := by
    unfold World.requestCancel
    split
    · exact ⟨rfl, rfl⟩
    · next unlocked => exact ⟨(deaf.resolve_right unlocked).symm, rfl⟩
  have same : (if outcome.stops then world.requestCancel.2 else world).cancelRequested =
        world.cancelRequested ∧
      (if outcome.stops then world.requestCancel.2 else world).script = world.script := by
    split
    · exact unchanged
    · exact ⟨rfl, rfl⟩
  refine ⟨?_, stays, ?_⟩
  · unfold World.suspend
    generalize (if outcome.stops then world.requestCancel.2 else world) = stopped at same ⊢
    simp [same.1]
  · unfold World.suspend
    generalize (if outcome.stops then world.requestCancel.2 else world) = stopped at same ⊢
    simp [same.1, same.2]

/-- The settlement reaches its salvage with these accounts, and the salvage lands. -/
structure World.Landing (ledger : Ledger) (count : Nat) (world : World) : Prop where
  deaf : world.Deaf
  same : world.ledger = ledger
  lands : landsAfter count world.script = true

variable {ledger : Ledger}

/-- Only the environment interrupts a suspension of a deaf world. -/
theorem World.suspend_returns (deaf : world.Deaf) (same : world.ledger = ledger) (outcome : Await) :
    match world.suspend outcome with
    | (none, resumed) => resumed.Deaf ∧ resumed.ledger = ledger ∧ resumed.script = world.script
    | (some _, resumed) => outcome.ending ≠ none ∧ resumed.ledger = ledger := by
  obtain ⟨raises, deaf', script⟩ := World.suspend_deaf deaf outcome
  have kept := (world.suspend_ledger outcome).trans same
  cases suspended : world.suspend outcome with
  | mk raised resumed =>
      rw [suspended] at raises deaf' script kept
      cases raised with
      | none => exact ⟨deaf', kept, script⟩
      | some interrupt =>
          obtain ⟨fault, is, -⟩ := Option.map_eq_some_iff.mp raises.symm
          exact ⟨by simp [is], kept⟩

/-- A suspension of the settlement returns when the environment lets it. -/
theorem awaits_lands {count : Nat} (landing : world.Landing ledger (count + 1)) :
    Ends awaits (fun _ after => after.Landing ledger count) (fun _ _ => False) world := by
  obtain ⟨returns, later⟩ := Bool.and_eq_true_iff.mp landing.lands
  have asked : World.Deaf { world with script := world.script.tail } := landing.deaf
  have resumes := World.suspend_returns asked landing.same (world.script.headD {})
  unfold awaits awaitCall nextAwait
  simp only [ends_bind, ends_transition, ends_awaitOn]
  generalize World.suspend (world.script.headD {}) { world with script := world.script.tail } = suspended
    at resumes ⊢
  obtain ⟨raised, resumed⟩ := suspended
  cases raised with
  | none => exact ⟨resumes.1, resumes.2.1, by rw [resumes.2.2]; exact later⟩
  | some interrupt => exact resumes.1 (of_decide_eq_true returns)

/-- A commit of the settlement lands when it returns, and when it raises although it took effect. -/
theorem commitWith_landed {landed : Ledger} {durable : World → World}
    (landing : world.Landing ledger 0)
    (writes : ∀ before : World, before.ledger = ledger → (durable before).ledger = landed) :
    Ends (commitWith durable) (fun _ after => after.ledger = landed) (fun _ after => after.ledger = landed)
      world := by
  have asked : World.Deaf { world with script := world.script.tail } := landing.deaf
  have resumes := World.suspend_returns asked landing.same (world.script.headD {})
  unfold commitWith nextAwait
  simp only [ends_bind, ends_transition]
  generalize World.suspend (world.script.headD {}) { world with script := world.script.tail } = suspended
    at resumes ⊢
  obtain ⟨raised, resumed⟩ := suspended
  cases raised with
  | none => exact writes resumed resumes.2.1
  | some interrupt =>
      rcases Bool.or_eq_true_iff.mp landing.lands with returns | taken
      · exact absurd (of_decide_eq_true returns) resumes.1
      · simp only [taken, ↓reduceIte]
        exact writes resumed resumes.2

/-- A salvage whose transaction lands records the scopes. -/
theorem salvage_lands (salvages : ledger.salvages = true) (landing : world.Landing ledger 1) :
    Ends salvageUsageAfterFailure (fun _ after => after.ledger = ledger.salvaged)
      (fun _ after => after.ledger = ledger.salvaged) world := by
  have armed : (world.salvage && !world.salvagedRows.isEmpty) = true := by
    rw [← landing.same] at salvages
    exact salvages
  have rows : world.salvagedRows = ledger.salvagedRows := congrArg Ledger.salvagedRows landing.same
  have saves : Ends (do
        awaits
        commitWith fun later => { later with rows := later.rows ++ world.salvagedRows })
      (fun _ after => after.ledger = ledger.salvaged) (fun _ after => after.ledger = ledger.salvaged)
      world := by
    rw [ends_bind]
    refine Ends.mono (awaits_lands landing) ?_ (fun _ _ never => never.elim)
    intro _ opened landing'
    refine commitWith_landed landing' fun later same => ?_
    unfold Ledger.salvaged
    rw [rows, ← same]
    rfl
  unfold salvageUsageAfterFailure
  simp only [ends_bind, ends_observe, ends_ite, armed, ↓reduceIte]
  rw [ends_catching]
  refine Ends.mono saves (fun _ _ last => last) fun interrupt after last => ?_
  cases interrupt <;> exact last

theorem shielded_keeps {finalizer : Coroutine Unit} (kept : Keeps (World.Books holds) finalizer) :
    Keeps (World.Books holds) (shielded finalizer) :=
  kept.bind fun _ => awaits_keeps

/-- A settlement without scopes to record leaves the accounts alone. -/
theorem settle_keeps (idle : ∀ ledger, holds ledger → ledger.salvages = false) (config : Config)
    (interrupt : Interrupt) : Keeps (World.Books holds) (settle config interrupt) := by
  have salvages : Keeps (World.Books holds) salvageUsageAfterFailure := by
    intro world now
    have nothing : (world.salvage && !world.salvagedRows.isEmpty) = false := idle world.ledger now
    unfold salvageUsageAfterFailure
    simp only [ends_bind, ends_observe, ends_ite, nothing, Bool.false_eq_true, ↓reduceIte]
    exact now
  have stops (cleanup : Bool) : Keeps (World.Books holds) (finishUserCancel cleanup) := by
    refine Keeps.bind (Keeps.update fun _ => id) fun _ => Keeps.bind (shielded_keeps ?_) fun _ =>
      Keeps.pure false
    exact (Keeps.doWhen awaits_keeps).bind fun _ => awaits_keeps.bind fun _ => salvages.bind fun _ =>
      finaliseCancelled_keeps
  have extends' : Keeps (World.Books holds) extendDeadline := Keeps.update fun _ => id
  have fails (cleanup : Bool) (problem : Problem) : Keeps (World.Books holds) (finishError cleanup problem) := by
    refine Keeps.bind (Keeps.update fun _ => id) fun _ => shielded_keeps ?_
    exact (Keeps.doWhen (awaits_keeps.bind fun _ => extends')).bind fun _ => salvages.bind fun _ =>
      terminalError_keeps problem
  refine (Keeps.observe _).bind fun stopped => ?_
  cases interrupt with
  | cleanup =>
      refine (Keeps.observe _).bind fun _ => Keeps.ite (stops true) (readClock_keeps.bind fun now => ?_)
      exact Keeps.ite ((fails true _).bind fun _ => Keeps.pure false)
        ((fails true _).bind fun _ => Keeps.raise _)
  | cancelled cause =>
      refine Keeps.ite (stops false) ((Keeps.observe _).bind fun _ => Keeps.ite (Keeps.pure true) ?_)
      exact (fails false _).bind fun _ => Keeps.raise _
  | timeout =>
      exact Keeps.ite (stops false) (extends'.bind fun _ => (fails false _).bind fun _ => Keeps.pure false)
  | app problem =>
      exact Keeps.ite (stops false) ((Keeps.doWhen extends').bind fun _ =>
        (fails false _).bind fun _ => Keeps.pure false)
  | provider problem retryable =>
      exact Keeps.ite (stops false) ((Keeps.doWhen extends').bind fun _ =>
        (fails false _).bind fun _ => Keeps.pure false)
  | other => exact Keeps.ite (stops false) ((fails false _).bind fun _ => Keeps.pure false)

/-- A salvage that lands is followed by programs that leave the accounts alone. -/
theorem salvage_concludes {next : Coroutine Unit}
    (follows : Keeps (World.Books (· = ledger.salvaged)) next) (salvages : ledger.salvages = true)
    (landing : world.Landing ledger 1) :
    Ends (do salvageUsageAfterFailure; next) (fun _ after => after.ledger = ledger.salvaged)
      (fun _ after => after.ledger = ledger.salvaged) world := by
  rw [ends_bind]
  exact Ends.mono (salvage_lands salvages landing) (fun _ after last => follows after last)
    (fun _ _ last => last)

theorem shielded_lands {finalizer : Coroutine Unit}
    (lands : Ends finalizer (fun _ after => after.ledger = ledger) (fun _ after => after.ledger = ledger)
      world) :
    Ends (shielded finalizer) (fun _ after => after.ledger = ledger)
      (fun _ after => after.ledger = ledger) world := by
  have waits : Keeps (World.Books (· = ledger)) awaits := awaits_keeps
  unfold shielded
  rw [ends_bind]
  exact Ends.mono lands (fun _ after last => waits after last) (fun _ _ last => last)

/-- A cleanup is one more suspension before the salvage. -/
theorem doWhen_lands {cleanup : Bool} {cleans : Coroutine Unit} {count : Nat}
    (cleaning : cleanup = true → ∀ {before : World}, before.Landing ledger (count + 1) →
      Ends cleans (fun _ after => after.Landing ledger count) (fun _ _ => False) before)
    (landing : world.Landing ledger ((if cleanup then 1 else 0) + count)) :
    Ends (doWhen cleanup cleans) (fun _ after => after.Landing ledger count) (fun _ _ => False) world := by
  rw [ends_doWhen]
  cases cleanup with
  | true => exact cleaning rfl (by rw [Nat.add_comm count 1]; exact landing)
  | false => exact (Nat.zero_add count) ▸ landing

theorem finishUserCancel_lands (cleanup : Bool) (salvages : ledger.salvages = true)
    (stopped : world.cancelRequested = true) (same : world.ledger = ledger)
    (lands : landsAfter ((if cleanup then 1 else 0) + 2) world.script = true) :
    Ends (finishUserCancel cleanup) (fun _ after => after.ledger = ledger.salvaged)
      (fun _ after => after.ledger = ledger.salvaged) world := by
  unfold finishUserCancel
  rw [ends_bind, ends_update, ends_bind]
  refine Ends.mono (shielded_lands ?_) (fun _ _ last => last) (fun _ _ last => last)
  rw [ends_bind]
  refine Ends.mono (doWhen_lands (fun _ _ => awaits_lands) ⟨Or.inl stopped, same, lands⟩) ?_
    (fun _ _ never => never.elim)
  intro _ cleaned landing
  rw [ends_bind]
  refine Ends.mono (awaits_lands landing) ?_ (fun _ _ never => never.elim)
  exact fun _ closed landing' => salvage_concludes finaliseCancelled_keeps salvages landing'

theorem finishError_lands (cleanup : Bool) (problem : Problem) (salvages : ledger.salvages = true)
    (same : world.ledger = ledger)
    (lands : landsAfter ((if cleanup then 1 else 0) + 1) world.script = true) :
    Ends (finishError cleanup problem) (fun _ after => after.ledger = ledger.salvaged)
      (fun _ after => after.ledger = ledger.salvaged) world := by
  unfold finishError
  rw [ends_bind, ends_update]
  refine shielded_lands ?_
  rw [ends_bind]
  refine Ends.mono (doWhen_lands (fun _ before landing => ?_) ⟨Or.inr ?_, same, lands⟩) ?_
    (fun _ _ never => never.elim)
  · rw [ends_bind]
    refine Ends.mono (awaits_lands landing) ?_ (fun _ _ never => never)
    exact fun _ after landing' => ⟨landing'.deaf, landing'.same, landing'.lands⟩
  · simp [World.locked]
  · exact fun _ cleaned landing => salvage_concludes (terminalError_keeps problem) salvages landing

/-- An error is settled, and then the run answers. -/
theorem finishError_answers (cleanup : Bool) (problem : Problem) {answer : Coroutine Bool}
    (answers : Keeps (World.Books (· = ledger.salvaged)) answer) (salvages : ledger.salvages = true)
    (same : world.ledger = ledger)
    (lands : landsAfter ((if cleanup then 1 else 0) + 1) world.script = true) :
    Ends (do finishError cleanup problem; answer) (fun _ after => after.ledger = ledger.salvaged)
      (fun _ after => after.ledger = ledger.salvaged) world := by
  rw [ends_bind]
  exact Ends.mono (finishError_lands cleanup problem salvages same lands)
    (fun _ after last => answers after last) (fun _ _ last => last)

/-- A settlement whose salvage lands records the scopes, whatever it answers. -/
theorem settle_lands (config : Config) (interrupt : Interrupt) (salvages : ledger.salvages = true)
    (uncommitted : world.answerCommitted = false) (same : world.ledger = ledger)
    (lands : landsAfter (world.settlementAwaits interrupt) world.script = true) :
    Ends (settle config interrupt) (fun _ after => after.ledger = ledger.salvaged)
      (fun _ after => after.ledger = ledger.salvaged) world := by
  unfold World.settlementAwaits at lands
  unfold settle
  rw [ends_bind, ends_observe, uncommitted]
  cases stopped : world.cancelRequested with
  | true =>
      rw [stopped] at lands
      cases interrupt with
      | cleanup =>
          simp only [ends_bind, ends_observe, stopped, ↓reduceIte]
          exact finishUserCancel_lands true salvages stopped same lands
      | _ => exact finishUserCancel_lands false salvages stopped same lands
  | false =>
      rw [stopped] at lands
      have returns (value : Bool) : Keeps (World.Books (· = ledger.salvaged))
          (pure value : Coroutine Bool) := Keeps.pure value
      have raises (cause : Cause) : Keeps (World.Books (· = ledger.salvaged))
          (raise (.cancelled cause) : Coroutine Bool) := Keeps.raise _
      have extended (problem : Problem) (opens : landsAfter 1 world.script = true) : Ends (do
            doWhen (problem.code = "answer_budget_exhausted".toList) extendDeadline
            finishError false problem
            return false)
          (fun _ after => after.ledger = ledger.salvaged) (fun _ after => after.ledger = ledger.salvaged)
          world := by
        rw [ends_bind, ends_doWhen]
        split
        · exact finishError_answers false _ (returns false) salvages same opens
        · exact finishError_answers false _ (returns false) salvages same opens
      cases interrupt with
      | cleanup =>
          simp only [ends_bind, ends_observe, stopped, Bool.false_eq_true, ↓reduceIte, readClock,
            ends_transition]
          split
          · exact finishError_answers true _ (returns false) salvages same lands
          · exact finishError_answers true _ (raises .shutdown) salvages same lands
      | cancelled cause =>
          simp only [ends_bind, ends_observe, stopped, Bool.false_and, Bool.false_eq_true, ↓reduceIte]
          exact (ends_bind _ _).mp (finishError_answers false _ (raises cause) salvages same lands)
      | timeout => exact finishError_answers false _ (returns false) salvages same lands
      | app problem => exact extended problem lands
      | provider problem retryable => exact extended problem lands
      | other => exact finishError_answers false _ (returns false) salvages same lands

/-- The guarded block of a run: what it returns or raises, and the world in which it ends. -/
def Session.guarded (session : Session) : Except Interrupt Unit × World :=
  (expiring .answerDeadline .timeout
    (produce session.config session.permitted session.aftermath)).perform
      ((World.initial session.stopped session.script session.clock session.provider
        session.tools).begun session.config)

/-- A settlement can account for an answer that did not commit: its commit left no rows, every scope that
spent something has prompt tokens or total tokens, and the salvage of such scopes lands. -/
structure World.Salvageable (interrupt : Interrupt) (world : World) : Prop where
  unwritten : world.rows = []
  whole : ∀ scope ∈ world.ledger.scopes, scope.2.totals.totalTokens = 0 →
    scope.2.totals.promptTokens = 0 → scope.2.totals = {}
  lands : world.salvagedRows ≠ [] → landsAfter (world.settlementAwaits interrupt) world.script = true

/-- The accounts of a run are those of its guarded block and of its settlement. -/
theorem Session.final_ledger (session : Session) (ledger : Ledger)
    (settles : match session.guarded with
      | (.ok _, world) => world.ledger = ledger
      | (.error interrupt, world) => Ends (settle session.config interrupt)
          (fun _ after => after.ledger = ledger) (fun _ after => after.ledger = ledger) world) :
    session.final.ledger = ledger := by
  have guarded : Ends (expiring .answerDeadline .timeout
        (produce session.config session.permitted session.aftermath))
      (fun _ after => after.ledger = ledger)
      (fun interrupt after => Ends (settle session.config interrupt)
        (fun _ after => after.ledger = ledger) (fun _ after => after.ledger = ledger) after)
      ((World.initial session.stopped session.script session.clock session.provider
        session.tools).begun session.config) := by
    unfold Session.guarded at settles
    rw [Ends]
    generalize Effect.perform _ _ = ended at settles ⊢
    obtain ⟨result, world⟩ := ended
    cases result <;> exact settles
  have releases : Keeps (World.Books (· = ledger)) (ensuring
      (do let _ ← awaitOn session.aftermath.resourcesClose : Coroutine Unit)
      (do let _ ← awaitOn session.aftermath.watcherClose : Coroutine Unit)) :=
    Keeps.ensuring ((awaitOn_keeps _).bind fun _ => Keeps.pure ())
      ((awaitOn_keeps _).bind fun _ => Keeps.pure ())
  have ends : Ends (run session.config session.permitted session.aftermath)
      (fun _ after => after.ledger = ledger) (fun _ after => after.ledger = ledger)
      (World.initial session.stopped session.script session.clock session.provider session.tools) := by
    unfold run
    rw [ends_bind, ends_update, ends_ensuring, ends_catching, ends_bind]
    refine Ends.mono guarded ?_ ?_
    · exact fun _ after same => releases after same
    · intro interrupt after settled
      exact Ends.mono settled (fun _ last same => releases last same) (fun _ last same => releases last same)
  unfold Session.final Session.ran World.ran
  rw [Ends] at ends
  generalize Effect.perform _ _ = ended at ends ⊢
  obtain ⟨result, world⟩ := ended
  cases result <;> exact ends

/-- The guarded block ends with a committed answer, or it is interrupted. -/
theorem Session.guarded_concludes (session : Session) :
    match session.guarded with
    | (.ok _, world) => world.Books Ledger.Committed
    | (.error _, world) => world.Books Ledger.Interrupted := by
  have blank : ((World.initial session.stopped session.script session.clock session.provider
      session.tools).begun session.config).Books Ledger.Blank := ⟨rfl, rfl, rfl, rfl, rfl, rfl⟩
  have guarded : Ends (expiring .answerDeadline .timeout
        (produce session.config session.permitted session.aftermath))
      (fun _ after => after.Books Ledger.Committed) (fun _ after => after.Books Ledger.Interrupted)
      ((World.initial session.stopped session.script session.clock session.provider
        session.tools).begun session.config) := by
    unfold expiring
    rw [ends_catching]
    refine Ends.mono (produce_concludes session.config session.permitted session.aftermath blank)
      (fun _ _ last => last) ?_
    intro interrupt after interrupted
    cases interrupt with
    | cancelled cause =>
        simp only [ends_bind, ends_observe, ends_ite, ends_raise]
        split
        · exact interrupted
        · exact interrupted
    | _ => exact interrupted
  unfold Session.guarded
  rw [Ends] at guarded
  generalize Effect.perform _ _ = ended at guarded ⊢
  obtain ⟨result, world⟩ := ended
  cases result <;> exact guarded

/-- The salvaged rows record what the scopes spent. -/
theorem Ledger.recorded_salvagedRows (ledger : Ledger)
    (whole : ∀ scope ∈ ledger.scopes, scope.2.totals.totalTokens = 0 →
      scope.2.totals.promptTokens = 0 → scope.2.totals = {}) :
    recorded ledger.salvagedRows = ledger.charged := by
  funext model
  let counts (entry : Text × TokenUsage) : Bool := 0 < entry.2.totalTokens || 0 < entry.2.promptTokens
  have rows : ledger.salvagedRows.map (fun row => (row.model, row.usage.totals)) =
      (ledger.scopes.map fun scope => (scope.1, scope.2.totals)).filter counts := by
    unfold Ledger.salvagedRows
    rw [List.map_map, List.filter_map]
    rfl
  unfold recorded Ledger.charged
  rw [rows, tally_filter]
  intro entry member empty
  obtain ⟨scope, within, rfl⟩ := List.mem_map.mp member
  simp only [counts, Bool.or_eq_false_iff, decide_eq_false_iff_not, not_lt, Nat.le_zero] at empty
  exact whole scope within empty.1 empty.2

theorem Ledger.Balanced.recorded (balanced : ledger.Balanced)
    (timely : ∀ report ∈ ledger.reports, report.late = false) :
    ledger.charged = reported ledger.reports := by
  rw [balanced, List.filter_eq_self.mpr]
  intro report member
  rw [timely report member]
  rfl

/-- The rows of the answer record what its scopes spent. -/
def Ledger.Settled (ledger : Ledger) : Prop := ledger.Balanced ∧ recorded ledger.rows = ledger.charged

theorem Ledger.Blank.settled (blank : ledger.Blank) : ledger.Settled := by
  refine ⟨blank.balanced, ?_⟩
  rw [blank.balanced, blank.unreported, blank.unrecorded]
  rfl

theorem Ledger.Committed.settled (committed : ledger.Committed) : ledger.Settled := by
  refine ⟨committed.balanced, ?_⟩
  rw [committed.recorded, Ledger.recorded_scopeRows]

/-- The settlement of an interrupted answer accounts for its scopes. -/
theorem settle_settled {interrupt : Interrupt} (interrupted : world.Books Ledger.Interrupted)
    (salvageable : world.answerCommitted = false → world.Salvageable interrupt) (config : Config) :
    ∃ ledger : Ledger, ledger.Settled ∧
      Ends (settle config interrupt) (fun _ after => after.ledger = ledger)
        (fun _ after => after.ledger = ledger) world := by
  have keeps (idle : world.ledger.salvages = false) : Ends (settle config interrupt)
      (fun _ after => after.ledger = world.ledger) (fun _ after => after.ledger = world.ledger) world := by
    have kept : Keeps (World.Books (· = world.ledger)) (settle config interrupt) := by
      refine settle_keeps ?_ config interrupt
      rintro ledger rfl
      exact idle
    exact kept world rfl
  rcases interrupted with blank | charging | doubtful | committed
  · refine ⟨world.ledger, blank.settled, keeps ?_⟩
    unfold Ledger.salvages
    rw [blank.disarmed, Bool.false_and]
  · obtain ⟨-, whole, lands⟩ := salvageable charging.uncommitted
    have records := Ledger.recorded_salvagedRows world.ledger whole
    cases salvages : world.ledger.salvages with
    | true =>
        have some' : world.ledger.salvagedRows ≠ [] := by
          have both := Bool.and_eq_true_iff.mp salvages
          simpa using both.2
        refine ⟨world.ledger.salvaged, ⟨charging.balanced, ?_⟩,
          settle_lands config interrupt salvages charging.uncommitted rfl (lands some')⟩
        unfold Ledger.salvaged
        dsimp only
        rw [charging.unrecorded, List.nil_append, records]
        rfl
    | false =>
        have none' : world.ledger.salvagedRows = [] := by
          unfold Ledger.salvages at salvages
          simpa [charging.armed] using salvages
        refine ⟨world.ledger, ⟨charging.balanced, ?_⟩, keeps salvages⟩
        rw [charging.unrecorded, ← none', records]
  · have written : world.ledger.rows = [] := (salvageable doubtful.uncommitted).unwritten
    rw [doubtful.recorded] at written
    simp [Ledger.scopeRows] at written
  · refine ⟨world.ledger, committed.settled, keeps ?_⟩
    unfold Ledger.salvages
    rw [committed.disarmed, Bool.false_and]

/-- In every run, whatever the reports, the faults, the failovers and the ending: when no report came late
and a failure was salvaged, the rows of the answer record for each model what was reported for it. -/
theorem usage_rows_match_reports (session : Session)
    (timely : ∀ report ∈ session.final.reports, report.late = false)
    (settles : ∀ interrupt, session.guarded.1 = .error interrupt →
      session.guarded.2.answerCommitted = false → session.guarded.2.Salvageable interrupt) :
    ∀ model, recorded session.final.rows model = reported session.final.reports model := by
  have concludes := session.guarded_concludes
  have finals := session.final_ledger
  generalize session.guarded = ended at concludes finals settles
  obtain ⟨result, world⟩ := ended
  have settled : session.final.ledger.Settled := by
    cases result with
    | ok value =>
        rw [finals world.ledger rfl]
        exact concludes.settled
    | error interrupt =>
        obtain ⟨ledger, settled, ends⟩ := settle_settled concludes (settles interrupt rfl) session.config
        rw [finals ledger ends]
        exact settled
  intro model
  exact congrFun (settled.2.trans (settled.1.recorded timely)) model

/-- This completion calls a tool and reports its usage. -/
def searching (usage : TokenUsage) : Completion :=
  { parts := [{ fragments := [{ name := "search".toList }], usage := some usage }] }

/-- In this run the first model fails after one turn, and the fallback fails for good after another. -/
def failedOver : Session :=
  { config := { turnAttempts := 1, model := "first".toList, fallbacks := ["second".toList] }
    provider := [searching ⟨10, 2, 12, 4, 1⟩, { broken := some (internalProblem, true) },
      searching ⟨7, 1, 8, 0, 0⟩, { broken := some (internalProblem, false) }] }

theorem usage_rows_match_reports_failedOver :
    recorded failedOver.final.rows "first".toList = ⟨10, 2, 12, 4, 1⟩ ∧
      recorded failedOver.final.rows "second".toList = ⟨7, 1, 8, 0, 0⟩ := by
  have timely : ∀ report ∈ failedOver.final.reports, report.late = false := by decide +kernel
  have raised : failedOver.guarded.1 = .error (.provider internalProblem false) := by decide +kernel
  have matches' := usage_rows_match_reports failedOver timely fun interrupt is _ => by
    obtain rfl := Except.error.inj (raised.symm.trans is)
    exact ⟨by decide +kernel, by decide +kernel, fun _ => by decide +kernel⟩
  rw [matches', matches']
  decide +kernel

/-- In this run the commit of the answer fails, and then the transaction of the salvage. -/
def unsalvagedGreeting : Session :=
  { config := { model := "first".toList }
    provider := [{ parts := [{ content := "Hi".toList, usage := some ⟨10, 2, 12, 4, 1⟩ }] }]
    script := List.replicate 30 {} ++ List.replicate 2 { taken := false, ending := some .other } }

theorem unsalvagedGreeting_loses_usage :
    unsalvagedGreeting.result = .ok false ∧ unsalvagedGreeting.final.rows = [] ∧
      ¬ ∀ model, recorded unsalvagedGreeting.final.rows model =
        reported unsalvagedGreeting.final.reports model := by
  refine ⟨by decide +kernel, by decide +kernel, fun same => ?_⟩
  have lost : recorded unsalvagedGreeting.final.rows "first".toList ≠
      reported unsalvagedGreeting.final.reports "first".toList := by decide +kernel
  exact lost (same _)

end LumenCopilot.Chat
