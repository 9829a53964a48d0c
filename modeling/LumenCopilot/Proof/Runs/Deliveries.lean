import LumenCopilot.Construction.Runs.Inbox
import LumenCopilot.Proof.Runs.Controls

namespace LumenCopilot.Runs

open Library

variable {config : ScheduleDelivery} {owed : Option RunRow} {events : List Event} {state after : State}

/-- An outcome is owed until its delivery, and nothing else comes between them. -/
def owe : Option RunRow → Event → Option (Option RunRow)
  | none, .effect _ written => if written = .delivered then none else some none
  | none, event => some event.outcome
  | some run, .effect _ written => if written = .delivered then some none else some (some run)
  | some _, .change _ _ _ _ => none

variable {run : RunRow}

theorem outcome_terminal {event : Event} (ends : event.outcome = some run) :
    run.status.isTerminal = true := by
  unfold Event.outcome at ends
  split at ends
  · split at ends
    · next changes =>
        obtain rfl := Option.some.inj ends
        exact (Bool.and_eq_true_iff.mp changes).2
    · contradiction
  · contradiction

/-- The inbox holds the first announced outcome only. -/
def inboxOf (deliveries : List RunDelivery) : List RunDelivery :=
  deliveries.filter fun delivery => delivery.kind = .inbox

theorem existsForRun_inbox (deliveries : List RunDelivery) :
    existsForRun .inbox deliveries = !(inboxOf deliveries).isEmpty := by
  unfold existsForRun inboxOf
  rw [Bool.eq_iff_iff, List.any_eq_true, Bool.not_eq_true', List.isEmpty_eq_false_iff_exists_mem]
  simp only [List.mem_filter]

/-- A terminal run is delivered to an empty inbox, and to no other one. -/
theorem inboxOf_deliverRun (inbox : config.inbox = true) (terminal : run.status.isTerminal = true)
    (deliveries : List RunDelivery) :
    inboxOf (deliverRun config run deliveries) =
      if (inboxOf deliveries).isEmpty then [run.announcement] else inboxOf deliveries := by
  have digested : ∀ added : List RunDelivery, (∀ delivery ∈ added, delivery.kind = .digest) →
      inboxOf (deliveries ++ added) = inboxOf deliveries := by
    intro added digests
    have none : added.filter (fun delivery => delivery.kind = .inbox) = [] := by
      refine List.filter_eq_nil_iff.mpr fun delivery member => ?_
      simp [digests delivery member]
    unfold inboxOf
    rw [List.filter_append, none, List.append_nil]
  have delivers : ∀ others, inboxOf others = inboxOf deliveries →
      inboxOf (if config.inbox && !existsForRun .inbox others then
        others ++ [run.announcement] else others) =
        if (inboxOf deliveries).isEmpty then [run.announcement] else inboxOf deliveries := by
    intro others same
    rw [inbox, Bool.true_and, existsForRun_inbox, Bool.not_not, same]
    split
    · next vacant =>
        have none : inboxOf others = [] := same.trans (List.isEmpty_iff.mp vacant)
        have last : inboxOf (others ++ [run.announcement]) = inboxOf others ++ [run.announcement] := by
          unfold inboxOf
          rw [List.filter_append]
          rfl
        rw [last, none, List.nil_append]
    · exact same
  unfold deliverRun
  rw [if_pos terminal]
  apply delivers
  split
  · exact digested _ fun delivery member => by
      obtain rfl := List.mem_singleton.mp member
      rfl
  · rfl

/-- All outcomes but the owed one are told, and the inbox holds the first of them. -/
structure Announces (config : ScheduleDelivery) (events : List Event) (owed : Option RunRow) : Prop where
  last : ∀ run, owed = some run → run.status.isTerminal = true ∧
    (events.foldl (Delivered.record config) ⟨none, []⟩).run = some run
  told : ∃ told, outcomes events = told ++ owed.toList ∧
    inboxOf (runDeliveries config events) = (told.take 1).map RunRow.announcement

theorem outcomes_snoc (events : List Event) (event : Event) :
    outcomes (events ++ [event]) = outcomes events ++ event.outcome.toList := by
  unfold outcomes
  rw [List.filterMap_append]
  cases ends : event.outcome <;> simp [ends]

theorem record_snoc (events : List Event) (event : Event) :
    (events ++ [event]).foldl (Delivered.record config) ⟨none, []⟩ =
      (events.foldl (Delivered.record config) ⟨none, []⟩).record config event := by
  rw [List.foldl_append]
  rfl

/-- Events that pay what they owe announce their outcomes. -/
theorem announces_of_owe (inbox : config.inbox = true)
    (owes : events.foldlM owe none = some owed) : Announces config events owed := by
  induction events using List.reverseRecOn generalizing owed with
  | nil =>
      obtain rfl := Option.some.inj owes
      exact ⟨fun run owing => by contradiction, [], rfl, rfl⟩
  | append_singleton events event ih =>
      rw [List.foldlM_append] at owes
      obtain ⟨earlier, before, steps⟩ := Option.bind_eq_some_iff.mp owes
      obtain ⟨owed', steps, same⟩ := Option.bind_eq_some_iff.mp steps
      obtain rfl := Option.some.inj same
      obtain ⟨last, told, splits, holds⟩ := ih before
      cases event with
      | change writer cause row draft =>
          cases earlier with
          | some run => contradiction
          | none =>
              obtain rfl := Option.some.inj steps
              refine ⟨fun run owing => ?_, told, ?_, ?_⟩
              · refine ⟨outcome_terminal owing, ?_⟩
                rw [record_snoc]
                have same : draft = run := by
                  unfold Event.outcome at owing
                  split at owing
                  · next changed =>
                      cases changed
                      split at owing
                      · exact Option.some.inj owing
                      · contradiction
                  · contradiction
                rw [← same]
                rfl
              · rw [outcomes_snoc, splits, Option.toList_none, List.append_nil]
              · rw [← holds]
                unfold runDeliveries
                rw [record_snoc]
                rfl
      | effect writer written =>
          have nothing : outcomes (events ++ [Event.effect writer written]) = outcomes events := by
            rw [outcomes_snoc]
            exact List.append_nil _
          by_cases delivers : written = .delivered
          · subst delivers
            cases earlier with
            | none => contradiction
            | some run =>
                obtain rfl := Option.some.inj steps
                obtain ⟨terminal, at_⟩ := last run rfl
                refine ⟨fun run owing => by contradiction, told ++ [run], ?_, ?_⟩
                · rw [nothing, splits]
                  simp
                · unfold runDeliveries at holds ⊢
                  rw [record_snoc]
                  simp only [Delivered.record, at_, if_true]
                  rw [inboxOf_deliverRun inbox terminal, holds]
                  cases told <;> rfl
          · have same : (events ++ [Event.effect writer written]).foldl (Delivered.record config)
                ⟨none, []⟩ = events.foldl (Delivered.record config) ⟨none, []⟩ := by
              rw [record_snoc]
              simp only [Delivered.record, if_neg delivers]
            have kept : owed' = earlier := by
              cases earlier with
              | none => simpa [owe, delivers] using steps.symm
              | some run => simpa [owe, delivers] using steps.symm
            subst kept
            refine ⟨fun run owing => ?_, told, nothing.trans splits, ?_⟩
            · rw [same]
              exact last run owing
            · unfold runDeliveries at holds ⊢
              rw [same]
              exact holds

/-- Events that owe nothing announce the first outcome only, so they announce every one just when there
is at most one. -/
theorem announced_iff (inbox : config.inbox = true) (pays : events.foldlM owe none = some none) :
    inboxOf (runDeliveries config events) = (outcomes events).map RunRow.announcement ↔
      (outcomes events).length ≤ 1 := by
  obtain ⟨_, told, splits, holds⟩ := announces_of_owe inbox pays
  rw [Option.toList_none, List.append_nil] at splits
  rw [holds, ← splits]
  constructor
  · intro same
    have lengths := congrArg List.length same
    simp only [List.length_map, List.length_take] at lengths
    omega
  · intro short
    rw [List.take_of_length_le short]

/-- An open transaction owes one outcome for each delivery that its phase has left. -/
def Transaction.Pays (_ : RunRow) (phase : Phase) (transaction : Transaction) : Prop :=
  ∃ owed, transaction.buffered.foldlM owe none = some owed ∧
    phase.todo.count .delivered = owed.toList.length

/-- The log owes nothing. -/
structure State.Paid (state : State) : Prop where
  log : state.log.foldlM owe none = some none
  locks : state.Locks Transaction.Pays

theorem State.initial_paid (row : RunRow) : (State.initial row).Paid := ⟨rfl, State.initial_locks row⟩

theorem State.Paid.moves (paid : state.Paid) (i : Nat) (phase : Phase)
    (outside : (state.processes i).inTransaction = false) (enters : phase.inTransaction = false) :
    (state.goto i phase).Paid :=
  ⟨paid.log, paid.locks.moves i phase outside enters⟩

theorem State.Paid.releases (paid : state.Paid) (i : Nat) (phase : Phase)
    (enters : phase.inTransaction = false) : ((state.rollback i).goto i phase).Paid := by
  refine ⟨?_, paid.locks.releases i phase enters⟩
  change (state.rollback i).log.foldlM owe none = some none
  rw [state.rollback_log]
  exact paid.log

theorem State.Paid.transacted (paid : state.Paid) (i : Nat) (phase : Phase) (transaction : Transaction)
    (own : transaction.holder = i)
    (free : state.lock = none ∨ ∃ earlier, state.lock = some earlier ∧ earlier.holder = i)
    (stays : phase.inTransaction = true) (pays : transaction.Pays state.row phase) :
    ({ state with lock := some transaction }.goto i phase).Paid :=
  ⟨paid.log, paid.locks.transacted i phase transaction own free stays pays⟩

/-- An update outside the transactions opens one that owes what it ends. -/
theorem State.Paid.updates (paid : state.Paid) (i : Nat) (cause : Cause)
    (write : RunRow → Option RunRow) (won : Phase)
    (outside : (state.processes i).inTransaction = false) (stays : won.inTransaction = true)
    (owes : ∀ row, write state.row = some row →
      won.todo.count .delivered = (Event.change i cause state.row row).outcome.toList.length)
    (updates : state.update i cause write won .done = some after) : after.Paid := by
  rcases paid.locks.update_outside i cause write won .done outside updates with
    rfl | ⟨row, writes, unlocked, rfl⟩
  · exact paid.moves i .done outside rfl
  · exact paid.transacted i won _ rfl (Or.inl unlocked) stays ⟨_, rfl, owes row writes⟩

variable {row : RunRow}

/-- An update inside a transaction that owes nothing owes what it ends. -/
theorem Transaction.Pays.extending {phase : Phase} {transaction : Transaction}
    (pays : transaction.Pays row phase) (i : Nat) (cause : Cause) (won : Phase) (draft : RunRow)
    (idle : phase.todo = []) (owes : won.todo.count .delivered =
      (Event.change i cause transaction.draft draft).outcome.toList.length) :
    Transaction.Pays row won
      ⟨i, draft, transaction.buffered ++ [.change i cause transaction.draft draft]⟩ := by
  obtain ⟨owed, folds, left⟩ := pays
  rw [idle, List.count_nil] at left
  have none : owed = none := by
    cases owed with
    | none => rfl
    | some run => simp at left
  subst none
  refine ⟨_, ?_, owes⟩
  rw [List.foldlM_append, folds]
  rfl

variable {cause : Cause} {draft : RunRow}

theorem outcome_worked (i : Nat) (worker : cause ≠ .control)
    (active : row.status.isTerminal = false) (ended : draft.status.isTerminal = true) :
    (Event.change i cause row draft).outcome = some draft := by
  simp [Event.outcome, worker, active, ended]

theorem outcome_control (i : Nat) (row draft : RunRow) :
    (Event.change i .control row draft).outcome = none := by
  simp [Event.outcome]

theorem outcome_active (i : Nat) (active : draft.status.isTerminal = false) :
    (Event.change i cause row draft).outcome = none := by
  simp [Event.outcome, active]

theorem outcome_same (i : Nat) (same : draft.status = row.status) :
    (Event.change i cause row draft).outcome = none := by
  simp only [Event.outcome, same]
  cases row.status.isTerminal <;> simp

theorem Outcome.terminalStatus_terminal (outcome : Outcome) : outcome.terminalStatus.isTerminal = true := by
  unfold Outcome.terminalStatus classifyTerminal
  cases outcome.succeeded <;> cases shouldEscalate outcome.error <;> rfl

theorem finishEffects_delivered (status : RunStatus) : (finishEffects status).count .delivered = 1 := by
  cases status <;> rfl

/-- A failure by an execution, its backstop or the reaper owes its delivery. -/
theorem State.Paid.settles (paid : state.Paid) (i : Nat) (cause : Cause)
    (write : RunRow → Option RunRow) (won : Phase)
    (outside : (state.processes i).inTransaction = false) (stays : won.inTransaction = true)
    (worker : cause ≠ .control) (delivers : won.todo.count .delivered = 1)
    (ends : ∀ row, write state.row = some row →
      state.row.status.isTerminal = false ∧ row.status.isTerminal = true)
    (updates : state.update i cause write won .done = some after) : after.Paid := by
  refine paid.updates i cause write won outside stays (fun row writes => ?_) updates
  rw [outcome_worked i worker (ends row writes).1 (ends row writes).2, delivers]
  rfl

theorem State.Paid.refused (paid : state.Paid) (i : Nat) (finishedAt : Int) (error : RunError)
    (refuses : state.refuse i finishedAt error = some after) : after.Paid := by
  obtain ⟨attempt, claim, seen, claimed, refuses⟩ := State.refuse_cases refuses
  obtain ⟨transaction, lock, mine, pays, ends⟩ := paid.locks.update_inside i _ _ _ _
    (by simp [claimed, Phase.inTransaction]) refuses
  rw [claimed] at pays
  rcases ends with ⟨-, rfl⟩ | ⟨row, writes, rfl⟩
  · have same : ({ state with lock := some transaction } : State) = state := by rw [← lock]
    rw [← same]
    exact paid.transacted i _ transaction mine (Or.inr ⟨transaction, lock, mine⟩) rfl pays
  · have guarded := RunRow.markTerminal_guarded _ _ _ _ _ writes
    refine paid.transacted i _ _ rfl (Or.inr ⟨transaction, lock, mine⟩) rfl
      (pays.extending i (.claimant claim) _ row rfl ?_)
    rw [outcome_worked i (by simp) (by rw [guarded.1]; rfl) (by rw [guarded.2.2.1]; rfl)]
    rfl

theorem State.Paid.prepared (paid : state.Paid) (i : Nat) (newSession : Nat)
    (prepares : state.prepare i newSession = some after) : after.Paid := by
  obtain ⟨attempt, claim, seen, claimed, prepares⟩ := State.prepare_cases prepares
  have inside : (state.processes i).inTransaction = true := by simp [claimed, Phase.inTransaction]
  rcases prepares with ⟨session, rfl⟩ | prepares
  · obtain ⟨transaction, lock, mine⟩ := paid.locks.locked i inside
    have pays := mine ▸ paid.locks.transacts transaction lock
    rw [claimed] at pays
    have same : ({ state with lock := some transaction } : State) = state := by rw [← lock]
    rw [← same]
    exact paid.transacted i _ transaction mine (Or.inr ⟨transaction, lock, mine⟩) rfl pays
  · obtain ⟨transaction, lock, mine, pays, ends⟩ := paid.locks.update_inside i _ _ _ _ inside prepares
    rw [claimed] at pays
    rcases ends with ⟨lost, -⟩ | ⟨row, writes, rfl⟩
    · contradiction
    · obtain rfl := Option.some.inj writes
      refine paid.transacted i _ _ rfl (Or.inr ⟨transaction, lock, mine⟩) rfl
        (pays.extending i (.claimant claim) _ _ rfl ?_)
      rw [outcome_same i (RunRow.attachSession_status newSession _)]
      rfl

/-- A control owes nothing. -/
theorem State.Paid.controlled (paid : state.Paid) (i : Nat) (finishedAt : Int)
    (acts : state.control i finishedAt = some after) : after.Paid := by
  rcases State.control_cases acts with ⟨seen, deciding, updates⟩ | ⟨seen, error, deciding, updates⟩ |
    ⟨seen, rerouting, updates⟩
  · exact paid.updates i .control _ _ (by simp [deciding, Phase.inTransaction]) rfl
      (fun row _ => by rw [outcome_control]; rfl) updates
  · exact paid.updates i .control _ _ (by simp [deciding, Phase.inTransaction]) rfl
      (fun row _ => by rw [outcome_control]; rfl) updates
  · obtain ⟨transaction, lock, mine, pays, ends⟩ := paid.locks.update_inside i _ _ _ _
      (by simp [rerouting, Phase.inTransaction]) updates
    rw [rerouting] at pays
    rcases ends with ⟨lost, -⟩ | ⟨row, writes, rfl⟩
    · contradiction
    · refine paid.transacted i _ _ rfl (Or.inr ⟨transaction, lock, mine⟩) rfl
        (pays.extending i .control _ row rfl ?_)
      rw [outcome_control]
      rfl

/-- A delivery pays the outcome that is owed, and another effect keeps it. -/
theorem State.Paid.emitted (paid : state.Paid) (i : Nat) (emits : state.emit i false = some after) :
    after.Paid := by
  obtain ⟨held, rescued, effect, todo, next, transaction, writing, lock, mine, ends⟩ :=
    State.emit_cases i false emits
  have buffers : after = { state with lock := some { transaction with
      buffered := transaction.buffered ++ [Event.effect i effect] } }.goto i
        (.writing held rescued todo next) := by
    subst mine
    simp only [State.emit, writing, lock, if_true, Bool.false_eq_true, if_false] at emits
    exact (Option.some.inj emits).symm
  subst buffers
  have pays := mine ▸ paid.locks.transacts transaction lock
  rw [writing] at pays
  obtain ⟨owed, folds, left⟩ := pays
  simp only [Phase.todo, List.count_cons] at left
  refine paid.transacted i _ _ mine (Or.inr ⟨transaction, lock, mine⟩) rfl ?_
  have continues : ∀ step, owe owed (Event.effect i effect) = some step →
      (transaction.buffered ++ [Event.effect i effect]).foldlM owe none = some step := by
    intro step pays
    rw [List.foldlM_append, folds]
    simp [pays]
  by_cases delivers : effect = .delivered
  · subst delivers
    cases owed with
    | none => simp at left
    | some run => exact ⟨none, continues none rfl, by simpa [Phase.todo] using left⟩
  · have kept : owe owed (Event.effect i effect) = some owed := by
      cases owed <;> simp [owe, delivers]
    refine ⟨owed, continues owed kept, ?_⟩
    simpa [delivers, Phase.todo] using left

theorem State.Paid.committed (paid : state.Paid) (i : Nat) (commits : state.commit i = some after) :
    after.Paid := by
  obtain ⟨held, rescued, next, transaction, writing, lock, mine, rfl⟩ := State.commit_cases i commits
  obtain ⟨owed, folds, left⟩ := paid.locks.transacts transaction lock
  rw [mine, writing] at left
  refine ⟨?_, paid.locks.commits i next transaction lock mine _ _⟩
  have none : owed = none := by
    cases owed with
    | none => rfl
    | some run => simp [Phase.todo] at left
  subst none
  change (state.log ++ transaction.buffered).foldlM owe none = some none
  rw [List.foldlM_append, paid.log]
  exact folds

/-- Every step whose inserts succeed keeps the log paid. -/
theorem step_paid (maxRetries : Nat) (action : Action) (paid : state.Paid)
    (inserts : action.inserts = true) (steps : step maxRetries state action = some after) :
    after.Paid := by
  cases action with
  | spawn i phase =>
      simp only [step] at steps
      split at steps
      · next enters =>
          obtain rfl := Option.some.inj steps
          have initial := enters.2
          refine paid.moves i phase (by simp [enters.1, Phase.inTransaction]) ?_
          cases phase <;> simp_all [Phase.isInitial, Phase.inTransaction]
      · contradiction
  | observe i =>
      obtain ⟨attempt, starting, ⟨-, rfl⟩ | rfl⟩ := State.observe_cases steps
      · exact paid.moves i _ (by simp [starting, Phase.inTransaction]) rfl
      · exact paid.moves i _ (by simp [starting, Phase.inTransaction]) rfl
  | claim i now =>
      obtain ⟨attempt, seen, observed, wins⟩ := State.claim_cases steps
      refine paid.updates i .system _ _ (by simp [observed, Phase.inTransaction]) rfl ?_ wins
      intro row writes
      rw [outcome_active i (by rw [(RunRow.markRunning_guarded _ _ _ _ writes).2.2.1]; rfl)]
      rfl
  | refuse i finishedAt error => exact paid.refused i finishedAt error steps
  | prepare i newSession => exact paid.prepared i newSession steps
  | requeue i outcome =>
      obtain ⟨attempt, claim, session, executing, requeues⟩ := State.requeue_cases steps
      refine paid.updates i (.claimant claim) _ _ (by simp [executing, Phase.inTransaction]) rfl ?_ requeues
      intro row writes
      rw [outcome_active i (by rw [(RunRow.markQueued_guarded _ _ _ _ writes).2.2.1]; rfl)]
      rfl
  | fold i outcome =>
      obtain ⟨attempt, claim, session, executing, rfl | rfl⟩ := State.fold_cases steps
      · exact paid.moves i _ (by simp [executing, Phase.inTransaction]) rfl
      · exact paid.moves i _ (by simp [executing, Phase.inTransaction]) rfl
  | finish i finishedAt =>
      obtain ⟨claim, session, outcome, messageId, settling, finishes⟩ := State.finish_cases steps
      refine paid.settles i (.claimant claim) _
        (.writing (some claim) true (finishEffects outcome.terminalStatus) .stop)
        (by simp [settling, Phase.inTransaction]) rfl (by simp) (finishEffects_delivered _) ?_ finishes
      intro row writes
      have guarded := RunRow.markTerminal_guarded _ _ _ _ _ writes
      exact ⟨by rw [guarded.1]; rfl, by rw [guarded.2.2.1]; exact outcome.terminalStatus_terminal⟩
  | publish i succeeds =>
      obtain ⟨claim, retrying, rfl⟩ := State.publish_cases steps
      refine paid.moves i _ (by simp [retrying, Phase.inTransaction]) ?_
      cases succeeds <;> rfl
  | ensure i finishedAt error =>
      obtain ⟨claim, retryStartedAt, ensuring, ensures⟩ := State.ensure_cases steps
      refine paid.settles i (.of claim) _ _ (by simp [ensuring, Phase.inTransaction]) rfl
        (Cause.of_ne_control claim) rfl ?_ ensures
      intro row writes
      have guarded := RunRow.markTerminal_guarded _ _ _ _ _ writes
      refine ⟨?_, by rw [guarded.2.2.1]; rfl⟩
      rw [guarded.1]
      cases retryStartedAt <;> rfl
  | reap i finishedAt =>
      obtain ⟨olderThan, error, reaping, reaps⟩ := State.reap_cases steps
      refine paid.settles i .system _ _ (by simp [reaping, Phase.inTransaction]) rfl (by simp) rfl ?_ reaps
      intro row writes
      have guarded := RunRow.failStaleRunning_guarded _ _ _ _ _ writes
      exact ⟨guarded.1, by rw [guarded.2.1]; rfl⟩
  | load i =>
      obtain ⟨control, caller, requesting, ⟨-, rfl⟩ | rfl⟩ := State.load_cases steps
      · exact paid.moves i _ (by simp [requesting, Phase.inTransaction]) rfl
      · exact paid.moves i _ (by simp [requesting, Phase.inTransaction]) rfl
  | reassign i targetExists =>
      obtain ⟨toOwner, seen, deciding, rfl | updates⟩ := State.reassign_cases steps
      · exact paid.moves i _ (by simp [deciding, Phase.inTransaction]) rfl
      · exact paid.updates i .control _ _ (by simp [deciding, Phase.inTransaction]) rfl
          (fun row _ => by rw [outcome_control]; rfl) updates
  | control i finishedAt => exact paid.controlled i finishedAt steps
  | emit i fails =>
      obtain rfl : fails = false := by simpa [Action.inserts] using inserts
      exact paid.emitted i steps
  | commit i => exact paid.committed i steps
  | raise i retries =>
      obtain ⟨phase, raises, rfl⟩ := Option.map_eq_some_iff.mp steps
      exact paid.releases i phase (Phase.afterRaise_outside _ _ retries raises).1
  | crash i =>
      obtain rfl := Option.some.inj steps
      exact paid.releases i .done rfl

/-- The inbox announces every outcome of a run exactly once just when the run has at most one. -/
theorem runDeliveries_announce (maxRetries ownerId : Nat) (createdAt : Int) (config : ScheduleDelivery)
    (inbox : config.inbox = true) (actions : List Action) (state : State)
    (runs : Runs (step maxRetries) (fun _ action => action.inserts = true)
      (State.initial (.enqueued ownerId createdAt)) actions state) :
    (runDeliveries config state.log).filter (fun delivery => delivery.kind = .inbox) =
        (outcomes state.log).map RunRow.announcement ↔ (outcomes state.log).length ≤ 1 := by
  have paid := runs.invariant State.Paid
    (fun before action after paid inserts steps => step_paid maxRetries action paid inserts steps)
    (State.initial_paid _)
  exact announced_iff inbox paid.log

section Example

/-- An escalated run that is resumed has one outcome so far, and its inbox announces it. -/
theorem runDeliveries_announce_escalated :
    ∃ state, Runs (step 3) (fun _ action => action.inserts = true) (State.initial (.enqueued 5 0))
        escalatedResume state ∧ (outcomes state.log).length = 1 ∧
      (runDeliveries {} state.log).filter (fun delivery => delivery.kind = .inbox) =
        (outcomes state.log).map RunRow.announcement := by
  have executed : ((execute (guarded (step 3) fun _ action => action.inserts)
      (State.initial (.enqueued 5 0)) escalatedResume).map
        fun state => (outcomes state.log).length) = some 1 := by decide
  obtain ⟨state, executes, once⟩ := Option.map_eq_some_iff.mp executed
  have runs := Runs.of_execute executes
  exact ⟨state, runs, once,
    (runDeliveries_announce 3 5 0 {} rfl escalatedResume state runs).mpr once.le⟩

/-- The resumed run succeeds. -/
def escalatedSuccess : List Action :=
  escalatedResume ++ [.spawn 2 (.starting 0), .observe 2, .claim 2 20, .prepare 2 4, .emit 2 false,
    .commit 2, .fold 2 { succeeded := true, summary := some ['s'], messageId := some 6 }, .finish 2 29,
    .emit 2 false, .emit 2 false, .emit 2 false, .commit 2]

/-- The success of the resumed run is announced to nobody. -/
theorem runDeliveries_silent :
    ∃ state, Runs (step 3) (fun _ action => action.inserts = true) (State.initial (.enqueued 5 0))
        escalatedSuccess state ∧
      (outcomes state.log).map RunRow.status = [.escalated, .succeeded] ∧
      runDeliveries {} state.log = [⟨5, .inbox, .delivered, none⟩] ∧
      (runDeliveries {} state.log).filter (fun delivery => delivery.kind = .inbox) ≠
        (outcomes state.log).map RunRow.announcement := by
  have executed : ((execute (guarded (step 3) fun _ action => action.inserts)
      (State.initial (.enqueued 5 0)) escalatedSuccess).map
        fun state => ((outcomes state.log).map RunRow.status, runDeliveries {} state.log,
          decide ((runDeliveries {} state.log).filter (fun delivery => delivery.kind = .inbox) =
            (outcomes state.log).map RunRow.announcement))) =
      some ([.escalated, .succeeded], [⟨5, .inbox, .delivered, none⟩], false) := by decide
  obtain ⟨state, executes, facts⟩ := Option.map_eq_some_iff.mp executed
  obtain ⟨statuses, rest⟩ := Prod.mk.inj facts
  obtain ⟨deliveries, silent⟩ := Prod.mk.inj rest
  exact ⟨state, Runs.of_execute executes, statuses, deliveries, of_decide_eq_false silent⟩

end Example

end LumenCopilot.Runs
