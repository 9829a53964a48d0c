import LumenCopilot.Proof.Library.Transition
import LumenCopilot.Proof.Runs.Locking
import LumenCopilot.Proof.Runs.Outcome
import LumenCopilot.Proof.Runs.Steps
import Mathlib

namespace LumenCopilot.Runs

open Library

/-- This event moves the row into the escalated status. -/
def Event.escalates : Event → Bool
  | .change _ _ before after => before.status ≠ .escalated && after.status = .escalated
  | .effect _ _ => false

/-- This event is the audit of a control that succeeded. -/
def Event.controls : Event → Bool
  | .effect _ written => written = .controlled
  | .change _ _ _ _ => false

def escalations (events : List Event) : Nat := events.countP Event.escalates

def controls (events : List Event) : Nat := events.countP Event.controls

def RunRow.escalated (row : RunRow) : Nat := if row.status = .escalated then 1 else 0

/-- The write of a control is fresh when the run still has the status that the control read. -/
def Action.isFresh (state : State) : Action → Bool
  | .reassign i _ | .control i _ =>
      match state.processes i with
      | .deciding _ seen => state.row.status = seen.status
      | _ => true
  | _ => true

theorem escalations_append (first second : List Event) :
    escalations (first ++ second) = escalations first + escalations second :=
  List.countP_append

theorem controls_append (first second : List Event) :
    controls (first ++ second) = controls first + controls second :=
  List.countP_append

theorem controls_change (writer : Nat) (cause : Cause) (before after : RunRow) :
    controls [.change writer cause before after] = 0 := rfl

theorem escalations_effect (writer : Nat) (written : Effect) :
    escalations [.effect writer written] = 0 := rfl

theorem controls_effect (writer : Nat) (written : Effect) :
    controls [.effect writer written] = if written = .controlled then 1 else 0 := by
  cases written <;> rfl

/-- A change of a row that is not escalated, or that keeps its status, ends no escalation. -/
theorem escalations_change (writer : Nat) (cause : Cause) (before after : RunRow)
    (kept : before.status ≠ .escalated ∨ after.status = before.status) :
    escalations [.change writer cause before after] + before.escalated = after.escalated := by
  by_cases escalated : before.status = .escalated
  · rcases kept with unescalated | same
    · exact absurd escalated unescalated
    · simp [escalations, Event.escalates, escalated, RunRow.escalated, same]
  · simp [escalations, Event.escalates, escalated, RunRow.escalated, List.countP_cons]

/-- A change of an escalated row to another status ends its escalation. -/
theorem escalations_change_ends (writer : Nat) (cause : Cause) (before after : RunRow)
    (escalated : before.status = .escalated) (ends : after.status ≠ .escalated) :
    escalations [.change writer cause before after] + before.escalated = 1 + after.escalated := by
  simp [escalations, Event.escalates, escalated, RunRow.escalated, ends]

/-- A control only changes an escalated row. -/
def Event.OnEscalated (event : Event) : Prop :=
  ∀ writer before after, event = .change writer .control before after → before.status = .escalated

theorem Event.effect_onEscalated (writer : Nat) (written : Effect) :
    (Event.effect writer written).OnEscalated := by
  rintro other before after same
  contradiction

theorem Event.change_onEscalated (writer : Nat) (cause : Cause) (before after : RunRow)
    (escalated : cause = .control → before.status = .escalated) :
    (Event.change writer cause before after).OnEscalated := by
  rintro other first second same
  obtain ⟨-, rfl, rfl, rfl⟩ := Event.change.inj same
  exact escalated rfl

/-- An open transaction balances its escalation, its control and the status of its draft. -/
structure Transaction.Balanced (row : RunRow) (phase : Phase) (transaction : Transaction) : Prop where
  balance : escalations transaction.buffered + row.escalated =
    controls transaction.buffered + phase.todo.count .controlled + transaction.draft.escalated
  guarded : ∀ event ∈ transaction.buffered, event.OnEscalated
  rerouting : ∀ seen, phase = .rerouting seen → transaction.draft.status = .escalated

/-- The invariant of the system with fresh owner controls. -/
structure State.Controlled (state : State) : Prop where
  balance : escalations state.log = controls state.log + state.row.escalated
  guarded : ∀ event ∈ state.log, event.OnEscalated
  deciding : ∀ i control seen, state.processes i = .deciding control seen → seen.status = .escalated
  locks : state.Locks Transaction.Balanced

theorem State.initial_controlled (ownerId : Nat) (createdAt : Int) :
    (State.initial (.enqueued ownerId createdAt)).Controlled := by
  refine ⟨rfl, ?_, ?_, State.initial_locks _⟩ <;> simp [State.initial]

theorem State.goto_deciding (state : State) (i : Nat) (phase : Phase)
    (before : ∀ j control seen, state.processes j = .deciding control seen → seen.status = .escalated)
    (now : ∀ control seen, phase = .deciding control seen → seen.status = .escalated) :
    ∀ j control seen, (state.goto i phase).processes j = .deciding control seen →
      seen.status = .escalated :=
  state.goto_all i phase
    (fun _ there => ∀ control seen, there = .deciding control seen → seen.status = .escalated)
    before now

/-- A process outside the transactions moves. -/
theorem State.Controlled.moves {state : State} (sound : state.Controlled) (i : Nat) (phase : Phase)
    (outside : (state.processes i).inTransaction = false) (enters : phase.inTransaction = false)
    (now : ∀ control seen, phase = .deciding control seen → seen.status = .escalated) :
    (state.goto i phase).Controlled :=
  ⟨sound.balance, sound.guarded, state.goto_deciding i phase sound.deciding now,
    sound.locks.moves i phase outside enters⟩

/-- A process leaves its transaction, if it has one, without a trace. -/
theorem State.Controlled.releases {state : State} (sound : state.Controlled) (i : Nat) (phase : Phase)
    (enters : phase.inTransaction = false)
    (now : ∀ control seen, phase = .deciding control seen → seen.status = .escalated) :
    ((state.rollback i).goto i phase).Controlled := by
  refine ⟨?_, ?_, (state.rollback i).goto_deciding i phase ?_ now,
    sound.locks.releases i phase enters⟩
  · change escalations (state.rollback i).log =
      controls (state.rollback i).log + (state.rollback i).row.escalated
    rw [state.rollback_log, state.rollback_row]
    exact sound.balance
  · change ∀ event ∈ (state.rollback i).log, event.OnEscalated
    rw [state.rollback_log]
    exact sound.guarded
  · rw [state.rollback_processes]
    exact sound.deciding

/-- A process opens or continues its transaction. -/
theorem State.Controlled.transacted {state : State} (sound : state.Controlled) (i : Nat)
    (phase : Phase) (transaction : Transaction) (own : transaction.holder = i)
    (free : state.lock = none ∨ ∃ earlier, state.lock = some earlier ∧ earlier.holder = i)
    (stays : phase.inTransaction = true) (kept : transaction.Balanced state.row phase) :
    ({ state with lock := some transaction }.goto i phase).Controlled := by
  let opened : State := { state with lock := some transaction }
  refine ⟨sound.balance, sound.guarded, opened.goto_deciding i phase sound.deciding ?_,
    sound.locks.transacted i phase transaction own free stays kept⟩
  rintro control seen rfl
  contradiction

/-- An update of a process outside the transactions opens a transaction or ends the process. -/
theorem State.Controlled.updates {state after : State} (sound : state.Controlled) (i : Nat)
    (cause : Cause) (write : RunRow → Option RunRow) (won : Phase)
    (outside : (state.processes i).inTransaction = false) (stays : won.inTransaction = true)
    (opens : ∀ row, write state.row = some row →
      Transaction.Balanced state.row won ⟨i, row, [.change i cause state.row row]⟩)
    (updates : state.update i cause write won .done = some after) : after.Controlled := by
  rcases sound.locks.update_outside i cause write won .done outside updates with
    rfl | ⟨row, writes, unlocked, rfl⟩
  · exact sound.moves i .done outside rfl (by simp)
  · exact sound.transacted i won _ rfl (Or.inl unlocked) stays (opens row writes)

/-- A won write opens a balanced transaction when it audits what it ends. -/
theorem Transaction.Balanced.opening (i : Nat) (cause : Cause) (phase : Phase) (row draft : RunRow)
    (escalated : cause = .control → row.status = .escalated)
    (ends : escalations [.change i cause row draft] + row.escalated =
      phase.todo.count .controlled + draft.escalated)
    (rerouting : ∀ seen, phase = .rerouting seen → draft.status = .escalated) :
    Transaction.Balanced row phase ⟨i, draft, [.change i cause row draft]⟩ where
  balance := by
    dsimp only
    rw [controls_change]
    omega
  guarded := List.forall_mem_singleton.mpr (Event.change_onEscalated i cause row draft escalated)
  rerouting := rerouting

/-- A won write continues a balanced transaction when it audits what it ends. -/
theorem Transaction.Balanced.extending {row : RunRow} {phase : Phase} {transaction : Transaction}
    (kept : transaction.Balanced row phase) (i : Nat) (cause : Cause) (next : Phase) (draft : RunRow)
    (idle : phase.todo = []) (escalated : cause = .control → transaction.draft.status = .escalated)
    (ends : escalations [.change i cause transaction.draft draft] + transaction.draft.escalated =
      next.todo.count .controlled + draft.escalated)
    (rerouting : ∀ seen, next ≠ .rerouting seen) :
    Transaction.Balanced row next
      ⟨i, draft, transaction.buffered ++ [.change i cause transaction.draft draft]⟩ where
  balance := by
    have before := kept.balance
    rw [idle, List.count_nil] at before
    dsimp only
    rw [escalations_append, controls_append, controls_change]
    omega
  guarded := List.forall_mem_append.mpr ⟨kept.guarded, List.forall_mem_singleton.mpr
    (Event.change_onEscalated i cause transaction.draft draft escalated)⟩
  rerouting := fun seen same => absurd same (rerouting seen)

section

variable {state after : State} (sound : state.Controlled)
include sound

/-- A worker that writes an active row outside the transactions keeps the invariant. -/
theorem State.Controlled.worked (i : Nat) (cause : Cause) (write : RunRow → Option RunRow)
    (won : Phase) (outside : (state.processes i).inTransaction = false)
    (stays : won.inTransaction = true) (notControl : cause ≠ .control)
    (audits : won.todo.count .controlled = 0) (notRerouting : ∀ seen, won ≠ .rerouting seen)
    (active : ∀ row, write state.row = some row → state.row.status ≠ .escalated)
    (updates : state.update i cause write won .done = some after) : after.Controlled := by
  refine sound.updates i cause write won outside stays ?_ updates
  intro row writes
  refine Transaction.Balanced.opening i cause won state.row row (fun control => absurd control notControl)
    ?_ (fun seen same => absurd same (notRerouting seen))
  rw [escalations_change i cause state.row row (Or.inl (active row writes)), audits, Nat.zero_add]

theorem State.Controlled.claimed (i : Nat) (now : Int) (wins : state.claim i now = some after) :
    after.Controlled := by
  obtain ⟨attempt, seen, observed, wins⟩ := State.claim_cases wins
  refine sound.worked i .system _ _ (by simp [observed, Phase.inTransaction]) rfl (by simp) rfl
    (by simp) ?_ wins
  intro row writes
  simp [(RunRow.markRunning_guarded _ _ _ _ writes).1]

theorem State.Controlled.refused (i : Nat) (finishedAt : Int) (error : RunError)
    (refuses : state.refuse i finishedAt error = some after) : after.Controlled := by
  obtain ⟨attempt, claim, seen, claimed, refuses⟩ := State.refuse_cases refuses
  obtain ⟨transaction, lock, mine, kept, ends⟩ := sound.locks.update_inside i _ _ _ _
    (by simp [claimed, Phase.inTransaction]) refuses
  rw [claimed] at kept
  rcases ends with ⟨-, rfl⟩ | ⟨row, writes, rfl⟩
  · have same : ({ state with lock := some transaction } : State) = state := by rw [← lock]
    rw [← same]
    exact sound.transacted i _ transaction mine (Or.inr ⟨transaction, lock, mine⟩) rfl
      ⟨kept.balance, kept.guarded, by simp⟩
  · have running := (RunRow.markTerminal_guarded _ _ _ _ _ writes).1
    refine sound.transacted i _ _ rfl (Or.inr ⟨transaction, lock, mine⟩) rfl
      (kept.extending i (.claimant claim) _ row rfl (by simp) ?_ (by simp))
    rw [escalations_change i _ _ row (Or.inl (by simp [running]))]
    exact (Nat.zero_add _).symm

theorem State.Controlled.prepared (i : Nat) (newSession : Nat)
    (prepares : state.prepare i newSession = some after) : after.Controlled := by
  obtain ⟨attempt, claim, seen, claimed, prepares⟩ := State.prepare_cases prepares
  have inside : (state.processes i).inTransaction = true := by simp [claimed, Phase.inTransaction]
  rcases prepares with ⟨session, rfl⟩ | prepares
  · obtain ⟨transaction, lock, mine⟩ := sound.locks.locked i inside
    have kept := mine ▸ sound.locks.transacts transaction lock
    rw [claimed] at kept
    have same : ({ state with lock := some transaction } : State) = state := by rw [← lock]
    rw [← same]
    exact sound.transacted i _ transaction mine (Or.inr ⟨transaction, lock, mine⟩) rfl
      ⟨kept.balance, kept.guarded, by simp⟩
  · obtain ⟨transaction, lock, mine, kept, ends⟩ := sound.locks.update_inside i _ _ _ _ inside prepares
    rw [claimed] at kept
    rcases ends with ⟨lost, -⟩ | ⟨row, writes, rfl⟩
    · contradiction
    · obtain rfl := Option.some.inj writes
      refine sound.transacted i _ _ rfl (Or.inr ⟨transaction, lock, mine⟩) rfl
        (kept.extending i (.claimant claim) _ _ rfl (by simp) ?_ (by simp))
      rw [escalations_change i _ _ _ (Or.inr (RunRow.attachSession_status newSession _))]
      exact (Nat.zero_add _).symm

theorem State.Controlled.requeued (maxRetries i : Nat) (outcome : Outcome)
    (requeues : state.requeue maxRetries i outcome = some after) : after.Controlled := by
  obtain ⟨attempt, claim, session, executing, requeues⟩ := State.requeue_cases requeues
  refine sound.worked i (.claimant claim) _ _ (by simp [executing, Phase.inTransaction]) rfl
    (by simp) rfl (by simp) ?_ requeues
  intro row writes
  simp [(RunRow.markQueued_guarded _ _ _ _ writes).1]

end

theorem finishEffects_controlled (status : RunStatus) :
    (finishEffects status).count .controlled = 0 := by
  cases status <;> rfl

theorem State.Controlled.finished {state after : State} (sound : state.Controlled) (i : Nat)
    (finishedAt : Int) (finishes : state.finish i finishedAt = some after) : after.Controlled := by
  obtain ⟨claim, session, outcome, messageId, settling, finishes⟩ := State.finish_cases finishes
  refine sound.worked i (.claimant claim) _
    (.writing (some claim) true (finishEffects outcome.terminalStatus) .stop)
    (by simp [settling, Phase.inTransaction]) rfl (by simp) (finishEffects_controlled _)
    (by simp) ?_ finishes
  intro row writes
  simp [(RunRow.markTerminal_guarded _ _ _ _ _ writes).1]

theorem Cause.of_ne_control (claim : Option Int) : Cause.of claim ≠ .control := by
  cases claim <;> simp [Cause.of]

theorem State.Controlled.ensured {state after : State} (sound : state.Controlled) (i : Nat)
    (finishedAt : Int) (error : RunError) (ensures : state.ensure i finishedAt error = some after) :
    after.Controlled := by
  obtain ⟨claim, retryStartedAt, ensuring, ensures⟩ := State.ensure_cases ensures
  refine sound.worked i (.of claim) _ _ (by simp [ensuring, Phase.inTransaction]) rfl
    (Cause.of_ne_control claim) rfl (by simp) ?_ ensures
  intro row writes
  rw [(RunRow.markTerminal_guarded _ _ _ _ _ writes).1]
  cases retryStartedAt <;> simp

theorem State.Controlled.reaped {state after : State} (sound : state.Controlled) (i : Nat)
    (finishedAt : Int) (reaps : state.reap i finishedAt = some after) : after.Controlled := by
  obtain ⟨olderThan, error, reaping, reaps⟩ := State.reap_cases reaps
  refine sound.worked i .system _ _ (by simp [reaping, Phase.inTransaction]) rfl (by simp) rfl
    (by simp) ?_ reaps
  intro row writes
  exact RunStatus.ne_escalated_of_active (RunRow.failStaleRunning_guarded _ _ _ _ _ writes).1

theorem State.Controlled.loaded {state after : State} (sound : state.Controlled) (i : Nat)
    (loads : state.load i = some after) : after.Controlled := by
  obtain ⟨control, caller, requesting, ends⟩ := State.load_cases loads
  have outside : (state.processes i).inTransaction = false := by
    simp [requesting, Phase.inTransaction]
  rcases ends with ⟨escalated, rfl⟩ | rfl
  · refine sound.moves i _ outside rfl ?_
    rintro other seen same
    obtain ⟨-, rfl⟩ := Phase.deciding.inj same
    exact escalated
  · exact sound.moves i _ outside rfl (by simp)

/-- A fresh control finds the row that it decided on still escalated. -/
theorem State.Controlled.fresh {state : State} (sound : state.Controlled) (i : Nat)
    (control : Control) (seen : RunRow) (deciding : state.processes i = .deciding control seen)
    (fresh : (Action.control i 0).isFresh state = true) : state.row.status = .escalated := by
  simp only [Action.isFresh, deciding, decide_eq_true_eq] at fresh
  exact fresh.trans (sound.deciding i control seen deciding)

section

variable {state after : State} (sound : state.Controlled) (i : Nat)
include sound

theorem State.Controlled.reassigned (targetExists : Bool)
    (fresh : (Action.reassign i targetExists).isFresh state = true)
    (reassigns : state.reassign i targetExists = some after) : after.Controlled := by
  obtain ⟨toOwner, seen, deciding, ends⟩ := State.reassign_cases reassigns
  have outside : (state.processes i).inTransaction = false := by
    simp [deciding, Phase.inTransaction]
  have escalated := sound.fresh i _ seen deciding fresh
  rcases ends with rfl | updates
  · exact sound.moves i _ outside rfl (by simp)
  · refine sound.updates i .control _ (.rerouting seen) outside rfl ?_ updates
    intro row writes
    obtain rfl := Option.some.inj writes
    refine Transaction.Balanced.opening i .control _ _ _ (fun _ => escalated) ?_
      (fun _ _ => escalated)
    have kept := escalations_change i .control state.row (state.row.reassignOwner toOwner) (Or.inr rfl)
    exact kept.trans (Nat.zero_add _).symm

/-- A fresh control that ends the escalation audits it. -/
theorem State.Controlled.decided (write : RunRow → Option RunRow)
    (outside : (state.processes i).inTransaction = false)
    (escalated : state.row.status = .escalated)
    (ends : ∀ row, write state.row = some row → row.status ≠ .escalated)
    (updates : state.update i .control write (.writing none false [.controlled] .stop) .done =
      some after) : after.Controlled := by
  refine sound.updates i .control write _ outside rfl ?_ updates
  intro row writes
  refine Transaction.Balanced.opening i .control _ _ row (fun _ => escalated) ?_ (by simp)
  exact escalations_change_ends i .control state.row row escalated (ends row writes)

theorem State.Controlled.controlled (finishedAt : Int)
    (fresh : (Action.control i finishedAt).isFresh state = true)
    (acts : state.control i finishedAt = some after) : after.Controlled := by
  rcases State.control_cases acts with ⟨seen, deciding, updates⟩ | ⟨seen, error, deciding, updates⟩ |
    ⟨seen, rerouting, updates⟩
  · refine sound.decided i _ (by simp [deciding, Phase.inTransaction])
      (sound.fresh i _ seen deciding fresh) ?_ updates
    rintro row writes
    obtain ⟨draft, queues, queued⟩ := state.row.markQueued_unguarded
    obtain rfl := Option.some.inj (queues.symm.trans writes)
    simp [queued]
  · refine sound.decided i _ (by simp [deciding, Phase.inTransaction])
      (sound.fresh i _ seen deciding fresh) ?_ updates
    rintro row writes
    obtain rfl := Option.some.inj writes
    simp
  · obtain ⟨transaction, lock, mine, kept, ends⟩ := sound.locks.update_inside i _ _ _ _
      (by simp [rerouting, Phase.inTransaction]) updates
    rw [rerouting] at kept
    obtain ⟨draft, queues, queued⟩ := transaction.draft.markQueued_unguarded
    rcases ends with ⟨lost, -⟩ | ⟨row, writes, rfl⟩
    · simp [queues] at lost
    · obtain rfl := Option.some.inj (queues.symm.trans writes)
      have escalated := kept.rerouting seen rfl
      refine sound.transacted i _ _ rfl (Or.inr ⟨transaction, lock, mine⟩) rfl
        (kept.extending i .control _ draft rfl (fun _ => escalated) ?_ (by simp))
      exact escalations_change_ends i .control transaction.draft draft escalated (by simp [queued])

theorem State.Controlled.emitted (fails : Bool) (emits : state.emit i fails = some after) :
    after.Controlled := by
  obtain ⟨held, rescued, effect, todo, next, transaction, writing, lock, mine, ends⟩ :=
    State.emit_cases i fails emits
  have kept := mine ▸ sound.locks.transacts transaction lock
  rw [writing] at kept
  have balance := kept.balance
  simp only [Phase.todo, List.count_cons] at balance
  rcases ends with ⟨isolated, rfl⟩ | rfl
  · have same : ({ state with lock := some transaction } : State) = state := by rw [← lock]
    rw [← same]
    refine sound.transacted i _ transaction mine (Or.inr ⟨transaction, lock, mine⟩) rfl
      ⟨?_, kept.guarded, by simp⟩
    rw [isolated] at balance
    exact balance
  · refine sound.transacted i _ _ mine (Or.inr ⟨transaction, lock, mine⟩) rfl ⟨?_, ?_, by simp⟩
    · dsimp only
      rw [escalations_append, controls_append, escalations_effect, controls_effect]
      simp only [Phase.todo, beq_iff_eq] at balance ⊢
      omega
    · exact List.forall_mem_append.mpr
        ⟨kept.guarded, List.forall_mem_singleton.mpr (Event.effect_onEscalated i effect)⟩

end

/-- A commit carries the balance of its transaction into the log. -/
theorem State.Controlled.commits {state after : State} (sound : state.Controlled) (i : Nat)
    (commits : state.commit i = some after) : after.Controlled := by
  obtain ⟨held, rescued, next, transaction, writing, lock, mine, rfl⟩ := State.commit_cases i commits
  have kept := sound.locks.transacts transaction lock
  rw [mine, writing] at kept
  refine ⟨?_, List.forall_mem_append.mpr ⟨sound.guarded, kept.guarded⟩,
    State.goto_deciding _ i next.phase sound.deciding ?_,
    sound.locks.commits i next transaction lock mine _ _⟩
  · change escalations (state.log ++ transaction.buffered) =
      controls (state.log ++ transaction.buffered) + transaction.draft.escalated
    have before := sound.balance
    have balance := kept.balance
    simp only [Phase.todo, List.count_nil] at balance
    rw [escalations_append, controls_append]
    omega
  · cases next <;> simp [Next.phase]

theorem Phase.afterRaise_outside (before after : Phase) (retries : Bool)
    (raises : before.afterRaise retries = some after) :
    after.inTransaction = false ∧ ∀ control seen, after ≠ .deciding control seen := by
  cases before with
  | ensuring claim retryStartedAt =>
      cases retryStartedAt <;> cases retries <;> obtain rfl := Option.some.inj raises <;>
        simp [Phase.inTransaction]
  | writing claim rescued todo next =>
      cases rescued <;> obtain rfl := Option.some.inj raises <;> simp [Phase.inTransaction]
  | idle | done | retrying claim => contradiction
  | starting attempt | observed attempt seen | claimed attempt claim seen
  | executing attempt claim session | settling claim session outcome | reaping olderThan
  | requesting control caller | deciding control seen | rerouting seen =>
      obtain rfl := Option.some.inj raises
      simp [Phase.inTransaction]

/-- Every step with a fresh control keeps the invariant. -/
theorem step_controlled (maxRetries : Nat) (state after : State) (action : Action)
    (sound : state.Controlled) (fresh : action.isFresh state = true)
    (steps : step maxRetries state action = some after) : after.Controlled := by
  cases action with
  | spawn i phase =>
      simp only [step] at steps
      split at steps
      · next enters =>
          obtain rfl := Option.some.inj steps
          have initial := enters.2
          refine sound.moves i phase (by simp [enters.1, Phase.inTransaction]) ?_ ?_
          · cases phase <;> simp_all [Phase.isInitial, Phase.inTransaction]
          · rintro control seen rfl
            contradiction
      · contradiction
  | observe i =>
      obtain ⟨attempt, starting, ends⟩ := State.observe_cases steps
      have outside : (state.processes i).inTransaction = false := by
        simp [starting, Phase.inTransaction]
      rcases ends with ⟨-, rfl⟩ | rfl
      · exact sound.moves i _ outside rfl (by simp)
      · exact sound.moves i _ outside rfl (by simp)
  | claim i now => exact sound.claimed i now steps
  | refuse i finishedAt error => exact sound.refused i finishedAt error steps
  | prepare i newSession => exact sound.prepared i newSession steps
  | requeue i outcome => exact sound.requeued maxRetries i outcome steps
  | fold i outcome =>
      obtain ⟨attempt, claim, session, executing, ends⟩ := State.fold_cases steps
      have outside : (state.processes i).inTransaction = false := by
        simp [executing, Phase.inTransaction]
      rcases ends with rfl | rfl
      · exact sound.moves i _ outside rfl (by simp)
      · exact sound.moves i _ outside rfl (by simp)
  | finish i finishedAt => exact sound.finished i finishedAt steps
  | publish i succeeds =>
      obtain ⟨claim, retrying, rfl⟩ := State.publish_cases steps
      refine sound.moves i _ (by simp [retrying, Phase.inTransaction]) ?_ ?_
      · cases succeeds <;> rfl
      · cases succeeds <;> simp
  | ensure i finishedAt error => exact sound.ensured i finishedAt error steps
  | reap i finishedAt => exact sound.reaped i finishedAt steps
  | load i => exact sound.loaded i steps
  | reassign i targetExists => exact sound.reassigned i targetExists fresh steps
  | control i finishedAt => exact sound.controlled i finishedAt fresh steps
  | emit i fails => exact sound.emitted i fails steps
  | commit i => exact sound.commits i steps
  | raise i retries =>
      obtain ⟨phase, raises, rfl⟩ := Option.map_eq_some_iff.mp steps
      obtain ⟨outside, undecided⟩ := Phase.afterRaise_outside _ _ retries raises
      exact sound.releases i phase outside fun control seen same => absurd same (undecided control seen)
  | crash i =>
      obtain rfl := Option.some.inj steps
      exact sound.releases i .done rfl (by simp)

/-- A delivery escalates its run, and its owner resumes it. -/
def escalatedResume : List Action :=
  [.spawn 0 (.starting 0), .observe 0, .claim 0 7, .prepare 0 3, .emit 0 false, .commit 0,
    .fold 0 { succeeded := false, error := some ⟨"ambiguous".toList, []⟩ }, .finish 0 9,
    .emit 0 false, .emit 0 false, .emit 0 false, .emit 0 false, .commit 0,
    .spawn 1 (.requesting .resume 5), .load 1, .control 1 0, .emit 1 false, .commit 1]

/-- Two requests read the escalated run; after the first has resumed it, a delivery claims it, and
the second request takes the running run back to the queue, where another delivery claims it. -/
def doubleResume : List Action :=
  escalatedResume.take 13 ++
    [.spawn 1 (.requesting .resume 5), .spawn 2 (.requesting .resume 5), .load 1, .load 2,
      .control 1 0, .emit 1 false, .commit 1,
      .spawn 3 (.starting 0), .observe 3, .claim 3 20, .prepare 3 4, .emit 3 false, .commit 3,
      .control 2 0, .emit 2 false, .commit 2,
      .spawn 4 (.starting 0), .observe 4, .claim 4 30, .prepare 4 6, .emit 4 false, .commit 4]

end LumenCopilot.Runs
