import LumenCopilot.Proof.Library.Transition
import LumenCopilot.Proof.Runs.Locking
import LumenCopilot.Proof.Runs.Outcome
import LumenCopilot.Proof.Runs.Steps
import Mathlib

namespace LumenCopilot.Runs

open Library

/-- This event moves the row from an active to a terminal status. -/
def Event.settles : Event → Bool
  | .change _ _ before after => !before.status.isTerminal && after.status.isTerminal
  | .effect _ _ => false

def Event.writer : Event → Nat
  | .change writer _ _ _ => writer
  | .effect writer _ => writer

def Effect.isFinished : Effect → Bool
  | .finished _ => true
  | _ => false

/-- This event is a `run.finished` audit. -/
def Event.isFinished : Event → Bool
  | .effect _ written => written.isFinished
  | .change _ _ _ _ => false

/-- This is the claim time of a won claim. -/
def Event.claimed : Event → Option Int
  | .change _ _ before after =>
      if before.status = .queued ∧ after.status = .running then after.startedAt else none
  | .effect _ _ => none

def settlements (events : List Event) : Nat := events.countP Event.settles

def settlementsBy (writer : Nat) (events : List Event) : Nat :=
  events.countP fun event => event.settles && event.writer == writer

def finishes (events : List Event) : Nat := events.countP Event.isFinished

def finishesBy (writer : Nat) (events : List Event) : Nat :=
  events.countP fun event => event.isFinished && event.writer == writer

def claims (events : List Event) : List Int := events.filterMap Event.claimed

theorem settlements_append (first second : List Event) :
    settlements (first ++ second) = settlements first + settlements second :=
  List.countP_append

theorem settlementsBy_append (writer : Nat) (first second : List Event) :
    settlementsBy writer (first ++ second) = settlementsBy writer first + settlementsBy writer second :=
  List.countP_append

theorem finishes_append (first second : List Event) :
    finishes (first ++ second) = finishes first + finishes second :=
  List.countP_append

theorem finishesBy_append (writer : Nat) (first second : List Event) :
    finishesBy writer (first ++ second) = finishesBy writer first + finishesBy writer second :=
  List.countP_append

theorem claims_append (first second : List Event) :
    claims (first ++ second) = claims first ++ claims second :=
  List.filterMap_append

theorem finishes_effect (writer : Nat) (written : Effect) :
    finishes [.effect writer written] = if written.isFinished then 1 else 0 := by
  cases written <;> rfl

theorem settlements_effect (writer : Nat) (written : Effect) :
    settlements [.effect writer written] = 0 := rfl

theorem claims_effect (writer : Nat) (written : Effect) : claims [.effect writer written] = [] := rfl

/-- This is the committed claim that a process holds. -/
def Phase.holds : Phase → Option Int
  | .executing _ claim _ => some claim
  | .settling claim _ _ => some claim
  | .ensuring claim none => claim
  | .writing claim _ _ _ => claim
  | _ => none

/-- A failed retry publication fails the claim that it left queued. -/
def Phase.Handoff (phase : Phase) : Prop :=
  ∀ claim retryStartedAt, phase = .ensuring (some claim) (some retryStartedAt) → claim = retryStartedAt

/-- A won update starts from an active row, and a claimant only settles the claim that it made. -/
def Event.Guarded (event : Event) : Prop :=
  ∀ writer cause before after, event = .change writer cause before after →
    before.status.isTerminal = false ∧
      (after.status.isTerminal = true → ∀ claim, cause = .claimant claim →
        before.startedAt = some claim)

theorem Event.change_guarded (writer : Nat) (cause : Cause) (before after : RunRow)
    (active : before.status.isTerminal = false)
    (mine : after.status.isTerminal = true → ∀ claim, cause = .claimant claim →
      before.startedAt = some claim) : (Event.change writer cause before after).Guarded := by
  rintro writer cause before after same
  obtain ⟨-, rfl, rfl, rfl⟩ := Event.change.inj same
  exact ⟨active, mine⟩

theorem Event.effect_guarded (writer : Nat) (written : Effect) :
    (Event.effect writer written).Guarded := by
  rintro other cause before after same
  contradiction

/-- The claims of one transaction move the claim time strictly forward. -/
def Advances (before after : Option Int) (made : List Int) : Prop :=
  (made = [] ∧ after = before) ∨
    ∃ claim, made = [claim] ∧ after = some claim ∧ ∀ earlier, before = some earlier → earlier < claim

/-- The stage of a transaction relates the committed row, the draft and the phase of the holder. -/
def Stage (row draft : RunRow) : Phase → Prop
  | .claimed _ claim _ => row.status = .queued ∧ draft.status = .running ∧ draft.startedAt = some claim
  | .writing held _ _ (.execute _ claim _) =>
      row.status = .queued ∧ draft.status = .running ∧ draft.startedAt = some claim ∧ held = none
  | .writing held _ _ (.retry claim) =>
      row.status = .running ∧ draft.status = .queued ∧ held = some claim
  | .writing _ _ _ .stop => draft.status.isTerminal = true
  | _ => False

/-- An open transaction settles its run at most once and audits exactly its settlement. -/
structure Transaction.Sound (row : RunRow) (phase : Phase) (transaction : Transaction) : Prop where
  active : row.status.isTerminal = false
  guarded : ∀ event ∈ transaction.buffered, event.Guarded
  own : ∀ event ∈ transaction.buffered, event.writer = transaction.holder
  settles : settlements transaction.buffered =
    if transaction.draft.status.isTerminal then 1 else 0
  audits : finishes transaction.buffered + phase.todo.countP Effect.isFinished =
    settlements transaction.buffered
  effects : ∀ effect, effect ≠ .started →
    (.effect transaction.holder effect ∈ transaction.buffered ∨ effect ∈ phase.todo) →
      transaction.draft.status.isTerminal = true
  advances : Advances row.startedAt transaction.draft.startedAt (claims transaction.buffered)
  stage : Stage row transaction.draft phase

/-- The invariant of the system without owner controls. -/
structure State.Sound (state : State) : Prop where
  uncontrolled : ∀ i, (state.processes i).isControl = false
  guarded : ∀ event ∈ state.log, event.Guarded
  settled : settlements state.log = if state.row.status.isTerminal then 1 else 0
  audited : ∀ writer, finishesBy writer state.log = settlementsBy writer state.log
  balanced : finishes state.log = settlements state.log
  effects : ∀ writer effect, effect ≠ .started → .effect writer effect ∈ state.log →
    0 < settlementsBy writer state.log
  increasing : (claims state.log).Pairwise (· < ·)
  bounded : ∀ claim ∈ claims state.log, ∃ latest, state.row.startedAt = some latest ∧ claim ≤ latest
  holders : state.row.status.isTerminal = false → ∀ i claim,
    (state.processes i).holds = some claim →
      state.row.status = .running ∧ state.row.startedAt = some claim
  unique : state.row.status.isTerminal = false → ∀ i j,
    (state.processes i).holds.isSome → (state.processes j).holds.isSome → i = j
  handoff : ∀ i, (state.processes i).Handoff
  locks : state.Locks Transaction.Sound

theorem State.initial_sound (ownerId : Nat) (createdAt : Int) :
    (State.initial (.enqueued ownerId createdAt)).Sound := by
  refine ⟨?_, ?_, rfl, ?_, rfl, ?_, ?_, ?_, ?_, ?_, ?_, State.initial_locks _⟩ <;>
    simp [State.initial, Phase.isControl, Phase.holds, Phase.Handoff, claims, finishesBy,
      settlementsBy]

/-- A phase that a process may enter outside a transaction keeps or drops its claim. -/
structure Phase.Entered (before after : Phase) : Prop where
  uncontrolled : after.isControl = false
  outside : after.inTransaction = false
  claim : after.holds = none ∨ after.holds = before.holds
  handoff : after.Handoff

/-- A step that keeps the row and the log keeps what the invariant says about them. -/
theorem State.Sound.frame {state after : State} (sound : state.Sound) (sameRow : after.row = state.row)
    (sameLog : after.log = state.log)
    (uncontrolled : ∀ i, (after.processes i).isControl = false)
    (keeps : ∀ i claim, (after.processes i).holds = some claim →
      (state.processes i).holds = some claim)
    (handoff : ∀ i, (after.processes i).Handoff)
    (locks : after.Locks Transaction.Sound) : after.Sound where
  uncontrolled := uncontrolled
  guarded := by rw [sameLog]; exact sound.guarded
  settled := by rw [sameLog, sameRow]; exact sound.settled
  audited := by rw [sameLog]; exact sound.audited
  balanced := by rw [sameLog]; exact sound.balanced
  effects := by rw [sameLog]; exact sound.effects
  increasing := by rw [sameLog]; exact sound.increasing
  bounded := by rw [sameLog, sameRow]; exact sound.bounded
  holders := by
    rw [sameRow]
    exact fun active i claim holds => sound.holders active i claim (keeps i claim holds)
  unique := by
    rw [sameRow]
    intro active i j first second
    obtain ⟨mine, holdsFirst⟩ := Option.isSome_iff_exists.mp first
    obtain ⟨yours, holdsSecond⟩ := Option.isSome_iff_exists.mp second
    exact sound.unique active i j (by simp [keeps i mine holdsFirst])
      (by simp [keeps j yours holdsSecond])
  handoff := handoff
  locks := locks

/-- The holder of the lock is inside its transaction. -/
theorem Transaction.Sound.inside {row : RunRow} {phase : Phase} {transaction : Transaction}
    (sound : transaction.Sound row phase) : phase.inTransaction = true := by
  have stage := sound.stage
  unfold Stage at stage
  split at stage <;> first | rfl | contradiction

/-- A process outside the transactions moves. -/
theorem State.Sound.moves {state : State} (sound : state.Sound) (i : Nat) (phase : Phase)
    (outside : (state.processes i).inTransaction = false)
    (entered : (state.processes i).Entered phase) : (state.goto i phase).Sound :=
  sound.frame rfl rfl
    (state.goto_all i phase (fun _ there => there.isControl = false) sound.uncontrolled
      entered.uncontrolled)
    (fun j claim => state.goto_kept i j phase claim Phase.holds entered.claim)
    (state.goto_all i phase (fun _ => Phase.Handoff) sound.handoff entered.handoff)
    (sound.locks.moves i phase outside entered.outside)

/-- A process leaves its transaction, if it has one, without a trace. -/
theorem State.Sound.releases {state : State} (sound : state.Sound) (i : Nat) (phase : Phase)
    (entered : (state.processes i).Entered phase) : ((state.rollback i).goto i phase).Sound := by
  have sameProcesses := state.rollback_processes i
  refine sound.frame (state.rollback_row i) (state.rollback_log i)
    ((state.rollback i).goto_all i phase (fun _ there => there.isControl = false)
      (by rw [sameProcesses]; exact sound.uncontrolled) entered.uncontrolled) ?_
    ((state.rollback i).goto_all i phase (fun _ => Phase.Handoff)
      (by rw [sameProcesses]; exact sound.handoff) entered.handoff)
    (sound.locks.releases i phase entered.outside)
  intro j claim holds
  have kept := (state.rollback i).goto_kept i j phase claim Phase.holds
    (by rw [sameProcesses]; exact entered.claim) holds
  rwa [sameProcesses] at kept

/-- A process opens or continues its transaction. -/
theorem State.Sound.transacted {state : State} (sound : state.Sound) (i : Nat) (phase : Phase)
    (transaction : Transaction) (own : transaction.holder = i)
    (free : state.lock = none ∨ ∃ earlier, state.lock = some earlier ∧ earlier.holder = i)
    (uncontrolled : phase.isControl = false)
    (claim : phase.holds = none ∨ phase.holds = (state.processes i).holds)
    (kept : transaction.Sound state.row phase) :
    ({ state with lock := some transaction }.goto i phase).Sound := by
  let opened : State := { state with lock := some transaction }
  refine sound.frame rfl rfl
    (opened.goto_all i phase (fun _ there => there.isControl = false) sound.uncontrolled uncontrolled)
    (fun j mine => opened.goto_kept i j phase mine Phase.holds claim)
    (opened.goto_all i phase (fun _ => Phase.Handoff) sound.handoff ?_)
    (sound.locks.transacted i phase transaction own free kept.inside kept)
  intro mine retryStartedAt there
  have inside := kept.inside
  rw [there] at inside
  contradiction

/-- An update of a process outside the transactions finds the row unlocked; it opens a
transaction or ends the process. -/
theorem State.Sound.updates {state after : State} (sound : state.Sound) (i : Nat)
    (cause : Cause) (write : RunRow → Option RunRow) (won lost : Phase)
    (outside : (state.processes i).inTransaction = false)
    (enteredLost : (state.processes i).Entered lost) (uncontrolled : won.isControl = false)
    (claimWon : won.holds = none ∨ won.holds = (state.processes i).holds)
    (opens : ∀ row, write state.row = some row →
      Transaction.Sound state.row won ⟨i, row, [.change i cause state.row row]⟩)
    (updates : state.update i cause write won lost = some after) : after.Sound := by
  rcases sound.locks.update_outside i cause write won lost outside updates with
    rfl | ⟨row, writes, unlocked, rfl⟩
  · exact sound.moves i lost outside enteredLost
  · exact sound.transacted i won _ rfl (Or.inl unlocked) uncontrolled claimWon (opens row writes)

/-- The events of a transaction belong to its holder alone. -/
theorem countP_own (events : List Event) (counted : Event → Bool) (holder writer : Nat)
    (own : ∀ event ∈ events, event.writer = holder) :
    (events.countP fun event => counted event && event.writer == writer) =
      if writer = holder then events.countP counted else 0 := by
  by_cases same : writer = holder
  · rw [if_pos same]
    apply List.countP_congr
    intro event member
    simp [own event member, same]
  · rw [if_neg same, List.countP_eq_zero]
    intro event member
    have different : ¬holder = writer := fun equal => same equal.symm
    simp [own event member, different]

/-- The claims of the log stay increasing and bounded when a transaction moves the claim time. -/
theorem State.Sound.advances {state : State} (sound : state.Sound) (transaction : Transaction)
    (moves : Advances state.row.startedAt transaction.draft.startedAt (claims transaction.buffered)) :
    (claims (state.log ++ transaction.buffered)).Pairwise (· < ·) ∧
      ∀ claim ∈ claims (state.log ++ transaction.buffered),
        ∃ latest, transaction.draft.startedAt = some latest ∧ claim ≤ latest := by
  rw [claims_append]
  rcases moves with ⟨made, same⟩ | ⟨claim, made, latest, later⟩
  · rw [made, same, List.append_nil]
    exact ⟨sound.increasing, sound.bounded⟩
  · rw [made, latest]
    constructor
    · rw [List.pairwise_append]
      refine ⟨sound.increasing, List.pairwise_singleton _ _, ?_⟩
      intro earlier member last isLast
      obtain ⟨bound, known, within⟩ := sound.bounded earlier member
      have before := later bound known
      rw [List.mem_singleton.mp isLast]
      omega
    · intro earlier member
      refine ⟨claim, rfl, ?_⟩
      rcases List.mem_append.mp member with old | new
      · obtain ⟨bound, known, within⟩ := sound.bounded earlier old
        have before := later bound known
        omega
      · rw [List.mem_singleton.mp new]

/-- An active row that a transaction commits is held by the committing process alone. -/
theorem State.Sound.heldAfter {state : State} (sound : state.Sound) (i : Nat) (draft : RunRow)
    (held : Option Int) (rescued : Bool) (todo : List Effect) (next : Next)
    (writing : state.processes i = .writing held rescued todo next)
    (stage : Stage state.row draft (.writing held rescued todo next))
    (active : state.row.status.isTerminal = false) (stays : draft.status.isTerminal = false)
    (j : Nat) (claim : Int) (holds : ((state.goto i next.phase).processes j).holds = some claim) :
    j = i ∧ draft.status = .running ∧ draft.startedAt = some claim := by
  cases next with
  | stop =>
      unfold Stage at stage
      simp [stage] at stays
  | retry mine =>
      by_cases same : j = i
      · rw [same, State.goto_self] at holds
        simp [Next.phase, Phase.holds] at holds
      · rw [State.goto_other _ i j _ same] at holds
        have alone := sound.unique active j i (by simp [holds])
          (by simp [writing, Phase.holds, stage.2.2])
        exact absurd alone same
  | execute attempt mine session =>
      by_cases same : j = i
      · rw [same, State.goto_self] at holds
        obtain rfl : mine = claim := by simpa [Next.phase, Phase.holds] using holds
        exact ⟨same, stage.2.1, stage.2.2.1⟩
      · rw [State.goto_other _ i j _ same] at holds
        have running := (sound.holders active j claim holds).1
        simp [stage.1] at running

/-- A commit adds the settlement of its transaction, with its audit, to the log. -/
theorem State.Sound.commits {state after : State} (sound : state.Sound) (i : Nat)
    (commits : state.commit i = some after) : after.Sound := by
  obtain ⟨held, rescued, next, transaction, writing, lock, mine, rfl⟩ := State.commit_cases i commits
  have transacts := sound.locks.transacts transaction lock
  rw [mine, writing] at transacts
  have active := transacts.active
  have settledBefore : settlements state.log = 0 := by simpa [active] using sound.settled
  have audits : finishes transaction.buffered = settlements transaction.buffered := by
    simpa [Phase.todo] using transacts.audits
  have own := mine ▸ transacts.own
  have advances := sound.advances transaction transacts.advances
  have heldAfter := sound.heldAfter i transaction.draft held rescued [] next writing
    transacts.stage active
  refine ⟨?_, List.forall_mem_append.mpr ⟨sound.guarded, transacts.guarded⟩, ?_, ?_, ?_, ?_,
    advances.1, advances.2, ?_, ?_, ?_, sound.locks.commits i next transaction lock mine _ _⟩
  · refine State.goto_all _ i next.phase (fun _ there => there.isControl = false) sound.uncontrolled ?_
    cases next <;> rfl
  · change settlements (state.log ++ transaction.buffered) = _
    rw [settlements_append, settledBefore, transacts.settles, Nat.zero_add]
    rfl
  · intro writer
    change finishesBy writer (state.log ++ transaction.buffered) =
      settlementsBy writer (state.log ++ transaction.buffered)
    have finishesOwn := countP_own transaction.buffered Event.isFinished i writer own
    have settlesOwn := countP_own transaction.buffered Event.settles i writer own
    rw [finishesBy_append, settlementsBy_append, sound.audited]
    unfold finishes settlements at audits
    unfold finishesBy settlementsBy
    rw [finishesOwn, settlesOwn, audits]
  · change finishes (state.log ++ transaction.buffered) =
      settlements (state.log ++ transaction.buffered)
    rw [finishes_append, settlements_append, sound.balanced, audits]
  · intro writer effect written member
    change 0 < settlementsBy writer (state.log ++ transaction.buffered)
    rw [settlementsBy_append]
    rcases List.mem_append.mp member with old | new
    · have earlier := sound.effects writer effect written old
      omega
    · have same : writer = i := own _ new
      rw [same] at new ⊢
      have terminal := transacts.effects effect written (Or.inl (mine.symm ▸ new))
      have settles := transacts.settles
      have settlesOwn := countP_own transaction.buffered Event.settles i i own
      rw [if_pos terminal] at settles
      rw [if_pos rfl] at settlesOwn
      unfold settlements at settles
      unfold settlementsBy
      omega
  · intro stays j claim holds
    exact (heldAfter stays j claim holds).2
  · intro stays j k first second
    obtain ⟨claim, holdsFirst⟩ := Option.isSome_iff_exists.mp first
    obtain ⟨other, holdsSecond⟩ := Option.isSome_iff_exists.mp second
    exact (heldAfter stays j claim holdsFirst).1.trans
      (heldAfter stays k other holdsSecond).1.symm
  · refine State.goto_all _ i next.phase (fun _ => Phase.Handoff) sound.handoff ?_
    cases next <;> simp [Next.phase, Phase.Handoff]

theorem Outcome.terminalStatus_isTerminal (outcome : Outcome) :
    outcome.terminalStatus.isTerminal = true := by
  unfold Outcome.terminalStatus classifyTerminal
  cases outcome.succeeded
  · simp only [Bool.false_eq_true, ↓reduceIte]
    split <;> rfl
  · rfl

theorem failureEffects_finished : failureEffects.countP Effect.isFinished = 1 := rfl

theorem finishEffects_finished (status : RunStatus) :
    (finishEffects status).countP Effect.isFinished = 1 := by
  cases status <;> rfl

/-- One won terminal write opens a sound transaction. -/
theorem Transaction.Sound.settling (i : Nat) (cause : Cause) (held : Option Int) (rescued : Bool)
    (row draft : RunRow) (effects : List Effect) (active : row.status.isTerminal = false)
    (terminal : draft.status.isTerminal = true) (kept : draft.startedAt = row.startedAt)
    (mine : ∀ made, cause = .claimant made → row.startedAt = some made)
    (audit : effects.countP Effect.isFinished = 1) :
    Transaction.Sound row (.writing held rescued effects .stop)
      ⟨i, draft, [.change i cause row draft]⟩ where
  active := active
  guarded := List.forall_mem_singleton.mpr (Event.change_guarded i cause row draft active fun _ => mine)
  own := List.forall_mem_singleton.mpr rfl
  settles := by simp [settlements, Event.settles, active, terminal]
  audits := by
    simp [finishes, Event.isFinished, Phase.todo, audit, settlements, Event.settles, active, terminal]
  effects := fun _ _ _ => terminal
  advances := by
    refine Or.inl ⟨?_, kept⟩
    have notRunning : draft.status ≠ .running := by
      intro running
      simp [running, RunStatus.isTerminal] at terminal
    simp [claims, Event.claimed, notRunning]
  stage := terminal

/-- One won write that leaves the row active opens a sound transaction. -/
theorem Transaction.Sound.opening (i : Nat) (cause : Cause) (phase : Phase) (row draft : RunRow)
    (active : row.status.isTerminal = false) (stays : draft.status.isTerminal = false)
    (idle : phase.todo = [])
    (advances : Advances row.startedAt draft.startedAt (claims [.change i cause row draft]))
    (stage : Stage row draft phase) :
    Transaction.Sound row phase ⟨i, draft, [.change i cause row draft]⟩ where
  active := active
  guarded := List.forall_mem_singleton.mpr
    (Event.change_guarded i cause row draft active fun terminal => by simp [stays] at terminal)
  own := List.forall_mem_singleton.mpr rfl
  settles := by simp [settlements, Event.settles, stays]
  audits := by simp [finishes, Event.isFinished, idle, settlements, Event.settles, stays]
  effects := by
    intro effect written there
    simp [idle] at there
  advances := advances
  stage := stage

theorem State.Sound.claimed {state after : State} (sound : state.Sound) (i : Nat) (now : Int)
    (wins : state.claim i now = some after) : after.Sound := by
  obtain ⟨attempt, seen, observed, wins⟩ := State.claim_cases wins
  refine sound.updates i .system _ (.claimed attempt (claimTime now seen.startedAt) seen) .done
    (by simp [observed, Phase.inTransaction]) ⟨rfl, rfl, Or.inl rfl, by simp [Phase.Handoff]⟩ rfl (Or.inl rfl)
    ?_ wins
  intro row writes
  obtain ⟨queued, same, running, latest⟩ := RunRow.markRunning_guarded _ _ _ _ writes
  have active : state.row.status.isTerminal = false := by simp [queued, RunStatus.isTerminal]
  have stays : row.status.isTerminal = false := by simp [running, RunStatus.isTerminal]
  refine Transaction.Sound.opening i .system _ _ _ active stays rfl ?_ ⟨queued, running, latest⟩
  refine Or.inr ⟨claimTime now seen.startedAt, ?_, latest, ?_⟩
  · simp [claims, Event.claimed, queued, running, latest]
  · intro earlier known
    rw [same] at known
    simp only [claimTime, known]
    omega

section

variable {state after : State} (sound : state.Sound)
include sound

/-- An update of a process inside its transaction continues that transaction. -/
theorem State.Sound.continues (i : Nat) (cause : Cause) (write : RunRow → Option RunRow)
    (won lost : Phase) (inside : (state.processes i).inTransaction = true)
    (uncontrolled : won.isControl = false)
    (claimWon : won.holds = none ∨ won.holds = (state.processes i).holds)
    (extends' : ∀ transaction, state.lock = some transaction → transaction.holder = i →
      transaction.Sound state.row (state.processes i) → ∃ row, write transaction.draft = some row ∧
        Transaction.Sound state.row won
          ⟨i, row, transaction.buffered ++ [.change i cause transaction.draft row]⟩)
    (updates : state.update i cause write won lost = some after) : after.Sound := by
  obtain ⟨transaction, lock, mine, transacts, ends⟩ :=
    sound.locks.update_inside i cause write won lost inside updates
  obtain ⟨row, writes, kept⟩ := extends' transaction lock mine transacts
  rcases ends with ⟨lost', -⟩ | ⟨other, writesOther, rfl⟩
  · simp [writes] at lost'
  · obtain rfl := Option.some.inj (writes.symm.trans writesOther)
    exact sound.transacted i won _ rfl (Or.inr ⟨transaction, lock, mine⟩) uncontrolled claimWon kept

theorem State.Sound.refused (i : Nat) (finishedAt : Int) (error : RunError)
    (refuses : state.refuse i finishedAt error = some after) : after.Sound := by
  obtain ⟨attempt, claim, seen, claimed, refuses⟩ := State.refuse_cases refuses
  refine sound.continues i (.claimant claim) _ (.writing none true failureEffects .stop) _
    (by simp [claimed, Phase.inTransaction]) rfl (Or.inl rfl) ?_ refuses
  intro transaction lock mine kept
  rw [claimed] at kept
  obtain ⟨queued, running, startedAt⟩ := kept.stage
  have draftActive : transaction.draft.status.isTerminal = false := by
    simp [running, RunStatus.isTerminal]
  have settles : settlements transaction.buffered = 0 := by simpa [draftActive] using kept.settles
  have audits : finishes transaction.buffered = 0 := by
    simpa [settles, Phase.todo] using kept.audits
  obtain ⟨draft, writes, failed, sameClaim⟩ := RunRow.markTerminal_running
    { status := .failed, finishedAt := finishedAt, error := some error } transaction.draft running
  have terminal : draft.status.isTerminal = true := by simp [failed, RunStatus.isTerminal]
  refine ⟨draft, writes, ⟨kept.active, ?_, ?_, ?_, ?_, fun _ _ _ => terminal, ?_, terminal⟩⟩
  · refine List.forall_mem_append.mpr ⟨kept.guarded, List.forall_mem_singleton.mpr ?_⟩
    apply Event.change_guarded i _ _ _ draftActive
    rintro - made same
    rw [startedAt, Cause.claimant.inj same]
  · exact List.forall_mem_append.mpr ⟨mine ▸ kept.own, List.forall_mem_singleton.mpr rfl⟩
  · rw [settlements_append, settles]
    simp [settlements, Event.settles, draftActive, terminal]
  · rw [finishes_append, settlements_append, settles, audits]
    simp [finishes, settlements, Event.settles, Event.isFinished, draftActive, Phase.todo,
      terminal, failureEffects_finished]
  · rw [claims_append]
    simpa [claims, Event.claimed, running, sameClaim] using kept.advances

theorem State.Sound.prepared (i : Nat) (newSession : Nat)
    (prepares : state.prepare i newSession = some after) : after.Sound := by
  obtain ⟨attempt, claim, seen, claimed, prepares⟩ := State.prepare_cases prepares
  rcases prepares with ⟨session, rfl⟩ | prepares
  · obtain ⟨transaction, lock, mine⟩ := sound.locks.locked i (by simp [claimed, Phase.inTransaction])
    have kept := mine ▸ sound.locks.transacts transaction lock
    rw [claimed] at kept
    obtain ⟨queued, running, startedAt⟩ := kept.stage
    have same : ({ state with lock := some transaction } : State) = state := by rw [← lock]
    rw [← same]
    exact sound.transacted i _ transaction mine (Or.inr ⟨transaction, lock, mine⟩) rfl
      (Or.inl rfl) ⟨kept.active, kept.guarded, kept.own, kept.settles, kept.audits, kept.effects,
        kept.advances, ⟨queued, running, startedAt, rfl⟩⟩
  · refine sound.continues i (.claimant claim) _
      (.writing none true [.started] (.execute attempt claim newSession)) .done
      (by simp [claimed, Phase.inTransaction]) rfl (Or.inl rfl) ?_ prepares
    intro transaction lock mine kept
    rw [claimed] at kept
    obtain ⟨queued, running, startedAt⟩ := kept.stage
    have draftActive : transaction.draft.status.isTerminal = false := by
      simp [running, RunStatus.isTerminal]
    have attached : transaction.draft.attachSession newSession =
        { transaction.draft with sessionId := some newSession } := by
      simp [RunRow.attachSession, running]
    refine ⟨_, rfl, ?_⟩
    rw [attached]
    refine ⟨kept.active, ?_, ?_, ?_, ?_, ?_, ?_, ⟨queued, running, startedAt, rfl⟩⟩
    · refine List.forall_mem_append.mpr ⟨kept.guarded, List.forall_mem_singleton.mpr ?_⟩
      exact Event.change_guarded i _ _ _ draftActive fun terminal => by simp [draftActive] at terminal
    · exact List.forall_mem_append.mpr ⟨mine ▸ kept.own, List.forall_mem_singleton.mpr rfl⟩
    · rw [settlements_append, kept.settles]
      simp [settlements, Event.settles, draftActive]
    · have audits := kept.audits
      rw [finishes_append, settlements_append]
      simpa [finishes, settlements, Event.settles, Event.isFinished, draftActive, Phase.todo,
        Effect.isFinished] using audits
    · intro effect written there
      rcases there with old | new
      · rcases List.mem_append.mp old with earlier | last
        · exact kept.effects effect written (Or.inl (mine.symm ▸ earlier))
        · simp at last
      · exact absurd (List.mem_singleton.mp new) written
    · rw [claims_append]
      simpa [claims, Event.claimed, running] using kept.advances

theorem State.Sound.requeued (maxRetries i : Nat) (outcome : Outcome)
    (requeues : state.requeue maxRetries i outcome = some after) : after.Sound := by
  obtain ⟨attempt, claim, session, executing, requeues⟩ := State.requeue_cases requeues
  refine sound.updates i (.claimant claim) _ (.writing (some claim) true [] (.retry claim)) .done
    (by simp [executing, Phase.inTransaction]) ⟨rfl, rfl, Or.inl rfl, by simp [Phase.Handoff]⟩ rfl
    (Or.inr (by simp [executing, Phase.holds])) ?_ requeues
  intro row writes
  obtain ⟨running, -, queued, kept⟩ := RunRow.markQueued_guarded _ _ _ _ writes
  have active : state.row.status.isTerminal = false := by simp [running, RunStatus.isTerminal]
  have stays : row.status.isTerminal = false := by simp [queued, RunStatus.isTerminal]
  exact Transaction.Sound.opening i _ _ _ _ active stays rfl
    (Or.inl ⟨by simp [claims, Event.claimed, queued], kept⟩) ⟨running, queued, rfl⟩

theorem State.Sound.finished (i : Nat) (finishedAt : Int)
    (finishes : state.finish i finishedAt = some after) : after.Sound := by
  obtain ⟨claim, session, outcome, messageId, settling, finishes⟩ := State.finish_cases finishes
  refine sound.updates i (.claimant claim) _
    (.writing (some claim) true (finishEffects outcome.terminalStatus) .stop) .done
    (by simp [settling, Phase.inTransaction]) ⟨rfl, rfl, Or.inl rfl, by simp [Phase.Handoff]⟩ ?_
    (Or.inr (by simp [settling, Phase.holds])) ?_ finishes
  · cases outcome.terminalStatus <;> rfl
  · intro row writes
    obtain ⟨running, -, status, kept⟩ := RunRow.markTerminal_guarded _ _ _ _ _ writes
    have active : state.row.status.isTerminal = false := by simp [running, RunStatus.isTerminal]
    have mine := sound.holders active i claim (by simp [settling, Phase.holds])
    refine Transaction.Sound.settling i (.claimant claim) _ _ _ _ _ active ?_ kept ?_
      (finishEffects_finished _)
    · rw [status]
      exact outcome.terminalStatus_isTerminal
    · intro made same
      rw [mine.2, Cause.claimant.inj same]

theorem State.Sound.ensured (i : Nat) (finishedAt : Int) (error : RunError)
    (ensures : state.ensure i finishedAt error = some after) : after.Sound := by
  obtain ⟨claim, retryStartedAt, ensuring, ensures⟩ := State.ensure_cases ensures
  refine sound.updates i (.of claim) _ _ .done (by simp [ensuring, Phase.inTransaction])
    ⟨rfl, rfl, Or.inl rfl, by simp [Phase.Handoff]⟩ rfl ?_ ?_ ensures
  · cases retryStartedAt with
    | none => exact Or.inr (by simp [ensuring, Phase.holds])
    | some retry => exact Or.inl rfl
  · intro row writes
    obtain ⟨expected, matches', status, kept⟩ := RunRow.markTerminal_guarded _ _ _ _ _ writes
    have active : state.row.status.isTerminal = false := by
      rw [expected]
      cases retryStartedAt <;> rfl
    refine Transaction.Sound.settling i (.of claim) _ _ _ _ _ active (by rw [status]; rfl) kept ?_
      failureEffects_finished
    intro made same
    obtain rfl : claim = some made := by
      cases claim with
      | none => contradiction
      | some other => rw [Cause.claimant.inj same]
    cases retryStartedAt with
    | none => exact (sound.holders active i made (by simp [ensuring, Phase.holds])).2
    | some retry =>
        rw [sound.handoff i made retry ensuring]
        exact matches' retry rfl

theorem State.Sound.reaped (i : Nat) (finishedAt : Int)
    (reaps : state.reap i finishedAt = some after) : after.Sound := by
  obtain ⟨olderThan, error, reaping, reaps⟩ := State.reap_cases reaps
  refine sound.updates i .system _ _ .done (by simp [reaping, Phase.inTransaction])
    ⟨rfl, rfl, Or.inl rfl, by simp [Phase.Handoff]⟩ rfl (Or.inl rfl) ?_ reaps
  intro row writes
  obtain ⟨active, failed, kept⟩ := RunRow.failStaleRunning_guarded _ _ _ _ _ writes
  have terminal : row.status.isTerminal = true := by simp [failed, RunStatus.isTerminal]
  exact Transaction.Sound.settling i .system _ _ _ _ _ active terminal kept (by simp)
    failureEffects_finished

theorem State.Sound.emitted (i : Nat) (fails : Bool) (emits : state.emit i fails = some after) :
    after.Sound := by
  obtain ⟨held, rescued, effect, todo, next, transaction, writing, lock, mine, ends⟩ :=
    State.emit_cases i fails emits
  have kept := mine ▸ sound.locks.transacts transaction lock
  rw [writing] at kept
  have free : state.lock = none ∨ ∃ earlier, state.lock = some earlier ∧ earlier.holder = i :=
    Or.inr ⟨transaction, lock, mine⟩
  have uncontrolled : (Phase.writing held rescued todo next).isControl = false := by
    have before := sound.uncontrolled i
    rw [writing] at before
    simp only [Phase.isControl, List.contains_cons, Bool.or_eq_false_iff] at before ⊢
    exact before.2
  have claim : (Phase.writing held rescued todo next).holds = none ∨
      (Phase.writing held rescued todo next).holds = (state.processes i).holds :=
    Or.inr (by simp [writing, Phase.holds])
  have stage : Stage state.row transaction.draft (.writing held rescued todo next) := by
    have before := kept.stage
    cases next <;> exact before
  have audits := kept.audits
  simp only [Phase.todo, List.countP_cons] at audits
  rcases ends with ⟨isolated, rfl⟩ | rfl
  · have same : ({ state with lock := some transaction } : State) = state := by rw [← lock]
    rw [← same]
    refine sound.transacted i _ transaction mine free uncontrolled claim
      ⟨kept.active, kept.guarded, kept.own, kept.settles, ?_, ?_, kept.advances, stage⟩
    · rw [isolated] at audits
      exact audits
    · intro other written there
      exact kept.effects other written (there.imp id (List.mem_cons_of_mem _))
  · refine sound.transacted i _ _ mine free uncontrolled claim
      ⟨kept.active, ?_, ?_, ?_, ?_, ?_, ?_, stage⟩
    · exact List.forall_mem_append.mpr
        ⟨kept.guarded, List.forall_mem_singleton.mpr (Event.effect_guarded i effect)⟩
    · exact List.forall_mem_append.mpr ⟨kept.own, List.forall_mem_singleton.mpr mine.symm⟩
    · rw [settlements_append, kept.settles, settlements_effect, Nat.add_zero]
    · dsimp only
      rw [finishes_append, settlements_append, finishes_effect, settlements_effect]
      simp only [Phase.todo]
      omega
    · intro other written there
      rcases there with old | new
      · rcases List.mem_append.mp old with earlier | last
        · exact kept.effects other written (Or.inl earlier)
        · have same := (Event.effect.inj (List.mem_singleton.mp last)).2
          exact kept.effects other written (Or.inr (same ▸ List.mem_cons_self))
      · exact kept.effects other written (Or.inr (List.mem_cons_of_mem _ new))
    · rw [claims_append, claims_effect, List.append_nil]
      exact kept.advances

end

/-- These actions belong to an owner control. -/
def Action.isControl : Action → Bool
  | .spawn _ phase => phase.isControl
  | .load _ | .reassign _ _ | .control _ _ => true
  | _ => false

theorem State.Sound.spawned {state after : State} (sound : state.Sound) (maxRetries i : Nat)
    (phase : Phase) (uncontrolled : phase.isControl = false)
    (spawns : step maxRetries state (.spawn i phase) = some after) : after.Sound := by
  simp only [step] at spawns
  split at spawns
  · next enters =>
      obtain rfl := Option.some.inj spawns
      have initial := enters.2
      refine sound.moves i phase (by simp [enters.1, Phase.inTransaction]) ⟨uncontrolled, ?_, ?_, ?_⟩
      · cases phase <;> simp_all [Phase.isInitial, Phase.inTransaction]
      · unfold Phase.isInitial at initial
        split at initial
        · exact Or.inl rfl
        · next retryStartedAt => cases retryStartedAt <;> exact Or.inl rfl
        · exact Or.inl rfl
        · exact Or.inl rfl
        · contradiction
      · rintro claim retryStartedAt rfl
        simp [Phase.isInitial] at initial
  · contradiction

theorem State.Sound.observed {state after : State} (sound : state.Sound) (i : Nat)
    (observes : state.observe i = some after) : after.Sound := by
  obtain ⟨attempt, starting, ends⟩ := State.observe_cases observes
  have outside : (state.processes i).inTransaction = false := by
    simp [starting, Phase.inTransaction]
  rcases ends with ⟨-, rfl⟩ | rfl
  · exact sound.moves i _ outside ⟨rfl, rfl, Or.inl rfl, by simp [Phase.Handoff]⟩
  · exact sound.moves i _ outside ⟨rfl, rfl, Or.inl rfl, by simp [Phase.Handoff]⟩

theorem State.Sound.folded {state after : State} (sound : state.Sound) (maxRetries i : Nat)
    (outcome : Outcome) (folds : state.fold maxRetries i outcome = some after) : after.Sound := by
  obtain ⟨attempt, claim, session, executing, ends⟩ := State.fold_cases folds
  have outside : (state.processes i).inTransaction = false := by
    simp [executing, Phase.inTransaction]
  rcases ends with rfl | rfl
  · exact sound.moves i _ outside ⟨rfl, rfl, Or.inl rfl, by simp [Phase.Handoff]⟩
  · exact sound.moves i _ outside ⟨rfl, rfl, Or.inr (by simp [executing, Phase.holds]),
      by simp [Phase.Handoff]⟩

theorem State.Sound.published {state after : State} (sound : state.Sound) (i : Nat) (succeeds : Bool)
    (publishes : state.publish i succeeds = some after) : after.Sound := by
  obtain ⟨claim, retrying, rfl⟩ := State.publish_cases publishes
  refine sound.moves i _ (by simp [retrying, Phase.inTransaction]) ?_
  cases succeeds with
  | true => exact ⟨rfl, rfl, Or.inl rfl, by simp [Phase.Handoff]⟩
  | false =>
      refine ⟨rfl, rfl, Or.inl rfl, ?_⟩
      intro mine retry same
      obtain ⟨first, second⟩ := Phase.ensuring.inj same
      exact (Option.some.inj first).symm.trans (Option.some.inj second)

theorem Phase.afterRaise_entered (before after : Phase) (retries : Bool)
    (raises : before.afterRaise retries = some after) : before.Entered after := by
  cases before with
  | ensuring claim retryStartedAt =>
      cases retryStartedAt with
      | none =>
          cases retries with
          | true =>
              obtain rfl := Option.some.inj raises
              exact ⟨rfl, rfl, Or.inr rfl, by simp [Phase.Handoff]⟩
          | false =>
              obtain rfl := Option.some.inj raises
              exact ⟨rfl, rfl, Or.inl rfl, by simp [Phase.Handoff]⟩
      | some retry =>
          obtain rfl := Option.some.inj raises
          exact ⟨rfl, rfl, Or.inl rfl, by simp [Phase.Handoff]⟩
  | writing claim rescued todo next =>
      cases rescued with
      | true =>
          obtain rfl := Option.some.inj raises
          exact ⟨rfl, rfl, Or.inr rfl, by simp [Phase.Handoff]⟩
      | false =>
          obtain rfl := Option.some.inj raises
          exact ⟨rfl, rfl, Or.inl rfl, by simp [Phase.Handoff]⟩
  | executing attempt claim session =>
      obtain rfl := Option.some.inj raises
      exact ⟨rfl, rfl, Or.inr rfl, by simp [Phase.Handoff]⟩
  | settling claim session outcome =>
      obtain rfl := Option.some.inj raises
      exact ⟨rfl, rfl, Or.inr rfl, by simp [Phase.Handoff]⟩
  | idle | done | retrying claim => contradiction
  | starting attempt | observed attempt seen | claimed attempt claim seen | reaping olderThan
  | requesting control caller | deciding control seen | rerouting seen =>
      obtain rfl := Option.some.inj raises
      exact ⟨rfl, rfl, Or.inl rfl, by simp [Phase.Handoff]⟩

/-- Every step without an owner control keeps the invariant. -/
theorem step_sound (maxRetries : Nat) (state after : State) (action : Action) (sound : state.Sound)
    (uncontrolled : action.isControl = false) (steps : step maxRetries state action = some after) :
    after.Sound := by
  cases action with
  | spawn i phase => exact sound.spawned maxRetries i phase uncontrolled steps
  | observe i => exact sound.observed i steps
  | claim i now => exact sound.claimed i now steps
  | refuse i finishedAt error => exact sound.refused i finishedAt error steps
  | prepare i newSession => exact sound.prepared i newSession steps
  | requeue i outcome => exact sound.requeued maxRetries i outcome steps
  | fold i outcome => exact sound.folded maxRetries i outcome steps
  | finish i finishedAt => exact sound.finished i finishedAt steps
  | publish i succeeds => exact sound.published i succeeds steps
  | ensure i finishedAt error => exact sound.ensured i finishedAt error steps
  | reap i finishedAt => exact sound.reaped i finishedAt steps
  | load i | reassign i targetExists | control i finishedAt => contradiction
  | emit i fails => exact sound.emitted i fails steps
  | commit i => exact sound.commits i steps
  | raise i retries =>
      obtain ⟨phase, raises, rfl⟩ := Option.map_eq_some_iff.mp steps
      exact sound.releases i phase (Phase.afterRaise_entered _ _ retries raises)
  | crash i =>
      obtain rfl := Option.some.inj steps
      exact sound.releases i .done ⟨rfl, rfl, Or.inl rfl, by simp [Phase.Handoff]⟩

theorem State.update_row {state after : State} (i : Nat) (cause : Cause)
    (write : RunRow → Option RunRow) (won lost : Phase)
    (updates : state.update i cause write won lost = some after) : after.row = state.row := by
  unfold State.update at updates
  split at updates
  · split at updates
    · exact Option.some.inj updates ▸ rfl
    · exact Option.some.inj updates ▸ rfl
  · split at updates
    · split at updates
      · exact Option.some.inj updates ▸ rfl
      · exact Option.some.inj updates ▸ rfl
    · contradiction

/-- Only a commit changes the row. -/
theorem step_row (maxRetries : Nat) (state after : State) (action : Action)
    (steps : step maxRetries state action = some after) (open' : ∀ i, action ≠ .commit i) :
    after.row = state.row := by
  cases action with
  | commit i => exact absurd rfl (open' i)
  | crash i =>
      obtain rfl := Option.some.inj steps
      exact state.rollback_row i
  | raise i retries =>
      obtain ⟨phase, -, rfl⟩ := Option.map_eq_some_iff.mp steps
      exact state.rollback_row i
  | claim i now =>
      obtain ⟨_, _, -, updates⟩ := State.claim_cases steps
      exact State.update_row _ _ _ _ _ updates
  | refuse i finishedAt error =>
      obtain ⟨_, _, _, -, updates⟩ := State.refuse_cases steps
      exact State.update_row _ _ _ _ _ updates
  | prepare i newSession =>
      obtain ⟨_, _, _, -, ⟨_, rfl⟩ | updates⟩ := State.prepare_cases steps
      · rfl
      · exact State.update_row _ _ _ _ _ updates
  | requeue i outcome =>
      obtain ⟨_, _, _, -, updates⟩ := State.requeue_cases steps
      exact State.update_row _ _ _ _ _ updates
  | finish i finishedAt =>
      obtain ⟨_, _, _, _, -, updates⟩ := State.finish_cases steps
      exact State.update_row _ _ _ _ _ updates
  | ensure i finishedAt error =>
      obtain ⟨_, _, -, updates⟩ := State.ensure_cases steps
      exact State.update_row _ _ _ _ _ updates
  | reap i finishedAt =>
      obtain ⟨_, _, -, updates⟩ := State.reap_cases steps
      exact State.update_row _ _ _ _ _ updates
  | control i finishedAt =>
      rcases State.control_cases steps with ⟨_, -, updates⟩ | ⟨_, _, -, updates⟩ | ⟨_, -, updates⟩
      · exact State.update_row _ _ _ _ _ updates
      · exact State.update_row _ _ _ _ _ updates
      · exact State.update_row _ _ _ _ _ updates
  | reassign i targetExists =>
      obtain ⟨_, _, -, rfl | updates⟩ := State.reassign_cases steps
      · rfl
      · exact State.update_row _ _ _ _ _ updates
  | spawn i phase =>
      simp only [step] at steps
      split at steps
      · exact Option.some.inj steps ▸ rfl
      · contradiction
  | observe i =>
      obtain ⟨_, -, ⟨-, rfl⟩ | rfl⟩ := State.observe_cases steps
      · rfl
      · rfl
  | fold i outcome =>
      obtain ⟨_, _, _, -, rfl | rfl⟩ := State.fold_cases steps
      · rfl
      · rfl
  | publish i succeeds =>
      obtain ⟨_, -, rfl⟩ := State.publish_cases steps
      rfl
  | load i =>
      obtain ⟨_, _, -, ⟨-, rfl⟩ | rfl⟩ := State.load_cases steps
      · rfl
      · rfl
  | emit i fails =>
      obtain ⟨_, _, _, _, _, _, -, -, -, ⟨-, rfl⟩ | rfl⟩ := State.emit_cases i fails steps
      · rfl
      · rfl

/-- A terminal row is final: no transaction is open on it. -/
theorem State.Sound.unlocked {state : State} (sound : state.Sound)
    (terminal : state.row.status.isTerminal = true) : state.lock = none := by
  cases lock : state.lock with
  | none => rfl
  | some transaction =>
      have active := (sound.locks.transacts transaction lock).active
      simp [terminal] at active

/-- Over every interleaving without an owner control the row settles at most once and is never
overwritten, claims have increasing times, a writer settles only a claim that it still holds, and
the audits, steps and deliveries are those of the settlement. -/
theorem run_settles_once (maxRetries ownerId : Nat) (createdAt : Int) (actions : List Action)
    (state : State)
    (runs : Runs (step maxRetries) (fun _ action => action.isControl = false)
      (State.initial (.enqueued ownerId createdAt)) actions state) :
    (settlements state.log = if state.row.status.isTerminal then 1 else 0) ∧
    (∀ writer cause before after, .change writer cause before after ∈ state.log →
      before.status.isTerminal = false) ∧
    (∀ action next, action.isControl = false → step maxRetries state action = some next →
      state.row.status.isTerminal = true → next.row = state.row) ∧
    (claims state.log).Pairwise (· < ·) ∧
    (∀ writer claim before after, .change writer (.claimant claim) before after ∈ state.log →
      after.status.isTerminal = true → before.startedAt = some claim) ∧
    (∀ writer effect, effect ≠ .started → .effect writer effect ∈ state.log →
      0 < settlementsBy writer state.log) ∧
    (∀ writer, finishesBy writer state.log = settlementsBy writer state.log) ∧
    finishes state.log = settlements state.log := by
  have sound := runs.invariant State.Sound
    (fun before action after sound uncontrolled steps =>
      step_sound maxRetries before after action sound uncontrolled steps)
    (State.initial_sound ownerId createdAt)
  refine ⟨sound.settled, ?_, ?_, sound.increasing, ?_, sound.effects, sound.audited, sound.balanced⟩
  · intro writer cause before after member
    exact (sound.guarded _ member writer cause before after rfl).1
  · intro action next uncontrolled steps terminal
    refine step_row maxRetries state next action steps ?_
    rintro i rfl
    have unlocked := sound.unlocked terminal
    simp only [step, State.commit, unlocked] at steps
    split at steps
    · contradiction
    · contradiction
  · intro writer claim before after member terminal
    exact (sound.guarded _ member writer (.claimant claim) before after rfl).2 terminal claim rfl

/-- A duplicate delivery observes the queued run, loses the claim and leaves the settlement to the
first delivery; a late reaper and a late failure writer change nothing. -/
def duplicateDelivery : List Action :=
  [.spawn 0 (.starting 0), .spawn 1 (.starting 0), .observe 0, .observe 1, .claim 0 7,
    .prepare 0 3, .emit 0 false, .commit 0, .claim 1 7,
    .fold 0 { succeeded := true, messageId := some 5 }, .finish 0 9, .emit 0 false, .emit 0 false,
    .emit 0 true, .commit 0, .spawn 2 (.reaping 100), .reap 2 11, .spawn 3 (.ensuring none none),
    .ensure 3 12 ⟨[], []⟩]

theorem run_settles_once_duplicate :
    ∃ state, Runs (step 3) (fun _ action => action.isControl = false)
        (State.initial (.enqueued 1 0)) duplicateDelivery state ∧
      settlements state.log = 1 ∧ finishes state.log = 1 ∧ claims state.log = [7] := by
  have executed : ((execute (guarded (step 3) fun _ action => !action.isControl)
      (State.initial (.enqueued 1 0)) duplicateDelivery).map
        fun state => (state.row.status, claims state.log)) = some (.succeeded, [7]) := by decide
  obtain ⟨state, executes, facts⟩ := Option.map_eq_some_iff.mp executed
  have runs := Runs.of_execute executes
  simp only [Bool.not_eq_eq_eq_not, Bool.not_true] at runs
  obtain ⟨settled, -, -, -, -, -, -, balanced⟩ := run_settles_once 3 1 0 duplicateDelivery state runs
  have succeeded : state.row.status = .succeeded := congrArg Prod.fst facts
  rw [succeeded] at settled
  exact ⟨state, runs, settled, balanced.trans settled, congrArg Prod.snd facts⟩

end LumenCopilot.Runs
