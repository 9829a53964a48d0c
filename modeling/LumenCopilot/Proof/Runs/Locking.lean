import LumenCopilot.Construction.Runs.System

namespace LumenCopilot.Runs

/-- These are the phases inside an open transaction. -/
def Phase.inTransaction : Phase → Bool
  | .claimed _ _ _ | .rerouting _ | .writing _ _ _ _ => true
  | _ => false

/-- These effects are still to be written by the transaction. -/
def Phase.todo : Phase → List Effect
  | .writing _ _ todo _ => todo
  | _ => []

theorem State.goto_self (state : State) (i : Nat) (phase : Phase) :
    (state.goto i phase).processes i = phase := by
  simp [State.goto]

theorem State.goto_other (state : State) (i j : Nat) (phase : Phase) (other : j ≠ i) :
    (state.goto i phase).processes j = state.processes j := by
  simp [State.goto, other]

/-- A property of every phase holds after a move into a phase that has it. -/
theorem State.goto_all (state : State) (i : Nat) (phase : Phase) (has : Nat → Phase → Prop)
    (before : ∀ j, has j (state.processes j)) (now : has i phase) (j : Nat) :
    has j ((state.goto i phase).processes j) := by
  by_cases same : j = i
  · subst same
    rw [State.goto_self]
    exact now
  · rw [State.goto_other state i j phase same]
    exact before j

/-- A claim that the phases know after a move was known before it. -/
theorem State.goto_kept (state : State) (i j : Nat) (phase : Phase) (claim : Int)
    (known : Phase → Option Int)
    (kept : known phase = none ∨ known phase = known (state.processes i))
    (knows : known ((state.goto i phase).processes j) = some claim) :
    known (state.processes j) = some claim := by
  by_cases same : j = i
  · subst same
    rw [State.goto_self] at knows
    rcases kept with dropped | kept
    · simp [dropped] at knows
    · exact kept ▸ knows
  · rwa [State.goto_other state i j phase same] at knows

theorem State.rollback_row (state : State) (i : Nat) : (state.rollback i).row = state.row := by
  unfold State.rollback
  split
  · split <;> rfl
  · rfl

theorem State.rollback_log (state : State) (i : Nat) : (state.rollback i).log = state.log := by
  unfold State.rollback
  split
  · split <;> rfl
  · rfl

theorem State.rollback_processes (state : State) (i : Nat) :
    (state.rollback i).processes = state.processes := by
  unfold State.rollback
  split
  · split <;> rfl
  · rfl

theorem State.rollback_lock (state : State) (i : Nat) (transaction : Transaction) :
    (state.rollback i).lock = some transaction ↔
      state.lock = some transaction ∧ transaction.holder ≠ i := by
  unfold State.rollback
  cases lock : state.lock with
  | none => simp [lock]
  | some other =>
      by_cases mine : other.holder = i
      · simp only [mine, ↓reduceIte, reduceCtorEq, Option.some.injEq, ne_eq, false_iff, not_and,
          Decidable.not_not]
        exact fun same => same ▸ mine
      · simp only [mine, ↓reduceIte, lock, Option.some.injEq, ne_eq, iff_self_and]
        exact fun same => same ▸ mine

variable {sound : RunRow → Phase → Transaction → Prop}

/-- A process is inside a transaction exactly when it holds the row lock, and the open
transaction is sound. -/
structure State.Locks (sound : RunRow → Phase → Transaction → Prop) (state : State) : Prop where
  locked : ∀ i, (state.processes i).inTransaction = true →
    ∃ transaction, state.lock = some transaction ∧ transaction.holder = i
  inside : ∀ transaction, state.lock = some transaction →
    (state.processes transaction.holder).inTransaction = true
  transacts : ∀ transaction, state.lock = some transaction →
    sound state.row (state.processes transaction.holder) transaction

theorem State.initial_locks (row : RunRow) : (State.initial row).Locks sound := by
  refine ⟨?_, ?_, ?_⟩ <;> simp [State.initial, Phase.inTransaction]

variable {state : State}

/-- A process outside the transactions moves to another phase outside. -/
theorem State.Locks.moves (locks : state.Locks sound) (i : Nat) (phase : Phase)
    (outside : (state.processes i).inTransaction = false) (enters : phase.inTransaction = false) :
    (state.goto i phase).Locks sound := by
  have other (transaction : Transaction) (lock : state.lock = some transaction) :
      transaction.holder ≠ i := by
    rintro rfl
    simp [locks.inside transaction lock] at outside
  refine ⟨?_, ?_, ?_⟩
  · intro j inside
    by_cases same : j = i
    · rw [same, State.goto_self, enters] at inside
      contradiction
    · rw [State.goto_other state i j phase same] at inside
      exact locks.locked j inside
  · intro transaction lock
    rw [State.goto_other state i _ phase (other transaction lock)]
    exact locks.inside transaction lock
  · intro transaction lock
    rw [State.goto_other state i _ phase (other transaction lock)]
    exact locks.transacts transaction lock

/-- A process leaves its transaction, if it has one, without a trace. -/
theorem State.Locks.releases (locks : state.Locks sound) (i : Nat) (phase : Phase)
    (enters : phase.inTransaction = false) : ((state.rollback i).goto i phase).Locks sound := by
  refine ⟨?_, ?_, ?_⟩
  · intro j inside
    by_cases same : j = i
    · rw [same, State.goto_self, enters] at inside
      contradiction
    · rw [State.goto_other _ i j phase same, State.rollback_processes] at inside
      obtain ⟨transaction, lock, holder⟩ := locks.locked j inside
      exact ⟨transaction, (state.rollback_lock i transaction).mpr ⟨lock, holder ▸ same⟩, holder⟩
  · intro transaction held
    obtain ⟨lock, other⟩ := (state.rollback_lock i transaction).mp held
    rw [State.goto_other _ i _ phase other, State.rollback_processes]
    exact locks.inside transaction lock
  · intro transaction held
    obtain ⟨lock, other⟩ := (state.rollback_lock i transaction).mp held
    rw [State.goto_other _ i _ phase other, State.rollback_processes]
    change sound (state.rollback i).row _ _
    rw [State.rollback_row]
    exact locks.transacts transaction lock

/-- A process opens or continues its transaction. -/
theorem State.Locks.transacted (locks : state.Locks sound) (i : Nat) (phase : Phase)
    (transaction : Transaction) (own : transaction.holder = i)
    (free : state.lock = none ∨ ∃ earlier, state.lock = some earlier ∧ earlier.holder = i)
    (stays : phase.inTransaction = true) (kept : sound state.row phase transaction) :
    ({ state with lock := some transaction }.goto i phase).Locks sound := by
  refine ⟨?_, ?_, ?_⟩
  · intro j inside
    by_cases same : j = i
    · exact ⟨transaction, rfl, own.trans same.symm⟩
    · rw [State.goto_other _ i j phase same] at inside
      obtain ⟨earlier, held, holder⟩ := locks.locked j inside
      rcases free with unlocked | ⟨mine, heldMine, holderMine⟩
      · simp [unlocked] at held
      · obtain rfl := Option.some.inj (held.symm.trans heldMine)
        exact absurd (holder.symm.trans holderMine) same
  · intro other held
    obtain rfl := Option.some.inj held
    rw [own, State.goto_self]
    exact stays
  · intro other held
    obtain rfl := Option.some.inj held
    rw [own, State.goto_self]
    exact kept

variable {after : State}

/-- An update of a process outside the transactions is lost, or opens a transaction on the
unlocked row. -/
theorem State.Locks.update_outside (locks : state.Locks sound) (i : Nat) (cause : Cause)
    (write : RunRow → Option RunRow) (won lost : Phase)
    (outside : (state.processes i).inTransaction = false)
    (updates : state.update i cause write won lost = some after) :
    after = state.goto i lost ∨
      ∃ row, write state.row = some row ∧ state.lock = none ∧
        after = { state with
          lock := some ⟨i, row, [Event.change i cause state.row row]⟩ }.goto i won := by
  unfold State.update at updates
  split at updates
  · next unlocked =>
      split at updates
      · exact Or.inl (Option.some.inj updates).symm
      · next row writes => exact Or.inr ⟨row, writes, unlocked, (Option.some.inj updates).symm⟩
  · next transaction lock =>
      split at updates
      · next mine =>
          have inside := locks.inside transaction lock
          rw [mine, outside] at inside
          contradiction
      · contradiction

/-- An update of a process inside its transaction continues it. -/
theorem State.Locks.update_inside (locks : state.Locks sound) (i : Nat) (cause : Cause)
    (write : RunRow → Option RunRow) (won lost : Phase)
    (inside : (state.processes i).inTransaction = true)
    (updates : state.update i cause write won lost = some after) :
    ∃ transaction, state.lock = some transaction ∧ transaction.holder = i ∧
      sound state.row (state.processes i) transaction ∧
      ((write transaction.draft = none ∧ after = state.goto i lost) ∨
        ∃ row, write transaction.draft = some row ∧
          after = { state with lock := some ⟨i, row,
            transaction.buffered ++ [Event.change i cause transaction.draft row]⟩ }.goto i won) := by
  obtain ⟨transaction, lock, mine⟩ := locks.locked i inside
  refine ⟨transaction, lock, mine, mine ▸ locks.transacts transaction lock, ?_⟩
  unfold State.update at updates
  rw [lock] at updates
  simp only [mine, ↓reduceIte] at updates
  split at updates
  · next lost' => exact Or.inl ⟨lost', (Option.some.inj updates).symm⟩
  · next row writes => exact Or.inr ⟨row, writes, (Option.some.inj updates).symm⟩

/-- A process that emits holds the lock; its effect is buffered, or a failed delivery is dropped. -/
theorem State.emit_cases (i : Nat) (fails : Bool) (emits : state.emit i fails = some after) :
    ∃ held rescued effect todo next transaction,
      state.processes i = .writing held rescued (effect :: todo) next ∧
      state.lock = some transaction ∧ transaction.holder = i ∧
      ((effect = .delivered ∧ after = state.goto i (.writing held rescued todo next)) ∨
        after = { state with lock := some { transaction with
          buffered := transaction.buffered ++ [Event.effect i effect] } }.goto i
            (.writing held rescued todo next)) := by
  unfold State.emit at emits
  split at emits
  · next held rescued effect todo next transaction writing lock =>
      split at emits
      · next mine =>
          refine ⟨held, rescued, effect, todo, next, transaction, writing, lock, mine, ?_⟩
          split at emits
          · split at emits
            · next isolated => exact Or.inl ⟨isolated, (Option.some.inj emits).symm⟩
            · contradiction
          · exact Or.inr (Option.some.inj emits).symm
      · contradiction
  · contradiction

/-- A commit publishes the draft and the events of a transaction with nothing left to write. -/
theorem State.commit_cases (i : Nat) (commits : state.commit i = some after) :
    ∃ held rescued next transaction, state.processes i = .writing held rescued [] next ∧
      state.lock = some transaction ∧ transaction.holder = i ∧
      after = { state with
        row := transaction.draft
        lock := none
        log := state.log ++ transaction.buffered }.goto i next.phase := by
  unfold State.commit at commits
  split at commits
  · next held rescued next transaction writing lock =>
      split at commits
      · next mine =>
          exact ⟨held, rescued, next, transaction, writing, lock, mine, (Option.some.inj commits).symm⟩
      · contradiction
  · contradiction

theorem Next.phase_outside (next : Next) : next.phase.inTransaction = false := by
  cases next <;> rfl

/-- A commit frees the lock. -/
theorem State.Locks.commits (locks : state.Locks sound) (i : Nat) (next : Next)
    (transaction : Transaction) (lock : state.lock = some transaction)
    (mine : transaction.holder = i) (row : RunRow) (log : List Event) :
    ({ state with row := row, lock := none, log := log }.goto i next.phase).Locks sound := by
  refine ⟨?_, ?_, ?_⟩
  · intro j inside
    by_cases same : j = i
    · rw [same, State.goto_self, next.phase_outside] at inside
      contradiction
    · rw [State.goto_other _ i j _ same] at inside
      obtain ⟨other, held, holder⟩ := locks.locked j inside
      obtain rfl := Option.some.inj (lock.symm.trans held)
      exact absurd (holder.symm.trans mine) same
  · intro other held
    contradiction
  · intro other held
    contradiction

end LumenCopilot.Runs
