import LumenCopilot.Proof.Runs.Settlement

namespace LumenCopilot.Runs

open Library

/-- These are the phases of a delivery. -/
def Phase.delivers : Phase → Bool
  | .reaping _ | .requesting _ _ | .deciding _ _ | .rerouting _ | .ensuring none (some _) => false
  | _ => true

/-- This is the committed claim that a process made, also after it left the run queued. -/
def Phase.made : Phase → Option Int
  | .executing _ claim _ | .settling claim _ _ | .retrying claim => some claim
  | .ensuring claim _ | .writing claim _ _ _ => claim
  | _ => none

/-- The writer won the claim in one of the events. -/
def Won (events : List Event) (writer : Nat) (claim : Int) : Prop :=
  ∃ cause before after, .change writer cause before after ∈ events ∧ before.status = .queued ∧
    after.status = .running ∧ after.startedAt = some claim

/-- A delivery changes the status only when it wins a claim, or under a claim that it won. -/
def Event.Authorised (delivery : Nat → Prop) (events : List Event) (event : Event) : Prop :=
  ∀ writer cause before after, event = .change writer cause before after → delivery writer →
    after.status ≠ before.status →
      before.status = .queued ∧ after.status = .running ∨
        ∃ claim, before.startedAt = some claim ∧ Won events writer claim

/-- No claim is held on a row with this status. -/
def RunStatus.isFree (status : RunStatus) : Bool := status ≠ .running && status ≠ .failed

/-- An owner control finds the run between two executions, and a process without a claim fails no
running run. -/
def Action.keepsClaims (state : State) : Action → Bool
  | .reassign _ _ | .control _ _ => state.row.status.isFree
  | .ensure i _ _ => state.processes i ≠ .ensuring none none || state.row.status ≠ .running
  | _ => true

variable {events more : List Event} {writer : Nat} {claim : Int}

theorem Won.mono (won : Won events writer claim) (kept : events ⊆ more) :
    Won more writer claim := by
  obtain ⟨cause, before, after, member, facts⟩ := won
  exact ⟨cause, before, after, kept member, facts⟩

variable {event : Event}

theorem Event.Authorised.mono {delivery : Nat → Prop}
    (authorised : event.Authorised delivery events) (kept : events ⊆ more) :
    event.Authorised delivery more := by
  intro writer cause before after same delivers changes
  rcases authorised writer cause before after same delivers changes with claims | ⟨claim, holds, won⟩
  · exact Or.inl claims
  · exact Or.inr ⟨claim, holds, won.mono kept⟩

theorem Event.effect_authorised (delivery : Nat → Prop) (events : List Event) (writer : Nat)
    (written : Effect) : (Event.effect writer written).Authorised delivery events := by
  rintro other cause before after same
  contradiction

theorem Event.change_authorised (delivery : Nat → Prop) (events : List Event) (writer : Nat)
    (cause : Cause) (before after : RunRow)
    (authorised : delivery writer → after.status ≠ before.status →
      before.status = .queued ∧ after.status = .running ∨
        ∃ claim, before.startedAt = some claim ∧ Won events writer claim) :
    (Event.change writer cause before after).Authorised delivery events := by
  intro writer cause before after same
  obtain ⟨rfl, rfl, rfl, rfl⟩ := Event.change.inj same
  exact authorised

/-- The stage of a transaction relates the row, the draft and the phase of the holder. -/
def Transaction.Staged (row : RunRow) (phase : Phase) (transaction : Transaction) : Prop :=
  match phase with
  | .claimed _ claim _ =>
      row.status = .queued ∧ transaction.draft.status = .running ∧
        transaction.draft.startedAt = some claim ∧
        Won transaction.buffered transaction.holder claim
  | .rerouting _ => row.status.isFree = true
  | .writing held _ _ (.execute _ claim _) =>
      row.status = .queued ∧ transaction.draft.status = .running ∧
        transaction.draft.startedAt = some claim ∧ held = none ∧
        Won transaction.buffered transaction.holder claim
  | .writing held _ _ (.retry claim) =>
      row.status = .running ∧ transaction.draft.status = .queued ∧ held = some claim
  | .writing held _ _ .stop =>
      transaction.draft.status = .failed ∨
        transaction.draft.status ≠ .running ∧
          (row.status = .running ∧ held.isSome ∨ row.status.isFree = true)
  | _ => False

/-- The invariant of the system with owner controls between the executions. -/
structure State.Claims (delivery : Nat → Prop) (state : State) : Prop where
  delivering : ∀ i, delivery i → (state.processes i).delivers = true
  logged : ∀ event ∈ state.log, event.Authorised delivery state.log
  buffered : ∀ transaction, state.lock = some transaction → ∀ event ∈ transaction.buffered,
    event.Authorised delivery (state.log ++ transaction.buffered)
  won : ∀ i claim, (state.processes i).made = some claim → Won state.log i claim
  holders : ∀ i claim, (state.processes i).holds = some claim →
    state.row.status = .running ∧ state.row.startedAt = some claim ∨ state.row.status = .failed
  unique : state.row.status = .running → ∀ i j,
    (state.processes i).holds.isSome → (state.processes j).holds.isSome → i = j
  handoff : ∀ i, (state.processes i).Handoff
  locks : state.Locks Transaction.Staged

variable {delivery : Nat → Prop}

theorem State.initial_claims (ownerId : Nat) (createdAt : Int) :
    (State.initial (.enqueued ownerId createdAt)).Claims delivery := by
  refine ⟨?_, ?_, ?_, ?_, ?_, ?_, ?_, State.initial_locks _⟩ <;>
    simp [State.initial, Phase.delivers, Phase.made, Phase.holds, Phase.Handoff]

/-- A phase that a process enters keeps or drops its claim. -/
structure Phase.Keeps (delivers : Prop) (before after : Phase) : Prop where
  delivering : delivers → before.delivers = true → after.delivers = true
  made : after.made = none ∨ after.made = before.made
  holds : after.holds = none ∨ after.holds = before.holds
  handoff : after.Handoff

/-- A phase without a claim has nothing to hand over. -/
theorem Phase.Keeps.unclaimed {delivers : Prop} {before after : Phase}
    (delivering : after.delivers = true) (unmade : after.made = none) (unheld : after.holds = none) :
    Phase.Keeps delivers before after := by
  refine ⟨fun _ _ => delivering, Or.inl unmade, Or.inl unheld, ?_⟩
  rintro claim retryStartedAt rfl
  exact nomatch unmade

/-- A step that keeps the row and the log keeps what the invariant says about them. -/
theorem State.Claims.frame {state after : State} (claims : state.Claims delivery) (i : Nat)
    (phase : Phase) (keeps : Phase.Keeps (delivery i) (state.processes i) phase)
    (sameProcesses : after.processes = (state.goto i phase).processes)
    (sameRow : after.row = state.row) (sameLog : after.log = state.log)
    (buffered : ∀ transaction, after.lock = some transaction → ∀ event ∈ transaction.buffered,
      event.Authorised delivery (state.log ++ transaction.buffered))
    (locks : after.Locks Transaction.Staged) : after.Claims delivery := by
  have kept (j : Nat) (claim : Int) (holds : (after.processes j).holds = some claim) :
      (state.processes j).holds = some claim :=
    state.goto_kept i j phase claim Phase.holds keeps.holds (sameProcesses ▸ holds)
  refine ⟨?_, sameLog ▸ claims.logged, sameLog ▸ buffered, ?_, ?_, ?_, ?_, locks⟩
  · rw [sameProcesses]
    intro j delivers
    by_cases same : j = i
    · subst same
      rw [State.goto_self]
      exact keeps.delivering delivers (claims.delivering j delivers)
    · rw [State.goto_other state i j phase same]
      exact claims.delivering j delivers
  · rw [sameLog, sameProcesses]
    intro j claim made
    exact claims.won j claim (state.goto_kept i j phase claim Phase.made keeps.made made)
  · rw [sameRow]
    exact fun j claim holds => claims.holders j claim (kept j claim holds)
  · rw [sameRow]
    intro running j k first second
    obtain ⟨mine, holdsFirst⟩ := Option.isSome_iff_exists.mp first
    obtain ⟨yours, holdsSecond⟩ := Option.isSome_iff_exists.mp second
    exact claims.unique running j k (by simp [kept j mine holdsFirst])
      (by simp [kept k yours holdsSecond])
  · rw [sameProcesses]
    exact state.goto_all i phase (fun _ => Phase.Handoff) claims.handoff keeps.handoff

/-- A process outside the transactions moves. -/
theorem State.Claims.moves {state : State} (claims : state.Claims delivery) (i : Nat) (phase : Phase)
    (outside : (state.processes i).inTransaction = false) (enters : phase.inTransaction = false)
    (keeps : Phase.Keeps (delivery i) (state.processes i) phase) : (state.goto i phase).Claims delivery :=
  claims.frame i phase keeps rfl rfl rfl claims.buffered (claims.locks.moves i phase outside enters)

/-- A process leaves its transaction, if it has one, without a trace. -/
theorem State.Claims.releases {state : State} (claims : state.Claims delivery) (i : Nat)
    (phase : Phase) (enters : phase.inTransaction = false)
    (keeps : Phase.Keeps (delivery i) (state.processes i) phase) :
    ((state.rollback i).goto i phase).Claims delivery := by
  refine claims.frame i phase keeps ?_ (state.rollback_row i) (state.rollback_log i) ?_
    (claims.locks.releases i phase enters)
  · simp only [State.goto, State.rollback_processes]
  · intro transaction held
    obtain ⟨lock, -⟩ := (state.rollback_lock i transaction).mp held
    exact claims.buffered transaction lock

/-- A process opens or continues its transaction. -/
theorem State.Claims.transacted {state : State} (claims : state.Claims delivery) (i : Nat)
    (phase : Phase) (transaction : Transaction) (own : transaction.holder = i)
    (free : state.lock = none ∨ ∃ earlier, state.lock = some earlier ∧ earlier.holder = i)
    (stays : phase.inTransaction = true) (keeps : Phase.Keeps (delivery i) (state.processes i) phase)
    (staged : transaction.Staged state.row phase)
    (authorised : ∀ event ∈ transaction.buffered,
      event.Authorised delivery (state.log ++ transaction.buffered)) :
    ({ state with lock := some transaction }.goto i phase).Claims delivery := by
  refine claims.frame i phase keeps rfl rfl rfl ?_
    (claims.locks.transacted i phase transaction own free stays staged)
  intro other held
  obtain rfl := Option.some.inj held
  exact authorised

/-- An update of a process outside the transactions opens a transaction or ends the process. -/
theorem State.Claims.updates {state after : State} (claims : state.Claims delivery) (i : Nat)
    (cause : Cause) (write : RunRow → Option RunRow) (won : Phase)
    (outside : (state.processes i).inTransaction = false) (stays : won.inTransaction = true)
    (keeps : Phase.Keeps (delivery i) (state.processes i) won)
    (staged : ∀ row, write state.row = some row →
      Transaction.Staged state.row won ⟨i, row, [.change i cause state.row row]⟩)
    (authorised : ∀ row, write state.row = some row → delivery i → row.status ≠ state.row.status →
      state.row.status = .queued ∧ row.status = .running ∨
        ∃ claim, state.row.startedAt = some claim ∧ Won state.log i claim)
    (updates : state.update i cause write won .done = some after) : after.Claims delivery := by
  rcases claims.locks.update_outside i cause write won .done outside updates with
    rfl | ⟨row, writes, unlocked, rfl⟩
  · exact claims.moves i .done outside rfl
      (.unclaimed rfl rfl rfl)
  · refine claims.transacted i won _ rfl (Or.inl unlocked) stays keeps (staged row writes) ?_
    refine List.forall_mem_singleton.mpr (Event.change_authorised _ _ _ _ _ _ ?_)
    intro delivers changes
    rcases authorised row writes delivers changes with wins | ⟨claim, holds, earlier⟩
    · exact Or.inl wins
    · exact Or.inr ⟨claim, holds, earlier.mono (List.subset_append_left _ _)⟩

/-- A committing process is the only one that still holds a claim on a row that stays active. -/
theorem State.Claims.heldAfter {state : State} (claims : state.Claims delivery) (i : Nat)
    (transaction : Transaction) (held : Option Int) (rescued : Bool) (next : Next)
    (writing : state.processes i = .writing held rescued [] next)
    (staged : transaction.Staged state.row (.writing held rescued [] next))
    (j : Nat) (claim : Int) (holds : ((state.goto i next.phase).processes j).holds = some claim) :
    j = i ∧ transaction.draft.status = .running ∧ transaction.draft.startedAt = some claim ∨
      transaction.draft.status = .failed := by
  by_cases same : j = i
  · subst same
    rw [State.goto_self] at holds
    cases next with
    | stop | retry mine => simp [Next.phase, Phase.holds] at holds
    | execute attempt mine session =>
        obtain rfl : mine = claim := by simpa [Next.phase, Phase.holds] using holds
        exact Or.inl ⟨rfl, staged.2.1, staged.2.2.1⟩
  · rw [State.goto_other _ i j _ same] at holds
    have before := claims.holders j claim holds
    have alone (running : state.row.status = .running) (mine : held.isSome) : False :=
      same (claims.unique running j i (by simp [holds]) (by simpa [writing, Phase.holds] using mine))
    cases next with
    | execute attempt mine session => simp [staged.1] at before
    | retry mine => exact (alone staged.1 (by simp [staged.2.2])).elim
    | stop =>
        rcases staged with failed | ⟨-, ⟨running, mine⟩ | free⟩
        · exact Or.inr failed
        · exact (alone running mine).elim
        · simp only [RunStatus.isFree, ne_eq, decide_not, Bool.and_eq_true, Bool.not_eq_eq_eq_not,
            Bool.not_true, decide_eq_false_iff_not] at free
          rcases before with ⟨running, -⟩ | failed
          · exact absurd running free.1
          · exact absurd failed free.2

/-- A commit adds the events of its transaction to the log. -/
theorem State.Claims.commits {state after : State} (claims : state.Claims delivery) (i : Nat)
    (commits : state.commit i = some after) : after.Claims delivery := by
  obtain ⟨held, rescued, next, transaction, writing, lock, mine, rfl⟩ := State.commit_cases i commits
  have staged := claims.locks.transacts transaction lock
  rw [mine, writing] at staged
  have heldAfter := claims.heldAfter i transaction held rescued next writing staged
  refine ⟨?_, ?_, by simp [State.goto], ?_, ?_, ?_, ?_,
    claims.locks.commits i next transaction lock mine _ _⟩
  · intro j delivers
    by_cases same : j = i
    · subst same
      rw [State.goto_self]
      cases next <;> rfl
    · rw [State.goto_other _ i j _ same]
      exact claims.delivering j delivers
  · refine List.forall_mem_append.mpr ⟨?_, claims.buffered transaction lock⟩
    intro event member
    exact (claims.logged event member).mono (List.subset_append_left _ _)
  · intro j claim made
    change Won (state.log ++ transaction.buffered) j claim
    by_cases same : j = i
    · subst same
      rw [State.goto_self] at made
      cases next with
      | stop => simp [Next.phase, Phase.made] at made
      | retry again =>
          obtain rfl : again = claim := by simpa [Next.phase, Phase.made] using made
          exact (claims.won j again (by simp [writing, Phase.made, staged.2.2])).mono
            (List.subset_append_left _ _)
      | execute attempt again session =>
          obtain rfl : again = claim := by simpa [Next.phase, Phase.made] using made
          exact (mine ▸ staged.2.2.2.2).mono (List.subset_append_right _ _)
    · rw [State.goto_other _ i j _ same] at made
      exact (claims.won j claim made).mono (List.subset_append_left _ _)
  · intro j claim holds
    rcases heldAfter j claim holds with ⟨-, running⟩ | failed
    · exact Or.inl running
    · exact Or.inr failed
  · intro running j k first second
    obtain ⟨claim, holdsFirst⟩ := Option.isSome_iff_exists.mp first
    obtain ⟨other, holdsSecond⟩ := Option.isSome_iff_exists.mp second
    change transaction.draft.status = .running at running
    rcases heldAfter j claim holdsFirst with ⟨here, -⟩ | failed
    · rcases heldAfter k other holdsSecond with ⟨there, -⟩ | failed
      · exact here.trans there.symm
      · simp [failed] at running
    · simp [failed] at running
  · refine State.goto_all _ i next.phase (fun _ => Phase.Handoff) claims.handoff ?_
    cases next <;> simp [Next.phase, Phase.Handoff]

section

variable {state after : State} (claims : state.Claims delivery)
include claims

/-- An update of a process inside its transaction continues that transaction. -/
theorem State.Claims.continues (i : Nat) (cause : Cause) (write : RunRow → Option RunRow)
    (won lost : Phase) (inside : (state.processes i).inTransaction = true)
    (stays : won.inTransaction = true) (keeps : Phase.Keeps (delivery i) (state.processes i) won)
    (extended : ∀ transaction : Transaction, transaction.holder = i →
      transaction.Staged state.row (state.processes i) → ∃ row, write transaction.draft = some row ∧
        Transaction.Staged state.row won
          ⟨i, row, transaction.buffered ++ [.change i cause transaction.draft row]⟩ ∧
        (delivery i → row.status ≠ transaction.draft.status →
          ∃ claim, transaction.draft.startedAt = some claim ∧ Won transaction.buffered i claim))
    (updates : state.update i cause write won lost = some after) : after.Claims delivery := by
  obtain ⟨transaction, lock, mine, staged, ends⟩ :=
    claims.locks.update_inside i cause write won lost inside updates
  obtain ⟨row, writes, kept, authorised⟩ := extended transaction mine staged
  rcases ends with ⟨lost', -⟩ | ⟨other, writesOther, rfl⟩
  · simp [writes] at lost'
  · obtain rfl := Option.some.inj (writes.symm.trans writesOther)
    refine claims.transacted i won _ rfl (Or.inr ⟨transaction, lock, mine⟩) stays keeps kept ?_
    rw [← List.append_assoc]
    refine List.forall_mem_append.mpr ⟨?_, List.forall_mem_singleton.mpr ?_⟩
    · intro event member
      exact (claims.buffered transaction lock event member).mono (List.subset_append_left _ _)
    · refine Event.change_authorised _ _ _ _ _ _ ?_
      intro delivers changes
      obtain ⟨claim, holds, earlier⟩ := authorised delivers changes
      refine Or.inr ⟨claim, holds, earlier.mono ?_⟩
      intro event member
      simp [member]

theorem State.Claims.claimed (i : Nat) (now : Int) (wins : state.claim i now = some after) :
    after.Claims delivery := by
  obtain ⟨attempt, seen, observed, wins⟩ := State.claim_cases wins
  refine claims.updates i .system _ _ (by simp [observed, Phase.inTransaction]) rfl
    (.unclaimed rfl rfl rfl) ?_ ?_ wins
  · intro row writes
    obtain ⟨queued, -, running, startedAt⟩ := RunRow.markRunning_guarded _ _ _ _ writes
    exact ⟨queued, running, startedAt, .system, state.row, row, List.mem_singleton_self _,
      queued, running, startedAt⟩
  · intro row writes delivers changes
    obtain ⟨queued, -, running, -⟩ := RunRow.markRunning_guarded _ _ _ _ writes
    exact Or.inl ⟨queued, running⟩

theorem State.Claims.refused (i : Nat) (finishedAt : Int) (error : RunError)
    (refuses : state.refuse i finishedAt error = some after) : after.Claims delivery := by
  obtain ⟨attempt, claim, seen, claimed, refuses⟩ := State.refuse_cases refuses
  refine claims.continues i (.claimant claim) _ _ _ (by simp [claimed, Phase.inTransaction]) rfl
    (.unclaimed rfl rfl rfl) ?_ refuses
  intro transaction mine staged
  rw [claimed] at staged
  obtain ⟨-, running, startedAt, won⟩ := staged
  obtain ⟨draft, writes, failed, -⟩ := RunRow.markTerminal_running
    { status := .failed, finishedAt := finishedAt, error := some error } transaction.draft running
  exact ⟨draft, writes, Or.inl failed, fun _ _ => ⟨claim, startedAt, mine ▸ won⟩⟩

theorem State.Claims.prepared (i : Nat) (newSession : Nat)
    (prepares : state.prepare i newSession = some after) : after.Claims delivery := by
  obtain ⟨attempt, claim, seen, claimed, prepares⟩ := State.prepare_cases prepares
  have inside : (state.processes i).inTransaction = true := by simp [claimed, Phase.inTransaction]
  rcases prepares with ⟨session, rfl⟩ | prepares
  · obtain ⟨transaction, lock, mine⟩ := claims.locks.locked i inside
    have staged := mine ▸ claims.locks.transacts transaction lock
    rw [claimed] at staged
    obtain ⟨queued, running, startedAt, won⟩ := staged
    have same : ({ state with lock := some transaction } : State) = state := by rw [← lock]
    rw [← same]
    exact claims.transacted i _ transaction mine (Or.inr ⟨transaction, lock, mine⟩) rfl
      (.unclaimed rfl rfl rfl)
      ⟨queued, running, startedAt, rfl, won⟩ (claims.buffered transaction lock)
  · refine claims.continues i (.claimant claim) _ _ _ inside rfl
      (.unclaimed rfl rfl rfl) ?_ prepares
    intro transaction mine staged
    rw [claimed] at staged
    obtain ⟨queued, running, startedAt, won⟩ := staged
    have attached : transaction.draft.attachSession newSession =
        { transaction.draft with sessionId := some newSession } := by
      simp [RunRow.attachSession, running]
    refine ⟨_, rfl, ?_, ?_⟩
    · rw [attached]
      exact ⟨queued, running, startedAt, rfl, (mine ▸ won).mono (List.subset_append_left _ _)⟩
    · intro delivers changes
      exact ⟨claim, startedAt, mine ▸ won⟩

theorem State.Claims.requeued (maxRetries i : Nat) (outcome : Outcome)
    (requeues : state.requeue maxRetries i outcome = some after) : after.Claims delivery := by
  obtain ⟨attempt, claim, session, executing, requeues⟩ := State.requeue_cases requeues
  refine claims.updates i (.claimant claim) _ _ (by simp [executing, Phase.inTransaction]) rfl
    ⟨fun _ _ => rfl, Or.inr (by simp [executing, Phase.made]),
      Or.inr (by simp [executing, Phase.holds]), by simp [Phase.Handoff]⟩ ?_ ?_ requeues
  · intro row writes
    obtain ⟨running, -, queued, -⟩ := RunRow.markQueued_guarded _ _ _ _ writes
    exact ⟨running, queued, rfl⟩
  · intro row writes delivers changes
    obtain ⟨-, startedAt, -, -⟩ := RunRow.markQueued_guarded _ _ _ _ writes
    exact Or.inr ⟨claim, startedAt, claims.won i claim (by simp [executing, Phase.made])⟩

end

/-- A holder of a claim on a running row holds the claim of the row. -/
theorem State.Claims.startedAt {state : State} (claims : state.Claims delivery) {i : Nat}
    (holds : (state.processes i).holds = some claim) (running : state.row.status = .running) :
    state.row.startedAt = some claim := by
  rcases claims.holders i claim holds with ⟨-, same⟩ | failed
  · exact same
  · simp [failed] at running

section

variable {state after : State} (claims : state.Claims delivery) (i : Nat)
include claims

theorem State.Claims.finished (finishedAt : Int) (finishes : state.finish i finishedAt = some after)
    :
    after.Claims delivery := by
  obtain ⟨claim, session, outcome, messageId, settling, finishes⟩ := State.finish_cases finishes
  refine claims.updates i (.claimant claim) _ _ (by simp [settling, Phase.inTransaction]) rfl
    ⟨fun _ _ => rfl, Or.inr (by simp [settling, Phase.made]),
      Or.inr (by simp [settling, Phase.holds]), by simp [Phase.Handoff]⟩ ?_ ?_ finishes
  · intro row writes
    obtain ⟨running, -, status, -⟩ := RunRow.markTerminal_guarded _ _ _ _ _ writes
    have terminal := outcome.terminalStatus_isTerminal
    refine Or.inr ⟨?_, Or.inl ⟨running, rfl⟩⟩
    intro again
    have active : outcome.terminalStatus = .running := status.symm.trans again
    simp [active, RunStatus.isTerminal] at terminal
  · intro row writes delivers changes
    obtain ⟨running, -, -, -⟩ := RunRow.markTerminal_guarded _ _ _ _ _ writes
    have mine : (state.processes i).holds = some claim := by simp [settling, Phase.holds]
    exact Or.inr ⟨claim, claims.startedAt mine running,
      claims.won i claim (by simp [settling, Phase.made])⟩

theorem State.Claims.ensured (finishedAt : Int) (error : RunError)
    (claimed : (Action.ensure i finishedAt error).keepsClaims state = true)
    (ensures : state.ensure i finishedAt error = some after) : after.Claims delivery := by
  obtain ⟨claim, retryStartedAt, ensuring, ensures⟩ := State.ensure_cases ensures
  refine claims.updates i (.of claim) _ _ (by simp [ensuring, Phase.inTransaction]) rfl
    ⟨fun _ _ => rfl, ?_, ?_, by simp [Phase.Handoff]⟩ ?_ ?_ ensures
  · cases retryStartedAt with
    | none => exact Or.inr (by simp [ensuring, Phase.made])
    | some retry => exact Or.inl rfl
  · cases retryStartedAt with
    | none => exact Or.inr (by simp [ensuring, Phase.holds])
    | some retry => exact Or.inl rfl
  · intro row writes
    obtain ⟨-, -, status, -⟩ := RunRow.markTerminal_guarded _ _ _ _ _ writes
    exact Or.inl status
  · intro row writes delivers changes
    obtain ⟨expected, startedAt, -, -⟩ := RunRow.markTerminal_guarded _ _ _ _ _ writes
    have delivering := claims.delivering i delivers
    right
    cases claim with
    | none =>
        cases retryStartedAt with
        | none =>
            have running : state.row.status = .running := expected
            simp [Action.keepsClaims, ensuring, running] at claimed
        | some retry => simp [ensuring, Phase.delivers] at delivering
    | some mine =>
        refine ⟨mine, ?_, claims.won i mine (by simp [ensuring, Phase.made])⟩
        cases retryStartedAt with
        | none =>
            have held : (state.processes i).holds = some mine := by simp [ensuring, Phase.holds]
            exact claims.startedAt held expected
        | some retry =>
            rw [claims.handoff i mine retry ensuring]
            exact startedAt retry rfl

theorem State.Claims.reaped (finishedAt : Int) (reaps : state.reap i finishedAt = some after) :
    after.Claims delivery := by
  obtain ⟨olderThan, error, reaping, reaps⟩ := State.reap_cases reaps
  refine claims.updates i .system _ _ (by simp [reaping, Phase.inTransaction]) rfl
    (.unclaimed rfl rfl rfl) ?_ ?_ reaps
  · intro row writes
    obtain ⟨-, failed, -⟩ := RunRow.failStaleRunning_guarded _ _ _ _ _ writes
    exact Or.inl failed
  · intro row writes delivers
    have delivering := claims.delivering i delivers
    simp [reaping, Phase.delivers] at delivering

theorem State.Claims.reassigned (targetExists : Bool) (free : state.row.status.isFree = true)
    (reassigns : state.reassign i targetExists = some after) : after.Claims delivery := by
  obtain ⟨toOwner, seen, deciding, ends⟩ := State.reassign_cases reassigns
  have outside : (state.processes i).inTransaction = false := by
    simp [deciding, Phase.inTransaction]
  rcases ends with rfl | updates
  · exact claims.moves i .done outside rfl (.unclaimed rfl rfl rfl)
  · refine claims.updates i .control _ _ outside rfl
      ⟨fun _ => by simp [deciding, Phase.delivers], Or.inl rfl, Or.inl rfl, by simp [Phase.Handoff]⟩
      ?_ ?_ updates
    · intro row writes
      exact free
    · intro row writes delivers
      have delivering := claims.delivering i delivers
      simp [deciding, Phase.delivers] at delivering

/-- A decided control writes between two executions. -/
theorem State.Claims.decided (control : Control) (seen : RunRow) (write : RunRow → Option RunRow)
    (deciding : state.processes i = .deciding control seen) (free : state.row.status.isFree = true)
    (leaves : ∀ row, write state.row = some row → row.status ≠ .running)
    (updates : state.update i .control write (.writing none false [.controlled] .stop) .done =
      some after) : after.Claims delivery := by
  refine claims.updates i .control write _ (by simp [deciding, Phase.inTransaction]) rfl
    (.unclaimed rfl rfl rfl)
    ?_ ?_ updates
  · intro row writes
    exact Or.inr ⟨leaves row writes, Or.inr free⟩
  · intro row writes delivers
    have delivering := claims.delivering i delivers
    simp [deciding, Phase.delivers] at delivering

theorem State.Claims.controlled (finishedAt : Int) (free : state.row.status.isFree = true)
    (acts : state.control i finishedAt = some after) : after.Claims delivery := by
  rcases State.control_cases acts with ⟨seen, deciding, updates⟩ | ⟨seen, error, deciding, updates⟩ |
    ⟨seen, rerouting, updates⟩
  · refine claims.decided i .resume seen _ deciding free ?_ updates
    intro row writes
    cases writes
    simp
  · refine claims.decided i .cancel seen _ deciding free ?_ updates
    intro row writes
    cases writes
    simp
  · refine claims.continues i .control _ _ _ (by simp [rerouting, Phase.inTransaction]) rfl
      (.unclaimed rfl rfl rfl) ?_ updates
    intro transaction mine staged
    refine ⟨_, rfl, Or.inr ⟨by simp, Or.inr free⟩, ?_⟩
    intro delivers
    have delivering := claims.delivering i delivers
    simp [rerouting, Phase.delivers] at delivering

theorem State.Claims.emitted (fails : Bool) (emits : state.emit i fails = some after) :
    after.Claims delivery := by
  obtain ⟨held, rescued, effect, todo, next, transaction, writing, lock, mine, ends⟩ :=
    State.emit_cases i fails emits
  have staged := mine ▸ claims.locks.transacts transaction lock
  rw [writing] at staged
  have free : state.lock = none ∨ ∃ earlier, state.lock = some earlier ∧ earlier.holder = i :=
    Or.inr ⟨transaction, lock, mine⟩
  have keeps : Phase.Keeps (delivery i) (state.processes i) (.writing held rescued todo next) :=
    ⟨fun _ _ => rfl, Or.inr (by simp [writing, Phase.made]), Or.inr (by simp [writing, Phase.holds]),
      by simp [Phase.Handoff]⟩
  rcases ends with ⟨-, rfl⟩ | rfl
  · have same : ({ state with lock := some transaction } : State) = state := by rw [← lock]
    rw [← same]
    refine claims.transacted i _ transaction mine free rfl keeps ?_ (claims.buffered transaction lock)
    cases next <;> exact staged
  · refine claims.transacted i _ _ mine free rfl keeps ?_ ?_
    · cases next with
      | execute attempt claim session =>
          obtain ⟨queued, running, startedAt, none, won⟩ := staged
          exact ⟨queued, running, startedAt, none, won.mono (List.subset_append_left _ _)⟩
      | retry claim => exact staged
      | stop => exact staged
    · dsimp only
      rw [← List.append_assoc]
      refine List.forall_mem_append.mpr ⟨?_, List.forall_mem_singleton.mpr
        (Event.effect_authorised _ _ _ _)⟩
      intro event member
      exact (claims.buffered transaction lock event member).mono (List.subset_append_left _ _)

end

theorem Phase.afterRaise_keeps (delivers : Prop) (before after : Phase) (retries : Bool)
    (raises : before.afterRaise retries = some after) :
    after.inTransaction = false ∧ Phase.Keeps delivers before after := by
  cases before with
  | ensuring claim retryStartedAt =>
      cases retryStartedAt with
      | none =>
          cases retries with
          | true =>
              obtain rfl := Option.some.inj raises
              exact ⟨rfl, fun _ => id, Or.inr rfl, Or.inr rfl, by simp [Phase.Handoff]⟩
          | false =>
              obtain rfl := Option.some.inj raises
              exact ⟨rfl, .unclaimed rfl rfl rfl⟩
      | some retry =>
          obtain rfl := Option.some.inj raises
          exact ⟨rfl, .unclaimed rfl rfl rfl⟩
  | writing claim rescued todo next =>
      cases rescued with
      | true =>
          obtain rfl := Option.some.inj raises
          exact ⟨rfl, fun _ _ => by cases claim <;> rfl, Or.inr rfl, Or.inr rfl,
            by simp [Phase.Handoff]⟩
      | false =>
          obtain rfl := Option.some.inj raises
          exact ⟨rfl, .unclaimed rfl rfl rfl⟩
  | executing attempt claim session =>
      obtain rfl := Option.some.inj raises
      exact ⟨rfl, fun _ _ => rfl, Or.inr rfl, Or.inr rfl, by simp [Phase.Handoff]⟩
  | settling claim session outcome =>
      obtain rfl := Option.some.inj raises
      exact ⟨rfl, fun _ _ => rfl, Or.inr rfl, Or.inr rfl, by simp [Phase.Handoff]⟩
  | idle | done | retrying claim => contradiction
  | starting attempt | observed attempt seen | claimed attempt claim seen | reaping olderThan
  | requesting control caller | deciding control seen | rerouting seen =>
      obtain rfl := Option.some.inj raises
      exact ⟨rfl, .unclaimed rfl rfl rfl⟩

/-- A delivery enters the system in its first phase. -/
def Action.SpawnsDelivery (delivery : Nat → Prop) (action : Action) : Prop :=
  ∀ i phase, action = .spawn i phase → delivery i → ∃ attempt, phase = .starting attempt

theorem State.Claims.spawned {state after : State} (claims : state.Claims delivery)
    (maxRetries i : Nat) (phase : Phase)
    (delivers : delivery i → ∃ attempt, phase = .starting attempt)
    (spawns : step maxRetries state (.spawn i phase) = some after) : after.Claims delivery := by
  simp only [step] at spawns
  split at spawns
  · next enters =>
      obtain rfl := Option.some.inj spawns
      obtain ⟨idle, initial⟩ := enters
      have outside : phase.inTransaction = false := by
        cases phase <;> simp_all [Phase.isInitial, Phase.inTransaction]
      have unclaimed : phase.made = none ∧ phase.holds = none ∧ phase.Handoff := by
        unfold Phase.isInitial at initial
        split at initial
        · exact ⟨rfl, rfl, by simp [Phase.Handoff]⟩
        · next retryStartedAt => cases retryStartedAt <;> exact ⟨rfl, rfl, by simp [Phase.Handoff]⟩
        · exact ⟨rfl, rfl, by simp [Phase.Handoff]⟩
        · exact ⟨rfl, rfl, by simp [Phase.Handoff]⟩
        · contradiction
      obtain ⟨unmade, unheld, handoff⟩ := unclaimed
      refine claims.moves i phase (by simp [idle, Phase.inTransaction]) outside
        ⟨?_, Or.inl unmade, Or.inl unheld, handoff⟩
      intro mine _
      obtain ⟨attempt, rfl⟩ := delivers mine
      rfl
  · contradiction

/-- Every step that keeps the claims keeps the invariant. -/
theorem step_claims (maxRetries : Nat) (state after : State) (action : Action)
    (claims : state.Claims delivery)
    (kept : action.keepsClaims state = true ∧ action.SpawnsDelivery delivery)
    (steps : step maxRetries state action = some after) : after.Claims delivery := by
  cases action with
  | spawn i phase => exact claims.spawned maxRetries i phase (kept.2 i phase rfl) steps
  | observe i =>
      obtain ⟨attempt, starting, ends⟩ := State.observe_cases steps
      have outside : (state.processes i).inTransaction = false := by
        simp [starting, Phase.inTransaction]
      rcases ends with ⟨-, rfl⟩ | rfl
      · exact claims.moves i _ outside rfl (.unclaimed rfl rfl rfl)
      · exact claims.moves i _ outside rfl (.unclaimed rfl rfl rfl)
  | claim i now => exact claims.claimed i now steps
  | refuse i finishedAt error => exact claims.refused i finishedAt error steps
  | prepare i newSession => exact claims.prepared i newSession steps
  | requeue i outcome => exact claims.requeued maxRetries i outcome steps
  | fold i outcome =>
      obtain ⟨attempt, claim, session, executing, ends⟩ := State.fold_cases steps
      have outside : (state.processes i).inTransaction = false := by
        simp [executing, Phase.inTransaction]
      rcases ends with rfl | rfl
      · exact claims.moves i _ outside rfl (.unclaimed rfl rfl rfl)
      · exact claims.moves i _ outside rfl
          ⟨fun _ _ => rfl, Or.inr (by simp [executing, Phase.made]),
            Or.inr (by simp [executing, Phase.holds]), by simp [Phase.Handoff]⟩
  | finish i finishedAt => exact claims.finished i finishedAt steps
  | publish i succeeds =>
      obtain ⟨claim, retrying, rfl⟩ := State.publish_cases steps
      have outside : (state.processes i).inTransaction = false := by
        simp [retrying, Phase.inTransaction]
      cases succeeds with
      | true => exact claims.moves i _ outside rfl (.unclaimed rfl rfl rfl)
      | false =>
          refine claims.moves i _ outside rfl
            ⟨fun _ _ => rfl, Or.inr (by simp [retrying, Phase.made]), Or.inl rfl, ?_⟩
          intro mine retry same
          obtain ⟨first, second⟩ := Phase.ensuring.inj same
          exact (Option.some.inj first).symm.trans (Option.some.inj second)
  | ensure i finishedAt error => exact claims.ensured i finishedAt error kept.1 steps
  | reap i finishedAt => exact claims.reaped i finishedAt steps
  | load i =>
      obtain ⟨control, caller, requesting, ends⟩ := State.load_cases steps
      have outside : (state.processes i).inTransaction = false := by
        simp [requesting, Phase.inTransaction]
      rcases ends with ⟨-, rfl⟩ | rfl
      · exact claims.moves i _ outside rfl
          ⟨fun _ => by simp [requesting, Phase.delivers], Or.inl rfl, Or.inl rfl,
            by simp [Phase.Handoff]⟩
      · exact claims.moves i _ outside rfl (.unclaimed rfl rfl rfl)
  | reassign i targetExists => exact claims.reassigned i targetExists kept.1 steps
  | control i finishedAt => exact claims.controlled i finishedAt kept.1 steps
  | emit i fails => exact claims.emitted i fails steps
  | commit i => exact claims.commits i steps
  | raise i retries =>
      obtain ⟨phase, raises, rfl⟩ := Option.map_eq_some_iff.mp steps
      obtain ⟨outside, keeps⟩ := Phase.afterRaise_keeps (delivery i) _ _ retries raises
      exact claims.releases i phase outside keeps
  | crash i =>
      obtain rfl := Option.some.inj steps
      exact claims.releases i .done rfl
        (.unclaimed rfl rfl rfl)

/-- A delivery escalates its run, the owner resumes it, and a second delivery succeeds while a third
one loses its claim and raises. -/
def resumedDeliveries : List Action :=
  [.spawn 0 (.starting 0), .observe 0, .claim 0 7, .prepare 0 3, .emit 0 false, .commit 0,
    .fold 0 { succeeded := false, error := some ⟨"ambiguous".toList, []⟩ }, .finish 0 9,
    .emit 0 false, .emit 0 false, .emit 0 false, .emit 0 false, .commit 0,
    .spawn 1 (.requesting .resume 5), .load 1, .control 1 0, .emit 1 false, .commit 1,
    .spawn 2 (.starting 0), .spawn 3 (.starting 0), .observe 2, .observe 3, .claim 2 20, .raise 3 false,
    .prepare 2 4, .emit 2 false, .commit 2, .fold 2 { succeeded := true, messageId := some 6 },
    .finish 2 30, .emit 2 false, .emit 2 false, .emit 2 false, .commit 2, .ensure 3 31 ⟨[], []⟩]

def Event.settlesAs (writer : Nat) (status : RunStatus) : Event → Bool
  | .change other _ before after =>
      other = writer && before.status = .running && after.status = status
  | .effect _ _ => false

theorem Event.settlesAs_eq_true {status : RunStatus}
    (settles : event.settlesAs writer status = true) :
    ∃ cause before after, event = .change writer cause before after ∧ before.status = .running ∧
      after.status = status := by
  cases event with
  | effect other written => contradiction
  | change other cause before after =>
      simp only [Event.settlesAs, Bool.and_eq_true, decide_eq_true_eq] at settles
      obtain ⟨⟨rfl, running⟩, settled⟩ := settles
      exact ⟨cause, before, after, rfl, running, settled⟩

/-- A second delivery raises at its first read while the first one executes the run. -/
def raisingDelivery : List Action :=
  [.spawn 0 (.starting 0), .observe 0, .claim 0 7, .prepare 0 3, .emit 0 false, .commit 0,
    .spawn 1 (.starting 0), .raise 1 false,
    .ensure 1 9 ⟨"internal_error".toList, "The run failed unexpectedly.".toList⟩,
    .emit 1 false, .emit 1 false, .commit 1]

end LumenCopilot.Runs
