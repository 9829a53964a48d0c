import LumenCopilot.Construction.Schedules.Fires
import LumenCopilot.Proof.Library.Lists
import LumenCopilot.Proof.Library.Transition

namespace LumenCopilot.Schedules

open Library Runs

variable {cap : Nat} {state after : TenantState} {place schedule : Nat} {fire : Fire}
  {choice : FireChoice}

/-- These are the active runs of the tenant across all its schedules. -/
def TenantState.activeRuns (state : TenantState) : Nat :=
  state.runs.countP fun run => run.active && run.scheduleId.isSome

/-- These are the active runs of a schedule that fires created. -/
def TenantState.activeFired (state : TenantState) (schedule : Nat) : Nat :=
  state.runs.countP fun run => run.active && run.fired && run.scheduleId = some schedule

/-- The fire has passed its gates and may still commit a run. -/
def FirePhase.pending : FirePhase → Bool
  | .admitted | .acquired | .located | .resolved | .created | .closing .enqueued => true
  | _ => false

/-- These are the fires that may still commit a run. -/
def TenantState.pending (state : TenantState) : Nat :=
  state.fires.countP fun fire => fire.phase.pending

def TenantState.pendingOf (state : TenantState) (schedule : Nat) : Nat :=
  state.fires.countP fun fire => fire.phase.pending && fire.schedule = schedule

/-- The gates admit a fire of this schedule. -/
def TenantState.admits (cap : Nat) (state : TenantState) (row : ScheduleRow) (schedule : Nat) : Prop :=
  gateOutcome cap row (state.countActiveForSchedule schedule) = none

/-- A fire that its gates admit finds, with the runs that other fires may still commit, less than the
cap in flight across all schedules, and no other fire of a schedule with overlap policy skip. -/
def Spaced (cap : Nat) (state : TenantState) : TenantAction → Prop
  | .fire place _ => ∀ schedule row, state.fires[place]? = some ⟨schedule, .loaded row⟩ →
      state.admits cap row schedule →
        state.activeRuns + state.pending < cap ∧
        (row.overlapPolicy = .skip → state.pendingOf schedule = 0)
  | _ => True

/-- The step commits the queued run of a fire. -/
def Enqueues (state : TenantState) : TenantAction → Prop
  | .fire place choice => ∃ schedule, state.fires[place]? = some ⟨schedule, .closing .enqueued⟩ ∧
      choice.passes = true
  | _ => False

/-- The outcome of a refused fire is not that of one that enqueues. -/
def FirePhase.Sound : FirePhase → Prop
  | .refused outcome => outcome ≠ .enqueued
  | _ => True

/-- What is in flight fits the cap, and a schedule that skips has one run of a fire at most. -/
structure Bounded (cap : Nat) (state : TenantState) : Prop where
  inFlight : 0 < state.pending → state.activeRuns + state.pending ≤ cap
  single : ∀ (schedule : Nat) (row : ScheduleRow), state.schedules[schedule]? = some row →
    row.overlapPolicy = .skip → state.activeFired schedule + state.pendingOf schedule ≤ 1
  loaded : ∀ fire ∈ state.fires, ∀ row, fire.phase = .loaded row →
    state.schedules[fire.schedule]? = some row
  sound : ∀ fire ∈ state.fires, fire.phase.Sound

/-- A fire moves to its next phase and commits its rows. -/
theorem fire_cases (steps : tenantStep cap state (.fire place choice) = some after) :
    ∃ fire phase, state.fires[place]? = some fire ∧
      fire.advance cap state choice = some phase ∧
      after = { state with
        runs := state.runs ++ fire.commits choice
        fires := state.fires.set place { fire with phase } } := by
  simp only [tenantStep] at steps
  split at steps
  · contradiction
  · next fire found =>
      obtain ⟨phase, advances, rfl⟩ := Option.map_eq_some_iff.mp steps
      exact ⟨fire, phase, found, advances, rfl⟩

/-- This is how a call changes what a fire may still commit: the count admits it, its commit adds its
run, and no other call makes it pending. -/
inductive FireMove (cap : Nat) (state : TenantState) (fire : Fire) (choice : FireChoice) :
    FirePhase → Prop where
  | admitted (row : ScheduleRow) : fire.phase = .loaded row → state.admits cap row fire.schedule →
      fire.commits choice = [] → FireMove cap state fire choice .admitted
  | committed : fire.phase = .closing .enqueued →
      fire.commits choice = [⟨some fire.schedule, true, .queued⟩] →
      FireMove cap state fire choice .committed
  | loaded (row : ScheduleRow) : fire.phase.pending = false →
      state.schedules[fire.schedule]? = some row → fire.commits choice = [] →
      FireMove cap state fire choice (.loaded row)
  | other (phase : FirePhase) : (phase.pending = true → fire.phase.pending = true) →
      (∀ row, phase ≠ .loaded row) → fire.commits choice = [] → FireMove cap state fire choice phase

variable {row : ScheduleRow}

theorem gate_refuses {active : Nat} {outcome : FireOutcome}
    (gate : gateOutcome cap row active = some outcome) : outcome ≠ .enqueued := by
  unfold gateOutcome at gate
  split at gate
  · obtain rfl := Option.some.inj gate
    nofun
  · split at gate
    · obtain rfl := Option.some.inj gate
      nofun
    · contradiction

variable {phase : FirePhase}

theorem Fire.advance_moves (sound : fire.phase.Sound)
    (advances : fire.advance cap state choice = some phase) :
    FireMove cap state fire choice phase ∧ phase.Sound := by
  obtain ⟨schedule, current⟩ := fire
  have commits : current ≠ .closing .enqueued → (⟨schedule, current⟩ : Fire).commits choice = [] := by
    intro other
    exact if_neg fun both => other both.1
  unfold Fire.advance at advances
  split at advances
  · contradiction
  · have same := Option.some.inj advances
    by_cases passes : choice.passes = true
    · rw [if_pos passes] at same
      cases current with
      | started =>
          simp only [Fire.proceed] at same
          split at same
          · subst same
            exact ⟨.other _ nofun nofun (commits nofun), trivial⟩
          · next row found =>
              split at same
              · subst same
                exact ⟨.loaded row rfl found (commits nofun), trivial⟩
              · subst same
                exact ⟨.other _ nofun nofun (commits nofun), trivial⟩
      | loaded row =>
          simp only [Fire.proceed] at same
          split at same
          · next outcome gate =>
              subst same
              exact ⟨.other _ nofun nofun (commits nofun), gate_refuses gate⟩
          · next gate =>
              subst same
              exact ⟨.admitted row rfl gate (commits nofun), trivial⟩
      | admitted =>
          simp only [Fire.proceed] at same
          split at same
          · subst same
            exact ⟨.other _ (fun _ => rfl) nofun (commits nofun), trivial⟩
          · subst same
            exact ⟨.other _ nofun nofun (commits nofun), nofun⟩
      | refused outcome =>
          subst same
          refine ⟨.other _ (fun pending => ?_) nofun (commits nofun), trivial⟩
          cases outcome with
          | enqueued => exact absurd rfl sound
          | _ => contradiction
      | acquired =>
          simp only [Fire.proceed] at same
          split at same
          · subst same
            exact ⟨.other _ (fun _ => rfl) nofun (commits nofun), trivial⟩
          · subst same
            exact ⟨.other _ nofun nofun (commits nofun), trivial⟩
      | located =>
          simp only [Fire.proceed] at same
          split at same
          · subst same
            exact ⟨.other _ (fun _ => rfl) nofun (commits nofun), trivial⟩
          · subst same
            exact ⟨.other _ nofun nofun (commits nofun), trivial⟩
      | unavailable =>
          subst same
          exact ⟨.other _ nofun nofun (commits nofun), trivial⟩
      | resolved =>
          subst same
          exact ⟨.other _ (fun _ => rfl) nofun (commits nofun), trivial⟩
      | created =>
          subst same
          exact ⟨.other _ (fun _ => rfl) nofun (commits nofun), trivial⟩
      | closing outcome =>
          simp only [Fire.proceed] at same
          split at same
          · next enqueued =>
              subst same
              subst enqueued
              exact ⟨.committed rfl (if_pos ⟨rfl, passes⟩), trivial⟩
          · next other =>
              subst same
              refine ⟨.other _ nofun nofun (commits ?_), trivial⟩
              rintro ⟨⟩
              exact other rfl
      | committed =>
          subst same
          exact ⟨.other _ nofun nofun (commits nofun), trivial⟩
      | finished outcome => contradiction
      | failed => contradiction
    · rw [if_neg passes] at same
      subst same
      exact ⟨.other _ nofun nofun (if_neg fun both => passes both.2), trivial⟩

/-- This is the state after a fire has moved. -/
def TenantState.moved (state : TenantState) (place : Nat) (fire : Fire) (phase : FirePhase)
    (rows : List TenantRun) : TenantState :=
  { state with runs := state.runs ++ rows, fires := state.fires.set place { fire with phase } }

theorem pending_moved (found : state.fires[place]? = some fire) (phase : FirePhase)
    (rows : List TenantRun) :
    (state.moved place fire phase rows).pending + (if fire.phase.pending then 1 else 0) =
      state.pending + (if phase.pending then 1 else 0) :=
  countP_set_eq found _ _

theorem pendingOf_moved (found : state.fires[place]? = some fire) (phase : FirePhase)
    (rows : List TenantRun) (schedule : Nat) :
    (state.moved place fire phase rows).pendingOf schedule +
        (if fire.phase.pending && fire.schedule = schedule then 1 else 0) =
      state.pendingOf schedule + (if phase.pending && fire.schedule = schedule then 1 else 0) :=
  countP_set_eq found _ _

theorem activeRuns_moved (state : TenantState) (place : Nat) (fire : Fire) (phase : FirePhase)
    (rows : List TenantRun) : (state.moved place fire phase rows).activeRuns =
      state.activeRuns + rows.countP fun run => run.active && run.scheduleId.isSome :=
  List.countP_append

theorem activeFired_moved (state : TenantState) (place : Nat) (fire : Fire) (phase : FirePhase)
    (rows : List TenantRun) (schedule : Nat) :
    (state.moved place fire phase rows).activeFired schedule = state.activeFired schedule +
      rows.countP fun run => run.active && run.fired && run.scheduleId = some schedule :=
  List.countP_append

/-- A fire that its gates admit under overlap policy skip finds no active run of its schedule. -/
theorem admits_skip (admits : state.admits cap row schedule) (skips : row.overlapPolicy = .skip) :
    state.activeFired schedule = 0 := by
  have none : state.countActiveForSchedule schedule = 0 := by
    unfold TenantState.admits gateOutcome at admits
    split at admits
    · contradiction
    · next idle => exact Nat.eq_zero_of_not_pos fun some => idle ⟨some, skips⟩
  have fewer : state.activeFired schedule ≤ state.countActiveForSchedule schedule := by
    refine List.countP_mono_left fun run _ counted => ?_
    simp only [Bool.and_eq_true] at counted ⊢
    exact ⟨counted.1.1, counted.2⟩
  omega

/-- The members of a changed list are the new one and old ones. -/
theorem mem_set_cases {α : Type} {items : List α} {item found : α} (member : found ∈ items.set place item) :
    found = item ∨ found ∈ items := by
  rcases List.mem_or_eq_of_mem_set member with old | new
  · exact .inr old
  · exact .inl new

/-- A fire that moves keeps the bounds. -/
theorem Bounded.moved (bounded : Bounded cap state) (found : state.fires[place]? = some fire)
    (spaced : Spaced cap state (.fire place choice)) (moves : FireMove cap state fire choice phase)
    (sound : phase.Sound) : Bounded cap (state.moved place fire phase (fire.commits choice)) := by
  have counts := pending_moved found phase (fire.commits choice)
  have countsOf := pendingOf_moved found phase (fire.commits choice)
  have active := activeRuns_moved state place fire phase (fire.commits choice)
  have fired := activeFired_moved state place fire phase (fire.commits choice)
  have member := List.mem_of_getElem? found
  have loaded (rows : ∀ row, phase = .loaded row → state.schedules[fire.schedule]? = some row) :
      ∀ other ∈ (state.moved place fire phase (fire.commits choice)).fires, ∀ row,
        other.phase = .loaded row → state.schedules[other.schedule]? = some row := by
    intro other known row loads
    rcases mem_set_cases known with rfl | known
    · exact rows row loads
    · exact bounded.loaded other known row loads
  have sounds : ∀ other ∈ (state.moved place fire phase (fire.commits choice)).fires,
      other.phase.Sound := by
    intro other known
    rcases mem_set_cases known with rfl | known
    · exact sound
    · exact bounded.sound other known
  cases moves with
  | admitted row loads admits commits =>
      have idle : fire.phase.pending = false := by rw [loads]; rfl
      have pends : FirePhase.admitted.pending = true := rfl
      obtain ⟨room, alone⟩ := spaced fire.schedule row
        (by rw [found]; exact congrArg (fun phase => some (Fire.mk fire.schedule phase)) loads) admits
      rw [idle, pends] at counts
      rw [commits] at counts active loaded sounds ⊢
      simp only [commits, List.countP_nil] at countsOf fired active
      refine ⟨fun _ => ?_, fun schedule other known skips => ?_, loaded nofun, sounds⟩
      · simp only [Bool.false_eq_true, if_false, if_true] at counts
        omega
      · have before := bounded.single schedule other known skips
        have countsOf := countsOf schedule
        have fired := fired schedule
        rw [idle, pends, Bool.false_and, Bool.true_and] at countsOf
        by_cases same : fire.schedule = schedule
        · subst same
          obtain rfl := Option.some.inj ((bounded.loaded fire member row loads).symm.trans known)
          have none := alone skips
          have fresh := admits_skip admits skips
          simp only [decide_true, Bool.false_eq_true, if_false, if_true] at countsOf
          omega
        · simp only [same, decide_false, Bool.false_eq_true, if_false] at countsOf
          omega
  | committed closes commits =>
      have pends : fire.phase.pending = true := by rw [closes]; rfl
      have idle : FirePhase.committed.pending = false := rfl
      rw [idle, pends] at counts
      rw [commits] at counts active loaded sounds ⊢
      simp only [commits, List.countP_singleton] at countsOf fired active
      refine ⟨fun more => ?_, fun schedule other known skips => ?_, loaded nofun, sounds⟩
      · have before := bounded.inFlight (List.countP_pos_iff.mpr ⟨fire, member, pends⟩)
        simp only [Bool.false_eq_true, if_false, if_true] at counts
        simp only [TenantRun.active, RunStatus.isTerminal, Option.isSome_some, Bool.not_false,
          Bool.and_self, if_true] at active
        omega
      · have before := bounded.single schedule other known skips
        have countsOf := countsOf schedule
        have fired := fired schedule
        rw [idle, pends, Bool.false_and, Bool.true_and] at countsOf
        by_cases same : fire.schedule = schedule
        · subst same
          simp only [decide_true, Bool.false_eq_true, if_false, if_true] at countsOf
          rw [if_pos (by simp [TenantRun.active, RunStatus.isTerminal])] at fired
          omega
        · simp only [same, decide_false, Bool.false_eq_true, if_false] at countsOf
          rw [if_neg (by simp [same])] at fired
          omega
  | loaded row idle rows commits =>
      have still : (FirePhase.loaded row).pending = false := rfl
      rw [idle, still] at counts
      rw [commits] at counts active loaded sounds ⊢
      simp only [commits, List.countP_nil] at countsOf fired active
      refine ⟨fun more => ?_, fun schedule other known skips => ?_, loaded fun other same => ?_, sounds⟩
      · have before := bounded.inFlight
        simp only [Bool.false_eq_true, if_false] at counts
        omega
      · have before := bounded.single schedule other known skips
        have countsOf := countsOf schedule
        have fired := fired schedule
        rw [idle, still, Bool.false_and] at countsOf
        simp only [Bool.false_eq_true, if_false] at countsOf
        omega
      · obtain rfl := FirePhase.loaded.inj same
        exact rows
  | other phase fewer plain commits =>
      have less : (if phase.pending then 1 else 0) ≤ if fire.phase.pending then 1 else 0 := by
        by_cases pends : phase.pending = true
        · simp [pends, fewer pends]
        · simp [pends]
      rw [commits] at counts active loaded sounds ⊢
      simp only [commits, List.countP_nil] at countsOf fired active
      refine ⟨fun more => ?_, fun schedule other known skips => ?_,
        loaded fun row same => absurd same (plain row), sounds⟩
      · have before := bounded.inFlight
        omega
      · have before := bounded.single schedule other known skips
        have countsOf := countsOf schedule
        have fired := fired schedule
        have lessOf : (if phase.pending && fire.schedule = schedule then 1 else 0) ≤
            if fire.phase.pending && fire.schedule = schedule then 1 else 0 := by
          by_cases pends : phase.pending = true
          · simp [pends, fewer pends]
          · simp [pends]
        omega

variable {runs : List TenantRun}

/-- Fewer active runs keep the bounds. -/
theorem Bounded.fewer (bounded : Bounded cap state)
    (inFlight : ({ state with runs } : TenantState).activeRuns ≤ state.activeRuns)
    (fired : ∀ schedule, ({ state with runs } : TenantState).activeFired schedule ≤
      state.activeFired schedule) : Bounded cap { state with runs } where
  inFlight more := by
    have before := bounded.inFlight more
    have same : ({ state with runs } : TenantState).pending = state.pending := rfl
    omega
  single schedule row known skips := by
    have before := bounded.single schedule row known skips
    have fewer := fired schedule
    have same : ({ state with runs } : TenantState).pendingOf schedule = state.pendingOf schedule := rfl
    omega
  loaded := bounded.loaded
  sound := bounded.sound

variable {run : TenantRun} {status : RunStatus}

/-- A run that is active only when it was before makes no count larger. -/
theorem active_set (found : runs[place]? = some run)
    (fewer : TenantRun.active { run with status } = true → run.active = true)
    (count : TenantRun → Bool) (keeps : count { run with status } = count run) :
    (runs.set place { run with status }).countP (fun run => run.active && count run) ≤
      runs.countP fun run => run.active && count run := by
  have counts := countP_set_eq found { run with status } fun run => run.active && count run
  rw [keeps] at counts
  by_cases active : TenantRun.active { run with status } = true
  · simp only [active, fewer active] at counts
    omega
  · simp only [active, Bool.false_and, Bool.false_eq_true, if_false] at counts
    omega

theorem Bounded.set (bounded : Bounded cap state) (found : state.runs[place]? = some run)
    (fewer : TenantRun.active { run with status } = true → run.active = true) :
    Bounded cap { state with runs := state.runs.set place { run with status } } := by
  apply bounded.fewer
  · exact active_set found fewer (fun run => run.scheduleId.isSome) rfl
  · intro schedule
    have counts := active_set found fewer
      (fun run => run.fired && decide (run.scheduleId = some schedule)) rfl
    simpa only [TenantState.activeFired, Bool.and_assoc] using counts

variable {action : TenantAction}

/-- Every spaced step keeps the bounds. -/
theorem Bounded.step (bounded : Bounded cap state) (spaced : Spaced cap state action)
    (steps : tenantStep cap state action = some after) : Bounded cap after := by
  cases action with
  | deliver schedule =>
      obtain rfl := Option.some.inj steps
      have pending (count : Fire → Bool) (idle : count ⟨schedule, .started⟩ = false) :
          (state.fires ++ [(⟨schedule, .started⟩ : Fire)]).countP count = state.fires.countP count := by
        rw [List.countP_append, List.countP_singleton, idle]
        rfl
      have same : ({ state with fires := state.fires ++ [⟨schedule, .started⟩] } : TenantState).pending =
          state.pending := pending (fun fire => fire.phase.pending) rfl
      refine ⟨fun more => ?_, fun other row known skips => ?_, fun fire member row loaded => ?_,
        fun fire member => ?_⟩
      · rw [same] at more ⊢
        exact bounded.inFlight more
      · have sameOf : ({ state with fires := state.fires ++ [⟨schedule, .started⟩] } :
            TenantState).pendingOf other = state.pendingOf other :=
          pending (fun fire => fire.phase.pending && fire.schedule = other) rfl
        rw [sameOf]
        exact bounded.single other row known skips
      · rcases List.mem_append.mp member with member | member
        · exact bounded.loaded fire member row loaded
        · obtain rfl := List.mem_singleton.mp member
          contradiction
      · rcases List.mem_append.mp member with member | member
        · exact bounded.sound fire member
        · obtain rfl := List.mem_singleton.mp member
          trivial
  | fire place choice =>
      obtain ⟨fire, phase, found, advances, rfl⟩ := fire_cases steps
      obtain ⟨moves, sound⟩ := Fire.advance_moves
        (bounded.sound fire (List.mem_of_getElem? found)) advances
      exact bounded.moved found spaced moves sound
  | startRun place =>
      simp only [tenantStep, TenantState.startRun] at steps
      split at steps
      · contradiction
      · next run found =>
          split at steps
          · next queued =>
              obtain rfl := Option.some.inj steps
              exact bounded.set found fun _ => by simp [TenantRun.active, queued, RunStatus.isTerminal]
          · contradiction
  | completeRun place status =>
      simp only [tenantStep, TenantState.completeRun] at steps
      split at steps
      · contradiction
      · next run found =>
          split at steps
          · next completes =>
              obtain rfl := Option.some.inj steps
              rw [Bool.and_eq_true] at completes
              exact bounded.set found fun _ => completes.1
          · contradiction

/-- A run commits its row only below the cap. -/
theorem Bounded.enqueues (bounded : Bounded cap state) (enqueues : Enqueues state action) :
    state.activeRuns < cap := by
  cases action with
  | fire place choice =>
      obtain ⟨schedule, found, _⟩ := enqueues
      have pending : 0 < state.pending :=
        List.countP_pos_iff.mpr ⟨_, List.mem_of_getElem? found, rfl⟩
      have inFlight := bounded.inFlight pending
      omega
  | _ => contradiction

/-- The fire gates hold: a run is enqueued below the cap of the tenant, and a schedule that skips has
one active run of a fire at most. -/
structure FireGates (cap : Nat) (state : TenantState) : Prop where
  belowCap : ∀ action after, tenantStep cap state action = some after → Enqueues state action →
    state.activeRuns < cap
  single : ∀ (schedule : Nat) (row : ScheduleRow), state.schedules[schedule]? = some row →
    row.overlapPolicy = .skip → state.activeFired schedule ≤ 1

/-- In every run whose fires are spaced, the gates hold in every state. -/
theorem fireGates_spaced {schedules : List ScheduleRow} {runs : List TenantRun}
    (unfired : ∀ run ∈ runs, run.fired = false) {actions : List TenantAction}
    (reached : Runs (tenantStep cap) (Spaced cap) (.initial schedules runs) actions state) :
    FireGates cap state := by
  have none (schedule : Nat) : (TenantState.initial schedules runs).activeFired schedule = 0 := by
    refine List.countP_eq_zero.mpr fun run member => ?_
    simp [unfired run member]
  have initially : Bounded cap (.initial schedules runs) :=
    ⟨nofun, fun schedule row _ _ => by rw [none schedule]; exact Nat.zero_le _, nofun, nofun⟩
  have bounded := reached.invariant (Bounded cap)
    (fun state action after bounded spaced steps => bounded.step spaced steps) initially
  refine ⟨fun action after _ enqueues => bounded.enqueues enqueues, fun schedule row known skips => ?_⟩
  have single := bounded.single schedule row known skips
  omega

/-- This check computes whether a fire is spaced. -/
def spacedCheck (cap : Nat) (state : TenantState) : TenantAction → Bool
  | .fire place _ =>
      match state.fires[place]? with
      | some ⟨schedule, .loaded row⟩ =>
          (gateOutcome cap row (state.countActiveForSchedule schedule)).isSome ||
            (state.activeRuns + state.pending < cap &&
              (row.overlapPolicy ≠ .skip || state.pendingOf schedule = 0))
      | _ => true
  | _ => true

theorem spacedCheck_spaced (checks : spacedCheck cap state action = true) :
    Spaced cap state action := by
  cases action with
  | fire place choice =>
      intro schedule row found admits
      simp only [spacedCheck, found] at checks
      rw [show gateOutcome cap row (state.countActiveForSchedule schedule) = none from admits] at checks
      simp only [Option.isSome_none, Bool.false_or, Bool.and_eq_true, decide_eq_true_eq,
        Bool.or_eq_true] at checks
      exact ⟨checks.1, fun skips => checks.2.resolve_left fun other => other skips⟩
  | _ => trivial

/-- Every call passes. -/
def passingChoice : FireChoice := ⟨true, true, .published, true⟩

/-- A fire takes so many calls that pass. -/
def fireCalls (place count : Nat) : List TenantAction := List.replicate count (.fire place passingChoice)

/-- Two schedules that skip overlaps. -/
def twoSchedules : List ScheduleRow := [⟨true, .skip⟩, ⟨true, .skip⟩]

/-- Two fires of sibling schedules come one after the other, and the first one's run completes. -/
def spacedFires : List TenantAction :=
  .deliver 0 :: fireCalls 0 9 ++ [.startRun 0, .completeRun 0 .succeeded, .deliver 1] ++ fireCalls 1 7

variable {actions : List TenantAction}

/-- A computed run of checked fires is a run of spaced fires. -/
theorem spaced_runs {start : TenantState}
    (executes : execute (guarded (tenantStep cap) (spacedCheck cap)) start actions = some state) :
    Runs (tenantStep cap) (Spaced cap) start actions state :=
  (Runs.of_execute executes).narrow fun _ _ _ checks => spacedCheck_spaced checks

theorem spacedFires_runs : (execute (guarded (tenantStep 1) (spacedCheck 1)) (.initial twoSchedules [])
    spacedFires).map (·.runs) = some [⟨some 0, true, .succeeded⟩] := by
  decide

/-- Spaced fires keep to a cap of one. -/
theorem fireGates_spaced_siblings : ∃ state : TenantState,
    Runs (tenantStep 1) (Spaced 1) (.initial twoSchedules []) spacedFires state ∧
      state.runs = [⟨some 0, true, .succeeded⟩] ∧ FireGates 1 state := by
  obtain ⟨state, executes, runs⟩ := Option.map_eq_some_iff.mp spacedFires_runs
  have reached := spaced_runs executes
  have unfired : ∀ run ∈ ([] : List TenantRun), run.fired = false := by
    intro run member
    contradiction
  exact ⟨state, reached, runs, fireGates_spaced unfired reached⟩

/-- The fire of a sibling schedule enqueues a run although the tenant's run of the other one is still
queued and the cap is one. -/
theorem siblings_exceed_cap : ∃ state : TenantState,
    Runs (tenantStep 1) (fun _ _ => True) (.initial twoSchedules [])
      (.deliver 0 :: fireCalls 0 9 ++ .deliver 1 :: fireCalls 1 7) state ∧ ¬ FireGates 1 state := by
  have computed : (execute (tenantStep 1) (.initial twoSchedules [])
      (.deliver 0 :: fireCalls 0 9 ++ .deliver 1 :: fireCalls 1 7)) = some
      ⟨twoSchedules, [⟨some 0, true, .queued⟩], [⟨0, .finished .enqueued⟩, ⟨1, .closing .enqueued⟩]⟩ := by
    decide
  refine ⟨_, Runs.of_unchecked computed, fun gates => ?_⟩
  have below := gates.belowCap (.fire 1 passingChoice) _ rfl ⟨1, rfl, rfl⟩
  revert below
  decide

end LumenCopilot.Schedules
