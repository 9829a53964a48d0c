import LumenCopilot.Proof.Tools.Batches

namespace LumenCopilot.Tools

open Python Library

variable {config : Config} {batch : Batch} {start : Nat} {progress : Progress} {state : BatchState}

/-- The call waits for its turn at the persist gate. -/
def Job.waits (job : Job) : Bool :=
  match job.program with
  | .asks (.turn _) _ => true
  | _ => false

/-- The dispatcher has returned or raised. -/
def BatchState.finished (state : BatchState) : Bool :=
  match state.dispatcher with
  | .asks _ _ => false
  | _ => true

/-- The log goes by ordinals with one set for each, and a dispatcher that is over leaves no call
that waits for its turn. -/
structure Orderly (state : BatchState) : Prop where
  increasing : state.log.Pairwise fun first second => first.ordinal ≤ second.ordinal
  once : ∀ ordinal, (setOf ordinal state.log).Sublist fullSet
  unstuck : state.finished = true → ∀ job ∈ state.runner.jobs, job.waits = false

theorem SoundBatch.initial (config : Config) (batch : Batch) (start : Nat) :
    SoundBatch config batch start .initial (.initial config batch start) where
  meets := runToolBatch_meets
  tracked := {
    claimed := rfl
    outstanding := rfl
    serial := rfl
    alone := nofun
    ended := nofun
    returned := nofun
    owners := nofun
    places := nofun
    within := nofun
    safe := nofun
    serialWithin := nofun
    serialOrdinal := nofun }
  persisting := {
    followed := nofun
    governed := nofun
    held := nofun
    named := nofun
    present := nofun
    counted := rfl
    bounded := nofun
    sorted := List.Pairwise.nil
    sets := fun _ => List.nil_sublist _
    current := rfl }

/-- An ended call waits for nothing. -/
theorem ended_waits {place : Nat} {job : Job} (found : state.runner.jobs[place]? = some job)
    (ended : (state.runner.jobEnd place).isSome = true) : job.waits = false := by
  unfold RunnerState.jobEnd at ended
  simp only [found] at ended
  unfold Job.waits
  split at ended
  · next result returned => rw [returned]
  · next error raised => rw [raised]
  · contradiction

/-- A dispatcher that is over has left no task behind unless it gave up its abort. -/
theorem SoundBatch.left (sound : SoundBatch config batch start progress state)
    (finished : state.finished = true) : Left progress := by
  have meets := sound.meets
  unfold BatchState.finished at finished
  generalize state.dispatcher = dispatcher at meets finished
  cases dispatcher with
  | returns results => exact meets
  | raises error => exact meets
  | asks question next => contradiction

/-- When the dispatcher is over and has not given up its abort, every call has ended. -/
theorem SoundBatch.unstuck (sound : SoundBatch config batch start progress state)
    (kept : progress.abandoned = false) (finished : state.finished = true) :
    ∀ job ∈ state.runner.jobs, job.waits = false := by
  intro job member
  obtain ⟨inactive, received⟩ := sound.left finished
  have outstanding : progress.outstanding = 0 := by
    rcases received with received | abandoned
    · exact received
    · rw [kept] at abandoned
      contradiction
  obtain ⟨place, within, same⟩ := List.getElem_of_mem member
  have found : state.runner.jobs[place]? = some job := by
    rw [List.getElem?_eq_getElem within, same]
  apply ended_waits found
  rcases sound.tracked.owners place within with ⟨worker, known, running⟩ | active | ⟨ended, _⟩
  · have counted := sound.tracked.outstanding
    rw [outstanding, eq_comm, List.countP_eq_zero] at counted
    have delivered : worker.delivered = true := by
      have known := counted worker known
      simpa using known
    have ended := sound.tracked.ended worker known delivered
    unfold BatchState.workerEnd at ended
    simp only [running, Option.isSome_map] at ended
    exact ended
  · have serial := sound.tracked.serial
    rw [active, inactive] at serial
    contradiction
  · exact ended

theorem SoundBatch.orderly (sound : SoundBatch config batch start progress state)
    (kept : progress.abandoned = false) : Orderly state where
  increasing := sound.persisting.sorted
  once := sound.persisting.sets
  unstuck := sound.unstuck kept

variable {actions : List BatchAction}

/-- Every run keeps the log ordered, whoever is cancelled. -/
theorem runs_ordered {allowed : BatchState → BatchAction → Prop}
    (runs : Runs (batchStep config batch) allowed (.initial config batch start) actions state) :
    (state.log.Pairwise fun first second => first.ordinal ≤ second.ordinal) ∧
      ∀ ordinal, (setOf ordinal state.log).Sublist fullSet := by
  have sound := runs.invariant (fun state => ∃ t, SoundBatch config batch start t state)
    (fun state action after ⟨_, sound⟩ _ steps => by
      obtain ⟨t, sound, _⟩ := sound.step steps
      exact ⟨t, sound⟩)
    ⟨.initial, SoundBatch.initial config batch start⟩
  obtain ⟨t, sound⟩ := sound
  exact ⟨sound.persisting.sorted, sound.persisting.sets⟩

/-- In every run that lets each abort get the persist gate, the batch is orderly in every state. -/
theorem batch_orderly
    (runs : Runs (batchStep config batch) Patient (.initial config batch start) actions state) :
    Orderly state := by
  have sound := runs.invariant
    (fun state => ∃ t, SoundBatch config batch start t state ∧ t.abandoned = false)
    (fun state action after ⟨progress, sound, kept⟩ patient steps => by
      obtain ⟨t, sound, abandons⟩ := sound.step steps
      refine ⟨t, sound, ?_⟩
      by_contra abandoned
      rcases abandons (Bool.eq_true_of_not_eq_false abandoned) with abandoned | impatient
      · rw [kept] at abandoned
        contradiction
      · exact impatient patient)
    ⟨.initial, SoundBatch.initial config batch start, rfl⟩
  obtain ⟨t, sound, kept⟩ := sound
  exact sound.orderly kept

/-- This is a read-only tool. -/
def readTool : ToolDefinition :=
  ⟨"read".toList, .dict [], .t0, false, true, rfl, fun _ => rfl, fun _ => rfl,
    RiskTier.t0_free⟩

/-- This runner has one read-only tool. -/
def readConfig : Config :=
  { pythonConfig with
    allowed := ["read".toList]
    registry := fun name => if name = "read".toList then some readTool else none }

/-- These are three reads that run concurrently. -/
def readBatch : Batch :=
  ⟨List.replicate 3 ⟨['c'], "read".toList, .dict []⟩, fun _ => false, 5⟩

/-- This call takes so many awaits. -/
def callAwaits (place awaits : Nat) : List BatchAction :=
  List.replicate awaits (.call place (.ok none) preapproved)

/-- Every await of this call is cancelled. -/
def cancelledCall (place awaits : Nat) : List BatchAction :=
  List.replicate awaits (.call place (.ok none) fun question =>
    match question with
    | .finishes => .cancelled
    | .turn _ => .error .cancelled
    | .emit _ => .error .cancelled
    | other => preapproved other)

/-- The dispatcher announces the reads and creates their tasks, and the tasks start. -/
def fannedReads : List BatchAction :=
  List.replicate 4 (.dispatch {}) ++
    [.enter 0 (.ok ()), .enter 1 (.ok ()), .enter 2 (.ok ())]

/-- The third read ends first, and the dispatcher returns all three. -/
def patientReads : List BatchAction :=
  fannedReads ++ callAwaits 2 4 ++ callAwaits 1 4 ++ callAwaits 0 10 ++ callAwaits 1 6 ++
    callAwaits 2 6 ++
    [.dispatch { worker := some 0 }, .dispatch {}, .dispatch {},
      .dispatch { worker := some 1 }, .dispatch {}, .dispatch {},
      .dispatch { worker := some 2 }, .dispatch {}, .dispatch {}]

/-- The dispatcher is cancelled while the first read writes, and once more while it waits for the
persist gate; then the three reads take their cancellation. -/
def impatientReads : List BatchAction :=
  fannedReads ++ callAwaits 0 6 ++ callAwaits 1 5 ++ callAwaits 2 2 ++
    [.dispatch { worker := none }, .dispatch {}, .dispatch { passes := .error .cancelled }] ++
    cancelledCall 0 2 ++ cancelledCall 1 1 ++ cancelledCall 2 3

theorem patientReads_patient : ∀ action ∈ patientReads, ∀ state, Patient state action := by
  intro action member state
  have passes : ∀ choice, action = .dispatch choice → choice.passes = .ok () := by
    rintro choice rfl
    simp only [patientReads, fannedReads, callAwaits, List.mem_append, List.mem_replicate,
      List.mem_cons, List.not_mem_nil, BatchAction.dispatch.injEq, reduceCtorEq, or_false,
      and_false] at member
    grind
  cases action with
  | dispatch choice => exact fun _ _ => passes choice rfl
  | _ => trivial

/-- Three reads that end in another order are written in the order of their ordinals. -/
theorem batch_orderly_reads : ∃ state : BatchState,
    state.finished = true ∧
    state.log.map (fun record => (record.ordinal, record.kind)) =
      [(0, .invoked), (0, .result), (0, .row), (1, .invoked), (1, .result), (1, .row),
        (2, .invoked), (2, .result), (2, .row)] ∧ Orderly state := by
  have computed : (Library.execute (batchStep readConfig readBatch) (.initial readConfig readBatch 0)
      patientReads).map (fun state => (state.finished,
        state.log.map fun record => (record.ordinal, record.kind))) = some (true,
      [(0, .invoked), (0, .result), (0, .row), (1, .invoked), (1, .result), (1, .row),
        (2, .invoked), (2, .result), (2, .row)]) := by
    decide
  obtain ⟨state, executes, facts⟩ := Option.map_eq_some_iff.mp computed
  have runs := (Runs.of_unchecked executes).narrow fun action member state _ =>
    patientReads_patient action member state
  exact ⟨state, congrArg Prod.fst facts, congrArg Prod.snd facts, batch_orderly runs⟩

/-- A batch whose dispatcher is over while a call waits is not orderly. -/
theorem stuck_disorderly (finished : state.finished = true)
    (waiting : true ∈ state.runner.jobs.map Job.waits) : ¬ Orderly state := by
  intro orderly
  obtain ⟨job, member, waits⟩ := List.mem_map.mp waiting
  rw [orderly.unstuck finished job member] at waits
  contradiction

/-- A dispatcher that is cancelled again while it waits for the persist gate leaves a call that waits
for its turn. -/
theorem impatient_batch_stuck : ∃ state : BatchState,
    Runs (batchStep readConfig readBatch) (fun _ _ => True) (.initial readConfig readBatch 0)
      impatientReads state ∧ ¬ Orderly state := by
  have computed : (Library.execute (batchStep readConfig readBatch) (.initial readConfig readBatch 0)
      impatientReads).map (fun state => (state.finished, state.runner.jobs.map Job.waits)) =
      some (true, [false, false, true]) := by
    decide
  obtain ⟨state, executes, facts⟩ := Option.map_eq_some_iff.mp computed
  obtain ⟨finished, waiting⟩ := Prod.mk.inj facts
  exact ⟨state, Runs.of_unchecked executes, stuck_disorderly finished (waiting ▸ by decide)⟩

end LumenCopilot.Tools
