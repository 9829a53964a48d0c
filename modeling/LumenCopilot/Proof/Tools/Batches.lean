import LumenCopilot.Proof.Library.Transition
import LumenCopilot.Proof.Tools.Dispatcher
import LumenCopilot.Proof.Tools.Persistence

namespace LumenCopilot.Tools

open Python Library

variable {config : Config} {batch : Batch} {start place : Nat} {runner next : RunnerState}
  {choice : Choice}

def Worker.entered (worker : Worker) : Bool :=
  match worker.phase with
  | .running _ => true
  | _ => false

/-- The dispatcher knows its tasks: those it has received have ended, and while all that ended have
returned, every claimed ordinal but those of the tasks under way has been persisted. -/
structure Tracked (config : Config) (batch : Batch) (start : Nat) (progress : Progress)
    (state : BatchState) : Prop where
  claimed : state.runner.ordinal = start + state.runner.jobs.length +
    state.workers.countP fun worker => !worker.entered
  outstanding : progress.outstanding = state.workers.countP fun worker => !worker.delivered
  serial : progress.serial = state.serial.isSome
  alone : progress.serial = true → progress.outstanding = 0 ∧ progress.clean = true
  ended : ∀ worker ∈ state.workers, worker.delivered = true → (state.workerEnd worker).isSome = true
  returned : progress.clean = true → ∀ worker ∈ state.workers, worker.delivered = true →
    ∃ result, state.workerEnd worker = some (.ok result)
  owners : ∀ place, place < state.runner.jobs.length →
    (∃ worker ∈ state.workers, worker.phase = .running place) ∨ state.serial = some place ∨
    (state.runner.jobEnd place).isSome = true ∧
      (progress.clean = true → ∃ result, state.runner.jobEnd place = some (.ok result))
  places : ∀ worker ∈ state.workers, worker.place ∈ batch.safe config
  within : ∀ worker ∈ state.workers, ∀ place, worker.phase = .running place →
    place < state.runner.jobs.length
  safe : ∀ worker ∈ state.workers, ∀ (place : Nat) (job : Job), worker.phase = .running place →
    state.runner.jobs[place]? = some job → config.isConcurrencySafe job.call.name = true
  serialWithin : ∀ place, state.serial = some place → place < state.runner.jobs.length
  serialOrdinal : ∀ (place : Nat) (job : Job), state.serial = some place →
    state.runner.jobs[place]? = some job → job.trace.any advances = false →
    job.ordinal = state.runner.nextPersistOrdinal

variable {other : Nat}

/-- The end of a call stays when another call takes an answer. -/
theorem Taking.jobEnd (taking : Taking runner place choice next)
    (ended : (runner.jobEnd other).isSome = true) : next.jobEnd other = runner.jobEnd other := by
  unfold RunnerState.jobEnd at ended ⊢
  by_cases same : other = place
  · subst same
    simp only [taking.found, taking.goes] at ended
    contradiction
  · rw [taking.jobs, List.getElem?_set_ne (Ne.symm same)]

theorem start_jobEnd (call : ToolCall) (ordinal : Option Nat) (isolated : Bool)
    (within : other < runner.jobs.length) :
    (runner.start config call ordinal isolated).jobEnd other = runner.jobEnd other := by
  unfold RunnerState.jobEnd
  rw [show (runner.start config call ordinal isolated).jobs[other]? = runner.jobs[other]? from
    List.getElem?_append_left within]

variable {log : List Written} {job : Job}

/-- A call that has returned has left the gate. -/
theorem returned_advanced (persisting : Persisting config start runner log)
    (found : runner.jobs[place]? = some job) {result : ToolResult}
    (returned : runner.jobEnd place = some (.ok result)) : job.trace.any advances = true := by
  have drains := (persisting.followed job (List.mem_of_getElem? found)).drains
  unfold RunnerState.jobEnd at returned
  simp only [found] at returned
  split at returned
  · next value goes =>
      rw [goes] at drains
      exact drains value rfl
  · cases returned
  · contradiction

variable {progress : Progress} {state : BatchState}

/-- Before the dispatcher runs a call itself, every claimed ordinal has been persisted. -/
theorem Tracked.idle (tracked : Tracked config batch start progress state)
    (persisting : Persisting config start state.runner state.log) (outstanding : progress.outstanding = 0)
    (serial : progress.serial = false) (clean : progress.clean = true) :
    state.runner.ordinal = state.runner.nextPersistOrdinal := by
  have delivered : ∀ worker ∈ state.workers, worker.delivered = true := by
    have none := tracked.outstanding
    rw [outstanding, eq_comm, List.countP_eq_zero] at none
    intro worker member
    have known := none worker member
    simpa using known
  have ends : ∀ worker ∈ state.workers, worker.entered = true := by
    intro worker member
    obtain ⟨result, ended⟩ := tracked.returned clean worker member (delivered worker member)
    unfold BatchState.workerEnd at ended
    unfold Worker.entered
    split at ended
    · contradiction
    · next job running => rw [running]
    · cases ended
  have entered : (state.workers.countP fun worker => !worker.entered) = 0 := by
    refine List.countP_eq_zero.mpr fun worker member => ?_
    simp [ends worker member]
  have advanced : (state.runner.jobs.countP fun job => job.trace.any advances) =
      state.runner.jobs.length := by
    refine List.countP_eq_length.mpr fun job member => ?_
    obtain ⟨place, within, found⟩ := List.getElem_of_mem member
    have found : state.runner.jobs[place]? = some job := by
      rw [List.getElem?_eq_getElem within, found]
    rcases tracked.owners place within with ⟨worker, known, running⟩ | active | ⟨_, returned⟩
    · obtain ⟨result, ended⟩ := tracked.returned clean worker known (delivered worker known)
      unfold BatchState.workerEnd at ended
      simp only [running] at ended
      obtain ⟨last, jobEnd, same⟩ := Option.map_eq_some_iff.mp ended
      cases last with
      | error error => cases same
      | ok value => exact returned_advanced persisting found jobEnd
    · have inactive := tracked.serial
      rw [active, serial] at inactive
      contradiction
    · obtain ⟨result, ended⟩ := returned clean
      exact returned_advanced persisting found ended
  rw [tracked.claimed, persisting.counted, advanced, entered]
  rfl

/-- No answer claims an ordinal. -/
theorem answer_ordinal {question : Ask} {answer : question.Answer} {after : RunnerState}
    (answers : runner.answer place choice question = some (answer, after)) :
    after.ordinal = runner.ordinal := by
  cases question with
  | turn ordinal =>
      simp only [RunnerState.answer, RunnerState.turn] at answers
      repeat' split at answers
      all_goals first
        | contradiction
        | obtain ⟨rfl, rfl⟩ := Prod.mk.inj (Option.some.inj answers)
          rfl
  | join key definition arguments callId =>
      obtain ⟨rfl, rfl⟩ := Prod.mk.inj (Option.some.inj answers)
      repeat' split
      all_goals rfl
  | leave execution =>
      obtain ⟨rfl, rfl⟩ := Prod.mk.inj (Option.some.inj answers)
      split <;> rfl
  | forget key execution =>
      obtain ⟨rfl, rfl⟩ := Prod.mk.inj (Option.some.inj answers)
      repeat' split
      all_goals rfl
  | shielded execution =>
      simp only [RunnerState.answer] at answers
      split at answers
      · obtain ⟨rfl, rfl⟩ := Prod.mk.inj (Option.some.inj answers)
        rfl
      · obtain ⟨outcome, _, same⟩ := Option.map_eq_some_iff.mp answers
        obtain ⟨rfl, rfl⟩ := Prod.mk.inj same
        rfl
  | reap execution =>
      simp only [RunnerState.answer] at answers
      split at answers
      · obtain ⟨rfl, rfl⟩ := Prod.mk.inj (Option.some.inj answers)
        rfl
      · obtain ⟨outcome, _, same⟩ := Option.map_eq_some_iff.mp answers
        obtain ⟨rfl, rfl⟩ := Prod.mk.inj same
        rfl
  | _ =>
      obtain ⟨rfl, rfl⟩ := Prod.mk.inj (Option.some.inj answers)
      rfl

theorem Taking.running (taking : Taking runner place choice next) :
    runner.jobEnd place = none := by
  unfold RunnerState.jobEnd
  simp only [taking.found, taking.goes]

/-- Only the end of a finalisation moves the drain. -/
theorem Taking.drain (taking : Taking runner place choice next)
    (persisting : Persisting config start runner log) (stays : advances taking.event = false) :
    next.nextPersistOrdinal = runner.nextPersistOrdinal := by
  have reached := congrArg RunnerState.nextPersistOrdinal taking.reached
  cases turned : turns taking.event with
  | true =>
      exact reached.trans
        (turn_facts (taking.drains persisting.followed) taking.answers turned).2.2.1
  | false => exact reached.trans (answer_gate taking.answers turned stays).1

/-- While the dispatcher runs a call itself, every other call has ended. -/
theorem Tracked.others_ended (tracked : Tracked config batch start progress state) {place : Nat}
    (serial : state.serial = some place) (apart : other ≠ place)
    (within : other < state.runner.jobs.length) : (state.runner.jobEnd other).isSome = true := by
  have active : progress.serial = true := by rw [tracked.serial, serial]; rfl
  rcases tracked.owners other within with ⟨worker, member, running⟩ | same | ⟨ended, _⟩
  · have none := tracked.outstanding
    rw [(tracked.alone active).1, eq_comm, List.countP_eq_zero] at none
    have delivered : worker.delivered = true := by simpa using none worker member
    have ended := tracked.ended worker member delivered
    unfold BatchState.workerEnd at ended
    simpa [running] using ended
  · rw [serial] at same
    exact absurd (Option.some.inj same).symm apart
  · exact ended

/-- A read-only call of the registry gets no recorded approval from the policy gate. -/
theorem granting_exclusive (governed : job.Governed config)
    (granting : Granting config job.call job.trace) :
    config.isConcurrencySafe job.call.name = false := by
  obtain ⟨request, answer, record, definition, asked, found, resolved, tier⟩ := granting
  obtain ⟨read, rfl⟩ := governed request answer asked
  have write := (policyDecision_recorded found).1
  unfold Config.isConcurrencySafe
  split
  · rfl
  · simp only [resolved]
    cases readOnly : definition.readOnly with
    | false => rfl
    | true =>
        rw [tier, definition.readOnlyTier readOnly] at write
        contradiction

/-- An intent is that of the ordinal that is persisted next. -/
theorem Tracked.intent (tracked : Tracked config batch start progress state)
    (persisting : Persisting config start state.runner state.log)
    (taking : Taking state.runner place choice next) {event : ToolEvent}
    (asks : taking.question = .intent event) :
    event.ordinal = state.runner.nextPersistOrdinal := by
  have drains := taking.drains persisting.followed
  rw [asks] at drains
  obtain ⟨named, undrained, granting⟩ := drains
  have governed := persisting.governed taking.job (List.mem_of_getElem? taking.found)
  rw [named]
  rcases tracked.owners place taking.within with ⟨worker, member, running⟩ | active | ⟨ended, _⟩
  · have safe := tracked.safe worker member place taking.job running taking.found
    rw [granting_exclusive governed granting] at safe
    contradiction
  · exact tracked.serialOrdinal place taking.job active taking.found undrained.fresh
  · rw [taking.running] at ended
    contradiction

variable {worker : Worker}

theorem workerEnd_take (taking : Taking state.runner place choice next)
    (ended : (state.workerEnd worker).isSome = true) :
    BatchState.workerEnd { state with runner := next, log := log } worker =
      state.workerEnd worker := by
  unfold BatchState.workerEnd at ended ⊢
  split
  · rfl
  · next job running =>
      simp only [running, Option.isSome_map] at ended
      simp only [taking.jobEnd ended]
  · rfl

/-- One await of a call keeps what the dispatcher knows. -/
theorem Tracked.call (tracked : Tracked config batch start progress state)
    (persisting : Persisting config start state.runner state.log)
    (taking : Taking state.runner place choice next) (log : List Written) :
    Tracked config batch start progress { state with runner := next, log := log } where
  claimed := by
    have same := answer_ordinal taking.answers
    have ordinal : next.ordinal = state.runner.ordinal :=
      (congrArg RunnerState.ordinal taking.reached).trans same
    show next.ordinal = start + next.jobs.length + _
    rw [ordinal, taking.jobs, List.length_set]
    exact tracked.claimed
  outstanding := tracked.outstanding
  serial := tracked.serial
  alone := tracked.alone
  ended worker member delivered := by
    have ended := tracked.ended worker member delivered
    rw [workerEnd_take taking ended]
    exact ended
  returned clean worker member delivered := by
    rw [workerEnd_take taking (tracked.ended worker member delivered)]
    exact tracked.returned clean worker member delivered
  owners other within := by
    have within : other < state.runner.jobs.length := by
      rwa [show next.jobs.length = state.runner.jobs.length by rw [taking.jobs, List.length_set]]
        at within
    rcases tracked.owners other within with owned | active | ⟨ended, returned⟩
    · exact .inl owned
    · exact .inr (.inl active)
    · refine .inr (.inr ?_)
      rw [show next.jobEnd other = state.runner.jobEnd other from taking.jobEnd ended]
      exact ⟨ended, returned⟩
  places := tracked.places
  within worker member other running := by
    show other < next.jobs.length
    rw [taking.jobs, List.length_set]
    exact tracked.within worker member other running
  safe worker member other job running found := by
    rcases taking.job_iff.mp found with ⟨rfl, rfl⟩ | ⟨_, found⟩
    · exact tracked.safe worker member _ taking.job running taking.found
    · exact tracked.safe worker member other job running found
  serialWithin other active := by
    show other < next.jobs.length
    rw [taking.jobs, List.length_set]
    exact tracked.serialWithin other active
  serialOrdinal other job active found fresh := by
    rcases taking.job_iff.mp found with ⟨rfl, rfl⟩ | ⟨apart, found⟩
    · have split : taking.taken.trace = taking.job.trace ++ [taking.event] := rfl
      rw [split, List.any_append, Bool.or_eq_false_iff] at fresh
      have stays : advances taking.event = false := by simpa using fresh.2
      rw [taking.drain persisting stays]
      exact tracked.serialOrdinal _ taking.job active taking.found fresh.1
    · have ended := tracked.others_ended active (Ne.symm apart) taking.within
      rw [taking.running] at ended
      contradiction

theorem start_jobs (call : ToolCall) (ordinal : Option Nat) (isolated : Bool) :
    (runner.start config call ordinal isolated).jobs.length = runner.jobs.length + 1 := by
  show (runner.jobs ++ _).length = _
  rw [List.length_append]
  rfl

/-- A call that has started keeps its name, its ordinal and its place. -/
theorem start_found (call : ToolCall) (ordinal : Option Nat) (isolated : Bool) :
    (runner.start config call ordinal isolated).jobs[other]? = some job ↔
      runner.jobs[other]? = some job ∨ other = runner.jobs.length ∧
        job = ⟨call, ordinal.getD runner.ordinal, isolated, [],
          runGoverned config call (ordinal.getD runner.ordinal) isolated⟩ :=
  getElem?_snoc_iff

/-- The ends of the workers stay when a call starts. -/
theorem workerEnd_start (tracked : Tracked config batch start progress state) (call : ToolCall)
    (ordinal : Option Nat) (isolated : Bool) (workers : List Worker) (serial : Option Nat)
    (member : worker ∈ state.workers) :
    BatchState.workerEnd { state with
      runner := state.runner.start config call ordinal isolated, workers, serial } worker =
      state.workerEnd worker := by
  unfold BatchState.workerEnd
  split
  · rfl
  · next job running =>
      simp only [start_jobEnd call ordinal isolated (tracked.within worker member job running)]
  · rfl

theorem safe_call (tracked : Tracked config batch start progress state)
    (member : worker ∈ state.workers) {call : ToolCall}
    (found : batch.calls[worker.place]? = some call) :
    config.isConcurrencySafe call.name = true := by
  have safe := tracked.places worker member
  unfold Batch.safe at safe
  have holds := (List.mem_filter.mp safe).2
  simpa [found] using holds

/-- The dispatcher has not received a task that has not entered. -/
theorem Tracked.undelivered (tracked : Tracked config batch start progress state)
    (member : worker ∈ state.workers) (created : worker.phase = .created) :
    worker.delivered = false := by
  cases delivered : worker.delivered with
  | false => rfl
  | true =>
      have ended := tracked.ended worker member delivered
      simp [BatchState.workerEnd, created] at ended

/-- A task that starts its call takes its claimed ordinal along. -/
theorem Tracked.entered (tracked : Tracked config batch start progress state)
    (found : state.workers[place]? = some worker) (created : worker.phase = .created)
    {call : ToolCall} (called : batch.calls[worker.place]? = some call) (isolated : Bool) :
    Tracked config batch start progress { state with
      runner := state.runner.start config call (some worker.ordinal) isolated
      workers := state.workers.set place
        { worker with phase := .running state.runner.jobs.length } } := by
  have member := List.mem_of_getElem? found
  have undelivered := tracked.undelivered member created
  have old {other : Worker} (known : other ∈ state.workers.set place
      { worker with phase := .running state.runner.jobs.length }) :
      other ∈ state.workers ∨ other = { worker with phase := .running state.runner.jobs.length } :=
    List.mem_or_eq_of_mem_set known
  have lengths := @start_jobs config state.runner call (some worker.ordinal) isolated
  exact { tracked with
    claimed := by
      have entering : (!worker.entered) = true := by simp [Worker.entered, created]
      have counts := countP_set_eq found { worker with phase := .running state.runner.jobs.length }
        fun worker => !worker.entered
      rw [if_pos entering, if_neg (by simp [Worker.entered])] at counts
      show state.runner.ordinal = start + (state.runner.start config call (some worker.ordinal)
        isolated).jobs.length + (state.workers.set place _).countP _
      rw [lengths, tracked.claimed]
      omega
    outstanding := by
      rw [countP_set_same found (by rfl)]
      exact tracked.outstanding
    ended := by
      intro other known delivered
      rcases old known with known | rfl
      · rw [workerEnd_start tracked call _ isolated _ state.serial known]
        exact tracked.ended other known delivered
      · rw [show worker.delivered = true from delivered] at undelivered
        contradiction
    returned := by
      intro clean other known delivered
      rcases old known with known | rfl
      · rw [workerEnd_start tracked call _ isolated _ state.serial known]
        exact tracked.returned clean other known delivered
      · rw [show worker.delivered = true from delivered] at undelivered
        contradiction
    owners := by
      intro other within
      have self : (state.workers.set place { worker with
          phase := .running state.runner.jobs.length })[place]? = some { worker with
            phase := .running state.runner.jobs.length } :=
        (getElem?_set_iff found).mpr (.inl ⟨rfl, rfl⟩)
      rcases Nat.lt_or_eq_of_le (Nat.le_of_lt_succ (lengths ▸ within)) with within | rfl
      · rcases tracked.owners other within with ⟨owner, known, running⟩ | active | ⟨ended, returned⟩
        · rcases mem_set_of_mem found known with rfl | kept
          · rw [created] at running
            contradiction
          · exact .inl ⟨owner, kept, running⟩
        · exact .inr (.inl active)
        · rw [start_jobEnd call _ isolated within]
          exact .inr (.inr ⟨ended, returned⟩)
      · exact .inl ⟨_, List.mem_of_getElem? self, rfl⟩
    places := by
      intro other known
      rcases old known with known | rfl
      · exact tracked.places other known
      · exact tracked.places worker member
    within := by
      intro other known at' running
      show at' < (state.runner.start config call (some worker.ordinal) isolated).jobs.length
      rw [lengths]
      rcases old known with known | rfl
      · exact Nat.lt_succ_of_lt (tracked.within other known at' running)
      · obtain rfl := WorkerPhase.running.inj running
        exact Nat.lt_succ_self _
    safe := by
      intro other known at' job running held
      rcases (start_found call _ isolated).mp held with held | ⟨rfl, rfl⟩
      · rcases old known with known | rfl
        · exact tracked.safe other known at' job running held
        · obtain rfl := WorkerPhase.running.inj running
          exact absurd (List.getElem?_eq_some_iff.mp held).1 (Nat.lt_irrefl _)
      · rcases old known with known | rfl
        · exact absurd (tracked.within other known _ running) (Nat.lt_irrefl _)
        · exact safe_call tracked member called
    serialWithin := by
      intro at' active
      show at' < (state.runner.start config call (some worker.ordinal) isolated).jobs.length
      rw [lengths]
      exact Nat.lt_succ_of_lt (tracked.serialWithin at' active)
    serialOrdinal := by
      intro at' job active held fresh
      rcases (start_found call _ isolated).mp held with held | ⟨rfl, _⟩
      · exact tracked.serialOrdinal at' job active held fresh
      · exact absurd (tracked.serialWithin _ active) (Nat.lt_irrefl _) }

/-- A task that stops before its call has ended. -/
theorem Tracked.stopped (tracked : Tracked config batch start progress state)
    (found : state.workers[place]? = some worker) (created : worker.phase = .created)
    (error : Interrupt) :
    Tracked config batch start progress { state with
      workers := state.workers.set place { worker with phase := .stopped error } } := by
  have member := List.mem_of_getElem? found
  have undelivered := tracked.undelivered member created
  have old {other : Worker} (known : other ∈ state.workers.set place
      { worker with phase := .stopped error }) :
      other ∈ state.workers ∨ other = { worker with phase := .stopped error } :=
    List.mem_or_eq_of_mem_set known
  exact { tracked with
    claimed := by
      rw [countP_set_same found (by simp [Worker.entered, created])]
      exact tracked.claimed
    outstanding := by
      rw [countP_set_same found (by rfl)]
      exact tracked.outstanding
    ended := by
      intro other known delivered
      rcases old known with known | rfl
      · exact tracked.ended other known delivered
      · rfl
    returned := by
      intro clean other known delivered
      rcases old known with known | rfl
      · exact tracked.returned clean other known delivered
      · rw [show worker.delivered = true from delivered] at undelivered
        contradiction
    owners := by
      intro other within
      rcases tracked.owners other within with ⟨owner, known, running⟩ | rest
      · rcases mem_set_of_mem found known with rfl | kept
        · rw [created] at running
          contradiction
        · exact .inl ⟨owner, kept, running⟩
      · exact .inr rest
    places := by
      intro other known
      rcases old known with known | rfl
      · exact tracked.places other known
      · exact tracked.places worker member
    within := by
      intro other known at' running
      rcases old known with known | rfl
      · exact tracked.within other known at' running
      · contradiction
    safe := by
      intro other known at' job running held
      rcases old known with known | rfl
      · exact tracked.safe other known at' job running held
      · contradiction }

section

variable (tracked : Tracked config batch start progress state)
include tracked

/-- The dispatcher creates a task for each of the places. -/
theorem Tracked.fannedOut (places : List Nat) (inactive : progress.serial = false)
    (safe : ∀ place ∈ places, place ∈ batch.safe config) :
    Tracked config batch start { progress with outstanding := progress.outstanding + places.length }
      { state with
        runner := { state.runner with ordinal := state.runner.ordinal + places.length }
        workers := state.workers ++ places.zipIdx.map fun entry =>
          ⟨entry.1, state.runner.ordinal + entry.2, .created, false⟩ } := by
  have old {other : Worker} (known : other ∈ state.workers ++ places.zipIdx.map fun entry =>
      ⟨entry.1, state.runner.ordinal + entry.2, .created, false⟩) :
      other ∈ state.workers ∨
        other.place ∈ places ∧ other.phase = .created ∧ other.delivered = false := by
    rcases List.mem_append.mp known with known | known
    · exact .inl known
    · obtain ⟨entry, listed, rfl⟩ := List.mem_map.mp known
      exact .inr ⟨List.fst_mem_of_mem_zipIdx listed, rfl, rfl⟩
  have fresh (count : Worker → Bool)
      (counts : ∀ place ordinal, count ⟨place, ordinal, .created, false⟩ = true) :
      (places.zipIdx.map fun entry => (⟨entry.1, state.runner.ordinal + entry.2, .created, false⟩ :
        Worker)).countP count = places.length := by
    have all := List.countP_eq_length (p := count)
      (l := places.zipIdx.map fun entry => (⟨entry.1, state.runner.ordinal + entry.2, .created, false⟩ :
        Worker))
    rw [all.mpr, List.length_map, List.length_zipIdx]
    intro worker known
    obtain ⟨entry, _, rfl⟩ := List.mem_map.mp known
    exact counts _ _
  exact { tracked with
    claimed := by
      have claimed := tracked.claimed
      show state.runner.ordinal + places.length = start + state.runner.jobs.length + _
      rw [List.countP_append, fresh _ fun _ _ => rfl, claimed]
      omega
    outstanding := by
      rw [List.countP_append, fresh _ fun _ _ => rfl, ← tracked.outstanding]
    alone := by
      intro active
      rw [show progress.serial = true from active] at inactive
      contradiction
    ended := by
      intro other known delivered
      rcases old known with known | ⟨_, _, undelivered⟩
      · exact tracked.ended other known delivered
      · rw [undelivered] at delivered
        contradiction
    returned := by
      intro clean other known delivered
      rcases old known with known | ⟨_, _, undelivered⟩
      · exact tracked.returned clean other known delivered
      · rw [undelivered] at delivered
        contradiction
    owners := by
      intro other within
      rcases tracked.owners other within with ⟨owner, known, running⟩ | rest
      · exact .inl ⟨owner, List.mem_append_left _ known, running⟩
      · exact .inr rest
    places := by
      intro other known
      rcases old known with known | ⟨listed, _⟩
      · exact tracked.places other known
      · exact safe _ listed
    within := by
      intro other known at' running
      rcases old known with known | ⟨_, created, _⟩
      · exact tracked.within other known at' running
      · rw [created] at running
        contradiction
    safe := by
      intro other known at' job running held
      rcases old known with known | ⟨_, created, _⟩
      · exact tracked.safe other known at' job running held
      · rw [created] at running
        contradiction }

/-- The dispatcher receives the end of a task. -/
theorem Tracked.received (found : state.workers[place]? = some worker)
    (undelivered : worker.delivered = false) {last : Except Interrupt (Nat × ToolResult)}
    (ends : state.workerEnd worker = some last) (clean : Bool)
    (cleaner : clean = true → progress.clean = true ∧ ∃ result, last = .ok result)
    (inactive : progress.serial = false) :
    Tracked config batch start
      { progress with outstanding := progress.outstanding - 1, clean }
      { state with workers := state.workers.set place { worker with delivered := true } } := by
  have member := List.mem_of_getElem? found
  have old {other : Worker} (known : other ∈ state.workers.set place
      { worker with delivered := true }) :
      other ∈ state.workers ∨ other = { worker with delivered := true } :=
    List.mem_or_eq_of_mem_set known
  exact { tracked with
    claimed := by
      rw [countP_set_same found (by rfl)]
      exact tracked.claimed
    outstanding := by
      have waiting : (!worker.delivered) = true := by rw [undelivered]; rfl
      have counts := countP_set_eq found { worker with delivered := true }
        fun worker => !worker.delivered
      rw [if_pos waiting, if_neg (by simp)] at counts
      show progress.outstanding - 1 = (state.workers.set place _).countP _
      rw [tracked.outstanding]
      omega
    alone := by
      intro active
      rw [show progress.serial = true from active] at inactive
      contradiction
    ended := by
      intro other known delivered
      rcases old known with known | rfl
      · exact tracked.ended other known delivered
      · exact congrArg Option.isSome ends
    returned := by
      intro clean other known delivered
      obtain ⟨cleanBefore, result, same⟩ := cleaner clean
      rcases old known with known | rfl
      · exact tracked.returned cleanBefore other known delivered
      · exact ⟨result, same ▸ ends⟩
    owners := by
      intro other within
      rcases tracked.owners other within with ⟨owner, known, running⟩ | active | ⟨ended, returned⟩
      · rcases mem_set_of_mem found known with rfl | kept
        · exact .inl ⟨_, List.mem_of_getElem? ((getElem?_set_iff found).mpr (.inl ⟨rfl, rfl⟩)), running⟩
        · exact .inl ⟨owner, kept, running⟩
      · exact .inr (.inl active)
      · exact .inr (.inr ⟨ended, fun clean => returned (cleaner clean).1⟩)
    places := by
      intro other known
      rcases old known with known | rfl
      · exact tracked.places other known
      · exact tracked.places worker member
    within := by
      intro other known at' running
      rcases old known with known | rfl
      · exact tracked.within other known at' running
      · exact tracked.within worker member at' running
    safe := by
      intro other known at' job running held
      rcases old known with known | rfl
      · exact tracked.safe other known at' job running held
      · exact tracked.safe worker member at' job running held }

/-- The dispatcher no longer counts on its calls. -/
theorem Tracked.unclean (inactive : progress.serial = false) :
    Tracked config batch start { progress with clean := false } state where
  claimed := tracked.claimed
  outstanding := tracked.outstanding
  serial := tracked.serial
  alone active := by
    rw [show progress.serial = true from active] at inactive
    contradiction
  ended := tracked.ended
  returned := nofun
  owners place within := by
    rcases tracked.owners place within with owned | active | ⟨ended, _⟩
    · exact .inl owned
    · exact .inr (.inl active)
    · exact .inr (.inr ⟨ended, nofun⟩)
  places := tracked.places
  within := tracked.within
  safe := tracked.safe
  serialWithin := tracked.serialWithin
  serialOrdinal := tracked.serialOrdinal

/-- The dispatcher has gathered every task. -/
theorem Tracked.gathered (inactive : progress.serial = false)
    (ends : ∀ worker ∈ state.workers, (state.workerEnd worker).isSome = true) :
    Tracked config batch start { progress with outstanding := 0, clean := false }
      { state with
        workers := state.workers.map fun worker => { worker with delivered := true } } := by
  have old {other : Worker}
      (known : other ∈ state.workers.map fun worker => { worker with delivered := true }) :
      ∃ worker ∈ state.workers, other = { worker with delivered := true } := by
    obtain ⟨worker, member, rfl⟩ := List.mem_map.mp known
    exact ⟨worker, member, rfl⟩
  exact { tracked with
    claimed := by
      rw [List.countP_map]
      exact tracked.claimed
    outstanding := by
      refine (List.countP_eq_zero.mpr fun worker known => ?_).symm
      obtain ⟨_, _, rfl⟩ := old known
      simp
    alone := by
      intro active
      rw [show progress.serial = true from active] at inactive
      contradiction
    ended := by
      intro other known _
      obtain ⟨worker, member, rfl⟩ := old known
      exact ends worker member
    returned := nofun
    owners := by
      intro other within
      rcases tracked.owners other within with ⟨owner, known, running⟩ | active | ⟨ended, _⟩
      · exact .inl ⟨_, List.mem_map_of_mem known, running⟩
      · exact .inr (.inl active)
      · exact .inr (.inr ⟨ended, nofun⟩)
    places := by
      intro other known
      obtain ⟨worker, member, rfl⟩ := old known
      exact tracked.places worker member
    within := by
      intro other known at' running
      obtain ⟨worker, member, rfl⟩ := old known
      exact tracked.within worker member at' running
    safe := by
      intro other known at' job running held
      obtain ⟨worker, member, rfl⟩ := old known
      exact tracked.safe worker member at' job running held }

/-- The dispatcher begins to run a call itself. -/
theorem Tracked.begun (persisting : Persisting config start state.runner state.log)
    (outstanding : progress.outstanding = 0) (inactive : progress.serial = false)
    (clean : progress.clean = true) (call : ToolCall) :
    Tracked config batch start { progress with serial := true } { state with
      runner := state.runner.start config call none false
      serial := some state.runner.jobs.length } := by
  have lengths := @start_jobs config state.runner call none false
  have ordinal := tracked.idle persisting outstanding inactive clean
  exact { tracked with
    claimed := by
      have claimed := tracked.claimed
      show state.runner.ordinal + 1 = start + (state.runner.start config call none false).jobs.length +
        state.workers.countP _
      rw [lengths, claimed]
      omega
    serial := rfl
    alone := fun _ => ⟨outstanding, clean⟩
    ended := by
      intro other known delivered
      rw [workerEnd_start tracked call none false state.workers _ known]
      exact tracked.ended other known delivered
    returned := by
      intro clean other known delivered
      rw [workerEnd_start tracked call none false state.workers _ known]
      exact tracked.returned clean other known delivered
    owners := by
      intro other within
      rcases Nat.lt_or_eq_of_le (Nat.le_of_lt_succ (lengths ▸ within)) with within | rfl
      · rcases tracked.owners other within with owned | active | ended
        · exact .inl owned
        · have none := tracked.serial
          rw [inactive, active] at none
          contradiction
        · rw [start_jobEnd call none false within]
          exact .inr (.inr ended)
      · exact .inr (.inl rfl)
    within := by
      intro worker known other running
      show other < (state.runner.start config call none false).jobs.length
      rw [lengths]
      exact Nat.lt_succ_of_lt (tracked.within worker known other running)
    safe := by
      intro worker known other job running held
      rcases (start_found call none false).mp held with held | ⟨rfl, _⟩
      · exact tracked.safe worker known other job running held
      · exact absurd (tracked.within worker known _ running) (Nat.lt_irrefl _)
    serialWithin := by
      intro other active
      obtain rfl := Option.some.inj active
      show _ < (state.runner.start config call none false).jobs.length
      rw [lengths]
      exact Nat.lt_succ_self _
    serialOrdinal := by
      intro other job active held _
      obtain rfl := Option.some.inj active
      rcases (start_found call none false).mp held with held | ⟨_, rfl⟩
      · exact absurd (List.getElem?_eq_some_iff.mp held).1 (Nat.lt_irrefl _)
      · exact ordinal }

/-- The dispatcher has run a call itself. -/
theorem Tracked.finished (active : state.serial = some place) {last : Except Interrupt ToolResult}
    (ends : state.runner.jobEnd place = some last) (clean : Bool)
    (cleaner : clean = true → progress.clean = true ∧ ∃ result, last = .ok result) :
    Tracked config batch start { progress with serial := false, clean }
      { state with serial := none } where
  claimed := tracked.claimed
  outstanding := tracked.outstanding
  serial := rfl
  alone := nofun
  ended := tracked.ended
  returned clean := tracked.returned (cleaner clean).1
  owners other within := by
    rcases tracked.owners other within with owned | same | ⟨ended, returned⟩
    · exact .inl owned
    · rw [active] at same
      obtain rfl := Option.some.inj same
      refine .inr (.inr ⟨by rw [ends]; rfl, fun clean => ?_⟩)
      obtain ⟨_, result, same⟩ := cleaner clean
      exact ⟨result, same ▸ ends⟩
    · exact .inr (.inr ⟨ended, fun clean => returned (cleaner clean).1⟩)
  places := tracked.places
  within := tracked.within
  safe := tracked.safe
  serialWithin := nofun
  serialOrdinal := nofun

theorem Tracked.redirected (dispatcher : BatchOp (List ToolResult)) :
    Tracked config batch start progress { state with dispatcher } := { tracked with }

end

/-- The drain does not depend on claims and on the abort. -/
theorem Persisting.claimed (persisting : Persisting config start runner log) (ordinal : Nat)
    (aborted : Bool) : Persisting config start
      { runner with ordinal := ordinal, persistenceAborted := aborted } log := { persisting with }

/-- One await of the dispatcher moves its progress as its contract says. -/
theorem Tracked.dispatched (tracked : Tracked config batch start progress state)
    (persisting : Persisting config start state.runner state.log) {choice : BatchChoice}
    {question : BatchAsk} {answer : question.Answer} {after : BatchState}
    (permits : progress.permits config batch question)
    (answers : state.answer config batch choice question = some (answer, after)) :
    ∃ t, progress.moves question answer t ∧ Tracked config batch start t after ∧
      Persisting config start after.runner after.log ∧
      (t.abandoned = true → progress.abandoned = true ∨
        question = .abortPersistence ∧ choice.passes ≠ .ok ()) := by
  cases question with
  | fanOut places =>
      obtain ⟨rfl, rfl⟩ := Prod.mk.inj (Option.some.inj answers)
      exact ⟨_, rfl, tracked.fannedOut places permits.1 permits.2, persisting.claimed _ _, .inl⟩
  | completed =>
      simp only [BatchState.answer, BatchState.complete] at answers
      split at answers
      · obtain ⟨rfl, rfl⟩ := Prod.mk.inj (Option.some.inj answers)
        exact ⟨{ progress with clean := false }, ⟨rfl, rfl, rfl⟩, tracked.unclean permits, persisting,
          .inl⟩
      · next place =>
          split at answers
          · contradiction
          · next worker found =>
              split at answers
              · contradiction
              · next undelivered =>
                  obtain ⟨last, ends, same⟩ := Option.map_eq_some_iff.mp answers
                  obtain ⟨rfl, rfl⟩ := Prod.mk.inj same
                  have undelivered : worker.delivered = false := by simpa using undelivered
                  cases last with
                  | ok result =>
                      refine ⟨_, rfl, tracked.received found undelivered ends progress.clean
                        (fun clean => ⟨clean, result, rfl⟩) permits, persisting, .inl⟩
                  | error error =>
                      exact ⟨{ progress with outstanding := progress.outstanding - 1, clean := false },
                        ⟨rfl, rfl, rfl⟩, tracked.received found undelivered ends false
                          (by simp) permits, persisting, .inl⟩
  | abortPersistence =>
      simp only [BatchState.answer] at answers
      split at answers
      · split at answers
        · contradiction
        · obtain ⟨rfl, rfl⟩ := Prod.mk.inj (Option.some.inj answers)
          exact ⟨progress, rfl, { tracked with }, persisting.claimed _ _, .inl⟩
      · next error refused =>
          split at answers
          · obtain ⟨rfl, rfl⟩ := Prod.mk.inj (Option.some.inj answers)
            refine ⟨{ progress with abandoned := true }, rfl, { tracked with }, persisting,
              fun _ => .inr ⟨rfl, ?_⟩⟩
            simp [refused]
          · contradiction
  | gather =>
      simp only [BatchState.answer] at answers
      split at answers
      · next ends =>
          obtain ⟨rfl, rfl⟩ := Prod.mk.inj (Option.some.inj answers)
          exact ⟨_, rfl, tracked.gathered permits (List.all_eq_true.mp ends), persisting, .inl⟩
      · contradiction
  | beginRun place =>
      simp only [BatchState.answer] at answers
      split at answers
      · contradiction
      · next call _ =>
          obtain ⟨rfl, rfl⟩ := Prod.mk.inj (Option.some.inj answers)
          obtain ⟨outstanding, inactive, clean⟩ := permits
          exact ⟨_, rfl, tracked.begun persisting outstanding inactive clean call,
            persisting.started call none false, .inl⟩
  | endRun =>
      simp only [BatchState.answer] at answers
      split at answers
      · contradiction
      · next place active =>
          obtain ⟨last, ends, same⟩ := Option.map_eq_some_iff.mp answers
          obtain ⟨rfl, rfl⟩ := Prod.mk.inj same
          cases last with
          | ok result =>
              exact ⟨_, rfl, tracked.finished active ends progress.clean
                (fun clean => ⟨clean, result, rfl⟩), persisting, .inl⟩
          | error error =>
              exact ⟨_, rfl, tracked.finished active ends false (by simp), persisting, .inl⟩
  | _ =>
      obtain ⟨rfl, rfl⟩ := Prod.mk.inj (Option.some.inj answers)
      exact ⟨progress, rfl, tracked, persisting, .inl⟩

/-- The batch is sound: the drain and the dispatcher keep to their contracts. -/
structure SoundBatch (config : Config) (batch : Batch) (start : Nat) (progress : Progress)
    (state : BatchState) : Prop where
  meets : state.dispatcher.Meets (dispatching config batch) (fun _ t => Left t) progress
  tracked : Tracked config batch start progress state
  persisting : Persisting config start state.runner state.log

/-- A step of a shared task changes no call and no gate. -/
theorem execution_frame {action : RunnerAction}
    (shared : ∃ place, action = .startExecution place ∨ ∃ finish, action = .endExecution place finish)
    (steps : runnerStep config runner action = some next) :
    ∃ executions, next = { runner with executions } := by
  obtain ⟨place, rfl | ⟨finish, rfl⟩⟩ := shared
  · simp only [runnerStep] at steps
    split at steps
    · obtain rfl := Option.some.inj steps
      exact ⟨_, rfl⟩
    · contradiction
  · simp only [runnerStep] at steps
    split at steps
    · obtain rfl := Option.some.inj steps
      exact ⟨_, rfl⟩
    · obtain rfl := Option.some.inj steps
      exact ⟨_, rfl⟩
    · contradiction

theorem SoundBatch.executed (sound : SoundBatch config batch start progress state)
    (executions : List Execution) : SoundBatch config batch start progress
      { state with runner := { state.runner with executions } } where
  meets := sound.meets
  tracked := { sound.tracked with }
  persisting := { sound.persisting with }

/-- The dispatcher is not cancelled while it waits for the persist gate to abort. -/
def Patient (state : BatchState) : BatchAction → Prop
  | .dispatch choice => ∀ next, state.dispatcher = .asks .abortPersistence next →
      choice.passes = .ok ()
  | _ => True

/-- Every step keeps a batch sound, and only an impatient one gives up an abort. -/
theorem SoundBatch.step (sound : SoundBatch config batch start progress state)
    {action : BatchAction} {after : BatchState}
    (steps : batchStep config batch state action = some after) :
    ∃ t, SoundBatch config batch start t after ∧
      (t.abandoned = true → progress.abandoned = true ∨ ¬ Patient state action) := by
  obtain ⟨meets, tracked, persisting⟩ := sound
  cases action with
  | dispatch choice =>
      simp only [batchStep] at steps
      split at steps
      · next question program goes =>
          obtain ⟨⟨answer, middle⟩, answers, rfl⟩ := Option.map_eq_some_iff.mp steps
          rw [goes] at meets
          obtain ⟨t, moved, tracked, persisting, abandons⟩ :=
            tracked.dispatched persisting meets.1 answers
          refine ⟨t, ⟨meets.2 answer t moved, tracked.redirected _, persisting⟩, fun abandoned => ?_⟩
          refine (abandons abandoned).imp_right fun ⟨same, refused⟩ patient => ?_
          subst same
          exact refused (patient program goes)
      · contradiction
  | enter place passes =>
      simp only [batchStep, BatchState.enter] at steps
      split at steps
      · next call ordinal delivered found =>
          split at steps
          · next error =>
              obtain rfl := Option.some.inj steps
              exact ⟨progress, ⟨meets, tracked.stopped found rfl error, persisting⟩, .inl⟩
          · contradiction
          · next toolCall called =>
              obtain rfl := Option.some.inj steps
              exact ⟨progress, ⟨meets, tracked.entered found rfl called _,
                persisting.started toolCall _ _⟩, .inl⟩
      · contradiction
  | call place policy choice =>
      obtain ⟨next, advances, rfl⟩ := Option.map_eq_some_iff.mp steps
      obtain ⟨job, question, program, answer, after, found, goes, answers, reached⟩ :=
        advance_cases advances
      let taking : Taking state.runner place (withPolicy config policy choice) next :=
        ⟨job, question, program, answer, after, found, goes, answers, reached⟩
      have governed := taking.governed policy persisting.governed
      exact ⟨progress, ⟨meets, tracked.call persisting taking _,
        persisting.take taking governed fun event asked => tracked.intent persisting taking asked⟩,
        .inl⟩
  | startExecution place =>
      obtain ⟨next, moves, rfl⟩ := Option.map_eq_some_iff.mp steps
      obtain ⟨executions, rfl⟩ := execution_frame ⟨place, .inl rfl⟩ moves
      exact ⟨progress, SoundBatch.executed ⟨meets, tracked, persisting⟩ executions, .inl⟩
  | endExecution place finish =>
      obtain ⟨next, moves, rfl⟩ := Option.map_eq_some_iff.mp steps
      obtain ⟨executions, rfl⟩ := execution_frame ⟨place, .inr ⟨finish, rfl⟩⟩ moves
      exact ⟨progress, SoundBatch.executed ⟨meets, tracked, persisting⟩ executions, .inl⟩

end LumenCopilot.Tools
