import LumenCopilot.Proof.Ingestion.Generations

namespace LumenCopilot.Ingestion

open Python Retrieval Library

variable {fingerprint : Text}

variable {worker : Worker} {outcome : Outcome} {phase : SyncPhase}

section

variable {state after : State} {place : Nat} (fenced : Fenced fingerprint state)
include fenced

/-- The run of the row is the delivery of its processing attempt. -/
theorem Fenced.owns_of_claimed (held : state.jobs[place]? = some (.worker worker))
    (claimed : state.row.isClaimedBy place = true) :
    state.row.ownsAttempt worker.attempt = true := by
  obtain ⟨active, run⟩ : state.row.status = .processing ∧
      state.row.ingestionRunId = some place := by
    simpa [Row.isClaimedBy] using claimed
  obtain ⟨owner, found, current⟩ := fenced.identified.run place run
  obtain rfl : owner = worker := by
    have same := held.symm.trans found
    exact (Job.worker.inj (Option.some.inj same)).symm
  exact ownsAttempt_iff.mpr ⟨active, current.symm⟩

theorem Fenced.worker_step (held : state.jobs[place]? = some (.worker worker))
    (stepped : workerStep fingerprint state place worker outcome = some after) :
    Fenced fingerprint after := by
  cases outcome with
  | diagnosed diagnostics =>
      simp only [workerStep] at stepped
      split at stepped
      · rename_i phase media
        obtain rfl := Option.some.inj stepped
        refine fenced.worker_shrinks held (by simp [phase]) rfl ⟨rfl, rfl, rfl, rfl⟩ subset_rfl
          (fun _ listed _ => listed) (fun current active => ?_) ?_ (by simp)
        · have progress := fenced.progress held current active
          simp only [Worker.Progress, phase] at progress
          exact progress
        · exact fun attempt owed => absurd owed (Worker.owes_nothing (by simp [phase]) attempt)
      · contradiction
  | embedded ids extraction =>
      simp only [workerStep] at stepped
      split at stepped
      · rename_i distinct
        split at stepped
        · rename_i phase media
          split at stepped
          · rename_i owns
            obtain rfl := Option.some.inj stepped
            obtain ⟨active, current⟩ := ownsAttempt_iff.mp owns
            exact fenced.persists held (Or.inr phase) active current.symm distinct extraction
          · obtain rfl := Option.some.inj stepped
            exact fenced.ends held (by simp [phase]) (by simp [phase])
        · rename_i phase media
          split at stepped
          · rename_i claimed
            obtain rfl := Option.some.inj stepped
            obtain ⟨active, current⟩ := ownsAttempt_iff.mp (fenced.owns_of_claimed held claimed)
            exact fenced.persists held (Or.inl phase) active current.symm distinct extraction
          · obtain rfl := Option.some.inj stepped
            exact fenced.ends held (by simp [phase]) (by simp [phase])
        · contradiction
      · contradiction
  | lost =>
      simp only [workerStep] at stepped
      split at stepped
      · rename_i phase media
        split at stepped
        · contradiction
        · obtain rfl := Option.some.inj stepped
          exact fenced.ends held (by simp [phase]) (by simp [phase])
      · contradiction
  | raised code message =>
      have fails {phase : WorkerPhase} (same : worker.phase = phase)
          (early : phase = .claimed ∨ phase = .diagnosed ∨ phase = .syncing) :
          Fenced fingerprint (state.setPhase place worker (.failing code message)) := by
        have free : worker.phase ≠ .cleaning ∧ worker.phase ≠ .marking ∧
            worker.phase ≠ .discarding ∧ worker.phase ≠ .done := by
          rcases early with rfl | rfl | rfl <;> simp [same]
        exact fenced.setPhase held free.2.2.2 (fun _ _ => trivial)
          (fun attempt owed =>
            absurd owed (Worker.owes_nothing ⟨free.1, free.2.1, free.2.2.1⟩ attempt))
          (by simp)
      simp only [workerStep] at stepped
      split at stepped
      · rename_i phase
        obtain rfl := Option.some.inj stepped
        exact fails phase (Or.inl rfl)
      · rename_i phase
        obtain rfl := Option.some.inj stepped
        exact fails phase (Or.inr (Or.inl rfl))
      · rename_i phase
        obtain rfl := Option.some.inj stepped
        exact fails phase (Or.inr (Or.inr rfl))
      · contradiction
  | released =>
      simp only [workerStep] at stepped
      split at stepped
      · rename_i code message phase
        split at stepped
        · rename_i row released
          obtain rfl := Option.some.inj stepped
          unfold Row.releaseIngestion at released
          split at released
          · obtain rfl := Option.some.inj released
            exact fenced.gives_up held (by simp) (by simp) rfl rfl
          · contradiction
        · obtain rfl := Option.some.inj stepped
          exact fenced.ends held (by simp [phase]) (by simp [phase])
      · contradiction
  | proceed =>
      cases phase : worker.phase with
      | claimed => simp [workerStep, phase] at stepped
      | diagnosed => simp [workerStep, phase] at stepped
      | syncing => exact fenced.syncing_step held phase stepped
      | deletingEmpty => exact fenced.empty_step held (Or.inl phase) stepped
      | cleaningEmpty => exact fenced.empty_step held (Or.inr phase) stepped
      | upserting chunks => exact fenced.upserting_step held phase stepped
      | cleaning => exact fenced.cleaning_step held phase stepped
      | marking => exact fenced.marking_step held phase stepped
      | discarding => exact fenced.discarding_step held phase stepped
      | failing code message => exact fenced.failing_step held phase stepped
      | done => simp [workerStep, phase] at stepped

/-- A sync that reads moves on with a consistent snapshot. -/
theorem Fenced.reading_step (held : state.jobs[place]? = some (.sync .reading))
    (stepped : syncStep fingerprint state place .reading = some after) :
    Fenced fingerprint after := by
  simp only [syncStep] at stepped
  obtain rfl := Option.some.inj stepped
  refine fenced.shrinks held rfl ⟨rfl, rfl, rfl, rfl⟩ ?_ subset_rfl ?_
    (Or.inr (Or.inr fun _ listed _ => listed)) ?_ (fun _ _ owed => absurd owed (by simp [Job.Owes]))
    ?_
  · split_ifs <;> rfl
  · split_ifs with stale idle
    · refine ⟨le_rfl, fun _ => ⟨idle, fun ready => ?_⟩⟩
      rcases stale with unready | empty | legacy
      · exact absurd ready unready
      · exact Or.inl (List.isEmpty_iff.mp empty)
      · exact Or.inr legacy
    · exact le_rfl
    · simp only [not_or, not_not] at stale
      refine ⟨le_rfl, fun _ => ⟨?_, fun _ => rfl⟩⟩
      simp [State.setJob, stale.1]
  · exact fun _ _ => Or.inl ⟨fun _ listed _ => listed, by simp⟩
  · intro delivery clash
    split_ifs at clash

/-- A sync deletes the generation that it has read. -/
theorem Fenced.sync_deletes {next : SyncPhase} (held : state.jobs[place]? = some (.sync phase))
    {own : Nat} (idle : own = state.row.ingestionAttempts → state.row.status ≠ .processing)
    (ok : (Job.sync next).Ok fingerprint state)
    (published : own = state.row.ingestionAttempts → state.row.status = .ready →
      isLegacy fingerprint state.chunks = false → state.chunks = [] ∨
        next = .upserting state.row.ingestionAttempts state.chunks)
    (promise : ∀ attempt stored, phase ≠ .upserting attempt stored)
    (owes : ∀ attempt, (Job.sync phase).Owes attempt → attempt = own) :
    Fenced fingerprint { state.setJob place (.sync next) with
      index := deleteGeneration state.index own } := by
  have kept : own ≠ state.row.ingestionAttempts → ∀ entry ∈ state.index,
      entry.ingestionAttempt = state.row.ingestionAttempts →
        entry ∈ deleteGeneration state.index own := by
    intro apart entry listed generation
    exact mem_deleteGeneration.mpr ⟨listed, fun same => apart (same.symm.trans generation)⟩
  refine fenced.shrinks held rfl ⟨rfl, rfl, rfl, rfl⟩ rfl deleteGeneration_subset ?_ ?_ ?_ ?_
    (by simp)
  · cases next <;> exact ok
  · by_cases same : own = state.row.ingestionAttempts
    · exact Or.inr (Or.inl (idle same))
    · exact Or.inr (Or.inr (kept same))
  · intro ready current
    by_cases same : own = state.row.ingestionAttempts
    · rcases published same ready current with empty | promised
      · refine Or.inl ⟨fun entry listed generation => ?_, by simp [promise]⟩
        obtain ⟨id, attempt⟩ := entry
        obtain rfl : attempt = state.row.ingestionAttempts := generation
        obtain ⟨chunk, stored, -⟩ := fenced.subset ready current id listed
        rw [empty] at stored
        contradiction
      · exact Or.inr (congrArg Job.sync promised)
    · exact Or.inl ⟨kept same, by simp [promise]⟩
  · intro attempt _ owed
    rw [owes attempt owed]
    exact Or.inr fun entry listed => (mem_deleteGeneration.mp listed).2

/-- A sync deletes the generations older than the one that it has read. -/
theorem Fenced.sync_cleans {next : SyncPhase} (held : state.jobs[place]? = some (.sync phase))
    {own : Nat} (bounded : own ≤ state.row.ingestionAttempts)
    (ok : (Job.sync next).Ok fingerprint state)
    (promise : ∀ attempt stored, phase ≠ .upserting attempt stored)
    (owes : ∀ attempt, (Job.sync phase).Owes attempt → (Job.sync next).Owes attempt) :
    Fenced fingerprint { state.setJob place (.sync next) with
      index := deleteOlderGenerations state.index own } := by
  have kept : ∀ entry ∈ state.index, entry.ingestionAttempt = state.row.ingestionAttempts →
      entry ∈ deleteOlderGenerations state.index own := by
    intro entry listed generation
    exact mem_deleteOlderGenerations.mpr ⟨listed, by omega⟩
  refine fenced.shrinks held rfl ⟨rfl, rfl, rfl, rfl⟩ rfl deleteOlderGenerations_subset ?_
    (Or.inr (Or.inr kept)) (fun _ _ => Or.inl ⟨kept, by simp [promise]⟩)
    (fun attempt _ owed => Or.inl (owes attempt owed)) (by simp)
  cases next <;> exact ok

theorem Fenced.sync_step (held : state.jobs[place]? = some (.sync phase))
    (stepped : syncStep fingerprint state place phase = some after) : Fenced fingerprint after := by
  have ok := fenced.jobs place _ held
  cases phase with
  | reading => exact fenced.reading_step held stepped
  | deletingStale attempt =>
      obtain rfl := Option.some.inj stepped
      obtain ⟨bounded, stale⟩ := ok
      refine fenced.sync_deletes held (fun same => (stale same).1) bounded ?_ (by simp)
        (by simp [Job.Owes])
      intro same ready current
      rcases (stale same).2 ready with empty | legacy
      · exact Or.inl empty
      · rw [current] at legacy
        contradiction
  | cleaningStale attempt =>
      obtain rfl := Option.some.inj stepped
      exact fenced.sync_cleans held ok trivial (by simp) (by simp [Job.Owes])
  | replacing attempt chunks =>
      obtain rfl := Option.some.inj stepped
      refine fenced.sync_deletes held (fun same => (ok.2 same).1) ok ?_ (by simp)
        (by simp [Job.Owes])
      intro same ready _
      rw [← same, (ok.2 same).2 ready]
      exact Or.inr rfl
  | upserting attempt chunks =>
      obtain rfl := Option.some.inj stepped
      obtain ⟨bounded, snapshot⟩ := ok
      refine fenced.publishes held rfl ⟨rfl, rfl, rfl, rfl⟩ rfl rfl ?_ bounded
        (fun same active => absurd active (snapshot same).1)
        (fun same ready => (snapshot same).2 ready) ?_ (fun _ _ => by simp [Job.Owes]) rfl (by simp)
      · exact ⟨bounded, fun same => (snapshot same).1⟩
      · intro stored same
        simp only [Job.sync.injEq, SyncPhase.upserting.injEq] at same
        exact same.1
  | cleaning attempt =>
      obtain rfl := Option.some.inj stepped
      exact fenced.sync_cleans held ok.1 ok (by simp) (fun _ owed => owed)
  | rechecking attempt =>
      simp only [syncStep] at stepped
      obtain rfl := Option.some.inj stepped
      refine fenced.shrinks held rfl ⟨rfl, rfl, rfl, rfl⟩ (by split_ifs <;> rfl) subset_rfl ?_
        (Or.inr (Or.inr fun _ listed _ => listed))
        (fun _ _ => Or.inl ⟨fun _ listed _ => listed, by simp⟩) ?_ ?_
      · split_ifs with superseded
        · refine ⟨ok.1, fun same => ⟨ok.2 same, fun ready => ?_⟩⟩
          rcases superseded with unready | moved
          · exact unready ready
          · exact moved same.symm
        · trivial
      · intro older below owed
        obtain rfl : attempt = older := owed
        rw [if_pos (Or.inr below.ne')]
        exact Or.inl rfl
      · intro delivery clash
        split_ifs at clash
  | compensating attempt =>
      obtain rfl := Option.some.inj stepped
      obtain ⟨bounded, idle⟩ := ok
      exact fenced.sync_deletes held (fun same => (idle same).1) trivial
        (fun same ready => absurd ready (idle same).2) (by simp)
        (fun older owed => (show attempt = older from owed).symm)
  | done => simp [syncStep] at stepped

/-- Every step of a document's tasks keeps the fence. -/
theorem Fenced.step {action : IngestAction}
    (stepped : ingestStep fingerprint state action = some after) : Fenced fingerprint after := by
  cases action with
  | claim stale media =>
      obtain ⟨row, began, rfl⟩ := Option.map_eq_some_iff.mp stepped
      exact (fenced.claims media began).2
  | sync =>
      obtain rfl := Option.some.inj stepped
      exact fenced.syncs
  | sweep =>
      obtain ⟨row, reserved, rfl⟩ := Option.map_eq_some_iff.mp stepped
      unfold Row.reserveStranded at reserved
      split at reserved
      · obtain rfl := Option.some.inj reserved
        have identified := fenced.identified
        refine fenced.settles ⟨identified.claims, identified.distinct, ?_⟩ (by simp) (by simp)
          rfl rfl rfl fun place job held => Or.inl (fenced.jobs place job held)
        intro place claimed
        simp at claimed
      · contradiction
  | advance place outcome =>
      simp only [ingestStep] at stepped
      split at stepped
      · rename_i worker held
        exact fenced.worker_step held stepped
      · rename_i phase held
        split at stepped
        · exact fenced.sync_step held stepped
        · contradiction
      · contradiction

end

/-- Every run of a document's tasks keeps the fence. -/
theorem Fenced.run {initial final : State} (fenced : Fenced fingerprint initial)
    {actions : List IngestAction}
    (runs : Runs (ingestStep fingerprint) (fun _ _ => True) initial actions final) :
    Fenced fingerprint final :=
  runs.invariant (Fenced fingerprint) (fun _ _ _ fenced _ stepped => fenced.step stepped) fenced

/-- A job has nothing left to do. -/
def Job.Ended : Job → Prop
  | .worker delivery => delivery.phase = .done
  | .sync phase => phase = .done

instance (job : Job) : Decidable job.Ended := by
  unfold Job.Ended
  cases job <;> infer_instance

/-- An ended job owes nothing. -/
theorem Job.Ended.owes_nothing {job : Job} (ended : job.Ended) (attempt : Nat) :
    ¬ job.Owes attempt := by
  intro owes
  cases job with
  | worker delivery =>
      change delivery.phase = .done at ended
      simp [Job.Owes, ended] at owes
  | sync phase =>
      obtain rfl : phase = .done := ended
      exact owes

/-- The index of a ready document at rest is that of its chunks. -/
theorem Fenced.published {state : State} (fenced : Fenced fingerprint state)
    (ended : ∀ job ∈ state.jobs, job.Ended) (ready : state.row.status = .ready)
    (current : isLegacy fingerprint state.chunks = false) :
    state.index = entriesOf state.chunks state.row.ingestionAttempts := by
  ext entry
  rw [mem_entriesOf]
  constructor
  · intro listed
    have bounded := fenced.generations entry listed
    by_cases older : entry.ingestionAttempt < state.row.ingestionAttempts
    · obtain ⟨place, job, held, owes⟩ := fenced.cleaned (Or.inl ⟨ready, current⟩) entry listed older
      exact absurd owes ((ended job (List.mem_of_getElem? held)).owes_nothing _)
    · obtain ⟨id, attempt⟩ := entry
      obtain rfl : attempt = state.row.ingestionAttempts := by
        simp only at bounded older
        omega
      exact ⟨rfl, fenced.subset ready current id listed⟩
  · rintro ⟨generation, chunk, stored, same⟩
    rcases fenced.complete ready current with all | ⟨place, held⟩
    · obtain ⟨id, attempt⟩ := entry
      obtain rfl : attempt = state.row.ingestionAttempts := generation
      obtain rfl : chunk.id = id := same
      exact all chunk stored
    · have busy := ended _ (List.mem_of_getElem? held)
      simp [Job.Ended] at busy

/-- One generation has one entry for each chunk. -/
theorem card_entriesOf {chunks : List ChunkRow} (distinct : (chunks.map ChunkRow.id).Nodup)
    (attempt : Nat) : (entriesOf chunks attempt).card = chunks.length := by
  unfold entriesOf
  rw [List.toFinset_card_of_nodup, List.length_map]
  have entries : (chunks.map fun chunk => (⟨chunk.id, attempt⟩ : IndexEntry)) =
      (chunks.map ChunkRow.id).map fun id => ⟨id, attempt⟩ := by simp
  rw [entries]
  exact distinct.map fun first second same => (IndexEntry.mk.inj same).1

/-- A delivery in this phase has persisted its chunks and may still mark its row. -/
def WorkerPhase.persisted : WorkerPhase → Bool
  | .syncing | .deletingEmpty | .cleaningEmpty | .upserting _ | .cleaning | .marking => true
  | _ => false

/-- A delivery has gone on to a phase without persisting chunks. -/
structure GoesOn (state : State) (place : Nat) (worker : Worker) (after : State) : Prop where
  chunks : after.chunks = state.chunks
  jobs : ∃ phase : WorkerPhase,
    after.jobs = state.jobs.set place (.worker { worker with phase := phase }) ∧
      (phase.persisted = true → worker.phase.persisted = true)

/-- What one await of a delivery does to the row and to the chunks. -/
inductive RowStep (fingerprint : Text) (state : State) (place : Nat) (worker : Worker)
    (outcome : Outcome) : State → Prop where
  | kept {after : State} (row : after.row = state.row)
      (next : GoesOn state place worker after) : RowStep fingerprint state place worker outcome after
  | diagnosed {after : State} (diagnostics : Text) (told : outcome = .diagnosed diagnostics)
      (row : after.row = state.row.updateDiagnostics worker.attempt diagnostics)
      (next : GoesOn state place worker after) : RowStep fingerprint state place worker outcome after
  | persisted (ids : List Nat) (extraction : Extraction)
      (fenced : worker.media = false ∧ state.row.ownsAttempt worker.attempt = true ∨
        worker.media = true ∧ state.row.isClaimedBy place = true) :
      RowStep fingerprint state place worker outcome
        (state.persist fingerprint place worker ids extraction)
  | marked {after : State} (phase : worker.phase = .marking)
      (row : state.row.markIngestionReady worker.attempt = some after.row)
      (next : GoesOn state place worker after) : RowStep fingerprint state place worker outcome after
  | failed {after : State} (code message : Text)
      (row : state.row.markIngestionFailed worker.attempt code message = some after.row)
      (next : GoesOn state place worker after) : RowStep fingerprint state place worker outcome after
  | released {after : State} (row : state.row.releaseIngestion place = some after.row)
      (next : GoesOn state place worker after) : RowStep fingerprint state place worker outcome after

theorem workerStep_row {state after : State} {place : Nat}
    (stepped : workerStep fingerprint state place worker outcome = some after) :
    RowStep fingerprint state place worker outcome after := by
  cases outcome with
  | diagnosed diagnostics =>
      simp only [workerStep] at stepped
      split at stepped
      · rename_i phase media
        obtain rfl := Option.some.inj stepped
        exact .diagnosed diagnostics rfl rfl ⟨rfl, _, rfl, by simp [WorkerPhase.persisted]⟩
      · contradiction
  | embedded ids extraction =>
      simp only [workerStep] at stepped
      split at stepped
      · split at stepped
        · rename_i phase media
          split at stepped
          · rename_i owns
            obtain rfl := Option.some.inj stepped
            exact .persisted ids extraction (Or.inl ⟨media, owns⟩)
          · obtain rfl := Option.some.inj stepped
            exact .kept rfl ⟨rfl, _, rfl, by simp [WorkerPhase.persisted]⟩
        · rename_i phase media
          split at stepped
          · rename_i claimed
            obtain rfl := Option.some.inj stepped
            exact .persisted ids extraction (Or.inr ⟨media, claimed⟩)
          · obtain rfl := Option.some.inj stepped
            exact .kept rfl ⟨rfl, _, rfl, by simp [WorkerPhase.persisted]⟩
        · contradiction
      · contradiction
  | lost =>
      simp only [workerStep] at stepped
      split at stepped
      · split at stepped
        · contradiction
        · obtain rfl := Option.some.inj stepped
          exact .kept rfl ⟨rfl, _, rfl, by simp [WorkerPhase.persisted]⟩
      · contradiction
  | raised code message =>
      simp only [workerStep] at stepped
      split at stepped
      · obtain rfl := Option.some.inj stepped
        exact .kept rfl ⟨rfl, _, rfl, by simp [WorkerPhase.persisted]⟩
      · obtain rfl := Option.some.inj stepped
        exact .kept rfl ⟨rfl, _, rfl, by simp [WorkerPhase.persisted]⟩
      · obtain rfl := Option.some.inj stepped
        exact .kept rfl ⟨rfl, _, rfl, by simp [WorkerPhase.persisted]⟩
      · contradiction
  | released =>
      simp only [workerStep] at stepped
      split at stepped
      · split at stepped
        · rename_i row released
          obtain rfl := Option.some.inj stepped
          exact .released released ⟨rfl, _, rfl, by simp [WorkerPhase.persisted]⟩
        · obtain rfl := Option.some.inj stepped
          exact .kept rfl ⟨rfl, _, rfl, by simp [WorkerPhase.persisted]⟩
      · contradiction
  | proceed =>
      have ends {after : State} (row : after.row = state.row) (chunks : after.chunks = state.chunks)
          {phase : WorkerPhase} (ended : phase.persisted = false)
          (jobs : after.jobs = state.jobs.set place (.worker { worker with phase := phase })) :
          RowStep fingerprint state place worker .proceed after :=
        .kept row ⟨chunks, phase, jobs, by simp [ended]⟩
      have proceeds {after : State} (row : after.row = state.row)
          (chunks : after.chunks = state.chunks) {earlier : WorkerPhase}
          (before : worker.phase = earlier) (persisted : earlier.persisted = true)
          {phase : WorkerPhase}
          (jobs : after.jobs = state.jobs.set place (.worker { worker with phase := phase })) :
          RowStep fingerprint state place worker .proceed after :=
        .kept row ⟨chunks, phase, jobs, fun _ => before ▸ persisted⟩
      simp only [workerStep] at stepped
      cases phase : worker.phase with
      | claimed => simp [phase] at stepped
      | diagnosed => simp [phase] at stepped
      | done => simp [phase] at stepped
      | syncing =>
          simp only [phase] at stepped
          split_ifs at stepped <;>
            · obtain rfl := Option.some.inj stepped
              exact proceeds rfl rfl phase rfl rfl
      | deletingEmpty =>
          simp only [phase] at stepped
          obtain rfl := Option.some.inj stepped
          exact proceeds rfl rfl phase rfl rfl
      | cleaningEmpty =>
          simp only [phase] at stepped
          obtain rfl := Option.some.inj stepped
          exact proceeds rfl rfl phase rfl rfl
      | upserting chunks =>
          simp only [phase] at stepped
          obtain rfl := Option.some.inj stepped
          exact proceeds rfl rfl phase rfl rfl
      | cleaning =>
          simp only [phase] at stepped
          obtain rfl := Option.some.inj stepped
          exact proceeds rfl rfl phase rfl rfl
      | marking =>
          simp only [phase] at stepped
          split at stepped
          · rename_i row marked
            obtain rfl := Option.some.inj stepped
            exact .marked phase marked ⟨rfl, .done, rfl, by simp [WorkerPhase.persisted]⟩
          · obtain rfl := Option.some.inj stepped
            exact ends rfl rfl rfl rfl
      | discarding =>
          simp only [phase] at stepped
          obtain rfl := Option.some.inj stepped
          exact ends rfl rfl rfl rfl
      | failing code message =>
          simp only [phase] at stepped
          split at stepped
          · rename_i row failed
            obtain rfl := Option.some.inj stepped
            exact .failed code message failed ⟨rfl, .done, rfl, by simp [WorkerPhase.persisted]⟩
          · obtain rfl := Option.some.inj stepped
            exact ends rfl rfl rfl rfl

/-- A generic sync changes neither the row nor the chunks. -/
theorem syncStep_row {state after : State} {place : Nat}
    (stepped : syncStep fingerprint state place phase = some after) :
    after.row = state.row ∧ after.chunks = state.chunks := by
  cases phase with
  | done => simp [syncStep] at stepped
  | _ =>
      obtain rfl := Option.some.inj stepped
      exact ⟨rfl, rfl⟩

/-- No await of a delivery changes the number of attempts. -/
theorem RowStep.attempts {state after : State} {place : Nat}
    (changes : RowStep fingerprint state place worker outcome after) :
    after.row.ingestionAttempts = state.row.ingestionAttempts := by
  cases changes with
  | kept row next => rw [row]
  | diagnosed diagnostics told row next =>
      rw [row]
      rfl
  | persisted ids extraction fenced =>
      unfold State.persist Row.setExtraction
      cases worker.media <;> rfl
  | marked phase row next =>
      unfold Row.markIngestionReady at row
      split at row
      · rw [← Option.some.inj row]
      · contradiction
  | failed code message row next =>
      unfold Row.markIngestionFailed at row
      split at row
      · rw [← Option.some.inj row]
      · contradiction
  | released row next =>
      unfold Row.releaseIngestion at row
      split at row
      · rw [← Option.some.inj row]
      · contradiction

/-- A superseded delivery changes neither the status, nor the failure, nor the chunks. -/
theorem RowStep.superseded {state after : State} (fenced : Fenced fingerprint state) {place : Nat}
    (held : state.jobs[place]? = some (.worker worker))
    (lost : state.row.ownsAttempt worker.attempt = false)
    (changes : RowStep fingerprint state place worker outcome after) :
    after.row.status = state.row.status ∧ after.row.error = state.row.error ∧
      after.row.ingestionFailure = state.row.ingestionFailure ∧
      after.row.ingestionRunId = state.row.ingestionRunId ∧ after.chunks = state.chunks := by
  have unclaimed : state.row.isClaimedBy place = false := by
    rw [Bool.eq_false_iff]
    intro claimed
    rw [fenced.owns_of_claimed held claimed] at lost
    contradiction
  cases changes with
  | kept row next => simp [row, next.chunks]
  | diagnosed diagnostics told row next => simp [row, next.chunks, Row.updateDiagnostics]
  | persisted ids extraction owned =>
      rcases owned with ⟨-, owns⟩ | ⟨-, claimed⟩
      · rw [lost] at owns
        contradiction
      · rw [unclaimed] at claimed
        contradiction
  | marked phase row next => simp [Row.markIngestionReady, lost] at row
  | failed code message row next => simp [Row.markIngestionFailed, lost] at row
  | released row next => simp [Row.releaseIngestion, unclaimed] at row

/-- This counts the claims of one step. -/
def IngestAction.claims : IngestAction → Nat
  | .claim _ _ => 1
  | _ => 0

/-- Only a claim changes the number of attempts, which it increases. -/
theorem ingestStep_attempts {state after : State} {action : IngestAction}
    (stepped : ingestStep fingerprint state action = some after) :
    after.row.ingestionAttempts = state.row.ingestionAttempts + action.claims := by
  cases action with
  | claim stale media =>
      obtain ⟨row, began, rfl⟩ := Option.map_eq_some_iff.mp stepped
      unfold Row.beginIngestion at began
      split at began
      · obtain rfl := Option.some.inj began
        rfl
      · contradiction
  | sync =>
      obtain rfl := Option.some.inj stepped
      rfl
  | sweep =>
      obtain ⟨row, reserved, rfl⟩ := Option.map_eq_some_iff.mp stepped
      unfold Row.reserveStranded at reserved
      split at reserved
      · obtain rfl := Option.some.inj reserved
        rfl
      · contradiction
  | advance place outcome =>
      simp only [ingestStep] at stepped
      split at stepped
      · exact (workerStep_row stepped).attempts
      · split at stepped
        · rw [(syncStep_row stepped).1]
          rfl
        · contradiction
      · contradiction

/-- The generations of a document are fenced over every interleaving of its tasks. -/
theorem generations_fenced {initial final : State} (rest : AtRest fingerprint initial)
    {actions : List IngestAction}
    (runs : Runs (ingestStep fingerprint) (fun _ _ => True) initial actions final) :
    (∀ action after, ingestStep fingerprint final action = some after →
      after.row.ingestionAttempts = final.row.ingestionAttempts + action.claims) ∧
    (∀ place worker outcome after, final.jobs[place]? = some (.worker worker) →
      ¬ (final.row.status = .processing ∧ final.row.ingestionAttempts = worker.attempt) →
      ingestStep fingerprint final (.advance place outcome) = some after →
        after.row.status = final.row.status ∧ after.row.error = final.row.error ∧
          after.row.ingestionFailure = final.row.ingestionFailure ∧
          after.chunks = final.chunks) ∧
    ((∀ job ∈ final.jobs, job.Ended) → final.row.status = .ready →
      isLegacy fingerprint final.chunks = false →
        (∀ chunk ∈ final.chunks, chunk.writtenBy = final.row.ingestionAttempts) ∧
        (∀ worker, .worker worker ∈ final.jobs →
          worker.attempt = final.row.ingestionAttempts →
            worker.persisted = some final.chunks) ∧
        (final.chunks.map ChunkRow.id).Nodup ∧
        final.index = entriesOf final.chunks final.row.ingestionAttempts ∧
        final.index.card = final.chunks.length) := by
  have fenced := rest.fenced.run runs
  refine ⟨fun action after stepped => ingestStep_attempts stepped, ?_, ?_⟩
  · intro place worker outcome after held lost stepped
    simp only [ingestStep, held] at stepped
    have superseded : final.row.ownsAttempt worker.attempt = false := by
      rw [Bool.eq_false_iff]
      exact fun owns => lost (ownsAttempt_iff.mp owns)
    obtain ⟨status, error, failure, -, chunks⟩ :=
      (workerStep_row stepped).superseded fenced held superseded
    exact ⟨status, error, failure, chunks⟩
  · intro ended ready current
    have index := fenced.published ended ready current
    refine ⟨(fenced.written ready current).writer, ?_, fenced.ids, index, ?_⟩
    · intro worker member attempt
      obtain ⟨place, held⟩ := List.mem_iff_getElem?.mp member
      exact ((fenced.jobs place _ held attempt).2 ready).2
    · rw [index]
      exact card_entriesOf fenced.ids _

/-- A takeover and a sync leave the chunks of the second attempt in the index. -/
theorem generations_fenced_takeover :
    let space : Text := ['e']
    let chunks : List ChunkRow := [⟨7, space, 2⟩, ⟨8, space, 2⟩]
    let row : Row := ⟨.ready, none, none, 2, none, ⟨some ['d'], 2⟩, ⟨some ['t'], 2⟩,
      ⟨some ['l'], 2⟩, ⟨some ['f'], 2⟩⟩
    let index : Finset IndexEntry := {⟨7, 2⟩, ⟨8, 2⟩}
    let final : State := ⟨row, chunks, index, [.worker ⟨false, 1, .done, some [⟨5, space, 1⟩]⟩,
      .worker ⟨false, 2, .done, some chunks⟩, .sync .done]⟩
    final.index = entriesOf final.chunks final.row.ingestionAttempts := by
  intro space chunks row index final
  let blank : Written := ⟨none, 0⟩
  let initial : State :=
    ⟨⟨.pending, none, none, 0, none, blank, blank, blank, blank⟩, [], ∅, []⟩
  have runs : Runs (ingestStep space) (fun _ _ => True) initial
      [.claim false false, .advance 0 (.diagnosed ['o']), .advance 0 (.embedded [5] ⟨['o'], [], []⟩),
        .advance 0 .proceed, .claim true false, .advance 0 .proceed,
        .advance 1 (.diagnosed ['d']), .sync, .advance 2 .proceed, .advance 0 .proceed,
        .advance 1 (.embedded [7, 8] ⟨['t'], ['l'], ['f']⟩), .advance 1 .proceed,
        .advance 1 .proceed, .advance 0 .proceed, .advance 0 .proceed, .advance 1 .proceed,
        .advance 2 .proceed, .advance 1 .proceed] final :=
    Runs.of_unchecked (by decide)
  have rest : AtRest space initial := ⟨rfl, rfl, by simp [initial], by simp [initial],
    by simp [initial]⟩
  exact ((generations_fenced rest runs).2.2 (by decide) rfl (by decide)).2.2.2.1

end LumenCopilot.Ingestion
