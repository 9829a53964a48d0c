import LumenCopilot.Proof.Ingestion.Fencing

namespace LumenCopilot.Ingestion

open Python Retrieval Library

variable {fingerprint : Text}

variable {row : Row}

/-- The worker of the processing attempt marks the row and ends. -/
theorem Fenced.marksReady {state : State} (fenced : Fenced fingerprint state) {place : Nat}
    {worker : Worker} (held : state.jobs[place]? = some (.worker worker))
    (marking : worker.phase = .marking)
    (marked : state.row.markIngestionReady worker.attempt = some row) :
    Fenced fingerprint { state.setPhase place worker .done with row := row } := by
  unfold Row.markIngestionReady at marked
  split at marked
  · rename_i owns
    obtain ⟨processing, attempts⟩ : state.row.status = .processing ∧
        state.row.ingestionAttempts = worker.attempt := by
      simpa [Row.ownsAttempt] using owns
    obtain rfl := Option.some.inj marked
    obtain ⟨⟨wrote, persisted⟩, present⟩ :
        (WrittenBy fingerprint state worker.attempt ∧ worker.persisted = some state.chunks) ∧
          Present state worker.attempt := by
      have progress := (fenced.jobs place _ held attempts.symm).1 processing
      simpa only [Worker.Progress, marking] using progress
    refine ⟨?_, fenced.generations, fenced.ids, ?_, ?_, ?_, ?_, ?_⟩
    · exact fenced.identified.advance held rfl rfl rfl (Or.inr rfl)
    · intro other found known
      rcases (getElem?_set_iff held).mp known with ⟨-, rfl⟩ | ⟨apart, known⟩
      · exact fun _ => ⟨fun active => by simp at active, fun _ => ⟨rfl, persisted⟩⟩
      · have ok := fenced.jobs other found known
        cases found with
        | worker later =>
            intro current
            refine absurd (congrArg some current) ?_
            exact fenced.elsewhere held (congrArg some attempts.symm) known apart
        | sync phase => cases phase <;> simp_all [Job.Ok, State.setPhase, State.setJob]
    · intro _ _
      show WrittenBy fingerprint _ state.row.ingestionAttempts
      rw [attempts]
      exact ⟨wrote.current, wrote.writer⟩
    · intro _ _ id listed
      change (⟨id, state.row.ingestionAttempts⟩ : IndexEntry) ∈ state.index at listed
      rw [attempts] at listed
      exact (present id).mp listed
    · refine fun _ _ => Or.inl fun chunk stored => ?_
      show (⟨chunk.id, state.row.ingestionAttempts⟩ : IndexEntry) ∈ state.index
      rw [attempts]
      exact (present chunk.id).mpr ⟨chunk, stored, rfl⟩
    · intro _ entry listed older
      have publishes : Publishes fingerprint state :=
        Or.inr ⟨processing, place, worker, held, attempts.symm, marking⟩
      obtain ⟨debtor, owing, found, owed⟩ := fenced.cleaned publishes entry listed older
      refine ⟨debtor, owing, (getElem?_set_iff held).mpr (Or.inr ⟨?_, found⟩), owed⟩
      rintro rfl
      obtain rfl := Option.some.inj (found.symm.trans held)
      have own : worker.attempt = entry.ingestionAttempt := owed.1
      change entry.ingestionAttempt < state.row.ingestionAttempts at older
      omega
  · contradiction

/-- The worker of the processing attempt replaces the chunks. -/
theorem Fenced.persists {state : State} (fenced : Fenced fingerprint state) {place : Nat}
    {worker : Worker} (held : state.jobs[place]? = some (.worker worker))
    (early : worker.phase = .claimed ∨ worker.phase = .diagnosed)
    (processing : state.row.status = .processing)
    (attempts : worker.attempt = state.row.ingestionAttempts) {ids : List Nat}
    (distinct : ids.Nodup) (extraction : Extraction) :
    Fenced fingerprint (state.persist fingerprint place worker ids extraction) := by
  have absent : Absent state worker.attempt := by
    have progress := (fenced.jobs place _ held attempts).1 processing
    rcases early with claimed | diagnosed
    · simpa only [Worker.Progress, claimed] using progress
    · simpa only [Worker.Progress, diagnosed] using progress
  have row : (state.persist fingerprint place worker ids extraction).row.status = .processing ∧
      (state.persist fingerprint place worker ids extraction).row.ingestionAttempts =
        state.row.ingestionAttempts ∧
      (state.persist fingerprint place worker ids extraction).row.ingestionRunId =
        state.row.ingestionRunId := by
    unfold State.persist Row.setExtraction
    cases worker.media <;> exact ⟨processing, rfl, rfl⟩
  obtain ⟨active, same, run⟩ := row
  have unready : (state.persist fingerprint place worker ids extraction).row.status ≠ .ready := by
    rw [active]
    simp
  refine ⟨?_, ?_, ?_, ?_, fun ready => absurd ready unready, fun ready => absurd ready unready,
    fun ready => absurd ready unready, ?_⟩
  · exact fenced.identified.advance held rfl rfl same (Or.inl run)
  · rw [same]
    exact fenced.generations
  · show ((ids.map fun id => (⟨id, fingerprint, worker.attempt⟩ : ChunkRow)).map
      ChunkRow.id).Nodup
    simpa [Function.comp_def] using distinct
  · intro other found known
    rcases (getElem?_set_iff held).mp known with ⟨-, rfl⟩ | ⟨apart, known⟩
    · refine fun _ => ⟨fun _ => ⟨⟨⟨?_, ?_⟩, rfl⟩, absent⟩, fun ready => absurd ready unready⟩
      · simp [State.persist, isLegacy]
      · intro chunk stored
        obtain ⟨id, -, rfl⟩ := List.mem_map.mp stored
        rfl
    · have ok := fenced.jobs other found known
      cases found with
      | worker later =>
          intro current
          rw [same] at current
          refine absurd (congrArg some current) ?_
          exact fenced.elsewhere held (congrArg some attempts) known apart
      | sync phase => cases phase <;> simp_all [Job.Ok]
  · rintro (⟨ready, -⟩ | ⟨-, other, later, known, current, marking⟩)
    · exact absurd ready unready
    · rcases (getElem?_set_iff held).mp known with ⟨-, clash⟩ | ⟨apart, known⟩
      · obtain rfl := Job.worker.inj clash
        simp at marking
      · rw [same] at current
        refine absurd (congrArg some current) ?_
        exact fenced.elsewhere held (congrArg some attempts) known apart

/-- A claim takes a generation that no entry has. -/
theorem Fenced.claims {state : State} (fenced : Fenced fingerprint state) {stale : Bool}
    (media : Bool) (began : state.row.beginIngestion state.jobs.length stale = some row) :
    row.ingestionAttempts = state.row.ingestionAttempts + 1 ∧
    Fenced fingerprint { state with
      row := row
      jobs := state.jobs ++ [.worker ⟨media, row.ingestionAttempts, .claimed, none⟩] } := by
  unfold Row.beginIngestion at began
  split at began
  · obtain rfl := Option.some.inj began
    have bounded := fenced.identified.claims
    refine ⟨rfl, ⟨⟨?_, ?_, ?_⟩, ?_, fenced.ids, ?_, ?_, ?_, ?_, ?_⟩⟩
    · intro place worker known
      rcases getElem?_snoc_iff.mp known with known | ⟨-, same⟩
      · exact Nat.le_succ_of_le (bounded place worker known)
      · obtain rfl := Job.worker.inj same
        exact le_rfl
    · intro place worker other later known knownLater clash
      rcases getElem?_snoc_iff.mp known with known | ⟨rfl, same⟩ <;>
        rcases getElem?_snoc_iff.mp knownLater with knownLater | ⟨rfl, sameLater⟩
      · exact fenced.identified.distinct place worker other later known knownLater clash
      · obtain rfl := Job.worker.inj sameLater
        have := bounded place worker known
        simp only at clash
        omega
      · obtain rfl := Job.worker.inj same
        have := bounded other later knownLater
        simp only at clash
        omega
      · rfl
    · intro place claimed
      obtain rfl : state.jobs.length = place := Option.some.inj claimed
      exact ⟨_, getElem?_snoc_iff.mpr (Or.inr ⟨rfl, rfl⟩), rfl⟩
    · exact fun entry listed => Nat.le_succ_of_le (fenced.generations entry listed)
    · intro place job known
      rcases getElem?_snoc_iff.mp known with known | ⟨-, rfl⟩
      · have ok := fenced.jobs place job known
        cases job with
        | worker delivery =>
            intro current
            have := bounded place delivery known
            simp only at current
            omega
        | sync phase =>
            cases phase <;> simp only [Job.Ok] at ok ⊢ <;> omega
      · refine fun _ => ⟨fun _ => ?_, fun ready => by simp at ready⟩
        intro entry listed clash
        have := fenced.generations entry listed
        simp only at clash
        omega
    · exact fun ready => by simp at ready
    · exact fun ready => by simp at ready
    · exact fun ready => by simp at ready
    · rintro (⟨ready, -⟩ | ⟨-, place, worker, known, current, marking⟩)
      · simp at ready
      · rcases getElem?_snoc_iff.mp known with known | ⟨-, same⟩
        · have := bounded place worker known
          simp only at current
          omega
        · obtain rfl := Job.worker.inj same
          simp at marking
  · contradiction

/-- A sync starts with a read. -/
theorem Fenced.syncs {state : State} (fenced : Fenced fingerprint state) :
    Fenced fingerprint { state with jobs := state.jobs ++ [.sync .reading] } := by
  have earlier : ∀ (place : Nat) (worker : Worker),
      (state.jobs ++ [.sync .reading])[place]? = some (.worker worker) →
        state.jobs[place]? = some (.worker worker) := by
    intro place worker known
    rcases getElem?_snoc_iff.mp known with known | ⟨-, same⟩
    · exact known
    · simp at same
  refine ⟨⟨?_, ?_, ?_⟩, fenced.generations, fenced.ids, ?_, ?_, ?_, ?_, ?_⟩
  · exact fun place worker known =>
      fenced.identified.claims place worker (earlier place worker known)
  · exact fun place worker other later known knownLater =>
      fenced.identified.distinct place worker other later (earlier place worker known)
        (earlier other later knownLater)
  · intro place claimed
    obtain ⟨worker, known, current⟩ := fenced.identified.run place claimed
    exact ⟨worker, getElem?_snoc_iff.mpr (Or.inl known), current⟩
  · intro place job known
    rcases getElem?_snoc_iff.mp known with known | ⟨-, rfl⟩
    · exact (fenced.jobs place job known).transfer ⟨rfl, rfl, rfl, rfl⟩ fun _ _ _ => Iff.rfl
    · trivial
  · intro ready current
    obtain ⟨first, second⟩ := fenced.written ready current
    exact ⟨first, second⟩
  · exact fun ready current => fenced.subset ready current
  · intro ready current
    rcases fenced.complete ready current with all | ⟨place, known⟩
    · exact Or.inl all
    · exact Or.inr ⟨place, getElem?_snoc_iff.mpr (Or.inl known)⟩
  · intro publishes entry listed older
    have before : Publishes fingerprint state := by
      rcases publishes with ready | ⟨processing, place, worker, known, rest⟩
      · exact Or.inl ready
      · exact Or.inr ⟨processing, place, worker, earlier place worker known, rest⟩
    obtain ⟨place, job, known, owes⟩ := fenced.cleaned before entry listed older
    exact ⟨place, job, getElem?_snoc_iff.mpr (Or.inl known), owes⟩

/-- A delivery in flight is not that of a ready row. -/
theorem Fenced.unready {state : State} (fenced : Fenced fingerprint state) {place : Nat}
    {worker : Worker} (held : state.jobs[place]? = some (.worker worker))
    (busy : worker.phase ≠ .done) (current : worker.attempt = state.row.ingestionAttempts) :
    state.row.status ≠ .ready :=
  fun ready => busy ((fenced.jobs place _ held current).2 ready).1

/-- A delivery that deletes nothing newer than its attempt keeps the fence. -/
theorem Fenced.worker_shrinks {state after : State} (fenced : Fenced fingerprint state)
    {place : Nat} {worker : Worker} (held : state.jobs[place]? = some (.worker worker))
    (busy : worker.phase ≠ .done) {phase : WorkerPhase}
    (jobs : after.jobs = state.jobs.set place (.worker { worker with phase := phase }))
    (same : SameRow state after) (fewer : after.index ⊆ state.index)
    (kept : ∀ entry ∈ state.index, worker.attempt < entry.ingestionAttempt → entry ∈ after.index)
    (progress : worker.attempt = state.row.ingestionAttempts → state.row.status = .processing →
      Worker.Progress fingerprint after { worker with phase := phase })
    (owes : ∀ attempt, (Job.worker worker).Owes attempt →
      (Job.worker { worker with phase := phase }).Owes attempt ∨ Absent after attempt)
    (marks : phase = .marking → ∀ entry ∈ after.index,
      ¬ entry.ingestionAttempt < worker.attempt) :
    Fenced fingerprint after := by
  have bounded := fenced.identified.claims place worker held
  have newer : worker.attempt ≠ state.row.ingestionAttempts → ∀ entry ∈ state.index,
      entry.ingestionAttempt = state.row.ingestionAttempts → entry ∈ after.index := by
    intro old entry listed generation
    exact kept entry listed (by omega)
  refine fenced.shrinks held jobs same rfl fewer ?_ ?_ ?_ (fun attempt _ => owes attempt) ?_
  · intro current
    rw [same.attempts] at current
    refine ⟨fun active => progress current (same.status ▸ active), fun ready => ?_⟩
    exact absurd (same.status ▸ ready) (fenced.unready held busy current)
  · by_cases current : worker.attempt = state.row.ingestionAttempts
    · exact Or.inl (congrArg some current)
    · exact Or.inr (Or.inr (newer current))
  · intro ready _
    have old : worker.attempt ≠ state.row.ingestionAttempts :=
      fun current => fenced.unready held busy current ready
    exact Or.inl ⟨newer old, by simp⟩
  · intro delivery next marking
    obtain rfl := Job.worker.inj next
    exact marks marking

variable {attempt : Nat}

theorem writtenBy_iff {state : State} :
    WrittenBy fingerprint state attempt ↔ isLegacy fingerprint state.chunks = false ∧
      ∀ chunk ∈ state.chunks, chunk.writtenBy = attempt :=
  ⟨fun wrote => ⟨wrote.current, wrote.writer⟩, fun wrote => ⟨wrote.1, wrote.2⟩⟩

/-- The progress of a delivery is read off the chunks and the index. -/
theorem Worker.Progress.congr {state after : State} {worker : Worker}
    (progress : worker.Progress fingerprint state) (chunks : after.chunks = state.chunks)
    (index : after.index = state.index) : worker.Progress fingerprint after := by
  simpa only [Worker.Progress, Absent, Present, writtenBy_iff, chunks, index] using progress

/-- A delivery that only goes on to its next phase keeps the fence. -/
theorem Fenced.setPhase {state : State} (fenced : Fenced fingerprint state) {place : Nat}
    {worker : Worker} (held : state.jobs[place]? = some (.worker worker))
    (busy : worker.phase ≠ .done) {phase : WorkerPhase}
    (progress : worker.attempt = state.row.ingestionAttempts → state.row.status = .processing →
      Worker.Progress fingerprint state { worker with phase := phase })
    (owes : ∀ attempt, (Job.worker worker).Owes attempt →
      (Job.worker { worker with phase := phase }).Owes attempt)
    (early : phase ≠ .marking) : Fenced fingerprint (state.setPhase place worker phase) :=
  fenced.worker_shrinks held busy rfl ⟨rfl, rfl, rfl, rfl⟩ subset_rfl
    (fun _ listed _ => listed) (fun current active => (progress current active).congr rfl rfl)
    (fun attempt owed => Or.inl (owes attempt owed)) (fun marking => absurd marking early)

/-- A delivery without a published generation may end. -/
theorem Fenced.ends {state : State} (fenced : Fenced fingerprint state) {place : Nat}
    {worker : Worker} (held : state.jobs[place]? = some (.worker worker))
    (busy : worker.phase ≠ .done)
    (free : worker.phase ≠ .cleaning ∧ worker.phase ≠ .marking ∧ worker.phase ≠ .discarding) :
    Fenced fingerprint (state.setPhase place worker .done) := by
  refine fenced.setPhase held busy (fun _ _ => trivial) ?_ (by simp)
  rintro attempt ⟨-, cleaning | marking | discarding⟩
  · exact absurd cleaning free.1
  · exact absurd marking free.2.1
  · exact absurd discarding free.2.2

/-- A delivery that gives its row up keeps the fence. -/
theorem Fenced.gives_up {state : State} (fenced : Fenced fingerprint state) {place : Nat}
    {worker : Worker} (held : state.jobs[place]? = some (.worker worker))
    (idle : row.status ≠ .processing) (unready : row.status ≠ .ready)
    (attempts : row.ingestionAttempts = state.row.ingestionAttempts)
    (run : row.ingestionRunId = none) :
    Fenced fingerprint { state.setPhase place worker .done with row := row } := by
  refine fenced.settles ?_ idle unready rfl attempts rfl ?_
  · exact fenced.identified.advance held rfl rfl attempts (Or.inr run)
  · intro other job known
    rcases (getElem?_set_iff held).mp known with ⟨-, rfl⟩ | ⟨-, known⟩
    · exact Or.inr ⟨_, rfl⟩
    · exact Or.inl (fenced.jobs other job known)

variable {index : Finset IndexEntry}

theorem mem_deleteGeneration {entry : IndexEntry} :
    entry ∈ deleteGeneration index attempt ↔
      entry ∈ index ∧ entry.ingestionAttempt ≠ attempt := by
  unfold deleteGeneration
  exact Finset.mem_filter

theorem mem_deleteOlderGenerations {entry : IndexEntry} :
    entry ∈ deleteOlderGenerations index attempt ↔
      entry ∈ index ∧ ¬ entry.ingestionAttempt < attempt := by
  unfold deleteOlderGenerations
  exact Finset.mem_filter

theorem deleteGeneration_subset : deleteGeneration index attempt ⊆ index :=
  fun _ listed => (mem_deleteGeneration.mp listed).1

theorem deleteOlderGenerations_subset : deleteOlderGenerations index attempt ⊆ index :=
  fun _ listed => (mem_deleteOlderGenerations.mp listed).1

/-- What the invariant says of a delivery of the processing attempt. -/
theorem Fenced.progress {state : State} (fenced : Fenced fingerprint state) {place : Nat}
    {worker : Worker} (held : state.jobs[place]? = some (.worker worker))
    (current : worker.attempt = state.row.ingestionAttempts)
    (active : state.row.status = .processing) : worker.Progress fingerprint state :=
  (fenced.jobs place _ held current).1 active

theorem ownsAttempt_iff :
    row.ownsAttempt attempt = true ↔
      row.status = .processing ∧ row.ingestionAttempts = attempt := by
  simp [Row.ownsAttempt]

/-- A delivery without a published generation owes nothing. -/
theorem Worker.owes_nothing {worker : Worker}
    (free : worker.phase ≠ .cleaning ∧ worker.phase ≠ .marking ∧ worker.phase ≠ .discarding)
    (attempt : Nat) : ¬ (Job.worker worker).Owes attempt := by
  rintro ⟨-, cleaning | marking | discarding⟩
  · exact free.1 cleaning
  · exact free.2.1 marking
  · exact free.2.2 discarding

section

variable {state after : State} {place : Nat} {worker : Worker} (fenced : Fenced fingerprint state)
  (held : state.jobs[place]? = some (.worker worker))
include fenced held

theorem Fenced.syncing_step (phase : worker.phase = .syncing)
    (stepped : workerStep fingerprint state place worker .proceed = some after) :
    Fenced fingerprint after := by
  have busy : worker.phase ≠ .done := by simp [phase]
  have free : worker.phase ≠ .cleaning ∧ worker.phase ≠ .marking ∧ worker.phase ≠ .discarding := by
    simp [phase]
  have owes := Worker.owes_nothing free
  have persisted (current : worker.attempt = state.row.ingestionAttempts)
      (active : state.row.status = .processing) :
      (WrittenBy fingerprint state worker.attempt ∧ worker.persisted = some state.chunks) ∧
        Absent state worker.attempt := by
    have progress := fenced.progress held current active
    simpa only [Worker.Progress, phase] using progress
  simp only [workerStep, phase] at stepped
  split at stepped
  · obtain rfl := Option.some.inj stepped
    exact fenced.ends held busy free
  · split at stepped
    · rename_i empty
      obtain rfl := Option.some.inj stepped
      refine fenced.setPhase held busy (fun current active => ?_)
        (fun attempt owed => absurd owed (owes attempt)) (by simp)
      exact ⟨(persisted current active).1, List.isEmpty_iff.mp empty, (persisted current active).2⟩
    · split at stepped
      · obtain rfl := Option.some.inj stepped
        exact fenced.setPhase held busy (fun _ _ => trivial)
          (fun attempt owed => absurd owed (owes attempt)) (by simp)
      · obtain rfl := Option.some.inj stepped
        refine fenced.setPhase held busy (fun current active => ?_)
          (fun attempt owed => absurd owed (owes attempt)) (by simp)
        exact ⟨(persisted current active).1, rfl, (persisted current active).2⟩

/-- An empty delivery clears its generation and the older ones. -/
theorem Fenced.empty_step (phase : worker.phase = .deletingEmpty ∨ worker.phase = .cleaningEmpty)
    (stepped : workerStep fingerprint state place worker .proceed = some after) :
    Fenced fingerprint after := by
  have persisted (current : worker.attempt = state.row.ingestionAttempts)
      (active : state.row.status = .processing) :
      (WrittenBy fingerprint state worker.attempt ∧ worker.persisted = some state.chunks) ∧
        state.chunks = [] ∧ Absent state worker.attempt := by
    have progress := fenced.progress held current active
    rcases phase with phase | phase <;> simpa only [Worker.Progress, phase] using progress
  rcases phase with phase | phase
  · simp only [workerStep, phase] at stepped
    obtain rfl := Option.some.inj stepped
    refine fenced.worker_shrinks held (by simp [phase]) rfl ⟨rfl, rfl, rfl, rfl⟩
      deleteGeneration_subset ?_ ?_ ?_ (by simp)
    · exact fun entry listed newer => mem_deleteGeneration.mpr ⟨listed, by omega⟩
    · intro current active
      obtain ⟨⟨wrote, kept⟩, empty, absent⟩ := persisted current active
      refine ⟨⟨⟨wrote.current, wrote.writer⟩, kept⟩, empty, ?_⟩
      exact fun entry listed => absent entry (deleteGeneration_subset listed)
    · exact fun attempt owed => absurd owed (Worker.owes_nothing (by simp [phase]) attempt)
  · simp only [workerStep, phase] at stepped
    obtain rfl := Option.some.inj stepped
    refine fenced.worker_shrinks held (by simp [phase]) rfl ⟨rfl, rfl, rfl, rfl⟩
      deleteOlderGenerations_subset ?_ ?_ ?_ ?_
    · exact fun entry listed newer => mem_deleteOlderGenerations.mpr ⟨listed, by omega⟩
    · intro current active
      obtain ⟨⟨wrote, kept⟩, empty, absent⟩ := persisted current active
      cases worker.media with
      | false => trivial
      | true =>
          refine ⟨⟨⟨wrote.current, wrote.writer⟩, kept⟩, fun id => ?_⟩
          constructor
          · intro listed
            exact absurd rfl (absent _ (deleteOlderGenerations_subset listed))
          · rintro ⟨chunk, stored, -⟩
            change chunk ∈ state.chunks at stored
            rw [empty] at stored
            contradiction
    · exact fun attempt owed => absurd owed (Worker.owes_nothing (by simp [phase]) attempt)
    · exact fun _ entry listed => (mem_deleteOlderGenerations.mp listed).2

/-- A delivery publishes its snapshot. -/
theorem Fenced.upserting_step {chunks : List ChunkRow} (phase : worker.phase = .upserting chunks)
    (stepped : workerStep fingerprint state place worker .proceed = some after) :
    Fenced fingerprint after := by
  simp only [workerStep, phase] at stepped
  obtain rfl := Option.some.inj stepped
  have busy : worker.phase ≠ .done := by simp [phase]
  refine fenced.publishes held rfl ⟨rfl, rfl, rfl, rfl⟩ rfl rfl ?_
    (fenced.identified.claims place worker held) (fun _ _ => rfl) ?_ (by simp) ?_
    ⟨rfl, Or.inl rfl⟩ ?_
  · intro current
    refine ⟨fun active => ?_, fun ready => absurd ready (fenced.unready held busy current)⟩
    obtain ⟨⟨wrote, kept⟩, snapshot, absent⟩ :
        (WrittenBy fingerprint state worker.attempt ∧ worker.persisted = some state.chunks) ∧
          chunks = state.chunks ∧ Absent state worker.attempt := by
      have progress := fenced.progress held current active
      simpa only [Worker.Progress, phase] using progress
    refine ⟨⟨⟨wrote.current, wrote.writer⟩, kept⟩, fun id => ?_⟩
    show _ ∈ upsertChunks state.index chunks worker.attempt ↔ _
    rw [upsertChunks, Finset.mem_union, mem_entriesOf, snapshot]
    constructor
    · rintro (listed | ⟨-, stored⟩)
      · exact absurd rfl (absent _ listed)
      · exact stored
    · exact fun stored => Or.inr ⟨rfl, stored⟩
  · exact fun current ready => absurd ready (fenced.unready held busy current)
  · exact fun attempt _ => Worker.owes_nothing (by simp [phase]) attempt
  · rintro delivery next
    obtain rfl := Job.worker.inj next
    simp

/-- A delivery deletes the older generations before its mark. -/
theorem Fenced.cleaning_step (phase : worker.phase = .cleaning)
    (stepped : workerStep fingerprint state place worker .proceed = some after) :
    Fenced fingerprint after := by
  simp only [workerStep, phase] at stepped
  obtain rfl := Option.some.inj stepped
  refine fenced.worker_shrinks held (by simp [phase]) rfl ⟨rfl, rfl, rfl, rfl⟩
    deleteOlderGenerations_subset ?_ ?_ ?_ ?_
  · exact fun entry listed newer => mem_deleteOlderGenerations.mpr ⟨listed, by omega⟩
  · intro current active
    obtain ⟨⟨wrote, kept⟩, present⟩ :
        (WrittenBy fingerprint state worker.attempt ∧ worker.persisted = some state.chunks) ∧
          Present state worker.attempt := by
      have progress := fenced.progress held current active
      simpa only [Worker.Progress, phase] using progress
    refine ⟨⟨⟨wrote.current, wrote.writer⟩, kept⟩, fun id => ?_⟩
    show _ ∈ deleteOlderGenerations state.index worker.attempt ↔ _
    rw [mem_deleteOlderGenerations]
    exact ⟨fun listed => (present id).mp listed.1,
      fun stored => ⟨(present id).mpr stored, Nat.lt_irrefl _⟩⟩
  · exact fun attempt owed => Or.inl ⟨owed.1, Or.inr (Or.inl rfl)⟩
  · exact fun _ entry listed => (mem_deleteOlderGenerations.mp listed).2

/-- A delivery that lost its row discards its generation. -/
theorem Fenced.marking_step (phase : worker.phase = .marking)
    (stepped : workerStep fingerprint state place worker .proceed = some after) :
    Fenced fingerprint after := by
  simp only [workerStep, phase] at stepped
  split at stepped
  · rename_i row marked
    obtain rfl := Option.some.inj stepped
    exact fenced.marksReady held phase marked
  · rename_i lost
    obtain rfl := Option.some.inj stepped
    refine fenced.setPhase held (by simp [phase]) (fun current active => ?_) ?_ (by simp)
    · simp [Row.markIngestionReady, Row.ownsAttempt, active, current] at lost
    · exact fun attempt owed => ⟨owed.1, Or.inr (Or.inr rfl)⟩

theorem Fenced.discarding_step (phase : worker.phase = .discarding)
    (stepped : workerStep fingerprint state place worker .proceed = some after) :
    Fenced fingerprint after := by
  simp only [workerStep, phase] at stepped
  obtain rfl := Option.some.inj stepped
  refine fenced.worker_shrinks held (by simp [phase]) rfl ⟨rfl, rfl, rfl, rfl⟩
    deleteGeneration_subset ?_ (fun _ _ => trivial) ?_ (by simp)
  · exact fun entry listed newer => mem_deleteGeneration.mpr ⟨listed, by omega⟩
  · rintro attempt ⟨rfl, -⟩
    exact Or.inr fun entry listed => (mem_deleteGeneration.mp listed).2

/-- A failing delivery fails its row at most. -/
theorem Fenced.failing_step {code message : Text} (phase : worker.phase = .failing code message)
    (stepped : workerStep fingerprint state place worker .proceed = some after) :
    Fenced fingerprint after := by
  simp only [workerStep, phase] at stepped
  split at stepped
  · rename_i row failed
    obtain rfl := Option.some.inj stepped
    unfold Row.markIngestionFailed at failed
    split at failed
    · obtain rfl := Option.some.inj failed
      exact fenced.gives_up held (by simp) (by simp) rfl rfl
    · contradiction
  · obtain rfl := Option.some.inj stepped
    exact fenced.ends held (by simp [phase]) (by simp [phase])

end

end LumenCopilot.Ingestion
