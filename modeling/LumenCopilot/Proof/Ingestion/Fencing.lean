import LumenCopilot.Construction.Ingestion.Pipeline
import LumenCopilot.Proof.Library.Lists
import LumenCopilot.Proof.Library.Transition

namespace LumenCopilot.Ingestion

open Python Retrieval Library

variable {fingerprint : Text}

/-- No entry of the index is of this generation. -/
def Absent (state : State) (attempt : Nat) : Prop :=
  ∀ entry ∈ state.index, entry.ingestionAttempt ≠ attempt

/-- The entries of this generation are those of the stored chunks. -/
def Present (state : State) (attempt : Nat) : Prop :=
  ∀ id, (⟨id, attempt⟩ : IndexEntry) ∈ state.index ↔ ∃ chunk ∈ state.chunks, chunk.id = id

/-- The stored chunks are those of this attempt. -/
structure WrittenBy (fingerprint : Text) (state : State) (attempt : Nat) : Prop where
  current : isLegacy fingerprint state.chunks = false
  writer : ∀ chunk ∈ state.chunks, chunk.writtenBy = attempt

/-- What the delivery of the processing attempt has done so far. -/
def Worker.Progress (fingerprint : Text) (state : State) (worker : Worker) : Prop :=
  let persisted := WrittenBy fingerprint state worker.attempt ∧ worker.persisted = some state.chunks
  match worker.phase with
  | .claimed | .diagnosed => Absent state worker.attempt
  | .syncing => persisted ∧ Absent state worker.attempt
  | .deletingEmpty | .cleaningEmpty => persisted ∧ state.chunks = [] ∧ Absent state worker.attempt
  | .upserting chunks => persisted ∧ chunks = state.chunks ∧ Absent state worker.attempt
  | .cleaning | .marking => persisted ∧ Present state worker.attempt
  | .discarding => False
  | .failing _ _ | .done => True

/-- A job is consistent with the row at its own attempt. -/
def Job.Ok (fingerprint : Text) (state : State) : Job → Prop
  | .worker delivery =>
      delivery.attempt = state.row.ingestionAttempts →
        (state.row.status = .processing → delivery.Progress fingerprint state) ∧
          (state.row.status = .ready →
            delivery.phase = .done ∧ delivery.persisted = some state.chunks)
  | .sync .reading | .sync .done => True
  | .sync (.deletingStale attempt) =>
      attempt ≤ state.row.ingestionAttempts ∧ (attempt = state.row.ingestionAttempts →
        state.row.status ≠ .processing ∧ (state.row.status = .ready →
          state.chunks = [] ∨ isLegacy fingerprint state.chunks = true))
  | .sync (.cleaningStale attempt) => attempt ≤ state.row.ingestionAttempts
  | .sync (.replacing attempt chunks) | .sync (.upserting attempt chunks) =>
      attempt ≤ state.row.ingestionAttempts ∧ (attempt = state.row.ingestionAttempts →
        state.row.status ≠ .processing ∧ (state.row.status = .ready → chunks = state.chunks))
  | .sync (.cleaning attempt) | .sync (.rechecking attempt) =>
      attempt ≤ state.row.ingestionAttempts ∧
        (attempt = state.row.ingestionAttempts → state.row.status ≠ .processing)
  | .sync (.compensating attempt) =>
      attempt ≤ state.row.ingestionAttempts ∧ (attempt = state.row.ingestionAttempts →
        state.row.status ≠ .processing ∧ state.row.status ≠ .ready)

/-- A job that has published a generation deletes it unless the row is ready at it. -/
def Job.Owes (attempt : Nat) : Job → Prop
  | .worker delivery => delivery.attempt = attempt ∧
      (delivery.phase = .cleaning ∨ delivery.phase = .marking ∨ delivery.phase = .discarding)
  | .sync (.cleaning own) | .sync (.rechecking own) | .sync (.compensating own) => own = attempt
  | .sync _ => False

/-- Some job in flight deletes the generation. -/
def Owed (state : State) (attempt : Nat) : Prop :=
  ∃ (place : Nat) (job : Job), state.jobs[place]? = some job ∧ job.Owes attempt

/-- The deliveries have distinct attempts up to the one of the row, whose run is its own. -/
structure Identified (state : State) : Prop where
  claims : ∀ (place : Nat) (worker : Worker), state.jobs[place]? = some (.worker worker) →
    worker.attempt ≤ state.row.ingestionAttempts
  distinct : ∀ (place : Nat) (worker : Worker) (other : Nat) (later : Worker),
    state.jobs[place]? = some (.worker worker) → state.jobs[other]? = some (.worker later) →
      worker.attempt = later.attempt → place = other
  run : ∀ place : Nat, state.row.ingestionRunId = some place → ∃ worker : Worker,
    state.jobs[place]? = some (.worker worker) ∧ worker.attempt = state.row.ingestionAttempts

/-- The row publishes its generation: it is ready with current chunks or about to be marked. -/
def Publishes (fingerprint : Text) (state : State) : Prop :=
  state.row.status = .ready ∧ isLegacy fingerprint state.chunks = false ∨
    state.row.status = .processing ∧ ∃ (place : Nat) (worker : Worker),
      state.jobs[place]? = some (.worker worker) ∧
        worker.attempt = state.row.ingestionAttempts ∧ worker.phase = .marking

/-- The generations of a document are fenced. -/
structure Fenced (fingerprint : Text) (state : State) : Prop where
  identified : Identified state
  generations : ∀ entry ∈ state.index, entry.ingestionAttempt ≤ state.row.ingestionAttempts
  ids : (state.chunks.map ChunkRow.id).Nodup
  jobs : ∀ (place : Nat) (job : Job), state.jobs[place]? = some job → job.Ok fingerprint state
  written : state.row.status = .ready → isLegacy fingerprint state.chunks = false →
    WrittenBy fingerprint state state.row.ingestionAttempts
  subset : state.row.status = .ready → isLegacy fingerprint state.chunks = false →
    ∀ id, (⟨id, state.row.ingestionAttempts⟩ : IndexEntry) ∈ state.index →
      ∃ chunk ∈ state.chunks, chunk.id = id
  complete : state.row.status = .ready → isLegacy fingerprint state.chunks = false →
    (∀ chunk ∈ state.chunks,
      (⟨chunk.id, state.row.ingestionAttempts⟩ : IndexEntry) ∈ state.index) ∨
    ∃ place : Nat, state.jobs[place]? = some
      (.sync (.upserting state.row.ingestionAttempts state.chunks))
  cleaned : Publishes fingerprint state → ∀ entry ∈ state.index,
    entry.ingestionAttempt < state.row.ingestionAttempts → Owed state entry.ingestionAttempt

/-- A document at rest has no delivery and no sync in flight. -/
structure AtRest (fingerprint : Text) (state : State) : Prop where
  jobs : state.jobs = []
  run : state.row.ingestionRunId = none
  generations : ∀ entry ∈ state.index, entry.ingestionAttempt ≤ state.row.ingestionAttempts
  ids : (state.chunks.map ChunkRow.id).Nodup
  published : state.row.status = .ready → isLegacy fingerprint state.chunks = false →
    WrittenBy fingerprint state state.row.ingestionAttempts ∧
      state.index = entriesOf state.chunks state.row.ingestionAttempts

theorem mem_entriesOf {chunks : List ChunkRow} {attempt : Nat} {entry : IndexEntry} :
    entry ∈ entriesOf chunks attempt ↔
      entry.ingestionAttempt = attempt ∧ ∃ chunk ∈ chunks, chunk.id = entry.chunkId := by
  unfold entriesOf
  rw [List.mem_toFinset, List.mem_map]
  constructor
  · rintro ⟨chunk, stored, rfl⟩
    exact ⟨rfl, chunk, stored, rfl⟩
  · rintro ⟨rfl, chunk, stored, same⟩
    exact ⟨chunk, stored, by rw [same]⟩

variable {state : State}

theorem AtRest.fenced (rest : AtRest fingerprint state) : Fenced fingerprint state := by
  have idle : ∀ (place : Nat) (job : Job), state.jobs[place]? ≠ some job := by
    intro place job
    rw [rest.jobs]
    simp
  refine ⟨⟨?_, ?_, ?_⟩, rest.generations, rest.ids, ?_, ?_, ?_, ?_, ?_⟩
  · exact fun place worker held => absurd held (idle place _)
  · exact fun place worker other later held => absurd held (idle place _)
  · intro place run
    rw [rest.run] at run
    contradiction
  · exact fun place job held => absurd held (idle place _)
  · exact fun ready current => (rest.published ready current).1
  · intro ready current id listed
    rw [(rest.published ready current).2, mem_entriesOf] at listed
    exact listed.2
  · intro ready current
    refine Or.inl fun chunk stored => ?_
    rw [(rest.published ready current).2, mem_entriesOf]
    exact ⟨rfl, chunk, stored, rfl⟩
  · rintro (⟨ready, current⟩ | ⟨-, place, worker, held, -⟩) entry listed older
    · rw [(rest.published ready current).2, mem_entriesOf] at listed
      omega
    · exact absurd held (idle place _)

/-- This is the attempt of a delivery. -/
def Job.attempt : Job → Option Nat
  | .worker delivery => some delivery.attempt
  | .sync _ => none

variable {after : State} {place : Nat} {job next : Job}

/-- A job that keeps its attempt keeps the deliveries apart. -/
theorem Identified.advance (identified : Identified state) (held : state.jobs[place]? = some job)
    (jobs : after.jobs = state.jobs.set place next) (same : next.attempt = job.attempt)
    (attempts : after.row.ingestionAttempts = state.row.ingestionAttempts)
    (run : after.row.ingestionRunId = state.row.ingestionRunId ∨ after.row.ingestionRunId = none) :
    Identified after := by
  have earlier : ∀ (other : Nat) (worker : Worker), after.jobs[other]? = some (.worker worker) →
      ∃ before : Worker, state.jobs[other]? = some (.worker before) ∧
        before.attempt = worker.attempt := by
    intro other worker found
    rw [jobs, getElem?_set_iff held] at found
    rcases found with ⟨rfl, rfl⟩ | ⟨-, found⟩
    · cases job with
      | worker before => exact ⟨before, held, (Option.some.inj same).symm⟩
      | sync phase => simp [Job.attempt] at same
    · exact ⟨worker, found, rfl⟩
  refine ⟨?_, ?_, ?_⟩
  · intro other worker found
    obtain ⟨before, known, attempt⟩ := earlier other worker found
    rw [← attempt, attempts]
    exact identified.claims other before known
  · intro other worker another later found foundLater clash
    obtain ⟨before, known, attempt⟩ := earlier other worker found
    obtain ⟨beforeLater, knownLater, attemptLater⟩ := earlier another later foundLater
    exact identified.distinct other before another beforeLater known knownLater
      (attempt.trans (clash.trans attemptLater.symm))
  · intro other claimed
    rcases run with kept | cleared
    · obtain ⟨worker, found, attempt⟩ := identified.run other (kept ▸ claimed)
      by_cases acting : other = place
      · subst acting
        obtain rfl := Option.some.inj (found.symm.trans held)
        cases next with
        | worker delivery =>
            refine ⟨delivery, ?_, ?_⟩
            · rw [jobs, getElem?_set_iff held]
              exact Or.inl ⟨rfl, rfl⟩
            · rw [attempts, ← attempt]
              exact Option.some.inj same
        | sync phase => simp [Job.attempt] at same
      · refine ⟨worker, ?_, attempts ▸ attempt⟩
        rw [jobs, getElem?_set_iff held]
        exact Or.inr ⟨acting, found⟩
    · rw [cleared] at claimed
      contradiction

/-- Two states show the same row and the same chunks to the jobs. -/
structure SameRow (state after : State) : Prop where
  status : after.row.status = state.row.status
  attempts : after.row.ingestionAttempts = state.row.ingestionAttempts
  run : after.row.ingestionRunId = state.row.ingestionRunId
  chunks : after.chunks = state.chunks

/-- A job is still consistent when the entries that it relies on are untouched. -/
theorem Job.Ok.transfer (ok : job.Ok fingerprint state) (same : SameRow state after)
    (agrees : job.attempt = some state.row.ingestionAttempts → state.row.status = .processing →
      ∀ id, (⟨id, state.row.ingestionAttempts⟩ : IndexEntry) ∈ after.index ↔
        (⟨id, state.row.ingestionAttempts⟩ : IndexEntry) ∈ state.index) :
    job.Ok fingerprint after := by
  obtain ⟨status, attempts, -, chunks⟩ := same
  cases job with
  | worker delivery =>
      intro current
      rw [attempts] at current
      obtain ⟨processing, ready⟩ := ok current
      rw [status, chunks]
      refine ⟨fun active => ?_, ready⟩
      have progress := processing active
      have untouched := agrees (congrArg some current) active
      rw [← current] at untouched
      have absent : Absent state delivery.attempt → Absent after delivery.attempt := by
        intro absent entry listed clash
        obtain ⟨id, attempt⟩ := entry
        subst clash
        exact absent _ ((untouched id).mp listed) rfl
      have present : Present state delivery.attempt → Present after delivery.attempt := by
        intro present id
        rw [untouched id, chunks]
        exact present id
      have written : WrittenBy fingerprint state delivery.attempt →
          WrittenBy fingerprint after delivery.attempt := by
        rintro ⟨current, writer⟩
        exact ⟨chunks ▸ current, chunks ▸ writer⟩
      unfold Worker.Progress at progress ⊢
      rw [chunks]
      cases phase : delivery.phase with
      | claimed => exact absent (by simpa [phase] using progress)
      | diagnosed => exact absent (by simpa [phase] using progress)
      | syncing =>
          obtain ⟨⟨wrote, kept⟩, none⟩ := by simpa [phase] using progress
          exact ⟨⟨written wrote, kept⟩, absent none⟩
      | deletingEmpty =>
          obtain ⟨⟨wrote, kept⟩, empty, none⟩ := by simpa [phase] using progress
          exact ⟨⟨written wrote, kept⟩, empty, absent none⟩
      | cleaningEmpty =>
          obtain ⟨⟨wrote, kept⟩, empty, none⟩ := by simpa [phase] using progress
          exact ⟨⟨written wrote, kept⟩, empty, absent none⟩
      | upserting stored =>
          obtain ⟨⟨wrote, kept⟩, snapshot, none⟩ := by simpa [phase] using progress
          exact ⟨⟨written wrote, kept⟩, snapshot, absent none⟩
      | cleaning =>
          obtain ⟨⟨wrote, kept⟩, all⟩ := by simpa [phase] using progress
          exact ⟨⟨written wrote, kept⟩, present all⟩
      | marking =>
          obtain ⟨⟨wrote, kept⟩, all⟩ := by simpa [phase] using progress
          exact ⟨⟨written wrote, kept⟩, present all⟩
      | discarding => simp [phase] at progress
      | failing code message => trivial
      | done => trivial
  | sync phase =>
      cases phase <;> simp only [Job.Ok, status, attempts, chunks] at ok ⊢ <;> exact ok

/-- A delivery of the current attempt is the only one. -/
theorem Fenced.elsewhere (fenced : Fenced fingerprint state) {other : Nat} {found : Job}
    (held : state.jobs[place]? = some job)
    (current : job.attempt = some state.row.ingestionAttempts)
    (known : state.jobs[other]? = some found) (apart : other ≠ place) :
    found.attempt ≠ some state.row.ingestionAttempts := by
  intro same
  cases job with
  | sync phase => simp [Job.attempt] at current
  | worker delivery =>
      cases found with
      | sync phase => simp [Job.attempt] at same
      | worker later =>
          have clash : later.attempt = delivery.attempt :=
            Option.some.inj (same.trans current.symm)
          exact apart (fenced.identified.distinct other later place delivery known held clash)

/-- A job that is neither about to mark nor in debt of an older generation leaves the debts. -/
theorem Fenced.cleaned_mono (fenced : Fenced fingerprint state)
    (held : state.jobs[place]? = some job) (jobs : after.jobs = state.jobs.set place next)
    (same : SameRow state after) (publishes : Publishes fingerprint state)
    (owes : ∀ attempt < state.row.ingestionAttempts, job.Owes attempt → next.Owes attempt ∨
      Absent after attempt) {entry : IndexEntry} (known : entry ∈ state.index)
    (listed : entry ∈ after.index) (older : entry.ingestionAttempt < after.row.ingestionAttempts) :
    Owed after entry.ingestionAttempt := by
  rw [same.attempts] at older
  obtain ⟨debtor, owing, found, owed⟩ := fenced.cleaned publishes entry known older
  by_cases acting : debtor = place
  · subst acting
    obtain rfl := Option.some.inj (found.symm.trans held)
    rcases owes _ older owed with kept | gone
    · refine ⟨debtor, next, ?_, kept⟩
      rw [jobs, getElem?_set_iff held]
      exact Or.inl ⟨rfl, rfl⟩
    · exact absurd rfl (gone entry listed)
  · refine ⟨debtor, owing, ?_, owed⟩
    rw [jobs, getElem?_set_iff held]
    exact Or.inr ⟨acting, found⟩

/-- The state publishes already unless the acting job comes to the mark. -/
theorem Publishes.before (publishes : Publishes fingerprint after)
    (held : state.jobs[place]? = some job) (jobs : after.jobs = state.jobs.set place next)
    (same : SameRow state after) :
    Publishes fingerprint state ∨ ∃ delivery : Worker, next = .worker delivery ∧
      delivery.attempt = state.row.ingestionAttempts ∧ delivery.phase = .marking := by
  rcases publishes with ⟨ready, current⟩ | ⟨processing, other, delivery, found, attempt, marking⟩
  · exact Or.inl (Or.inl ⟨same.status ▸ ready, same.chunks ▸ current⟩)
  · rw [jobs, getElem?_set_iff held] at found
    rcases found with ⟨-, rfl⟩ | ⟨-, found⟩
    · exact Or.inr ⟨delivery, rfl, same.attempts ▸ attempt, marking⟩
    · exact Or.inl (Or.inr ⟨same.status ▸ processing, other, delivery, found,
        same.attempts ▸ attempt, marking⟩)

/-- A step that only deletes entries keeps the fence. -/
theorem Fenced.shrinks (fenced : Fenced fingerprint state) (held : state.jobs[place]? = some job)
    (jobs : after.jobs = state.jobs.set place next) (same : SameRow state after)
    (attempt : next.attempt = job.attempt) (fewer : after.index ⊆ state.index)
    (ok : next.Ok fingerprint after) (untouched : job.attempt = some state.row.ingestionAttempts ∨
      state.row.status ≠ .processing ∨ ∀ entry ∈ state.index,
        entry.ingestionAttempt = state.row.ingestionAttempts → entry ∈ after.index)
    (published : state.row.status = .ready → isLegacy fingerprint state.chunks = false →
      ((∀ entry ∈ state.index,
        entry.ingestionAttempt = state.row.ingestionAttempts → entry ∈ after.index) ∧
        job ≠ .sync (.upserting state.row.ingestionAttempts state.chunks)) ∨
      next = .sync (.upserting state.row.ingestionAttempts state.chunks))
    (owes : ∀ attempt < state.row.ingestionAttempts, job.Owes attempt → next.Owes attempt ∨
      Absent after attempt)
    (marks : ∀ delivery : Worker, next = .worker delivery → delivery.phase = .marking →
      ∀ entry ∈ after.index, ¬ entry.ingestionAttempt < delivery.attempt) :
    Fenced fingerprint after := by
  refine ⟨fenced.identified.advance held jobs attempt same.attempts (Or.inl same.run), ?_, ?_, ?_,
    ?_, ?_, ?_, ?_⟩
  · intro entry listed
    rw [same.attempts]
    exact fenced.generations entry (fewer listed)
  · rw [same.chunks]
    exact fenced.ids
  · intro other found known
    rw [jobs, getElem?_set_iff held] at known
    rcases known with ⟨-, rfl⟩ | ⟨apart, known⟩
    · exact ok
    · refine (fenced.jobs other found known).transfer same fun current processing id => ?_
      refine ⟨fun listed => fewer listed, fun listed => ?_⟩
      rcases untouched with acting | idle | kept
      · exact absurd current (fenced.elsewhere held acting known apart)
      · exact absurd processing idle
      · exact kept _ listed rfl
  · intro ready current
    rw [same.status] at ready
    rw [same.chunks] at current
    obtain ⟨first, second⟩ := fenced.written ready current
    rw [same.attempts]
    exact ⟨same.chunks ▸ first, same.chunks ▸ second⟩
  · intro ready current id listed
    rw [same.status] at ready
    rw [same.chunks] at current ⊢
    rw [same.attempts] at listed
    exact fenced.subset ready current id (fewer listed)
  · intro ready current
    rw [same.status] at ready
    rw [same.chunks] at current ⊢
    rw [same.attempts, jobs]
    rcases published ready current with ⟨kept, other⟩ | promised
    · rcases fenced.complete ready current with all | ⟨writer, found⟩
      · exact Or.inl fun chunk stored => kept _ (all chunk stored) rfl
      · refine Or.inr ⟨writer, ?_⟩
        rw [getElem?_set_iff held]
        refine Or.inr ⟨?_, found⟩
        rintro rfl
        exact other (Option.some.inj (held.symm.trans found))
    · refine Or.inr ⟨place, ?_⟩
      rw [getElem?_set_iff held]
      exact Or.inl ⟨rfl, promised.symm⟩
  · intro publishes entry listed older
    rcases publishes.before held jobs same with earlier | ⟨delivery, rfl, own, marking⟩
    · exact fenced.cleaned_mono held jobs same earlier owes (fewer listed) listed older
    · refine absurd ?_ (marks delivery rfl marking entry listed)
      rw [own, ← same.attempts]
      exact older

/-- A step that publishes a generation and owes its deletion keeps the fence. -/
theorem Fenced.publishes (fenced : Fenced fingerprint state) (held : state.jobs[place]? = some job)
    (jobs : after.jobs = state.jobs.set place next) (same : SameRow state after)
    (attempt : next.attempt = job.attempt) {own : Nat} {chunks : List ChunkRow}
    (more : after.index = upsertChunks state.index chunks own) (ok : next.Ok fingerprint after)
    (bounded : own ≤ state.row.ingestionAttempts)
    (current : own = state.row.ingestionAttempts → state.row.status = .processing →
      job.attempt = some own)
    (ready : own = state.row.ingestionAttempts → state.row.status = .ready →
      chunks = state.chunks)
    (promise : ∀ stored, job = .sync (.upserting state.row.ingestionAttempts stored) →
      own = state.row.ingestionAttempts)
    (free : ∀ attempt < state.row.ingestionAttempts, ¬ job.Owes attempt) (debt : next.Owes own)
    (waits : ∀ delivery : Worker, next = .worker delivery → delivery.phase ≠ .marking) :
    Fenced fingerprint after := by
  have kept : ∀ entry ∈ state.index, entry ∈ after.index := by
    intro entry listed
    rw [more]
    exact Finset.mem_union_left _ listed
  have origin : ∀ entry ∈ after.index, entry ∈ state.index ∨
      entry.ingestionAttempt = own ∧ ∃ chunk ∈ chunks, chunk.id = entry.chunkId := by
    intro entry listed
    rw [more, upsertChunks, Finset.mem_union, mem_entriesOf] at listed
    exact listed
  refine ⟨fenced.identified.advance held jobs attempt same.attempts (Or.inl same.run), ?_, ?_, ?_,
    ?_, ?_, ?_, ?_⟩
  · intro entry listed
    rw [same.attempts]
    rcases origin entry listed with known | ⟨rfl, -⟩
    · exact fenced.generations entry known
    · exact bounded
  · rw [same.chunks]
    exact fenced.ids
  · intro other found known
    rw [jobs, getElem?_set_iff held] at known
    rcases known with ⟨-, rfl⟩ | ⟨apart, known⟩
    · exact ok
    · refine (fenced.jobs other found known).transfer same fun theirs processing id => ?_
      refine ⟨fun listed => ?_, kept _⟩
      rcases origin _ listed with earlier | ⟨rfl, -⟩
      · exact earlier
      · exact absurd theirs (fenced.elsewhere held (current rfl processing) known apart)
  · intro isReady spaces
    rw [same.status] at isReady
    rw [same.chunks] at spaces
    obtain ⟨first, second⟩ := fenced.written isReady spaces
    rw [same.attempts]
    exact ⟨same.chunks ▸ first, same.chunks ▸ second⟩
  · intro isReady spaces id listed
    rw [same.status] at isReady
    rw [same.chunks] at spaces ⊢
    rw [same.attempts] at listed
    rcases origin _ listed with known | ⟨generation, stored⟩
    · exact fenced.subset isReady spaces id known
    · rw [ready generation.symm isReady] at stored
      exact stored
  · intro isReady spaces
    rw [same.status] at isReady
    rw [same.chunks] at spaces ⊢
    rw [same.attempts, jobs]
    by_cases generation : own = state.row.ingestionAttempts
    · refine Or.inl fun chunk stored => ?_
      rw [more, upsertChunks, Finset.mem_union, mem_entriesOf, ready generation isReady]
      exact Or.inr ⟨generation.symm, chunk, stored, rfl⟩
    · rcases fenced.complete isReady spaces with all | ⟨writer, found⟩
      · exact Or.inl fun chunk stored => kept _ (all chunk stored)
      · refine Or.inr ⟨writer, ?_⟩
        rw [getElem?_set_iff held]
        refine Or.inr ⟨?_, found⟩
        rintro rfl
        exact generation (promise _ (Option.some.inj (held.symm.trans found)))
  · intro publishes entry listed older
    rcases publishes.before held jobs same with earlier | ⟨delivery, rfl, -, marking⟩
    · rcases origin entry listed with known | ⟨rfl, -⟩
      · refine fenced.cleaned_mono held jobs same earlier ?_ known listed older
        exact fun attempt below owes => absurd owes (free attempt below)
      · refine ⟨place, next, ?_, debt⟩
        rw [jobs, getElem?_set_iff held]
        exact Or.inl ⟨rfl, rfl⟩
    · exact absurd marking (waits delivery rfl)

/-- A job is consistent with a row that is neither processed nor ready. -/
theorem Job.Ok.settled (ok : job.Ok fingerprint state) (idle : after.row.status ≠ .processing)
    (unready : after.row.status ≠ .ready)
    (attempts : after.row.ingestionAttempts = state.row.ingestionAttempts) :
    job.Ok fingerprint after := by
  cases job with
  | worker delivery =>
      exact fun _ => ⟨fun active => absurd active idle, fun active => absurd active unready⟩
  | sync phase => cases phase <;> simp_all [Job.Ok]

/-- A row that is neither processed nor ready keeps the fence. -/
theorem Fenced.settles (fenced : Fenced fingerprint state) (identified : Identified after)
    (idle : after.row.status ≠ .processing) (unready : after.row.status ≠ .ready)
    (index : after.index = state.index)
    (attempts : after.row.ingestionAttempts = state.row.ingestionAttempts)
    (chunks : after.chunks = state.chunks)
    (jobs : ∀ (place : Nat) (job : Job), after.jobs[place]? = some job →
      job.Ok fingerprint state ∨ ∃ delivery : Worker, job = .worker delivery) :
    Fenced fingerprint after := by
  refine ⟨identified, ?_, ?_, ?_, ?_, ?_, ?_, ?_⟩
  · rw [index, attempts]
    exact fenced.generations
  · rw [chunks]
    exact fenced.ids
  · intro place job held
    rcases jobs place job held with ok | ⟨delivery, rfl⟩
    · exact ok.settled idle unready attempts
    · exact fun _ => ⟨fun active => absurd active idle, fun active => absurd active unready⟩
  · exact fun ready => absurd ready unready
  · exact fun ready => absurd ready unready
  · exact fun ready => absurd ready unready
  · rintro (⟨ready, -⟩ | ⟨active, -⟩)
    · exact absurd ready unready
    · exact absurd active idle

end LumenCopilot.Ingestion
