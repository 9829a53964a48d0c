import LumenCopilot.Proof.Ingestion.Interleavings

namespace LumenCopilot.Ingestion

open Python Retrieval Library

variable {fingerprint : Text}

/-- The extracted text, its map and its fingerprint were written by the attempt. -/
structure Row.ExtractedBy (row : Row) (attempt : Nat) : Prop where
  text : row.sourceText.attempt = attempt
  locations : row.sourceLocations.attempt = attempt
  fingerprint : row.ingestionFingerprint.attempt = attempt

/-- The extraction record was written by the attempt. -/
structure Row.RecordedBy (row : Row) (attempt : Nat) : Prop where
  diagnostics : row.extractionDiagnostics.attempt = attempt
  extracted : row.ExtractedBy attempt

/-- A claim is not that of a recording. -/
def NonMedia : IngestAction → Prop
  | .claim _ media => media = false
  | _ => True

instance (action : IngestAction) : Decidable (NonMedia action) := by
  unfold NonMedia
  cases action <;> infer_instance

/-- Diagnostics are written while their attempt is that of the row. -/
def DiagnosesInTime (state : State) : IngestAction → Prop
  | .advance place (.diagnosed _) => ∀ worker, state.jobs[place]? = some (.worker worker) →
      worker.attempt = state.row.ingestionAttempts
  | _ => True

instance (state : State) (action : IngestAction) : Decidable (DiagnosesInTime state action) :=
  match action with
  | .claim _ _ => isTrue trivial
  | .sync => isTrue trivial
  | .sweep => isTrue trivial
  | .advance _ .proceed => isTrue trivial
  | .advance _ (.embedded _ _) => isTrue trivial
  | .advance _ .lost => isTrue trivial
  | .advance _ (.raised _ _) => isTrue trivial
  | .advance _ .released => isTrue trivial
  | .advance place (.diagnosed _) =>
      match held : state.jobs[place]? with
      | some (.worker worker) =>
          if current : worker.attempt = state.row.ingestionAttempts then
            isTrue fun other found => by
              obtain rfl := Job.worker.inj (Option.some.inj (held.symm.trans found))
              exact current
          else isFalse fun inTime => current (inTime worker held)
      | some (.sync _) => isTrue fun _ found => by simp [held] at found
      | none => isTrue fun _ found => by simp [held] at found

/-- The extraction record is that of the attempt of the row. -/
structure Recorded (state : State) : Prop where
  media : ∀ (place : Nat) (worker : Worker), state.jobs[place]? = some (.worker worker) →
    worker.media = false
  ready : state.row.status = .ready → state.row.RecordedBy state.row.ingestionAttempts
  diagnosed : ∀ (place : Nat) (worker : Worker), state.jobs[place]? = some (.worker worker) →
    worker.attempt = state.row.ingestionAttempts →
      state.row.extractionDiagnostics.attempt = worker.attempt
  persisted : ∀ (place : Nat) (worker : Worker), state.jobs[place]? = some (.worker worker) →
    worker.attempt = state.row.ingestionAttempts → state.row.status = .processing →
      worker.phase.persisted = true → state.row.ExtractedBy worker.attempt

/-- A row keeps what an attempt has extracted. -/
def KeepsExtraction (row after : Row) : Prop :=
  ∀ attempt, row.ExtractedBy attempt → after.ExtractedBy attempt

variable {state after : State} {place : Nat} {worker : Worker}

/-- A delivery that goes on keeps the record. -/
theorem Recorded.advance (recorded : Recorded state) {next : Worker}
    (held : state.jobs[place]? = some (.worker worker))
    (jobs : after.jobs = state.jobs.set place (.worker next))
    (attempt : next.attempt = worker.attempt) (media : next.media = worker.media)
    (attempts : after.row.ingestionAttempts = state.row.ingestionAttempts)
    (ready : after.row.status = .ready → after.row.RecordedBy state.row.ingestionAttempts)
    (diagnosed : after.row.extractionDiagnostics.attempt = state.row.extractionDiagnostics.attempt ∨
      after.row.extractionDiagnostics.attempt = state.row.ingestionAttempts)
    (extracted : after.row.status = .processing →
      after.row.ExtractedBy state.row.ingestionAttempts ∨
        state.row.status = .processing ∧ KeepsExtraction state.row after.row ∧
          (next.phase.persisted = true → worker.phase.persisted = true)) : Recorded after := by
  have earlier : ∀ (other : Nat) (found : Worker), after.jobs[other]? = some (.worker found) →
      ∃ before : Worker, state.jobs[other]? = some (.worker before) ∧
        before.attempt = found.attempt ∧ before.media = found.media ∧
          (before = found ∨ before = worker ∧ found = next) := by
    intro other found known
    rw [jobs, getElem?_set_iff held] at known
    rcases known with ⟨rfl, same⟩ | ⟨-, known⟩
    · obtain rfl := Job.worker.inj same
      exact ⟨worker, held, attempt.symm, media.symm, Or.inr ⟨rfl, rfl⟩⟩
    · exact ⟨found, known, rfl, rfl, Or.inl rfl⟩
  refine ⟨?_, fun isReady => attempts.symm ▸ ready isReady, ?_, ?_⟩
  · intro other found known
    obtain ⟨before, was, -, same, -⟩ := earlier other found known
    exact same ▸ recorded.media other before was
  · intro other found known current
    obtain ⟨before, was, same, -, -⟩ := earlier other found known
    have fresh := recorded.diagnosed other before was (same.trans (current.trans attempts))
    rcases diagnosed with kept | own
    · rw [kept, fresh, same]
    · rw [own, current, attempts]
  · intro other found known current active persisted
    obtain ⟨before, was, same, -, which⟩ := earlier other found known
    rcases extracted active with own | ⟨before_active, keeps, still⟩
    · rw [current, attempts]
      exact own
    · have was_persisted : before.phase.persisted = true := by
        rcases which with rfl | ⟨rfl, rfl⟩
        · exact persisted
        · exact still persisted
      rw [← same]
      exact keeps _ (recorded.persisted other before was (same.trans (current.trans attempts))
        before_active was_persisted)

/-- An await of a delivery that diagnoses in time keeps the record. -/
theorem Recorded.worker_step (recorded : Recorded state)
    (held : state.jobs[place]? = some (.worker worker)) {outcome : Outcome}
    (inTime : ∀ diagnostics, outcome = .diagnosed diagnostics →
      worker.attempt = state.row.ingestionAttempts)
    (changes : RowStep fingerprint state place worker outcome after) : Recorded after := by
  have attempts := changes.attempts
  have media := recorded.media place worker held
  cases changes with
  | kept row next =>
      obtain ⟨phase, jobs, still⟩ := next.jobs
      refine recorded.advance held jobs rfl rfl attempts ?_ ?_ ?_
      · rw [row]
        exact recorded.ready
      · exact Or.inl (by rw [row])
      · rw [row]
        exact fun active => Or.inr ⟨active, fun _ extracted => extracted, still⟩
  | diagnosed diagnostics told row next =>
      obtain ⟨phase, jobs, still⟩ := next.jobs
      have current := inTime diagnostics told
      refine recorded.advance held jobs rfl rfl attempts ?_ ?_ ?_
      · rw [row]
        exact fun ready => ⟨current, (recorded.ready ready).extracted.text,
          (recorded.ready ready).extracted.locations, (recorded.ready ready).extracted.fingerprint⟩
      · rw [row]
        exact Or.inr current
      · rw [row]
        exact fun active => Or.inr ⟨active,
          fun _ extracted => ⟨extracted.text, extracted.locations, extracted.fingerprint⟩, still⟩
  | persisted ids extraction fenced =>
      rcases fenced with ⟨-, owns⟩ | ⟨recording, -⟩
      · obtain ⟨active, current⟩ := ownsAttempt_iff.mp owns
        have row : (state.persist fingerprint place worker ids extraction).row =
            state.row.setExtraction worker.attempt extraction := by
          simp [State.persist, media]
        refine recorded.advance held rfl rfl rfl attempts ?_ ?_ ?_
        · rw [row]
          intro ready
          have processing : (state.row.setExtraction worker.attempt extraction).status =
              .processing := active
          rw [processing] at ready
          contradiction
        · rw [row]
          exact Or.inl rfl
        · rw [row, current]
          exact fun _ => Or.inl ⟨rfl, rfl, rfl⟩
      · rw [media] at recording
        contradiction
  | marked phase row next =>
      obtain ⟨later, jobs, still⟩ := next.jobs
      unfold Row.markIngestionReady at row
      split at row
      · rename_i owns
        obtain ⟨active, current⟩ := ownsAttempt_iff.mp owns
        have marked := Option.some.inj row
        refine recorded.advance held jobs rfl rfl attempts ?_ ?_ ?_
        · rw [← marked]
          have extracted := recorded.persisted place worker held current.symm active
            (by rw [phase]; rfl)
          intro _
          rw [current]
          exact ⟨recorded.diagnosed place worker held current.symm, extracted.text,
            extracted.locations, extracted.fingerprint⟩
        · rw [← marked]
          exact Or.inl rfl
        · rw [← marked]
          exact fun processing => by simp at processing
      · contradiction
  | failed code message row next =>
      obtain ⟨phase, jobs, still⟩ := next.jobs
      unfold Row.markIngestionFailed at row
      split at row
      · have failed := Option.some.inj row
        refine recorded.advance held jobs rfl rfl attempts ?_ ?_ ?_
        · rw [← failed]
          exact fun ready => by simp at ready
        · rw [← failed]
          exact Or.inl rfl
        · rw [← failed]
          exact fun processing => by simp at processing
      · contradiction
  | released row next =>
      obtain ⟨phase, jobs, still⟩ := next.jobs
      unfold Row.releaseIngestion at row
      split at row
      · have released := Option.some.inj row
        refine recorded.advance held jobs rfl rfl attempts ?_ ?_ ?_
        · rw [← released]
          exact fun ready => by simp at ready
        · rw [← released]
          exact Or.inl rfl
        · rw [← released]
          exact fun processing => by simp at processing
      · contradiction

/-- A step of other jobs keeps the record. -/
theorem Recorded.kept (recorded : Recorded state) (row : after.row = state.row)
    (jobs : ∀ (place : Nat) (worker : Worker), after.jobs[place]? = some (.worker worker) →
      state.jobs[place]? = some (.worker worker)) : Recorded after := by
  refine ⟨?_, ?_, ?_, ?_⟩
  · exact fun place worker held => recorded.media place worker (jobs place worker held)
  · rw [row]
    exact recorded.ready
  · rw [row]
    exact fun place worker held => recorded.diagnosed place worker (jobs place worker held)
  · rw [row]
    exact fun place worker held => recorded.persisted place worker (jobs place worker held)

/-- Every step of a text document that diagnoses in time keeps the record. -/
theorem Recorded.step (recorded : Recorded state) (fenced : Fenced fingerprint state)
    {action : IngestAction} (text : NonMedia action) (inTime : DiagnosesInTime state action)
    (stepped : ingestStep fingerprint state action = some after) : Recorded after := by
  cases action with
  | claim stale media =>
      obtain rfl : media = false := text
      obtain ⟨row, began, rfl⟩ := Option.map_eq_some_iff.mp stepped
      unfold Row.beginIngestion at began
      split at began
      · obtain rfl := Option.some.inj began
        refine ⟨?_, fun ready => by simp at ready, ?_, ?_⟩
        · intro place worker held
          rcases getElem?_snoc_iff.mp held with held | ⟨-, same⟩
          · exact recorded.media place worker held
          · obtain rfl := Job.worker.inj same
            rfl
        · intro place worker held current
          exact current.symm
        · intro place worker held current _ persisted
          rcases getElem?_snoc_iff.mp held with held | ⟨-, same⟩
          · have bounded := fenced.identified.claims place worker held
            simp only at current
            omega
          · obtain rfl := Job.worker.inj same
            simp [WorkerPhase.persisted] at persisted
      · contradiction
  | sync =>
      obtain rfl := Option.some.inj stepped
      refine recorded.kept rfl fun place worker held => ?_
      rcases getElem?_snoc_iff.mp held with held | ⟨-, same⟩
      · exact held
      · simp at same
  | sweep =>
      obtain ⟨row, reserved, rfl⟩ := Option.map_eq_some_iff.mp stepped
      unfold Row.reserveStranded at reserved
      split at reserved
      · obtain rfl := Option.some.inj reserved
        exact ⟨recorded.media, fun ready => by simp at ready, recorded.diagnosed,
          fun _ _ _ _ active => by simp at active⟩
      · contradiction
  | advance place outcome =>
      simp only [ingestStep] at stepped
      split at stepped
      · rename_i worker held
        refine recorded.worker_step held ?_ (workerStep_row stepped)
        rintro diagnostics rfl
        exact inTime worker held
      · rename_i phase held
        split at stepped
        · obtain ⟨row, chunks⟩ := syncStep_row stepped
          refine recorded.kept row fun other worker found => ?_
          obtain ⟨next, jobs⟩ : ∃ next, after.jobs = state.jobs.set place (.sync next) := by
            cases phase with
            | done => simp [syncStep] at stepped
            | _ =>
                obtain rfl := Option.some.inj stepped
                exact ⟨_, rfl⟩
          rw [jobs, getElem?_set_iff held] at found
          rcases found with ⟨-, same⟩ | ⟨-, found⟩
          · simp at same
          · exact found
        · contradiction
      · contradiction

/-- A superseded delivery that diagnoses in time changes nothing of the record. -/
theorem RowStep.record_kept (fenced : Fenced fingerprint state)
    (held : state.jobs[place]? = some (.worker worker))
    (superseded : worker.attempt < state.row.ingestionAttempts) {outcome : Outcome}
    (inTime : ∀ diagnostics, outcome = .diagnosed diagnostics →
      worker.attempt = state.row.ingestionAttempts)
    (changes : RowStep fingerprint state place worker outcome after) :
    after.row.extractionDiagnostics = state.row.extractionDiagnostics ∧
      after.row.sourceText = state.row.sourceText ∧
      after.row.sourceLocations = state.row.sourceLocations ∧
      after.row.ingestionFingerprint = state.row.ingestionFingerprint := by
  have lost : state.row.ownsAttempt worker.attempt = false := by
    rw [Bool.eq_false_iff]
    intro owns
    have current := (ownsAttempt_iff.mp owns).2
    omega
  cases changes with
  | kept row next => simp [row]
  | diagnosed diagnostics told row next =>
      have current := inTime diagnostics told
      omega
  | persisted ids extraction owned =>
      rcases owned with ⟨-, owns⟩ | ⟨-, claimed⟩
      · rw [lost] at owns
        contradiction
      · rw [fenced.owns_of_claimed held claimed] at lost
        contradiction
  | marked phase row next => simp [Row.markIngestionReady, lost] at row
  | failed code message row next => simp [Row.markIngestionFailed, lost] at row
  | released row next =>
      unfold Row.releaseIngestion at row
      split at row
      · rename_i claimed
        rw [fenced.owns_of_claimed held claimed] at lost
        contradiction
      · contradiction

/-- A document whose deliveries diagnose in time has the extraction record of its attempt. -/
theorem extraction_recorded {initial final : State} (rest : AtRest fingerprint initial)
    (recorded : initial.row.status = .ready →
      initial.row.RecordedBy initial.row.ingestionAttempts)
    {actions : List IngestAction} (runs : Runs (ingestStep fingerprint)
      (fun state action => NonMedia action ∧ DiagnosesInTime state action)
      initial actions final) :
    (final.row.status = .ready → final.row.RecordedBy final.row.ingestionAttempts) ∧
    ∀ place worker outcome after, final.jobs[place]? = some (.worker worker) →
      worker.attempt < final.row.ingestionAttempts →
      DiagnosesInTime final (.advance place outcome) →
      ingestStep fingerprint final (.advance place outcome) = some after →
        after.row.extractionDiagnostics = final.row.extractionDiagnostics ∧
        after.row.sourceText = final.row.sourceText ∧
        after.row.sourceLocations = final.row.sourceLocations ∧
        after.row.ingestionFingerprint = final.row.ingestionFingerprint := by
  have idle : ∀ (place : Nat) (job : Job), initial.jobs[place]? ≠ some job := by
    intro place job
    rw [rest.jobs]
    simp
  have start : Recorded initial :=
    ⟨fun place worker held => absurd held (idle place _), recorded,
      fun place worker held => absurd held (idle place _),
      fun place worker held => absurd held (idle place _)⟩
  obtain ⟨fenced, kept⟩ := runs.invariant
    (fun state => Fenced fingerprint state ∧ Recorded state)
    (fun _ _ _ both allowed stepped =>
      ⟨both.1.step stepped, both.2.step both.1 allowed.1 allowed.2 stepped⟩) ⟨rest.fenced, start⟩
  refine ⟨kept.ready, ?_⟩
  intro place worker outcome after held superseded inTime stepped
  simp only [ingestStep, held] at stepped
  refine (workerStep_row stepped).record_kept fenced held superseded ?_
  rintro diagnostics rfl
  exact inTime worker held

/-- A taken over delivery that diagnoses in time leaves the record to the second attempt. -/
theorem extraction_recorded_takeover :
    let row : Row := ⟨.ready, none, none, 2, none, ⟨some ['d'], 2⟩, ⟨some ['t'], 2⟩,
      ⟨some ['l'], 2⟩, ⟨some ['f'], 2⟩⟩
    row.RecordedBy 2 := by
  intro row
  let space : Text := ['e']
  let blank : Written := ⟨none, 0⟩
  let initial : State :=
    ⟨⟨.pending, none, none, 0, none, blank, blank, blank, blank⟩, [], ∅, []⟩
  let chunks : List ChunkRow := [⟨7, space, 2⟩]
  let final : State := ⟨row, chunks, {⟨7, 2⟩}, [.worker ⟨false, 1, .done, none⟩,
    .worker ⟨false, 2, .done, some chunks⟩]⟩
  have runs : Runs (ingestStep space)
      (fun state action => decide (NonMedia action ∧ DiagnosesInTime state action) = true) initial
      [.claim false false, .advance 0 (.diagnosed ['o']), .claim true false,
        .advance 1 (.diagnosed ['d']), .advance 0 (.embedded [5] ⟨['o'], [], []⟩),
        .advance 1 (.embedded [7] ⟨['t'], ['l'], ['f']⟩), .advance 1 .proceed,
        .advance 1 .proceed, .advance 1 .proceed, .advance 1 .proceed] final :=
    Runs.of_execute (by decide)
  have rest : AtRest space initial := ⟨rfl, rfl, by simp [initial], by simp [initial],
    by simp [initial]⟩
  have allowed := runs.narrow (fun action _ state permitted => of_decide_eq_true permitted)
  exact (extraction_recorded rest (by simp [initial]) allowed).1 rfl

/-- A taken over delivery may still write its diagnostics over those of the ready attempt. -/
theorem extraction_overwritten :
    ∃ (space : Text) (initial final : State) (actions : List IngestAction),
      AtRest space initial ∧ (∀ action ∈ actions, NonMedia action) ∧
      Runs (ingestStep space) (fun _ _ => True) initial actions final ∧
      final.row.status = .ready ∧ final.row.ingestionAttempts = 2 ∧
      final.row.extractionDiagnostics = ⟨some ['o'], 1⟩ ∧
      ¬ final.row.RecordedBy final.row.ingestionAttempts := by
  let space : Text := ['e']
  let blank : Written := ⟨none, 0⟩
  let initial : State :=
    ⟨⟨.pending, none, none, 0, none, blank, blank, blank, blank⟩, [], ∅, []⟩
  let chunks : List ChunkRow := [⟨7, space, 2⟩]
  let final : State := ⟨⟨.ready, none, none, 2, none, ⟨some ['o'], 1⟩, ⟨some ['t'], 2⟩,
      ⟨some ['l'], 2⟩, ⟨some ['f'], 2⟩⟩, chunks, {⟨7, 2⟩},
    [.worker ⟨false, 1, .diagnosed, none⟩, .worker ⟨false, 2, .done, some chunks⟩]⟩
  refine ⟨space, initial, final, [.claim false false, .claim true false,
    .advance 1 (.diagnosed ['d']), .advance 1 (.embedded [7] ⟨['t'], ['l'], ['f']⟩),
    .advance 1 .proceed, .advance 1 .proceed, .advance 1 .proceed, .advance 1 .proceed,
    .advance 0 (.diagnosed ['o'])], ?_, by decide, Runs.of_unchecked (by decide), rfl, rfl,
    rfl, ?_⟩
  · exact ⟨rfl, rfl, by simp [initial], by simp [initial], by simp [initial]⟩
  · exact fun recorded => absurd recorded.diagnostics (by decide)

end LumenCopilot.Ingestion
