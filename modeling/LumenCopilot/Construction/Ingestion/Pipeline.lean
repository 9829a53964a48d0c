import LumenCopilot.Construction.Retrieval.Permissions

namespace LumenCopilot.Ingestion

open Python Retrieval

/-- This is the column `ingestion_failure`. -/
structure IngestionFailure where
  code : Text
  message : Text
  attempt : Nat
  deriving DecidableEq

/-- A metadata field is kept with the attempt that wrote it. -/
structure Written where
  value : Option Text
  attempt : Nat
  deriving DecidableEq

/-- These are the columns of one document that its ingestion writes. -/
structure Row where
  status : DocumentStatus
  error : Option Text
  ingestionRunId : Option Nat
  ingestionAttempts : Nat
  ingestionFailure : Option IngestionFailure
  extractionDiagnostics : Written
  sourceText : Written
  sourceLocations : Written
  ingestionFingerprint : Written
  deriving DecidableEq

/-- A row of `chunks` is kept with the attempt that wrote it. -/
structure ChunkRow where
  id : Nat
  embeddingFingerprint : Text
  writtenBy : Nat
  deriving DecidableEq

/-- The engine stores one entry under the id `chunk:attempt`. -/
structure IndexEntry where
  chunkId : Nat
  ingestionAttempt : Nat
  deriving DecidableEq

/-- This is the extracted text with its map and its fingerprint. -/
structure Extraction where
  text : Text
  locations : Text
  fingerprint : Text
  deriving DecidableEq

/-- The row is processed by this attempt. -/
def Row.ownsAttempt (row : Row) (attempt : Nat) : Bool :=
  row.status == .processing && row.ingestionAttempts == attempt

/-- The row is processed by this run. -/
def Row.isClaimedBy (row : Row) (run : Nat) : Bool :=
  row.status == .processing && row.ingestionRunId == some run

/-- This is `begin_ingestion` of a fenced claim, with the metadata that its transaction resets. -/
def Row.beginIngestion (row : Row) (run : Nat) (stale : Bool) : Option Row :=
  if row.status ≠ .processing ∨ stale then
    some { row with
      status := .processing
      error := none
      ingestionRunId := some run
      ingestionAttempts := row.ingestionAttempts + 1
      ingestionFailure := none
      extractionDiagnostics := ⟨none, row.ingestionAttempts + 1⟩ }
  else none

/-- This is `mark_ingestion_ready`. -/
def Row.markIngestionReady (row : Row) (attempt : Nat) : Option Row :=
  if row.ownsAttempt attempt then
    some { row with
      status := .ready, error := none, ingestionFailure := none, ingestionRunId := none }
  else none

/-- This is `mark_ingestion_failed` with an expected attempt. -/
def Row.markIngestionFailed (row : Row) (attempt : Nat) (code message : Text) : Option Row :=
  if row.ownsAttempt attempt then
    some { row with
      status := .failed
      error := some message
      ingestionFailure := some ⟨code, message, row.ingestionAttempts⟩
      ingestionRunId := none }
  else none

/-- This is `release_ingestion`. -/
def Row.releaseIngestion (row : Row) (run : Nat) : Option Row :=
  if row.isClaimedBy run then
    some { row with status := .pending, error := none, ingestionRunId := none }
  else none

/-- This is `reserve_stranded_ingestion_documents` for an untouched row. -/
def Row.reserveStranded (row : Row) : Option Row :=
  if row.status = .pending ∨ row.status = .processing then
    some { row with status := .pending, ingestionRunId := none }
  else none

/-- This is `update_ingestion_metadata` with new diagnostics, which no attempt fences. -/
def Row.updateDiagnostics (row : Row) (attempt : Nat) (diagnostics : Text) : Row :=
  { row with extractionDiagnostics := ⟨some diagnostics, attempt⟩ }

/-- This is `set_extraction`. -/
def Row.setExtraction (row : Row) (attempt : Nat) (extraction : Extraction) : Row :=
  { row with
    sourceText := ⟨some extraction.text, attempt⟩
    sourceLocations := ⟨some extraction.locations, attempt⟩
    ingestionFingerprint := ⟨some extraction.fingerprint, attempt⟩ }

/-- These are the awaits of one delivery after its claim. -/
inductive WorkerPhase where
  | claimed
  | diagnosed
  | syncing
  | deletingEmpty
  | cleaningEmpty
  | upserting (chunks : List ChunkRow)
  | cleaning
  | marking
  | discarding
  | failing (code message : Text)
  | done
  deriving DecidableEq

/-- A delivery holds its attempt and the chunks that it persisted. -/
structure Worker where
  media : Bool
  attempt : Nat
  phase : WorkerPhase
  persisted : Option (List ChunkRow)
  deriving DecidableEq

/-- These are the awaits of a generic index sync with the snapshot that it acts on. -/
inductive SyncPhase where
  | reading
  | deletingStale (attempt : Nat)
  | cleaningStale (attempt : Nat)
  | replacing (attempt : Nat) (chunks : List ChunkRow)
  | upserting (attempt : Nat) (chunks : List ChunkRow)
  | cleaning (attempt : Nat)
  | rechecking (attempt : Nat)
  | compensating (attempt : Nat)
  | done
  deriving DecidableEq

inductive Job where
  | worker (worker : Worker)
  | sync (phase : SyncPhase)
  deriving DecidableEq

/-- The place of a delivery in the list of jobs is its run id. -/
structure State where
  row : Row
  chunks : List ChunkRow
  index : Finset IndexEntry
  jobs : List Job
  deriving DecidableEq

/-- These are the outcomes of an await: what was read or computed, or an error. -/
inductive Outcome where
  | proceed
  | diagnosed (diagnostics : Text)
  | embedded (ids : List Nat) (extraction : Extraction)
  | lost
  | raised (code message : Text)
  | released
  deriving DecidableEq

inductive IngestAction where
  | claim (stale media : Bool)
  | sync
  | sweep
  | advance (job : Nat) (outcome : Outcome)
  deriving DecidableEq

/-- This is `delete_document_generation`. -/
def deleteGeneration (index : Finset IndexEntry) (attempt : Nat) : Finset IndexEntry :=
  index.filter fun entry => entry.ingestionAttempt ≠ attempt

/-- This is `delete_older_document_generations`. -/
def deleteOlderGenerations (index : Finset IndexEntry) (attempt : Nat) : Finset IndexEntry :=
  index.filter fun entry => ¬ entry.ingestionAttempt < attempt

/-- These are the entries of the chunks in one generation. -/
def entriesOf (chunks : List ChunkRow) (attempt : Nat) : Finset IndexEntry :=
  (chunks.map fun chunk => (⟨chunk.id, attempt⟩ : IndexEntry)).toFinset

/-- This is `upsert_chunks`. -/
def upsertChunks (index : Finset IndexEntry) (chunks : List ChunkRow) (attempt : Nat) :
    Finset IndexEntry := index ∪ entriesOf chunks attempt

/-- The stored chunks are of another embedding space. -/
def isLegacy (fingerprint : Text) (chunks : List ChunkRow) : Bool :=
  chunks.any fun chunk => chunk.embeddingFingerprint ≠ fingerprint

def State.setJob (state : State) (place : Nat) (job : Job) : State :=
  { state with jobs := state.jobs.set place job }

/-- A delivery waits in its next phase. -/
def State.setPhase (state : State) (place : Nat) (worker : Worker) (phase : WorkerPhase) : State :=
  state.setJob place (.worker { worker with phase := phase })

/-- This is `replace_for_ingestion` with the `set_extraction` of its transaction. -/
def State.persist (state : State) (fingerprint : Text) (place : Nat) (worker : Worker)
    (ids : List Nat) (extraction : Extraction) : State :=
  let rows := ids.map fun id => (⟨id, fingerprint, worker.attempt⟩ : ChunkRow)
  { state with
    row := if worker.media then state.row else state.row.setExtraction worker.attempt extraction
    chunks := rows
    jobs := state.jobs.set place
      (.worker { worker with phase := .syncing, persisted := some rows }) }

/-- This is one await of `ingest_document_async`. -/
def workerStep (fingerprint : Text) (state : State) (place : Nat) (worker : Worker) :
    Outcome → Option State
  | .diagnosed diagnostics =>
      match worker.phase, worker.media with
      | .claimed, false =>
          some { state.setPhase place worker .diagnosed with
            row := state.row.updateDiagnostics worker.attempt diagnostics }
      | _, _ => none
  | .embedded ids extraction =>
      if ids.Nodup then
        match worker.phase, worker.media with
        | .diagnosed, false =>
            if state.row.ownsAttempt worker.attempt then
              some (state.persist fingerprint place worker ids extraction)
            else some (state.setPhase place worker .done)
        | .claimed, true =>
            if state.row.isClaimedBy place then
              some (state.persist fingerprint place worker ids extraction)
            else some (state.setPhase place worker .done)
        | _, _ => none
      else none
  | .lost =>
      match worker.phase, worker.media with
      | .claimed, true =>
          if state.row.isClaimedBy place then none else some (state.setPhase place worker .done)
      | _, _ => none
  | .raised code message =>
      match worker.phase with
      | .claimed | .diagnosed | .syncing => some (state.setPhase place worker (.failing code message))
      | _ => none
  | .released =>
      match worker.phase with
      | .failing _ _ =>
          let finished := state.setPhase place worker .done
          match state.row.releaseIngestion place with
          | some row => some { finished with row := row }
          | none => some finished
      | _ => none
  | .proceed =>
      match worker.phase with
      | .claimed | .diagnosed | .done => none
      | .syncing =>
          if !state.row.ownsAttempt worker.attempt then some (state.setPhase place worker .done)
          else if state.chunks.isEmpty then some (state.setPhase place worker .deletingEmpty)
          else if isLegacy fingerprint state.chunks then
            some (state.setPhase place worker (.failing "embedding_space_mismatch".toList
              "Document ingestion failed while updating the search index.".toList))
          else some (state.setPhase place worker (.upserting state.chunks))
      | .deletingEmpty =>
          some { state.setPhase place worker .cleaningEmpty with
            index := deleteGeneration state.index worker.attempt }
      | .cleaningEmpty =>
          let phase := if worker.media then .marking else .failing "document_empty".toList
            ("No native text was extracted. Use a text-bearing file or an OCR-enabled " ++
              "workflow.").toList
          some { state.setPhase place worker phase with
            index := deleteOlderGenerations state.index worker.attempt }
      | .upserting chunks =>
          some { state.setPhase place worker .cleaning with
            index := upsertChunks state.index chunks worker.attempt }
      | .cleaning =>
          some { state.setPhase place worker .marking with
            index := deleteOlderGenerations state.index worker.attempt }
      | .marking =>
          match state.row.markIngestionReady worker.attempt with
          | some row => some { state.setPhase place worker .done with row := row }
          | none => some (state.setPhase place worker .discarding)
      | .discarding =>
          some { state.setPhase place worker .done with
            index := deleteGeneration state.index worker.attempt }
      | .failing code message =>
          let finished := state.setPhase place worker .done
          match state.row.markIngestionFailed worker.attempt code message with
          | some row => some { finished with row := row }
          | none => some finished

/-- This is one await of `sync_document_index_async` without an expected attempt. -/
def syncStep (fingerprint : Text) (state : State) (place : Nat) : SyncPhase → Option State
  | .reading =>
      let attempt := state.row.ingestionAttempts
      let phase :=
        if state.row.status ≠ .ready ∨ state.chunks.isEmpty ∨ isLegacy fingerprint state.chunks then
          if state.row.status ≠ .processing then .deletingStale attempt else .cleaningStale attempt
        else .replacing attempt state.chunks
      some (state.setJob place (.sync phase))
  | .deletingStale attempt =>
      some { state.setJob place (.sync (.cleaningStale attempt)) with
        index := deleteGeneration state.index attempt }
  | .cleaningStale attempt =>
      some { state.setJob place (.sync .done) with
        index := deleteOlderGenerations state.index attempt }
  | .replacing attempt chunks =>
      some { state.setJob place (.sync (.upserting attempt chunks)) with
        index := deleteGeneration state.index attempt }
  | .upserting attempt chunks =>
      some { state.setJob place (.sync (.cleaning attempt)) with
        index := upsertChunks state.index chunks attempt }
  | .cleaning attempt =>
      some { state.setJob place (.sync (.rechecking attempt)) with
        index := deleteOlderGenerations state.index attempt }
  | .rechecking attempt =>
      let phase := if state.row.status ≠ .ready ∨ state.row.ingestionAttempts ≠ attempt then
        .compensating attempt else .done
      some (state.setJob place (.sync phase))
  | .compensating attempt =>
      some { state.setJob place (.sync .done) with index := deleteGeneration state.index attempt }
  | .done => none

/-- This is one step of the deliveries, the syncs and the sweeps of one document. -/
def ingestStep (fingerprint : Text) (state : State) : IngestAction → Option State
  | .claim stale media =>
      (state.row.beginIngestion state.jobs.length stale).map fun row =>
        { state with
          row := row
          jobs := state.jobs ++ [.worker ⟨media, row.ingestionAttempts, .claimed, none⟩] }
  | .sync => some { state with jobs := state.jobs ++ [.sync .reading] }
  | .sweep => state.row.reserveStranded.map fun row => { state with row := row }
  | .advance place outcome =>
      match state.jobs[place]? with
      | some (.worker worker) => workerStep fingerprint state place worker outcome
      | some (.sync phase) =>
          match outcome with
          | .proceed => syncStep fingerprint state place phase
          | _ => none
      | none => none

end LumenCopilot.Ingestion
