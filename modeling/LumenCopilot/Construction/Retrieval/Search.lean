import LumenCopilot.Construction.Library.Dict
import LumenCopilot.Construction.Retrieval.Engine

namespace LumenCopilot.Retrieval.Fusion

open Library

/-- This is the `ValueError` of a constant that is not positive. -/
inductive FusionError where
  | constant
  deriving DecidableEq

variable {α : Type} [DecidableEq α]

/-- This is `1.0 / (k + rank)`. -/
def contribution (k : Int) (rank : Nat) : ℚ := 1 / (k + rank)

/-- This is `rrf_score`. -/
def rrfScore (rank : Nat) (k : Int) : Except FusionError ℚ :=
  if k ≤ 0 then .error .constant else .ok (contribution k rank)

/-- These are `scores`, `first_seen` and `order`. -/
structure Fused (α : Type) where
  scores : Dict α ℚ
  firstSeen : Dict α Nat
  order : Nat

/-- Nothing is seen at first. -/
def Fused.start : Fused α := ⟨∅, ∅, 0⟩

/-- This is the body of the inner loop for an id and its rank. -/
def Fused.record (k : Int) (fused : Fused α) (entry : α × Nat) : Fused α :=
  let scores := fused.scores.assign entry.1
    ((fused.scores.lookup entry.1).getD 0 + contribution k entry.2)
  if entry.1 ∈ fused.firstSeen then { fused with scores }
  else ⟨scores, fused.firstSeen.assign entry.1 fused.order, fused.order + 1⟩

/-- This is the outer loop. -/
def fuse (k : Int) (rankedLists : List (List α)) : Fused α :=
  rankedLists.foldl (fun fused ranked => ranked.zipIdx.foldl (Fused.record k) fused) .start

def Fused.score (fused : Fused α) (chunkId : α) : ℚ := (fused.scores.lookup chunkId).getD 0

/-- This is the key of the sort. -/
def Fused.key (fused : Fused α) (chunkId : α) : ℚ ×ₗ Nat :=
  toLex (-fused.score chunkId, (fused.firstSeen.lookup chunkId).getD 0)

/-- This is `reciprocal_rank_fusion`. -/
def reciprocalRankFusion (rankedLists : List (List α)) (k : Int) : Except FusionError (List α) :=
  if k ≤ 0 then .error .constant
  else .ok (sortedBy (fuse k rankedLists).key (fuse k rankedLists).scores.keys)

/-- This is `_RRF_K`. -/
def rrfK : Int := 60

end LumenCopilot.Retrieval.Fusion

namespace LumenCopilot.Retrieval

open Python Library

/-- This is `SearchHit`, which holds whatever the engine returned. -/
structure SearchHit where
  chunkId : Uuid
  documentId : Uuid
  score : ℚ
  ingestionAttempt : Int
  embeddingFingerprint : Text
  deriving DecidableEq

/-- This is `PassageRow`. -/
structure PassageRow where
  chunkId : Uuid
  documentId : Uuid
  documentName : Text
  documentKind : DocumentKind
  durationMs : Option Int
  ord : Nat
  text : Text
  charStart : Nat
  charEnd : Nat
  timeStartMs : Option Int
  timeEndMs : Option Int
  transcriptSegmentId : Option Uuid
  transcriptSegmentDocumentId : Option Uuid
  speakerId : Option Text
  speakerName : Option Text
  ingestionAttempt : Nat
  embeddingFingerprint : Option Text
  sourceLocations : List SourceLocation
  deriving DecidableEq

/-- This is `RetrievedPassage`. -/
structure RetrievedPassage where
  chunkId : Uuid
  documentId : Uuid
  documentName : Text
  ord : Nat
  text : Text
  charStart : Nat
  charEnd : Nat
  score : ℚ
  sourceLocations : List SourceLocation
  timeStartMs : Option Int
  timeEndMs : Option Int
  transcriptSegmentId : Option Uuid
  speakerId : Option Text
  speakerName : Option Text
  deriving DecidableEq

/-- This is `_valid_passage_provenance`. -/
def validPassageProvenance (row : PassageRow) : Bool :=
  match row.documentKind with
  | .document =>
      row.timeStartMs.isNone && row.timeEndMs.isNone && row.transcriptSegmentId.isNone &&
        row.transcriptSegmentDocumentId.isNone && row.speakerId.isNone && row.speakerName.isNone
  | .audio | .video =>
      match row.durationMs, row.timeStartMs, row.timeEndMs with
      | some duration, some start, some finish =>
          decide (0 ≤ start ∧ start < finish ∧ finish ≤ duration) &&
            (row.transcriptSegmentId.isNone ||
              row.transcriptSegmentDocumentId == some row.documentId) &&
            (row.speakerName.isNone || row.speakerId.isSome)
      | _, _, _ => false

/-- This is the outer join of `_base_chunk_select` with the transcript segments. -/
def segmentDocumentId (database : Database) (chunk : Chunk) : Option Uuid :=
  chunk.transcriptSegmentId.bind fun id =>
    (database.segments.find? fun segment =>
      segment.id = id ∧ segment.tenantId = chunk.tenantId).map TranscriptSegment.documentId

/-- This is one row of `_base_chunk_select`. -/
def passageRow (database : Database) (chunk : Chunk) (document : Document) : PassageRow where
  chunkId := chunk.id
  documentId := chunk.documentId
  documentName := document.filename
  documentKind := document.kind
  durationMs := document.durationMs
  ord := chunk.ord
  text := chunk.text
  charStart := chunk.charStart
  charEnd := chunk.charEnd
  timeStartMs := chunk.timeStartMs
  timeEndMs := chunk.timeEndMs
  transcriptSegmentId := chunk.transcriptSegmentId
  transcriptSegmentDocumentId := segmentDocumentId database chunk
  speakerId := chunk.speakerId
  speakerName := chunk.speakerName
  ingestionAttempt := document.ingestionAttempts
  embeddingFingerprint := chunk.embeddingFingerprint
  sourceLocations := chunk.sourceLocations.getD []

/-- This is `_permission_filter`. -/
def permissionFilter (database : Database) (maxAgeHours : Nat) (now : Int) (allowSet : AllowSet)
    (chunk : Chunk) (document : Document) : Bool :=
  chunk.tenantId == allowSet.tenantId && document.status == .ready &&
    documentPermitted database.grants maxAgeHours now allowSet document

/-- These filters narrow a search to a part of the permitted documents. -/
structure Scope where
  collectionIds : Option (List Uuid)
  documentIds : Option (List Uuid)
  sourceIds : Option (List Uuid)
  deriving DecidableEq

/-- These are the rows that the statement of `load_passages` selects. -/
def selectPassages (database : Database) (maxAgeHours : Nat) (now : Int) (allowSet : AllowSet)
    (chunkIds : List Uuid) (scope : Scope) : List PassageRow :=
  database.chunks.filterMap fun chunk =>
    (database.documents.find? fun document => document.id = chunk.documentId).bind fun document =>
      if chunkIds.contains chunk.id &&
          documentScope scope.collectionIds scope.sourceIds scope.documentIds document &&
          permissionFilter database maxAgeHours now allowSet chunk document then
        some (passageRow database chunk document)
      else none

/-- This is `load_passages`. -/
def loadPassages (database : Database) (maxAgeHours : Nat) (now : Int) (allowSet : AllowSet)
    (chunkIds : List Uuid) (scope : Scope) : Dict Uuid PassageRow :=
  let rows := (selectPassages database maxAgeHours now allowSet chunkIds scope).filter
    validPassageProvenance
  rows.foldl (fun rows row => rows.assign row.chunkId row) ∅

/-- This is `document_ids_for_sources`, in the order of the table. -/
def documentIdsForSources (database : Database) (maxAgeHours : Nat) (now : Int)
    (allowSet : AllowSet) (sourceIds : List Uuid) : List Uuid :=
  (database.documents.filter fun document =>
    document.tenantId == allowSet.tenantId &&
      documentPermitted database.grants maxAgeHours now allowSet document &&
      document.status == .ready && inScope (some sourceIds) document.sourceId).map Document.id

/-- This is what the engine is asked for. -/
structure EngineQuery (V : Type) where
  size : Int
  queryText : Text
  vector : V
  filters : List Clause
  routing : Text

/-- A narrowing clause is emitted for a non-empty list. -/
def narrowingClause (field : String) (ids : Option (List Uuid)) : List Clause :=
  grantClause field (ids.getD [])

/-- This is `_hybrid_body`, whose filters stand in both legs. -/
def hybridBody {V : Type} (queryText : Text) (vector : V) (embeddingFingerprint : Text)
    (allow : SearchAllowFilter) (maxAgeHours : Nat) (now k : Int)
    (collectionIds documentIds : Option (List Uuid)) : EngineQuery V where
  size := k
  queryText := queryText
  vector := vector
  filters := allow.toEngineFilter maxAgeHours now ++
    [.term "embedding_fingerprint".toList (.keyword embeddingFingerprint)] ++
    narrowingClause "collection_id" collectionIds ++ narrowingClause "document_id" documentIds
  routing := allow.tenantId.str

/-- These services answer or raise, and nothing is known about their answers. -/
structure Services (V : Type) where
  embed : Text → Text → Except SearchError V
  ensureIndex : Except SearchError Unit
  hybridSearch : EngineQuery V → Except SearchError (List SearchHit)

/-- These settings are read from the configuration. -/
structure Settings where
  embeddingFingerprint : Text
  aclMaxAgeHours : Nat

/-- Every statement of a search reads the database and the clock at its own time. -/
structure Reads where
  membership : Database
  scope : Database
  scopeNow : Int
  grants : Database
  filterNow : Int
  hydration : Database
  hydrationNow : Int

/-- These are the arguments of `RetrievalService.search`. -/
structure SearchRequest where
  query : Text
  k : Int
  collectionIds : Option (List Uuid) := none
  documentIds : Option (List Uuid) := none
  sourceIds : Option (List Uuid) := none
  deriving DecidableEq

/-- This is `_clamp_k`. -/
def clampK (k : Int) : Int := max 1 (min 100 k)

/-- This is `RetrievalService._resolve_allow_set`. -/
def resolveAllowSet (database : Database) (principal : Principal) : AllowSet :=
  AllowSet.forPrincipal principal (groupIdsForUser database principal.tenantId principal.userId)

/-- A source scope resolves to the ids of its permitted documents. -/
def effectiveDocumentIds (reads : Reads) (maxAgeHours : Nat) (allowSet : AllowSet)
    (request : SearchRequest) : Option (List Uuid) :=
  match request.sourceIds with
  | none => request.documentIds
  | some sourceIds =>
      let permitted :=
        documentIdsForSources reads.scope maxAgeHours reads.scopeNow allowSet sourceIds
      match request.documentIds with
      | none => some permitted
      | some documentIds => some (documentIds.filter permitted.contains)

/-- This is the passage of a hit and of its hydrated row. -/
def retrievedPassage (hit : SearchHit) (row : PassageRow) : RetrievedPassage where
  chunkId := row.chunkId
  documentId := row.documentId
  documentName := row.documentName
  ord := row.ord
  text := row.text
  charStart := row.charStart
  charEnd := row.charEnd
  score := hit.score
  sourceLocations := row.sourceLocations
  timeStartMs := row.timeStartMs
  timeEndMs := row.timeEndMs
  transcriptSegmentId := row.transcriptSegmentId
  speakerId := row.speakerId
  speakerName := row.speakerName

/-- A hit becomes a passage when its row has the generation and the space of the hit. -/
def hydrate (rows : Dict Uuid PassageRow) (hit : SearchHit) : Option RetrievedPassage :=
  (rows.lookup hit.chunkId).bind fun row =>
    if hit.ingestionAttempt ≠ row.ingestionAttempt ∨
        some hit.embeddingFingerprint ≠ row.embeddingFingerprint then none
    else some (retrievedPassage hit row)

variable {V : Type}

/-- This is `RetrievalService._search_permitted`. -/
def searchPermitted (services : Services V) (settings : Settings) (reads : Reads)
    (principal : Principal) (request : SearchRequest) :
    Except SearchError (List RetrievedPassage × Nat) := do
  let allowSet := resolveAllowSet reads.membership principal
  let documentIds := effectiveDocumentIds reads settings.aclMaxAgeHours allowSet request
  if request.sourceIds.isSome && documentIds == some [] then
    return ([], 0)
  let allow ← allowFilter reads.grants.grants allowSet
  let vector ← services.embed request.query principal.tenantId.str
  services.ensureIndex
  let hits ← services.hybridSearch (hybridBody request.query vector settings.embeddingFingerprint
    allow settings.aclMaxAgeHours reads.filterNow (clampK request.k) request.collectionIds
    documentIds)
  if hits.isEmpty then
    return ([], 0)
  let rows := loadPassages reads.hydration settings.aclMaxAgeHours reads.hydrationNow allowSet
    (hits.map SearchHit.chunkId) ⟨request.collectionIds, documentIds, request.sourceIds⟩
  return (hits.filterMap (hydrate rows), hits.length)

/-- This is `RetrievalService.search`. -/
def search (services : Services V) (settings : Settings) (reads : Reads) (principal : Principal)
    (request : SearchRequest) : Except SearchError (List RetrievedPassage) := do
  if isBlank request.query then
    return []
  let (passages, _) ← searchPermitted services settings reads principal request
  return passages

end LumenCopilot.Retrieval
