import LumenCopilot.Construction.Library.Paging
import LumenCopilot.Construction.Python.Numerals
import LumenCopilot.Construction.Retrieval.Discovery
import LumenCopilot.Construction.Retrieval.Search

namespace LumenCopilot.Retrieval

open Python Library

/-- This is a state of the database with the time at which a statement reads it. -/
structure Snapshot where
  database : Database
  now : Int

/-- The statements of `read_document` read one after the other. -/
structure DocumentReads where
  gate : Snapshot
  chunks : Snapshot
  hydration : Snapshot
  current : Snapshot

/-- These are the reads of a database that does not change. -/
def DocumentReads.still (snapshot : Snapshot) : DocumentReads := ⟨snapshot, snapshot, snapshot, snapshot⟩

/-- These are the arguments of `read_document` beside its scope. -/
structure ReadRange where
  start : Int
  stop : Option Int
  maxPassages : Int
  deriving DecidableEq

/-- This is `DocumentRead`. -/
structure DocumentRead where
  documentId : Uuid
  documentName : Text
  passages : List RetrievedPassage
  totalLength : Nat
  returnedStart : Int
  returnedEnd : Int
  nextStart : Option Int
  deriving DecidableEq

variable (maxAgeHours : Nat) (allow : AllowSet) (documentId : Uuid) (scope : Scope)

/-- These are the conditions of `read_document` on the document. -/
def readable (snapshot : Snapshot) (document : Document) : Bool :=
  document.tenantId == allow.tenantId && document.id == documentId && document.status == .ready &&
    documentPermitted snapshot.database.grants maxAgeHours snapshot.now allow document &&
      documentScope scope.collectionIds scope.sourceIds scope.documentIds document

/-- This is the statement `permitted` of `read_document`. -/
def readableDocument (snapshot : Snapshot) : Option Document :=
  snapshot.database.documents.find? (readable maxAgeHours allow documentId scope snapshot)

/-- This is the scalar subquery `length`. -/
def totalLength (snapshot : Snapshot) : Nat :=
  (((snapshot.database.chunks.filter fun chunk =>
    chunk.tenantId == allow.tenantId && chunk.documentId == documentId).map Chunk.charEnd).max?).getD 0

/-- This is the order of the statement `chunks`. -/
def chunkKey (chunk : Chunk) : Nat ×ₗ Nat ×ₗ Nat := toLex (chunk.charEnd, toLex (chunk.ord, chunk.id.int))

/-- These are the chunks of the statement `chunks` without its limit and its range. -/
def documentChunks (snapshot : Snapshot) : List Chunk :=
  (snapshot.database.chunks.filter fun chunk =>
    chunk.tenantId == allow.tenantId && chunk.documentId == documentId &&
      (readableDocument maxAgeHours allow documentId scope snapshot).isSome).insertionSort
    fun first second : Chunk => chunkKey first ≤ chunkKey second

/-- This is the range of the statement `chunks`. -/
def ReadRange.selects (range : ReadRange) (chunk : Chunk) : Bool :=
  range.start < chunk.charEnd && range.stop.all fun stop => (chunk.charStart : Int) < stop

/-- These are the chunks in the range, in their order. -/
def rangeChunks (snapshot : Snapshot) (range : ReadRange) : List Chunk :=
  (documentChunks maxAgeHours allow documentId scope snapshot).filter range.selects

/-- This is the detail of the error for a malformed range. -/
def rangeDetail : Text := "Use start >= 0, end > start and max_passages 1–20.".toList

/-- This is the detail of the error for passages that cannot continue. -/
def overlapDetail : Text := ("Overlapping passages cannot continue within this range; increase " ++
  "max_passages (at most 20) or narrow the range. No continuation has skipped evidence.").toList

/-- This is the check of the arguments. -/
def ReadRange.malformed (range : ReadRange) : Bool :=
  range.start < 0 || range.stop.any (· ≤ range.start) || range.maxPassages < 1 || 20 < range.maxPassages

/-- This is the passage of a hydrated row. -/
def readPassage (documentName : Text) (row : PassageRow) : RetrievedPassage where
  chunkId := row.chunkId
  documentId := documentId
  documentName := documentName
  ord := row.ord
  text := row.text
  charStart := row.charStart
  charEnd := row.charEnd
  score := 0
  sourceLocations := row.sourceLocations
  timeStartMs := row.timeStartMs
  timeEndMs := row.timeEndMs
  transcriptSegmentId := row.transcriptSegmentId
  speakerId := row.speakerId
  speakerName := row.speakerName

/-- This is the page of the passages: the first row beyond them continues it or refuses it. -/
def readPage (document : Document) (total : Nat) (range : ReadRange)
    (passages : List RetrievedPassage) (beyond : Option Chunk) : Except Text DocumentRead :=
  let returnedStart : Int := ((passages.map RetrievedPassage.charStart).min?.map Int.ofNat).getD range.start
  let returnedEnd : Int := ((passages.map RetrievedPassage.charEnd).max?.map Int.ofNat).getD range.start
  let page (nextStart : Option Int) : DocumentRead :=
    ⟨documentId, document.filename, passages, total, returnedStart, returnedEnd, nextStart⟩
  match beyond with
  | none => .ok (page none)
  | some chunk =>
      if chunk.charEnd ≤ returnedEnd || range.stop.any (· ≤ returnedEnd) then .error overlapDetail
      else .ok (page (some returnedEnd))

/-- This is `read_document`. -/
def readDocument (reads : DocumentReads) (range : ReadRange) : Except Text (Option DocumentRead) :=
  if range.malformed then .error rangeDetail
  else if (readableDocument maxAgeHours allow documentId scope reads.gate).isNone then .ok none
  else
    let limit := range.maxPassages.toNat
    let rows := (rangeChunks maxAgeHours allow documentId scope reads.chunks range).take (limit + 1)
    let hydrated := loadPassages reads.hydration.database maxAgeHours reads.hydration.now allow
      (rows.map Chunk.id) scope
    if hydrated.size ≠ rows.length then .ok none
    else
      match readableDocument maxAgeHours allow documentId scope reads.current with
      | none => .ok none
      | some document =>
          let passages := (rows.take limit).filterMap fun chunk =>
            (hydrated.lookup chunk.id).map (readPassage documentId document.filename)
          (readPage documentId document (totalLength allow documentId reads.current) range passages
            rows[limit]?).map some

/-- A read that gives no page raises an error or finds no readable document. -/
inductive ReadFailure where
  | raised (detail : Text)
  | unavailable
  deriving DecidableEq

/-- This is the read of one page with its continuation. -/
def fetchPage (snapshot : Snapshot) (stop : Option Int) (maxPassages start : Int) :
    Except ReadFailure (DocumentRead × Option Int) :=
  match readDocument maxAgeHours allow documentId scope (.still snapshot) ⟨start, stop, maxPassages⟩ with
  | .error detail => .error (.raised detail)
  | .ok none => .error .unavailable
  | .ok (some page) => .ok (page, page.nextStart)

end LumenCopilot.Retrieval

namespace LumenCopilot.Retrieval

open Python Library

/-- This is `DocumentRow`. -/
structure DocumentRow where
  documentId : Uuid
  documentName : Text
  deriving DecidableEq

/-- This is `DocumentText`. -/
structure DocumentText where
  documentId : Uuid
  documentName : Text
  text : Text
  deriving DecidableEq

/-- This is `DocumentResolution`. -/
structure DocumentResolution where
  document : Option DocumentText := none
  candidates : List DocumentRow := []
  deriving DecidableEq

/-- These functions compare names in the database and read the handles of the model. -/
structure NameReader where
  collation : Collation
  ilike : Text → Text → Bool
  normalize : Text → Bool → Text
  uuid : Text → Option Uuid

variable (maxAgeHours : Nat) (allow : AllowSet) (scope : Scope)

/-- These are the conditions that every statement puts on a document. -/
def visible (snapshot : Snapshot) (document : Document) : Bool :=
  document.tenantId == allow.tenantId &&
    documentPermitted snapshot.database.grants maxAgeHours snapshot.now allow document &&
    documentScope scope.collectionIds scope.sourceIds scope.documentIds document

def visibleReady (snapshot : Snapshot) (document : Document) : Bool :=
  visible maxAgeHours allow scope snapshot document && document.status == .ready

/-- This is `permitted_document_names`. -/
def permittedDocumentNames (snapshot : Snapshot) (documentIds : List Uuid) : List (Uuid × Text) :=
  (snapshot.database.documents.filter fun document =>
    visible maxAgeHours allow scope snapshot document && documentIds.contains document.id).map
      fun document => (document.id, document.filename)

/-- These are the first rows of a statement in the order of the names. -/
def namedRows (reader : NameReader) (documents : List Document) (k : Nat) : List DocumentRow :=
  ((documents.insertionSort fun first second : Document =>
    toLex (reader.collation.weights first.filename, first.id.int) ≤
      toLex (reader.collation.weights second.filename, second.id.int)).take k).map
    fun document => ⟨document.id, document.filename⟩

/-- This is `document_search`. -/
def documentSearch (reader : NameReader) (snapshot : Snapshot) (nameOrQuery : Text) (k : Nat) :
    List DocumentRow :=
  namedRows reader (snapshot.database.documents.filter fun document =>
    visibleReady maxAgeHours allow scope snapshot document &&
      reader.ilike document.filename ('%' :: nameOrQuery ++ ['%'])) k

/-- This is `list_documents` of the queries. -/
def listDocuments (reader : NameReader) (snapshot : Snapshot) (k : Nat) : List DocumentRow :=
  namedRows reader (snapshot.database.documents.filter
    (visibleReady maxAgeHours allow scope snapshot)) k

/-- This is `documents_by_exact_name`. -/
def documentsByExactName (reader : NameReader) (snapshot : Snapshot) (name : Text) (k : Nat) :
    List DocumentRow :=
  namedRows reader (snapshot.database.documents.filter fun document =>
    visibleReady maxAgeHours allow scope snapshot document &&
      reader.collation.lower document.filename == reader.collation.lower (strip name)) k

/-- This is `load_document_text`. -/
def loadDocumentText (snapshot : Snapshot) (documentId : Uuid) : Option DocumentText :=
  (snapshot.database.documents.find? fun document =>
    visibleReady maxAgeHours allow scope snapshot document && document.id == documentId).map
      fun document =>
        let chunks := (snapshot.database.chunks.filter fun chunk =>
          chunk.documentId == document.id && chunk.tenantId == allow.tenantId).insertionSort
            fun first second : Chunk => first.ord ≤ second.ord
        ⟨document.id, document.filename, chunks.flatMap Chunk.text⟩

/-- This is `document_id_for_permitted_chunk`. -/
def documentIdForPermittedChunk (snapshot : Snapshot) (chunkId : Uuid) : Option Uuid :=
  (snapshot.database.chunks.find? fun chunk =>
    chunk.id == chunkId && (snapshot.database.documents.any fun document =>
      document.id == chunk.documentId &&
        documentScope scope.collectionIds scope.sourceIds scope.documentIds document &&
        permissionFilter snapshot.database maxAgeHours snapshot.now allow chunk document)).map
    Chunk.documentId

/-- The statements of one attempt to resolve a handle. -/
structure ResolveReads where
  document : Snapshot
  chunk : Snapshot
  containing : Snapshot
  names : Snapshot
  named : Snapshot

/-- This is the largest number of candidates for a name. -/
def maxNameCandidates : Nat := 10

/-- This is one pass of the loop of `resolve_document_text`: a result, or no match for the name. -/
def resolveAttempt (reader : NameReader) (reads : ResolveReads) (normalized : Text) :
    Option DocumentResolution :=
  match reader.uuid normalized with
  | some documentId =>
      match loadDocumentText maxAgeHours allow scope reads.document documentId with
      | some document => some { document := document }
      | none =>
          let containing := documentIdForPermittedChunk maxAgeHours allow scope reads.chunk documentId
          some { document := containing.bind (loadDocumentText maxAgeHours allow scope reads.containing) }
  | none =>
      match documentsByExactName maxAgeHours allow scope reader reads.names normalized
        maxNameCandidates with
      | [] => none
      | [row] => some { document := loadDocumentText maxAgeHours allow scope reads.named row.documentId }
      | candidates => some { candidates := candidates }

/-- This is `resolve_document_text`, which tries the literal name before the tolerant one. -/
def resolveDocumentText (reader : NameReader) (first second : ResolveReads) (handle : Text) :
    DocumentResolution :=
  let literal := reader.normalize handle true
  let tolerant := reader.normalize handle false
  if literal = [] then {}
  else
    let answer := (resolveAttempt maxAgeHours allow scope reader first literal).orElse fun _ =>
      if tolerant = literal then none
      else resolveAttempt maxAgeHours allow scope reader second tolerant
    answer.getD {}

end LumenCopilot.Retrieval
