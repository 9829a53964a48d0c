import LumenCopilot.Construction.Retrieval.Permissions

namespace LumenCopilot.Retrieval

open Python

/-- A field of the index holds keywords, numbers, booleans or dates. -/
inductive FieldValue where
  | keyword (text : Text)
  | long (value : Int)
  | boolean (value : Bool)
  | date (micros : Int)
  deriving DecidableEq

/-- This is the part of the query language that the filter uses. -/
inductive Clause where
  | term (field : Text) (value : FieldValue)
  | terms (field : Text) (values : List FieldValue)
  | rangeGte (field : Text) (bound : Int)
  | bool (filter should : List Clause) (minimumShouldMatch : Nat)

/-- The engine has the values of every field of an entry, and a null field has none. -/
abbrev Entry : Type := Text → List FieldValue

mutual

/-- An entry matches a term by any of its values. -/
def Clause.matches (entry : Entry) : Clause → Bool
  | .term field value => (entry field).contains value
  | .terms field values => (entry field).any values.contains
  | .rangeGte field bound =>
      (entry field).any fun value =>
        match value with
        | .date micros | .long micros => decide (bound ≤ micros)
        | .keyword _ | .boolean _ => false
  | .bool filter should minimumShouldMatch =>
      matchesAll entry filter && decide (minimumShouldMatch ≤ countMatches entry should)

def matchesAll (entry : Entry) : List Clause → Bool
  | [] => true
  | clause :: rest => clause.matches entry && matchesAll entry rest

def countMatches (entry : Entry) : List Clause → Nat
  | [] => 0
  | clause :: rest => (if clause.matches entry then 1 else 0) + countMatches entry rest

end

/-- This is `SearchAllowFilter`, whose owner set is never empty. -/
structure SearchAllowFilter where
  tenantId : Uuid
  ownerIds : List Uuid
  grantedDocumentIds : List Uuid := []
  grantedCollectionIds : List Uuid := []
  aclPrincipals : List AclPrincipal := []
  owned : ownerIds ≠ []
  deriving DecidableEq

/-- These are the sorted strings of a set of ids. -/
def keywords (ids : List Uuid) : List FieldValue :=
  (sortedSet (ids.map Uuid.str)).map .keyword

/-- A grant clause is emitted for a non-empty set. -/
def grantClause (field : String) (ids : List Uuid) : List Clause :=
  if ids.isEmpty then [] else [.terms field.toList (keywords ids)]

/-- This is `SearchAllowFilter.to_engine_filter`. -/
def SearchAllowFilter.toEngineFilter (allow : SearchAllowFilter) (maxAgeHours : Nat) (now : Int) :
    List Clause :=
  let ownerOrGrant : List Clause :=
    .terms "owner_id".toList (keywords allow.ownerIds) ::
      (grantClause "document_id" allow.grantedDocumentIds ++
        grantClause "collection_id" allow.grantedCollectionIds)
  let notEnforcedBranch : Clause :=
    .bool [.term "acl_enforced".toList (.boolean false), .bool [] ownerOrGrant 1] [] 0
  let enforcedBranch : Clause :=
    .bool [.term "acl_enforced".toList (.boolean true),
      .terms "acl_principals".toList
        ((sortedSet (allow.aclPrincipals.map AclPrincipal.text)).map .keyword),
      .rangeGte "acl_synced_at".toList (aclFreshnessFloor maxAgeHours now)] [] 0
  [.term "tenant_id".toList (.keyword allow.tenantId.str),
    .bool [] [notEnforcedBranch, enforcedBranch] 1]

/-- This is `GrantRepository.granted_resource_ids`. -/
def grantedResourceIds (grants : List Grant) (tenantId principalId : Uuid) (groupIds : List Uuid) :
    List Uuid × List Uuid :=
  let granted := grants.filter fun grant =>
    grant.tenantId == tenantId && principalMatch principalId groupIds grant
  ((granted.filter fun grant => grant.resourceType = .document).map Grant.resourceId,
    (granted.filter fun grant => grant.resourceType = .collection).map Grant.resourceId)

/-- These are the errors that a search raises. -/
inductive SearchError where
  | valueError (message : Text)
  | dependencyError (message code : Text)
  deriving DecidableEq

/-- This is `RetrievalService._allow_filter`. -/
def allowFilter (grants : List Grant) (allowSet : AllowSet) : Except SearchError SearchAllowFilter :=
  let granted :=
    grantedResourceIds grants allowSet.tenantId allowSet.grantPrincipalId allowSet.groupIds
  if owned : allowSet.ownerIds ≠ [] then
    .ok {
      tenantId := allowSet.tenantId
      ownerIds := allowSet.ownerIds
      grantedDocumentIds := granted.1
      grantedCollectionIds := granted.2
      aclPrincipals := allowSet.aclPrincipals
      owned := owned }
  else
    .error (.valueError (("SearchAllowFilter requires a non-empty owner set " ++
      "(the requester always allows their own resources).").toList))

/-- This is `IndexedChunk` without its vector. -/
structure IndexedChunk where
  chunkId : Uuid
  tenantId : Uuid
  documentId : Uuid
  ownerId : Uuid
  collectionId : Uuid
  ord : Nat
  text : Text
  charStart : Nat
  charEnd : Nat
  ingestionAttempt : Nat
  embeddingFingerprint : Text
  aclEnforced : Bool
  aclPrincipals : List AclPrincipal
  aclSyncedAt : Option Int
  aclScopeIds : List Text
  sourceLocations : List SourceLocation
  timeStartMs : Option Int
  timeEndMs : Option Int
  transcriptSegmentId : Option Uuid
  speakerId : Option Text
  speakerName : Option Text
  deriving DecidableEq

/-- This is `_to_indexed`. -/
def toIndexed (document : Document) (chunks : List Chunk) (embeddingFingerprint : Text) :
    Except SearchError (List IndexedChunk) :=
  if chunks.any fun chunk => chunk.embeddingFingerprint ≠ some embeddingFingerprint then
    .error (.dependencyError "Stored chunks belong to another embedding coordinate space.".toList
      "embedding_space_mismatch".toList)
  else
    .ok <| chunks.map fun chunk => {
      chunkId := chunk.id
      tenantId := chunk.tenantId
      documentId := chunk.documentId
      ownerId := document.ownerId
      collectionId := document.collectionId
      ord := chunk.ord
      text := chunk.text
      charStart := chunk.charStart
      charEnd := chunk.charEnd
      ingestionAttempt := document.ingestionAttempts
      embeddingFingerprint := chunk.embeddingFingerprint.getD []
      aclEnforced := document.aclEnforced
      aclPrincipals := document.aclPrincipals.getD []
      aclSyncedAt := document.aclSyncedAt
      aclScopeIds := document.aclScopeIds.getD []
      sourceLocations := chunk.sourceLocations.getD []
      timeStartMs := chunk.timeStartMs
      timeEndMs := chunk.timeEndMs
      transcriptSegmentId := chunk.transcriptSegmentId
      speakerId := chunk.speakerId
      speakerName := chunk.speakerName }

/-- These are the fields that `_bulk_batch` writes for the engine to filter by. -/
def IndexedChunk.entry (chunk : IndexedChunk) : Entry := fun field =>
  if field = "chunk_id".toList then [.keyword chunk.chunkId.str]
  else if field = "tenant_id".toList then [.keyword chunk.tenantId.str]
  else if field = "document_id".toList then [.keyword chunk.documentId.str]
  else if field = "owner_id".toList then [.keyword chunk.ownerId.str]
  else if field = "collection_id".toList then [.keyword chunk.collectionId.str]
  else if field = "ord".toList then [.long chunk.ord]
  else if field = "char_start".toList then [.long chunk.charStart]
  else if field = "char_end".toList then [.long chunk.charEnd]
  else if field = "ingestion_attempt".toList then [.long chunk.ingestionAttempt]
  else if field = "embedding_fingerprint".toList then [.keyword chunk.embeddingFingerprint]
  else if field = "acl_enforced".toList then [.boolean chunk.aclEnforced]
  else if field = "acl_principals".toList then
    chunk.aclPrincipals.map fun principal => .keyword principal.text
  else if field = "acl_synced_at".toList then chunk.aclSyncedAt.toList.map .date
  else if field = "acl_scope_ids".toList then chunk.aclScopeIds.map .keyword
  else if field = "time_start_ms".toList then chunk.timeStartMs.toList.map .long
  else if field = "time_end_ms".toList then chunk.timeEndMs.toList.map .long
  else if field = "transcript_segment_id".toList then
    chunk.transcriptSegmentId.toList.map fun id => .keyword id.str
  else if field = "speaker_id".toList then chunk.speakerId.toList.map .keyword
  else if field = "speaker_name".toList then chunk.speakerName.toList.map .keyword
  else []

/-- This is `ChunkRepository.list_for_document`. -/
def listForDocument (database : Database) (tenantId documentId : Uuid) : List Chunk :=
  (database.chunks.filter fun chunk =>
    chunk.tenantId = tenantId ∧ chunk.documentId = documentId).mergeSort
      fun earlier later => decide (earlier.ord ≤ later.ord)

end LumenCopilot.Retrieval
