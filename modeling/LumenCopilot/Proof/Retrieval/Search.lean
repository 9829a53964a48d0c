import LumenCopilot.Construction.Retrieval.Search
import LumenCopilot.Proof.Library.Dict
import LumenCopilot.Proof.Retrieval.Filter

namespace LumenCopilot.Retrieval

open Python Library

/-- A hit is admissible as a passage of a chunk and of its document. -/
structure Admits (settings : Settings) (reads : Reads) (allowSet : AllowSet) (scope : Scope)
    (hit : SearchHit) (chunk : Chunk) (document : Document) : Prop where
  stored : chunk ∈ reads.hydration.chunks
  found : chunk.id = hit.chunkId
  documented : document ∈ reads.hydration.documents
  owner : chunk.documentId = document.id
  tenant : chunk.tenantId = allowSet.tenantId
  ready : document.status = .ready
  permitted : documentPermitted reads.hydration.grants settings.aclMaxAgeHours reads.hydrationNow
    allowSet document = true
  collection : ∀ ids, scope.collectionIds = some ids → document.collectionId ∈ ids
  listed : ∀ ids, scope.documentIds = some ids → document.id ∈ ids
  source : ∀ ids, scope.sourceIds = some ids → ∃ id, document.sourceId = some id ∧ id ∈ ids
  attempt : hit.ingestionAttempt = document.ingestionAttempts
  space : chunk.embeddingFingerprint = some hit.embeddingFingerprint
  provenance : validPassageProvenance (passageRow reads.hydration chunk document) = true

theorem inScope_iff (ids : Option (List Uuid)) (value : Option Uuid) :
    inScope ids value = true ↔ ∀ list, ids = some list → ∃ id, value = some id ∧ id ∈ list := by
  unfold inScope
  cases ids with
  | none => simp
  | some ids =>
      cases value with
      | none => simp
      | some value => simp

theorem documentScope_iff (scope : Scope) (document : Document) :
    documentScope scope.collectionIds scope.sourceIds scope.documentIds document = true ↔
      (∀ ids, scope.collectionIds = some ids → document.collectionId ∈ ids) ∧
        (∀ ids, scope.sourceIds = some ids → ∃ id, document.sourceId = some id ∧ id ∈ ids) ∧
        ∀ ids, scope.documentIds = some ids → document.id ∈ ids := by
  unfold documentScope
  simp only [Bool.and_eq_true, inScope_iff, Option.some.injEq, exists_eq_left', and_assoc]

/-- A document is found by its id. -/
theorem Database.find?_document (database : Database) {id : Uuid} {document : Document} :
    (database.documents.find? fun other => other.id = id) = some document ↔
      document ∈ database.documents ∧ document.id = id := by
  constructor
  · intro found
    exact ⟨List.mem_of_find?_eq_some found, of_decide_eq_true (List.find?_some found :)⟩
  · rintro ⟨stored, rfl⟩
    obtain ⟨other, found⟩ : ∃ other,
        database.documents.find? (fun other => other.id = document.id) = some other := by
      rw [← Option.isSome_iff_exists, List.find?_isSome]
      exact ⟨document, stored, decide_eq_true rfl⟩
    have same : other.id = document.id := of_decide_eq_true (List.find?_some found :)
    rw [found, List.inj_on_of_nodup_map database.documentKeys (List.mem_of_find?_eq_some found)
      stored same]

variable {settings : Settings} {reads : Reads} {allowSet : AllowSet} {scope : Scope}

theorem mem_selectPassages_iff {chunkIds : List Uuid} {row : PassageRow} :
    row ∈ selectPassages reads.hydration settings.aclMaxAgeHours reads.hydrationNow allowSet chunkIds
        scope ↔
      ∃ chunk ∈ reads.hydration.chunks, ∃ document ∈ reads.hydration.documents,
        document.id = chunk.documentId ∧ chunk.id ∈ chunkIds ∧
          documentScope scope.collectionIds scope.sourceIds scope.documentIds document = true ∧
            permissionFilter reads.hydration settings.aclMaxAgeHours reads.hydrationNow allowSet chunk
              document = true ∧ passageRow reads.hydration chunk document = row := by
  unfold selectPassages
  simp only [List.mem_filterMap, Option.bind_eq_some_iff, Database.find?_document,
    Option.ite_none_right_eq_some, Bool.and_eq_true, List.contains_iff_mem, Option.some.injEq,
    and_assoc]

/-- Every selected row has the id of its own chunk. -/
theorem selectPassages_keys (chunkIds : List Uuid) :
    ((selectPassages reads.hydration settings.aclMaxAgeHours reads.hydrationNow allowSet chunkIds
      scope).map PassageRow.chunkId).Nodup := by
  refine reads.hydration.chunkKeys.sublist ?_
  unfold selectPassages
  generalize reads.hydration.chunks = chunks
  induction chunks with
  | nil => exact List.Sublist.refl []
  | cons chunk rest ih =>
      rw [List.filterMap_cons]
      split
      · exact ih.cons chunk.id
      · next row selected =>
          obtain ⟨document, -, admitted⟩ := Option.bind_eq_some_iff.mp selected
          rw [Option.ite_none_right_eq_some] at admitted
          obtain rfl := Option.some.inj admitted.2
          exact ih.cons_cons chunk.id

/-- The loaded rows are the selected ones with a valid provenance. -/
theorem lookup_loadPassages_iff {chunkIds : List Uuid} {id : Uuid} {row : PassageRow} :
    (loadPassages reads.hydration settings.aclMaxAgeHours reads.hydrationNow allowSet chunkIds
        scope).lookup id = some row ↔
      row ∈ selectPassages reads.hydration settings.aclMaxAgeHours reads.hydrationNow allowSet
        chunkIds scope ∧ validPassageProvenance row = true ∧ row.chunkId = id := by
  let rows := (selectPassages reads.hydration settings.aclMaxAgeHours reads.hydrationNow allowSet
    chunkIds scope).filter validPassageProvenance
  let entries : List (Sigma fun _ : Uuid => PassageRow) := rows.map fun row => ⟨row.chunkId, row⟩
  have keys : entries.NodupKeys := by
    rw [List.NodupKeys, List.keys, List.map_map]
    exact (selectPassages_keys chunkIds).sublist (List.filter_sublist.map PassageRow.chunkId)
  have loaded : loadPassages reads.hydration settings.aclMaxAgeHours reads.hydrationNow allowSet
      chunkIds scope = entries.foldl (fun dict item => dict.assign item.1 item.2) ∅ := by
    rw [List.foldl_map]
    rfl
  rw [loaded, Dict.lookup_foldl_assign keys (fun item _ => AList.notMem_empty item.1),
    AList.lookup_empty, Option.or_none, ← Option.mem_def, List.mem_dlookup_iff keys]
  simp only [entries, rows, List.mem_map, List.mem_filter, Sigma.mk.injEq, heq_eq_eq]
  constructor
  · rintro ⟨other, ⟨selected, valid⟩, key, rfl⟩
    exact ⟨selected, valid, key⟩
  · rintro ⟨selected, valid, key⟩
    exact ⟨row, ⟨selected, valid⟩, key, rfl⟩

/-- A hit becomes the passage of an admissible chunk and of its document, and only of such a one. -/
theorem hydrate_iff {hits : List SearchHit} {hit : SearchHit} (returned : hit ∈ hits)
    {passage : RetrievedPassage} :
    hydrate (loadPassages reads.hydration settings.aclMaxAgeHours reads.hydrationNow allowSet
        (hits.map SearchHit.chunkId) scope) hit = some passage ↔
      ∃ chunk document, Admits settings reads allowSet scope hit chunk document ∧
        passage = retrievedPassage hit (passageRow reads.hydration chunk document) := by
  unfold hydrate
  rw [Option.bind_eq_some_iff]
  simp only [lookup_loadPassages_iff, mem_selectPassages_iff, Option.ite_none_left_eq_some,
    Option.some.injEq]
  constructor
  · rintro ⟨row, ⟨⟨chunk, stored, document, documented, owner, -, inside, passes, rfl⟩, provenance,
      key⟩, agrees, rfl⟩
    obtain ⟨collection, source, listed⟩ := (documentScope_iff scope document).mp inside
    simp only [permissionFilter, Bool.and_eq_true, beq_iff_eq] at passes
    obtain ⟨⟨tenant, ready⟩, permitted⟩ := passes
    obtain ⟨attempt, space⟩ := not_or.mp agrees
    refine ⟨chunk, document, ⟨stored, key, documented, owner.symm, tenant, ready, permitted,
      collection, listed, source, not_not.mp attempt, (not_not.mp space).symm, provenance⟩, rfl⟩
  · rintro ⟨chunk, document, admits, rfl⟩
    refine ⟨passageRow reads.hydration chunk document, ⟨⟨chunk, admits.stored, document,
      admits.documented, admits.owner.symm, ?_, ?_, ?_, rfl⟩, admits.provenance, admits.found⟩,
      ?_, rfl⟩
    · exact admits.found ▸ List.mem_map_of_mem returned
    · exact (documentScope_iff scope document).mpr
        ⟨admits.collection, admits.source, admits.listed⟩
    · simp [permissionFilter, admits.tenant, admits.ready, admits.permitted]
    · rw [not_or, not_not, not_not]
      exact ⟨admits.attempt, admits.space.symm⟩

variable {V : Type} {services : Services V} {principal : Principal} {request : SearchRequest}

/-- This is the scope in which the hits of a request are hydrated. -/
def hydrationScope (settings : Settings) (reads : Reads) (allowSet : AllowSet)
    (request : SearchRequest) : Scope :=
  ⟨request.collectionIds, effectiveDocumentIds reads settings.aclMaxAgeHours allowSet request,
    request.sourceIds⟩

/-- A hydrated document is one of the requested documents. -/
theorem Admits.requested {hit : SearchHit} {chunk : Chunk} {document : Document}
    (admits : Admits settings reads allowSet (hydrationScope settings reads allowSet request) hit
      chunk document) : ∀ ids, request.documentIds = some ids → document.id ∈ ids := by
  intro ids requested
  have listed := admits.listed
  unfold hydrationScope effectiveDocumentIds at listed
  cases sources : request.sourceIds with
  | none =>
      simp only [sources] at listed
      exact listed ids requested
  | some sourceIds =>
      simp only [sources, requested] at listed
      exact (List.mem_filter.mp (listed _ rfl)).1

/-- No document can be in the scope of the request. -/
def scopeIsEmpty (settings : Settings) (reads : Reads) (principal : Principal)
    (request : SearchRequest) : Prop :=
  request.sourceIds.isSome = true ∧ effectiveDocumentIds reads settings.aclMaxAgeHours
    (resolveAllowSet reads.membership principal) request = some []

/-- A search that the engine answers hydrates its hits. -/
theorem searchPermitted_ok {answer : List RetrievedPassage × Nat}
    (finds : searchPermitted services settings reads principal request = .ok answer) :
    (scopeIsEmpty settings reads principal request ∧ answer.1 = []) ∨
      ∃ (allow : SearchAllowFilter) (vector : V) (hits : List SearchHit),
        allowFilter reads.grants.grants (resolveAllowSet reads.membership principal) = .ok allow ∧
        services.hybridSearch (hybridBody request.query vector settings.embeddingFingerprint allow
          settings.aclMaxAgeHours reads.filterNow (clampK request.k) request.collectionIds
          (effectiveDocumentIds reads settings.aclMaxAgeHours
            (resolveAllowSet reads.membership principal) request)) = .ok hits ∧
        answer.1 = hits.filterMap (hydrate (loadPassages reads.hydration settings.aclMaxAgeHours
          reads.hydrationNow (resolveAllowSet reads.membership principal)
          (hits.map SearchHit.chunkId) (hydrationScope settings reads
            (resolveAllowSet reads.membership principal) request))) := by
  unfold searchPermitted at finds
  simp only [bind, Except.bind, pure, Except.pure] at finds
  split at finds
  · next empty =>
      obtain rfl := Except.ok.inj finds
      rw [Bool.and_eq_true, beq_iff_eq] at empty
      exact Or.inl ⟨empty, rfl⟩
  · split at finds
    · contradiction
    · next allow filters =>
        split at finds
        · contradiction
        · next vector embeds =>
            split at finds
            · contradiction
            · split at finds
              · contradiction
              · next hits answers =>
                  refine Or.inr ⟨allow, vector, hits, filters, answers, ?_⟩
                  split at finds
                  · next none =>
                      obtain rfl := Except.ok.inj finds
                      rw [List.isEmpty_iff.mp none]
                      rfl
                  · obtain rfl := Except.ok.inj finds
                    rfl

/-- A search returns the passages of exactly its admissible hits, in the order of the engine. -/
theorem search_hydrates {passages : List RetrievedPassage}
    (finds : search services settings reads principal request = .ok passages) :
    ((isBlank request.query = true ∨ scopeIsEmpty settings reads principal request) ∧
      passages = []) ∨
    ∃ (allow : SearchAllowFilter) (vector : V) (hits : List SearchHit),
      allowFilter reads.grants.grants (resolveAllowSet reads.membership principal) = .ok allow ∧
      services.hybridSearch (hybridBody request.query vector settings.embeddingFingerprint allow
        settings.aclMaxAgeHours reads.filterNow (clampK request.k) request.collectionIds
        (effectiveDocumentIds reads settings.aclMaxAgeHours
          (resolveAllowSet reads.membership principal) request)) = .ok hits ∧
      ∃ hydrated : SearchHit → Option RetrievedPassage, passages = hits.filterMap hydrated ∧
        ∀ hit ∈ hits, ∀ passage, hydrated hit = some passage ↔
          ∃ chunk document, Admits settings reads (resolveAllowSet reads.membership principal)
            (hydrationScope settings reads (resolveAllowSet reads.membership principal) request) hit
              chunk document ∧
            (∀ ids, request.documentIds = some ids → document.id ∈ ids) ∧
            passage = retrievedPassage hit (passageRow reads.hydration chunk document) := by
  unfold search at finds
  simp only [bind, Except.bind, pure, Except.pure] at finds
  split at finds
  · next blank =>
      obtain rfl := Except.ok.inj finds
      exact Or.inl ⟨Or.inl blank, rfl⟩
  · split at finds
    · contradiction
    · next answer answers =>
        obtain rfl := Except.ok.inj finds
        rcases searchPermitted_ok answers with ⟨empty, none⟩ | ⟨allow, vector, hits, filters, asks, found⟩
        · exact Or.inl ⟨Or.inr empty, none⟩
        · refine Or.inr ⟨allow, vector, hits, filters, asks, _, found, ?_⟩
          intro hit returned passage
          rw [hydrate_iff returned]
          constructor
          · rintro ⟨chunk, document, admits, same⟩
            exact ⟨chunk, document, admits, admits.requested, same⟩
          · rintro ⟨chunk, document, admits, -, same⟩
            exact ⟨chunk, document, admits, same⟩

section Example

/-- This engine returns the passage of the connector document. -/
def mirroredHit (fingerprint : Text) : SearchHit := ⟨uuid 7, uuid 1, 1, 1, fingerprint⟩

def mirroredServices (fingerprint : Text) : Services Unit where
  embed := fun _ _ => .ok ()
  ensureIndex := .ok ()
  hybridSearch := fun _ => .ok [mirroredHit fingerprint]

/-- Every statement of the search reads the same rows. -/
def mirroredReads (fingerprint : Text) : Reads where
  membership := mirroredDatabase fingerprint
  scope := mirroredDatabase fingerprint
  scopeNow := 2000
  grants := mirroredDatabase fingerprint
  filterNow := 2000
  hydration := mirroredDatabase fingerprint
  hydrationNow := 2000

/-- A user of the tenant finds the passage. -/
theorem search_hydrates_mirrored :
    ∃ passage, search (mirroredServices ['f']) ⟨['f'], 24⟩ (mirroredReads ['f']) ⟨uuid 2, uuid 8⟩
      ⟨['q'], 5, none, none, none⟩ = .ok [passage] ∧ passage.chunkId = uuid 7 := by
  obtain ⟨passages, finds⟩ : ∃ passages, search (mirroredServices ['f']) ⟨['f'], 24⟩
      (mirroredReads ['f']) ⟨uuid 2, uuid 8⟩ ⟨['q'], 5, none, none, none⟩ = .ok passages := ⟨_, rfl⟩
  rcases search_hydrates finds with ⟨blank | empty, -⟩ |
    ⟨allow, vector, hits, -, answers, hydrated, found, admitted⟩
  · exact absurd blank (by decide)
  · exact absurd empty.1 (by decide)
  · obtain rfl := Except.ok.inj answers
    have admits : Admits ⟨['f'], 24⟩ (mirroredReads ['f'])
        (resolveAllowSet (mirroredDatabase ['f']) ⟨uuid 2, uuid 8⟩) ⟨none, none, none⟩
        (mirroredHit ['f']) (mirroredChunk ['f']) mirroredDocument :=
      ⟨List.mem_singleton_self _, rfl, List.mem_singleton_self _, rfl, rfl, rfl, by decide,
        by simp, by simp, by simp, rfl, rfl, rfl⟩
    have hydrates := (admitted _ (List.mem_singleton_self _) _).mpr
      ⟨mirroredChunk ['f'], mirroredDocument, admits, by simp, rfl⟩
    rw [List.filterMap_cons_some hydrates, List.filterMap_nil] at found
    exact ⟨_, found ▸ finds, rfl⟩

/-- A hit of another coordinate space is hydrated when its row is of this space as well. -/
theorem search_hydrates_otherSpace :
    ¬ ∀ (services : Services Unit) (settings : Settings) (reads : Reads) (principal : Principal)
      (request : SearchRequest) (passages : List RetrievedPassage),
      search services settings reads principal request = .ok passages →
        ∀ passage ∈ passages, ∃ chunk ∈ reads.hydration.chunks, chunk.id = passage.chunkId ∧
          chunk.embeddingFingerprint = some settings.embeddingFingerprint := by
  intro claim
  obtain ⟨passage, finds⟩ : ∃ passage, search (mirroredServices ['l']) ⟨['f'], 24⟩
      (mirroredReads ['l']) ⟨uuid 2, uuid 8⟩ ⟨['q'], 5, none, none, none⟩ = .ok [passage] := ⟨_, rfl⟩
  obtain ⟨chunk, stored, -, space⟩ := claim _ _ _ _ _ _ finds passage (List.mem_singleton_self _)
  obtain rfl := List.mem_singleton.mp stored
  exact absurd space (by decide)

end Example

end LumenCopilot.Retrieval
