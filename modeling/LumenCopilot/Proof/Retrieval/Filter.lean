import LumenCopilot.Construction.Retrieval.Engine
import LumenCopilot.Construction.Retrieval.Permissions
import LumenCopilot.Proof.Python.Numerals

namespace LumenCopilot.Retrieval

open Python Library

theorem isPlain_of_isHexDigit {c : Char} (digit : isHexDigit c = true) : isPlain c = true := by
  obtain ⟨n, below, same⟩ := List.any_eq_true.mp digit
  have table : ∀ n : Fin 16, isPlain (hexDigit n) = true := by decide
  rw [← beq_iff_eq.mp same]
  exact table ⟨n, List.mem_range.mp below⟩

theorem AclPrincipal.text_plain (principal : AclPrincipal) :
    ∀ c ∈ principal.text, isPlain c = true := by
  intro c member
  cases principal with
  | user id =>
      rcases List.mem_append.mp member with member | member
      · have table : ∀ c ∈ "user:".toList, isPlain c = true := List.all_eq_true.mp (by decide)
        exact table c member
      · rcases Uuid.mem_str member with digit | rfl
        · exact isPlain_of_isHexDigit digit
        · decide
  | tenant =>
      have table : ∀ c ∈ "tenant".toList, isPlain c = true := List.all_eq_true.mp (by decide)
      exact table c member

theorem AclPrincipal.quote_not_mem (principal : AclPrincipal) : '"' ∉ principal.text := by
  intro member
  exact absurd (principal.text_plain '"' member) (by decide)

theorem AclPrincipal.text_injective {a b : AclPrincipal} (same : a.text = b.text) : a = b := by
  have heads : ∀ id : Uuid, ("user:".toList ++ id.str : Text) ≠ "tenant".toList := by
    intro id clash
    exact absurd (List.cons.inj clash).1 (by decide)
  cases a with
  | user a =>
      cases b with
      | user b => rw [Uuid.str_injective (List.append_cancel_left same)]
      | tenant => exact absurd same (heads a)
  | tenant =>
      cases b with
      | user b => exact absurd same.symm (heads b)
      | tenant => rfl

/-- The text of a column of principals has the quoted text of exactly its principals. -/
theorem containsText_renderPrincipals (principals : List AclPrincipal) (principal : AclPrincipal) :
    containsText (renderPrincipals principals) ('"' :: principal.text ++ ['"']) = true ↔
      principal ∈ principals := by
  have rendered : renderPrincipals principals = ['['] ++ ([',', ' '].intercalate
      ((principals.map AclPrincipal.text).map (delimit '"')) ++ [']']) := by
    have quoted : (principals.map AclPrincipal.text).map Json.quote =
        (principals.map AclPrincipal.text).map (delimit '"') := by
      rw [List.map_map, List.map_map]
      exact List.map_congr_left fun principal _ => quote_plain principal.text_plain
    unfold renderPrincipals
    rw [Json.dumps, ← quoted, ← Json.dumpItems_strs, List.map_map]
    rfl
  have apart : ∀ other ∈ principals.map AclPrincipal.text, '"' ∉ other := by
    intro other member
    obtain ⟨principal, -, rfl⟩ := List.mem_map.mp member
    exact principal.quote_not_mem
  have differs : principal.text ≠ [',', ' '] := by
    intro same
    cases principal with
    | user id => exact absurd (List.cons.inj same).1 (by decide)
    | tenant => exact absurd same (by decide)
  have found : containsText (renderPrincipals principals) ('"' :: principal.text ++ ['"']) = true ↔
      delimit '"' principal.text <:+: renderPrincipals principals := by
    unfold containsText
    rw [List.any_eq_true, List.infix_iff_prefix_suffix]
    simp only [List.mem_tails, List.isPrefixOf_iff_prefix]
    constructor
    · rintro ⟨rest, ends, starts⟩
      exact ⟨rest, starts, ends⟩
    · rintro ⟨rest, starts, ends⟩
      exact ⟨rest, ends, starts⟩
  rw [found, rendered, delimit, infix_append_of_not_mem (by decide), ← delimit,
    delimit_infix_intercalate_iff principal.quote_not_mem (by decide) (by decide) apart differs,
    List.mem_map]
  constructor
  · rintro ⟨other, member, same⟩
    exact AclPrincipal.text_injective same ▸ member
  · exact fun member => ⟨principal, member, rfl⟩

/-- The SQL overlap is the intersection of the principals. -/
theorem aclPrincipalOverlap_iff (allowSet : AllowSet) (document : Document) :
    aclPrincipalOverlap allowSet document = true ↔
      ∃ principal ∈ document.aclPrincipals.getD [], principal ∈ allowSet.aclPrincipals := by
  unfold aclPrincipalOverlap
  cases document.aclPrincipals with
  | none => simp
  | some principals =>
      simp only [List.any_eq_true, containsText_renderPrincipals, Option.getD_some]
      constructor
      · rintro ⟨principal, mine, listed⟩
        exact ⟨principal, listed, mine⟩
      · rintro ⟨principal, listed, mine⟩
        exact ⟨principal, mine, listed⟩

end LumenCopilot.Retrieval

namespace LumenCopilot.Retrieval

open Python

theorem mem_keywords {id : Uuid} {ids : List Uuid} :
    FieldValue.keyword id.str ∈ keywords ids ↔ id ∈ ids := by
  unfold keywords
  simp only [List.mem_map, FieldValue.keyword.injEq, exists_eq_right, mem_sortedSet]
  constructor
  · rintro ⟨other, member, same⟩
    exact Uuid.str_injective same ▸ member
  · exact fun member => ⟨id, member, rfl⟩

theorem mem_principalKeywords {principal : AclPrincipal} {principals : List AclPrincipal} :
    FieldValue.keyword principal.text ∈
        (sortedSet (principals.map AclPrincipal.text)).map FieldValue.keyword ↔
      principal ∈ principals := by
  simp only [List.mem_map, FieldValue.keyword.injEq, exists_eq_right, mem_sortedSet]
  constructor
  · rintro ⟨other, member, same⟩
    exact AclPrincipal.text_injective same ▸ member
  · exact fun member => ⟨principal, member, rfl⟩

section Entry

variable (chunk : IndexedChunk)

theorem IndexedChunk.entry_tenantId :
    chunk.entry "tenant_id".toList = [.keyword chunk.tenantId.str] := rfl

theorem IndexedChunk.entry_documentId :
    chunk.entry "document_id".toList = [.keyword chunk.documentId.str] := rfl

theorem IndexedChunk.entry_ownerId :
    chunk.entry "owner_id".toList = [.keyword chunk.ownerId.str] := rfl

theorem IndexedChunk.entry_collectionId :
    chunk.entry "collection_id".toList = [.keyword chunk.collectionId.str] := rfl

theorem IndexedChunk.entry_aclEnforced :
    chunk.entry "acl_enforced".toList = [.boolean chunk.aclEnforced] := rfl

theorem IndexedChunk.entry_aclPrincipals :
    chunk.entry "acl_principals".toList =
      chunk.aclPrincipals.map fun principal => .keyword principal.text := rfl

theorem IndexedChunk.entry_aclSyncedAt :
    chunk.entry "acl_synced_at".toList = chunk.aclSyncedAt.toList.map .date := rfl

end Entry

/-- At least one alternative matches when one of them does. -/
theorem one_le_countMatches_iff (entry : Entry) (clauses : List Clause) :
    1 ≤ countMatches entry clauses ↔ ∃ clause ∈ clauses, clause.matches entry = true := by
  induction clauses with
  | nil => simp [countMatches]
  | cons clause rest ih =>
      rw [countMatches]
      cases found : clause.matches entry with
      | true => simp [found]
      | false => simp [found, ih]

theorem matchesAll_iff (entry : Entry) (clauses : List Clause) :
    matchesAll entry clauses = true ↔ ∀ clause ∈ clauses, clause.matches entry = true := by
  induction clauses with
  | nil => simp [matchesAll]
  | cons clause rest ih => simp [matchesAll, ih]

/-- A clause of alternatives matches when one of them does. -/
theorem Clause.matches_should (entry : Entry) (should : List Clause) :
    (Clause.bool [] should 1).matches entry = true ↔
      ∃ clause ∈ should, clause.matches entry = true := by
  rw [Clause.matches, matchesAll, Bool.true_and, decide_eq_true_eq, one_le_countMatches_iff]

/-- A clause of conditions matches when all of them do. -/
theorem Clause.matches_filter (entry : Entry) (filter : List Clause) :
    (Clause.bool filter [] 0).matches entry = true ↔
      ∀ clause ∈ filter, clause.matches entry = true := by
  rw [Clause.matches, countMatches, decide_eq_true (Nat.le_refl 0), Bool.and_true, matchesAll_iff]

/-- The granted ids of a document cover it when a grant does. -/
theorem grantExists_iff (grants : List Grant) (allowSet : AllowSet) (document : Document) :
    grantExists grants allowSet document = true ↔
      document.id ∈ (grantedResourceIds grants allowSet.tenantId allowSet.grantPrincipalId
        allowSet.groupIds).1 ∨
      document.collectionId ∈ (grantedResourceIds grants allowSet.tenantId
        allowSet.grantPrincipalId allowSet.groupIds).2 := by
  unfold grantExists grantedResourceIds
  simp only [List.any_eq_true, List.mem_map, List.mem_filter, Bool.and_eq_true, beq_iff_eq,
    decide_eq_true_eq]
  constructor
  · rintro ⟨grant, listed, ⟨tenant, principal⟩, resource⟩
    cases type : grant.resourceType with
    | document =>
        rw [type] at resource
        exact Or.inl ⟨grant, ⟨⟨listed, tenant, principal⟩, type⟩, beq_iff_eq.mp resource⟩
    | collection =>
        rw [type] at resource
        exact Or.inr ⟨grant, ⟨⟨listed, tenant, principal⟩, type⟩, beq_iff_eq.mp resource⟩
  · rintro (⟨grant, ⟨⟨listed, tenant, principal⟩, type⟩, resource⟩ |
      ⟨grant, ⟨⟨listed, tenant, principal⟩, type⟩, resource⟩)
    · exact ⟨grant, listed, ⟨tenant, principal⟩, by rw [type]; exact beq_iff_eq.mpr resource⟩
    · exact ⟨grant, listed, ⟨tenant, principal⟩, by rw [type]; exact beq_iff_eq.mpr resource⟩

theorem exists_mem_grantClause (entry : Entry) (field : String) (ids : List Uuid) :
    (∃ clause ∈ grantClause field ids, clause.matches entry = true) ↔
      (Clause.terms field.toList (keywords ids)).matches entry = true := by
  unfold grantClause
  cases ids with
  | nil => simp [keywords, sortedSet, Clause.matches]
  | cons id rest => simp

/-- The terms of a set of ids match an entry with one of the ids. -/
theorem matches_terms_iff {entry : Entry} {field : Text} {id : Uuid} (ids : List Uuid)
    (value : entry field = [.keyword id.str]) :
    (Clause.terms field (keywords ids)).matches entry = true ↔ id ∈ ids := by
  rw [Clause.matches, value]
  simp [mem_keywords]

/-- The filter of an entry is the tenant and one of the two modes. -/
theorem SearchAllowFilter.matches_iff (allow : SearchAllowFilter) (maxAgeHours : Nat) (now : Int)
    (chunk : IndexedChunk) :
    matchesAll chunk.entry (allow.toEngineFilter maxAgeHours now) = true ↔
      chunk.tenantId = allow.tenantId ∧
        (chunk.aclEnforced = false ∧ (chunk.ownerId ∈ allow.ownerIds ∨
            chunk.documentId ∈ allow.grantedDocumentIds ∨
            chunk.collectionId ∈ allow.grantedCollectionIds) ∨
          chunk.aclEnforced = true ∧ (∃ principal ∈ chunk.aclPrincipals,
            principal ∈ allow.aclPrincipals) ∧
            ∃ syncedAt, chunk.aclSyncedAt = some syncedAt ∧
              aclFreshnessFloor maxAgeHours now ≤ syncedAt) := by
  have tenant : (Clause.term "tenant_id".toList (.keyword allow.tenantId.str)).matches
      chunk.entry = true ↔ chunk.tenantId = allow.tenantId := by
    rw [Clause.matches, chunk.entry_tenantId]
    simp only [List.contains_eq_mem, List.mem_singleton, FieldValue.keyword.injEq, decide_eq_true_eq]
    exact ⟨fun same => (Uuid.str_injective same).symm, fun same => by rw [same]⟩
  have mode (enforced : Bool) : (Clause.term "acl_enforced".toList (.boolean enforced)).matches
      chunk.entry = true ↔ chunk.aclEnforced = enforced := by
    rw [Clause.matches, chunk.entry_aclEnforced]
    simp [eq_comm]
  have principals : (Clause.terms "acl_principals".toList
      ((sortedSet (allow.aclPrincipals.map AclPrincipal.text)).map .keyword)).matches
        chunk.entry = true ↔ ∃ principal ∈ chunk.aclPrincipals, principal ∈ allow.aclPrincipals := by
    rw [Clause.matches, chunk.entry_aclPrincipals]
    simp only [List.any_map, List.any_eq_true, Function.comp_apply, List.contains_iff_mem,
      mem_principalKeywords]
  have fresh : (Clause.rangeGte "acl_synced_at".toList
      (aclFreshnessFloor maxAgeHours now)).matches chunk.entry = true ↔
        ∃ syncedAt, chunk.aclSyncedAt = some syncedAt ∧
          aclFreshnessFloor maxAgeHours now ≤ syncedAt := by
    rw [Clause.matches, chunk.entry_aclSyncedAt]
    cases chunk.aclSyncedAt with
    | none => simp
    | some syncedAt => simp
  have owners := matches_terms_iff allow.ownerIds chunk.entry_ownerId
  have documents := matches_terms_iff allow.grantedDocumentIds chunk.entry_documentId
  have collections := matches_terms_iff allow.grantedCollectionIds chunk.entry_collectionId
  have granted : (∃ clause ∈ Clause.terms "owner_id".toList (keywords allow.ownerIds) ::
      (grantClause "document_id" allow.grantedDocumentIds ++
        grantClause "collection_id" allow.grantedCollectionIds),
        clause.matches chunk.entry = true) ↔
      chunk.ownerId ∈ allow.ownerIds ∨ chunk.documentId ∈ allow.grantedDocumentIds ∨
        chunk.collectionId ∈ allow.grantedCollectionIds := by
    rw [List.exists_mem_cons_iff, owners]
    simp only [List.mem_append, or_and_right, exists_or, exists_mem_grantClause, documents,
      collections]
  unfold SearchAllowFilter.toEngineFilter
  rw [matchesAll_iff]
  simp only [List.forall_mem_cons, List.not_mem_nil, false_implies, implies_true, and_true, tenant,
    Clause.matches_should, List.exists_mem_cons_iff, false_and, exists_false, or_false,
    Clause.matches_filter, mode, granted, principals, fresh]

theorem aclFresh_iff (maxAgeHours : Nat) (now : Int) (document : Document) :
    aclFresh maxAgeHours now document = true ↔ ∃ syncedAt, document.aclSyncedAt = some syncedAt ∧
      aclFreshnessFloor maxAgeHours now ≤ syncedAt := by
  unfold aclFresh
  cases document.aclSyncedAt with
  | none => simp
  | some syncedAt => simp

/-- The SQL predicate of a document is one of the two modes. -/
theorem documentPermitted_iff (grants : List Grant) (maxAgeHours : Nat) (now : Int)
    (allowSet : AllowSet) (document : Document) :
    documentPermitted grants maxAgeHours now allowSet document = true ↔
      document.aclEnforced = false ∧ (document.ownerId ∈ allowSet.ownerIds ∨
          document.id ∈ (grantedResourceIds grants allowSet.tenantId allowSet.grantPrincipalId
            allowSet.groupIds).1 ∨
          document.collectionId ∈ (grantedResourceIds grants allowSet.tenantId
            allowSet.grantPrincipalId allowSet.groupIds).2) ∨
        document.aclEnforced = true ∧ (∃ principal ∈ document.aclPrincipals.getD [],
          principal ∈ allowSet.aclPrincipals) ∧
          ∃ syncedAt, document.aclSyncedAt = some syncedAt ∧
            aclFreshnessFloor maxAgeHours now ≤ syncedAt := by
  unfold documentPermitted
  simp only [Bool.or_eq_true, Bool.and_eq_true, Bool.not_eq_true', List.contains_iff_mem,
    grantExists_iff, aclPrincipalOverlap_iff, aclFresh_iff, and_assoc]

/-- The entries of a document carry its tenant, its owner and its mirrored access list. -/
theorem toIndexed_entry {database : Database} {document : Document} {fingerprint : Text}
    {entries : List IndexedChunk} (projects : toIndexed document
      (listForDocument database document.tenantId document.id) fingerprint = .ok entries)
    {entry : IndexedChunk} (listed : entry ∈ entries) :
    entry.tenantId = document.tenantId ∧ entry.documentId = document.id ∧
      entry.ownerId = document.ownerId ∧ entry.collectionId = document.collectionId ∧
      entry.aclEnforced = document.aclEnforced ∧
      entry.aclPrincipals = document.aclPrincipals.getD [] ∧
      entry.aclSyncedAt = document.aclSyncedAt := by
  unfold toIndexed at projects
  split at projects
  · contradiction
  · obtain rfl := Except.ok.inj projects
    obtain ⟨chunk, stored, rfl⟩ := List.mem_map.mp listed
    rw [listForDocument, List.mem_mergeSort, List.mem_filter, decide_eq_true_eq] at stored
    obtain ⟨-, tenant, owner⟩ := stored
    exact ⟨tenant, owner, rfl, rfl, rfl, rfl, rfl⟩

theorem allowFilter_ok {grants : List Grant} {allowSet : AllowSet} {allow : SearchAllowFilter}
    (filters : allowFilter grants allowSet = .ok allow) :
    allow.tenantId = allowSet.tenantId ∧ allow.ownerIds = allowSet.ownerIds ∧
      allow.aclPrincipals = allowSet.aclPrincipals ∧
      (allow.grantedDocumentIds, allow.grantedCollectionIds) = grantedResourceIds grants
        allowSet.tenantId allowSet.grantPrincipalId allowSet.groupIds := by
  unfold allowFilter at filters
  split at filters
  · obtain rfl := Except.ok.inj filters
    exact ⟨rfl, rfl, rfl, rfl⟩
  · contradiction

/-- The engine admits the entries of exactly the documents that the SQL predicate admits, and neither
admits an enforced document without a fresh mirror or without a matching principal. -/
theorem engineFilter_matches_iff {database : Database} {allowSet : AllowSet} {document : Document}
    {maxAgeHours : Nat} {now : Int} {fingerprint : Text} {allow : SearchAllowFilter}
    {entries : List IndexedChunk} (filters : allowFilter database.grants allowSet = .ok allow)
    (projects : toIndexed document (listForDocument database document.tenantId document.id)
      fingerprint = .ok entries) :
    (∀ entry ∈ entries, matchesAll entry.entry (allow.toEngineFilter maxAgeHours now) = true ↔
      document.tenantId = allowSet.tenantId ∧
        documentPermitted database.grants maxAgeHours now allowSet document = true) ∧
      (document.aclEnforced = true →
        (document.aclSyncedAt = none ∨
          (∃ syncedAt, document.aclSyncedAt = some syncedAt ∧
            syncedAt < aclFreshnessFloor maxAgeHours now) ∨
          ∀ principal ∈ document.aclPrincipals.getD [], principal ∉ allowSet.aclPrincipals) →
        documentPermitted database.grants maxAgeHours now allowSet document = false ∧
          ∀ entry ∈ entries,
            matchesAll entry.entry (allow.toEngineFilter maxAgeHours now) = false) := by
  obtain ⟨tenantId, ownerIds, principals, granted⟩ := allowFilter_ok filters
  have agree : ∀ entry ∈ entries,
      matchesAll entry.entry (allow.toEngineFilter maxAgeHours now) = true ↔
        document.tenantId = allowSet.tenantId ∧
          documentPermitted database.grants maxAgeHours now allowSet document = true := by
    intro entry listed
    obtain ⟨tenant, id, owner, collection, enforced, mirror, synced⟩ := toIndexed_entry projects listed
    rw [SearchAllowFilter.matches_iff, documentPermitted_iff, tenantId, ownerIds, principals,
      ← granted, tenant, id, owner, collection, enforced, mirror, synced]
  refine ⟨agree, fun enforced refused => ?_⟩
  have denied : documentPermitted database.grants maxAgeHours now allowSet document = false := by
    rw [← Bool.not_eq_true, documentPermitted_iff]
    rintro (⟨plain, -⟩ | ⟨-, ⟨principal, mirrored, mine⟩, syncedAt, synced, fresh⟩)
    · rw [enforced] at plain
      contradiction
    · rcases refused with unsynced | ⟨stale, synced', expired⟩ | apart
      · rw [unsynced] at synced
        contradiction
      · obtain rfl := Option.some.inj (synced'.symm.trans synced)
        omega
      · exact apart principal mirrored mine
  refine ⟨denied, fun entry listed => ?_⟩
  rw [← Bool.not_eq_true, agree entry listed, denied]
  simp

section Example

scoped instance sixteenNeZero : NeZero 16 := ⟨by decide⟩

def uuid (n : Fin 16) : Uuid := ⟨n, Nat.lt_of_lt_of_le n.isLt (by decide)⟩

/-- This connector document is mirrored for the whole tenant. -/
def mirroredDocument : Document where
  id := uuid 1
  tenantId := uuid 2
  ownerId := uuid 3
  collectionId := uuid 4
  sourceId := some (uuid 5)
  filename := ['a']
  kind := .document
  durationMs := none
  status := .ready
  ingestionAttempts := 1
  aclEnforced := true
  aclPrincipals := some [.user (uuid 6), .tenant]
  aclSyncedAt := some 1000
  aclScopeIds := some []

/-- This is the passage of the connector document. -/
def mirroredChunk (fingerprint : Text) : Chunk where
  id := uuid 7
  tenantId := uuid 2
  documentId := uuid 1
  ord := 0
  text := ['b']
  embeddingFingerprint := some fingerprint
  charStart := 0
  charEnd := 1
  sourceLocations := none
  timeStartMs := none
  timeEndMs := none
  transcriptSegmentId := none
  speakerId := none
  speakerName := none

def mirroredDatabase (fingerprint : Text) : Database where
  groups := []
  groupMembers := []
  grants := []
  documents := [mirroredDocument]
  chunks := [mirroredChunk fingerprint]
  segments := []
  documentKeys := by simp
  chunkKeys := by simp
  segmentKeys := by simp
  systemGroups := by simp

/-- The engine admits the mirrored document for any user of its tenant. -/
theorem engineFilter_matches_mirrored :
    ∃ entry allow, toIndexed mirroredDocument [mirroredChunk ['f']] ['f'] = .ok [entry] ∧
      allowFilter [] (.forUser (uuid 2) (uuid 8) []) = .ok allow ∧
      matchesAll entry.entry (allow.toEngineFilter 24 2000) = true := by
  have stored : listForDocument (mirroredDatabase ['f']) mirroredDocument.tenantId
      mirroredDocument.id = [mirroredChunk ['f']] := by
    simp [listForDocument, mirroredDatabase, mirroredChunk, mirroredDocument]
  have projects : ∃ entry, toIndexed mirroredDocument [mirroredChunk ['f']] ['f'] = .ok [entry] :=
    ⟨_, rfl⟩
  have filters : ∃ allow, allowFilter (mirroredDatabase ['f']).grants
      (.forUser (uuid 2) (uuid 8) []) = .ok allow := ⟨_, rfl⟩
  obtain ⟨entry, projects⟩ := projects
  obtain ⟨allow, filters⟩ := filters
  refine ⟨entry, allow, projects, filters, ?_⟩
  rw [← stored] at projects
  obtain ⟨agree, -⟩ := engineFilter_matches_iff filters projects
  exact (agree entry (List.mem_singleton_self entry)).mpr ⟨rfl, by decide⟩

end Example

end LumenCopilot.Retrieval
