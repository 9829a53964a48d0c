import LumenCopilot.Construction.Retrieval.Corpus
import LumenCopilot.Proof.Library.Partial
import LumenCopilot.Proof.Retrieval.Discovery
import LumenCopilot.Proof.Retrieval.Reading

namespace LumenCopilot.Retrieval

open Python Library

variable {V : Type} {reader : ArgumentReader} {ctx : ToolContext} {reads : ToolReads V} {args : Arguments}

/-- These are the collections that an argument names. -/
def argumentIds (reader : ArgumentReader) (value : Json) : Option (List Uuid) :=
  match value with
  | .list items => some (items.filterMap fun item => reader.names.uuid (reader.str item))
  | _ => none

/-- These are the documents that an argument names. -/
def argumentDocuments (reader : ArgumentReader) (ctx : ToolContext) (value : Json) : Option (List Uuid) :=
  match value with
  | .list items => some (items.filterMap fun item => documentIdentity reader ctx (reader.str item))
  | _ => none

/-- This is the scope of the context. -/
def contextScope (ctx : ToolContext) : Scope := ⟨ctx.collectionIds, ctx.documentIds, ctx.sourceIds⟩

/-- These are the collection and document filters of the arguments. -/
def argumentScope (reader : ArgumentReader) (ctx : ToolContext) (args : Arguments) : Scope :=
  ⟨argumentIds reader (args.get "collection_ids"), argumentDocuments reader ctx (args.get "document_ids"),
    none⟩

/-- These scopes bound the results of a tool; the pinned documents bound neither the lists of documents nor
the text of one of the older tools. -/
def toolBounds (reader : ArgumentReader) (ctx : ToolContext) (args : Arguments) : CorpusTool → List Scope
  | .findDocuments | .searchPassages | .readDocument => [contextScope ctx, argumentScope reader ctx args]
  | .searchText => [contextScope ctx]
  | .searchDocuments | .listDocuments | .getDocument => [legacyScope ctx]

/-- This is what one statement reads, with the groups of the principal. -/
structure Moment where
  documents : List Document
  chunks : List Chunk
  grants : List Grant
  now : Int
  membership : Database

def Moment.of (snapshot : Snapshot) (membership : Database) : Moment :=
  ⟨snapshot.database.documents, snapshot.database.chunks, snapshot.database.grants, snapshot.now,
    membership⟩

def Moment.ofPage (page : Catalog × Database) : Moment :=
  ⟨page.1.documents.map DiscoverableDocument.document, [], page.1.grants, page.1.now, page.2⟩

/-- These are the moments of the statements whose rows a call returns. -/
inductive ToolReads.At (reads : ToolReads V) : Moment → Prop where
  | page (index : Nat) : reads.At (.ofPage (reads.pages index))
  | search : reads.At (.of ⟨reads.search.hydration, reads.search.hydrationNow⟩ reads.search.membership)
  | passages : reads.At (.of reads.reading.1.hydration reads.reading.2)
  | current : reads.At (.of reads.reading.1.current reads.reading.2)
  | documents : reads.At (.of reads.documents.1 reads.documents.2)
  | resolution (snapshot : Snapshot)
      (listed : snapshot ∈ reads.literal.snapshots ++ reads.tolerant.snapshots) :
      reads.At (.of snapshot reads.documents.2)

/-- The principal may read the document at the moment, and every scope holds it. -/
structure Lies (maxAgeHours : Nat) (principal : Principal) (bounds : List Scope) (moment : Moment)
    (document : Document) : Prop where
  stored : document ∈ moment.documents
  permitted : documentPermitted moment.grants maxAgeHours moment.now
    (resolveAllowSet moment.membership principal) document = true
  bounded : ∀ scope ∈ bounds,
    documentScope scope.collectionIds scope.sourceIds scope.documentIds document = true

/-- Everything that a result discloses lies within the bounds when it is read. -/
structure Confined (reads : ToolReads V) (principal : Principal) (bounds : List Scope)
    (result : ToolHandlerResult) : Prop where
  documents : ∀ row ∈ result.documents, ∃ moment document, reads.At moment ∧
    Lies reads.settings.aclMaxAgeHours principal bounds moment document ∧
      document.tenantId = principal.tenantId ∧ row.documentId = document.id
  passages : ∀ passage ∈ result.passages, ∃ moment document, reads.At moment ∧
    Lies reads.settings.aclMaxAgeHours principal bounds moment document ∧
      ∃ chunk ∈ moment.chunks, chunk.documentId = document.id ∧ chunk.tenantId = principal.tenantId ∧
        passage.chunkId = chunk.id ∧ passage.text = chunk.text
  text : ∀ text, result.text = some text → ∃ moment document, reads.At moment ∧
    Lies reads.settings.aclMaxAgeHours principal bounds moment document ∧
      document.tenantId = principal.tenantId ∧ text.documentId = document.id ∧
        ∃ chunks : List Chunk, (∀ chunk ∈ chunks, chunk ∈ moment.chunks ∧ chunk.documentId = document.id) ∧
          text.text <+: chunks.flatMap Chunk.text
  ids : ∀ id ∈ result.documentIds, ∃ moment document, reads.At moment ∧
    Lies reads.settings.aclMaxAgeHours principal bounds moment document ∧ id = document.id

/-- A result discloses nothing. -/
def ToolHandlerResult.Silent (result : ToolHandlerResult) : Prop :=
  result.documents = [] ∧ result.passages = [] ∧ result.text = none ∧ result.documentIds = []

theorem Confined.silent {principal : Principal} {bounds : List Scope} {result : ToolHandlerResult}
    (quiet : result.Silent) : Confined reads principal bounds result := by
  obtain ⟨documents, passages, text, ids⟩ := quiet
  exact ⟨by simp [documents], by simp [passages], by simp [text], by simp [ids]⟩

/-- Nothing is disclosed when no document is in all of the scopes. -/
theorem Confined.empty {principal : Principal} {bounds : List Scope} {result : ToolHandlerResult}
    (confined : Confined reads principal bounds result)
    (disjoint : ∀ document, ∃ scope ∈ bounds,
      documentScope scope.collectionIds scope.sourceIds scope.documentIds document = false) :
    result.Silent := by
  have nowhere : ∀ {moment document},
      ¬ Lies reads.settings.aclMaxAgeHours principal bounds moment document := by
    intro moment document lies
    obtain ⟨scope, listed, outside⟩ := disjoint document
    rw [lies.bounded scope listed] at outside
    cases outside
  refine ⟨List.eq_nil_iff_forall_not_mem.mpr fun row member => ?_,
    List.eq_nil_iff_forall_not_mem.mpr fun passage member => ?_,
    Option.eq_none_iff_forall_not_mem.mpr fun text found => ?_,
    List.eq_nil_iff_forall_not_mem.mpr fun id member => ?_⟩
  · obtain ⟨_, _, _, lies, _⟩ := confined.documents row member
    exact nowhere lies
  · obtain ⟨_, _, _, lies, _⟩ := confined.passages passage member
    exact nowhere lies
  · obtain ⟨_, _, _, lies, _⟩ := confined.text text found
    exact nowhere lies
  · obtain ⟨_, _, _, lies, _⟩ := confined.ids id member
    exact nowhere lies

theorem mem_of_mapM {α β : Type} {f : α → Option β} {items : List α} {results : List β}
    (mapped : items.mapM f = some results) {b : β} (member : b ∈ results) : b ∈ items.filterMap f := by
  induction items generalizing results with
  | nil =>
      obtain rfl := Option.some.inj mapped
      cases member
  | cons a rest ih =>
      rw [List.mapM_cons] at mapped
      obtain ⟨first, found, mapped⟩ := Option.bind_eq_some_iff.mp mapped
      obtain ⟨others, later, same⟩ := Option.bind_eq_some_iff.mp mapped
      obtain rfl := Option.some.inj same
      rw [List.filterMap_cons_some found]
      rcases List.mem_cons.mp member with rfl | member
      · exact List.mem_cons_self
      · exact .tail _ (ih later member)

theorem inScope_some {list : List Uuid} {value : Option Uuid} :
    inScope (some list) value = true ↔ ∃ id, value = some id ∧ id ∈ list := by
  rw [inScope_iff]
  simp

variable {held : Option Uuid}

/-- A filter of the arguments lies in the scope and in the arguments. -/
theorem ids_narrows {value : Json} {scope result : Option (List Uuid)}
    (narrowed : ids reader value scope = .ok result) (inside : inScope result held = true) :
    inScope scope held = true ∧ inScope (argumentIds reader value) held = true := by
  unfold ids at narrowed
  cases value with
  | null =>
      obtain rfl := Except.ok.inj narrowed
      exact ⟨inside, rfl⟩
  | list items =>
      simp only at narrowed
      split at narrowed
      · cases narrowed
      split at narrowed
      · cases narrowed
      · next parsed mapped =>
          cases scope with
          | none =>
              obtain rfl := Except.ok.inj narrowed
              obtain ⟨id, rfl, member⟩ := inScope_some.mp inside
              exact ⟨rfl, inScope_some.mpr ⟨id, rfl, mem_of_mapM mapped member⟩⟩
          | some scope =>
              obtain rfl := Except.ok.inj narrowed
              obtain ⟨id, rfl, member⟩ := inScope_some.mp inside
              obtain ⟨member, kept⟩ := List.mem_filter.mp member
              exact ⟨inScope_some.mpr ⟨id, rfl, List.contains_iff_mem.mp kept⟩,
                inScope_some.mpr ⟨id, rfl, mem_of_mapM mapped member⟩⟩
  | bool | int | float | str | dict => cases narrowed

/-- The document filter lies in the pinned documents and in the arguments. -/
theorem documentIds_narrows {value : Json} {result : Option (List Uuid)}
    (narrowed : documentIds reader ctx reads value = .ok result)
    (inside : inScope result held = true) :
    inScope ctx.documentIds held = true ∧ inScope (argumentDocuments reader ctx value) held = true := by
  unfold documentIds at narrowed
  cases value with
  | null =>
      obtain rfl := Except.ok.inj narrowed
      exact ⟨inside, rfl⟩
  | list items =>
      simp only at narrowed
      split at narrowed
      · cases narrowed
      split at narrowed
      · cases narrowed
      · have named : ∀ name, name ∈ ((items.map fun item =>
            documentIdentity reader ctx (reader.str item)).filterMap id).eraseDups →
              name ∈ items.filterMap fun item => documentIdentity reader ctx (reader.str item) := by
          intro name member
          have listed := List.mem_eraseDups.mp member
          rwa [List.filterMap_map] at listed
        split at narrowed
        · next none =>
            obtain rfl := Except.ok.inj narrowed
            obtain ⟨id, rfl, member⟩ := inScope_some.mp inside
            exact ⟨none ▸ rfl, inScope_some.mpr ⟨id, rfl, named id member⟩⟩
        · next pinned some_ =>
            obtain rfl := Except.ok.inj narrowed
            obtain ⟨id, rfl, member⟩ := inScope_some.mp inside
            obtain ⟨member, kept⟩ := List.mem_filter.mp member
            rw [some_]
            exact ⟨inScope_some.mpr ⟨id, rfl, List.contains_iff_mem.mp kept⟩,
              inScope_some.mpr ⟨id, rfl, named id member⟩⟩
  | bool | int | float | str | dict => cases narrowed

/-- A scope narrows others when its documents lie in all of them. -/
def Narrows (scope : Scope) (bounds : List Scope) : Prop :=
  ∀ document, documentScope scope.collectionIds scope.sourceIds scope.documentIds document = true →
    ∀ bound ∈ bounds, documentScope bound.collectionIds bound.sourceIds bound.documentIds document = true

theorem Narrows.self (scope : Scope) : Narrows scope [scope] := by
  intro document inside bound member
  rwa [List.mem_singleton.mp member]

/-- The filters of a call narrow the scope of the context and the filters of the arguments. -/
theorem arguments_narrow {collectionIds documents : Option (List Uuid)}
    (collections : ids reader (args.get "collection_ids") ctx.collectionIds = .ok collectionIds)
    (pinned : documentIds reader ctx reads (args.get "document_ids") = .ok documents) :
    Narrows ⟨collectionIds, documents, ctx.sourceIds⟩ [contextScope ctx, argumentScope reader ctx args] := by
  intro document inside bound member
  unfold documentScope at inside
  simp only [Bool.and_eq_true] at inside
  obtain ⟨⟨collection, source⟩, listed⟩ := inside
  have first := ids_narrows collections collection
  have second := documentIds_narrows pinned listed
  simp only [List.mem_cons, List.not_mem_nil, or_false] at member
  rcases member with rfl | rfl
  · simp only [documentScope, contextScope, first.1, source, second.1, Bool.and_true]
  · have free : inScope none document.sourceId = true := rfl
    simp only [documentScope, argumentScope, first.2, second.2, free, Bool.and_true]

variable {principal : Principal} {scope : Scope} {bounds : List Scope}

variable {snapshot : Snapshot} {document : Document}

/-- A document that a statement selects in a narrower scope lies within the bounds. -/
theorem Narrows.lies (narrows : Narrows scope bounds) {maxAgeHours : Nat} {membership : Database}
    (stored : document ∈ snapshot.database.documents)
    (selected : visible maxAgeHours (resolveAllowSet membership principal) scope snapshot document = true)
    :
    Lies maxAgeHours principal bounds (.of snapshot membership) document ∧
      document.tenantId = principal.tenantId := by
  unfold visible at selected
  simp only [Bool.and_eq_true, beq_iff_eq] at selected
  exact ⟨⟨stored, selected.1.2, narrows document selected.2⟩, selected.1.1⟩

variable {request : DiscoveryRequest}

variable {cursor : Option Cursor}

/-- The items of a page lie within the bounds. -/
theorem serviceFind_lies {page : Nat} {limit : Int} {found : DocumentPage}
    (answered : serviceFind ctx reads page request limit cursor = .ok found)
    (narrows : Narrows ⟨request.collectionIds, request.documentIds, request.sourceIds⟩ bounds)
    {item : DiscoveryDocument} (member : item ∈ found.items) :
    ∃ document, Lies reads.settings.aclMaxAgeHours ctx.principal bounds (.ofPage (reads.pages page))
      document ∧ document.tenantId = ctx.principal.tenantId ∧ item.documentId = document.id := by
  unfold serviceFind at answered
  simp only at answered
  split at answered
  · next shown finds =>
      obtain rfl := Except.ok.inj answered
      obtain ⟨row, stored, matching, rfl⟩ := findDocuments_items finds member
      unfold discoverable at matching
      simp only [Bool.and_eq_true, beq_iff_eq] at matching
      obtain ⟨⟨⟨⟨⟨⟨⟨⟨⟨tenant, permitted⟩, _⟩, _⟩, _⟩, _⟩, _⟩, _⟩, _⟩, inside⟩ := matching
      exact ⟨row.document, ⟨List.mem_map_of_mem stored, permitted, narrows _ inside⟩, tenant, rfl⟩
  · cases answered

/-- The filters of a call are the narrowed scopes. -/
theorem filters_reads (read : filters reader ctx reads args = .ok request) :
    ids reader (args.get "collection_ids") ctx.collectionIds = .ok request.collectionIds ∧
      documentIds reader ctx reads (args.get "document_ids") = .ok request.documentIds ∧
        request.sourceIds = ctx.sourceIds := by
  unfold filters at read
  obtain ⟨collectionIds, collections, read⟩ := bind_eq_ok read
  obtain ⟨documents, pinned, read⟩ := bind_eq_ok read
  obtain ⟨createdAfter, _, read⟩ := bind_eq_ok read
  obtain ⟨createdBefore, _, read⟩ := bind_eq_ok read
  obtain ⟨modifiedAfter, _, read⟩ := bind_eq_ok read
  obtain ⟨modifiedBefore, _, read⟩ := bind_eq_ok read
  obtain ⟨source, _, read⟩ := bind_eq_ok read
  obtain ⟨mimeType, _, read⟩ := bind_eq_ok read
  obtain rfl := Except.ok.inj read
  exact ⟨collections, pinned, rfl⟩

theorem filters_narrow (read : filters reader ctx reads args = .ok request) :
    Narrows ⟨request.collectionIds, request.documentIds, request.sourceIds⟩
      [contextScope ctx, argumentScope reader ctx args] := by
  obtain ⟨collections, pinned, sources⟩ := filters_reads read
  rw [sources]
  exact arguments_narrow collections pinned

theorem findTool_confined {result : ToolHandlerResult} (ran : findTool reader ctx reads args = .ok result) :
    Confined reads ctx.principal [contextScope ctx, argumentScope reader ctx args] result := by
  unfold findTool at ran
  obtain ⟨request, read, ran⟩ := bind_eq_ok ran
  obtain ⟨limit, _, ran⟩ := bind_eq_ok ran
  obtain ⟨sort, _, ran⟩ := bind_eq_ok ran
  obtain ⟨cursor, _, ran⟩ := bind_eq_ok ran
  obtain ⟨page, found, ran⟩ := bind_eq_ok ran
  obtain rfl := Except.ok.inj ran
  have narrows := filters_narrow read
  have shown : ∀ item ∈ page.items, ∃ moment document, reads.At moment ∧
      Lies reads.settings.aclMaxAgeHours ctx.principal [contextScope ctx, argumentScope reader ctx args]
        moment document ∧ document.tenantId = ctx.principal.tenantId ∧ item.documentId = document.id :=
    fun item member => (serviceFind_lies found narrows member).elim
      fun document lies => ⟨_, document, .page 0, lies⟩
  constructor
  · intro row member
    obtain ⟨item, listed, rfl⟩ := List.mem_map.mp member
    exact shown item listed
  · intro passage member
    cases member
  · intro text none
    cases none
  · intro id member
    obtain ⟨item, listed, rfl⟩ := List.mem_map.mp member
    obtain ⟨moment, document, here, lies, _, same⟩ := shown item listed
    exact ⟨moment, document, here, lies, same⟩

/-- The identifier is that of a document of a page within the bounds. -/
def Eligible (reads : ToolReads V) (principal : Principal) (bounds : List Scope) (id : Uuid) : Prop :=
  ∃ index document, Lies reads.settings.aclMaxAgeHours principal bounds (.ofPage (reads.pages index))
    document ∧ id = document.id

variable {eligible : List Uuid}

/-- The collected documents come from pages within the bounds. -/
theorem collectEligible_lies
    (narrows : Narrows ⟨request.collectionIds, request.documentIds, request.sourceIds⟩ bounds)
    {fuel page : Nat} {before : List Uuid}
    (earlier : ∀ id ∈ before, Eligible reads ctx.principal bounds id)
    (collected : collectEligible ctx reads request fuel page cursor before = .ok (some eligible)) :
    ∀ id ∈ eligible, Eligible reads ctx.principal bounds id := by
  induction fuel generalizing page cursor before with
  | zero => cases collected
  | succ fuel ih =>
      unfold collectEligible at collected
      obtain ⟨found, answered, collected⟩ := bind_eq_ok collected
      have shown : ∀ id ∈ before ++ found.items.map DiscoveryDocument.documentId,
          Eligible reads ctx.principal bounds id := by
        intro id member
        rcases List.mem_append.mp member with old | new
        · exact earlier id old
        · obtain ⟨item, listed, rfl⟩ := List.mem_map.mp new
          obtain ⟨document, lies, _, same⟩ := serviceFind_lies answered narrows listed
          exact ⟨page, document, lies, same⟩
      simp only at collected
      split at collected
      · obtain rfl := Option.some.inj (Except.ok.inj collected)
        exact shown
      · split at collected
        · cases Except.ok.inj collected
        · exact ih shown collected

section

variable {query : Text} {k : Int} {collectionIds documents : Option (List Uuid)}
  {passages : List RetrievedPassage}
  (answered : serviceSearch ctx reads query k collectionIds documents = .ok passages)
  (narrows : Narrows ⟨collectionIds, documents, ctx.sourceIds⟩ bounds)
include answered narrows

/-- The passages of a search lie within the bounds when they are hydrated. -/
theorem serviceSearch_lies {passage : RetrievedPassage} (member : passage ∈ passages) :
    ∃ document, Lies reads.settings.aclMaxAgeHours ctx.principal bounds
        (.of ⟨reads.search.hydration, reads.search.hydrationNow⟩ reads.search.membership) document ∧
      passage.documentId = document.id ∧ ∃ chunk ∈ reads.search.hydration.chunks,
        chunk.documentId = document.id ∧ chunk.tenantId = ctx.principal.tenantId ∧
          passage.chunkId = chunk.id ∧ passage.text = chunk.text := by
  unfold serviceSearch at answered
  split at answered
  · next shown finds =>
      obtain rfl := Except.ok.inj answered
      unfold search at finds
      split at finds
      · obtain rfl := Except.ok.inj finds
        cases member
      · obtain ⟨answer, found, finds⟩ := bind_eq_ok finds
        obtain rfl := Except.ok.inj finds
        rcases searchPermitted_ok found with ⟨_, none⟩ | ⟨_, _, hits, _, _, hydrated⟩
        · rw [none] at member
          cases member
        · rw [hydrated] at member
          obtain ⟨hit, returned, becomes⟩ := List.mem_filterMap.mp member
          obtain ⟨chunk, document, admits, rfl⟩ := (hydrate_iff returned).mp becomes
          have inside := (documentScope_iff ⟨collectionIds, documents, ctx.sourceIds⟩ document).mpr
            ⟨admits.collection, admits.source, admits.requested⟩
          exact ⟨document, ⟨admits.documented, admits.permitted, narrows document inside⟩, admits.owner,
            chunk, admits.stored, admits.owner, admits.tenant, rfl, rfl⟩
  · cases answered

theorem passagesResult_confined :
    Confined reads ctx.principal bounds (passagesResult passages) := by
  constructor
  · intro row member
    cases member
  · intro passage member
    obtain ⟨document, lies, _, chunk, stored, found⟩ := serviceSearch_lies answered narrows member
    exact ⟨_, document, .search, lies, chunk, stored, found⟩
  · intro text none
    cases none
  · intro id member
    obtain ⟨passage, listed, rfl⟩ := List.mem_map.mp (List.mem_eraseDups.mp member)
    obtain ⟨document, lies, same, _⟩ := serviceSearch_lies answered narrows listed
    exact ⟨_, document, .search, lies, same⟩

end

/-- Eligible documents in the collections and sources lie in the scope of the context and the arguments. -/
theorem eligible_narrows {collectionIds : Option (List Uuid)}
    (collections : ids reader (args.get "collection_ids") ctx.collectionIds = .ok collectionIds)
    (listed : ∀ id ∈ eligible, Eligible reads ctx.principal
      [contextScope ctx, argumentScope reader ctx args] id) :
    Narrows ⟨collectionIds, some eligible, ctx.sourceIds⟩
      [contextScope ctx, argumentScope reader ctx args] := by
  intro document inside bound member
  unfold documentScope at inside
  simp only [Bool.and_eq_true] at inside
  obtain ⟨⟨collection, source⟩, chosen⟩ := inside
  have first := ids_narrows collections collection
  obtain ⟨id, same, among⟩ := inScope_some.mp chosen
  obtain rfl := Option.some.inj same
  obtain ⟨_, other, lies, named⟩ := listed _ among
  have pinned := lies.bounded _ List.mem_cons_self
  have filtered := lies.bounded _ (.tail _ List.mem_cons_self)
  simp only [documentScope, contextScope, argumentScope, Bool.and_eq_true] at pinned filtered
  rw [← named] at pinned filtered
  simp only [List.mem_cons, List.not_mem_nil, or_false] at member
  rcases member with rfl | rfl
  · simp only [documentScope, contextScope, first.1, source, pinned.2, Bool.and_true]
  · have free : inScope none document.sourceId = true := rfl
    simp only [documentScope, argumentScope, first.2, free, filtered.2, Bool.and_true]

/-- The document filter of a search narrows the bounds. -/
theorem searchedDocuments_narrow {documents : Option (List Uuid)}
    (read : filters reader ctx reads args = .ok request)
    (searched : searchedDocuments ctx reads request = .ok (some documents)) :
    Narrows ⟨request.collectionIds, documents, ctx.sourceIds⟩
      [contextScope ctx, argumentScope reader ctx args] := by
  obtain ⟨collections, _, sources⟩ := filters_reads read
  have narrows := filters_narrow read
  unfold searchedDocuments at searched
  split at searched
  · obtain ⟨answer, collected, same⟩ := (map_eq_ok_iff _ _ _).mp searched
    obtain ⟨eligible, rfl, rfl⟩ := Option.map_eq_some_iff.mp same
    exact eligible_narrows collections (collectEligible_lies narrows (by simp) collected)
  · obtain rfl := Option.some.inj (Except.ok.inj searched)
    rwa [sources] at narrows

theorem searchTool_confined {result : ToolHandlerResult}
    (ran : searchTool reader ctx reads args = .ok result) :
    Confined reads ctx.principal [contextScope ctx, argumentScope reader ctx args] result := by
  unfold searchTool at ran
  obtain ⟨request, read, ran⟩ := bind_eq_ok ran
  obtain ⟨searched, found, ran⟩ := bind_eq_ok ran
  cases searched with
  | none =>
      obtain rfl := Except.ok.inj ran
      exact Confined.silent ⟨rfl, rfl, rfl, rfl⟩
  | some documents =>
      simp only at ran
      split at ran
      · cases ran
      split at ran
      · obtain rfl := Except.ok.inj ran
        exact Confined.silent ⟨rfl, rfl, rfl, rfl⟩
      · obtain ⟨k, _, ran⟩ := bind_eq_ok ran
        obtain ⟨passages, answered, ran⟩ := bind_eq_ok ran
        obtain rfl := Except.ok.inj ran
        exact passagesResult_confined answered (searchedDocuments_narrow read found)

theorem searchTextTool_confined {result : ToolHandlerResult}
    (ran : searchTextTool reader ctx reads args = .ok result) :
    Confined reads ctx.principal [contextScope ctx] result := by
  unfold searchTextTool at ran
  simp only at ran
  split at ran
  · obtain rfl := Except.ok.inj ran
    exact Confined.silent ⟨rfl, rfl, rfl, rfl⟩
  · obtain ⟨passages, answered, ran⟩ := bind_eq_ok ran
    obtain rfl := Except.ok.inj ran
    exact passagesResult_confined answered (Narrows.self _)

variable {documentId : Uuid} {range : ReadRange}

/-- A page has the passages and the document that it is given. -/
theorem readPage_of {total : Nat} {passages : List RetrievedPassage} {beyond : Option Chunk}
    {page : DocumentRead}
    (read : readPage documentId document total range passages beyond = .ok page) :
    page.passages = passages ∧ page.documentId = documentId := by
  unfold readPage at read
  simp only at read
  split at read
  · obtain rfl := Except.ok.inj read
    exact ⟨rfl, rfl⟩
  · split at read
    · cases read
    · obtain rfl := Except.ok.inj read
      exact ⟨rfl, rfl⟩

/-- A read document lies within the bounds, and so do the documents of its passages when they are
hydrated. -/
theorem serviceRead_lies {page : DocumentRead}
    (answered : serviceRead ctx reads scope documentId range = .ok (some page))
    (narrows : Narrows scope bounds) :
    (∃ document, Lies reads.settings.aclMaxAgeHours ctx.principal bounds
        (.of reads.reading.1.current reads.reading.2) document ∧
      document.tenantId = ctx.principal.tenantId ∧ page.documentId = document.id) ∧
    ∀ passage ∈ page.passages, ∃ document, Lies reads.settings.aclMaxAgeHours ctx.principal bounds
        (.of reads.reading.1.hydration reads.reading.2) document ∧
      ∃ chunk ∈ reads.reading.1.hydration.database.chunks, chunk.documentId = document.id ∧
        chunk.tenantId = ctx.principal.tenantId ∧ passage.chunkId = chunk.id ∧
          passage.text = chunk.text := by
  unfold serviceRead at answered
  split at answered
  · next shown read =>
      obtain rfl := Except.ok.inj answered
      unfold readDocument at read
      split at read
      · cases read
      split at read
      · cases read
      simp only at read
      split at read
      · cases read
      split at read
      · cases read
      · next document found =>
          obtain ⟨other, paged, same⟩ := (map_eq_ok_iff _ _ _).mp read
          obtain rfl := Option.some.inj same
          obtain ⟨passages, named⟩ := readPage_of paged
          obtain ⟨stored, admits⟩ := readableDocument_some found
          obtain ⟨tenant, identity, _, permitted, inside⟩ := readable_iff.mp admits
          refine ⟨⟨document, ⟨stored, permitted, narrows document inside⟩, tenant,
            named.trans identity.symm⟩, ?_⟩
          intro passage member
          rw [passages] at member
          obtain ⟨chunk, _, hydrated⟩ := List.mem_filterMap.mp member
          obtain ⟨row, loaded, rfl⟩ := Option.map_eq_some_iff.mp hydrated
          obtain ⟨source, kept, owner, listed, same, scope, passes, rfl⟩ := loadPassages_row loaded
          simp only [permissionFilter, Bool.and_eq_true, beq_iff_eq] at passes
          exact ⟨owner, ⟨listed, passes.2, narrows owner scope⟩, source, kept, same.symm, passes.1.1, rfl,
            rfl⟩
  · cases answered

theorem readTool_confined {result : ToolHandlerResult} (ran : readTool reader ctx reads args = .ok result) :
    Confined reads ctx.principal [contextScope ctx, argumentScope reader ctx args] result := by
  unfold readTool at ran
  obtain ⟨start, _, ran⟩ := bind_eq_ok ran
  obtain ⟨stop, _, ran⟩ := bind_eq_ok ran
  obtain ⟨collectionIds, collections, ran⟩ := bind_eq_ok ran
  obtain ⟨documents, pinned, ran⟩ := bind_eq_ok ran
  have narrows := arguments_narrow collections pinned
  simp only at ran
  split at ran
  · obtain rfl := Except.ok.inj ran
    exact Confined.silent ⟨rfl, rfl, rfl, rfl⟩
  · obtain ⟨most, _, ran⟩ := bind_eq_ok ran
    obtain ⟨answer, answered, ran⟩ := bind_eq_ok ran
    cases answer with
    | none =>
        obtain rfl := Except.ok.inj ran
        exact Confined.silent ⟨rfl, rfl, rfl, rfl⟩
    | some page =>
        obtain rfl := Except.ok.inj ran
        obtain ⟨⟨document, lies, tenant, same⟩, shown⟩ := serviceRead_lies answered narrows
        constructor
        · intro row member
          obtain rfl := List.mem_singleton.mp member
          exact ⟨_, document, .current, lies, tenant, same⟩
        · intro passage member
          obtain ⟨owner, lies, chunk, stored, found⟩ := shown passage member
          exact ⟨_, owner, .passages, lies, chunk, stored, found⟩
        · intro text none
          cases none
        · intro id member
          obtain rfl := List.mem_singleton.mp member
          exact ⟨_, document, .current, lies, same⟩

/-- A list of selected documents lies within the bounds. -/
theorem documentsResult_confined {rows : List DocumentRow} (narrows : Narrows scope bounds)
    (selected : ∀ row ∈ rows, RowOf reads.settings.aclMaxAgeHours (serviceAllow ctx reads) scope
      reads.documents.1 row) : Confined reads ctx.principal bounds (documentsResult rows) := by
  have shown : ∀ row ∈ rows, ∃ document, Lies reads.settings.aclMaxAgeHours ctx.principal bounds
      (.of reads.documents.1 reads.documents.2) document ∧
        document.tenantId = ctx.principal.tenantId ∧ row.documentId = document.id := by
    intro row member
    obtain ⟨document, stored, visible, rfl⟩ := selected row member
    obtain ⟨lies, tenant⟩ := narrows.lies stored visible
    exact ⟨document, lies, tenant, rfl⟩
  constructor
  · intro row member
    obtain ⟨document, lies⟩ := shown row member
    exact ⟨_, document, .documents, lies⟩
  · intro passage member
    cases member
  · intro text none
    cases none
  · intro id member
    obtain ⟨row, listed, rfl⟩ := List.mem_map.mp member
    obtain ⟨document, lies, _, same⟩ := shown row listed
    exact ⟨_, document, .documents, lies, same⟩

theorem searchDocumentsTool_confined {result : ToolHandlerResult}
    (ran : searchDocumentsTool reader ctx reads args = .ok result) :
    Confined reads ctx.principal [legacyScope ctx] result := by
  unfold searchDocumentsTool at ran
  simp only at ran
  split at ran
  · obtain rfl := Except.ok.inj ran
    exact Confined.silent ⟨rfl, rfl, rfl, rfl⟩
  · obtain rfl := Except.ok.inj ran
    exact documentsResult_confined (Narrows.self _) fun row member => documentSearch_rows member

theorem listDocumentsTool_confined {result : ToolHandlerResult}
    (ran : listDocumentsTool reader ctx reads args = .ok result) :
    Confined reads ctx.principal [legacyScope ctx] result := by
  unfold listDocumentsTool at ran
  obtain rfl := Except.ok.inj ran
  exact documentsResult_confined (Narrows.self _) fun row member => listDocuments_rows member

/-- These are the snapshots of the statements of `_get_document`. -/
def ToolReads.resolutionReads (reads : ToolReads V) : List Snapshot :=
  reads.documents.1 :: (reads.literal.snapshots ++ reads.tolerant.snapshots)

theorem ToolReads.at_resolutionReads (listed : snapshot ∈ reads.resolutionReads) :
    reads.At (.of snapshot reads.documents.2) := by
  rcases List.mem_cons.mp listed with rfl | later
  · exact .documents
  · exact .resolution snapshot later

theorem resolveTarget_resolves {handle : Text} :
    Resolves reads.settings.aclMaxAgeHours (serviceAllow ctx reads) (legacyScope ctx)
      reads.resolutionReads (resolveTarget reader ctx reads handle) := by
  unfold resolveTarget
  simp only
  split
  · exact Resolves.of_load List.mem_cons_self
  · split
    · exact Resolves.nothing
    · exact resolveDocumentText_resolves.mono (List.subset_cons_self _ _)

theorem getDocumentTool_confined {result : ToolHandlerResult}
    (ran : getDocumentTool reader ctx reads args = .ok result) :
    Confined reads ctx.principal [legacyScope ctx] result := by
  have resolves : Resolves reads.settings.aclMaxAgeHours (serviceAllow ctx reads) (legacyScope ctx)
      reads.resolutionReads (resolveTarget reader ctx reads (stripped reader args "document_id")) :=
    resolveTarget_resolves
  unfold getDocumentTool at ran
  simp only at ran
  split at ran
  · obtain rfl := Except.ok.inj ran
    constructor
    · intro row member
      obtain ⟨snapshot, listed, document, stored, visible, rfl⟩ := resolves.candidates row member
      obtain ⟨lies, tenant⟩ := (Narrows.self (legacyScope ctx)).lies stored visible
      exact ⟨_, document, ToolReads.at_resolutionReads listed, lies, tenant, rfl⟩
    · intro passage member
      cases member
    · intro text none
      cases none
    · intro id member
      cases member
  split at ran
  · obtain rfl := Except.ok.inj ran
    exact Confined.silent ⟨rfl, rfl, rfl, rfl⟩
  · next loaded found =>
      obtain rfl := Except.ok.inj ran
      obtain ⟨snapshot, listed, document, stored, visible, same, _, chunks, own, start⟩ :=
        resolves.document loaded found
      obtain ⟨lies, tenant⟩ := (Narrows.self (legacyScope ctx)).lies stored visible
      have here := ToolReads.at_resolutionReads listed
      constructor
      · intro row member
        cases member
      · intro passage member
        cases member
      · intro text shown
        obtain rfl := Option.some.inj shown
        exact ⟨_, document, here, lies, tenant, same, chunks, own, (List.take_prefix _ _).trans start⟩
      · intro id member
        obtain rfl := List.mem_singleton.mp member
        exact ⟨_, document, here, lies, same⟩

/-- A result of a corpus tool lies in the scope of the context and in the filters of the arguments, and
nothing is disclosed when no document is in all of them. -/
theorem runCorpusTool_confined {tool : CorpusTool} {result : ToolHandlerResult}
    (ran : runCorpusTool reader ctx reads args tool = .ok result) :
    Confined reads ctx.principal (toolBounds reader ctx args tool) result ∧
      ((∀ document, ∃ scope ∈ toolBounds reader ctx args tool,
          documentScope scope.collectionIds scope.sourceIds scope.documentIds document = false) →
        result.Silent) := by
  have confined : Confined reads ctx.principal (toolBounds reader ctx args tool) result := by
    unfold runCorpusTool at ran
    simp only at ran
    split at ran
    · obtain rfl := Except.ok.inj ran
      exact Confined.silent ⟨rfl, rfl, rfl, rfl⟩
    · cases tool with
      | findDocuments => exact findTool_confined ran
      | searchPassages => exact searchTool_confined ran
      | readDocument => exact readTool_confined ran
      | searchText => exact searchTextTool_confined ran
      | searchDocuments => exact searchDocumentsTool_confined ran
      | listDocuments => exact listDocumentsTool_confined ran
      | getDocument => exact getDocumentTool_confined ran
  exact ⟨confined, confined.empty⟩

section Example

/-- This reader knows no text of an identifier and no number. -/
def plainReader : ArgumentReader where
  names := ⟨codePoints, fun _ _ => true, fun text _ => text, fun _ => none⟩
  str _ := []
  int _ := none
  date _ := none
  cursor _ := none

/-- The statements of these calls read the mirrored document. -/
def mirroredToolReads : ToolReads Unit :=
  let snapshot := storedSnapshot (mirroredChunk ['f'])
  let attempt : ResolveReads := ⟨snapshot, snapshot, snapshot, snapshot, snapshot⟩
  { services := mirroredServices ['f']
    settings := ⟨['f'], 24⟩
    names := (snapshot, snapshot.database)
    pages := fun _ => (titledCatalog ['t'] [uuid 1] (List.nodup_singleton _), snapshot.database)
    search := mirroredReads ['f']
    passages := (snapshot, snapshot.database)
    reading := (.still snapshot, snapshot.database)
    documents := (snapshot, snapshot.database)
    literal := attempt
    tolerant := attempt }

/-- The user pins documents. -/
def pinnedContext (pinned : Option (List Uuid)) : ToolContext :=
  ⟨⟨uuid 2, uuid 8⟩, none, none, pinned, 6, 50, 600, none, none⟩

theorem listDocuments_mirrored (pinned : Option (List Uuid)) :
    ∃ result, runCorpusTool plainReader (pinnedContext pinned) mirroredToolReads [] .listDocuments =
      .ok result ∧ result.documents = [⟨uuid 1, ['a']⟩] := by
  have rows : (listDocuments 24 (.forUser (uuid 2) (uuid 8) []) ⟨none, none, none⟩ plainReader.names
      (storedSnapshot (mirroredChunk ['f'])) 50) = [⟨uuid 1, ['a']⟩] := by decide
  have allow : serviceAllow (pinnedContext pinned) mirroredToolReads =
      .forUser (uuid 2) (uuid 8) [] := rfl
  have limit : (min maxDocumentHits (max 1 (clampArgument plainReader (Arguments.get [] "k") 50
      (min 50 (pinnedContext pinned).maxK)))).toNat = 50 := rfl
  have ran : runCorpusTool plainReader (pinnedContext pinned) mirroredToolReads [] .listDocuments =
      .ok (documentsResult (listDocuments 24 (.forUser (uuid 2) (uuid 8) []) ⟨none, none, none⟩
        plainReader.names (storedSnapshot (mirroredChunk ['f'])) 50)) := by
    unfold runCorpusTool listDocumentsTool
    simp only [allow, limit]
    rfl
  rw [rows] at ran
  exact ⟨_, ran, rfl⟩

/-- A user without pins lists the mirrored document. -/
theorem runCorpusTool_confined_mirrored :
    ∃ result, runCorpusTool plainReader (pinnedContext none) mirroredToolReads [] .listDocuments =
      .ok result ∧ result.documents = [⟨uuid 1, ['a']⟩] ∧
        Confined mirroredToolReads ⟨uuid 2, uuid 8⟩ [⟨none, none, none⟩] result := by
  obtain ⟨result, ran, listed⟩ := listDocuments_mirrored none
  exact ⟨result, ran, listed, (runCorpusTool_confined ran).1⟩

/-- A user with another pinned document still lists the mirrored document. -/
theorem listDocuments_unpinned :
    ∃ result, runCorpusTool plainReader (pinnedContext (some [uuid 9])) mirroredToolReads []
      .listDocuments = .ok result ∧ ¬ Confined mirroredToolReads ⟨uuid 2, uuid 8⟩
        [contextScope (pinnedContext (some [uuid 9]))] result := by
  obtain ⟨result, ran, listed⟩ := listDocuments_mirrored (some [uuid 9])
  refine ⟨result, ran, fun confined => ?_⟩
  have member : (⟨uuid 1, ['a']⟩ : DocumentRow) ∈ result.documents := listed ▸ List.mem_singleton_self _
  obtain ⟨_, document, _, lies, _, same⟩ := confined.documents _ member
  have inside := lies.bounded _ (List.mem_singleton_self _)
  have pinned := ((documentScope_iff (contextScope (pinnedContext (some [uuid 9]))) document).mp inside).2.2
    [uuid 9] rfl
  rw [← same] at pinned
  exact absurd pinned (by decide)

end Example

end LumenCopilot.Retrieval
