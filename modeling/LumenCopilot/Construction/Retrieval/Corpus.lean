import LumenCopilot.Construction.Retrieval.Documents

namespace LumenCopilot.Retrieval

open Python Library

/-- These functions of the handles of a conversation name documents and passages. -/
structure HandleBook where
  documentId : Text → Option Uuid
  passage : Text → Option (Uuid × Uuid)
  names : Text → RetrievedPassage → Bool

/-- This is `ToolContext` with the fields that the corpus tools read. -/
structure ToolContext where
  principal : Principal
  collectionIds : Option (List Uuid)
  sourceIds : Option (List Uuid)
  documentIds : Option (List Uuid)
  defaultK : Int
  maxK : Int
  snippetBudget : Int
  handles : Option HandleBook
  documentIdResolver : Option (Text → Option Uuid)

/-- These are the arguments of a call; a key that is absent reads as null. -/
abbrev Arguments := List (Text × Json)

def Arguments.get (args : Arguments) (name : String) : Json := (args.lookup name.toList).getD .null

/-- These functions read the values of the arguments. -/
structure ArgumentReader where
  names : NameReader
  str : Json → Text
  int : Json → Option Int
  date : Text → Option DateBound
  cursor : Json → Option Cursor

/-- A handler reports its arguments, or an exception leaves it. -/
inductive HandlerStop where
  | badArgs
  | raised (error : SearchError)
  | escaped

inductive ToolError where
  | badArgs
  | notFound
  deriving DecidableEq

/-- This is `ToolHandlerResult` with what a result discloses. -/
structure ToolHandlerResult where
  error : Option ToolError := none
  documents : List DocumentRow := []
  passages : List RetrievedPassage := []
  text : Option DocumentText := none
  documentIds : List Uuid := []
  deriving DecidableEq

/-- These are the reads of one call. -/
structure ToolReads (V : Type) where
  services : Services V
  settings : Settings
  names : Snapshot × Database
  pages : Nat → Catalog × Database
  search : Reads
  passages : Snapshot × Database
  reading : DocumentReads × Database
  documents : Snapshot × Database
  literal : ResolveReads
  tolerant : ResolveReads

/-- This is the truth value of a JSON value. -/
def truthy : Json → Bool
  | .null => false
  | .bool value => value
  | .int value => value ≠ 0
  | .float written => written ≠ "0.0".toList && written ≠ "-0.0".toList
  | .str text => text ≠ []
  | .list items => !items.isEmpty
  | .dict fields => !fields.isEmpty

/-- This is `value or default`. -/
def orElse (value default : Json) : Json := if truthy value then value else default

variable {V : Type} (reader : ArgumentReader) (ctx : ToolContext) (reads : ToolReads V) (args : Arguments)

/-- This is `str(args.get(name) or "").strip()`. -/
def stripped (name : String) : Text := strip (reader.str (orElse (args.get name) (.str [])))

/-- This is `_ids`. -/
def ids (value : Json) (scope : Option (List Uuid)) : Except HandlerStop (Option (List Uuid)) :=
  match value with
  | .null => .ok scope
  | .list items =>
      if 50 < items.length then .error .badArgs
      else
        match items.mapM fun item => reader.names.uuid (reader.str item) with
        | none => .error .badArgs
        | some ids =>
            match scope with
            | none => .ok (some ids)
            | some scope => .ok (some (ids.filter scope.contains))
  | _ => .error .badArgs

/-- This is `_document_identity`. -/
def documentIdentity (value : Text) : Option Uuid :=
  (ctx.handles.bind fun handles => handles.documentId value).orElse fun _ => reader.names.uuid value

/-- These are the documents of the identities that the principal may read now. -/
def availableIds (wanted : List Uuid) : List Uuid :=
  if wanted = [] then []
  else
    (permittedDocumentNames reads.settings.aclMaxAgeHours (resolveAllowSet reads.names.2 ctx.principal)
      ⟨ctx.collectionIds, none, ctx.sourceIds⟩ reads.names.1 wanted).map Prod.fst

/-- This is `_document_ids`. -/
def documentIds (value : Json) : Except HandlerStop (Option (List Uuid)) :=
  match value with
  | .null => .ok ctx.documentIds
  | .list items =>
      if 50 < items.length then .error .badArgs
      else
        let resolved := items.map fun item => documentIdentity reader ctx (reader.str item)
        let wanted := (resolved.filterMap id).eraseDups
        let permitted := availableIds ctx reads wanted
        if resolved.any fun item => item.all fun id => !permitted.contains id then .error .badArgs
        else
          match ctx.documentIds with
          | none => .ok (some wanted)
          | some pinned => .ok (some (wanted.filter pinned.contains))
  | _ => .error .badArgs

/-- This is `_date`. -/
def date (value : Json) : Except HandlerStop (Option DateBound) :=
  match value with
  | .null => .ok none
  | value =>
      match reader.date (reader.str value) with
      | some bound => .ok (some bound)
      | none => .error .badArgs

/-- A filter that is compared with a text column is a text. -/
def textFilter : Json → Except HandlerStop (Option Text)
  | .null => .ok none
  | .str text => .ok (some text)
  | _ => .error .escaped

/-- This is `_filters`, as a request without a query. -/
def filters : Except HandlerStop DiscoveryRequest := do
  let collectionIds ← ids reader (args.get "collection_ids") ctx.collectionIds
  let documents ← documentIds reader ctx reads (args.get "document_ids")
  let createdAfter ← date reader (args.get "created_after")
  let createdBefore ← date reader (args.get "created_before")
  let modifiedAfter ← date reader (args.get "modified_after")
  let modifiedBefore ← date reader (args.get "modified_before")
  let source ← textFilter (args.get "source")
  let mimeType ← textFilter (args.get "mime_type")
  return {
    query := []
    sort := "title_asc".toList
    source := source
    mimeType := mimeType
    createdAfter := createdAfter
    createdBefore := createdBefore
    modifiedAfter := modifiedAfter
    modifiedBefore := modifiedBefore
    collectionIds := collectionIds
    documentIds := documents
    sourceIds := ctx.sourceIds }

/-- This is `RetrievalService.find_documents` at the statement of one page. -/
def serviceFind (page : Nat) (request : DiscoveryRequest) (limit : Int) (cursor : Option Cursor) :
    Except HandlerStop DocumentPage :=
  let catalog := { (reads.pages page).1 with maxAgeHours := reads.settings.aclMaxAgeHours }
  match findDocuments catalog (resolveAllowSet (reads.pages page).2 ctx.principal) request limit cursor with
  | .ok page => .ok page
  | .error _ => .error .badArgs

/-- This is the sort of the arguments. -/
def sortOf (value : Json) : Except HandlerStop Text :=
  match orElse value (.str "title_asc".toList) with
  | .str sort => .ok sort
  | _ => .error .badArgs

def cursorArgument (value : Json) : Except HandlerStop (Option Cursor) :=
  match value with
  | .null => .ok none
  | value =>
      match reader.cursor value with
      | some cursor => .ok (some cursor)
      | none => .error .badArgs

/-- This is `int(value)` of an argument. -/
def intArgument (value : Json) : Except HandlerStop Int :=
  match reader.int value with
  | some value => .ok value
  | none => .error .badArgs

/-- This is a row of a page as it is shown. -/
def shownRow (item : DiscoveryDocument) : DocumentRow := ⟨item.documentId, item.title⟩

/-- This is `_find`. -/
def findTool : Except HandlerStop ToolHandlerResult := do
  let request ← filters reader ctx reads args
  let limit ← intArgument reader (orElse (args.get "limit") (.int 10))
  let sort ← sortOf (args.get "sort")
  let cursor ← cursorArgument reader (args.get "cursor")
  let page ← serviceFind ctx reads 0 { request with query := stripped reader args "query", sort := sort }
    (min limit ctx.maxK) cursor
  return {
    documents := page.items.map shownRow
    documentIds := page.items.map DiscoveryDocument.documentId }

/-- This is the loop of `_search`, which collects the documents of the pages; it gives none for too many
of them. -/
def collectEligible (request : DiscoveryRequest) :
    Nat → Nat → Option Cursor → List Uuid → Except HandlerStop (Option (List Uuid))
  | 0, _, _, _ => .ok none
  | fuel + 1, page, cursor, eligible => do
      let found ← serviceFind ctx reads page request 50 cursor
      let eligible := eligible ++ found.items.map DiscoveryDocument.documentId
      match found.nextCursor with
      | none => return some eligible
      | some next =>
          if 1000 ≤ eligible.length then return none
          else collectEligible request fuel (page + 1) (some next) eligible

/-- Twenty pages that continue have a thousand documents. -/
def eligiblePages : Nat := 21

/-- The arguments have a filter that search itself does not take. -/
def needsDiscovery (request : DiscoveryRequest) : Bool :=
  request.source.isSome || request.mimeType.isSome || request.createdAfter.isSome ||
    request.createdBefore.isSome || request.modifiedAfter.isSome || request.modifiedBefore.isSome

/-- This is `RetrievalService.search_text`. -/
def serviceSearch (query : Text) (k : Int) (collectionIds documentIds : Option (List Uuid)) :
    Except HandlerStop (List RetrievedPassage) :=
  match search reads.services reads.settings reads.search ctx.principal
    ⟨query, k, collectionIds, documentIds, ctx.sourceIds⟩ with
  | .ok passages => .ok passages
  | .error error => .error (.raised error)

/-- This is the result for passages. -/
def passagesResult (passages : List RetrievedPassage) : ToolHandlerResult where
  passages := passages
  documentIds := (passages.map RetrievedPassage.documentId).eraseDups

/-- This is the document filter of `_search`; there is none for too many documents. -/
def searchedDocuments (request : DiscoveryRequest) : Except HandlerStop (Option (Option (List Uuid))) :=
  if needsDiscovery request then
    (collectEligible ctx reads request eligiblePages 0 none []).map (Option.map some)
  else .ok (some request.documentIds)

/-- This is `_search`. -/
def searchTool : Except HandlerStop ToolHandlerResult := do
  let request ← filters reader ctx reads args
  match ← searchedDocuments ctx reads request with
  | none => return { error := some .badArgs }
  | some documents =>
      let query := stripped reader args "query"
      if query = [] then .error .badArgs
      else if documents = some [] ∨ request.collectionIds = some [] then return {}
      else
        let k ← intArgument reader (orElse (args.get "k") (.int ctx.defaultK))
        let passages ← serviceSearch ctx reads query (min (min k 20) ctx.maxK) request.collectionIds
          documents
        return passagesResult passages

/-- A handle is a mark and a number without a leading zero. -/
def isHandle (marks : List Char) : Text → Bool
  | mark :: digit :: digits =>
      marks.contains mark && ('1' ≤ digit && digit ≤ '9') && digits.all fun c => '0' ≤ c && c ≤ '9'
  | _ => false

/-- This is `RetrievalService.read_passages` of one chunk. -/
def servicePassage (scope : Scope) (chunkId : Uuid) : Option RetrievedPassage :=
  let rows := loadPassages reads.passages.1.database reads.settings.aclMaxAgeHours reads.passages.1.now
    (resolveAllowSet reads.passages.2 ctx.principal) [chunkId] scope
  (rows.lookup chunkId).map fun row => readPassage row.documentId row.documentName row

/-- This is the document of the handle of `_read` with its range. -/
def readTarget (scope : Scope) (handle : Text) (start : Int) (stop : Option Int) :
    Option (Uuid × Int × Option Int) :=
  if isHandle ['S'] handle then do
    let book ← ctx.handles
    let (chunkId, documentId) ← book.passage handle
    let fresh ← servicePassage ctx reads scope chunkId
    if book.names handle fresh then
      some (documentId, max 0 (fresh.charStart - 1200 : Int), some (fresh.charEnd + 1200 : Int))
    else none
  else if isHandle ['D'] handle then
    (ctx.handles.bind fun book => book.documentId handle).map fun id => (id, start, stop)
  else (reader.names.uuid handle).map fun id => (id, start, stop)

/-- This is `RetrievalService.read_document`. -/
def serviceRead (scope : Scope) (documentId : Uuid) (range : ReadRange) :
    Except HandlerStop (Option DocumentRead) :=
  match readDocument reads.settings.aclMaxAgeHours (resolveAllowSet reads.reading.2 ctx.principal)
    documentId scope reads.reading.1 range with
  | .ok page => .ok page
  | .error _ => .error .badArgs

/-- This is the end of the range of the arguments. -/
def endArgument (value : Json) : Except HandlerStop (Option Int) :=
  match value with
  | .null => .ok none
  | value => (intArgument reader value).map some

/-- This is `_read`. -/
def readTool : Except HandlerStop ToolHandlerResult := do
  let handle := stripped reader args "handle"
  let start ← intArgument reader (orElse (args.get "start") (.int 0))
  let stop ← endArgument reader (args.get "end")
  let collectionIds ← ids reader (args.get "collection_ids") ctx.collectionIds
  let documents ← documentIds reader ctx reads (args.get "document_ids")
  let scope : Scope := ⟨collectionIds, documents, ctx.sourceIds⟩
  match readTarget reader ctx reads scope handle start stop with
  | none => return { error := some .notFound }
  | some (documentId, start, stop) =>
      let most ← intArgument reader (orElse (args.get "max_passages") (.int 5))
      match ← serviceRead ctx reads scope documentId ⟨start, stop, min most ctx.maxK⟩ with
      | none => return { error := some .notFound }
      | some page =>
          return {
            documents := [⟨page.documentId, page.documentName⟩]
            passages := page.passages
            documentIds := [page.documentId] }

/-- This is `_clamp_k` of the legacy tools. -/
def clampArgument (value : Json) (default maximum : Int) : Int :=
  let fallback := max 1 (min maximum default)
  match value with
  | .bool _ | .int _ | .float _ | .str _ =>
      match reader.int value with
      | some k => max 1 (min maximum k)
      | none => fallback
  | _ => fallback

/-- This is `_search_text`. -/
def searchTextTool : Except HandlerStop ToolHandlerResult := do
  let query := stripped reader args "query"
  if query = [] then return {}
  let passages ← serviceSearch ctx reads query
    (clampArgument reader (args.get "k") ctx.defaultK (min 20 ctx.maxK)) ctx.collectionIds ctx.documentIds
  return passagesResult passages

/-- This is the scope of `_scope_kwargs`. -/
def legacyScope : Scope := ⟨ctx.collectionIds, none, ctx.sourceIds⟩

/-- This is the result for a list of documents. -/
def documentsResult (rows : List DocumentRow) : ToolHandlerResult where
  documents := rows
  documentIds := rows.map DocumentRow.documentId

/-- This is the largest number of documents of a list. -/
def maxDocumentHits : Int := 50

def serviceAllow : AllowSet := resolveAllowSet reads.documents.2 ctx.principal

/-- This is `_search_documents`. -/
def searchDocumentsTool : Except HandlerStop ToolHandlerResult :=
  let query := stripped reader args "name_or_query"
  if query = [] then .ok {}
  else
    let k := clampArgument reader (args.get "k") 10 (min 20 ctx.maxK)
    .ok (documentsResult (documentSearch reads.settings.aclMaxAgeHours (serviceAllow ctx reads)
      (legacyScope ctx) reader.names reads.documents.1 query (min maxDocumentHits (max 1 k)).toNat))

/-- This is `_list_documents`. -/
def listDocumentsTool : Except HandlerStop ToolHandlerResult :=
  let k := clampArgument reader (args.get "k") 50 (min 50 ctx.maxK)
  .ok (documentsResult (listDocuments reads.settings.aclMaxAgeHours (serviceAllow ctx reads)
    (legacyScope ctx) reader.names reads.documents.1 (min maxDocumentHits (max 1 k)).toNat))

/-- This is the resolution of `_get_document`. -/
def resolveTarget (handle : Text) : DocumentResolution :=
  let load (documentId : Uuid) : DocumentResolution :=
    { document := loadDocumentText reads.settings.aclMaxAgeHours (serviceAllow ctx reads)
        (legacyScope ctx) reads.documents.1 documentId }
  let handleOnly := ctx.handles.isSome && isHandle ['S', 'D', 'W'] handle
  let resolved := if handleOnly then ctx.handles.bind fun book => book.documentId handle
    else ctx.documentIdResolver.bind fun resolver => resolver handle
  match resolved with
  | some documentId => load documentId
  | none =>
      if handleOnly then {}
      else resolveDocumentText reads.settings.aclMaxAgeHours (serviceAllow ctx reads) (legacyScope ctx)
        reader.names reads.literal reads.tolerant handle

/-- This is `_get_document`. -/
def getDocumentTool : Except HandlerStop ToolHandlerResult :=
  let resolution := resolveTarget reader ctx reads (stripped reader args "document_id")
  if resolution.candidates ≠ [] then
    .ok { error := some .badArgs, documents := resolution.candidates }
  else
    match resolution.document with
    | none => .ok { error := some .badArgs }
    | some document =>
        let budget := (max 1 (min ctx.snippetBudget 600) * 4).toNat
        .ok { text := some { document with text := document.text.take budget }
              documentIds := [document.documentId] }

/-- These are the corpus tools. -/
inductive CorpusTool where
  | findDocuments
  | searchPassages
  | readDocument
  | searchText
  | searchDocuments
  | listDocuments
  | getDocument
  deriving DecidableEq

/-- This is the handler of a tool; the corpus handlers answer bad arguments themselves. -/
def runCorpusTool (tool : CorpusTool) : Except HandlerStop ToolHandlerResult :=
  let answer := match tool with
    | .findDocuments => findTool reader ctx reads args
    | .searchPassages => searchTool reader ctx reads args
    | .readDocument => readTool reader ctx reads args
    | .searchText => searchTextTool reader ctx reads args
    | .searchDocuments => searchDocumentsTool reader ctx reads args
    | .listDocuments => listDocumentsTool reader ctx reads args
    | .getDocument => getDocumentTool reader ctx reads args
  match answer with
  | .error .badArgs => .ok { error := some .badArgs }
  | answer => answer

end LumenCopilot.Retrieval
