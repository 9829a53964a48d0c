import LumenCopilot.Construction.Library.Paging
import LumenCopilot.Construction.Python.Bytes
import LumenCopilot.Construction.Python.Numerals
import LumenCopilot.Construction.Retrieval.Permissions

namespace LumenCopilot.Retrieval

open Python Library

/-- This is a column of type `TIMESTAMPTZ`, in UTC. -/
structure Timestamp where
  minute : DateTime
  second : Nat
  microsecond : Nat
  secondBound : second < 60
  microsecondBound : microsecond < 1000000

instance : DecidableEq Timestamp := fun first second =>
  decidable_of_iff (first.minute = second.minute ∧ first.second = second.second ∧
    first.microsecond = second.microsecond) (by cases first; cases second; simp)

/-- These are the fields of a time in the order of their weight. -/
def Timestamp.fields (time : Timestamp) : List Nat :=
  [time.minute.year, time.minute.month, time.minute.day, time.minute.hour, time.minute.minute,
    time.second, time.microsecond]

/-- These are the low decimal digits of a number, most significant first. -/
def paddedDigits : Nat → Nat → Text
  | 0, _ => []
  | width + 1, n => paddedDigits width (n / 10) ++ [Char.ofNat (48 + n % 10)]

/-- This is `isoformat` of a time in UTC. -/
def Timestamp.isoformat (time : Timestamp) : Text :=
  paddedDigits 4 time.minute.year ++ '-' :: paddedDigits 2 time.minute.month ++
    '-' :: paddedDigits 2 time.minute.day ++ 'T' :: paddedDigits 2 time.minute.hour ++
    ':' :: paddedDigits 2 time.minute.minute ++ ':' :: paddedDigits 2 time.second ++
    (if time.microsecond = 0 then [] else '.' :: paddedDigits 6 time.microsecond) ++
    ['+', '0', '0', ':', '0', '0']

/-- This is the text side of the database: the lower case and the order of its collation. -/
structure Collation where
  lower : Text → Text
  weights : Text → List Nat
  deterministic : Function.Injective weights

/-- This is a row of `documents` with the columns that discovery reads beside the other ones. -/
structure DiscoverableDocument where
  document : Document
  title : Option Text
  sourcePath : Option Text
  mimeType : Text
  createdAt : Timestamp
  sourceModifiedAt : Option Timestamp
  discoveryMetadata : Option Text
  deriving DecidableEq

/-- This is a row of `sources`. -/
structure SourceRow where
  id : Uuid
  tenantId : Uuid
  type : Text
  deriving DecidableEq

/-- This is what the statement of `find_documents` reads. -/
structure Catalog where
  documents : List DiscoverableDocument
  sources : List SourceRow
  grants : List Grant
  maxAgeHours : Nat
  now : Int
  collation : Collation
  documentKeys : (documents.map fun row => row.document.id).Nodup
  sourceKeys : (sources.map SourceRow.id).Nodup

/-- This is a bound of the filters: an aware `datetime` with its `str`. -/
structure DateBound where
  written : Text
  instant : Timestamp
  dated : written ≠ "None".toList
  deriving DecidableEq

/-- These are the arguments of `find_documents` beside its limit and its cursor. -/
structure DiscoveryRequest where
  query : Text
  sort : Text
  source : Option Text
  mimeType : Option Text
  createdAfter : Option DateBound
  createdBefore : Option DateBound
  modifiedAfter : Option DateBound
  modifiedBefore : Option DateBound
  collectionIds : Option (List Uuid)
  documentIds : Option (List Uuid)
  sourceIds : Option (List Uuid)
  deriving DecidableEq

/-- A sort key is a title or a time. -/
inductive SortKey where
  | title (text : Text)
  | time (instant : Timestamp)
  deriving DecidableEq

/-- This is the content of a cursor. -/
structure Cursor where
  binding : Text
  key : Option SortKey
  id : Uuid
  deriving DecidableEq

/-- This is `DiscoveryDocument`. -/
structure DiscoveryDocument where
  documentId : Uuid
  title : Text
  filename : Text
  sourcePath : Option Text
  source : Text
  mimeType : Text
  createdAt : Timestamp
  metadata : Text
  sourceModifiedAt : Option Timestamp
  deriving DecidableEq

/-- This is `DocumentPage`. -/
structure DocumentPage where
  items : List DiscoveryDocument
  nextCursor : Option Cursor
  deriving DecidableEq

/-- These are the documented sorts. -/
def sorts : List Text :=
  ["title_asc".toList, "title_desc".toList, "created_asc".toList, "created_desc".toList,
    "modified_asc".toList, "modified_desc".toList]

def limitDetail : Text := "Use limit 1–50 and a documented title/created/modified sort.".toList

def createdDetail : Text := "created_after must precede created_before.".toList

def modifiedDetail : Text := "modified_after must precede modified_before.".toList

def cursorDetail : Text := "Invalid cursor; restart discovery with the same filters.".toList

/-- This is the text of a sort key in a cursor. -/
def SortKey.text : SortKey → Text
  | .title text => text
  | .time instant => instant.isoformat

/-- This is the order of a column of sort keys. -/
def SortKey.rank (collation : Collation) : SortKey → List Nat
  | .title text => 0 :: collation.weights text
  | .time instant => 1 :: instant.fields

/-- This is the text of a cursor. -/
def Cursor.text (cursor : Cursor) : Text :=
  urlsafeB64encode (utf8 (Json.dict [("binding".toList, .str cursor.binding),
    ("key".toList, (cursor.key.map fun key => Json.str key.text).getD .null),
    ("id".toList, .str cursor.id.str)]).dumps)

def nullable (text : Option Text) : Json := (text.map Json.str).getD .null

/-- This is `str` of an optional bound. -/
def DateBound.str (bound : Option DateBound) : Text := (bound.map DateBound.written).getD "None".toList

/-- This is `sorted(map(str, ids))` of an optional filter. -/
def sortedIds (ids : Option (List Uuid)) : Json :=
  match ids with
  | none => .null
  | some ids =>
      .list (((ids.map Uuid.str).insertionSort fun first second : Text => textLt second first = false).map
        Json.str)

/-- These are the values that the binding of a cursor hashes. -/
def bindingValues (allow : AllowSet) (request : DiscoveryRequest) : List Json :=
  [.str allow.tenantId.str, .str allow.grantPrincipalId.str, .str request.query, .str request.sort,
    nullable request.source, nullable request.mimeType, .str (DateBound.str request.createdAfter),
    .str (DateBound.str request.createdBefore), .str (DateBound.str request.modifiedAfter),
    .str (DateBound.str request.modifiedBefore), sortedIds request.collectionIds,
    sortedIds request.documentIds, sortedIds request.sourceIds]

/-- This is the binding of a cursor to the principal, the sort and the filters. -/
def bindingOf (allow : AllowSet) (request : DiscoveryRequest) : Text :=
  Sha256.hexdigest (utf8 (Json.list (bindingValues allow request)).dumps)

namespace DiscoveryRequest

def byModified (request : DiscoveryRequest) : Bool := startsWith request.sort "modified".toList

def byCreated (request : DiscoveryRequest) : Bool := startsWith request.sort "created".toList

def descending (request : DiscoveryRequest) : Bool := "desc".toList.isSuffixOf request.sort

end DiscoveryRequest

variable (catalog : Catalog) (allow : AllowSet) (request : DiscoveryRequest)

/-- This is `row.title or row.filename`. -/
def DiscoverableDocument.name (row : DiscoverableDocument) : Text :=
  match row.title with
  | none => row.document.filename
  | some title => if title = [] then row.document.filename else title

/-- This is the expression `order` of the statement. -/
def sortKey (row : DiscoverableDocument) : Option SortKey :=
  if request.byModified then row.sourceModifiedAt.map .time
  else if request.byCreated then some (.time row.createdAt)
  else some (.title (catalog.collation.lower row.name))

/-- This is the type of the joined source. -/
def sourceType (row : DiscoverableDocument) : Text :=
  let joined := catalog.sources.find? fun source =>
    some source.id == row.document.sourceId && source.tenantId == allow.tenantId
  (joined.map SourceRow.type).getD "upload".toList

/-- This is `icontains` of a nullable column. -/
def icontains (column : Option Text) : Bool :=
  column.any fun text =>
    containsText (catalog.collation.lower text) (catalog.collation.lower request.query)

def DateBound.notAfter (bound : Option DateBound) (time : Option Timestamp) : Bool :=
  bound.all fun bound => time.any fun time => bound.instant.fields ≤ time.fields

def DateBound.after (bound : Option DateBound) (time : Option Timestamp) : Bool :=
  bound.all fun bound => time.any fun time => time.fields < bound.instant.fields

/-- These are the conditions of the statement without its cursor. -/
def discoverable (row : DiscoverableDocument) : Bool :=
  row.document.tenantId == allow.tenantId &&
    documentPermitted catalog.grants catalog.maxAgeHours catalog.now allow row.document &&
    (request.query == [] ||
      [row.title, some row.document.filename, row.sourcePath, row.discoveryMetadata].any
        (icontains catalog request)) &&
    request.source.all (fun source => sourceType catalog allow row == source) &&
    request.mimeType.all (fun mimeType => row.mimeType == mimeType) &&
    DateBound.notAfter request.createdAfter (some row.createdAt) &&
    DateBound.after request.createdBefore (some row.createdAt) &&
    DateBound.notAfter request.modifiedAfter row.sourceModifiedAt &&
    DateBound.after request.modifiedBefore row.sourceModifiedAt &&
    documentScope request.collectionIds request.sourceIds request.documentIds row.document

/-- This is the place of a row in the order of the statement. -/
def rowPlace (row : DiscoverableDocument) : Option (List Nat) × Nat :=
  ((sortKey catalog request row).map (SortKey.rank catalog.collation), row.document.id.int)

/-- These are the rows of the statement without its cursor and its limit. -/
def discoveredRows : List DiscoverableDocument :=
  (catalog.documents.filter (discoverable catalog allow request)).insertionSort
    fun first second : DiscoverableDocument =>
      ¬ Ahead request.descending (rowPlace catalog request second) (rowPlace catalog request first)

/-- This is the row of a page. -/
def discoveryDocument (row : DiscoverableDocument) : DiscoveryDocument where
  documentId := row.document.id
  title := row.name
  filename := row.document.filename
  sourcePath := row.sourcePath
  source := sourceType catalog allow row
  mimeType := row.mimeType
  createdAt := row.createdAt
  metadata := row.discoveryMetadata.getD "\x7b\x7d".toList
  sourceModifiedAt := row.sourceModifiedAt

/-- This is the check of the bounds of one filter. -/
def DateBound.disordered (lower upper : Option DateBound) : Bool :=
  lower.any fun lower => upper.any fun upper => upper.instant.fields ≤ lower.instant.fields

/-- This is the longest cursor that is read. -/
def cursorLimit : Nat := 4096

/-- These are the checks of a cursor. -/
def cursorAccepted (cursor : Cursor) : Bool :=
  cursor.text.length ≤ cursorLimit && cursor.binding == bindingOf allow request &&
    (cursor.key.isSome || request.byModified)

/-- These are the conditions that a cursor adds to the statement. -/
def behind (cursor : Option Cursor) (row : DiscoverableDocument) : Bool :=
  cursor.all fun cursor =>
    resumes request.descending (cursor.key.map (SortKey.rank catalog.collation)) cursor.id.int
      (rowPlace catalog request row)

/-- This is the cursor that continues after a row. -/
def cursorOf (row : DiscoverableDocument) : Cursor where
  binding := bindingOf allow request
  key := sortKey catalog request row
  id := row.document.id

/-- This is `find_documents`. -/
def findDocuments (limit : Int) (cursor : Option Cursor) : Except Text DocumentPage :=
  if limit < 1 || 50 < limit || !sorts.contains request.sort then .error limitDetail
  else if DateBound.disordered request.createdAfter request.createdBefore then .error createdDetail
  else if DateBound.disordered request.modifiedAfter request.modifiedBefore then .error modifiedDetail
  else if cursor.any fun cursor => !cursorAccepted allow request cursor then .error cursorDetail
  else
    let rows := ((discoveredRows catalog allow request).filter (behind catalog request cursor)).take
      (limit.toNat + 1)
    let next := if limit.toNat < rows.length then rows[limit.toNat - 1]? else none
    .ok ⟨(rows.take limit.toNat).map (discoveryDocument catalog allow),
      next.map (cursorOf catalog allow request)⟩

/-- This is the read of one page with its continuation. -/
def fetchDocuments (limit : Int) (cursor : Option Cursor) :
    Except Text (DocumentPage × Option (Option Cursor)) :=
  (findDocuments catalog allow request limit cursor).map fun page => (page, page.nextCursor.map some)

end LumenCopilot.Retrieval
