import LumenCopilot.Construction.Retrieval.Discovery
import LumenCopilot.Proof.Library.Paging
import LumenCopilot.Proof.Library.Partial
import LumenCopilot.Proof.Python.Json
import LumenCopilot.Proof.Retrieval.Filter

namespace LumenCopilot.Retrieval

open Python Library

variable {catalog : Catalog} {allow : AllowSet} {request : DiscoveryRequest}

/-- These are the documents that the filters and the permissions admit, each once and in order. -/
structure Discovered (catalog : Catalog) (allow : AllowSet) (request : DiscoveryRequest)
    (rows : List DiscoverableDocument) : Prop where
  member : ∀ row, row ∈ rows ↔ row ∈ catalog.documents ∧ discoverable catalog allow request row = true
  once : rows.Nodup
  ordered : rows.Pairwise fun first second =>
    Ahead request.descending (rowPlace catalog request first) (rowPlace catalog request second)

theorem Uuid.int_injective {a b : Uuid} (same : a.int = b.int) : a = b := by
  obtain ⟨a, _⟩ := a
  obtain ⟨b, _⟩ := b
  obtain rfl := same
  rfl

/-- The statement without its cursor and its limit lists the discovered documents. -/
theorem discoveredRows_discovered :
    Discovered catalog allow request (discoveredRows catalog allow request) where
  member row := by
    unfold discoveredRows
    rw [List.mem_insertionSort, List.mem_filter]
  once := by
    unfold discoveredRows
    refine (List.perm_insertionSort _ _).nodup_iff.mpr ?_
    exact (List.Nodup.of_map _ catalog.documentKeys).filter _
  ordered := by
    have total : Std.Total fun first second : DiscoverableDocument =>
        ¬ Ahead request.descending (rowPlace catalog request second) (rowPlace catalog request first) :=
      ⟨fun first second => by
        by_cases here : Ahead request.descending (rowPlace catalog request second)
            (rowPlace catalog request first)
        · exact Or.inr (ahead_asymm here)
        · exact Or.inl here⟩
    have trans : IsTrans DiscoverableDocument fun first second : DiscoverableDocument =>
        ¬ Ahead request.descending (rowPlace catalog request second) (rowPlace catalog request first) :=
      ⟨fun first second third below above => ahead_negTrans below above⟩
    have weak : (discoveredRows catalog allow request).Pairwise fun first second =>
        ¬ Ahead request.descending (rowPlace catalog request second) (rowPlace catalog request first) :=
      List.pairwise_insertionSort _ _
    have keys : ((discoveredRows catalog allow request).map fun row => row.document.id).Nodup := by
      refine ((List.perm_insertionSort _ _).map _).nodup_iff.mpr ?_
      exact catalog.documentKeys.sublist (List.filter_sublist.map _)
    refine (weak.and (List.pairwise_map.mp keys)).imp fun {first second} both => ?_
    rcases ahead_trichotomy (rowPlace catalog request first) (rowPlace catalog request second) with
      before | same | behind
    · exact before
    · exact (both.2 (Uuid.int_injective (congrArg Prod.snd same))).elim
    · exact (both.1 behind).elim

variable {page : DocumentPage}

/-- Every item of a page is a discovered document. -/
theorem findDocuments_items {limit : Int} {cursor : Option Cursor}
    (found : findDocuments catalog allow request limit cursor = .ok page) {item : DiscoveryDocument}
    (member : item ∈ page.items) : ∃ row ∈ catalog.documents,
      discoverable catalog allow request row = true ∧ item = discoveryDocument catalog allow row := by
  unfold findDocuments at found
  split at found
  · cases found
  split at found
  · cases found
  split at found
  · cases found
  split at found
  · cases found
  · obtain rfl := Except.ok.inj found
    obtain ⟨row, listed, rfl⟩ := List.mem_map.mp member
    have kept := List.mem_of_mem_filter (List.mem_of_mem_take (List.mem_of_mem_take listed))
    obtain ⟨stored, matching⟩ := (discoveredRows_discovered.member row).mp kept
    exact ⟨row, stored, matching, rfl⟩

/-- The cursor stands at a place of the rows: none at their start, and else that of the row before. -/
def At (catalog : Catalog) (allow : AllowSet) (request : DiscoveryRequest)
    (rows : List DiscoverableDocument) (index : Nat) : Option Cursor → Prop
  | none => index = 0
  | some cursor => 0 < index ∧ ∃ row, rows[index - 1]? = some row ∧
      cursor = cursorOf catalog allow request row

variable {rows : List DiscoverableDocument} {index : Nat}

/-- The statement resumes with the rows from the place of its cursor. -/
theorem At.behind {cursor : Option Cursor} (ordered : rows.Pairwise fun first second =>
      Ahead request.descending (rowPlace catalog request first) (rowPlace catalog request second))
    (stands : At catalog allow request rows index cursor) :
    rows.filter (behind catalog request cursor) = rows.drop index := by
  cases cursor with
  | none =>
      obtain rfl := stands
      exact List.filter_eq_self.mpr fun row _ => rfl
  | some cursor =>
      obtain ⟨positive, row, found, rfl⟩ := stands
      have rest := filter_ahead ordered found
      rw [Nat.sub_add_cancel positive] at rest
      rw [← rest]
      refine List.filter_congr fun other _ => ?_
      rw [Bool.eq_iff_iff, decide_eq_true_eq]
      exact resumes_iff

/-- The limit, the sort and the bounds of the request pass their checks. -/
structure DiscoveryRequest.Sound (request : DiscoveryRequest) (limit : Int) : Prop where
  limit : 1 ≤ limit ∧ limit ≤ 50
  sort : request.sort ∈ sorts
  created : DateBound.disordered request.createdAfter request.createdBefore = false
  modified : DateBound.disordered request.modifiedAfter request.modifiedBefore = false

/-- This is the page of the rows from a place. -/
def pageAt (catalog : Catalog) (allow : AllowSet) (request : DiscoveryRequest)
    (rows : List DiscoverableDocument) (limit index : Nat) : DocumentPage where
  items := ((rows.drop index).take limit).map (discoveryDocument catalog allow)
  nextCursor := if index + limit < rows.length then
    rows[index + limit - 1]?.map (cursorOf catalog allow request) else none

theorem findDocuments_at {limit : Int} (sound : request.Sound limit) {cursor : Option Cursor}
    (stands : At catalog allow request (discoveredRows catalog allow request) index cursor) :
    findDocuments catalog allow request limit cursor =
      if cursor.any fun cursor => !cursorAccepted allow request cursor then .error cursorDetail
      else .ok (pageAt catalog allow request (discoveredRows catalog allow request) limit.toNat index) := by
  have valid : (limit < 1 || 50 < limit || !sorts.contains request.sort) = false := by
    have known : sorts.contains request.sort = true := List.contains_iff_mem.mpr sound.sort
    have bounds := sound.limit
    rw [known]
    simp only [Bool.or_eq_false_iff, decide_eq_false_iff_not]
    exact ⟨⟨by omega, by omega⟩, rfl⟩
  have positive : 0 < limit.toNat := by
    have bounds := sound.limit
    omega
  unfold findDocuments
  rw [valid, sound.created, sound.modified, stands.behind discoveredRows_discovered.ordered]
  simp only [Bool.false_eq_true, if_false]
  refine if_congr Iff.rfl rfl (congrArg Except.ok ?_)
  unfold pageAt
  congr 1
  · rw [List.take_take, Nat.min_eq_left (Nat.le_succ _)]
  · rw [List.length_take, List.length_drop, List.getElem?_take, List.getElem?_drop]
    by_cases more : index + limit.toNat < (discoveredRows catalog allow request).length
    · rw [if_pos more, if_pos (by omega), if_pos (by omega)]
      congr 2
      omega
    · rw [if_neg more, if_neg (by omega)]
      rfl

/-- This is the JSON value of the key of a cursor. -/
def keyJson (key : Option SortKey) : Json := (key.map fun key => Json.str key.text).getD .null

theorem keyJson_flat (key : Option SortKey) : IsFlat (keyJson key) := by
  cases key with
  | none => exact .null
  | some key => exact .str _

/-- The text of a cursor grows with its key. -/
theorem Cursor.length_text {cursor : Cursor} (width : cursor.binding.length = 64)
    (hex : ∀ c ∈ cursor.binding, isHexDigit c = true) :
    cursor.text.length = 4 * (((keyJson cursor.key).dumps.length + 136) / 3) := by
  have names : "binding".toList.all isPlain = true ∧ "key".toList.all isPlain = true ∧
      "id".toList.all isPlain = true := by decide
  have dashed : ∀ c ∈ cursor.id.str, isPlain c = true := by
    intro c member
    rcases Uuid.mem_str member with digit | rfl
    · exact isPlain_of_isHexDigit digit
    · rfl
  have binding := length_quote_plain (List.all_eq_true.mp names.1)
  have key := length_quote_plain (List.all_eq_true.mp names.2.1)
  have id := length_quote_plain (List.all_eq_true.mp names.2.2)
  have bound := length_quote_plain fun c member => isPlain_of_isHexDigit (hex c member)
  have identifier := length_quote_plain dashed
  have text : ∀ c ∈ (Json.dict [("binding".toList, .str cursor.binding), ("key".toList, keyJson cursor.key),
      ("id".toList, .str cursor.id.str)]).dumps, isAscii c = true := by
    refine fun c => isAscii_dict fun field member => ?_
    simp only [List.mem_cons, List.not_mem_nil, or_false] at member
    rcases member with rfl | rfl | rfl
    · exact fun c => isAscii_quote
    · exact fun c => (keyJson_flat _).ascii
    · exact fun c => isAscii_quote
  have bytes := length_utf8 text
  have whole : cursor.text.length = 4 * (((utf8 (Json.dict [("binding".toList, .str cursor.binding),
      ("key".toList, keyJson cursor.key), ("id".toList, .str cursor.id.str)]).dumps).length + 2) / 3) :=
    length_urlsafeB64encode _
  rw [whole, bytes]
  simp only [Json.dumps, Json.dumpFields, List.length_cons, List.length_append, List.length_nil, binding,
    key, id, bound, identifier, width, Uuid.length_str]
  have lengths : "binding".toList.length = 7 ∧ "key".toList.length = 3 ∧ "id".toList.length = 2 := by decide
  omega

theorem length_paddedDigits (width n : Nat) : (paddedDigits width n).length = width := by
  induction width generalizing n with
  | zero => rfl
  | succ width ih => rw [paddedDigits, List.length_append, ih, List.length_singleton]

theorem Timestamp.length_isoformat (time : Timestamp) : time.isoformat.length ≤ 32 := by
  unfold Timestamp.isoformat
  split <;> simp [length_paddedDigits]

/-- The sort is not by title, or the lower-case title of the document is short enough when written in
JSON. -/
def TitleFits (catalog : Catalog) (request : DiscoveryRequest) (row : DiscoverableDocument) : Prop :=
  request.byModified = false → request.byCreated = false →
    (Json.quote (catalog.collation.lower row.name)).length ≤ 2938

variable {row : DiscoverableDocument}

/-- The cursor behind a document is accepted when its title fits. -/
theorem cursorOf_accepted_iff :
    cursorAccepted allow request (cursorOf catalog allow request row) = true ↔
      TitleFits catalog request row := by
  have length : (cursorOf catalog allow request row).text.length = _ :=
    Cursor.length_text (length_hexdigest _) fun c => isHexDigit_hexdigest
  have keyed : ((sortKey catalog request row).isSome || request.byModified) = true := by
    unfold sortKey
    cases request.byModified <;> cases request.byCreated <;> simp
  have short : cursorAccepted allow request (cursorOf catalog allow request row) = true ↔
      (keyJson (sortKey catalog request row)).dumps.length ≤ 2938 := by
    have key : (cursorOf catalog allow request row).key = sortKey catalog request row := rfl
    unfold cursorAccepted
    rw [length, key, keyed, cursorLimit]
    simp only [cursorOf, beq_self_eq_true, Bool.and_true, decide_eq_true_eq]
    omega
  have iso : ∀ time : Timestamp, (Json.quote time.isoformat).length ≤ 2938 := by
    intro time
    have quoted := length_quote_le time.isoformat
    have bound := time.length_isoformat
    omega
  rw [short]
  unfold TitleFits sortKey
  cases byModified : request.byModified with
  | true =>
      simp only [if_true, reduceCtorEq, false_imp_iff, iff_true]
      cases row.sourceModifiedAt with
      | none => decide
      | some time => exact iso time
  | false =>
      cases byCreated : request.byCreated with
      | true => simpa [keyJson, Json.dumps, SortKey.text] using iso row.createdAt
      | false => simp [keyJson, Json.dumps, SortKey.text]

/-- A page is refused for its cursor or shows the rows from its place. -/
theorem fetchDocuments_at {limit : Int} (sound : request.Sound limit) {cursor : Option Cursor}
    (stands : At catalog allow request (discoveredRows catalog allow request) index cursor) :
    fetchDocuments catalog allow request limit cursor =
      if cursor.any fun cursor => !cursorAccepted allow request cursor then .error cursorDetail
      else
        let page := pageAt catalog allow request (discoveredRows catalog allow request) limit.toNat index
        .ok (page, page.nextCursor.map some) := by
  unfold fetchDocuments
  rw [findDocuments_at sound stands, apply_ite (Except.map _)]
  rfl

/-- A page with more rows behind it continues at the place behind its own rows. -/
theorem pageAt_continues (catalog : Catalog) (allow : AllowSet) (request : DiscoveryRequest)
    {limit : Nat} (positive : 0 < limit) (more : index + limit < rows.length) :
    ∃ cursor, (pageAt catalog allow request rows limit index).nextCursor = some cursor ∧
      At catalog allow request rows (index + limit) (some cursor) := by
  have bound : index + limit - 1 < rows.length := by omega
  refine ⟨cursorOf catalog allow request rows[index + limit - 1], ?_, by omega, _,
    List.getElem?_eq_getElem bound, rfl⟩
  unfold pageAt
  rw [if_pos more, List.getElem?_eq_getElem bound, Option.map_some]

/-- The cursor stands behind whole pages, and rows remain. -/
def Reached (catalog : Catalog) (allow : AllowSet) (request : DiscoveryRequest) (limit : Nat)
    (cursor : Option Cursor) : Prop :=
  ∃ count, At catalog allow request (discoveredRows catalog allow request) (count * limit) cursor ∧
    (0 < count → count * limit < (discoveredRows catalog allow request).length)

/-- The pages show the discovered documents. -/
theorem fetchDocuments_pages {limit : Int} (sound : request.Sound limit) :
    Pages (fetchDocuments catalog allow request limit) (Reached catalog allow request limit.toNat)
      (fun cursor => ((discoveredRows catalog allow request).filter (behind catalog request cursor)).map
        (discoveryDocument catalog allow))
      DocumentPage.items where
  last cursor page reached fetched := by
    obtain ⟨count, stands, _⟩ := reached
    have positive : 0 < limit.toNat := by
      have bounds := sound.limit
      omega
    rw [fetchDocuments_at sound stands] at fetched
    rw [stands.behind discoveredRows_discovered.ordered]
    split at fetched
    · cases fetched
    · obtain ⟨rfl, ended⟩ := Prod.mk.inj (Except.ok.inj fetched)
      have all : (discoveredRows catalog allow request).length ≤ count * limit.toNat + limit.toNat := by
        by_contra more
        obtain ⟨next, continues, _⟩ := pageAt_continues catalog allow request positive (not_le.mp more)
        rw [continues] at ended
        cases ended
      have whole : ((discoveredRows catalog allow request).drop (count * limit.toNat)).length ≤
          limit.toNat := by
        rw [List.length_drop]
        omega
      rw [pageAt, List.take_of_length_le whole]
  more cursor page next reached fetched := by
    obtain ⟨count, stands, _⟩ := reached
    have positive : 0 < limit.toNat := by
      have bounds := sound.limit
      omega
    rw [fetchDocuments_at sound stands] at fetched
    split at fetched
    · cases fetched
    · obtain ⟨rfl, continues⟩ := Prod.mk.inj (Except.ok.inj fetched)
      by_cases more : count * limit.toNat + limit.toNat < (discoveredRows catalog allow request).length
      · obtain ⟨after, follows, there⟩ := pageAt_continues catalog allow request positive more
        rw [follows, Option.map_some] at continues
        obtain rfl := Option.some.inj continues
        have place : (count + 1) * limit.toNat = count * limit.toNat + limit.toNat := Nat.succ_mul _ _
        refine ⟨⟨count + 1, place ▸ there, fun _ => place ▸ more⟩, ?_, ?_⟩
        · rw [stands.behind discoveredRows_discovered.ordered,
            there.behind discoveredRows_discovered.ordered, pageAt, ← List.map_append, ← List.drop_drop,
            List.take_append_drop]
        · rw [pageAt, ← List.length_pos_iff, List.length_map, List.length_take, List.length_drop]
          omega
      · rw [pageAt, if_neg more] at continues
        cases continues

/-- The title of the last document of every page but the last one fits. -/
def BoundariesFit (catalog : Catalog) (request : DiscoveryRequest) (rows : List DiscoverableDocument)
    (limit : Nat) : Prop :=
  ∀ (count : Nat) row, 0 < count → count * limit < rows.length → rows[count * limit - 1]? = some row →
    TitleFits catalog request row

/-- A reader never comes to a refused cursor when the titles fit. -/
theorem fetchDocuments_answers {limit : Int} (sound : request.Sound limit)
    (fit : BoundariesFit catalog request (discoveredRows catalog allow request) limit.toNat)
    {cursor : Option Cursor} (reached : Reached catalog allow request limit.toNat cursor) (detail : Text) :
    fetchDocuments catalog allow request limit cursor ≠ .error detail := by
  obtain ⟨count, stands, remains⟩ := reached
  rw [fetchDocuments_at sound stands]
  have accepted : (cursor.any fun cursor => !cursorAccepted allow request cursor) = false := by
    cases cursor with
    | none => rfl
    | some cursor =>
        obtain ⟨positive, row, found, rfl⟩ := stands
        have some_ : 0 < count := Nat.pos_of_mul_pos_right positive
        have fits : cursorAccepted allow request (cursorOf catalog allow request row) = true :=
          cursorOf_accepted_iff.mpr (fit count row some_ (remains some_) found)
        rw [Option.any_some, fits, Bool.not_true]
  rw [accepted]
  nofun

variable {fuel : Nat} {read : List DocumentPage}

/-- A reader that finishes comes behind every page but the last one. -/
theorem follow_reaches {limit : Int} (sound : request.Sound limit)
    (followed : follow (fetchDocuments catalog allow request limit) fuel none = .finished read)
    (count : Nat)
    (remains : 0 < count → count * limit.toNat < (discoveredRows catalog allow request).length) :
    ∃ cursor fuel read, At catalog allow request (discoveredRows catalog allow request)
        (count * limit.toNat) cursor ∧
      follow (fetchDocuments catalog allow request limit) fuel cursor = .finished read := by
  induction count with
  | zero => exact ⟨none, fuel, read, Nat.zero_mul _, followed⟩
  | succ count ih =>
      have place : (count + 1) * limit.toNat = count * limit.toNat + limit.toNat := Nat.succ_mul _ _
      have more := remains (Nat.succ_pos count)
      rw [place] at more ⊢
      obtain ⟨cursor, fuel, read, stands, finishes⟩ := ih fun _ => by omega
      have positive : 0 < limit.toNat := by
        have bounds := sound.limit
        omega
      obtain ⟨answer, fetched⟩ := follow_succeeds finishes
      obtain ⟨next, continues, there⟩ := pageAt_continues catalog allow request positive more
      have page := fetchDocuments_at sound stands
      rw [fetched] at page
      split at page
      · cases page
      · obtain rfl := Except.ok.inj page
        rw [continues] at fetched
        obtain ⟨fuel, read, finishes⟩ := follow_continues finishes fetched
        exact ⟨some next, fuel, read, there, finishes⟩

/-- The titles fit when a reader finishes. -/
theorem boundariesFit_of_follow {limit : Int} (sound : request.Sound limit)
    (followed : follow (fetchDocuments catalog allow request limit) fuel none = .finished read) :
    BoundariesFit catalog request (discoveredRows catalog allow request) limit.toNat := by
  intro count row positive more found
  obtain ⟨cursor, fuel, read, stands, finishes⟩ := follow_reaches sound followed count fun _ => more
  obtain ⟨answer, fetched⟩ := follow_succeeds finishes
  have page := fetchDocuments_at sound stands
  rw [fetched] at page
  cases cursor with
  | none =>
      have zero : count * limit.toNat = 0 := stands
      have bounds := sound.limit
      rcases Nat.mul_eq_zero.mp zero with none | none <;> omega
  | some cursor =>
      obtain ⟨_, other, listed, rfl⟩ := stands
      obtain rfl := Option.some.inj (found.symm.trans listed)
      by_contra long
      have refused : cursorAccepted allow request (cursorOf catalog allow request row) = false :=
        Bool.eq_false_iff.mpr fun accepts => long (cursorOf_accepted_iff.mp accepts)
      rw [Option.any_some, refused, Bool.not_false, if_pos rfl] at page
      cases page

/-- Two requests have the same sort and the same filters. -/
structure SameFilters (first second : DiscoveryRequest) : Prop where
  query : first.query = second.query
  sort : first.sort = second.sort
  source : first.source = second.source
  mimeType : first.mimeType = second.mimeType
  createdAfter : first.createdAfter.map DateBound.written = second.createdAfter.map DateBound.written
  createdBefore : first.createdBefore.map DateBound.written = second.createdBefore.map DateBound.written
  modifiedAfter : first.modifiedAfter.map DateBound.written = second.modifiedAfter.map DateBound.written
  modifiedBefore : first.modifiedBefore.map DateBound.written =
    second.modifiedBefore.map DateBound.written
  collectionIds : Option.Rel List.Perm first.collectionIds second.collectionIds
  documentIds : Option.Rel List.Perm first.documentIds second.documentIds
  sourceIds : Option.Rel List.Perm first.sourceIds second.sourceIds

theorem nullable_injective {first second : Option Text} (same : nullable first = nullable second) :
    first = second := by
  cases first <;> cases second <;> simp_all [nullable]

/-- A bound is not written like a missing one. -/
theorem DateBound.str_inj {first second : Option DateBound}
    (texts : DateBound.str first = DateBound.str second) :
    first.map DateBound.written = second.map DateBound.written := by
  cases first with
  | none =>
      cases second with
      | none => rfl
      | some second => exact (second.dated texts.symm).elim
  | some first =>
      cases second with
      | none => exact (first.dated texts).elim
      | some second => exact congrArg some texts

/-- The sorted identifiers are those of the filter in another order. -/
theorem sortedIds_inj {first second : Option (List Uuid)} (same : sortedIds first = sortedIds second) :
    Option.Rel List.Perm first second := by
  cases first with
  | none =>
      cases second with
      | none => exact .none
      | some second => cases same
  | some first =>
      cases second with
      | none => cases same
      | some second =>
          have strs : Function.Injective Json.str := fun _ _ => Json.str.inj
          have sorted := List.map_injective_iff.mpr strs (Json.list.inj same)
          have perm := (List.perm_insertionSort _ _).symm.trans
            (sorted ▸ List.perm_insertionSort _ (second.map Uuid.str))
          have texts : Function.Injective Uuid.str := fun _ _ => Uuid.str_injective
          exact .some ((List.map_perm_map_iff texts).mp perm)

theorem bindingValues_flat (allow : AllowSet) (request : DiscoveryRequest) :
    ∀ item ∈ bindingValues allow request, IsFlat item := by
  have texts : ∀ text, IsFlat (nullable text) := by
    intro text
    cases text with
    | none => exact .null
    | some text => exact .str text
  have ids : ∀ ids, IsFlat (sortedIds ids) := by
    intro ids
    cases ids with
    | none => exact .null
    | some ids => exact .list _
  have strs : ∀ text, IsFlat (.str text) := .str
  intro item member
  simp only [bindingValues, List.mem_cons, List.not_mem_nil, or_false] at member
  rcases member with rfl | rfl | rfl | rfl | rfl | rfl | rfl | rfl | rfl | rfl | rfl | rfl | rfl <;>
    first | exact strs _ | exact texts _ | exact ids _

/-- A digest has two inputs. -/
def Collides : Prop := ∃ first second : List Nat, first ≠ second ∧
  Sha256.hexdigest first = Sha256.hexdigest second

/-- A binding identifies the principal, the sort and the filters, up to collisions of the digest. -/
theorem bindingOf_inj {other : AllowSet} {second : DiscoveryRequest}
    (same : bindingOf allow request = bindingOf other second) :
    (allow.tenantId = other.tenantId ∧ allow.grantPrincipalId = other.grantPrincipalId ∧
      SameFilters request second) ∨ Collides := by
  have flat := bindingValues_flat allow request
  have flatOther := bindingValues_flat other second
  by_cases bytes : utf8 (Json.list (bindingValues allow request)).dumps =
      utf8 (Json.list (bindingValues other second)).dumps
  · left
    have texts := utf8_ascii_inj (fun c => isAscii_list fun item member c => (flat item member).ascii)
      (fun c => isAscii_list fun item member c => (flatOther item member).ascii) bytes
    have values := dumps_flat_inj flat flatOther texts
    simp only [bindingValues, List.cons.injEq, Json.str.injEq, and_true] at values
    obtain ⟨tenant, principal, query, sort, source, mime, afterC, beforeC, afterM, beforeM, cs, ds, ss⟩ :=
      values
    exact ⟨Uuid.str_injective tenant, Uuid.str_injective principal, query, sort, nullable_injective source,
      nullable_injective mime, DateBound.str_inj afterC, DateBound.str_inj beforeC,
      DateBound.str_inj afterM, DateBound.str_inj beforeM, sortedIds_inj cs, sortedIds_inj ds,
      sortedIds_inj ss⟩
  · exact Or.inr ⟨_, _, bytes, same⟩

/-- A cursor is accepted with its own binding. -/
theorem findDocuments_bound {limit : Int} {cursor : Cursor}
    (found : findDocuments catalog allow request limit (some cursor) = .ok page) :
    cursor.binding = bindingOf allow request := by
  unfold findDocuments at found
  split at found
  · cases found
  split at found
  · cases found
  split at found
  · cases found
  split at found
  · cases found
  · next accepted =>
      simp only [Option.any_some, Bool.not_eq_true, Bool.not_eq_false', cursorAccepted, Bool.and_eq_true,
        beq_iff_eq] at accepted
      exact accepted.1.2

/-- A returned cursor has the binding of its request. -/
theorem findDocuments_binds {limit : Int} {start : Option Cursor} {cursor : Cursor}
    (found : findDocuments catalog allow request limit start = .ok page)
    (returned : page.nextCursor = some cursor) : cursor.binding = bindingOf allow request := by
  unfold findDocuments at found
  split at found
  · cases found
  split at found
  · cases found
  split at found
  · cases found
  split at found
  · cases found
  · obtain rfl := Except.ok.inj found
    obtain ⟨row, _, rfl⟩ := Option.map_eq_some_iff.mp returned
    rfl

section Example

/-- This collation compares code points. -/
def codePoints : Collation where
  lower text := text.map Char.toLower
  weights text := text.map Char.toNat
  deterministic := List.map_injective_iff.mpr fun _ _ => toNat_injective

/-- These are documents with one title. -/
def titledCatalog (title : Text) (ids : List Uuid) (distinct : ids.Nodup) : Catalog where
  documents := ids.map fun id =>
    ⟨{ mirroredDocument with id := id }, some title, none, ['m'], ⟨(DateTime.make 2024 1 1 0 0).get (by decide), 0, 0, by decide, by decide⟩, none, none⟩
  sources := []
  grants := []
  maxAgeHours := 24
  now := 2000
  collation := codePoints
  documentKeys := by
    rw [List.map_map]
    exact (List.map_id ids).symm ▸ distinct
  sourceKeys := List.nodup_nil

/-- This request has no filters. -/
def byTitle : DiscoveryRequest :=
  ⟨[], "title_asc".toList, none, none, none, none, none, none, none, none, none⟩

theorem byTitle_sound {limit : Int} (fits : 1 ≤ limit ∧ limit ≤ 50) : byTitle.Sound limit :=
  ⟨fits, by decide, rfl, rfl⟩

/-- The user of the connector document discovers the documents with the title. -/
theorem discoverable_titled {title : Text} {ids : List Uuid} {distinct : ids.Nodup}
    (member : row ∈ (titledCatalog title ids distinct).documents) :
    discoverable (titledCatalog title ids distinct) (.forUser (uuid 2) (uuid 8) []) byTitle row = true := by
  obtain ⟨id, _, rfl⟩ := List.mem_map.mp member
  have permitted : documentPermitted [] 24 2000 (.forUser (uuid 2) (uuid 8) []) mirroredDocument =
      true := by decide
  have same : documentPermitted [] 24 2000 (.forUser (uuid 2) (uuid 8) [])
      { mirroredDocument with id := id } = true := permitted
  unfold discoverable
  simp only [Bool.and_eq_true]
  exact ⟨⟨⟨⟨⟨⟨⟨⟨⟨rfl, same⟩, rfl⟩, rfl⟩, rfl⟩, rfl⟩, rfl⟩, rfl⟩, rfl⟩, rfl⟩

/-- A title of CJK characters is written in JSON with six characters for each of them. -/
theorem length_quote_replicate (count : Nat) :
    codePoints.lower (List.replicate count '中') = List.replicate count '中' ∧
      (Json.quote (List.replicate count '中')).length = count * 6 + 2 := by
  have lower : '中'.toLower = '中' := by decide
  have escape : (Json.escapeChar '中').length = 6 := by decide
  unfold codePoints Json.quote
  simp only [List.map_replicate, lower, true_and, List.length_cons, List.length_append,
    List.length_flatMap, escape, List.sum_replicate, List.length_nil, smul_eq_mul]

end Example

end LumenCopilot.Retrieval
