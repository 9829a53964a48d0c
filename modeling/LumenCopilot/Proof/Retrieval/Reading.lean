import LumenCopilot.Construction.Retrieval.Documents
import LumenCopilot.Proof.Ingestion.Reassembly
import LumenCopilot.Proof.Library.Paging
import LumenCopilot.Proof.Library.Partial
import LumenCopilot.Proof.Retrieval.Search

namespace LumenCopilot.Retrieval

open Python Library

variable {maxAgeHours : Nat} {allow : AllowSet} {documentId : Uuid} {scope : Scope} {snapshot : Snapshot}
  {document : Document} {range : ReadRange}

theorem readable_iff : readable maxAgeHours allow documentId scope snapshot document = true ↔
    document.tenantId = allow.tenantId ∧ document.id = documentId ∧ document.status = .ready ∧
      documentPermitted snapshot.database.grants maxAgeHours snapshot.now allow document = true ∧
        documentScope scope.collectionIds scope.sourceIds scope.documentIds document = true := by
  simp only [readable, Bool.and_eq_true, beq_iff_eq, and_assoc]

theorem readableDocument_some
    (found : readableDocument maxAgeHours allow documentId scope snapshot = some document) :
    document ∈ snapshot.database.documents ∧
      readable maxAgeHours allow documentId scope snapshot document = true :=
  ⟨List.mem_of_find?_eq_some found, List.find?_some found⟩

variable {chunk : Chunk}

/-- These are the chunks of a readable document. -/
theorem mem_documentChunks_iff
    (found : readableDocument maxAgeHours allow documentId scope snapshot = some document) :
    chunk ∈ documentChunks maxAgeHours allow documentId scope snapshot ↔
      chunk ∈ snapshot.database.chunks ∧ chunk.tenantId = allow.tenantId ∧
        chunk.documentId = documentId := by
  unfold documentChunks
  rw [List.mem_insertionSort, List.mem_filter, found]
  simp

theorem documentChunks_ids :
    ((documentChunks maxAgeHours allow documentId scope snapshot).map Chunk.id).Nodup := by
  unfold documentChunks
  refine ((List.perm_insertionSort _ _).map Chunk.id).nodup_iff.mpr ?_
  exact snapshot.database.chunkKeys.sublist (List.filter_sublist.map Chunk.id)

/-- The chunks come in the order of their ends. -/
theorem documentChunks_ordered :
    (documentChunks maxAgeHours allow documentId scope snapshot).Pairwise fun first second =>
      chunkKey first ≤ chunkKey second := by
  unfold documentChunks
  have total : Std.Total fun first second : Chunk => chunkKey first ≤ chunkKey second :=
    ⟨fun first second => le_total _ _⟩
  have trans : IsTrans Chunk fun first second : Chunk => chunkKey first ≤ chunkKey second :=
    ⟨fun first second third below above => le_trans below above⟩
  exact List.pairwise_insertionSort _ _

theorem charEnd_le_of_chunkKey_le {first second : Chunk} (ordered : chunkKey first ≤ chunkKey second) :
    first.charEnd ≤ second.charEnd := by
  rcases Prod.Lex.toLex_le_toLex.mp ordered with below | same
  · exact Nat.le_of_lt below
  · exact Nat.le_of_eq same.1

theorem rangeChunks_sublist : (rangeChunks maxAgeHours allow documentId scope snapshot range).Sublist
    (documentChunks maxAgeHours allow documentId scope snapshot) :=
  List.filter_sublist

theorem rangeChunks_ends :
    (rangeChunks maxAgeHours allow documentId scope snapshot range).Pairwise fun first second =>
      first.charEnd ≤ second.charEnd :=
  (documentChunks_ordered.sublist rangeChunks_sublist).imp charEnd_le_of_chunkKey_le

/-- The chunk has a valid provenance. -/
def sourced (snapshot : Snapshot) (document : Document) (chunk : Chunk) : Bool :=
  validPassageProvenance (passageRow snapshot.database chunk document)

variable {rows : List Chunk}

/-- The chunks of a readable document are hydrated when their provenance is valid. -/
theorem lookup_hydrated
    (found : readableDocument maxAgeHours allow documentId scope snapshot = some document)
    (known : ∀ chunk ∈ rows, chunk ∈ documentChunks maxAgeHours allow documentId scope snapshot)
    {id : Uuid} {row : PassageRow} :
    (loadPassages snapshot.database maxAgeHours snapshot.now allow (rows.map Chunk.id) scope).lookup id =
        some row ↔
      ∃ chunk ∈ rows, chunk.id = id ∧ sourced snapshot document chunk = true ∧
        passageRow snapshot.database chunk document = row := by
  obtain ⟨stored, admits⟩ := readableDocument_some found
  obtain ⟨tenant, same, ready, permitted, narrowed⟩ := readable_iff.mp admits
  let reads : Reads := ⟨snapshot.database, snapshot.database, snapshot.now, snapshot.database,
    snapshot.now, snapshot.database, snapshot.now⟩
  have loaded := @lookup_loadPassages_iff ⟨[], maxAgeHours⟩ reads allow scope (rows.map Chunk.id) id row
  have selected := @mem_selectPassages_iff ⟨[], maxAgeHours⟩ reads allow scope (rows.map Chunk.id) row
  refine loaded.trans ?_
  rw [selected]
  constructor
  · rintro ⟨⟨chunk, member, other, storedOther, owner, listed, _, _, rfl⟩, valid, rfl⟩
    obtain ⟨listedChunk, row, ids⟩ := List.mem_map.mp listed
    have chunkMember := ((mem_documentChunks_iff found).mp (known listedChunk row)).1
    obtain rfl := List.inj_on_of_nodup_map snapshot.database.chunkKeys chunkMember member ids
    have documentOf := ((mem_documentChunks_iff found).mp (known listedChunk row)).2.2
    obtain rfl := List.inj_on_of_nodup_map snapshot.database.documentKeys storedOther stored
      (owner.trans (documentOf.trans same.symm))
    exact ⟨listedChunk, row, rfl, valid, rfl⟩
  · rintro ⟨chunk, listed, rfl, valid, rfl⟩
    obtain ⟨member, chunkTenant, owner⟩ := (mem_documentChunks_iff found).mp (known chunk listed)
    refine ⟨⟨chunk, member, document, stored, same.trans owner.symm, List.mem_map_of_mem listed, narrowed,
      ?_, rfl⟩, valid, rfl⟩
    simp only [permissionFilter, chunkTenant, ready, beq_self_eq_true, Bool.true_and]
    exact permitted

/-- The hydrated rows are as many as the chunks with a valid provenance. -/
theorem size_hydrated
    (found : readableDocument maxAgeHours allow documentId scope snapshot = some document)
    (distinct : (rows.map Chunk.id).Nodup)
    (known : ∀ chunk ∈ rows, chunk ∈ documentChunks maxAgeHours allow documentId scope snapshot) :
    (loadPassages snapshot.database maxAgeHours snapshot.now allow (rows.map Chunk.id) scope).size =
      (rows.filter (sourced snapshot document)).length := by
  have keys : ((rows.filter (sourced snapshot document)).map Chunk.id).Nodup :=
    distinct.sublist (List.filter_sublist.map Chunk.id)
  have same : (loadPassages snapshot.database maxAgeHours snapshot.now allow (rows.map Chunk.id)
      scope).keys.Perm ((rows.filter (sourced snapshot document)).map Chunk.id) := by
    refine (List.perm_ext_iff_of_nodup (AList.keys_nodup _) keys).mpr fun key => ?_
    rw [← AList.mem_keys, ← AList.lookup_isSome, Option.isSome_iff_exists]
    simp only [lookup_hydrated found known, List.mem_map, List.mem_filter]
    constructor
    · rintro ⟨_, chunk, listed, rfl, valid, _⟩
      exact ⟨chunk, ⟨listed, valid⟩, rfl⟩
    · rintro ⟨chunk, ⟨listed, valid⟩, rfl⟩
      exact ⟨_, chunk, listed, rfl, valid, rfl⟩
  rw [← Dict.keys_length, same.length_eq, List.length_map]

/-- This is the passage that a page shows for a chunk. -/
def shownPassage (snapshot : Snapshot) (document : Document) (chunk : Chunk) : RetrievedPassage :=
  readPassage document.id document.filename (passageRow snapshot.database chunk document)

/-- The chunks with a valid provenance become the passages of a page. -/
theorem passages_hydrated
    (found : readableDocument maxAgeHours allow documentId scope snapshot = some document)
    (limit : Nat)
    (known : ∀ chunk ∈ rows, chunk ∈ documentChunks maxAgeHours allow documentId scope snapshot)
    (valid : ∀ chunk ∈ rows, sourced snapshot document chunk = true) :
    ((rows.take limit).filterMap fun chunk =>
      ((loadPassages snapshot.database maxAgeHours snapshot.now allow (rows.map Chunk.id) scope).lookup
        chunk.id).map (readPassage documentId document.filename)) =
      (rows.take limit).map (shownPassage snapshot document) := by
  have same : document.id = documentId := (readable_iff.mp (readableDocument_some found).2).2.1
  have shown : ∀ chunk ∈ rows.take limit,
      ((loadPassages snapshot.database maxAgeHours snapshot.now allow (rows.map Chunk.id) scope).lookup
        chunk.id).map (readPassage documentId document.filename) =
        some (shownPassage snapshot document chunk) := by
    intro chunk member
    have listed := List.mem_of_mem_take member
    have loaded := (lookup_hydrated found known).mpr ⟨chunk, listed, rfl, valid chunk listed, rfl⟩
    rw [loaded, Option.map_some, shownPassage, same]
  rw [List.filterMap_congr shown]
  exact congrFun List.filterMap_eq_map _

/-- The page shows its chunks up to the first place that it returns. -/
structure Shows (snapshot : Snapshot) (document : Document) (stop : Option Int) (start : Int)
    (rows : List Chunk) (limit : Nat) (page : DocumentRead) : Prop where
  passages : page.passages = (rows.take limit).map (shownPassage snapshot document)
  last : page.nextStart = none → rows[limit]? = none
  more : ∀ next, page.nextStart = some next → ∃ chunk, rows[limit]? = some chunk ∧
    next < chunk.charEnd ∧ (∀ bound, stop = some bound → next < bound) ∧
      next = (((rows.take limit).map Chunk.charEnd).max?.map Int.ofNat).getD start

variable {page : DocumentRead}

/-- A page shows its passages, and a first row beyond them continues it. -/
theorem readPage_shows {total : Nat} {limit : Nat}
    (read : readPage documentId document total range ((rows.take limit).map
      (shownPassage snapshot document)) rows[limit]? = .ok page) :
    Shows snapshot document range.stop range.start rows limit page := by
  have ends : ((rows.take limit).map (shownPassage snapshot document)).map RetrievedPassage.charEnd =
      (rows.take limit).map Chunk.charEnd := by
    rw [List.map_map]
    rfl
  unfold readPage at read
  rw [ends] at read
  cases beyond : rows[limit]? with
  | none =>
      rw [beyond] at read
      obtain rfl := Except.ok.inj read
      exact ⟨rfl, fun _ => beyond, fun next continues =>
        (Option.some_ne_none next continues.symm).elim⟩
  | some chunk =>
      simp only [beyond] at read
      split at read
      · cases read
      · next continues =>
          obtain rfl := Except.ok.inj read
          simp only [Bool.or_eq_true, decide_eq_true_eq, not_or, not_le] at continues
          refine ⟨rfl, fun ended => (Option.some_ne_none _ ended).elim, fun next goes =>
            ⟨chunk, beyond, ?_⟩⟩
          obtain rfl := Option.some.inj goes
          refine ⟨continues.1, fun bound stops => ?_, rfl⟩
          have within := continues.2
          rw [stops, Option.any_some, decide_eq_true_eq] at within
          exact not_le.mp within

theorem ReadRange.selects_iff : range.selects chunk = true ↔
    range.start < chunk.charEnd ∧ ∀ bound, range.stop = some bound → (chunk.charStart : Int) < bound := by
  unfold ReadRange.selects
  rw [Bool.and_eq_true, decide_eq_true_eq, Option.all_eq_true]
  simp only [decide_eq_true_eq]

/-- A later start keeps the chunks whose ends lie behind it. -/
theorem rangeChunks_later {stop : Option Int} {maxPassages start next : Int} (later : start ≤ next) :
    rangeChunks maxAgeHours allow documentId scope snapshot ⟨next, stop, maxPassages⟩ =
      (rangeChunks maxAgeHours allow documentId scope snapshot ⟨start, stop, maxPassages⟩).filter
        fun chunk => decide (next < chunk.charEnd) := by
  unfold rangeChunks
  rw [List.filter_filter]
  apply List.filter_congr
  intro chunk _
  rw [Bool.eq_iff_iff, Bool.and_eq_true, decide_eq_true_eq, ReadRange.selects_iff, ReadRange.selects_iff]
  constructor
  · intro ⟨ahead, bounded⟩
    exact ⟨ahead, by simp only at *; omega, bounded⟩
  · intro ⟨ahead, _, bounded⟩
    exact ⟨ahead, bounded⟩

/-- The rows behind a page are the rows from its continuation, which lies behind its start. -/
theorem rangeChunks_continue {stop : Option Int} {maxPassages start next : Int} {limit : Nat}
    (listed : rangeChunks maxAgeHours allow documentId scope snapshot ⟨start, stop, maxPassages⟩ = rows)
    (positive : 0 < limit) (beyond : rows[limit]? = some chunk) (ahead : next < chunk.charEnd)
    (ends : next = (((rows.take limit).map Chunk.charEnd).max?.map Int.ofNat).getD start) :
    start < next ∧
      rangeChunks maxAgeHours allow documentId scope snapshot ⟨next, stop, maxPassages⟩ =
        rows.drop limit := by
  have ordered : rows.Pairwise fun first second => first.charEnd ≤ second.charEnd := by
    rw [← listed]
    exact rangeChunks_ends
  obtain ⟨bound, _⟩ := List.getElem?_eq_some_iff.mp beyond
  obtain ⟨first, rest, starts⟩ : ∃ first rest, rows.take limit = first :: rest :=
    List.exists_cons_of_length_pos (by rw [List.length_take]; omega)
  obtain ⟨top, largest⟩ : ∃ top, ((rows.take limit).map Chunk.charEnd).max? = some top := by
    rw [starts]
    exact ⟨_, rfl⟩
  obtain ⟨reached, limits⟩ := List.max?_eq_some_iff.mp largest
  rw [largest] at ends
  have firstMember : first ∈ rows := List.mem_of_mem_take (starts ▸ List.mem_cons_self)
  have firstAhead : start < first.charEnd := by
    rw [← listed] at firstMember
    exact (ReadRange.selects_iff.mp (List.mem_filter.mp firstMember).2).1
  have firstBelow : first.charEnd ≤ top := limits _ (List.mem_map_of_mem (starts ▸ List.mem_cons_self))
  have goesUp : start < next := by
    rw [ends, Option.map_some, Option.getD_some]
    exact lt_of_lt_of_le firstAhead (Int.ofNat_le.mpr firstBelow)
  refine ⟨goesUp, ?_⟩
  rw [rangeChunks_later goesUp.le, listed, ← List.take_append_drop limit rows, List.filter_append]
  have shown : (rows.take limit).filter (fun chunk => decide (next < chunk.charEnd)) = [] := by
    refine List.filter_eq_nil_iff.mpr fun other member => ?_
    have below := limits _ (List.mem_map_of_mem member)
    rw [decide_eq_true_eq, ends, Option.map_some, Option.getD_some]
    exact not_lt.mpr (Int.ofNat_le.mpr below)
  have left : (rows.drop limit).filter (fun chunk => decide (next < chunk.charEnd)) =
      rows.drop limit := by
    refine List.filter_eq_self.mpr fun other member => ?_
    rw [List.drop_eq_getElem_cons bound] at member
    have behind : chunk.charEnd ≤ other.charEnd := by
      rcases List.mem_cons.mp member with rfl | later
      · exact Nat.le_of_eq (congrArg Chunk.charEnd (List.getElem_eq_iff bound |>.mpr beyond).symm)
      · have pairs := (List.drop_eq_getElem_cons bound) ▸ ordered.sublist (List.drop_sublist limit rows)
        have below := (List.pairwise_cons.mp pairs).1 other later
        rwa [(List.getElem_eq_iff bound).mpr beyond] at below
    exact decide_eq_true (lt_of_lt_of_le ahead (Int.ofNat_le.mpr behind))
  rw [shown, List.nil_append, left, List.take_append_drop]

theorem malformed_iff : range.malformed = false ↔ 0 ≤ range.start ∧
    (∀ bound, range.stop = some bound → range.start < bound) ∧ 1 ≤ range.maxPassages ∧
      range.maxPassages ≤ 20 := by
  unfold ReadRange.malformed
  simp only [Bool.or_eq_false_iff, decide_eq_false_iff_not, not_lt, Option.any_eq_false]
  simp only [not_le, and_assoc]

section

variable {stop : Option Int} {maxPassages start : Int}
  (found : readableDocument maxAgeHours allow documentId scope snapshot = some document)
include found

/-- A read that finds the document loads the rows of its range. -/
theorem readDocument_still
    (listed : rangeChunks maxAgeHours allow documentId scope snapshot range = rows) :
    readDocument maxAgeHours allow documentId scope (.still snapshot) range =
      if range.malformed then .error rangeDetail
      else if (rows.take (range.maxPassages.toNat + 1)).all (sourced snapshot document) then
        (readPage documentId document (totalLength allow documentId snapshot) range
          ((rows.take range.maxPassages.toNat).map (shownPassage snapshot document))
          rows[range.maxPassages.toNat]?).map some
      else .ok none := by
  have part : (rows.take (range.maxPassages.toNat + 1)).Sublist
      (documentChunks maxAgeHours allow documentId scope snapshot) := by
    rw [← listed]
    exact (List.take_sublist _ _).trans rangeChunks_sublist
  have known : ∀ chunk ∈ rows.take (range.maxPassages.toNat + 1),
      chunk ∈ documentChunks maxAgeHours allow documentId scope snapshot := fun chunk => part.mem
  have distinct := documentChunks_ids.sublist (part.map Chunk.id)
  unfold readDocument DocumentReads.still
  simp only [found, listed, Option.isNone_some, Bool.false_eq_true, if_false]
  by_cases wrong : range.malformed = true
  · rw [if_pos wrong, if_pos wrong]
  · rw [if_neg wrong, if_neg wrong, size_hydrated found distinct known]
    by_cases valid : (rows.take (range.maxPassages.toNat + 1)).all (sourced snapshot document) = true
    · have complete := List.length_filter_eq_length_iff.mpr (List.all_eq_true.mp valid)
      rw [if_pos valid, if_neg (not_not.mpr complete),
        passages_hydrated found _ known (List.all_eq_true.mp valid), List.take_take, List.getElem?_take]
      simp
    · rw [if_neg valid, if_pos]
      intro complete
      exact valid (List.all_eq_true.mpr (List.length_filter_eq_length_iff.mp complete))

/-- A fetched page shows the rows of its range. -/
theorem fetchPage_shows {next : Option Int}
    (fetched : fetchPage maxAgeHours allow documentId scope snapshot stop maxPassages start =
      .ok (page, next)) :
    0 < maxPassages.toNat ∧ page.nextStart = next ∧ Shows snapshot document stop start
      (rangeChunks maxAgeHours allow documentId scope snapshot ⟨start, stop, maxPassages⟩)
      maxPassages.toNat page := by
  unfold fetchPage at fetched
  rw [readDocument_still found rfl] at fetched
  by_cases wrong : (ReadRange.mk start stop maxPassages).malformed = true
  · rw [if_pos wrong] at fetched
    cases fetched
  · have formed := malformed_iff.mp (Bool.not_eq_true _ ▸ wrong)
    rw [if_neg wrong] at fetched
    split at fetched
    · cases fetched
    · cases fetched
    · next shown read =>
        obtain ⟨rfl, rfl⟩ := Prod.mk.inj (Except.ok.inj fetched)
        split at read
        · obtain ⟨other, here, same⟩ := (map_eq_ok_iff _ _ _).mp read
          obtain rfl := Option.some.inj same
          have positive := formed.2.2.1
          simp only at positive
          exact ⟨by omega, rfl, readPage_shows here⟩
        · cases read

/-- A readable document is unavailable only when a row of the range is without a valid provenance. -/
theorem fetchPage_unavailable
    (fetched : fetchPage maxAgeHours allow documentId scope snapshot stop maxPassages start =
      .error .unavailable) :
    ∃ chunk ∈ rangeChunks maxAgeHours allow documentId scope snapshot ⟨start, stop, maxPassages⟩,
      sourced snapshot document chunk = false := by
  unfold fetchPage at fetched
  rw [readDocument_still found rfl] at fetched
  by_contra valid
  push Not at valid
  have complete : ((rangeChunks maxAgeHours allow documentId scope snapshot
      ⟨start, stop, maxPassages⟩).take (maxPassages.toNat + 1)).all (sourced snapshot document) = true := by
    refine List.all_eq_true.mpr fun chunk member => ?_
    exact Bool.ne_false_iff.mp (valid chunk (List.mem_of_mem_take member))
  simp only [complete, if_true] at fetched
  split at fetched
  · cases fetched
  · next none =>
      split at none
      · cases none
      · obtain ⟨other, _, same⟩ := (map_eq_ok_iff _ _ _).mp none
        cases same
  · cases fetched

/-- Every continuation lies behind the start of its page. -/
theorem fetchPage_ahead {next : Int}
    (fetched : fetchPage maxAgeHours allow documentId scope snapshot stop maxPassages start =
      .ok (page, some next)) : start < next := by
  obtain ⟨positive, continues, shows⟩ := fetchPage_shows found fetched
  obtain ⟨chunk, beyond, ahead, _, ends⟩ := shows.more next continues
  exact (rangeChunks_continue rfl positive beyond ahead ends).1

/-- The pages of a readable document show the passages of the chunks in the range. -/
theorem fetchPage_pages (stop : Option Int) (maxPassages bottom : Int) :
    Pages (fetchPage maxAgeHours allow documentId scope snapshot stop maxPassages) (bottom ≤ ·)
      (fun start => (rangeChunks maxAgeHours allow documentId scope snapshot
        ⟨start, stop, maxPassages⟩).map (shownPassage snapshot document))
      DocumentRead.passages where
  last start page _ fetched := by
    obtain ⟨_, ended, shows⟩ := fetchPage_shows found fetched
    have short := List.getElem?_eq_none_iff.mp (shows.last ended)
    rw [shows.passages, List.take_of_length_le short]
  more start page next above fetched := by
    obtain ⟨positive, continues, shows⟩ := fetchPage_shows found fetched
    obtain ⟨chunk, beyond, ahead, _, ends⟩ := shows.more next continues
    have behind := (rangeChunks_continue rfl positive beyond ahead ends).2
    obtain ⟨bound, _⟩ := List.getElem?_eq_some_iff.mp beyond
    refine ⟨above.trans (fetchPage_ahead found fetched).le, ?_, ?_⟩
    · rw [behind, shows.passages, ← List.map_append, List.take_append_drop]
    · rw [shows.passages, ← List.length_pos_iff, List.length_map, List.length_take]
      omega

end

/-- This is the chunk of a text that the row stores. -/
def Chunk.textChunk (chunk : Chunk) : Ingestion.TextChunk :=
  ⟨chunk.ord, chunk.text, chunk.charStart, chunk.charEnd⟩

/-- The chunk rows of the document are the chunks of the text in any order. -/
def Chunked (snapshot : Snapshot) (allow : AllowSet) (documentId : Uuid) (text : Text) : Prop :=
  ∃ size overlap chunks, Ingestion.chunkText text size overlap = .ok chunks ∧
    ((snapshot.database.chunks.filter fun chunk =>
      chunk.tenantId == allow.tenantId && chunk.documentId == documentId).map Chunk.textChunk).Perm chunks

/-- The rows of a readable document are those of the table in their order. -/
theorem documentChunks_perm
    (found : readableDocument maxAgeHours allow documentId scope snapshot = some document) :
    (documentChunks maxAgeHours allow documentId scope snapshot).Perm
      (snapshot.database.chunks.filter fun chunk =>
        chunk.tenantId == allow.tenantId && chunk.documentId == documentId) := by
  unfold documentChunks
  simp only [found, Option.isSome_some, Bool.and_true]
  exact List.perm_insertionSort _ _

variable {text : Text}

/-- The chunks of a text have ends that go up. -/
theorem documentChunks_ascend
    (found : readableDocument maxAgeHours allow documentId scope snapshot = some document)
    (chunked : Chunked snapshot allow documentId text) :
    (documentChunks maxAgeHours allow documentId scope snapshot).Pairwise fun first second =>
      first.charEnd < second.charEnd := by
  obtain ⟨size, overlap, chunks, cut, rows⟩ := chunked
  have apart : (chunks.map Ingestion.TextChunk.charEnd).Nodup := by
    refine List.pairwise_map.mpr ((Ingestion.chunkText_slices cut).ascending.imp ?_)
    exact fun ascends => Nat.ne_of_lt ascends.2
  have stored := ((documentChunks_perm found).map Chunk.textChunk).trans rows
  have ends := (stored.map Ingestion.TextChunk.charEnd).nodup_iff.mpr apart
  rw [List.map_map] at ends
  refine ((documentChunks_ordered.imp charEnd_le_of_chunkKey_le).and (List.pairwise_map.mp ends)).imp ?_
  exact fun both => Nat.lt_of_le_of_ne both.1 both.2

/-- Rows whose ends go up from the start never refuse a page without an end. -/
theorem readPage_answers {start maxPassages : Int}
    (ascend : rows.Pairwise fun first second => first.charEnd < second.charEnd)
    (ahead : ∀ chunk ∈ rows, start < chunk.charEnd) (total limit : Nat) :
    ∃ page, readPage documentId document total ⟨start, none, maxPassages⟩
      ((rows.take limit).map (shownPassage snapshot document)) rows[limit]? = .ok page := by
  have ends : ((rows.take limit).map (shownPassage snapshot document)).map RetrievedPassage.charEnd =
      (rows.take limit).map Chunk.charEnd := by
    rw [List.map_map]
    rfl
  unfold readPage
  rw [ends]
  cases beyond : rows[limit]? with
  | none => exact ⟨_, rfl⟩
  | some chunk =>
      obtain ⟨bound, here⟩ := List.getElem?_eq_some_iff.mp beyond
      have behind : (((rows.take limit).map Chunk.charEnd).max?.map Int.ofNat).getD start <
          chunk.charEnd := by
        cases largest : ((rows.take limit).map Chunk.charEnd).max? with
        | none => exact ahead chunk (List.mem_of_getElem? beyond)
        | some top =>
            obtain ⟨other, member, rfl⟩ := List.mem_map.mp (List.max?_eq_some_iff.mp largest).1
            have split := List.take_append_drop limit rows
            rw [List.drop_eq_getElem_cons bound, here] at split
            rw [← split] at ascend
            have below := (List.pairwise_append.mp ascend).2.2 other member chunk List.mem_cons_self
            exact Int.ofNat_lt.mpr below
      simp only [Option.any_none, Bool.or_false, decide_eq_true_eq]
      rw [if_neg (not_le.mpr behind)]
      exact ⟨_, rfl⟩

/-- No page of a chunked text without an end raises an error. -/
theorem fetchPage_never_raises
    (found : readableDocument maxAgeHours allow documentId scope snapshot = some document)
    (chunked : Chunked snapshot allow documentId text) {maxPassages start : Int}
    (starts : 0 ≤ start) (fits : 1 ≤ maxPassages ∧ maxPassages ≤ 20) (detail : Text) :
    fetchPage maxAgeHours allow documentId scope snapshot none maxPassages start ≠
      .error (.raised detail) := by
  intro raises
  have formed : (ReadRange.mk start none maxPassages).malformed = false :=
    malformed_iff.mpr ⟨starts, nofun, fits⟩
  have ahead : ∀ chunk ∈ rangeChunks maxAgeHours allow documentId scope snapshot
      ⟨start, none, maxPassages⟩, start < chunk.charEnd := fun chunk member =>
    (ReadRange.selects_iff.mp (List.mem_filter.mp member).2).1
  have ascend : (rangeChunks maxAgeHours allow documentId scope snapshot
      ⟨start, none, maxPassages⟩).Pairwise fun first second => first.charEnd < second.charEnd :=
    (documentChunks_ascend found chunked).sublist rangeChunks_sublist
  obtain ⟨page, answers⟩ : ∃ page, readPage documentId document (totalLength allow documentId snapshot)
      ⟨start, none, maxPassages⟩ _ _ = .ok page :=
    readPage_answers ascend ahead _ maxPassages.toNat
  unfold fetchPage at raises
  rw [readDocument_still found rfl, formed, if_neg Bool.false_ne_true] at raises
  simp only at raises
  rw [answers] at raises
  split at raises
  · next failed =>
      split at failed
      · cases failed
      · cases failed
  · cases raises
  · cases raises

/-- These are the stored chunks of the document in the range, each once and in their order. -/
structure InRange (snapshot : Snapshot) (allow : AllowSet) (documentId : Uuid) (start : Int)
    (stop : Option Int) (chunks : List Chunk) : Prop where
  member : ∀ chunk, chunk ∈ chunks ↔ chunk ∈ snapshot.database.chunks ∧
    chunk.tenantId = allow.tenantId ∧ chunk.documentId = documentId ∧ start < chunk.charEnd ∧
      ∀ bound, stop = some bound → (chunk.charStart : Int) < bound
  once : chunks.Nodup
  ordered : chunks.Pairwise fun first second => chunkKey first ≤ chunkKey second

theorem rangeChunks_inRange
    (found : readableDocument maxAgeHours allow documentId scope snapshot = some document)
    (start : Int) (stop : Option Int) (maxPassages : Int) :
    InRange snapshot allow documentId start stop
      (rangeChunks maxAgeHours allow documentId scope snapshot ⟨start, stop, maxPassages⟩) where
  member chunk := by
    unfold rangeChunks
    rw [List.mem_filter, mem_documentChunks_iff found, ReadRange.selects_iff]
    simp only [and_assoc]
  once := (List.Nodup.of_map Chunk.id documentChunks_ids).sublist rangeChunks_sublist
  ordered := documentChunks_ordered.sublist rangeChunks_sublist

/-- A place of the text that is not blank lies in a chunk, whose text is a slice of it. -/
theorem Chunked.reaches (chunked : Chunked snapshot allow documentId text) {place : Nat} {c : Char}
    (here : text[place]? = some c) (plain : isSpace c = false) :
    ∃ chunk ∈ snapshot.database.chunks, chunk.tenantId = allow.tenantId ∧
      chunk.documentId = documentId ∧ chunk.charStart ≤ place ∧ place < chunk.charEnd ∧
        chunk.text = Ingestion.slice text chunk.charStart chunk.charEnd := by
  obtain ⟨size, overlap, chunks, cut, rows⟩ := chunked
  have covers : Ingestion.covered chunks place = true := by
    by_contra uncovered
    rw [Ingestion.chunkText_uncovered cut here (Bool.not_eq_true _ ▸ uncovered)] at plain
    cases plain
  obtain ⟨part, member, spans⟩ := List.any_eq_true.mp covers
  obtain ⟨chunk, stored, rfl⟩ := List.mem_map.mp (rows.mem_iff.mpr member)
  simp only [List.mem_filter, Bool.and_eq_true, beq_iff_eq] at stored
  simp only [Bool.and_eq_true, decide_eq_true_eq] at spans
  exact ⟨chunk, stored.1, stored.2.1, stored.2.2, spans.1, spans.2,
    (Ingestion.chunkText_slices cut).sliced _ member⟩

/-- A reader that follows the continuations sees every chunk of the range once and in order, unless a
page raises its error or a row of the range has no valid provenance; the error never occurs for the
chunks of a text without an end, whose whole text is reached. -/
theorem readDocument_visits
    (found : readableDocument maxAgeHours allow documentId scope snapshot = some document)
    (start : Int) (stop : Option Int) (maxPassages : Int) {fuel : Nat}
    (enough : snapshot.database.chunks.length < fuel) :
    ∃ chunks, InRange snapshot allow documentId start stop chunks ∧
      match follow (fetchPage maxAgeHours allow documentId scope snapshot stop maxPassages) fuel start with
      | .finished pages =>
          pages.flatMap DocumentRead.passages = chunks.map (shownPassage snapshot document) ∧
            (start :: pages.filterMap DocumentRead.nextStart).IsChain (· < ·) ∧
            ∀ text, Chunked snapshot allow documentId text → stop = none →
              ∀ (place : Nat) c, text[place]? = some c → isSpace c = false → start ≤ place →
                ∃ passage ∈ pages.flatMap DocumentRead.passages, passage.charStart ≤ place ∧
                  place < passage.charEnd ∧
                    passage.text = Ingestion.slice text passage.charStart passage.charEnd
      | .failed (.raised _) => stop = none → 0 ≤ start → 1 ≤ maxPassages → maxPassages ≤ 20 →
          ∀ text, ¬ Chunked snapshot allow documentId text
      | .failed .unavailable => ∃ chunk ∈ chunks, sourced snapshot document chunk = false
      | .unfinished => False := by
  have inRange := rangeChunks_inRange found start stop maxPassages
  refine ⟨_, inRange, ?_⟩
  have short : ((rangeChunks maxAgeHours allow documentId scope snapshot
      ⟨start, stop, maxPassages⟩).map (shownPassage snapshot document)).length < fuel := by
    have part : (rangeChunks maxAgeHours allow documentId scope snapshot
        ⟨start, stop, maxPassages⟩).length ≤ _ := rangeChunks_sublist.length_le
    have rows := List.length_filter_le (fun chunk : Chunk =>
      chunk.tenantId == allow.tenantId && chunk.documentId == documentId) snapshot.database.chunks
    rw [(documentChunks_perm found).length_eq] at part
    rw [List.length_map]
    omega
  have cases := (fetchPage_pages found stop maxPassages start).follow_cases le_rfl short
  obtain ⟨pages, followed, shown⟩ | ⟨error, place, above, followed, fails⟩ := cases
  · rw [followed]
    refine ⟨shown, ?_, ?_⟩
    · refine follow_ascends ?_ (fun place page next => fetchPage_ahead found) followed
      exact fun place page next fetched => (fetchPage_shows found fetched).2.1
    · intro text chunked endless place c here plain behind
      obtain ⟨chunk, stored, tenant, owner, from_, to_, slices⟩ := chunked.reaches here plain
      have listed := (inRange.member chunk).mpr ⟨stored, tenant, owner, by omega, by simp [endless]⟩
      rw [shown]
      exact ⟨_, List.mem_map_of_mem listed, from_, to_, slices⟩
  · rw [followed]
    cases error with
    | raised detail =>
        intro endless starts least most text chunked
        subst endless
        exact fetchPage_never_raises found chunked (starts.trans above) ⟨least, most⟩ detail fails
    | unavailable =>
        obtain ⟨chunk, member, invalid⟩ := fetchPage_unavailable found fails
        refine ⟨chunk, ?_, invalid⟩
        rw [rangeChunks_later above] at member
        exact List.mem_of_mem_filter member

section Example

/-- This snapshot holds one chunk of a plain document. -/
def storedSnapshot (chunk : Chunk) : Snapshot where
  database := { mirroredDatabase [] with chunks := [chunk], chunkKeys := by simp }
  now := 2000

theorem readableDocument_stored (chunk : Chunk) :
    readableDocument 24 (.forUser (uuid 2) (uuid 8) []) (uuid 1) ⟨none, none, none⟩
      (storedSnapshot chunk) = some mirroredDocument := by
  have permitted : documentPermitted [] 24 2000 (.forUser (uuid 2) (uuid 8) []) mirroredDocument =
      true := by decide
  have admits : readable 24 (.forUser (uuid 2) (uuid 8) []) (uuid 1) ⟨none, none, none⟩
      (storedSnapshot chunk) mirroredDocument = true :=
    readable_iff.mpr ⟨rfl, rfl, rfl, permitted, rfl⟩
  exact List.find?_cons_of_pos admits

/-- A document of one chunk is read in one page. -/
theorem readDocument_visits_stored :
    ∃ pages, follow (fetchPage 24 (.forUser (uuid 2) (uuid 8) []) (uuid 1) ⟨none, none, none⟩
        (storedSnapshot (mirroredChunk ['f'])) none 5) 2 0 = .finished pages ∧
      (pages.flatMap DocumentRead.passages).map RetrievedPassage.text = [['b']] := by
  have enough : (storedSnapshot (mirroredChunk ['f'])).database.chunks.length < 2 := Nat.lt_succ_self 1
  obtain ⟨chunks, inRange, visits⟩ :=
    readDocument_visits (readableDocument_stored (mirroredChunk ['f'])) 0 none 5 enough
  have same : chunks = [mirroredChunk ['f']] := by
    refine List.perm_singleton.mp ((List.perm_ext_iff_of_nodup inRange.once
      (List.nodup_singleton _)).mpr fun chunk => (inRange.member chunk).trans ⟨And.left, ?_⟩)
    intro member
    obtain rfl := List.mem_singleton.mp member
    exact ⟨member, rfl, rfl, by decide, by simp⟩
  obtain ⟨pages, followed⟩ : ∃ pages, follow (fetchPage 24 (.forUser (uuid 2) (uuid 8) []) (uuid 1)
      ⟨none, none, none⟩ (storedSnapshot (mirroredChunk ['f'])) none 5) 2 0 = .finished pages := ⟨_, rfl⟩
  rw [followed] at visits
  refine ⟨pages, followed, ?_⟩
  rw [visits.1, same]
  rfl

/-- A chunk of a plain document with the name of a speaker makes it unavailable without an error. -/
theorem readDocument_unavailable :
    ∃ snapshot document chunk, readableDocument 24 (.forUser (uuid 2) (uuid 8) []) (uuid 1)
        ⟨none, none, none⟩ snapshot = some document ∧
      InRange snapshot (.forUser (uuid 2) (uuid 8) []) (uuid 1) 0 none [chunk] ∧
      ∀ fuel, follow (fetchPage 24 (.forUser (uuid 2) (uuid 8) []) (uuid 1) ⟨none, none, none⟩ snapshot
        none 5) (fuel + 1) 0 = .failed .unavailable := by
  let chunk : Chunk := { mirroredChunk ['f'] with speakerName := some ['s'] }
  have found := readableDocument_stored chunk
  have inRange : InRange (storedSnapshot chunk) (.forUser (uuid 2) (uuid 8) []) (uuid 1) 0 none [chunk] := by
    refine ⟨fun other => ⟨fun member => ?_, And.left⟩, List.nodup_singleton _, List.pairwise_singleton _ _⟩
    obtain rfl := List.mem_singleton.mp member
    exact ⟨member, rfl, rfl, by decide, by simp⟩
  have missing : fetchPage 24 (.forUser (uuid 2) (uuid 8) []) (uuid 1) ⟨none, none, none⟩
      (storedSnapshot chunk) none 5 0 = .error .unavailable := rfl
  refine ⟨_, _, chunk, found, inRange, fun fuel => ?_⟩
  unfold follow
  rw [missing]

end Example

end LumenCopilot.Retrieval

namespace LumenCopilot.Retrieval

open Python Library

variable {maxAgeHours : Nat} {allow : AllowSet} {scope : Scope} {snapshot : Snapshot} {reader : NameReader}

/-- A loaded row comes from a chunk of a permitted document in the scope. -/
theorem loadPassages_row {database : Database} {now : Int} {chunkIds : List Uuid} {id : Uuid}
    {row : PassageRow}
    (found : (loadPassages database maxAgeHours now allow chunkIds scope).lookup id = some row) :
    ∃ chunk ∈ database.chunks, ∃ document ∈ database.documents, document.id = chunk.documentId ∧
      documentScope scope.collectionIds scope.sourceIds scope.documentIds document = true ∧
        permissionFilter database maxAgeHours now allow chunk document = true ∧
          passageRow database chunk document = row := by
  let reads : Reads := ⟨database, database, now, database, now, database, now⟩
  have selected := ((@lookup_loadPassages_iff ⟨[], maxAgeHours⟩ reads allow scope chunkIds id row).mp
    found).1
  obtain ⟨chunk, stored, document, documented, owner, _, inside, passes, same⟩ :=
    (@mem_selectPassages_iff ⟨[], maxAgeHours⟩ reads allow scope chunkIds row).mp selected
  exact ⟨chunk, stored, document, documented, owner, inside, passes, same⟩

/-- A row names a document that the statement selects. -/
def RowOf (maxAgeHours : Nat) (allow : AllowSet) (scope : Scope) (snapshot : Snapshot) (row : DocumentRow) :
    Prop :=
  ∃ document ∈ snapshot.database.documents, visible maxAgeHours allow scope snapshot document = true ∧
    row = ⟨document.id, document.filename⟩

/-- A text is the start of the chunks of a document that the statement selects. -/
def TextOf (maxAgeHours : Nat) (allow : AllowSet) (scope : Scope) (snapshot : Snapshot)
    (text : DocumentText) : Prop :=
  ∃ document ∈ snapshot.database.documents, visible maxAgeHours allow scope snapshot document = true ∧
    text.documentId = document.id ∧ text.documentName = document.filename ∧
      ∃ chunks : List Chunk, (∀ chunk ∈ chunks, chunk ∈ snapshot.database.chunks ∧
        chunk.documentId = document.id) ∧ text.text <+: chunks.flatMap Chunk.text

theorem mem_namedRows {documents : List Document} {k : Nat} {row : DocumentRow}
    (member : row ∈ namedRows reader documents k) :
    ∃ document ∈ documents, row = ⟨document.id, document.filename⟩ := by
  obtain ⟨document, listed, rfl⟩ := List.mem_map.mp member
  exact ⟨document, (List.mem_insertionSort _).mp (List.mem_of_mem_take listed), rfl⟩

theorem visible_of_ready {document : Document}
    (ready : visibleReady maxAgeHours allow scope snapshot document = true) :
    visible maxAgeHours allow scope snapshot document = true :=
  (Bool.and_eq_true_iff.mp ready).1

theorem documentSearch_rows {nameOrQuery : Text} {k : Nat} {row : DocumentRow}
    (member : row ∈ documentSearch maxAgeHours allow scope reader snapshot nameOrQuery k) :
    RowOf maxAgeHours allow scope snapshot row := by
  obtain ⟨document, listed, rfl⟩ := mem_namedRows member
  obtain ⟨stored, matching⟩ := List.mem_filter.mp listed
  exact ⟨document, stored, visible_of_ready (Bool.and_eq_true_iff.mp matching).1, rfl⟩

theorem listDocuments_rows {k : Nat} {row : DocumentRow}
    (member : row ∈ listDocuments maxAgeHours allow scope reader snapshot k) :
    RowOf maxAgeHours allow scope snapshot row := by
  obtain ⟨document, listed, rfl⟩ := mem_namedRows member
  obtain ⟨stored, ready⟩ := List.mem_filter.mp listed
  exact ⟨document, stored, visible_of_ready ready, rfl⟩

theorem documentsByExactName_rows {name : Text} {k : Nat} {row : DocumentRow}
    (member : row ∈ documentsByExactName maxAgeHours allow scope reader snapshot name k) :
    RowOf maxAgeHours allow scope snapshot row := by
  obtain ⟨document, listed, rfl⟩ := mem_namedRows member
  obtain ⟨stored, matching⟩ := List.mem_filter.mp listed
  exact ⟨document, stored, visible_of_ready (Bool.and_eq_true_iff.mp matching).1, rfl⟩

/-- A loaded text belongs to a document that the statement selects. -/
theorem loadDocumentText_textOf {documentId : Uuid} {text : DocumentText}
    (loaded : loadDocumentText maxAgeHours allow scope snapshot documentId = some text) :
    TextOf maxAgeHours allow scope snapshot text := by
  obtain ⟨document, found, rfl⟩ := Option.map_eq_some_iff.mp loaded
  have conditions := List.find?_some found
  rw [Bool.and_eq_true] at conditions
  refine ⟨document, List.mem_of_find?_eq_some found, visible_of_ready conditions.1, rfl, rfl, _, ?_,
    List.prefix_refl _⟩
  intro chunk member
  rw [List.mem_insertionSort, List.mem_filter, Bool.and_eq_true, beq_iff_eq] at member
  exact ⟨member.1, member.2.1⟩

/-- These are the snapshots of the statements of an attempt that return a document. -/
def ResolveReads.snapshots (reads : ResolveReads) : List Snapshot :=
  [reads.document, reads.containing, reads.names, reads.named]

/-- A resolution discloses documents that its statements select. -/
structure Resolves (maxAgeHours : Nat) (allow : AllowSet) (scope : Scope) (snapshots : List Snapshot)
    (resolution : DocumentResolution) : Prop where
  document : ∀ text, resolution.document = some text →
    ∃ snapshot ∈ snapshots, TextOf maxAgeHours allow scope snapshot text
  candidates : ∀ row ∈ resolution.candidates,
    ∃ snapshot ∈ snapshots, RowOf maxAgeHours allow scope snapshot row

theorem Resolves.nothing {snapshots : List Snapshot} : Resolves maxAgeHours allow scope snapshots {} where
  document _ none := by cases none
  candidates _ member := (List.not_mem_nil member).elim

theorem Resolves.of_load {snapshots : List Snapshot} {documentId : Uuid} (listed : snapshot ∈ snapshots) :
    Resolves maxAgeHours allow scope snapshots
      { document := loadDocumentText maxAgeHours allow scope snapshot documentId } where
  document _ loaded := ⟨snapshot, listed, loadDocumentText_textOf loaded⟩
  candidates _ member := (List.not_mem_nil member).elim

theorem Resolves.mono {first second : List Snapshot} {resolution : DocumentResolution}
    (resolves : Resolves maxAgeHours allow scope first resolution) (part : first ⊆ second) :
    Resolves maxAgeHours allow scope second resolution where
  document text loaded := (resolves.document text loaded).imp fun _ found => ⟨part found.1, found.2⟩
  candidates row member := (resolves.candidates row member).imp fun _ found => ⟨part found.1, found.2⟩

theorem resolveAttempt_resolves {reads : ResolveReads} {normalized : Text}
    {resolution : DocumentResolution}
    (answer : resolveAttempt maxAgeHours allow scope reader reads normalized = some resolution) :
    Resolves maxAgeHours allow scope reads.snapshots resolution := by
  unfold resolveAttempt at answer
  split at answer
  · next documentId _ =>
      split at answer
      · next document loaded =>
          obtain rfl := Option.some.inj answer
          rw [← loaded]
          exact Resolves.of_load (by simp [ResolveReads.snapshots])
      · obtain rfl := Option.some.inj answer
        cases documentIdForPermittedChunk maxAgeHours allow scope reads.chunk documentId with
        | none => exact Resolves.nothing
        | some containing =>
            have listed : reads.containing ∈ reads.snapshots := by simp [ResolveReads.snapshots]
            exact Resolves.of_load listed
  · split at answer
    · cases answer
    · obtain rfl := Option.some.inj answer
      exact Resolves.of_load (by simp [ResolveReads.snapshots])
    · obtain rfl := Option.some.inj answer
      constructor
      · intro text none
        cases none
      · intro row member
        exact ⟨reads.names, by simp [ResolveReads.snapshots], documentsByExactName_rows member⟩

/-- Every resolution of a handle is confined to the scope. -/
theorem resolveDocumentText_resolves {first second : ResolveReads} {handle : Text} :
    Resolves maxAgeHours allow scope (first.snapshots ++ second.snapshots)
      (resolveDocumentText maxAgeHours allow scope reader first second handle) := by
  unfold resolveDocumentText
  simp only
  split
  · exact Resolves.nothing
  · cases literal : resolveAttempt maxAgeHours allow scope reader first (reader.normalize handle true) with
    | some resolution =>
        exact (resolveAttempt_resolves literal).mono (List.subset_append_left _ _)
    | none =>
        simp only [Option.orElse_none]
        split
        · exact Resolves.nothing
        · cases tolerant : resolveAttempt maxAgeHours allow scope reader second
            (reader.normalize handle false) with
          | none => exact Resolves.nothing
          | some resolution =>
              exact (resolveAttempt_resolves tolerant).mono (List.subset_append_right _ _)

end LumenCopilot.Retrieval
