import LumenCopilot.Proof.Media.Speakers
import LumenCopilot.Proof.Media.Utterances
import LumenCopilot.Proof.Media.Windows

namespace LumenCopilot.Media

open Python Library

variable {table : FoldTable} {durationMs overlapMs : Int} {chunks : List ReadChunk}
  {state : Stitching} {key : WordKey}

/-- These are the words of a chunk with their speakers. -/
def ReadChunk.stitched (chunk : ReadChunk) : List StitchedWord :=
  chunk.words.map fun word => ⟨word.text, word.startMs, word.endMs,
    (chunk.labels.lookup word.label).getD [], word.confidence⟩

/-- No word intersects the audio that neighbouring chunks share. -/
def ClearOfOverlaps (chunks : List ReadChunk) : Prop :=
  ∀ index previous next, chunks[index]? = some previous → chunks[index + 1]? = some next →
    ∀ chunk ∈ chunks, ∀ word ∈ chunk.words,
      ¬ (word.startMs < previous.span.endMs ∧ next.span.startMs < word.endMs)

/-- The output keeps every utterance exactly once. -/
structure StitchedOnce (table : FoldTable) (durationMs : Int) (state : Stitching)
    (words : List StitchedWord) : Prop where
  partitions : Partitions durationMs (state.chunks.map ReadChunk.span)
  utterances : Utterances table durationMs state.chunks (state.picked durationMs)
  contributes : ∃ contributed, List.Forall₂ (fun key word => stitchedWord state.chunks key = some word)
    (state.picked durationMs) contributed ∧ words.Perm contributed
  sorted : words.Pairwise fun first second => first.startMs < second.startMs ∨
    first.startMs = second.startMs ∧ first.endMs ≤ second.endMs
  within : ∀ word ∈ words, 0 ≤ word.startMs ∧ word.startMs < word.endMs ∧ word.endMs ≤ durationMs
  clear : ClearOfOverlaps state.chunks → words =
    sortedBy (fun word => toLex (word.startMs, word.endMs)) (state.chunks.flatMap ReadChunk.stitched)
  exact : ClearOfOverlaps state.chunks →
    (∀ chunk ∈ state.chunks, chunk.words.Pairwise fun first second =>
      first.startMs = second.startMs → first.endMs ≤ second.endMs) →
    words = state.chunks.flatMap ReadChunk.stitched

/-- Every label of every chunk has an id. -/
def Labelled (chunks : List ReadChunk) : Prop :=
  ∀ chunk ∈ chunks, ∀ word ∈ chunk.words, word.label ∈ chunk.labels

theorem Stitching.Holds.labelled (holds : state.Holds table) : Labelled state.chunks := by
  intro chunk member word listed
  obtain ⟨index, found⟩ := List.getElem?_of_mem member
  exact ((holds.maps index chunk found).labelled word.label).mpr (List.mem_map_of_mem listed)

/-- This is the word of a key with its speaker. -/
theorem stitchedWord_eq (labelled : Labelled chunks) {chunk : ReadChunk} {chunkIndex : Nat}
    (found : chunks[chunkIndex]? = some chunk) (wordIndex : Nat) :
    stitchedWord chunks (wordKey chunkIndex wordIndex) = chunk.stitched[wordIndex]? := by
  show (chunks[chunkIndex]?.bind fun chunk => chunk.words[wordIndex]?.bind fun word =>
    (chunk.labels.lookup word.label).bind fun speaker =>
      some (⟨word.text, word.startMs, word.endMs, speaker, word.confidence⟩ : StitchedWord)) = _
  rw [found, Option.bind_some, ReadChunk.stitched, List.getElem?_map]
  cases spoken : chunk.words[wordIndex]? with
  | none => rfl
  | some word =>
      have known := labelled chunk (List.mem_of_getElem? found) word (List.mem_of_getElem? spoken)
      obtain ⟨speaker, speaks⟩ := Option.isSome_iff_exists.mp (AList.lookup_isSome.mpr known)
      simp [speaks]

theorem stitchedWord_some (labelled : Labelled chunks) (member : key ∈ wordKeys chunks) :
    ∃ word, stitchedWord chunks key = some word := by
  obtain ⟨chunk, found, inside⟩ := mem_wordKeys.mp member
  have same := stitchedWord_eq labelled found (ofLex key).2
  have within : (ofLex key).2 < chunk.stitched.length := by
    rw [ReadChunk.stitched, List.length_map]
    exact inside
  rw [List.getElem?_eq_getElem within] at same
  exact ⟨_, same⟩

/-- Every item of a list contributes when the function gives it a result. -/
theorem forall₂_filterMap {α β : Type} {f : α → Option β} {items : List α}
    (each : ∀ item ∈ items, ∃ result, f item = some result) :
    List.Forall₂ (fun item result => f item = some result) items (items.filterMap f) := by
  induction items with
  | nil => exact List.Forall₂.nil
  | cons item items ih =>
      obtain ⟨result, found⟩ := each item List.mem_cons_self
      rw [List.filterMap_cons_some found]
      exact List.Forall₂.cons found
        (ih fun other member => each other (List.mem_cons_of_mem _ member))

/-- The words of a chunk are those at its indexes. -/
theorem filterMap_range_getElem? {α : Type} (items : List α) :
    (List.range items.length).filterMap (fun index => items[index]?) = items := by
  induction items using List.reverseRecOn with
  | nil => rfl
  | append_singleton items item ih =>
      have early : (List.range items.length).filterMap (fun index => (items ++ [item])[index]?) =
          (List.range items.length).filterMap fun index => items[index]? := by
        apply List.filterMap_congr
        intro index member
        rw [List.getElem?_append_left (List.mem_range.mp member)]
      rw [List.length_append, List.length_singleton, List.range_succ, List.filterMap_append, early,
        ih, List.filterMap_cons_some List.getElem?_concat_length, List.filterMap_nil]

/-- All words in the order of their keys. -/
theorem filterMap_wordKeys (labelled : Labelled chunks) :
    (wordKeys chunks).filterMap (stitchedWord chunks) = chunks.flatMap ReadChunk.stitched := by
  have each (entry : ReadChunk × Nat) (member : entry ∈ chunks.zipIdx) :
      ((List.range entry.1.words.length).map fun wordIndex =>
        wordKey entry.2 wordIndex).filterMap (stitchedWord chunks) = entry.1.stitched := by
    have found := List.mem_zipIdx_iff_getElem?.mp member
    have size : entry.1.words.length = entry.1.stitched.length := by
      rw [ReadChunk.stitched, List.length_map]
    rw [List.filterMap_map, size]
    have same : (stitchedWord chunks ∘ fun wordIndex => wordKey entry.2 wordIndex) =
        fun wordIndex => entry.1.stitched[wordIndex]? := by
      funext wordIndex
      exact stitchedWord_eq labelled found wordIndex
    rw [same, filterMap_range_getElem?]
  have flat : (wordKeys chunks).filterMap (stitchedWord chunks) =
      chunks.zipIdx.flatMap fun entry => entry.1.stitched := by
    rw [wordKeys, List.filterMap_flatMap, List.flatMap_def, List.flatMap_def,
      List.map_congr_left each]
  rw [flat, ← List.flatMap_map, List.zipIdx_map_fst]

section Clear

/-- Words outside the shared audio have no matches. -/
theorem ClearOfOverlaps.unmatched (clear : ClearOfOverlaps chunks) (prior key : WordKey) :
    ¬ Matched table chunks prior key := by
  rintro ⟨index, previous, chunk, pair, previousAt, chunkAt, member, rfl, rfl⟩
  obtain ⟨word, _, wordAt, _, early, late, _⟩ := (alignOverlapWords_matching table previous.words
    chunk.words chunk.span.startMs previous.span.endMs).alignable pair member
  exact clear index previous chunk previousAt chunkAt previous (List.mem_of_getElem? previousAt) word
    (List.mem_of_getElem? wordAt) ⟨early, late⟩

/-- Each word outside the shared audio is its own root. -/
theorem ClearOfOverlaps.root (clear : ClearOfOverlaps state.chunks) (rooted : state.Rooted table)
    (key : WordKey) : rootOf state.roots key = key := by
  have apart (first second : WordKey) (same : SameUtterance table state.chunks first second) :
      first = second := by
    induction same with
    | rel prior key found => exact absurd found (clear.unmatched prior key)
    | refl => rfl
    | symm _ _ _ ih => exact ih.symm
    | trans _ _ _ _ _ first second => exact first.trans second
  exact apart _ _ (rooted.reached key)

theorem getElem?_boundaries {spans : List MediaSpan} {index : Nat} {span next : MediaSpan}
    (spanAt : spans[index]? = some span) (nextAt : spans[index + 1]? = some next) :
    (boundaries spans).getD index 0 = (span.endMs + next.startMs) / 2 := by
  have found : (boundaries spans)[index]? = some ((span.endMs + next.startMs) / 2) :=
    List.getElem?_zipWith_eq_some.mpr ⟨span, next, spanAt, by rw [List.getElem?_tail, nextAt], rfl⟩
  rw [List.getD_eq_getElem?_getD, found, Option.getD_some]

/-- Each chunk owns its words outside the shared audio. -/
theorem ClearOfOverlaps.owned (clear : ClearOfOverlaps chunks)
    (sound : ∀ chunk ∈ chunks, chunk.Sound)
    (within : ∀ chunk ∈ chunks, 0 ≤ chunk.span.startMs ∧ chunk.span.endMs ≤ durationMs)
    (member : key ∈ wordKeys chunks) : isOwned durationMs chunks key = true := by
  obtain ⟨chunk, found, inside⟩ := mem_wordKeys.mp member
  have listed := List.mem_of_getElem? found
  have spoken : wordAt chunks key = some (chunk.words[(ofLex key).2]) := by
    show (chunks[(ofLex key).1]?.bind fun chunk => chunk.words[(ofLex key).2]?) = _
    rw [found, Option.bind_some, List.getElem?_eq_getElem inside]
  have wordIn := List.getElem_mem inside
  obtain ⟨lower, long, upper⟩ := (sound chunk listed).within _ wordIn
  have bounds := within chunk listed
  have spanAt (index : Nat) (other : ReadChunk) (at_ : chunks[index]? = some other) :
      (chunks.map ReadChunk.span)[index]? = some other.span := by
    rw [List.getElem?_map, at_, Option.map_some]
  have starts : (ownershipWindow durationMs (chunks.map ReadChunk.span) (ofLex key).1).1 ≤
      (chunk.words[(ofLex key).2].startMs + chunk.words[(ofLex key).2].endMs) / 2 := by
    unfold ownershipWindow
    dsimp only
    split
    · omega
    · next later =>
        obtain ⟨index, same⟩ := Nat.exists_eq_succ_of_ne_zero later
        rw [same] at found ⊢
        obtain ⟨previous, previousAt⟩ : ∃ previous, chunks[index]? = some previous := by
          have before := (List.getElem?_eq_some_iff.mp found).1
          exact ⟨_, List.getElem?_eq_getElem (Nat.lt_of_succ_lt before)⟩
        have apart := clear index previous chunk previousAt found chunk listed _ wordIn
        rw [Nat.succ_sub_one, getElem?_boundaries (spanAt index previous previousAt)
          (spanAt (index + 1) chunk found)]
        omega
  have ends : (chunk.words[(ofLex key).2].startMs + chunk.words[(ofLex key).2].endMs) / 2 <
      (ownershipWindow durationMs (chunks.map ReadChunk.span) (ofLex key).1).2 := by
    unfold ownershipWindow
    dsimp only
    split
    · omega
    · next early =>
        obtain ⟨next, nextAt⟩ : ∃ next, chunks[(ofLex key).1 + 1]? = some next := by
          have before := (List.getElem?_eq_some_iff.mp found).1
          rw [List.length_map] at early
          exact ⟨_, List.getElem?_eq_getElem (by omega)⟩
        have apart := clear (ofLex key).1 chunk next found nextAt chunk listed _ wordIn
        rw [getElem?_boundaries (spanAt _ chunk found) (spanAt _ next nextAt)]
        omega
  unfold isOwned
  rw [spoken]
  simp [starts, ends]

/-- All words outside the shared audio are picked in their order. -/
theorem ClearOfOverlaps.picked (clear : ClearOfOverlaps state.chunks) (rooted : state.Rooted table)
    (sound : ∀ chunk ∈ state.chunks, chunk.Sound)
    (within : ∀ chunk ∈ state.chunks, 0 ≤ chunk.span.startMs ∧ chunk.span.endMs ≤ durationMs) :
    state.picked durationMs = wordKeys state.chunks := by
  have roots : rootOf state.roots = id := funext (clear.root rooted)
  have keys : keysOf (rootOf state.roots) (wordKeys state.chunks) = wordKeys state.chunks := by
    have distinct := wordKeys_nodup state.chunks
    rw [roots, keysOf_of_nodup (by rw [List.map_id]; exact distinct), List.map_id]
  rw [picked_eq, keys]
  have each (key : WordKey) (member : key ∈ wordKeys state.chunks) :
      pickObservation (isOwned durationMs state.chunks)
        ((wordKeys state.chunks).filter fun other => rootOf state.roots other = key) = some key := by
    have only : ((wordKeys state.chunks).filter fun other => rootOf state.roots other = key) =
        [key] := by
      apply filter_eq_single (wordKeys_nodup _) member (decide_eq_true (clear.root rooted key))
      intro other _ root
      exact (clear.root rooted other).symm.trans (of_decide_eq_true root)
    rw [only, pickObservation_single, if_pos (clear.owned sound within member)]
  rw [List.filterMap_congr each, List.filterMap_some]

/-- Words outside the shared audio come chunk after chunk when the chunks start in order. -/
theorem ClearOfOverlaps.ordered (clear : ClearOfOverlaps chunks)
    (sound : ∀ chunk ∈ chunks, chunk.Sound)
    (starts : chunks.Pairwise fun first second => first.span.startMs < second.span.startMs) :
    chunks.Pairwise fun first second => ∀ word ∈ first.words, ∀ other ∈ second.words,
      word.startMs < other.startMs := by
  apply List.pairwise_iff_getElem.mpr
  intro first second firstIn secondIn before word wordIn other otherIn
  have listed := List.getElem_mem firstIn
  obtain ⟨_, long, upper⟩ := (sound _ listed).within word wordIn
  obtain ⟨lower, _, _⟩ := (sound _ (List.getElem_mem secondIn)).within other otherIn
  have nextIn : first + 1 < chunks.length := by omega
  have apart := clear first chunks[first] chunks[first + 1] (List.getElem?_eq_getElem firstIn)
    (List.getElem?_eq_getElem nextIn) chunks[first] listed word wordIn
  have reaches : chunks[first + 1].span.startMs ≤ chunks[second].span.startMs := by
    rcases Nat.eq_or_lt_of_le before with same | apart
    · exact le_of_eq (by simp only [← same, Nat.succ_eq_add_one])
    · exact (List.pairwise_iff_getElem.mp starts (first + 1) second nextIn secondIn apart).le
  omega

end Clear

/-- The stitched words are the picked ones in order, and they lie in the media. -/
theorem stitchChunkTranscriptions_once (table : FoldTable) (durationMs maxChunkMs overlapMs : Int)
    (spans : List MediaSpan) (chunks : List ChunkTranscription) (words : List StitchedWord)
    (plan : planAudioChunks durationMs maxChunkMs overlapMs = .ok spans)
    (planning : (chunks.map ChunkTranscription.span).Perm spans)
    (accepted : stitchChunkTranscriptions table durationMs chunks = .ok words) :
    ∃ state, readChunks table durationMs chunks = .ok state ∧
      state.chunks.map ReadChunk.heard =
        (sortedBy (fun item => item.span.index) chunks).map ChunkTranscription.heard ∧
      state.chunks.map ReadChunk.span = spans ∧ StitchedOnce table durationMs state words := by
  obtain ⟨state, read, rfl, _⟩ := stitchChunkTranscriptions_eq_ok accepted
  obtain ⟨positive, planned⟩ := planAudioChunks_planned plan
  have reads := readChunks_reads read
  have rooted := readChunks_rooted read
  have labelled := (readChunks_holds read).labelled
  have sorted := planned.sorted planning
  have ordered : state.chunks.map ReadChunk.span = spans := by
    rw [← sorted]
    have heard := congrArg (List.map Prod.fst) reads.heard
    rw [List.map_map, List.map_map] at heard
    exact heard
  have within (chunk : ReadChunk) (member : chunk ∈ state.chunks) :
      0 ≤ chunk.span.startMs ∧ chunk.span.endMs ≤ durationMs := by
    have checked := checkSpans_within (readChunks_eq_ok read).2.2.1 chunk.span (by
      rw [sorted, ← ordered]
      exact List.mem_map_of_mem member)
    exact ⟨checked.1, checked.2.2⟩
  have contributes : List.Forall₂ (fun key word => stitchedWord state.chunks key = some word)
      (state.picked durationMs) ((state.picked durationMs).filterMap (stitchedWord state.chunks)) :=
    forall₂_filterMap fun key member => stitchedWord_some labelled (mem_picked.mp member).1
  have clear (apart : ClearOfOverlaps state.chunks) : state.output durationMs =
      sortedBy (fun word => toLex (word.startMs, word.endMs))
        (state.chunks.flatMap ReadChunk.stitched) := by
    unfold Stitching.output
    rw [apart.picked rooted reads.sound within, filterMap_wordKeys labelled]
  refine ⟨state, read, reads.heard, ordered, ?_⟩
  constructor
  · rw [ordered]
    exact planned.partitions positive
  · exact rooted.utterances durationMs
  · exact ⟨_, contributes, sortedBy_perm _ _⟩
  · apply (sortedBy_pairwise (fun word : StitchedWord => toLex (word.startMs, word.endMs)) _).imp
    intro first second below
    exact Prod.Lex.toLex_le_toLex.mp below
  · intro word member
    obtain ⟨key, _, found⟩ := List.mem_filterMap.mp ((mem_sortedBy _).mp member)
    obtain ⟨chunk, listed, raw, spoken, _, start, stop, _⟩ := (stitchedWord_spoken found).spoken
    have bounds := within chunk listed
    have times := (reads.sound chunk listed).within raw spoken
    omega
  · exact clear
  · intro apart ends
    rw [clear apart]
    apply sortedBy_of_pairwise
    apply List.pairwise_flatMap.mpr
    constructor
    · intro chunk member
      unfold ReadChunk.stitched
      rw [List.pairwise_map]
      apply ((reads.sound chunk member).rises.and (ends chunk member)).imp
      intro first second ⟨starts, finishes⟩
      apply Prod.Lex.toLex_le_toLex.mpr
      rcases lt_or_eq_of_le starts with earlier | same
      · exact .inl earlier
      · exact .inr ⟨same, finishes same⟩
    · have starts : state.chunks.Pairwise fun first second =>
          first.span.startMs < second.span.startMs := by
        have onSpans := planned.starts.2
        rw [← ordered, List.pairwise_map] at onSpans
        exact onSpans
      apply (apart.ordered reads.sound starts).imp
      intro first second earlier word wordIn other otherIn
      obtain ⟨raw, rawIn, rfl⟩ := List.mem_map.mp wordIn
      obtain ⟨next, nextIn, rfl⟩ := List.mem_map.mp otherIn
      exact Prod.Lex.toLex_le_toLex.mpr (.inl (earlier raw rawIn next nextIn))

/-- The shared words are stitched once. -/
theorem stitchChunkTranscriptions_once_sharedWords :
    ∃ state, readChunks .symbols 3000 sharedWords = .ok state ∧
      state.chunks.map ReadChunk.heard =
        (sortedBy (fun item => item.span.index) sharedWords).map ChunkTranscription.heard ∧
      state.chunks.map ReadChunk.span = [⟨0, 0, 2000⟩, ⟨1, 1000, 3000⟩] ∧
      StitchedOnce .symbols 3000 state [⟨"well".toList, 1200, 1300, "speaker-1".toList, none⟩,
        ⟨"then".toList, 1400, 1500, "speaker-1".toList, none⟩,
        ⟨"yes".toList, 2500, 2600, "speaker-2".toList, none⟩] :=
  stitchChunkTranscriptions_once .symbols 3000 2000 1000 _ sharedWords _ (by decide)
    (List.Perm.refl _) (by decide)

/-- A short word follows a long one that starts with it. -/
def nestedWords : List ChunkTranscription :=
  [⟨⟨0, 0, 10⟩, [⟨"long".toList, 0, 10, "A".toList, none⟩, ⟨"short".toList, 0, 5, "A".toList, none⟩]⟩]

/-- Words that start together are put in the order of their ends, although no word lies in an
overlap. -/
theorem stitchChunkTranscriptions_reorders :
    planAudioChunks 10 30 5 = .ok (nestedWords.map ChunkTranscription.span) ∧
      ∃ state words, readChunks .symbols 10 nestedWords = .ok state ∧
        stitchChunkTranscriptions .symbols 10 nestedWords = .ok words ∧
        ClearOfOverlaps state.chunks ∧ words ≠ state.chunks.flatMap ReadChunk.stitched := by
  refine ⟨by decide, Stitching.start.take .symbols ⟨0, 0, 10⟩
    [⟨"long".toList, 0, 10, "A".toList, none⟩, ⟨"short".toList, 0, 5, "A".toList, none⟩],
    [⟨"short".toList, 0, 5, "speaker-1".toList, none⟩,
      ⟨"long".toList, 0, 10, "speaker-1".toList, none⟩], rfl, by decide, ?_,
    by decide⟩
  intro index previous next _ nextAt
  contradiction

end LumenCopilot.Media
