import LumenCopilot.Proof.Library.Lists
import LumenCopilot.Proof.Media.Alignment
import LumenCopilot.Proof.Media.Speakers

namespace LumenCopilot.Media

open Python Library

variable {table : FoldTable} {chunks : List ReadChunk} {roots : Dict WordKey WordKey}
  {chunkIndex : Nat} {matched : List (Nat × Nat)} {key other prior : WordKey}

theorem wordKey_inj {chunk word otherChunk otherWord : Nat} :
    wordKey chunk word = wordKey otherChunk otherWord ↔ chunk = otherChunk ∧ word = otherWord := by
  rw [wordKey, wordKey, toLex_inj, Prod.mk.injEq]

/-- Two observations are matched by the alignment of neighbouring chunks. -/
def Matched (table : FoldTable) (chunks : List ReadChunk) (prior key : WordKey) : Prop :=
  ∃ index previous chunk pair, chunks[index]? = some previous ∧ chunks[index + 1]? = some chunk ∧
    pair ∈ overlapMatches table (some previous) chunk.span chunk.words ∧
    prior = wordKey index pair.1 ∧ key = wordKey (index + 1) pair.2

/-- Observations are of one utterance when a chain of matches joins them. -/
def SameUtterance (table : FoldTable) (chunks : List ReadChunk) : WordKey → WordKey → Prop :=
  Relation.EqvGen (Matched table chunks)

/-- The earlier chunks keep their matches. -/
theorem Matched.append (found : Matched table chunks prior key) (more : List ReadChunk) :
    Matched table (chunks ++ more) prior key := by
  obtain ⟨index, previous, chunk, pair, previousAt, chunkAt, member, first, second⟩ := found
  exact ⟨index, previous, chunk, pair,
    List.getElem?_append_left (List.getElem?_eq_some_iff.mp previousAt).1 ▸ previousAt,
    List.getElem?_append_left (List.getElem?_eq_some_iff.mp chunkAt).1 ▸ chunkAt, member, first, second⟩

theorem SameUtterance.append (same : SameUtterance table chunks prior key) (more : List ReadChunk) :
    SameUtterance table (chunks ++ more) prior key := by
  have wider : Matched table chunks ≤ Matched table (chunks ++ more) :=
    fun _ _ found => Matched.append found more
  exact Relation.EqvGen.mono wider _ _ same

theorem rootOf_linkRoot (roots : Dict WordKey WordKey) (chunkIndex : Nat) (pair : Nat × Nat)
    (key : WordKey) : rootOf (linkRoot chunkIndex roots pair) key =
      if key = wordKey chunkIndex pair.2 then rootOf roots (wordKey (chunkIndex - 1) pair.1)
      else rootOf roots key := by
  unfold rootOf linkRoot
  rw [Dict.lookup_assigned]
  split
  · rfl
  · rfl

/-- A word that is not matched keeps its root. -/
theorem rootOf_linkRoots_other (apart : ∀ pair ∈ matched, key ≠ wordKey chunkIndex pair.2) :
    rootOf (matched.foldl (linkRoot chunkIndex) roots) key = rootOf roots key := by
  induction matched generalizing roots with
  | nil => rfl
  | cons pair matched ih =>
      obtain ⟨here, later⟩ := List.forall_mem_cons.mp apart
      rw [List.foldl_cons, ih later, rootOf_linkRoot, if_neg here]

/-- A matched word has the root of its counterpart. -/
theorem rootOf_linkRoots (positive : 0 < chunkIndex) (distinct : (matched.map Prod.snd).Nodup)
    {pair : Nat × Nat} (member : pair ∈ matched) :
    rootOf (matched.foldl (linkRoot chunkIndex) roots) (wordKey chunkIndex pair.2) =
      rootOf roots (wordKey (chunkIndex - 1) pair.1) := by
  induction matched generalizing roots with
  | nil => contradiction
  | cons first matched ih =>
      obtain ⟨fresh, rest⟩ := List.nodup_cons.mp distinct
      rw [List.foldl_cons]
      rcases List.mem_cons.mp member with rfl | later
      · rw [rootOf_linkRoots_other, rootOf_linkRoot, if_pos rfl]
        intro next listed same
        apply fresh
        rw [(wordKey_inj.mp same).2]
        exact List.mem_map_of_mem listed
      · rw [ih rest later, rootOf_linkRoot, if_neg]
        intro same
        have indexes := (wordKey_inj.mp same).1
        omega

theorem mem_linkRoots (member : key ∈ matched.foldl (linkRoot chunkIndex) roots) :
    key ∈ roots ∨ ∃ pair ∈ matched, key = wordKey chunkIndex pair.2 := by
  induction matched generalizing roots with
  | nil => exact .inl member
  | cons pair matched ih =>
      rw [List.foldl_cons] at member
      rcases ih member with linked | ⟨later, listed, same⟩
      · rw [linkRoot, ← AList.lookup_isSome, Dict.lookup_assigned] at linked
        split at linked
        · next same => exact .inr ⟨pair, List.mem_cons_self, same⟩
        · exact .inl (AList.lookup_isSome.mp linked)
      · exact .inr ⟨later, List.mem_cons_of_mem _ listed, same⟩

/-- The roots stand for the utterances. -/
structure Stitching.Rooted (table : FoldTable) (state : Stitching) : Prop where
  linked : ∀ prior key, Matched table state.chunks prior key →
    rootOf state.roots key = rootOf state.roots prior
  reached : ∀ key, SameUtterance table state.chunks (rootOf state.roots key) key
  known : ∀ key ∈ state.roots, (ofLex key).1 < state.chunks.length

theorem Stitching.Rooted.start : Stitching.start.Rooted table where
  linked := by
    rintro prior key ⟨index, previous, chunk, pair, absent, _⟩
    contradiction
  reached := fun key => Relation.EqvGen.refl key
  known := nofun

/-- The second indexes of an alignment are distinct. -/
theorem overlapMatches_nodup (table : FoldTable) (previous : ReadChunk) (span : MediaSpan)
    (words : List GlobalWord) :
    ((overlapMatches table (some previous) span words).map Prod.snd).Nodup := by
  have increasing := (alignOverlapWords_matching table previous.words words span.startMs
    previous.span.endMs).increasing
  exact (List.pairwise_map.mpr (increasing.imp And.right)).imp Nat.ne_of_lt

theorem Stitching.chunks_take (table : FoldTable) (span : MediaSpan) (words : List GlobalWord)
    (state : Stitching) :
    (state.take table span words).chunks = state.chunks ++ [state.added table span words] := rfl

variable {state : Stitching}

/-- The words of a chunk keep the roots of the earlier ones and link their own. -/
theorem Stitching.take_rooted (rooted : state.Rooted table) (span : MediaSpan)
    (words : List GlobalWord) : (state.take table span words).Rooted table := by
  have unmoved (key : WordKey) (earlier : (ofLex key).1 ≠ state.chunks.length) :
      rootOf (state.take table span words).roots key = rootOf state.roots key := by
    apply rootOf_linkRoots_other
    intro pair _ same
    rw [same] at earlier
    exact earlier rfl
  have moved (previous : ReadChunk) (last : state.chunks.getLast? = some previous)
      (pair : Nat × Nat) (member : pair ∈ overlapMatches table (some previous) span words) :
      rootOf (state.take table span words).roots (wordKey state.chunks.length pair.2) =
        rootOf state.roots (wordKey (state.chunks.length - 1) pair.1) := by
    have filled : 0 < state.chunks.length := List.length_pos_of_mem (List.mem_of_getLast? last)
    unfold Stitching.take
    rw [last]
    exact rootOf_linkRoots filled (overlapMatches_nodup table previous span words) member
  constructor
  · rintro prior key ⟨index, previous, chunk, pair, previousAt, chunkAt, member, rfl, rfl⟩
    have before : state.chunks[index]? = some previous := by
      have within := (List.getElem?_eq_some_iff.mp chunkAt).1
      rw [Stitching.chunks_take, List.length_append, List.length_singleton] at within
      rw [Stitching.chunks_take, List.getElem?_append_left (by omega)] at previousAt
      exact previousAt
    have inside := (List.getElem?_eq_some_iff.mp before).1
    rw [unmoved (wordKey index pair.1) inside.ne]
    rcases getElem?_snoc_iff.mp chunkAt with earlier | ⟨last, rfl⟩
    · rw [unmoved (wordKey (index + 1) pair.2) (List.getElem?_eq_some_iff.mp earlier).1.ne]
      exact rooted.linked _ _ ⟨index, previous, chunk, pair, before, earlier, member, rfl, rfl⟩
    · have newest : state.chunks.getLast? = some previous := by
        rw [List.getLast?_eq_getElem?, ← last, Nat.add_sub_cancel]
        exact before
      have root := moved previous newest pair member
      rw [← last, Nat.add_sub_cancel] at root
      exact root
  · intro key
    have older (key : WordKey) : SameUtterance table (state.take table span words).chunks
        (rootOf state.roots key) key :=
      (rooted.reached key).append [state.added table span words]
    by_cases found : ∃ previous pair, state.chunks.getLast? = some previous ∧
        pair ∈ overlapMatches table (some previous) span words ∧
        key = wordKey state.chunks.length pair.2
    · obtain ⟨previous, pair, last, member, rfl⟩ := found
      have filled : 0 < state.chunks.length := List.length_pos_of_mem (List.mem_of_getLast? last)
      rw [moved previous last pair member]
      apply Relation.EqvGen.trans _ _ _ (older (wordKey (state.chunks.length - 1) pair.1))
      apply Relation.EqvGen.rel
      rw [List.getLast?_eq_getElem?] at last
      refine ⟨state.chunks.length - 1, previous, state.added table span words, pair, ?_, ?_, member,
        rfl, ?_⟩
      · rw [Stitching.chunks_take, List.getElem?_append_left (by omega)]
        exact last
      · rw [Stitching.chunks_take, Nat.sub_add_cancel filled, List.getElem?_concat_length]
      · rw [Nat.sub_add_cancel filled]
    · have kept : rootOf (state.take table span words).roots key = rootOf state.roots key := by
        apply rootOf_linkRoots_other
        intro pair member same
        cases last : state.chunks.getLast? with
        | none =>
            rw [last] at member
            contradiction
        | some previous =>
            rw [last] at member
            exact found ⟨previous, pair, last, member, same⟩
      rw [kept]
      exact older key
  · intro key member
    rw [Stitching.chunks_take, List.length_append, List.length_singleton]
    rcases mem_linkRoots member with old | ⟨pair, _, rfl⟩
    · exact Nat.lt_succ_of_lt (rooted.known key old)
    · exact Nat.lt_succ_self _

variable {durationMs : Int}

theorem readChunks_rooted {items : List ChunkTranscription}
    (read : readChunks table durationMs items = .ok state) : state.Rooted table :=
  foldlM_keeps (readChunk table durationMs) (Stitching.Rooted table) _
    (fun _ _ _ _ rooted reads => by
      obtain ⟨words, _, _, rfl⟩ := readChunk_eq_ok reads
      exact Stitching.take_rooted rooted _ words)
    .start state Stitching.Rooted.start (readChunks_eq_ok read).2.2.2

/-- Observations have one root if and only if they are of one utterance. -/
theorem Stitching.Rooted.root_eq_iff (rooted : state.Rooted table) :
    rootOf state.roots key = rootOf state.roots other ↔
      SameUtterance table state.chunks key other := by
  constructor
  · intro same
    have back := rooted.reached other
    rw [← same] at back
    exact Relation.EqvGen.trans _ _ _ (Relation.EqvGen.symm _ _ (rooted.reached key)) back
  · intro joined
    induction joined with
    | rel prior key found => exact (rooted.linked prior key found).symm
    | refl => rfl
    | symm _ _ _ ih => exact ih.symm
    | trans _ _ _ _ _ first second => exact first.trans second

theorem mem_wordKeys : key ∈ wordKeys chunks ↔
    ∃ chunk, chunks[(ofLex key).1]? = some chunk ∧ (ofLex key).2 < chunk.words.length := by
  rw [wordKeys, List.mem_flatMap]
  constructor
  · rintro ⟨⟨chunk, index⟩, listed, member⟩
    obtain ⟨wordIndex, inside, rfl⟩ := List.mem_map.mp member
    exact ⟨chunk, List.mem_zipIdx_iff_getElem?.mp listed, List.mem_range.mp inside⟩
  · rintro ⟨chunk, found, inside⟩
    exact ⟨(chunk, (ofLex key).1), List.mem_zipIdx_iff_getElem?.mpr found,
      List.mem_map.mpr ⟨(ofLex key).2, List.mem_range.mpr inside, rfl⟩⟩

/-- Each word has one key. -/
theorem wordKeys_nodup (chunks : List ReadChunk) : (wordKeys chunks).Nodup := by
  apply List.nodup_flatMap.mpr
  constructor
  · intro entry _
    exact List.nodup_range.map fun first second same => (wordKey_inj.mp same).2
  · have indexes : (chunks.zipIdx.map Prod.snd).Nodup := by
      rw [List.zipIdx_map_snd]
      exact List.nodup_range'
    apply (List.pairwise_map.mp indexes).imp
    intro first second apart key firstMember secondMember
    obtain ⟨one, _, rfl⟩ := List.mem_map.mp firstMember
    obtain ⟨two, _, same⟩ := List.mem_map.mp secondMember
    exact apart (wordKey_inj.mp same).1.symm

/-- Matches are between words. -/
theorem Matched.observed (found : Matched table chunks prior key) :
    prior ∈ wordKeys chunks ∧ key ∈ wordKeys chunks := by
  obtain ⟨index, previous, chunk, pair, previousAt, chunkAt, member, rfl, rfl⟩ := found
  obtain ⟨priorWord, word, priorAt, wordAt, _⟩ := (alignOverlapWords_matching table previous.words
    chunk.words chunk.span.startMs previous.span.endMs).alignable pair member
  exact ⟨mem_wordKeys.mpr ⟨previous, previousAt, (List.getElem?_eq_some_iff.mp priorAt).1⟩,
    mem_wordKeys.mpr ⟨chunk, chunkAt, (List.getElem?_eq_some_iff.mp wordAt).1⟩⟩

theorem SameUtterance.observed (same : SameUtterance table chunks key other) :
    key = other ∨ key ∈ wordKeys chunks ∧ other ∈ wordKeys chunks := by
  induction same with
  | rel prior key found => exact .inr found.observed
  | refl => exact .inl rfl
  | symm _ _ _ ih =>
      rcases ih with same | ⟨first, second⟩
      · exact .inl same.symm
      · exact .inr ⟨second, first⟩
  | trans _ _ _ _ _ first second =>
      rcases first with rfl | first
      · exact second
      · rcases second with rfl | second
        · exact .inr first
        · exact .inr ⟨first.1, second.2⟩

section Picking

variable {owns : WordKey → Bool} {instances : List WordKey}

/-- The pick is one of the observations. -/
theorem pickObservation_mem (picked : pickObservation owns instances = some key) :
    key ∈ instances := by
  unfold pickObservation at picked
  dsimp only at picked
  split at picked
  · contradiction
  · split at picked
    · exact List.min?_mem picked
    · exact (List.mem_filter.mp (List.min?_mem picked)).1

/-- A matched utterance is never dropped. -/
theorem pickObservation_some (several : 1 < instances.length) :
    ∃ key, pickObservation owns instances = some key := by
  have filled : instances ≠ [] := List.ne_nil_of_length_pos (Nat.zero_lt_of_lt several)
  apply Option.isSome_iff_exists.mp
  unfold pickObservation
  dsimp only
  rw [if_neg (fun single => several.ne' single.2)]
  split
  · exact List.isSome_min?_of_ne_nil filled
  · next owned => exact List.isSome_min?_of_ne_nil owned

theorem pickObservation_single (owns : WordKey → Bool) (key : WordKey) :
    pickObservation owns [key] = if owns key then some key else none := by
  unfold pickObservation
  cases owned : owns key with
  | true => simp [owned]
  | false => simp [owned]

end Picking

section Keys

variable {κ α : Type} [DecidableEq κ]

/-- These are the keys of the items, each at its first place. -/
def keysOf (key : α → κ) (items : List α) : List κ := (items.map key).eraseDups

theorem nodup_keysOf (key : α → κ) (items : List α) : (keysOf key items).Nodup :=
  nodup_eraseDups _

theorem mem_keysOf {key : α → κ} {items : List α} {found : κ} :
    found ∈ keysOf key items ↔ found ∈ items.map key :=
  List.mem_eraseDups

theorem keysOf_of_nodup {key : α → κ} {items : List α} (distinct : (items.map key).Nodup) :
    keysOf key items = items.map key :=
  eraseDups_of_nodup distinct

/-- Each key has the items that go under it. -/
theorem grouped_map (key : α → κ) (items : List α) :
    grouped (items.map fun item => (key item, item)) =
      (keysOf key items).map fun root => (root, items.filter fun item => key item = root) := by
  simp [grouped, keysOf, Function.comp_def, List.filter_map]

end Keys

/-- The observations of a root are the words with that root. -/
theorem picked_eq (durationMs : Int) (state : Stitching) : state.picked durationMs =
    (keysOf (rootOf state.roots) (wordKeys state.chunks)).filterMap fun root =>
      pickObservation (isOwned durationMs state.chunks)
        ((wordKeys state.chunks).filter fun key => rootOf state.roots key = root) := by
  rw [Stitching.picked, grouped_map, List.filterMap_map]
  rfl

/-- A pick is the one of its root. -/
theorem mem_picked :
    key ∈ state.picked durationMs ↔ key ∈ wordKeys state.chunks ∧
      pickObservation (isOwned durationMs state.chunks) ((wordKeys state.chunks).filter fun other =>
        rootOf state.roots other = rootOf state.roots key) = some key := by
  rw [picked_eq, List.mem_filterMap]
  constructor
  · rintro ⟨root, _, picked⟩
    obtain ⟨member, same⟩ := List.mem_filter.mp (pickObservation_mem picked)
    rw [← of_decide_eq_true same] at picked
    exact ⟨member, picked⟩
  · rintro ⟨member, picked⟩
    exact ⟨rootOf state.roots key, mem_keysOf.mpr (List.mem_map_of_mem member), picked⟩

theorem picked_nodup (durationMs : Int) (state : Stitching) : (state.picked durationMs).Nodup := by
  rw [picked_eq]
  apply (nodup_keysOf _ _).filterMap
  intro first second key firstPicked secondPicked
  have one := of_decide_eq_true (List.mem_filter.mp (pickObservation_mem firstPicked)).2
  have two := of_decide_eq_true (List.mem_filter.mp (pickObservation_mem secondPicked)).2
  exact one.symm.trans two

/-- One item of a list without repetition passes a test of its own. -/
theorem filter_eq_single {α : Type} {items : List α} {item : α} {keep : α → Bool}
    (distinct : items.Nodup) (member : item ∈ items) (kept : keep item = true)
    (only : ∀ other ∈ items, keep other = true → other = item) : items.filter keep = [item] := by
  apply List.perm_singleton.mp
  apply (List.perm_ext_iff_of_nodup (distinct.filter _) (List.nodup_singleton item)).mpr
  intro other
  rw [List.mem_filter, List.mem_singleton]
  constructor
  · intro ⟨listed, passes⟩
    exact only other listed passes
  · rintro rfl
    exact ⟨member, kept⟩

/-- The midpoint of a word lies in the ownership window of its own chunk. -/
def Owned (durationMs : Int) (chunks : List ReadChunk) (key : WordKey) : Prop :=
  ∃ word, wordAt chunks key = some word ∧
    (ownershipWindow durationMs (chunks.map ReadChunk.span) (ofLex key).1).1 ≤
      (word.startMs + word.endMs) / 2 ∧
    (word.startMs + word.endMs) / 2 <
      (ownershipWindow durationMs (chunks.map ReadChunk.span) (ofLex key).1).2

theorem isOwned_iff : isOwned durationMs chunks key = true ↔ Owned durationMs chunks key := by
  simp [isOwned, Owned, Option.any_eq_true]

/-- The picks hold every matched utterance once, and an unmatched word if its own chunk owns it. -/
structure Utterances (table : FoldTable) (durationMs : Int) (chunks : List ReadChunk)
    (picked : List WordKey) : Prop where
  observed : ∀ key ∈ picked, key ∈ wordKeys chunks
  once : picked.Nodup
  joined : ∀ key ∈ wordKeys chunks, (∃ other, other ≠ key ∧ SameUtterance table chunks key other) →
    ∃! pick, pick ∈ picked ∧ SameUtterance table chunks key pick
  alone : ∀ key ∈ wordKeys chunks, (∀ other, SameUtterance table chunks key other → other = key) →
    (key ∈ picked ↔ Owned durationMs chunks key)

theorem Stitching.Rooted.utterances (rooted : state.Rooted table) (durationMs : Int) :
    Utterances table durationMs state.chunks (state.picked durationMs) := by
  have same (key other : WordKey) : rootOf state.roots key = rootOf state.roots other ↔
      SameUtterance table state.chunks key other := rooted.root_eq_iff
  constructor
  · exact fun key member => (mem_picked.mp member).1
  · exact picked_nodup durationMs state
  · intro key member ⟨other, apart, joined⟩
    have listed : other ∈ wordKeys state.chunks := by
      rcases joined.observed with equal | both
      · exact absurd equal.symm apart
      · exact both.2
    have several : 1 < ((wordKeys state.chunks).filter fun other =>
        rootOf state.roots other = rootOf state.roots key).length := by
      have distinct : [key, other].Nodup := by simp [apart.symm]
      apply (List.subperm_of_subset distinct _).length_le
      intro next either
      rw [List.mem_filter, decide_eq_true_eq]
      rcases List.mem_pair.mp either with rfl | rfl
      · exact ⟨member, rfl⟩
      · exact ⟨listed, ((same key next).mpr joined).symm⟩
    obtain ⟨pick, picked⟩ := @pickObservation_some (isOwned durationMs state.chunks) _ several
    obtain ⟨observed, root⟩ := List.mem_filter.mp (pickObservation_mem picked)
    have root := of_decide_eq_true root
    refine ⟨pick, ⟨mem_picked.mpr ⟨observed, ?_⟩, (same key pick).mp root.symm⟩, ?_⟩
    · rw [root]
      exact picked
    · intro again ⟨found, joins⟩
      have known := (mem_picked.mp found).2
      rw [← (same key again).mpr joins, picked] at known
      exact (Option.some.inj known).symm
  · intro key member alone
    have only : ((wordKeys state.chunks).filter fun other =>
        rootOf state.roots other = rootOf state.roots key) = [key] := by
      apply filter_eq_single (wordKeys_nodup _) member (decide_eq_true rfl)
      intro other _ root
      exact alone other ((same key other).mp (of_decide_eq_true root).symm)
    rw [mem_picked, only, pickObservation_single, ← isOwned_iff]
    cases isOwned durationMs state.chunks key with
    | true => simp [member]
    | false => simp

end LumenCopilot.Media
