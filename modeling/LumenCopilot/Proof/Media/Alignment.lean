import LumenCopilot.Construction.Media.Stitching
import LumenCopilot.Proof.Library.Alignment

namespace LumenCopilot.Media

open Python Library

/-- The indexed words may be of one utterance of the shared audio. -/
def Alignable (table : FoldTable) (previous current : List GlobalWord) (overlapStart overlapEnd : Int)
    (pair : Nat × Nat) : Prop :=
  ∃ prior word, previous[pair.1]? = some prior ∧ current[pair.2]? = some word ∧
    prior.startMs < overlapEnd ∧ overlapStart < prior.endMs ∧
    word.startMs < overlapEnd ∧ overlapStart < word.endMs ∧
    normalWord table prior.text ≠ [] ∧ normalWord table prior.text = normalWord table word.text ∧
    |word.startMs - prior.startMs| ≤ 750 ∧ |word.endMs - prior.endMs| ≤ 750

/-- The pairs are a strictly increasing one-to-one matching of words of the shared audio. -/
structure OverlapMatching (table : FoldTable) (previous current : List GlobalWord)
    (overlapStart overlapEnd : Int) (pairs : List (Nat × Nat)) : Prop where
  increasing : pairs.Pairwise fun first second => first.1 < second.1 ∧ first.2 < second.2
  alignable : ∀ pair ∈ pairs, Alignable table previous current overlapStart overlapEnd pair

/-- This is the sum of the start and the end distance of two words. -/
def pairDistance (previous current : List GlobalWord) (pair : Nat × Nat) : Int :=
  match previous[pair.1]?, current[pair.2]? with
  | some prior, some word => |word.startMs - prior.startMs| + |word.endMs - prior.endMs|
  | _, _ => 0

def totalDistance (previous current : List GlobalWord) (pairs : List (Nat × Nat)) : Int :=
  (pairs.map (pairDistance previous current)).sum

variable {table : FoldTable} {previous current words : List GlobalWord} {overlapStart overlapEnd : Int}

theorem mem_overlapWords {entry : GlobalWord × Nat} :
    entry ∈ overlapWords overlapStart overlapEnd words ↔
      words[entry.2]? = some entry.1 ∧ entry.1.startMs < overlapEnd ∧
        overlapStart < entry.1.endMs := by
  rw [overlapWords, List.mem_filter, List.mem_zipIdx_iff_getElem?]
  simp [GlobalWord.intersects]

/-- The indexes of the overlap words go up. -/
theorem overlapWords_increasing : (overlapWords overlapStart overlapEnd words).Pairwise
    fun first second => first.2 < second.2 := by
  have indexes : (words.zipIdx.map Prod.snd).Pairwise (· < ·) := by
    rw [List.zipIdx_map_snd]
    exact List.pairwise_lt_range'
  exact (List.pairwise_map.mp indexes).filter _

/-- A part of an increasing list that goes up keeps its order. -/
theorem sublist_of_increasing {α : Type} {key : α → Nat} {items whole : List α}
    (rises : items.Pairwise fun first second => key first < key second)
    (increasing : whole.Pairwise fun first second => key first < key second)
    (inside : ∀ item ∈ items, item ∈ whole) : items.Sublist whole := by
  have antisymmetric : Std.Antisymm fun first second : α => key first < key second :=
    ⟨fun _ _ below above => absurd above (Nat.lt_asymm below)⟩
  have distinct : items.Nodup := rises.imp fun below same => by
    rw [same] at below
    exact Nat.lt_irrefl _ below
  exact List.sublist_of_subperm_of_pairwise (List.subperm_of_subset distinct inside) rises increasing

/-- Images may be pulled back one by one. -/
theorem exists_map_eq {α β : Type} {image : α → β} {holds : α → Prop} {others : List β}
    (each : ∀ other ∈ others, ∃ item, image item = other ∧ holds item) :
    ∃ items : List α, items.map image = others ∧ ∀ item ∈ items, holds item := by
  induction others with
  | nil => exact ⟨[], rfl, nofun⟩
  | cons other others ih =>
      obtain ⟨item, rfl, known⟩ := each other List.mem_cons_self
      obtain ⟨items, rfl, rest⟩ := ih fun next member =>
        each next (List.mem_cons_of_mem _ member)
      exact ⟨item :: items, rfl, List.forall_mem_cons.mpr ⟨known, rest⟩⟩

theorem agrees_iff {prior word : GlobalWord} : prior.agrees table word = true ↔
    normalWord table prior.text ≠ [] ∧ normalWord table prior.text = normalWord table word.text ∧
      |word.startMs - prior.startMs| ≤ 750 ∧ |word.endMs - prior.endMs| ≤ 750 := by
  simp [GlobalWord.agrees, and_assoc]

/-- A pair of overlap words. -/
abbrev OverlapPair : Type := (GlobalWord × Nat) × (GlobalWord × Nat)

def OverlapPair.indexes (pair : OverlapPair) : Nat × Nat := (pair.1.2, pair.2.2)

def overlapGain (table : FoldTable) (prior word : GlobalWord × Nat) : Option (Nat ×ₗ Int) :=
  pairGain table prior.1 word.1

/-- A pair is alignable if and only if it has a gain. -/
theorem alignable_iff {indexes : Nat × Nat} :
    Alignable table previous current overlapStart overlapEnd indexes ↔
      ∃ pair : OverlapPair, pair.indexes = indexes ∧
        pair.1 ∈ overlapWords overlapStart overlapEnd previous ∧
        pair.2 ∈ overlapWords overlapStart overlapEnd current ∧
        (overlapGain table pair.1 pair.2).isSome := by
  have gains (pair : OverlapPair) : (overlapGain table pair.1 pair.2).isSome =
      pair.1.1.agrees table pair.2.1 := by
    unfold overlapGain pairGain
    split
    · next agrees => rw [agrees]; rfl
    · next agrees => rw [Bool.eq_false_of_not_eq_true agrees]; rfl
  constructor
  · rintro ⟨prior, word, priorAt, wordAt, priorStart, priorEnd, wordStart, wordEnd, agrees⟩
    apply Exists.intro (((prior, indexes.1), (word, indexes.2)) : OverlapPair)
    rw [mem_overlapWords, mem_overlapWords, gains, agrees_iff]
    exact ⟨rfl, ⟨priorAt, priorStart, priorEnd⟩, ⟨wordAt, wordStart, wordEnd⟩, agrees⟩
  · rintro ⟨pair, rfl, first, second, gain⟩
    rw [mem_overlapWords] at first second
    rw [gains, agrees_iff] at gain
    exact ⟨pair.1.1, pair.2.1, first.1, second.1, first.2.1, first.2.2, second.2.1, second.2.2, gain⟩

/-- The pairs of an alignment are a matching. -/
theorem OverlapMatching.of_aligns {pairs : List OverlapPair}
    (aligned : Aligns (overlapGain table) (overlapWords overlapStart overlapEnd previous)
      (overlapWords overlapStart overlapEnd current) pairs) :
    OverlapMatching table previous current overlapStart overlapEnd
      (pairs.map OverlapPair.indexes) := by
  constructor
  · rw [List.pairwise_map]
    have firsts := List.pairwise_map.mp (overlapWords_increasing.sublist aligned.left)
    have seconds := List.pairwise_map.mp (overlapWords_increasing.sublist aligned.right)
    exact firsts.and seconds
  · intro indexes member
    obtain ⟨pair, listed, rfl⟩ := List.mem_map.mp member
    exact alignable_iff.mpr ⟨pair, rfl, aligned.left.subset (List.mem_map_of_mem listed),
      aligned.right.subset (List.mem_map_of_mem listed), aligned.gains pair listed⟩

/-- Every matching has an alignment. -/
theorem OverlapMatching.aligns {matched : List (Nat × Nat)}
    (matching : OverlapMatching table previous current overlapStart overlapEnd matched) :
    ∃ pairs : List OverlapPair, pairs.map OverlapPair.indexes = matched ∧
      Aligns (overlapGain table) (overlapWords overlapStart overlapEnd previous)
        (overlapWords overlapStart overlapEnd current) pairs := by
  obtain ⟨pairs, rfl, each⟩ := exists_map_eq fun indexes member =>
    alignable_iff.mp (matching.alignable indexes member)
  have rises := List.pairwise_map.mp matching.increasing
  refine ⟨pairs, rfl, ?_, ?_, fun pair member => (each pair member).2.2⟩
  · apply sublist_of_increasing _ overlapWords_increasing
    · intro entry member
      obtain ⟨pair, listed, rfl⟩ := List.mem_map.mp member
      exact (each pair listed).1
    · exact List.pairwise_map.mpr (rises.imp And.left)
  · apply sublist_of_increasing _ overlapWords_increasing
    · intro entry member
      obtain ⟨pair, listed, rfl⟩ := List.mem_map.mp member
      exact (each pair listed).2.1
    · exact List.pairwise_map.mpr (rises.imp And.right)

/-- The worth of an alignment counts its pairs before it compares their distance. -/
theorem worth_aligned {pairs : List OverlapPair}
    (aligned : Aligns (overlapGain table) (overlapWords overlapStart overlapEnd previous)
      (overlapWords overlapStart overlapEnd current) pairs) :
    worth (overlapGain table) pairs = toLex ((pairs.map OverlapPair.indexes).length,
      -totalDistance previous current (pairs.map OverlapPair.indexes)) := by
  have each (pair : OverlapPair) (member : pair ∈ pairs) :
      (overlapGain table pair.1 pair.2).getD 0 =
        toLex (1, -pairDistance previous current pair.indexes) := by
    have prior := (mem_overlapWords.mp (aligned.left.subset (List.mem_map_of_mem member))).1
    have word := (mem_overlapWords.mp (aligned.right.subset (List.mem_map_of_mem member))).1
    have gains := aligned.gains pair member
    unfold overlapGain pairGain at gains ⊢
    split at gains
    · next agrees =>
        rw [if_pos agrees]
        simp only [pairDistance, OverlapPair.indexes, prior, word, Option.getD_some]
        rw [neg_add']
    · contradiction
  unfold worth totalDistance
  clear aligned
  induction pairs with
  | nil => rfl
  | cons pair pairs ih =>
      have rest := ih fun next member => each next (List.mem_cons_of_mem _ member)
      rw [List.map_cons, List.sum_cons, each pair List.mem_cons_self, rest, ← toLex_add]
      simp only [List.map_cons, List.sum_cons, List.length_cons, Prod.mk_add_mk]
      rw [neg_add, Nat.add_comm]

theorem alignOverlapWords_matching (table : FoldTable) (previous current : List GlobalWord)
    (overlapStart overlapEnd : Int) :
    OverlapMatching table previous current overlapStart overlapEnd
      (alignOverlapWords table previous current overlapStart overlapEnd) :=
  OverlapMatching.of_aligns (alignItems_best (overlapGain table)
    (overlapWords overlapStart overlapEnd previous)
    (overlapWords overlapStart overlapEnd current)).aligned

/-- The alignment is a matching that no other one beats: none has more pairs, and none with as many
has a smaller distance. -/
theorem alignOverlapWords_optimal (table : FoldTable) (previous current : List GlobalWord)
    (overlapStart overlapEnd : Int) :
    OverlapMatching table previous current overlapStart overlapEnd
        (alignOverlapWords table previous current overlapStart overlapEnd) ∧
      ∀ matched, OverlapMatching table previous current overlapStart overlapEnd matched →
        matched.length < (alignOverlapWords table previous current overlapStart overlapEnd).length ∨
          matched.length =
              (alignOverlapWords table previous current overlapStart overlapEnd).length ∧
            totalDistance previous current
                (alignOverlapWords table previous current overlapStart overlapEnd) ≤
              totalDistance previous current matched := by
  have best := alignItems_best (overlapGain table)
    (overlapWords overlapStart overlapEnd previous) (overlapWords overlapStart overlapEnd current)
  constructor
  · exact alignOverlapWords_matching table previous current overlapStart overlapEnd
  · intro matched matching
    obtain ⟨pairs, rfl, aligned⟩ := matching.aligns
    have below := best.optimum.highest pairs aligned
    rw [worth_aligned aligned, worth_aligned best.aligned, Prod.Lex.toLex_le_toLex] at below
    rcases below with fewer | ⟨same, further⟩
    · exact .inl fewer
    · exact .inr ⟨same, neg_le_neg_iff.mp further⟩

end LumenCopilot.Media
