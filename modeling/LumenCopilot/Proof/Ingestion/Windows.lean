import LumenCopilot.Proof.Ingestion.Reassembly

namespace LumenCopilot.Ingestion

open Python

variable {text : Text} {chunkSize overlap windowStart : Nat}

/-- A cut is at most the window's size away. -/
theorem windowCut_size (within : windowStart < text.length) (positive : 0 < chunkSize) :
    windowCut text chunkSize overlap windowStart ≤ windowStart + chunkSize := by
  have inside : windowStart < min (windowStart + chunkSize) text.length := by omega
  have bounds := (findBoundary_bounds text inside).2
  unfold windowCut
  dsimp only
  split
  · split <;> omega
  · split <;> omega

theorem windowsFrom_size (positive : 0 < chunkSize) (fuel : Nat) (windowStart : Nat) :
    ∀ span ∈ windowsFrom text chunkSize overlap fuel windowStart, span.2 - span.1 ≤ chunkSize := by
  induction fuel generalizing windowStart with
  | zero => nofun
  | succ fuel ih =>
      intro span member
      unfold windowsFrom at member
      split at member
      · next within =>
          rcases List.mem_cons.mp member with rfl | later
          · have size := @windowCut_size text chunkSize overlap windowStart within positive
            dsimp only
            omega
          · split at later
            · contradiction
            · exact ih _ span later
      · contradiction

/-- The start of the first window. -/
theorem windowsFrom_head (fuel windowStart : Nat) :
    ∀ span ∈ (windowsFrom text chunkSize overlap fuel windowStart).head?, span.1 = windowStart := by
  intro span first
  cases fuel with
  | zero => contradiction
  | succ fuel =>
      unfold windowsFrom at first
      split at first
      · obtain rfl := Option.mem_some_iff.mp first
        rfl
      · contradiction

/-- Each window starts the overlap before the end of the last one. -/
theorem windowsFrom_shared (positive : 0 < chunkSize) (fits : overlap < chunkSize) (fuel : Nat)
    (windowStart : Nat) : (windowsFrom text chunkSize overlap fuel windowStart).IsChain
      fun first second => second.1 + overlap = first.2 := by
  induction fuel generalizing windowStart with
  | zero => exact List.IsChain.nil
  | succ fuel ih =>
      unfold windowsFrom
      split
      · next within =>
          dsimp only
          split
          · exact List.IsChain.singleton _
          · next early =>
              have progress := (windowCut_bounds positive fits within).2.2 (by omega)
              apply List.isChain_cons.mpr
              constructor
              · intro span first
                rw [windowsFrom_head fuel _ span first]
                dsimp only
                omega
              · exact ih _
      · exact List.IsChain.nil

/-- The loop ends before the fuel does. -/
theorem chunkLoop_fuel (positive : 0 < chunkSize) (fits : overlap < chunkSize) (fuel more : Nat)
    (windowStart ordinal : Nat) (within : windowStart < text.length)
    (enough : text.length ≤ windowStart + fuel) :
    chunkLoop text chunkSize overlap (fuel + more) windowStart ordinal =
      chunkLoop text chunkSize overlap fuel windowStart ordinal := by
  induction fuel generalizing windowStart ordinal with
  | zero => omega
  | succ fuel ih =>
      obtain ⟨after, below, progress⟩ := windowCut_bounds positive fits within
      rw [show fuel + 1 + more = (fuel + more) + 1 by omega]
      unfold chunkLoop
      dsimp only
      by_cases last : text.length ≤ windowCut text chunkSize overlap windowStart
      · simp only [if_pos last]
      · have later (ordinal : Nat) := ih
          (windowCut text chunkSize overlap windowStart - overlap) ordinal (by omega) (by omega)
        simp only [if_neg last, later]

/-- The ordinals of the chunks count from the first. -/
theorem chunkLoop_ordinals (fuel windowStart ordinal : Nat) :
    (chunkLoop text chunkSize overlap fuel windowStart ordinal).map TextChunk.ord =
      List.range' ordinal (chunkLoop text chunkSize overlap fuel windowStart ordinal).length := by
  induction fuel generalizing windowStart ordinal with
  | zero => rfl
  | succ fuel ih =>
      unfold chunkLoop
      dsimp only
      split
      · split
        · split
          · rfl
          · exact ih _ ordinal
        · split
          · rfl
          · rw [List.map_cons, List.length_cons, List.range'_succ, ih]
      · rfl

/-- The chunks of a text are its windows that are not blank, and they cover it exactly. -/
structure Covering (text : Text) (chunkSize overlap : Nat) (chunks : List TextChunk) : Prop where
  spans : chunks.map (fun chunk => (chunk.charStart, chunk.charEnd)) =
    (windows text chunkSize overlap).filter fun span => !isBlank (slice text span.1 span.2)
  shared : (windows text chunkSize overlap).IsChain fun first second =>
    second.1 + overlap = first.2
  sliced : ∀ chunk ∈ chunks, chunk.text = slice text chunk.charStart chunk.charEnd
  filled : ∀ chunk ∈ chunks, isBlank chunk.text = false
  short : ∀ chunk ∈ chunks, chunk.text.length ≤ chunkSize
  ordinals : chunks.map TextChunk.ord = List.range chunks.length
  ascending : chunks.Pairwise fun first second =>
    first.charStart < second.charStart ∧ first.charEnd < second.charEnd
  covers : ∀ place c, text[place]? = some c → isSpace c = false →
    ∃ chunk ∈ chunks, chunk.charStart ≤ place ∧ place < chunk.charEnd

/-- These are the spans of a text without chunks. -/
theorem windows_blank (blank : isBlank text = true) (chunkSize overlap : Nat) :
    (windows text chunkSize overlap).filter (fun span => !isBlank (slice text span.1 span.2)) = [] := by
  apply List.filter_eq_nil_iff.mpr
  intro span _
  rw [isBlank_slice blank]
  exact Bool.false_ne_true

theorem chunkText_spans {size share : Int} {chunks : List TextChunk}
    (chunked : chunkText text size share = .ok chunks) :
    chunks.map (fun chunk => (chunk.charStart, chunk.charEnd)) =
      (windows text size.toNat share.toNat).filter fun span =>
        !isBlank (slice text span.1 span.2) := by
  obtain ⟨blank, rfl⟩ | ⟨_, _, _, rfl⟩ := chunkText_cases chunked
  · exact (windows_blank blank _ _).symm
  · exact chunksOf_spans _ _ _

theorem chunkText_covering {size share : Int} {chunks : List TextChunk} (sized : 0 < size.toNat)
    (fits : share.toNat < size.toNat) (chunked : chunkText text size share = .ok chunks) :
    Covering text size.toNat share.toNat chunks := by
  have spans := chunkText_spans chunked
  have slices := chunkText_slices chunked
  have window (chunk : TextChunk) (member : chunk ∈ chunks) :
      (chunk.charStart, chunk.charEnd) ∈ windows text size.toNat share.toNat ∧
        isBlank (slice text chunk.charStart chunk.charEnd) = false := by
    have known := List.mem_map_of_mem (f := fun chunk => (chunk.charStart, chunk.charEnd)) member
    rw [spans, List.mem_filter, Bool.not_eq_true'] at known
    exact known
  constructor
  · exact spans
  · exact windowsFrom_shared sized fits _ _
  · exact slices.sliced
  · intro chunk member
    rw [slices.sliced chunk member]
    exact (window chunk member).2
  · intro chunk member
    have size := windowsFrom_size sized _ _ _ (window chunk member).1
    rw [slices.sliced chunk member, slice_length (slices.within chunk member).2]
    exact size
  · obtain ⟨_, rfl⟩ | ⟨_, _, _, rfl⟩ := chunkText_cases chunked
    · rfl
    · rw [List.range_eq_range']
      exact chunkLoop_ordinals _ _ _
  · exact slices.ascending
  · intro place c found plain
    by_contra uncovered
    have blank := chunkText_uncovered chunked found
      (List.any_eq_false.mpr fun chunk member inside => uncovered
        ⟨chunk, member, by simpa only [Bool.and_eq_true, decide_eq_true_eq] using inside⟩)
    rw [plain] at blank
    contradiction

/-- Every text is cut into exact slices that cover it, and the loop ends. -/
theorem chunkText_covers (text : Text) (size share : Int) (lower : 0 ≤ share) (upper : share < size) :
    ∃ chunks, chunkText text size share = .ok chunks ∧
      Covering text size.toNat share.toNat chunks ∧
      (isBlank text = false → ∀ more,
        chunkLoop text size.toNat share.toNat (text.length + more) 0 0 = chunks) := by
  have sized : 0 < size.toNat := by omega
  have fits : share.toNat < size.toNat := by omega
  have chunked : chunkText text size share =
      .ok (if isBlank text then [] else chunksOf text size.toNat share.toNat) := by
    unfold chunkText
    rw [if_neg (by omega), if_neg (by omega)]
    split
    · rfl
    · rfl
  apply Exists.intro
  apply And.intro chunked
  constructor
  · exact chunkText_covering sized fits chunked
  · intro plain more
    have filled : text ≠ [] := by
      intro empty
      rw [empty] at plain
      contradiction
    rw [if_neg (by rw [plain]; exact Bool.false_ne_true)]
    exact chunkLoop_fuel sized fits _ more 0 0 (List.length_pos_iff.mpr filled) (by omega)

/-- A text with a blank window is cut into two chunks. -/
theorem chunkText_covers_words : ∃ chunks,
    chunkText "one     two".toList 4 0 = .ok chunks ∧ Covering "one     two".toList 4 0 chunks ∧
      (isBlank "one     two".toList = false → ∀ more,
        chunkLoop "one     two".toList 4 0 ("one     two".toList.length + more) 0 0 = chunks) :=
  chunkText_covers "one     two".toList 4 0 (by decide) (by decide)

end LumenCopilot.Ingestion
