import LumenCopilot.Construction.Media.Stitching
import LumenCopilot.Proof.Library.Dict

namespace LumenCopilot.Media

open Python Library

variable {durationMs maxChunkMs overlapMs start : Int} {index : Nat} {spans : List MediaSpan}

/-- These are the spans of a plan from a start on: each one but the last is longer than the overlap
and shares it with the next one, and the last one ends with the media. -/
inductive Planned (durationMs overlapMs : Int) : Nat → Int → List MediaSpan → Prop where
  | last (index : Nat) (start : Int) (lower : 0 ≤ start) (upper : start < durationMs) :
      Planned durationMs overlapMs index start [⟨index, start, durationMs⟩]
  | next (index : Nat) (start stop : Int) (rest : List MediaSpan) (lower : 0 ≤ start)
      (long : start + overlapMs < stop) (inside : stop < durationMs)
      (planned : Planned durationMs overlapMs (index + 1) (stop - overlapMs) rest) :
      Planned durationMs overlapMs index start (⟨index, start, stop⟩ :: rest)

/-- The loop plans every start before the end of the media, and the fuel is enough. -/
theorem planFrom_planned (positive : 0 < overlapMs) (fits : overlapMs < maxChunkMs) (fuel index : Nat)
    (start : Int) (lower : 0 ≤ start) (upper : start < durationMs)
    (enough : durationMs ≤ start + fuel) :
    Planned durationMs overlapMs index start
      (planFrom durationMs maxChunkMs overlapMs fuel index start) := by
  induction fuel generalizing index start with
  | zero => omega
  | succ fuel ih =>
      unfold planFrom
      rw [if_pos upper]
      dsimp only
      by_cases ends : durationMs ≤ start + maxChunkMs
      · rw [min_eq_left ends, if_pos rfl]
        exact .last index start lower upper
      · rw [min_eq_right (not_le.mp ends).le, if_neg (not_le.mp ends).ne]
        apply Planned.next index start _ _ lower (by omega) (not_le.mp ends)
        exact ih (index + 1) _ (by omega) (by omega) (by omega)

theorem planAudioChunks_planned
    (plan : planAudioChunks durationMs maxChunkMs overlapMs = .ok spans) :
    0 < overlapMs ∧ Planned durationMs overlapMs 0 0 spans := by
  unfold planAudioChunks at plan
  split at plan
  · contradiction
  · next sized =>
      split at plan
      · contradiction
      · next shared =>
          obtain rfl := Except.ok.inj plan
          have positive : 0 < overlapMs := by omega
          exact ⟨positive, planFrom_planned positive (by omega) _ 0 0 (le_refl 0) (by omega) (by omega)⟩

/-- The indexes of a plan count from the first. -/
theorem Planned.indexes (planned : Planned durationMs overlapMs index start spans) :
    spans.map MediaSpan.index = (List.range' index spans.length).map Int.ofNat := by
  induction planned with
  | last => rfl
  | next index start stop rest lower long inside planned ih =>
      rw [List.map_cons, List.length_cons, List.range'_succ, List.map_cons, ih]
      rfl

/-- The indexes of a plan go up. -/
theorem Planned.rises (planned : Planned durationMs overlapMs index start spans) :
    (spans.map MediaSpan.index).Pairwise (· < ·) := by
  rw [planned.indexes, List.pairwise_map]
  exact List.Pairwise.imp (fun below => Int.ofNat_lt.mpr below) List.pairwise_lt_range'

/-- Chunks over the spans of a plan are sorted into the order of the plan. -/
theorem Planned.sorted (planned : Planned durationMs overlapMs index start spans)
    {chunks : List ChunkTranscription}
    (planning : (chunks.map ChunkTranscription.span).Perm spans) :
    (sortedBy (fun item : ChunkTranscription => item.span.index) chunks).map
      ChunkTranscription.span = spans := by
  have rises := planned.rises
  have moved : (sortedBy (fun item : ChunkTranscription => item.span.index) chunks).map
      ChunkTranscription.span =
        sortedBy MediaSpan.index (chunks.map ChunkTranscription.span) :=
    List.map_insertionSort _ _ _ _ fun _ _ _ _ => Iff.rfl
  have distinct : ((chunks.map ChunkTranscription.span).map MediaSpan.index).Nodup :=
    (planning.map MediaSpan.index).nodup_iff.mpr (rises.imp LT.lt.ne)
  rw [moved, sortedBy_eq_of_perm MediaSpan.index planning distinct]
  exact sortedBy_of_pairwise _ ((List.pairwise_map.mp rises).imp LT.lt.le)

/-- The starts of a plan go up from the first. -/
theorem Planned.starts (planned : Planned durationMs overlapMs index start spans) :
    (∀ span ∈ spans, start ≤ span.startMs) ∧
      spans.Pairwise fun first second => first.startMs < second.startMs := by
  induction planned with
  | last => simp
  | next index start stop rest lower long inside planned ih =>
      obtain ⟨later, pairs⟩ := ih
      constructor
      · intro span member
        rcases List.mem_cons.mp member with rfl | behind
        · exact le_refl _
        · have below := later span behind
          omega
      · apply List.pairwise_cons.mpr
        constructor
        · intro span behind
          have below := later span behind
          show start < span.startMs
          omega
        · exact pairs

/-- These are the edges of the ownership windows. -/
def ownershipEdges (durationMs : Int) (spans : List MediaSpan) : List Int :=
  0 :: boundaries spans ++ [durationMs + 1]

/-- A boundary lies in the middle of an overlap. -/
theorem Planned.boundaries (positive : 0 < overlapMs)
    (planned : Planned durationMs overlapMs index start spans) :
    (∀ edge ∈ boundaries spans, (2 * start + overlapMs) / 2 ≤ edge ∧ edge ≤ durationMs) ∧
      (Media.boundaries spans).Pairwise (· ≤ ·) ∧
      (Media.boundaries spans).length + 1 = spans.length := by
  induction planned with
  | last => simp [Media.boundaries]
  | next index start stop rest lower long inside planned ih =>
      obtain ⟨bounds, pairs, count⟩ := ih
      have unfolded : Media.boundaries (⟨index, start, stop⟩ :: rest) =
          (2 * (stop - overlapMs) + overlapMs) / 2 :: Media.boundaries rest := by
        have halves : stop + (stop - overlapMs) = 2 * (stop - overlapMs) + overlapMs := by ring
        cases planned with
        | last => simp [Media.boundaries, halves]
        | next => simp [Media.boundaries, halves]
      rw [unfolded]
      constructor
      · intro edge member
        rcases List.mem_cons.mp member with rfl | later
        · omega
        · have bound := bounds edge later
          omega
      · constructor
        · exact List.pairwise_cons.mpr ⟨fun edge later => (bounds edge later).1, pairs⟩
        · rw [List.length_cons, List.length_cons, count]

/-- A place between the first and the last edge lies between exactly two neighbours. -/
theorem existsUnique_between {edges : List Int} (rises : edges.Pairwise (· ≤ ·)) {place : Int}
    {low high : Int} (first : edges.head? = some low) (last : edges.getLast? = some high)
    (above : low ≤ place) (below : place < high) :
    ∃! index, ∃ low high, edges[index]? = some low ∧ edges[index + 1]? = some high ∧
      low ≤ place ∧ place < high := by
  apply existsUnique_of_exists_of_unique
  · induction edges generalizing low with
    | nil => contradiction
    | cons edge edges ih =>
        obtain rfl := Option.some.inj first
        cases edges with
        | nil =>
            rw [List.getLast?_singleton] at last
            have ends := Option.some.inj last
            omega
        | cons next edges =>
            by_cases here : place < next
            · exact ⟨0, edge, next, rfl, rfl, above, here⟩
            · rw [List.getLast?_cons_cons] at last
              obtain ⟨index, found⟩ := ih (List.pairwise_cons.mp rises).2 rfl last
                (not_lt.mp here)
              exact ⟨index + 1, found⟩
  · intro one other ⟨oneLow, oneHigh, oneFirst, oneNext, oneAbove, oneBelow⟩
      ⟨otherLow, otherHigh, otherFirst, otherNext, otherAbove, otherBelow⟩
    have ordered {index later : Nat} {first second : Int} (firstAt : edges[index]? = some first)
        (secondAt : edges[later]? = some second) (before : index ≤ later) : first ≤ second := by
      rcases Nat.lt_or_eq_of_le before with apart | rfl
      · obtain ⟨within, rfl⟩ := List.getElem?_eq_some_iff.mp firstAt
        obtain ⟨inside, rfl⟩ := List.getElem?_eq_some_iff.mp secondAt
        exact List.pairwise_iff_getElem.mp rises index later within inside apart
      · rw [firstAt] at secondAt
        exact (Option.some.inj secondAt).le
    rcases Nat.lt_trichotomy one other with less | same | greater
    · have bound := ordered oneNext otherFirst less
      omega
    · exact same
    · have bound := ordered otherNext oneFirst greater
      omega

theorem length_boundaries (filled : spans ≠ []) :
    (Media.boundaries spans).length + 1 = spans.length := by
  have positive := List.length_pos_iff.mpr filled
  rw [Media.boundaries, List.length_zipWith, List.length_tail]
  omega

/-- A window lies between two neighbours of the edges. -/
theorem ownershipWindow_edges (durationMs : Int) (within : index < spans.length) :
    (ownershipEdges durationMs spans)[index]? = some (ownershipWindow durationMs spans index).1 ∧
      (ownershipEdges durationMs spans)[index + 1]? =
        some (ownershipWindow durationMs spans index).2 := by
  have filled : spans ≠ [] := List.ne_nil_of_length_pos (Nat.zero_lt_of_lt within)
  have count := length_boundaries filled
  unfold ownershipEdges ownershipWindow
  dsimp only
  constructor
  · cases index with
    | zero => rfl
    | succ index =>
        have inside : index < (Media.boundaries spans).length := by omega
        rw [List.cons_append, List.getElem?_cons_succ, List.getElem?_append_left inside,
          if_neg (Nat.succ_ne_zero index), Nat.add_sub_cancel, List.getD_eq_getElem?_getD,
          List.getElem?_eq_getElem inside]
        rfl
  · rw [List.cons_append, List.getElem?_cons_succ]
    by_cases last : index + 1 = spans.length
    · rw [if_pos last, show index = (Media.boundaries spans).length by omega]
      simp
    · have inside : index < (Media.boundaries spans).length := by omega
      rw [if_neg last, List.getElem?_append_left inside, List.getD_eq_getElem?_getD,
        List.getElem?_eq_getElem inside]
      rfl

/-- Every time of the media lies in exactly one ownership window. -/
def Partitions (durationMs : Int) (spans : List MediaSpan) : Prop :=
  ∀ time, 0 ≤ time → time ≤ durationMs → ∃! index, index < spans.length ∧
    (ownershipWindow durationMs spans index).1 ≤ time ∧
    time < (ownershipWindow durationMs spans index).2

theorem Planned.partitions (positive : 0 < overlapMs)
    (planned : Planned durationMs overlapMs 0 0 spans) : Partitions durationMs spans := by
  intro time lower upper
  obtain ⟨bounds, pairs, count⟩ := planned.boundaries positive
  have filled : spans ≠ [] := by
    rintro rfl
    contradiction
  have rises : (ownershipEdges durationMs spans).Pairwise (· ≤ ·) := by
    unfold ownershipEdges
    rw [List.cons_append, List.pairwise_cons, List.pairwise_append]
    refine ⟨?_, pairs, List.pairwise_singleton _ _, ?_⟩
    · intro edge member
      rcases List.mem_append.mp member with inner | last
      · have bound := (bounds edge inner).1
        omega
      · rw [List.mem_singleton.mp last]
        omega
    · intro edge inner last member
      have bound := (bounds edge inner).2
      rw [List.mem_singleton.mp member]
      omega
  obtain ⟨index, ⟨low, high, lowAt, highAt, above, below⟩, unique⟩ :=
    existsUnique_between rises rfl List.getLast?_concat lower (Int.lt_add_one_of_le upper)
  have size : (ownershipEdges durationMs spans).length = spans.length + 1 := by
    simp [ownershipEdges, count]
  have within : index < spans.length := by
    have inside := (List.getElem?_eq_some_iff.mp highAt).1
    omega
  obtain ⟨first, second⟩ := ownershipWindow_edges durationMs within
  rw [lowAt] at first
  rw [highAt] at second
  refine ⟨index, ⟨within, ?_, ?_⟩, ?_⟩
  · rw [← Option.some.inj first]
    exact above
  · rw [← Option.some.inj second]
    exact below
  · intro other ⟨otherWithin, otherAbove, otherBelow⟩
    obtain ⟨otherFirst, otherSecond⟩ := ownershipWindow_edges durationMs otherWithin
    exact unique other ⟨_, _, otherFirst, otherSecond, otherAbove, otherBelow⟩

end LumenCopilot.Media
