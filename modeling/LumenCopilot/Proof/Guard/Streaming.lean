import LumenCopilot.Construction.Guard.ReasoningGuard

namespace LumenCopilot.Guard

open Python

/-- A longer text continues from the state that the shorter text leaves. -/
theorem ReasoningGuard.feed_append (table : UnicodeTable) (guard : ReasoningGuard)
    (first second : Text) :
    guard.feed table (first ++ second) =
      (((guard.feed table first).1.feed table second).1,
        (guard.feed table first).2 ++ ((guard.feed table first).1.feed table second).2) := by
  induction first generalizing guard with
  | nil => simp [feed]
  | cons c rest ih => simp [feed, ih]

/-- The state after a stream does not depend on its chunks. -/
theorem ReasoningGuard.feedChunks_flatten (table : UnicodeTable) (guard : ReasoningGuard)
    (chunks : List Text) :
    guard.feedChunks table chunks = guard.feed table chunks.flatten := by
  induction chunks generalizing guard with
  | nil => rfl
  | cons chunk rest ih => simp [feedChunks, feed_append, ih]

/-- The published text of a stream is the replay of its whole text. -/
theorem publishedText_flatten (table : UnicodeTable) (chunks : List Text) :
    publishedText table chunks = sanitizeProviderText table chunks.flatten := by
  simp only [publishedText, sanitizeProviderText, ReasoningGuard.feedChunks_flatten]

/-- This guard differs only in the count of blocked markers. -/
def ReasoningGuard.addBlocks (guard : ReasoningGuard) (count : Nat) : ReasoningGuard :=
  { guard with blockedBlocks := guard.blockedBlocks + count }

section

variable (table : UnicodeTable) (guard : ReasoningGuard) (count : Nat)

theorem ReasoningGuard.visibleChar_addBlocks (c : Char) :
    (guard.addBlocks count).visibleChar table c =
      ((guard.visibleChar table c).1.addBlocks count, (guard.visibleChar table c).2) := by
  unfold visibleChar
  by_cases discarded : guard.discard = true
  · simp [addBlocks, discarded]
  · simp only [addBlocks, discarded, Bool.false_eq_true, ↓reduceIte]
    rcases settleSentinel table (guard.sentinelPending ++ [c]) with ⟨out, rest | rest⟩
    · simp only [Nat.add_right_comm]
    · rfl

theorem ReasoningGuard.visible_addBlocks (text : Text) :
    (guard.addBlocks count).visible table text =
      ((guard.visible table text).1.addBlocks count, (guard.visible table text).2) := by
  induction text generalizing guard with
  | nil => rfl
  | cons c rest ih => simp [visible, visibleChar_addBlocks, ih]

theorem ReasoningGuard.release_addBlocks (text : Text) :
    (guard.addBlocks count).release table text =
      ((guard.release table text).1.addBlocks count, (guard.release table text).2) := by
  simp only [release, visible_addBlocks]
  by_cases outside : guard.stack.isEmpty = true
  · simp [addBlocks, outside]
  · simp [addBlocks, outside]

theorem ReasoningGuard.complete_addBlocks (pending : Text) :
    (guard.addBlocks count).complete table pending =
      ((guard.complete table pending).1.addBlocks count,
        (guard.complete table pending).2) := by
  unfold complete
  rw [release_addBlocks]
  cases openMatch table pending with
  | some tag =>
      by_cases deep : maxNesting ≤ guard.stack.length
      · simp [addBlocks, deep, Nat.add_right_comm]
      · simp [addBlocks, deep, Nat.add_right_comm]
  | none =>
      cases closeMatch pending with
      | some tag => simp [addBlocks, Nat.add_right_comm]
      | none =>
          by_cases control : controlMatch pending = true
          · simp [addBlocks, control, Nat.add_right_comm]
          · simp [control]

theorem ReasoningGuard.extend_addBlocks (c : Char) :
    (guard.addBlocks count).extend table c =
      ((guard.extend table c).1.addBlocks count, (guard.extend table c).2) := by
  have cleared := complete_addBlocks table { guard with pending := [] } count (guard.pending ++ [c])
  have released := release_addBlocks table guard count (guard.pending ++ [c])
  have samePending : (guard.addBlocks count).pending = guard.pending := rfl
  unfold extend
  rw [samePending]
  by_cases long : maxMarkerChars < (guard.pending ++ [c]).length
  · simp only [long, ↓reduceIte, addBlocks, Nat.add_right_comm]
  by_cases candidate : markerCandidate table (guard.pending ++ [c]) = true
  · by_cases inner : (c != '>' && c != ']') = true
    · simp only [long, candidate, inner, Bool.not_true, Bool.false_eq_true, ↓reduceIte]
      rfl
    by_cases double : (startsWith (guard.pending ++ [c]) ['<', '<'] &&
        !(['>', '>'].isSuffixOf (guard.pending ++ [c]))) = true
    · simp only [long, candidate, inner, double, Bool.not_true, Bool.false_eq_true, ↓reduceIte]
      rfl
    · simp only [long, candidate, inner, double, Bool.not_true, Bool.false_eq_true, ↓reduceIte]
      exact cleared
  · simp only [long, candidate, Bool.not_false, ↓reduceIte, released]
    rfl

theorem ReasoningGuard.feedChar_addBlocks (c : Char) :
    (guard.addBlocks count).feedChar table c =
      ((guard.feedChar table c).1.addBlocks count, (guard.feedChar table c).2) := by
  have samePending : (guard.addBlocks count).pending = guard.pending := rfl
  have sameDiscard : (guard.addBlocks count).discard = guard.discard := rfl
  unfold feedChar
  rw [extend_addBlocks, release_addBlocks, release_addBlocks, samePending, sameDiscard]
  split
  · rfl
  · split
    · split <;> rfl
    · split <;> rfl

/-- The count of blocked markers never changes what the guard publishes. -/
theorem ReasoningGuard.feed_addBlocks (text : Text) :
    (guard.addBlocks count).feed table text =
      ((guard.feed table text).1.addBlocks count, (guard.feed table text).2) := by
  induction text generalizing guard with
  | nil => rfl
  | cons c rest ih => simp [feed, feedChar_addBlocks, ih]

theorem ReasoningGuard.flush_addBlocks :
    ((guard.addBlocks count).flush table).2 = (guard.flush table).2 := by
  have shifted (blocks : Nat) :
      ({ guard with pending := [], blockedBlocks := blocks + count } : ReasoningGuard) =
        { guard with pending := [], blockedBlocks := blocks }.addBlocks count := rfl
  have samePending : (guard.addBlocks count).pending = guard.pending := rfl
  unfold flush
  simp only [samePending]
  by_cases hidden : (guard.discard || !guard.stack.isEmpty) = true
  · simp [addBlocks, hidden]
  · simp only [addBlocks, hidden, Bool.false_eq_true, ↓reduceIte]
    by_cases suspicious : (!guard.pending.isEmpty && suspiciousPartial table guard.pending) = true
    · simp only [suspicious, ↓reduceIte]
      rw [Nat.add_right_comm, shifted, visible_addBlocks]
      rfl
    · simp only [suspicious, Bool.false_eq_true, ↓reduceIte]
      rw [shifted, visible_addBlocks]
      rfl

end

/-- The safe states are the initial state with some count of blocked markers. -/
theorem ReasoningGuard.continuationSafe_iff (guard : ReasoningGuard) :
    guard.continuationSafe = true ↔ guard = fresh.addBlocks guard.blockedBlocks := by
  rcases guard with ⟨pending, stack, sentinelPending, discard, blocks⟩
  simp [continuationSafe, fresh, addBlocks, and_assoc]

/-- A stream publishes its replay, and a safe prefix publishes what no later text changes. -/
theorem streaming_eq_replay (table : UnicodeTable) :
    (∀ chunks : List Text,
      publishedText table chunks = sanitizeProviderText table chunks.flatten) ∧
    ∀ (chunks : List Text) (rest : Text),
      (ReasoningGuard.fresh.feedChunks table chunks).1.continuationSafe = true →
        sanitizeProviderText table (chunks.flatten ++ rest) =
          (ReasoningGuard.fresh.feedChunks table chunks).2 ++ sanitizeProviderText table rest := by
  refine ⟨publishedText_flatten table, ?_⟩
  intro chunks rest safe
  rw [ReasoningGuard.feedChunks_flatten] at safe ⊢
  have initial := (ReasoningGuard.continuationSafe_iff _).mp safe
  simp only [sanitizeProviderText, ReasoningGuard.feed_append]
  rw [initial, ReasoningGuard.feed_addBlocks, ReasoningGuard.flush_addBlocks, List.append_assoc]

/-- A closed reasoning block leaves a safe state and publishes only the text around it. -/
theorem streaming_eq_replay_closed_block :
    publishedText .symbols ["a<th".toList, "".toList, "ink>b</think>".toList, "c".toList] =
        sanitizeProviderText .symbols "a<think>b</think>c".toList ∧
      (ReasoningGuard.fresh.feedChunks .symbols
        ["a<th".toList, "ink>b</think>".toList]).1.continuationSafe = true ∧
      sanitizeProviderText .symbols ("a<think>b</think>".toList ++ "c".toList) =
        (ReasoningGuard.fresh.feedChunks .symbols
          ["a<th".toList, "ink>b</think>".toList]).2 ++
            sanitizeProviderText .symbols "c".toList := by
  have safe : (ReasoningGuard.fresh.feedChunks .symbols
      ["a<th".toList, "ink>b</think>".toList]).1.continuationSafe = true := by decide
  exact ⟨(streaming_eq_replay .symbols).1 _, safe,
    (streaming_eq_replay .symbols).2 ["a<th".toList, "ink>b</think>".toList] "c".toList safe⟩

end LumenCopilot.Guard
