import LumenCopilot.Proof.Guard.Release
import Mathlib

namespace LumenCopilot.Guard

open Python

/-- Every nonempty start of the text is the start of a sentinel in lower case. -/
def Grows (table : UnicodeTable) (text : Text) : Prop :=
  text ≠ [] ∧ ∀ start, start <+: text → start ≠ [] → isSentinelStart (lower table start) = true

/-- The text contains a sentinel, up to ASCII case. -/
def ContainsSentinel (text : Text) : Prop :=
  ∃ sentinel ∈ sentinels, sentinel <:+: text.map Char.toLower

theorem sentinels_ascii (sentinel : Text) (known : sentinel ∈ sentinels) :
    ∀ c ∈ sentinel, isAscii c = true := by
  have ascii : sentinels.all (fun sentinel => sentinel.all isAscii) = true := by decide
  exact List.all_eq_true.mp (List.all_eq_true.mp ascii sentinel known)

theorem sentinels_nonempty (sentinel : Text) (known : sentinel ∈ sentinels) : sentinel ≠ [] := by
  have nonempty : sentinels.all (fun sentinel => !sentinel.isEmpty) = true := by decide
  simpa using List.all_eq_true.mp nonempty sentinel known

/-- No sentinel lies inside a sentinel, except the whole one. -/
theorem sentinels_apart (first second skipped : Text) (knownFirst : first ∈ sentinels)
    (knownSecond : second ∈ sentinels) (inside : skipped ++ first <+: second) :
    skipped = [] ∧ first = second := by
  have apart : (sentinels.all fun first => sentinels.all fun second =>
      (List.range 64).all fun skip =>
        !(first.isPrefixOf (second.drop skip)) || (skip == 0 && first == second)) = true := by
    decide
  have short : sentinels.all (fun sentinel => decide (sentinel.length < 64)) = true := by
    decide
  have bound : second.length < 64 := by simpa using List.all_eq_true.mp short second knownSecond
  have position : skipped.length ∈ List.range 64 := by
    have within := inside.length_le
    rw [List.length_append] at within
    rw [List.mem_range]
    omega
  have at' := List.all_eq_true.mp (List.all_eq_true.mp (List.all_eq_true.mp apart first knownFirst)
    second knownSecond) skipped.length position
  obtain ⟨rest, whole⟩ := inside
  have starts : first.isPrefixOf (second.drop skipped.length) = true := by
    rw [List.isPrefixOf_iff_prefix, ← whole, List.append_assoc, List.drop_left]
    exact List.prefix_append first rest
  simpa [starts] using at'

theorem isAscii_of_toLower (c : Char) (ascii : isAscii c.toLower = true) : isAscii c = true := by
  by_contra above
  have same : c.toLower = c := by
    unfold Char.toLower
    split
    · next upper =>
        refine absurd ?_ above
        have bound : c.val.toNat ≤ 90 := UInt32.le_iff_toNat_le.mp upper.2
        simp only [isAscii, decide_eq_true_eq]
        change c.val.toNat < 128
        omega
    · rfl
  exact above (same ▸ ascii)

theorem lower_of_ascii (table : UnicodeTable) (text : Text)
    (ascii : ∀ c ∈ text, isAscii c = true) : lower table text = text.map Char.toLower := by
  induction text with
  | nil => rfl
  | cons c rest ih =>
      have first : isAscii c = true := ascii c List.mem_cons_self
      have later := ih fun d member => ascii d (List.mem_cons_of_mem c member)
      simp only [lower, List.flatMap_cons, List.map_cons] at later ⊢
      rw [later, lowerChar, first]
      rfl

theorem lower_of_spelled (table : UnicodeTable) (text sentinel : Text)
    (known : sentinel ∈ sentinels) (spelled : text.map Char.toLower <+: sentinel) :
    lower table text = text.map Char.toLower := by
  apply lower_of_ascii
  intro c member
  apply isAscii_of_toLower
  exact sentinels_ascii sentinel known _ (spelled.subset (List.mem_map_of_mem member))

theorem isSentinelStart_iff (text : Text) :
    isSentinelStart text = true ↔ text ≠ [] ∧ ∃ sentinel ∈ sentinels, text <+: sentinel := by
  simp only [isSentinelStart, startsWith, Bool.and_eq_true, Bool.not_eq_true', List.isEmpty_eq_false_iff,
    List.any_eq_true, List.isPrefixOf_iff_prefix]

/-- A spelled start grows to a sentinel, whatever the Unicode table. -/
theorem grows_of_spelled (table : UnicodeTable) (text sentinel : Text) (nonempty : text ≠ [])
    (known : sentinel ∈ sentinels) (spelled : text.map Char.toLower <+: sentinel) :
    Grows table text := by
  refine ⟨nonempty, ?_⟩
  intro start starts occupied
  have shorter : start.map Char.toLower <+: sentinel := (starts.map Char.toLower).trans spelled
  rw [lower_of_spelled table start sentinel known shorter, isSentinelStart_iff]
  exact ⟨by simpa using occupied, sentinel, known, shorter⟩

variable {table : UnicodeTable} {text : Text}

theorem Grows.start (grows : Grows table text) : isSentinelStart (lower table text) = true :=
  grows.2 text List.prefix_rfl grows.1

theorem Grows.shorter {start : Text} (grows : Grows table text) (starts : start <+: text)
    (nonempty : start ≠ []) : Grows table start :=
  ⟨nonempty, fun first inside occupied => grows.2 first (inside.trans starts) occupied⟩

/-- The matcher never releases a code point of a start at the end of its text. -/
theorem settleSentinel_keeps (table : UnicodeTable) (skipped found : Text)
    (viable : isSentinelStart (lower table found) = true) :
    (∀ out rest, settleSentinel table (skipped ++ found) = (out, some rest) → found <:+ rest) ∧
      ∀ out, settleSentinel table (skipped ++ found) = (out, none) → out <+: skipped := by
  induction skipped with
  | nil =>
      cases found with
      | nil => simp [lower, isSentinelStart] at viable
      | cons c text =>
          simp only [List.nil_append, settleSentinel, viable, ↓reduceIte]
          constructor
          · intro out rest settled
            split at settled
            · simp at settled
            · simp only [Prod.mk.injEq, Option.some.injEq] at settled
              exact settled.2 ▸ List.suffix_rfl
          · intro out settled
            split at settled
            · simp only [Prod.mk.injEq] at settled
              exact settled.1 ▸ List.prefix_rfl
            · simp at settled
  | cons c skipped ih =>
      simp only [List.cons_append, settleSentinel]
      constructor
      · intro out rest settled
        split at settled
        · simp at settled
        · split at settled
          · simp only [Prod.mk.injEq, Option.some.injEq] at settled
            rw [← settled.2]
            exact (List.suffix_append skipped found).trans (List.suffix_cons c _)
          · simp only [Prod.mk.injEq] at settled
            exact ih.1 _ rest (Prod.ext rfl settled.2)
      · intro out settled
        split at settled
        · simp only [Prod.mk.injEq] at settled
          exact settled.1 ▸ List.nil_prefix
        · split at settled
          · simp at settled
          · simp only [Prod.mk.injEq] at settled
            rw [← settled.1]
            exact List.cons_prefix_cons.mpr ⟨rfl, ih.2 _ (Prod.ext rfl settled.2)⟩

/-- The text that the matcher keeps is a start, but not a whole sentinel. -/
theorem settleSentinel_start (table : UnicodeTable) (text out rest : Text)
    (settled : settleSentinel table text = (out, some rest)) (nonempty : rest ≠ []) :
    lower table rest ∉ sentinels ∧ isSentinelStart (lower table rest) = true := by
  induction text generalizing out with
  | nil =>
      simp only [settleSentinel, Prod.mk.injEq, Option.some.injEq] at settled
      exact absurd settled.2.symm nonempty
  | cons c text ih =>
      simp only [settleSentinel] at settled
      split at settled
      · simp at settled
      · next partial' =>
          split at settled
          · next viable =>
              simp only [Prod.mk.injEq, Option.some.injEq] at settled
              rw [← settled.2]
              exact ⟨by simpa using partial', viable⟩
          · simp only [Prod.mk.injEq] at settled
            exact ih _ (Prod.ext rfl settled.2)

/-- Nothing published spells a sentinel, and the look-behind holds every start at the end. -/
structure ReasoningGuard.Guarded (table : UnicodeTable) (guard : ReasoningGuard)
    (published : Text) : Prop where
  clean : ¬ContainsSentinel published
  held : guard.discard = false → ¬ContainsSentinel (published ++ guard.sentinelPending) ∧
    ∀ found, Grows table found → found <:+ published ++ guard.sentinelPending →
      found <:+ guard.sentinelPending

theorem ContainsSentinel.mono {inner outer : Text} (inside : inner <:+: outer)
    (found : ContainsSentinel inner) : ContainsSentinel outer := by
  obtain ⟨sentinel, known, part⟩ := found
  exact ⟨sentinel, known, part.trans (inside.map Char.toLower)⟩

theorem not_containsSentinel_nil : ¬ContainsSentinel [] := by
  intro found
  obtain ⟨sentinel, known, part⟩ := found
  exact sentinels_nonempty sentinel known (List.infix_nil.mp part)

/-- A sentinel that one code point completes ends in that code point. -/
theorem ContainsSentinel.completed {c : Char} (found : ContainsSentinel (text ++ [c]))
    (before : ¬ContainsSentinel text) :
    ∃ start, start ++ [c] <:+ text ++ [c] ∧ (start ++ [c]).map Char.toLower ∈ sentinels := by
  obtain ⟨sentinel, known, skipped, after, split⟩ := found
  rw [List.map_append] at split
  rcases List.eq_nil_or_concat after with rfl | ⟨front, last, rfl⟩
  · rw [List.append_nil, ← List.map_append] at split
    obtain ⟨left, right, whole, leftMap, rightMap⟩ := List.append_eq_map_iff.mp split
    rcases List.eq_nil_or_concat right with rfl | ⟨start, last, rfl⟩
    · exact absurd rightMap.symm (sentinels_nonempty sentinel known)
    · rw [List.concat_eq_append, ← List.append_assoc] at whole
      obtain ⟨-, same⟩ := List.append_inj' whole rfl
      obtain rfl : c = last := by simpa using same
      rw [List.concat_eq_append] at rightMap
      exact ⟨start, ⟨left, by rw [whole, List.append_assoc]⟩, rightMap ▸ known⟩
  · rw [List.concat_eq_append, ← List.append_assoc] at split
    have shorter := (List.append_inj' split rfl).1
    exact absurd ⟨sentinel, known, skipped, front, shorter⟩ before

theorem settleSentinel_stops (table : UnicodeTable) (text out : Text)
    (settled : settleSentinel table text = (out, none)) : out.length < text.length := by
  induction text generalizing out with
  | nil => simp [settleSentinel] at settled
  | cons c text ih =>
      simp only [settleSentinel] at settled
      split at settled
      · simp only [Prod.mk.injEq] at settled
        simp [← settled.1]
      · split at settled
        · simp at settled
        · simp only [Prod.mk.injEq] at settled
          have tail := ih _ (Prod.ext rfl settled.2)
          rw [← settled.1]
          simpa using tail

variable {guard : ReasoningGuard} {published : Text}

/-- A start at the end of the stream still lies in the look-behind and the new code point. -/
theorem ReasoningGuard.Guarded.start_held {c : Char} (guarded : guard.Guarded table published)
    (running : guard.discard = false) (found : Text) (grows : Grows table found)
    (ends : found <:+ published ++ guard.sentinelPending ++ [c]) :
    found <:+ guard.sentinelPending ++ [c] := by
  obtain ⟨skipped, whole⟩ := ends
  rcases List.eq_nil_or_concat found with rfl | ⟨start, last, rfl⟩
  · exact absurd rfl grows.1
  · rw [List.concat_eq_append] at whole grows ⊢
    rw [← List.append_assoc] at whole
    obtain ⟨left, same⟩ := List.append_inj' whole rfl
    obtain rfl : last = c := by simpa using same
    by_cases empty : start = []
    · rw [empty, List.nil_append]
      exact List.suffix_append _ _
    · have held := (guarded.held running).2 start
        (grows.shorter (List.prefix_append start _) empty) ⟨skipped, left⟩
      obtain ⟨front, middle⟩ := held
      exact ⟨front, by rw [← middle, List.append_assoc]⟩

/-- One visible code point keeps the guarded state. -/
theorem ReasoningGuard.Guarded.visibleChar (guarded : guard.Guarded table published) (c : Char) :
    (guard.visibleChar table c).1.Guarded table (published ++ (guard.visibleChar table c).2) := by
  unfold ReasoningGuard.visibleChar
  by_cases discarded : guard.discard = true
  · simp only [discarded, ↓reduceIte, List.append_nil]
    exact guarded
  have running : guard.discard = false := by simpa using discarded
  obtain ⟨clean, -⟩ := guarded.held running
  simp only [running, Bool.false_eq_true, ↓reduceIte]
  rcases settled : settleSentinel table (guard.sentinelPending ++ [c]) with ⟨out, rest | rest⟩
  · have starts := settleSentinel_none table _ out settled
    have shorter := settleSentinel_stops table _ out settled
    have inside : out <+: guard.sentinelPending := by
      apply List.prefix_of_prefix_length_le starts (List.prefix_append _ _)
      simp only [List.length_append, List.length_singleton] at shorter
      omega
    refine ⟨?_, fun stopped => by simp at stopped⟩
    intro found
    exact clean (found.mono ((List.prefix_append_right_inj published).mpr inside).isInfix)
  · have whole := settleSentinel_some table _ out rest settled
    have stream : published ++ out ++ rest = published ++ guard.sentinelPending ++ [c] := by
      rw [List.append_assoc, whole, List.append_assoc]
    have held (found : Text) (grows : Grows table found)
        (ends : found <:+ published ++ out ++ rest) : found <:+ rest := by
      rw [stream] at ends
      obtain ⟨skipped, split⟩ := guarded.start_held running found grows ends
      rw [← split] at settled
      exact (settleSentinel_keeps table skipped found grows.start).1 out rest settled
    have fresh : ¬ContainsSentinel (published ++ out ++ rest) := by
      intro found
      rw [stream] at found
      obtain ⟨start, ends, known⟩ := found.completed clean
      have grows := grows_of_spelled table (start ++ [c]) _ (by simp) known List.prefix_rfl
      rw [← stream] at ends
      obtain ⟨kept, split⟩ := held _ grows ends
      have nonempty : rest ≠ [] := by
        rw [← split]
        simp
      obtain ⟨partial', viable⟩ := settleSentinel_start table _ out rest settled nonempty
      obtain ⟨-, sentinel, knownLonger, start'⟩ := (isSentinelStart_iff _).mp viable
      have spelled : lower table rest = lower table kept ++ (start ++ [c]).map Char.toLower := by
        rw [← split, ← lower_of_spelled table (start ++ [c]) _ known List.prefix_rfl]
        exact List.flatMap_append
      rw [spelled] at start' partial'
      obtain ⟨nothing, same⟩ := sentinels_apart _ sentinel _ known knownLonger start'
      rw [nothing, List.nil_append] at partial'
      exact partial' known
    refine ⟨?_, fun _ => ⟨fresh, held⟩⟩
    intro found
    exact fresh (found.mono (List.prefix_append _ _).isInfix)

/-- Visible text keeps the guarded state. -/
theorem ReasoningGuard.Guarded.visible (guarded : guard.Guarded table published) (text : Text) :
    (guard.visible table text).1.Guarded table (published ++ (guard.visible table text).2) := by
  induction text generalizing guard published with
  | nil =>
      rw [ReasoningGuard.visible, List.append_nil]
      exact guarded
  | cons c rest ih =>
      have first := guarded.visibleChar c
      have tail := ih first
      simp only [ReasoningGuard.visible]
      rw [← List.append_assoc]
      exact tail

/-- A step that keeps the look-behind and publishes nothing keeps the guarded state. -/
theorem ReasoningGuard.Guarded.silent {after : ReasoningGuard}
    (guarded : guard.Guarded table published) (same : after.sentinelPending = guard.sentinelPending)
    (stops : guard.discard = true → after.discard = true) : after.Guarded table published := by
  refine ⟨guarded.clean, fun running => ?_⟩
  have before : guard.discard = false := by
    by_contra discarded
    simp [stops (by simpa using discarded)] at running
  rw [same]
  exact guarded.held before

theorem ReasoningGuard.Guarded.release (guarded : guard.Guarded table published) (text : Text) :
    (guard.release table text).1.Guarded table (published ++ (guard.release table text).2) := by
  unfold ReasoningGuard.release
  split
  · exact guarded.visible text
  · rw [List.append_nil]
    exact guarded

theorem ReasoningGuard.Guarded.complete (guarded : guard.Guarded table published) (pending : Text) :
    (guard.complete table pending).1.Guarded table
      (published ++ (guard.complete table pending).2) := by
  unfold ReasoningGuard.complete
  split
  · split
    · rw [List.append_nil]
      exact guarded.silent rfl fun _ => rfl
    · rw [List.append_nil]
      exact guarded.silent rfl id
  · split
    · rw [List.append_nil]
      exact guarded.silent rfl id
    · split
      · rw [List.append_nil]
        exact guarded.silent rfl id
      · exact guarded.release pending

theorem ReasoningGuard.Guarded.extend (guarded : guard.Guarded table published) (c : Char) :
    (guard.extend table c).1.Guarded table (published ++ (guard.extend table c).2) := by
  unfold ReasoningGuard.extend
  dsimp only
  split
  · rw [List.append_nil]
    exact guarded.silent rfl fun _ => rfl
  · split
    · exact (guarded.release _).silent rfl id
    · split
      · rw [List.append_nil]
        exact guarded.silent rfl id
      · split
        · rw [List.append_nil]
          exact guarded.silent rfl id
        · have cleared : ({ guard with pending := [] } : ReasoningGuard).Guarded table published :=
            guarded.silent rfl id
          exact cleared.complete _

theorem ReasoningGuard.Guarded.feedChar (guarded : guard.Guarded table published) (c : Char) :
    (guard.feedChar table c).1.Guarded table (published ++ (guard.feedChar table c).2) := by
  unfold ReasoningGuard.feedChar
  split
  · rw [List.append_nil]
    exact guarded
  · split
    · split
      · rw [List.append_nil]
        exact guarded.silent rfl id
      · exact guarded.release [c]
    · split
      · exact (guarded.release guard.pending).silent rfl id
      · exact guarded.extend c

theorem ReasoningGuard.Guarded.feed (guarded : guard.Guarded table published) (text : Text) :
    (guard.feed table text).1.Guarded table (published ++ (guard.feed table text).2) := by
  induction text generalizing guard published with
  | nil =>
      rw [ReasoningGuard.feed, List.append_nil]
      exact guarded
  | cons c rest ih =>
      have first := guarded.feedChar c
      have tail := ih first
      simp only [ReasoningGuard.feed]
      rw [← List.append_assoc]
      exact tail

theorem ReasoningGuard.Guarded.flush (guarded : guard.Guarded table published) :
    ¬ContainsSentinel (published ++ (guard.flush table).2) := by
  unfold ReasoningGuard.flush
  split
  · rw [List.append_nil]
    exact guarded.clean
  · have shown (tail : Text) (blocks : Nat) :
        let after := { guard with pending := [], blockedBlocks := blocks }.visible table tail
        ¬ContainsSentinel (published ++
          (after.2 ++ (if after.1.discard then [] else after.1.sentinelPending))) := by
      have start : ({ guard with pending := [], blockedBlocks := blocks } :
          ReasoningGuard).Guarded table published := guarded.silent rfl id
      have final := start.visible tail
      dsimp only
      rw [← List.append_assoc]
      split
      · rw [List.append_nil]
        exact final.clean
      · next running => exact (final.held (by simpa using running)).1
    exact shown _ _

theorem ReasoningGuard.Guarded.fresh (table : UnicodeTable) :
    ReasoningGuard.fresh.Guarded table [] := by
  refine ⟨not_containsSentinel_nil, fun _ => ⟨not_containsSentinel_nil, ?_⟩⟩
  intro found grows ends
  exact ends

/-- No stream publishes a sentinel, whatever its chunks and whatever is cut out of it. -/
theorem publishedText_no_sentinel (table : UnicodeTable) (chunks : List Text) :
    ∀ sentinel ∈ sentinels, ¬sentinel <:+: (publishedText table chunks).map Char.toLower := by
  intro sentinel known inside
  have fed := (ReasoningGuard.Guarded.fresh table).feed chunks.flatten
  rw [publishedText_flatten] at inside
  exact fed.flush ⟨sentinel, known, inside⟩

/-- A sentinel whose parts meet over a swallowed marker stays out of the stream. -/
theorem publishedText_no_sentinel_spliced :
    ¬"output only the summary".toList <:+:
      (publishedText .symbols ["Out<s>put only ".toList, "the summary".toList]).map Char.toLower :=
  publishedText_no_sentinel .symbols ["Out<s>put only ".toList, "the summary".toList] _
    (List.mem_cons_of_mem _ List.mem_cons_self)

end LumenCopilot.Guard
