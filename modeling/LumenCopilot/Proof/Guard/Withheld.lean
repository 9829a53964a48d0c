import LumenCopilot.Proof.Guard.Sentinels
import Mathlib

namespace LumenCopilot.Guard

open Python

/-- The text opens no marker. -/
def Plain (text : Text) : Prop := '<' ∉ text ∧ '[' ∉ text

/-- The lower case of the text contains no sentinel. -/
def FreeOfSentinels (table : UnicodeTable) (text : Text) : Prop :=
  ∀ part, part <:+: text → lower table part ∉ sentinels

/-- The matcher stops only at a whole sentinel. -/
theorem settleSentinel_sentinel (table : UnicodeTable) (text out : Text)
    (settled : settleSentinel table text = (out, none)) :
    ∃ part, part <:+: text ∧ lower table part ∈ sentinels := by
  induction text generalizing out with
  | nil => simp [settleSentinel] at settled
  | cons c text ih =>
      simp only [settleSentinel] at settled
      split at settled
      · next whole => exact ⟨c :: text, List.infix_rfl, by simpa using whole⟩
      · split at settled
        · simp at settled
        · simp only [Prod.mk.injEq] at settled
          obtain ⟨part, inside, known⟩ := ih _ (Prod.ext rfl settled.2)
          exact ⟨part, inside.trans (List.suffix_cons c text).isInfix, known⟩

theorem FreeOfSentinels.mono {table : UnicodeTable} {inner outer : Text}
    (free : FreeOfSentinels table outer) (inside : inner <:+: outer) :
    FreeOfSentinels table inner :=
  fun part within => free part (within.trans inside)

/-- Text without a sentinel never makes the guard discard. -/
theorem ReasoningGuard.visible_runs (table : UnicodeTable) (guard : ReasoningGuard) (text : Text)
    (running : guard.discard = false)
    (free : FreeOfSentinels table (guard.sentinelPending ++ text)) :
    (guard.visible table text).1.discard = false := by
  induction text generalizing guard with
  | nil => exact running
  | cons c text ih =>
      have shown := visibleChar_shows table guard c
      have first : (guard.visibleChar table c).1.discard = false := by
        unfold visibleChar
        simp only [running, Bool.false_eq_true, ↓reduceIte]
        rcases settled : settleSentinel table (guard.sentinelPending ++ [c]) with ⟨out, rest | rest⟩
        · obtain ⟨part, inside, known⟩ := settleSentinel_sentinel table _ out settled
          have within : guard.sentinelPending ++ [c] <+: guard.sentinelPending ++ c :: text :=
            (List.prefix_append_right_inj _).mpr ⟨text, rfl⟩
          exact absurd known (free part (inside.trans within.isInfix))
        · rfl
      apply ih _ first
      have whole := shown.whole first
      apply free.mono
      rw [List.append_cons, ← whole, List.append_assoc]
      exact (List.suffix_append _ _).isInfix

/-- Only the look-behind, the discard flag and the count change while text becomes visible. -/
theorem ReasoningGuard.visible_stack (table : UnicodeTable) (guard : ReasoningGuard) (text : Text) :
    (guard.visible table text).1.stack = guard.stack := by
  induction text generalizing guard with
  | nil => rfl
  | cons c rest ih =>
      have first : (guard.visibleChar table c).1.stack = guard.stack := by
        unfold visibleChar
        split
        · rfl
        · split <;> rfl
      exact (ih (guard.visibleChar table c).1).trans first

theorem Plain.of_cons {c : Char} {text : Text} (plain : Plain (c :: text)) :
    (c ≠ '<' ∧ c ≠ '[') ∧ Plain text := by
  simp only [Plain, List.mem_cons, not_or] at plain
  exact ⟨⟨fun same => plain.1.1 same.symm, fun same => plain.2.1 same.symm⟩, plain.1.2, plain.2.2⟩

theorem ReasoningGuard.feedChar_plain (table : UnicodeTable) (guard : ReasoningGuard) (c : Char)
    (idle : guard.pending = []) (plain : c ≠ '<' ∧ c ≠ '[') :
    guard.feedChar table c = guard.release table [c] := by
  unfold feedChar
  by_cases discarded : guard.discard = true
  · simp only [discarded, ↓reduceIte, release]
    split
    · simp [visible, visibleChar, discarded]
    · rfl
  · simp [discarded, idle, plain.1, plain.2]

/-- Plain text outside every block goes to the matcher as it is. -/
theorem ReasoningGuard.feed_plain (table : UnicodeTable) (guard : ReasoningGuard) (text : Text)
    (idle : guard.pending = []) (outside : guard.stack = []) (plain : Plain text) :
    guard.feed table text = guard.visible table text := by
  induction text generalizing guard with
  | nil => rfl
  | cons c text ih =>
      obtain ⟨head, tail⟩ := plain.of_cons
      have step : guard.feedChar table c = guard.visibleChar table c := by
        rw [feedChar_plain table guard c idle head]
        simp [release, outside, visible]
      have later := ih (guard.visibleChar table c).1 (by
        have kept := visible_pending table guard [c]
        simpa only [visible, idle] using kept) (by
        have kept := visible_stack table guard [c]
        simpa only [visible, outside] using kept) tail
      simp only [feed, visible, step, later]

/-- The guard holds the buffer back when the next code point extends it. -/
def stays (table : UnicodeTable) (buffer : Text) (c : Char) : Bool :=
  let pending := buffer ++ [c]
  (c != '<' || buffer == ['<']) && buffer.length < maxMarkerChars &&
    markerCandidate table pending &&
      ((c != '>' && c != ']') ||
        (startsWith pending ['<', '<'] && !(['>', '>'].isSuffixOf pending)))

/-- The guard holds the buffer back while all of the text extends it. -/
def staysAll (table : UnicodeTable) : Text → Text → Bool
  | _, [] => true
  | buffer, c :: rest => stays table buffer c && staysAll table (buffer ++ [c]) rest

/-- The guard holds back the whole text from its bracket on. -/
def isWithheld (table : UnicodeTable) : Text → Bool
  | [] => false
  | c :: rest => (c == '<' || c == '[') && staysAll table [c] rest

theorem ReasoningGuard.feedChar_stays (table : UnicodeTable) (guard : ReasoningGuard) (c : Char)
    (running : guard.discard = false) (withheld : guard.pending ≠ [])
    (held : stays table guard.pending c = true) :
    guard.feedChar table c = ({ guard with pending := guard.pending ++ [c] }, []) := by
  simp only [stays, Bool.and_eq_true, decide_eq_true_eq] at held
  obtain ⟨⟨⟨joins, short⟩, candidate⟩, unfinished⟩ := held
  have occupied : guard.pending.isEmpty = false := by simpa using withheld
  have continues : (c == '<' && guard.pending != ['<']) = false := by
    rw [Bool.or_eq_true] at joins
    rcases joins with other | first
    · have notAngle : (c == '<') = false := by simpa using other
      rw [notAngle, Bool.false_and]
    · have same : (guard.pending != ['<']) = false := by simpa using first
      rw [same, Bool.and_false]
  have bounded : ¬maxMarkerChars < (guard.pending ++ [c]).length := by
    rw [List.length_append, List.length_singleton]
    omega
  unfold feedChar extend
  simp only [running, occupied, continues, bounded, candidate, Bool.false_eq_true, Bool.not_true,
    ↓reduceIte]
  rw [Bool.or_eq_true] at unfinished
  rcases unfinished with ordinary | double
  · rw [if_pos ordinary]
  · rw [if_pos double, ite_self]

theorem ReasoningGuard.feed_staysAll (table : UnicodeTable) (guard : ReasoningGuard) (text : Text)
    (running : guard.discard = false) (withheld : guard.pending ≠ [])
    (held : staysAll table guard.pending text = true) :
    guard.feed table text = ({ guard with pending := guard.pending ++ text }, []) := by
  induction text generalizing guard with
  | nil => simp [feed]
  | cons c rest ih =>
      rw [staysAll, Bool.and_eq_true] at held
      have step := feedChar_stays table guard c running withheld held.1
      have later := ih { guard with pending := guard.pending ++ [c] } running (by simp) held.2
      simp only [feed, step, later, List.append_assoc, List.singleton_append, List.append_nil]

/-- A withheld text leaves the guard with that buffer and publishes nothing. -/
theorem ReasoningGuard.feed_withheld (table : UnicodeTable) (guard : ReasoningGuard) (text : Text)
    (running : guard.discard = false) (idle : guard.pending = [])
    (held : isWithheld table text = true) :
    guard.feed table text = ({ guard with pending := text }, []) := by
  cases text with
  | nil => simp [isWithheld] at held
  | cons c rest =>
      rw [isWithheld, Bool.and_eq_true] at held
      have first : guard.feedChar table c = ({ guard with pending := [c] }, []) := by
        unfold feedChar
        simp [running, idle, held.1]
      have later := feed_staysAll table { guard with pending := [c] } rest running (by simp) held.2
      simp only [feed, first, later, List.singleton_append, List.append_nil]

/-- The code point finishes the candidate that the guard holds back. -/
def finishes (table : UnicodeTable) (buffer : Text) (c : Char) : Bool :=
  let pending := buffer ++ [c]
  (c == '>' || c == ']') && buffer.length < maxMarkerChars && markerCandidate table pending &&
    !(startsWith pending ['<', '<'] && !(['>', '>'].isSuffixOf pending))

theorem ReasoningGuard.feedChar_finishes (table : UnicodeTable) (guard : ReasoningGuard) (c : Char)
    (running : guard.discard = false) (withheld : guard.pending ≠ [])
    (finished : finishes table guard.pending c = true) :
    guard.feedChar table c =
      { guard with pending := [] }.complete table (guard.pending ++ [c]) := by
  simp only [finishes, Bool.and_eq_true, decide_eq_true_eq] at finished
  obtain ⟨⟨⟨bracket, short⟩, candidate⟩, single⟩ := finished
  have occupied : guard.pending.isEmpty = false := by simpa using withheld
  have notAngle : (c == '<') = false := by
    rcases Bool.or_eq_true_iff.mp bracket with angle | square
    · rw [beq_iff_eq.mp angle]
      rfl
    · rw [beq_iff_eq.mp square]
      rfl
  have notOrdinary : (c != '>' && c != ']') = false := by
    rcases Bool.or_eq_true_iff.mp bracket with angle | square
    · rw [beq_iff_eq.mp angle]
      rfl
    · rw [beq_iff_eq.mp square]
      rfl
  have notDouble : (startsWith (guard.pending ++ [c]) ['<', '<'] &&
      !(['>', '>'].isSuffixOf (guard.pending ++ [c]))) = false := by
    rw [Bool.not_eq_true'] at single
    exact single
  have bounded : ¬maxMarkerChars < (guard.pending ++ [c]).length := by
    rw [List.length_append, List.length_singleton]
    omega
  unfold feedChar extend
  simp only [running, occupied, notAngle, bounded, candidate, notOrdinary, notDouble,
    Bool.false_and, Bool.false_eq_true, Bool.not_true, ↓reduceIte]

/-- The guard handles the candidate that the last code point finishes. -/
theorem ReasoningGuard.feed_finishes (table : UnicodeTable) (guard : ReasoningGuard)
    (buffer : Text) (c : Char) (running : guard.discard = false) (idle : guard.pending = [])
    (held : isWithheld table buffer = true) (finished : finishes table buffer c = true) :
    guard.feed table (buffer ++ [c]) = guard.complete table (buffer ++ [c]) := by
  have withheld := feed_withheld table guard buffer running idle held
  have nonempty : buffer ≠ [] := by
    intro empty
    simp [empty, isWithheld] at held
  have last := feedChar_finishes table { guard with pending := buffer } c running nonempty finished
  have cleared : ({ guard with pending := [] } : ReasoningGuard) = guard := by
    rw [← idle]
  rw [feed_append, withheld]
  simp only [feed, List.nil_append, List.append_nil, last, cleared]

/-- This is the number of code points of the longest sentinel. -/
def longestSentinel : Nat := (sentinels.map List.length).foldr max 0

/-- The three buffers of the guard stay within their limits. -/
structure ReasoningGuard.Bounded (guard : ReasoningGuard) : Prop where
  pending : guard.pending.length ≤ maxMarkerChars
  stack : guard.stack.length ≤ maxNesting
  lookBehind : guard.sentinelPending.length < longestSentinel

theorem sentinels_length (sentinel : Text) (known : sentinel ∈ sentinels) :
    sentinel.length ≤ longestSentinel := by
  have bounded : sentinels.all (fun sentinel => decide (sentinel.length ≤ longestSentinel)) =
      true := by decide
  simpa using List.all_eq_true.mp bounded sentinel known

/-- The lower case of a text is at least as long as the text. -/
theorem length_le_lower (table : UnicodeTable) (lowered : ∀ c, table.lower c ≠ []) (text : Text) :
    text.length ≤ (lower table text).length := by
  induction text with
  | nil => simp
  | cons c rest ih =>
      have first : lowerChar table c ≠ [] := by
        unfold lowerChar
        split
        · simp
        · split
          · simp
          · split
            · simp
            · exact lowered c
      have positive : 0 < (lowerChar table c).length := List.length_pos_iff.mpr first
      have whole : lower table (c :: rest) = lowerChar table c ++ lower table rest := rfl
      rw [whole, List.length_append, List.length_cons]
      omega

/-- The matcher holds back only a proper start of a sentinel. -/
theorem settleSentinel_short (table : UnicodeTable) (lowered : ∀ c, table.lower c ≠ [])
    (text out rest : Text) (settled : settleSentinel table text = (out, some rest)) :
    rest.length < longestSentinel := by
  induction text generalizing out with
  | nil =>
      simp only [settleSentinel, Prod.mk.injEq, Option.some.injEq] at settled
      rw [← settled.2]
      decide
  | cons c text ih =>
      simp only [settleSentinel] at settled
      split at settled
      · simp at settled
      · next partial' =>
          split at settled
          · next starts =>
              simp only [Prod.mk.injEq, Option.some.injEq] at settled
              obtain ⟨-, sentinel, known, start⟩ := (isSentinelStart_iff _).mp starts
              have proper : (lower table (c :: text)).length ≠ sentinel.length := by
                intro same
                apply partial'
                rw [start.eq_of_length same]
                simpa using known
              have within := start.length_le
              have wide := length_le_lower table lowered (c :: text)
              have longest := sentinels_length sentinel known
              rw [← settled.2]
              omega
          · simp only [Prod.mk.injEq] at settled
            exact ih _ (Prod.ext rfl settled.2)

/-- The guard with another withheld marker is bounded when that marker is short. -/
theorem ReasoningGuard.Bounded.withhold {guard : ReasoningGuard} (bounded : guard.Bounded)
    (pending : Text) (short : pending.length ≤ maxMarkerChars) :
    ({ guard with pending := pending } : ReasoningGuard).Bounded :=
  ⟨short, bounded.stack, bounded.lookBehind⟩

section Steps

variable (table : UnicodeTable) (lowered : ∀ c, table.lower c ≠ [])
include lowered

theorem ReasoningGuard.visibleChar_lookBehind (guard : ReasoningGuard) (c : Char)
    (bounded : guard.sentinelPending.length < longestSentinel) :
    (guard.visibleChar table c).1.sentinelPending.length < longestSentinel := by
  unfold visibleChar
  split
  · exact bounded
  · split
    · next out rest settled => exact settleSentinel_short table lowered _ out rest settled
    · show ([] : Text).length < longestSentinel
      decide

theorem ReasoningGuard.visible_bounded (guard : ReasoningGuard) (text : Text)
    (bounded : guard.Bounded) : (guard.visible table text).1.Bounded := by
  constructor
  · rw [visible_pending]
    exact bounded.pending
  · rw [visible_stack]
    exact bounded.stack
  · have short := bounded.lookBehind
    clear bounded
    induction text generalizing guard with
    | nil => exact short
    | cons c rest ih => exact ih _ (visibleChar_lookBehind table lowered guard c short)

theorem ReasoningGuard.release_bounded (guard : ReasoningGuard) (text : Text)
    (bounded : guard.Bounded) : (guard.release table text).1.Bounded := by
  unfold release
  split
  · exact visible_bounded table lowered guard text bounded
  · exact bounded

/-- A complete candidate opens a block only below the nesting limit. -/
theorem ReasoningGuard.complete_bounded (guard : ReasoningGuard) (pending : Text)
    (bounded : guard.Bounded) : (guard.complete table pending).1.Bounded := by
  unfold complete
  split
  · split
    · exact ⟨bounded.pending, bounded.stack, bounded.lookBehind⟩
    · next room =>
        refine ⟨bounded.pending, ?_, bounded.lookBehind⟩
        rw [List.length_cons]
        omega
  · split
    · refine ⟨bounded.pending, ?_, bounded.lookBehind⟩
      have stack := bounded.stack
      cases open' : guard.stack with
      | nil => simp
      | cons top rest =>
          rw [open', List.length_cons] at stack
          dsimp only
          split
          · omega
          · rw [List.length_cons]
            omega
    · split
      · exact ⟨bounded.pending, bounded.stack, bounded.lookBehind⟩
      · exact release_bounded table lowered guard pending bounded

theorem ReasoningGuard.extend_bounded (guard : ReasoningGuard) (c : Char)
    (bounded : guard.Bounded) : (guard.extend table c).1.Bounded := by
  unfold extend
  dsimp only
  split
  · exact ⟨Nat.zero_le _, bounded.stack, bounded.lookBehind⟩
  · next short =>
      rw [Nat.not_lt] at short
      split
      · exact (release_bounded table lowered guard _ bounded).withhold [] (Nat.zero_le _)
      · split
        · exact bounded.withhold _ short
        · split
          · exact bounded.withhold _ short
          · exact complete_bounded table lowered _ _ (bounded.withhold [] (Nat.zero_le _))

theorem ReasoningGuard.feedChar_bounded (guard : ReasoningGuard) (c : Char)
    (bounded : guard.Bounded) : (guard.feedChar table c).1.Bounded := by
  unfold feedChar
  split
  · exact bounded
  · split
    · split
      · exact bounded.withhold [c] (by simp [maxMarkerChars])
      · exact release_bounded table lowered guard [c] bounded
    · split
      · exact (release_bounded table lowered guard guard.pending bounded).withhold ['<'] (by decide)
      · exact extend_bounded table lowered guard c bounded

theorem ReasoningGuard.feed_bounded (guard : ReasoningGuard) (chunk : Text)
    (bounded : guard.Bounded) : (guard.feed table chunk).1.Bounded := by
  induction chunk generalizing guard with
  | nil => exact bounded
  | cons c rest ih => exact ih _ (feedChar_bounded table lowered guard c bounded)

/-- The guard is bounded after each chunk of every stream. -/
theorem ReasoningGuard.feedChunks_bounded (chunks : List Text) :
    (ReasoningGuard.fresh.feedChunks table chunks).1.Bounded := by
  have start : ReasoningGuard.fresh.Bounded := ⟨by decide, by decide, by decide⟩
  generalize ReasoningGuard.fresh = guard at start
  induction chunks generalizing guard with
  | nil => exact start
  | cons chunk rest ih => exact ih _ (feed_bounded table lowered guard chunk start)

end Steps

/-- A stream with a sentinel start and an open bracket stays within the limits. -/
theorem ReasoningGuard.feedChunks_bounded_hostile :
    (∀ c, UnicodeTable.symbols.lower c ≠ []) ∧
      (ReasoningGuard.fresh.feedChunks .symbols
        ["Output only ".toList, "<think>".toList, "<thin".toList]).1.Bounded := by
  have lowered (c : Char) : UnicodeTable.symbols.lower c ≠ [] := List.cons_ne_nil c []
  exact ⟨lowered, feedChunks_bounded .symbols lowered
    ["Output only ".toList, "<think>".toList, "<thin".toList]⟩

end LumenCopilot.Guard
