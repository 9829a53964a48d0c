import LumenCopilot.Proof.Guard.Withheld
import Mathlib

namespace LumenCopilot.Guard

open Python

/-- No end of the text can grow to a sentinel. -/
def EndsNoStart (table : UnicodeTable) (text : Text) : Prop :=
  ∀ part, part <:+ text → isSentinelStart (lower table part) = false

/-- The block that the text opens is still open after every start of the rest. -/
def NeverCloses (table : UnicodeTable) (text rest : Text) : Prop :=
  ∀ start, start <+: rest → (ReasoningGuard.fresh.feed table (text ++ start)).1.stack ≠ []

section

variable (table : UnicodeTable) (guard : ReasoningGuard)

theorem ReasoningGuard.visible_append (first second : Text) :
    guard.visible table (first ++ second) =
      (((guard.visible table first).1.visible table second).1,
        (guard.visible table first).2 ++ ((guard.visible table first).1.visible table second).2) := by
  induction first generalizing guard with
  | nil => simp [visible]
  | cons c rest ih => simp [visible, ih]

/-- Plain text inside a block changes nothing. -/
theorem ReasoningGuard.feed_plain_hidden (text : Text) (idle : guard.pending = [])
    (inside : guard.stack ≠ []) (plain : Plain text) : guard.feed table text = (guard, []) := by
  induction text with
  | nil => rfl
  | cons c text ih =>
      obtain ⟨head, tail⟩ := plain.of_cons
      have step : guard.feedChar table c = (guard, []) := by
        rw [feedChar_plain table guard c idle head]
        simp [release, inside]
      simp only [feed, step, ih tail, List.append_nil]

/-- One step inside a block publishes nothing and keeps the look-behind. -/
theorem ReasoningGuard.feedChar_hidden (c : Char) (inside : guard.stack ≠ []) :
    (guard.feedChar table c).2 = [] ∧
      (guard.feedChar table c).1.sentinelPending = guard.sentinelPending := by
  have hidden (text : Text) : guard.release table text = (guard, []) := by
    simp [release, inside]
  have completed (pending : Text) :
      (({ guard with pending := [] } : ReasoningGuard).complete table pending).2 = [] ∧
        (({ guard with pending := [] } : ReasoningGuard).complete table pending).1.sentinelPending =
          guard.sentinelPending := by
    unfold complete
    split
    · split
      · exact ⟨rfl, rfl⟩
      · exact ⟨rfl, rfl⟩
    · split
      · exact ⟨rfl, rfl⟩
      · split
        · exact ⟨rfl, rfl⟩
        · simp [release, inside]
  unfold feedChar
  split
  · exact ⟨rfl, rfl⟩
  · split
    · split
      · exact ⟨rfl, rfl⟩
      · rw [hidden]
        exact ⟨rfl, rfl⟩
    · split
      · rw [hidden]
        exact ⟨rfl, rfl⟩
      · unfold extend
        dsimp only
        rw [hidden]
        split
        · exact ⟨rfl, rfl⟩
        · split
          · exact ⟨rfl, rfl⟩
          · split
            · exact ⟨rfl, rfl⟩
            · split
              · exact ⟨rfl, rfl⟩
              · exact completed _

/-- A block that never closes hides all of its text. -/
theorem ReasoningGuard.feed_hidden (text : Text)
    (inside : ∀ start, start <+: text → (guard.feed table start).1.stack ≠ []) :
    (guard.feed table text).2 = [] ∧
      (guard.feed table text).1.sentinelPending = guard.sentinelPending := by
  induction text generalizing guard with
  | nil => exact ⟨rfl, rfl⟩
  | cons c text ih =>
      obtain ⟨silent, kept⟩ := feedChar_hidden table guard c (inside [] List.nil_prefix)
      obtain ⟨later, keptLater⟩ := ih (guard.feedChar table c).1 fun start starts =>
        inside (c :: start) (List.cons_prefix_cons.mpr ⟨rfl, starts⟩)
      simp only [feed, silent, later, List.append_nil, keptLater, kept, and_self]

theorem ReasoningGuard.flush_hidden (inside : guard.stack ≠ []) : (guard.flush table).2 = [] := by
  unfold flush
  simp [inside]

theorem ReasoningGuard.flush_idle (idle : guard.pending = []) (outside : guard.stack = [])
    (running : guard.discard = false) : (guard.flush table).2 = guard.sentinelPending := by
  unfold flush
  simp [idle, outside, running, visible]

theorem feed_think (running : guard.discard = false) (idle : guard.pending = [])
    (outside : guard.stack = []) :
    guard.feed table "<think>".toList =
      ({ guard with stack := ["think".toList], blockedBlocks := guard.blockedBlocks + 1 }, []) := by
  have read : "<think>".toList = "<think".toList ++ ['>'] := rfl
  have opens : openMatch table "<think>".toList = some "think".toList := rfl
  have spelled : lower table "think".toList = "think".toList := rfl
  have finished := guard.feed_finishes table "<think".toList '>' running idle rfl rfl
  have shallow : ¬maxNesting ≤ guard.stack.length := by simp [outside, maxNesting]
  rw [read, finished, ← read, ReasoningGuard.complete, opens]
  dsimp only
  rw [if_neg shallow]
  simp only [outside, spelled]

theorem feed_endThink (running : guard.discard = false) (idle : guard.pending = [])
    (inside : guard.stack = ["think".toList]) :
    guard.feed table "</think>".toList =
      ({ guard with stack := [], blockedBlocks := guard.blockedBlocks + 1 }, []) := by
  have read : "</think>".toList = "</think".toList ++ ['>'] := rfl
  have opens : openMatch table "</think>".toList = none := rfl
  have closes : closeMatch "</think>".toList = some "think".toList := rfl
  have spelled : lower table "think".toList = "think".toList := rfl
  have finished := guard.feed_finishes table "</think".toList '>' running idle rfl rfl
  rw [read, finished, ← read, ReasoningGuard.complete, opens]
  simp only [closes, inside, spelled, ↓reduceIte]

theorem ReasoningGuard.visible_start (text : Text) (start : guard.sentinelPending = [] ∨
      isSentinelStart (lower table guard.sentinelPending) = true) :
    (guard.visible table text).1.sentinelPending = [] ∨
      isSentinelStart (lower table (guard.visible table text).1.sentinelPending) = true := by
  induction text generalizing guard with
  | nil => exact start
  | cons c rest ih =>
      apply ih
      unfold visibleChar
      split
      · exact start
      · rcases settled : settleSentinel table (guard.sentinelPending ++ [c]) with ⟨out, kept | kept⟩
        · exact Or.inl rfl
        · by_cases empty : kept = []
          · exact Or.inl empty
          · exact Or.inr (settleSentinel_start table _ out kept settled empty).2

end

/-- A start at the end of a text contains an end that grows to a sentinel. -/
theorem grows_of_start (table : UnicodeTable) (part : Text)
    (start : isSentinelStart (lower table part) = true) :
    ∃ found, found <:+ part ∧ Grows table found := by
  induction part with
  | nil => simp [lower, isSentinelStart] at start
  | cons c rest ih =>
      have spelled : lower table (c :: rest) = lowerChar table c ++ lower table rest := rfl
      by_cases silent : lowerChar table c = []
      · rw [spelled, silent, List.nil_append] at start
        obtain ⟨found, ends, grows⟩ := ih start
        exact ⟨found, ends.trans (List.suffix_cons c rest), grows⟩
      · refine ⟨c :: rest, List.suffix_rfl, by simp, ?_⟩
        intro first starts nonempty
        obtain ⟨-, sentinel, known, whole⟩ := (isSentinelStart_iff _).mp start
        cases first with
        | nil => exact absurd rfl nonempty
        | cons d later =>
            obtain ⟨rfl, inside⟩ := List.cons_prefix_cons.mp starts
            rw [isSentinelStart_iff]
            refine ⟨?_, sentinel, known, ?_⟩
            · intro empty
              exact silent (List.append_eq_nil_iff.mp empty).1
            · obtain ⟨beyond, same⟩ := inside
              refine List.IsPrefix.trans ⟨lower table beyond, ?_⟩ whole
              rw [← same, ← List.cons_append]
              exact List.flatMap_append.symm

/-- The look-behind after a text without a sentinel is empty exactly when no end of it is a start. -/
theorem ReasoningGuard.visible_held (table : UnicodeTable) (text : Text)
    (free : FreeOfSentinels table text) :
    (fresh.visible table text).1.sentinelPending = [] ↔ EndsNoStart table text := by
  have running := visible_runs table fresh text rfl free
  have whole := (visible_shows table fresh text).whole running
  have guarded := (Guarded.fresh table).visible text
  constructor
  · intro empty part ends
    by_contra viable
    obtain ⟨found, inside, grows⟩ := grows_of_start table part (by simpa using viable)
    have last := (guarded.held running).2 found grows (by
      rw [List.nil_append, whole]
      exact inside.trans ends)
    rw [empty] at last
    exact grows.1 (List.suffix_nil.mp last)
  · intro bare
    rcases visible_start table fresh text (Or.inl rfl) with empty | viable
    · exact empty
    · have ends : (fresh.visible table text).1.sentinelPending <:+ text := ⟨_, whole⟩
      simp [bare _ ends] at viable

/-- Plain text before a block leaves the guard outside every block, with its end held back. -/
theorem ReasoningGuard.feed_before (table : UnicodeTable) (text : Text) (plain : Plain text) :
    fresh.feed table text = fresh.visible table text ∧
      (fresh.visible table text).1.pending = [] ∧ (fresh.visible table text).1.stack = [] :=
  ⟨feed_plain table fresh text rfl rfl plain, visible_pending table fresh text,
    visible_stack table fresh text⟩

/-- A block that never closes shows only what the matcher released before it. -/
theorem sanitizeProviderText_opened (table : UnicodeTable) (before hidden : Text)
    (plain : Plain before) (free : FreeOfSentinels table before)
    (opened : NeverCloses table (before ++ "<think>".toList) hidden) :
    sanitizeProviderText table (before ++ "<think>".toList ++ hidden) =
      (ReasoningGuard.fresh.visible table before).2 := by
  obtain ⟨fed, idle, outside⟩ := ReasoningGuard.feed_before table before plain
  have running := ReasoningGuard.visible_runs table .fresh before rfl free
  have block := feed_think table _ running idle outside
  have entered : ReasoningGuard.fresh.feed table (before ++ "<think>".toList) =
      ((⟨[], ["think".toList], (ReasoningGuard.fresh.visible table before).1.sentinelPending, false,
          (ReasoningGuard.fresh.visible table before).1.blockedBlocks + 1⟩ : ReasoningGuard),
        (ReasoningGuard.fresh.visible table before).2) := by
    rw [ReasoningGuard.feed_append, fed, block, idle, running, List.append_nil]
  have inside (start : Text) (starts : start <+: hidden) :
      ((ReasoningGuard.fresh.feed table (before ++ "<think>".toList)).1.feed table start).1.stack ≠
        [] := by
    have still := opened start starts
    rw [ReasoningGuard.feed_append] at still
    exact still
  obtain ⟨silent, -⟩ := ReasoningGuard.feed_hidden table _ hidden inside
  have last := ReasoningGuard.flush_hidden table _ (inside hidden List.prefix_rfl)
  rw [sanitizeProviderText, ReasoningGuard.feed_append]
  dsimp only
  rw [silent, last, entered, List.append_nil, List.append_nil]

/-- A closed block shows all of the text around it and nothing of its body. -/
theorem sanitizeProviderText_closed (table : UnicodeTable) (before hidden after : Text)
    (plainBefore : Plain before) (plainHidden : Plain hidden) (plainAfter : Plain after)
    (free : FreeOfSentinels table (before ++ after)) :
    sanitizeProviderText table
        (before ++ "<think>".toList ++ hidden ++ "</think>".toList ++ after) = before ++ after := by
  obtain ⟨fed, idle, outside⟩ := ReasoningGuard.feed_before table before plainBefore
  have running := ReasoningGuard.visible_runs table .fresh before rfl
    (free.mono (List.prefix_append before after).isInfix)
  generalize shown : ReasoningGuard.fresh.visible table before = first at fed idle outside running
  have entered := feed_think table first.1 running idle outside
  have masked := ReasoningGuard.feed_plain_hidden table
    { first.1 with stack := ["think".toList], blockedBlocks := first.1.blockedBlocks + 1 } hidden
    idle (by simp) plainHidden
  have left := feed_endThink table
    { first.1 with stack := ["think".toList], blockedBlocks := first.1.blockedBlocks + 1 }
    running idle rfl
  have resumed : ({ first.1 with
      stack := [], blockedBlocks := first.1.blockedBlocks + 1 + 1 } : ReasoningGuard) =
        first.1.addBlocks 2 := by
    rw [← outside]
    rfl
  have visible := ReasoningGuard.feed_plain table (first.1.addBlocks 2) after idle outside plainAfter
  have counted := ReasoningGuard.visible_addBlocks table first.1 2 after
  have whole : ReasoningGuard.fresh.visible table (before ++ after) =
      ((first.1.visible table after).1, first.2 ++ (first.1.visible table after).2) := by
    rw [ReasoningGuard.visible_append, shown]
  have finally' := ReasoningGuard.visible_runs table .fresh (before ++ after) rfl free
  have all := (ReasoningGuard.visible_shows table .fresh (before ++ after)).whole finally'
  rw [whole] at finally' all
  have flushed := ReasoningGuard.flush_idle table ((first.1.visible table after).1.addBlocks 2)
    ((ReasoningGuard.visible_pending table first.1 after).trans idle)
    ((ReasoningGuard.visible_stack table first.1 after).trans outside) finally'
  rw [sanitizeProviderText]
  simp only [ReasoningGuard.feed_append, fed, entered, masked, left, resumed, visible, counted,
    flushed, List.append_nil]
  exact all

theorem freeOfSentinels_iff (table : UnicodeTable) (text : Text) :
    FreeOfSentinels table text ↔
      ∀ tail ∈ text.tails, ∀ part ∈ tail.inits, lower table part ∉ sentinels := by
  constructor
  · intro free tail ends part starts
    rw [List.mem_tails] at ends
    rw [List.mem_inits] at starts
    exact free part (starts.isInfix.trans ends.isInfix)
  · intro free part inside
    obtain ⟨tail, starts, ends⟩ := List.infix_iff_prefix_suffix.mp inside
    exact free tail (by rwa [List.mem_tails]) part (by rwa [List.mem_inits])

theorem neverCloses_iff (table : UnicodeTable) (text rest : Text) :
    NeverCloses table text rest ↔
      ∀ start ∈ rest.inits, (ReasoningGuard.fresh.feed table (text ++ start)).1.stack ≠ [] := by
  simp only [NeverCloses, List.mem_inits]

end LumenCopilot.Guard
