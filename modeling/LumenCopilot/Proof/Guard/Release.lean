import LumenCopilot.Proof.Guard.Streaming
import Mathlib

namespace LumenCopilot.Guard

open Python

/-- No marker starts inside an inert text, whatever text follows. -/
def Inert (table : UnicodeTable) (text : Text) : Prop :=
  ∀ skipped rest after marker : Text, text = skipped ++ rest → rest ≠ [] →
    marker <+: rest ++ after → isMarker table marker = false

/-- This is the withheld buffer that one step of `feed` releases as ordinary text. -/
def ReasoningGuard.releasedBuffer (table : UnicodeTable) (guard : ReasoningGuard) (c : Char) :
    Option Text :=
  let pending := guard.pending ++ [c]
  if guard.discard || guard.pending.isEmpty || !guard.stack.isEmpty then none
  else if c == '<' && guard.pending != ['<'] then some guard.pending
  else if maxMarkerChars < pending.length then none
  else if !markerCandidate table pending then some pending
  else if c != '>' && c != ']' then none
  else if startsWith pending ['<', '<'] && !(['>', '>'].isSuffixOf pending) then none
  else if isMarker table pending then none
  else some pending

/-- These are the buffers that the guard releases along the text. -/
def ReasoningGuard.releases (table : UnicodeTable) : ReasoningGuard → Text → List Text
  | _, [] => []
  | guard, c :: rest =>
      (guard.releasedBuffer table c).toList ++ (guard.feedChar table c).1.releases table rest

/-- Every buffer that the guard releases along the text is inert. -/
def ReasoningGuard.ReleasesInert (table : UnicodeTable) (guard : ReasoningGuard) (text : Text) :
    Prop :=
  ∀ buffer ∈ guard.releases table text, Inert table buffer

theorem dropIgnoreCase_suffix (patterns text rest : Text)
    (read : dropIgnoreCase patterns text = some rest) : rest <:+ text := by
  induction patterns generalizing text with
  | nil =>
      simp only [dropIgnoreCase, Option.some.injEq] at read
      exact read ▸ List.suffix_rfl
  | cons pattern patterns ih =>
      cases text with
      | nil => simp [dropIgnoreCase] at read
      | cons c text =>
          simp only [dropIgnoreCase] at read
          split at read
          · exact (ih text read).trans (List.suffix_cons c text)
          · contradiction

theorem lstrip_suffix (text : Text) : lstrip text <:+ text := List.dropWhile_suffix isSpace

theorem removeStart_suffix (start text : Text) : removeStart start text <:+ text := by
  unfold removeStart
  split
  · exact List.drop_suffix _ _
  · exact List.suffix_rfl

/-- Every marker starts with an angle or a square bracket. -/
theorem isMarker_head (table : UnicodeTable) (c : Char) (rest : Text)
    (marker : isMarker table (c :: rest) = true) : c = '<' ∨ c = '[' := by
  by_contra neither
  obtain ⟨notAngle, notSquare⟩ := not_or.mp neither
  simp [isMarker, controlMatch, openMatch, closeMatch, pipeMatch, turnMatch, instMatch, sysMatch,
    notAngle, notSquare] at marker

theorem isMarker_nil (table : UnicodeTable) : isMarker table [] = false := rfl

theorem openMatch_close (table : UnicodeTable) (rest : Text)
    (matched : (openMatch table ('<' :: rest)).isSome = true) : '>' ∈ rest := by
  simp only [openMatch] at matched
  rw [List.findSome?_isSome_iff] at matched
  obtain ⟨tag, -, found⟩ := matched
  cases read : dropIgnoreCase tag (lstrip rest) with
  | none => simp [read] at found
  | some tail =>
      have inside := (dropIgnoreCase_suffix tag _ tail read).trans (lstrip_suffix rest)
      have ends : attributeTail table tail = true := by
        by_contra bare
        simp [read, bare] at found
      apply inside.subset
      cases tail with
      | nil => simp [attributeTail] at ends
      | cons c text =>
          simp only [attributeTail, Bool.and_eq_true, beq_iff_eq] at ends
          exact List.mem_of_getLast? ends.1.2

theorem lstrip_close (text tail : Text) (c : Char) (stripped : lstrip text = c :: tail) :
    c ∈ text :=
  (lstrip_suffix text).subset (by simp [stripped])

theorem closeMatch_close (rest : Text) (matched : (closeMatch ('<' :: rest)).isSome = true) :
    '>' ∈ rest := by
  simp only [closeMatch] at matched
  split at matched
  · next inner slash =>
      rw [List.findSome?_isSome_iff] at matched
      obtain ⟨tag, -, found⟩ := matched
      have deeper : inner <:+ rest :=
        (List.suffix_cons '/' inner).trans (slash ▸ lstrip_suffix rest)
      cases read : dropIgnoreCase tag (lstrip inner) with
      | none => simp [read] at found
      | some tail =>
          have inside := (dropIgnoreCase_suffix tag _ tail read).trans (lstrip_suffix inner)
          have ends : lstrip tail = ['>'] := by
            by_contra open'
            simp [read, open'] at found
          exact deeper.subset (inside.subset (lstrip_close tail [] '>' ends))
  · simp at matched

theorem pipeMatch_close (rest : Text) (matched : pipeMatch ('<' :: rest) = true) : '>' ∈ rest := by
  unfold pipeMatch at matched
  split at matched
  · next body same =>
      obtain ⟨-, rfl⟩ := List.cons.inj same
      simp only [Bool.and_eq_true, beq_iff_eq] at matched
      have inside : '>' ∈ body := by
        apply (List.drop_suffix (body.takeWhile (· != '|')).length body).subset
        simp [matched.2]
      exact List.mem_cons_of_mem _ inside
  · contradiction

theorem turnMatch_close (name rest : Text) (matched : turnMatch name ('<' :: rest) = true) :
    '>' ∈ rest := by
  simp only [turnMatch] at matched
  cases read : dropIgnoreCase name (lstrip (removeStart ['/'] (lstrip rest))) with
  | none => simp [read] at matched
  | some tail =>
      simp only [read, beq_iff_eq] at matched
      have inside := ((dropIgnoreCase_suffix name _ tail read).trans (lstrip_suffix _)).trans
        ((removeStart_suffix ['/'] _).trans (lstrip_suffix rest))
      exact inside.subset (lstrip_close tail [] '>' matched)

theorem sysMatch_close (rest : Text) (matched : sysMatch ('<' :: rest) = true) : '>' ∈ rest := by
  unfold sysMatch at matched
  split at matched
  · next body same =>
      obtain ⟨-, rfl⟩ := List.cons.inj same
      cases read : dropIgnoreCase "sys".toList (removeStart ['/'] (lstrip body)) with
      | none => simp only [read, Bool.false_eq_true] at matched
      | some tail =>
          simp only [read, beq_iff_eq] at matched
          have inside := (dropIgnoreCase_suffix _ _ tail read).trans
            ((removeStart_suffix ['/'] _).trans (lstrip_suffix body))
          exact List.mem_cons_of_mem _ (inside.subset (lstrip_close tail ['>'] '>' matched))
  · contradiction

/-- Every marker that starts with an angle bracket contains a closing one. -/
theorem isMarker_close (table : UnicodeTable) (rest : Text)
    (marker : isMarker table ('<' :: rest) = true) : '>' ∈ rest := by
  have noInst : instMatch ('<' :: rest) = false := by simp [instMatch]
  simp only [isMarker, controlMatch, noInst, Bool.or_false, Bool.or_eq_true] at marker
  rcases marker with (opened | closed) | ((pipe | single) | turn) | sys
  · exact openMatch_close table rest opened
  · exact closeMatch_close rest closed
  · exact pipeMatch_close rest pipe
  · exact turnMatch_close _ rest single
  · exact turnMatch_close _ rest turn
  · exact sysMatch_close rest sys

theorem inert_nil (table : UnicodeTable) : Inert table [] := by
  intro skipped rest after marker split nonempty
  exact absurd (List.append_eq_nil_iff.mp split.symm).2 nonempty

/-- Inert texts join to an inert text. -/
theorem Inert.append {table : UnicodeTable} {first second : Text} (inertFirst : Inert table first)
    (inertSecond : Inert table second) : Inert table (first ++ second) := by
  intro skipped rest after marker split nonempty starts
  rcases List.append_eq_append_iff.mp split with ⟨middle, left, right⟩ | ⟨middle, left, right⟩
  · exact inertSecond middle rest after marker right nonempty starts
  · cases middle with
    | nil =>
        rw [List.nil_append] at right
        exact inertSecond [] rest after marker right.symm nonempty starts
    | cons c text =>
        rw [right, List.append_assoc] at starts
        exact inertFirst skipped (c :: text) (second ++ after) marker left (by simp) starts

/-- A code point that opens no marker is inert. -/
theorem inert_singleton (table : UnicodeTable) (c : Char) (plain : c ≠ '<' ∧ c ≠ '[') :
    Inert table [c] := by
  intro skipped rest after marker split nonempty starts
  have whole : rest = [c] := by
    cases skipped with
    | nil => exact split.symm
    | cons d text =>
        have empty : text ++ rest = [] := ((List.cons.inj split).2).symm
        exact absurd (List.append_eq_nil_iff.mp empty).2 nonempty
  cases marker with
  | nil => rfl
  | cons d text =>
      rw [whole] at starts
      have same : d = c := (List.cons_prefix_cons.mp starts).1
      by_contra isOne
      rcases isMarker_head table d text (by simpa using isOne) with angle | square
      · exact plain.1 (same ▸ angle)
      · exact plain.2 (same ▸ square)

theorem settleSentinel_some (table : UnicodeTable) (text out rest : Text)
    (settled : settleSentinel table text = (out, some rest)) : out ++ rest = text := by
  induction text generalizing out with
  | nil =>
      simp only [settleSentinel, Prod.mk.injEq, Option.some.injEq] at settled
      rw [← settled.1, ← settled.2, List.nil_append]
  | cons c text ih =>
      simp only [settleSentinel] at settled
      split at settled
      · simp at settled
      · split at settled
        · simp only [Prod.mk.injEq, Option.some.injEq] at settled
          rw [← settled.1, ← settled.2, List.nil_append]
        · simp only [Prod.mk.injEq] at settled
          have tail := ih (settleSentinel table text).1 (Prod.ext rfl settled.2)
          rw [← settled.1, List.cons_append, tail]

theorem settleSentinel_none (table : UnicodeTable) (text out : Text)
    (settled : settleSentinel table text = (out, none)) : out <+: text := by
  induction text generalizing out with
  | nil => simp [settleSentinel] at settled
  | cons c text ih =>
      simp only [settleSentinel] at settled
      split at settled
      · simp only [Prod.mk.injEq] at settled
        exact settled.1 ▸ List.nil_prefix
      · split at settled
        · simp at settled
        · simp only [Prod.mk.injEq] at settled
          have tail := ih (settleSentinel table text).1 (Prod.ext rfl settled.2)
          exact settled.1 ▸ List.cons_prefix_cons.mpr ⟨rfl, tail⟩

/-- The guard shows a start of the passed text, and all of it until it discards. -/
structure ReasoningGuard.Shows (guard after : ReasoningGuard) (passed out : Text) : Prop where
  starts : out ++ after.sentinelPending <+: guard.sentinelPending ++ passed
  whole : after.discard = false → out ++ after.sentinelPending = guard.sentinelPending ++ passed
  stopped : guard.discard = true → after.discard = true ∧ out = [] ∧
    after.sentinelPending = guard.sentinelPending

theorem ReasoningGuard.Shows.refl (guard : ReasoningGuard) : guard.Shows guard [] [] :=
  ⟨by simp, by simp, fun stopped => ⟨stopped, rfl, rfl⟩⟩

/-- Consecutive texts are shown one after the other. -/
theorem ReasoningGuard.Shows.trans {guard middle after : ReasoningGuard}
    {firstPassed firstOut passed out : Text} (first : guard.Shows middle firstPassed firstOut)
    (second : middle.Shows after passed out) :
    guard.Shows after (firstPassed ++ passed) (firstOut ++ out) := by
  refine ⟨?_, ?_, ?_⟩
  · cases stopped : middle.discard with
    | true =>
        obtain ⟨-, silent, same⟩ := second.stopped stopped
        rw [silent, same, List.append_nil, ← List.append_assoc]
        exact first.starts.trans (List.prefix_append _ _)
    | false =>
        rw [List.append_assoc, ← List.append_assoc guard.sentinelPending, ← first.whole stopped,
          List.append_assoc]
        exact (List.prefix_append_right_inj firstOut).mpr second.starts
  · intro running
    cases stopped : middle.discard with
    | true => simp [(second.stopped stopped).1] at running
    | false =>
        rw [List.append_assoc, second.whole running, ← List.append_assoc, first.whole stopped,
          List.append_assoc]
  · intro stopped
    obtain ⟨stillStopped, silent, same⟩ := first.stopped stopped
    obtain ⟨finallyStopped, silentAgain, sameAgain⟩ := second.stopped stillStopped
    exact ⟨finallyStopped, by rw [silent, silentAgain]; rfl, sameAgain.trans same⟩

theorem ReasoningGuard.visibleChar_shows (table : UnicodeTable) (guard : ReasoningGuard) (c : Char) :
    guard.Shows (guard.visibleChar table c).1 [c] (guard.visibleChar table c).2 := by
  unfold visibleChar
  by_cases discarded : guard.discard = true
  · simp only [discarded, ↓reduceIte]
    exact ⟨by simp, fun running => by simp [discarded] at running, fun _ => ⟨discarded, rfl, rfl⟩⟩
  · simp only [discarded, Bool.false_eq_true, ↓reduceIte]
    rcases settled : settleSentinel table (guard.sentinelPending ++ [c]) with ⟨out, rest | rest⟩
    · refine ⟨?_, by simp, fun stopped => absurd stopped discarded⟩
      simpa using settleSentinel_none table _ out settled
    · have whole := settleSentinel_some table _ out rest settled
      exact ⟨whole ▸ List.prefix_rfl, fun _ => whole, fun stopped => absurd stopped discarded⟩

theorem ReasoningGuard.visible_shows (table : UnicodeTable) (guard : ReasoningGuard) (text : Text) :
    guard.Shows (guard.visible table text).1 text (guard.visible table text).2 := by
  induction text generalizing guard with
  | nil => exact Shows.refl guard
  | cons c rest ih =>
      exact (visibleChar_shows table guard c).trans (ih (guard.visibleChar table c).1)

theorem ReasoningGuard.release_shows (table : UnicodeTable) (guard : ReasoningGuard) (text : Text) :
    guard.Shows (guard.release table text).1 (if guard.stack.isEmpty then text else [])
      (guard.release table text).2 := by
  unfold release
  by_cases outside : guard.stack.isEmpty = true
  · simp only [outside, ↓reduceIte]
    exact visible_shows table guard text
  · simp only [outside, Bool.false_eq_true, ↓reduceIte]
    exact Shows.refl guard

/-- A step that shows nothing keeps the sentinel look-behind and may only start to discard. -/
theorem ReasoningGuard.Shows.silent {guard after : ReasoningGuard}
    (same : after.sentinelPending = guard.sentinelPending)
    (stops : guard.discard = true → after.discard = true) : guard.Shows after [] [] :=
  ⟨by simp [same], by simp [same], fun stopped => ⟨stops stopped, rfl, same⟩⟩

theorem ReasoningGuard.complete_shows (table : UnicodeTable) (guard : ReasoningGuard)
    (pending : Text) :
    guard.Shows (guard.complete table pending).1
      (if isMarker table pending || !guard.stack.isEmpty then [] else pending)
      (guard.complete table pending).2 := by
  unfold complete
  cases opened : openMatch table pending with
  | some tag =>
      simp only [isMarker, opened, Option.isSome_some, Bool.true_or, ↓reduceIte]
      split
      · exact Shows.silent rfl fun _ => rfl
      · exact Shows.silent rfl fun stopped => stopped
  | none =>
      cases closed : closeMatch pending with
      | some tag =>
          simp only [isMarker, opened, closed, Option.isSome_none, Option.isSome_some,
            Bool.or_true, Bool.true_or, ↓reduceIte]
          exact Shows.silent rfl fun stopped => stopped
      | none =>
          by_cases control : controlMatch pending = true
          · simp only [isMarker, control, Bool.or_true, Bool.true_or, ↓reduceIte]
            exact Shows.silent rfl fun stopped => stopped
          · have released := release_shows table guard pending
            simp only [isMarker, opened, closed, control, Option.isSome_none, Bool.or_false,
              Bool.false_or, Bool.false_eq_true, ↓reduceIte]
            cases outside : guard.stack.isEmpty with
            | true => simpa [outside] using released
            | false => simpa [outside] using released

/-- The guard withholds only a text that can still become a marker. -/
def ReasoningGuard.Withholds (table : UnicodeTable) (guard : ReasoningGuard) : Prop :=
  guard.pending = [] ∨ markerCandidate table guard.pending = true

section

variable (table : UnicodeTable)

theorem markerCandidate_open (c : Char) (opens : c = '<' ∨ c = '[') :
    markerCandidate table [c] = true := by
  rcases opens with rfl | rfl
  · rfl
  · rfl

theorem ReasoningGuard.extend_shows (guard : ReasoningGuard) (c : Char)
    (running : guard.discard = false) (withheld : guard.pending.isEmpty = false)
    (plain : (c == '<' && guard.pending != ['<']) = false) :
    guard.Shows (guard.extend table c).1 ((guard.releasedBuffer table c).getD [])
      (guard.extend table c).2 := by
  have released := release_shows table guard (guard.pending ++ [c])
  have completed := complete_shows table { guard with pending := [] } (guard.pending ++ [c])
  rcases guard with ⟨pending, stack, sentinelPending, discard, blocks⟩
  obtain rfl : discard = false := running
  dsimp only at withheld plain released completed
  unfold extend releasedBuffer
  simp only [withheld, plain, Bool.false_or, Bool.false_eq_true, ↓reduceIte]
  by_cases long : maxMarkerChars < (pending ++ [c]).length
  · simp only [long, ↓reduceIte, ite_self, Option.getD_none]
    exact Shows.silent rfl fun _ => rfl
  by_cases candidate : markerCandidate table (pending ++ [c]) = true
  · by_cases inner : (c != '>' && c != ']') = true
    · simp only [long, candidate, inner, Bool.not_true, Bool.false_eq_true, ↓reduceIte, ite_self,
        Option.getD_none]
      exact Shows.silent rfl fun stopped => stopped
    by_cases double : (startsWith (pending ++ [c]) ['<', '<'] &&
        !(['>', '>'].isSuffixOf (pending ++ [c]))) = true
    · simp only [long, candidate, inner, double, Bool.not_true, Bool.false_eq_true, ↓reduceIte,
        ite_self, Option.getD_none]
      exact Shows.silent rfl fun stopped => stopped
    · simp only [long, candidate, inner, double, Bool.not_true, Bool.false_eq_true, ↓reduceIte]
      cases outside : stack.isEmpty with
      | true =>
          cases marker : isMarker table (pending ++ [c]) with
          | true =>
              simp only [marker, Bool.true_or, ↓reduceIte] at completed
              exact ⟨completed.starts, completed.whole, completed.stopped⟩
          | false =>
              simp only [marker, outside, Bool.not_true, Bool.or_self, Bool.false_eq_true,
                ↓reduceIte] at completed
              exact ⟨completed.starts, completed.whole, completed.stopped⟩
      | false =>
          simp only [outside, Bool.not_false, Bool.or_true, ↓reduceIte] at completed
          exact ⟨completed.starts, completed.whole, completed.stopped⟩
  · simp only [long, candidate, Bool.not_false, ↓reduceIte]
    cases outside : stack.isEmpty with
    | true =>
        simp only [outside, ↓reduceIte] at released
        exact ⟨released.starts, released.whole, released.stopped⟩
    | false =>
        simp only [outside, Bool.false_eq_true, ↓reduceIte] at released
        exact ⟨released.starts, released.whole, released.stopped⟩

/-- One step passes an inert text on, provided that its released buffer is inert. -/
theorem ReasoningGuard.feedChar_shows (guard : ReasoningGuard) (c : Char)
    (inert : ∀ buffer, guard.releasedBuffer table c = some buffer → Inert table buffer) :
    ∃ passed, Inert table passed ∧
      guard.Shows (guard.feedChar table c).1 passed (guard.feedChar table c).2 := by
  have nothing : Inert table [] := inert_nil table
  have released : Inert table ((guard.releasedBuffer table c).getD []) := by
    cases buffer : guard.releasedBuffer table c with
    | none => exact nothing
    | some text => exact inert text buffer
  unfold feedChar
  by_cases discarded : guard.discard = true
  · simp only [discarded, ↓reduceIte]
    exact ⟨[], nothing, Shows.refl guard⟩
  rw [Bool.not_eq_true] at discarded
  by_cases idle : guard.pending.isEmpty = true
  · by_cases opens : (c == '<' || c == '[') = true
    · simp only [discarded, idle, opens, Bool.false_eq_true, ↓reduceIte]
      exact ⟨[], nothing, Shows.silent rfl fun stopped => absurd stopped (by simp [discarded])⟩
    · simp only [discarded, idle, opens, Bool.false_eq_true, ↓reduceIte]
      have plain : c ≠ '<' ∧ c ≠ '[' := by simpa using opens
      refine ⟨_, ?_, release_shows table guard [c]⟩
      split
      · exact inert_singleton table c plain
      · exact nothing
  rw [Bool.not_eq_true] at idle
  by_cases nested : (c == '<' && guard.pending != ['<']) = true
  · simp only [discarded, idle, nested, Bool.false_eq_true, ↓reduceIte]
    have shown := release_shows table guard guard.pending
    refine ⟨_, ?_, ⟨shown.starts, shown.whole, shown.stopped⟩⟩
    split
    · next outside =>
        exact inert guard.pending (by simp [releasedBuffer, discarded, idle, outside, nested])
    · exact nothing
  · rw [Bool.not_eq_true] at nested
    simp only [discarded, idle, nested, Bool.false_eq_true, ↓reduceIte]
    exact ⟨_, released, extend_shows table guard c discarded idle nested⟩

theorem ReasoningGuard.visible_pending (guard : ReasoningGuard) (text : Text) :
    (guard.visible table text).1.pending = guard.pending := by
  induction text generalizing guard with
  | nil => rfl
  | cons c rest ih =>
      have first : (guard.visibleChar table c).1.pending = guard.pending := by
        unfold visibleChar
        split
        · rfl
        · split <;> rfl
      exact (ih (guard.visibleChar table c).1).trans first

theorem ReasoningGuard.release_pending (guard : ReasoningGuard) (text : Text) :
    (guard.release table text).1.pending = guard.pending := by
  unfold release
  split
  · exact visible_pending table guard text
  · rfl

theorem ReasoningGuard.complete_pending (guard : ReasoningGuard) (pending : Text) :
    (guard.complete table pending).1.pending = guard.pending := by
  unfold complete
  split
  · split <;> rfl
  · split
    · rfl
    · split
      · rfl
      · exact release_pending table guard pending

theorem ReasoningGuard.extend_withholds (guard : ReasoningGuard) (c : Char) :
    (guard.extend table c).1.Withholds table := by
  unfold extend
  dsimp only
  split
  · exact Or.inl rfl
  · split
    · exact Or.inl rfl
    · next candidate =>
        have still : markerCandidate table (guard.pending ++ [c]) = true := by simpa using candidate
        split
        · exact Or.inr still
        · split
          · exact Or.inr still
          · exact Or.inl (complete_pending table _ _)

theorem ReasoningGuard.feedChar_withholds (guard : ReasoningGuard) (c : Char)
    (withholds : guard.Withholds table) : (guard.feedChar table c).1.Withholds table := by
  unfold feedChar
  split
  · exact withholds
  · split
    · next idle =>
        split
        · next opens =>
            exact Or.inr (markerCandidate_open table c (by simpa using opens))
        · exact Or.inl ((release_pending table guard [c]).trans (List.isEmpty_iff.mp idle))
    · split
      · exact Or.inr (markerCandidate_open table '<' (Or.inl rfl))
      · exact extend_withholds table guard c

theorem ReasoningGuard.feed_withholds (guard : ReasoningGuard) (text : Text)
    (withholds : guard.Withholds table) : (guard.feed table text).1.Withholds table := by
  induction text generalizing guard with
  | nil => exact withholds
  | cons c rest ih => exact ih _ (feedChar_withholds table guard c withholds)

/-- A run whose released buffers are inert passes an inert text on. -/
theorem ReasoningGuard.feed_shows (guard : ReasoningGuard) (text : Text)
    (inert : guard.ReleasesInert table text) :
    ∃ passed, Inert table passed ∧
      guard.Shows (guard.feed table text).1 passed (guard.feed table text).2 := by
  induction text generalizing guard with
  | nil => exact ⟨[], inert_nil table, Shows.refl guard⟩
  | cons c rest ih =>
      have now (buffer : Text) (released : guard.releasedBuffer table c = some buffer) :
          Inert table buffer := inert buffer (by simp [releases, released])
      have later : (guard.feedChar table c).1.ReleasesInert table rest :=
        fun buffer member => inert buffer (List.mem_append_right _ member)
      obtain ⟨first, inertFirst, showsFirst⟩ := feedChar_shows table guard c now
      obtain ⟨second, inertSecond, showsSecond⟩ := ih (guard.feedChar table c).1 later
      exact ⟨first ++ second, inertFirst.append inertSecond, showsFirst.trans showsSecond⟩

end

theorem mem_dropWhile_of_mem (text : Text) (skip : Char → Bool) (c : Char) (member : c ∈ text)
    (kept : skip c = false) : c ∈ text.dropWhile skip := by
  rw [← List.takeWhile_append_dropWhile (p := skip) (l := text)] at member
  rcases List.mem_append.mp member with skipped | rest
  · simp [List.mem_takeWhile_imp skipped] at kept
  · exact rest

/-- A partial marker that is not suspicious is an angle bracket with spaces and slashes. -/
theorem suspiciousPartial_plain (table : UnicodeTable) (pending : Text)
    (candidate : markerCandidate table pending = true)
    (plain : suspiciousPartial table pending = false) : '>' ∉ pending ∧ '[' ∉ pending := by
  unfold suspiciousPartial at plain
  rw [candidate] at plain
  split at plain
  · next bare =>
      rw [Bool.and_eq_true] at bare
      obtain ⟨opens, empty⟩ := bare
      have blank (c : Char) (notSpace : isSpace c = false) (notSlash : (c == '/') = false) :
          c ∉ pending.drop 1 := by
        intro member
        have kept := mem_dropWhile_of_mem _ isSpace c (mem_dropWhile_of_mem _ (· == '/') c
          (mem_dropWhile_of_mem _ isSpace c member notSpace) notSlash) notSpace
        exact absurd (List.isEmpty_iff.mp empty) (List.ne_nil_of_mem kept)
      cases pending with
      | nil => simp
      | cons c rest =>
          have angle : '<' = c := by simpa [startsWith] using opens
          have noClose := blank '>' (by decide) (by decide)
          have noSquare := blank '[' (by decide) (by decide)
          rw [← angle]
          simp only [List.drop_succ_cons, List.drop_zero] at noClose noSquare
          simp [noClose, noSquare]
  · contradiction

/-- The flush shows at most the passed text and a tail that holds no whole marker. -/
theorem ReasoningGuard.flush_starts (table : UnicodeTable) (guard : ReasoningGuard)
    (withholds : guard.Withholds table) :
    (guard.discard = true ∧ (guard.flush table).2 = []) ∨
      guard.discard = false ∧ ∃ tail, ('>' ∉ tail ∧ '[' ∉ tail) ∧
        (guard.flush table).2 <+: guard.sentinelPending ++ tail := by
  unfold flush
  by_cases hidden : (guard.discard || !guard.stack.isEmpty) = true
  · simp only [hidden, ↓reduceIte]
    by_cases discarded : guard.discard = true
    · exact Or.inl ⟨discarded, trivial⟩
    · exact Or.inr ⟨by simpa using discarded, [], by simp, List.nil_prefix⟩
  · have running : guard.discard = false := by
      by_contra discarded
      simp [discarded] at hidden
    refine Or.inr ⟨running, ?_⟩
    simp only [hidden, Bool.false_eq_true, ↓reduceIte]
    have shown (tail : Text) (blocks : Nat) :
        let after := { guard with pending := [], blockedBlocks := blocks }.visible table tail
        after.2 ++ (if after.1.discard then [] else after.1.sentinelPending) <+:
          guard.sentinelPending ++ tail := by
      have starts := (visible_shows table
        { guard with pending := [], blockedBlocks := blocks } tail).starts
      dsimp only at starts ⊢
      split
      · rw [List.append_nil]
        exact (List.prefix_append _ _).trans starts
      · exact starts
    refine ⟨_, ?_, shown _ _⟩
    split
    · simp
    · next unsuspicious =>
        rcases withholds with empty | candidate
        · simp [empty]
        · cases withheld : guard.pending with
          | nil => simp
          | cons c rest =>
              rw [withheld] at candidate
              refine suspiciousPartial_plain table (c :: rest) candidate ?_
              simpa [withheld] using unsuspicious

/-- An inert text followed by a tail without whole markers contains no marker. -/
theorem Inert.not_containsMarker {table : UnicodeTable} {passed tail text : Text}
    (inert : Inert table passed) (bare : '>' ∉ tail ∧ '[' ∉ tail) (starts : text <+: passed ++ tail) :
    ¬ContainsMarker table text := by
  rintro ⟨before, marker, after, split, isOne⟩
  obtain ⟨beyond, whole⟩ := starts
  have split' : passed ++ tail = before ++ (marker ++ (after ++ beyond)) := by
    rw [← whole, split]
    simp only [List.append_assoc]
  have inTail (middle : Text) (same : tail = middle ++ (marker ++ (after ++ beyond))) : False := by
    cases marker with
    | nil => simp [isMarker_nil] at isOne
    | cons c rest =>
        rcases isMarker_head table c rest isOne with rfl | rfl
        · exact bare.1 (by simp [same, isMarker_close table rest isOne])
        · exact bare.2 (by simp [same])
  rcases List.append_eq_append_iff.mp split' with ⟨middle, -, right⟩ | ⟨middle, left, right⟩
  · exact inTail middle right
  · cases middle with
    | nil => exact inTail [] right.symm
    | cons c rest =>
        have quiet := inert before (c :: rest) tail marker left (by simp)
          (right ▸ List.prefix_append marker _)
        simp [quiet] at isOne

/-- A comparison is released as ordinary text, and no continuation turns it into a marker. -/
theorem inert_comparison : Inert .symbols ['<', ' ', 'b'] := by
  intro skipped rest after marker split nonempty starts
  have plain : Inert .symbols [' ', 'b'] :=
    (inert_singleton .symbols ' ' (by decide)).append (inert_singleton .symbols 'b' (by decide))
  cases skipped with
  | cons c skipped =>
      exact plain skipped rest after marker (List.cons.inj split).2 nonempty starts
  | nil =>
      rw [← show ['<', ' ', 'b'] = rest from split] at starts
      match marker, starts with
      | [], _ => rfl
      | [c], starts =>
          obtain ⟨rfl, -⟩ := List.cons_prefix_cons.mp starts
          rfl
      | [c, d], starts =>
          obtain ⟨rfl, second⟩ := List.cons_prefix_cons.mp starts
          obtain ⟨rfl, -⟩ := List.cons_prefix_cons.mp second
          rfl
      | c :: d :: e :: text, starts =>
          obtain ⟨rfl, second⟩ := List.cons_prefix_cons.mp starts
          obtain ⟨rfl, third⟩ := List.cons_prefix_cons.mp second
          obtain ⟨rfl, -⟩ := List.cons_prefix_cons.mp third
          rfl

end LumenCopilot.Guard
