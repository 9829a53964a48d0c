import LumenCopilot.Construction.Memory.Coverage
import LumenCopilot.Proof.Library.Substitution
import LumenCopilot.Proof.Python.Methods

namespace LumenCopilot.Memory

open Library Python

variable {table : CaseTable} {front back : Text} {letters : List (Option Char)} {needles : List Text}

/-- The code point is in lower case one code point, wherever it stands. -/
def Steady (table : CaseTable) (c : Char) : Prop :=
  c ≠ capitalSigma ∧ (lowerChar table.toUnicodeTable c).length = 1

/-- This is the lower case of a steady code point. -/
def lowerSingle (table : CaseTable) (c : Char) : Char :=
  (lowerChar table.toUnicodeTable c).headD c

theorem Steady.lowerChar_eq {c : Char} (steady : Steady table c) :
    lowerChar table.toUnicodeTable c = [lowerSingle table c] := by
  obtain ⟨single, same⟩ := List.length_eq_one_iff.mp steady.2
  rw [lowerSingle, same]
  rfl

/-- These are the letters of the redacted text in lower case: its front with the markers as they
stand, and its back. -/
def loweredLetters (table : CaseTable) (letters : List (Option Char)) (back : Text) :
    List (Option Char) :=
  letters.map (Option.map (lowerSingle table)) ++ (lower table.toUnicodeTable back).map some

/-- This is the redacted text. -/
def written (letters : List (Option Char)) (back : Text) : Text :=
  expand redactionMarker letters ++ back

/-- In the front every code point is steady, and every needle that occurs lies in the front. -/
structure Aligned (table : CaseTable) (needles : List Text) (letters : List (Option Char))
    (back : Text) : Prop where
  steady : ∀ c, some c ∈ letters → Steady table c
  plain : capitalSigma ∉ back
  early : ∀ needle ∈ needles, ∀ before after,
    loweredLetters table letters back = before ++ needle.map some ++ after →
      (lower table.toUnicodeTable back).length ≤ after.length

theorem lower_expand (steady : ∀ c, some c ∈ letters → Steady table c) :
    lower table.toUnicodeTable (expand redactionMarker letters) =
      expand redactionMarker (letters.map (Option.map (lowerSingle table))) := by
  induction letters with
  | nil => rfl
  | cons head tail ih =>
      have others := ih fun c listed => steady c (List.mem_cons_of_mem _ listed)
      cases head with
      | none =>
          have marker : lower table.toUnicodeTable redactionMarker = redactionMarker := rfl
          rw [expand_none, lower_append, others, marker]
          rfl
      | some c =>
          have single := (steady c List.mem_cons_self).lowerChar_eq
          rw [expand_some, lower, List.flatMap_cons, single, ← lower, others]
          rfl

theorem not_mem_expand (steady : ∀ c, some c ∈ letters → Steady table c) :
    capitalSigma ∉ expand redactionMarker letters := by
  induction letters with
  | nil => simp
  | cons head tail ih =>
      have others := ih fun c listed => steady c (List.mem_cons_of_mem _ listed)
      cases head with
      | none =>
          have marker : capitalSigma ∉ redactionMarker := by decide
          rw [expand_none]
          exact fun member => (List.mem_append.mp member).elim marker others
      | some c =>
          have different := (steady c List.mem_cons_self).1
          rw [expand_some]
          exact fun member => (List.mem_cons.mp member).elim (fun same => different same.symm) others

/-- The lower case of the text is written with the lowered letters. -/
theorem strLower_written (aligned : Aligned table needles letters back) :
    strLower table (written letters back) =
      expand redactionMarker (loweredLetters table letters back) := by
  have plain : capitalSigma ∉ written letters back := fun member =>
    (List.mem_append.mp member).elim (not_mem_expand aligned.steady) aligned.plain
  rw [strLower_eq table plain, written, lower_append, lower_expand aligned.steady, loweredLetters,
    expand_append, expand_map_some]

theorem length_expand_map (mark : Text) (letters : List (Option Char)) (f : Char → Char) :
    (expand mark (letters.map (Option.map f))).length = (expand mark letters).length := by
  induction letters with
  | nil => rfl
  | cons head tail ih =>
      cases head with
      | none =>
          rw [List.map_cons, Option.map_none, expand_none, expand_none, List.length_append,
            List.length_append, ih]
      | some c =>
          rw [List.map_cons, Option.map_some, expand_some, expand_some, List.length_cons,
            List.length_cons, ih]

/-- A needle that occurs splits the letters of the front. -/
theorem Aligned.split (aligned : Aligned table needles letters back) {needle : Text}
    (listed : needle ∈ needles) {before after : List (Option Char)}
    (parts : loweredLetters table letters back = before ++ needle.map some ++ after) :
    ∃ first middle last, letters = first ++ middle ++ last ∧
      first.map (Option.map (lowerSingle table)) = before ∧
      middle.map (Option.map (lowerSingle table)) = needle.map some ∧
      after = last.map (Option.map (lowerSingle table)) ++
        (lower table.toUnicodeTable back).map some := by
  have late := aligned.early needle listed before after parts
  have ends : (lower table.toUnicodeTable back).map some <:+ after := by
    have whole : (lower table.toUnicodeTable back).map some <:+ before ++ needle.map some ++ after := by
      rw [← parts]
      exact List.suffix_append _ _
    refine List.suffix_of_suffix_length_le whole (List.suffix_append _ _) ?_
    rw [List.length_map]
    exact late
  obtain ⟨remains, rfl⟩ := ends
  rw [loweredLetters, ← List.append_assoc] at parts
  have lowered := List.append_cancel_right parts
  obtain ⟨left, last, rfl, leftMaps, rfl⟩ := List.map_eq_append_iff.mp lowered
  obtain ⟨first, middle, rfl, firstMaps, middleMaps⟩ := List.map_eq_append_iff.mp leftMaps
  exact ⟨first, middle, last, rfl, firstMaps, middleMaps, rfl⟩

theorem loweredLetters_mark (first last : List (Option Char)) (back : Text) :
    loweredLetters table (first ++ none :: last) back =
      first.map (Option.map (lowerSingle table)) ++ none ::
        (last.map (Option.map (lowerSingle table)) ++
          (lower table.toUnicodeTable back).map some) := by
  simp [loweredLetters]

theorem loweredLetters_append (first middle last : List (Option Char)) (back : Text) :
    loweredLetters table (first ++ middle ++ last) back =
      first.map (Option.map (lowerSingle table)) ++
        (middle.map (Option.map (lowerSingle table)) ++
          (last.map (Option.map (lowerSingle table)) ++
            (lower table.toUnicodeTable back).map some)) := by
  simp [loweredLetters]

/-- A word of code points that the letters of the second hold is one that those of the first hold. -/
def Holds (table : CaseTable) (back : Text) (first second : List (Option Char)) : Prop :=
  ∀ word : Text, word.map some <:+: loweredLetters table second back →
    word.map some <:+: loweredLetters table first back

theorem none_not_mem_map (word : Text) : none ∉ word.map some := by simp

/-- A marker in the place of some letters adds no word. -/
theorem Holds.mark (first middle last : List (Option Char)) :
    Holds table back (first ++ middle ++ last) (first ++ none :: last) := by
  rintro word ⟨before, after, parts⟩
  rw [loweredLetters_mark] at parts
  rw [loweredLetters_append]
  rcases split_at_separator (none_not_mem_map word) parts with ⟨more, left, -⟩ | ⟨more, -, right⟩
  · rw [left]
    exact ⟨before, _, by simp only [List.append_assoc]; rfl⟩
  · rw [right]
    exact ⟨first.map (Option.map (lowerSingle table)) ++ middle.map (Option.map (lowerSingle table)) ++
      more, after, by simp only [List.append_assoc]⟩

/-- A marker in the place of some letters keeps the text aligned. -/
theorem Aligned.mark {first middle last : List (Option Char)}
    (aligned : Aligned table needles (first ++ middle ++ last) back) :
    Aligned table needles (first ++ none :: last) back where
  steady c listed := by
    apply aligned.steady
    rcases List.mem_append.mp listed with early | late
    · exact List.mem_append_left _ (List.mem_append_left _ early)
    · rcases List.mem_cons.mp late with same | late
      · exact absurd same (Option.some_ne_none c)
      · exact List.mem_append_right _ late
  plain := aligned.plain
  early needle listed before after parts := by
    rw [loweredLetters_mark] at parts
    rcases split_at_separator (none_not_mem_map needle) parts.symm with
      ⟨more, -, right⟩ | ⟨more, -, right⟩
    · rw [right]
      simp only [List.length_append, List.length_cons, List.length_map]
      omega
    · refine aligned.early needle listed (first.map (Option.map (lowerSingle table)) ++
        middle.map (Option.map (lowerSingle table)) ++ more) after ?_
      rw [loweredLetters_append, right]
      simp only [List.append_assoc]

theorem eq_map_some_of_map {f : Char → Char} (middle : List (Option Char)) (needle : Text)
    (maps : middle.map (Option.map f) = needle.map some) :
    ∃ original : Text, middle = original.map some ∧ original.length = needle.length := by
  induction middle generalizing needle with
  | nil => exact ⟨[], rfl, by simpa using (congrArg List.length maps)⟩
  | cons head tail ih =>
      cases needle with
      | nil => simp at maps
      | cons c needle =>
          rw [List.map_cons, List.map_cons, List.cons.injEq] at maps
          obtain ⟨here, rest⟩ := maps
          obtain ⟨letter, rfl, -⟩ := Option.map_eq_some_iff.mp here
          obtain ⟨original, rfl, same⟩ := ih needle rest
          exact ⟨letter :: original, rfl, congrArg Nat.succ same⟩

theorem written_append (first last : List (Option Char)) (original back : Text) :
    written (first ++ original.map some ++ last) back =
      expand redactionMarker first ++ (original ++ (expand redactionMarker last ++ back)) := by
  simp only [written, expand_append, expand_map_some, List.append_assoc]

/-- One round puts a marker in the place of a needle. -/
theorem redactWindow_round (aligned : Aligned table needles letters back) {window : Text}
    (listed : strLower table window ∈ needles)
    (foreign : Foreign redactionMarker (strLower table window))
    (long : (strLower table window).length = window.length) {place : Nat}
    (found : find (strLower table window) (strLower table (written letters back)) = some place) :
    ∃ next, (written letters back).take place ++ redactionMarker ++
        (written letters back).drop (place + window.length) = written next back ∧
      Aligned table needles next back ∧ Holds table back letters next ∧
      next.reduceOption.length < letters.reduceOption.length := by
  obtain ⟨after, parts, reach⟩ := split_of_find foreign.filled found
  rw [strLower_written aligned] at parts reach
  obtain ⟨left, right, splits, before, -⟩ := foreign.split_expand _ _ _ parts
  obtain ⟨first, middle, last, rfl, firstMaps, middleMaps, -⟩ := aligned.split listed splits
  obtain ⟨original, rfl, same⟩ := eq_map_some_of_map middle _ middleMaps
  refine ⟨first ++ none :: last, ?_, aligned.mark, Holds.mark first _ last, ?_⟩
  · have start : (expand redactionMarker first).length = place := by
      rw [← reach, ← before, ← firstMaps, length_expand_map]
    have stop : (expand redactionMarker first ++ original).length = place + window.length := by
      rw [List.length_append, start, same, long]
    rw [written_append, List.take_left' start, ← List.append_assoc, List.drop_left' stop]
    simp [written, expand_append]
  · have filled := List.length_pos_iff.mpr foreign.filled
    have kept : (original.map some).reduceOption = original := by
      rw [List.reduceOption, List.filterMap_map]
      exact List.filterMap_some
    rw [List.reduceOption_append, List.reduceOption_append, List.reduceOption_append, kept,
      List.reduceOption_cons_of_none]
    simp only [List.length_append]
    omega

theorem Holds.refl (letters : List (Option Char)) : Holds table back letters letters :=
  fun _ inside => inside

theorem Holds.trans {first second third : List (Option Char)} (one : Holds table back first second)
    (two : Holds table back second third) : Holds table back first third :=
  fun word inside => one word (two word inside)

/-- A foreign word that the written text holds is one that its letters hold, and conversely. -/
theorem infix_strLower_written (aligned : Aligned table needles letters back) {word : Text}
    (foreign : Foreign redactionMarker word) :
    word <:+: strLower table (written letters back) ↔
      word.map some <:+: loweredLetters table letters back := by
  rw [strLower_written aligned]
  constructor
  · exact foreign.infix_expand _
  · rintro ⟨before, after, parts⟩
    rw [← parts, expand_append, expand_append, expand_map_some]
    exact List.infix_append _ _ _

/-- The inner loop ends, and the needle is gone. -/
theorem redactWindow_terminates (aligned : Aligned table needles letters back) {window : Text}
    (listed : strLower table window ∈ needles)
    (foreign : Foreign redactionMarker (strLower table window))
    (long : (strLower table window).length = window.length) :
    ∃ fuel next, (∀ more, fuel ≤ more →
        redactWindow table more window (written letters back) = some (written next back)) ∧
      Aligned table needles next back ∧ Holds table back letters next ∧
      ¬ strLower table window <:+: strLower table (written next back) := by
  induction size : letters.reduceOption.length using Nat.strongRecOn generalizing letters with
  | ind count ih =>
      cases found : find (strLower table window) (strLower table (written letters back)) with
      | none =>
          refine ⟨1, letters, ?_, aligned, Holds.refl letters, not_infix_of_find foreign.filled found⟩
          intro more enough
          obtain ⟨fuel, rfl⟩ := Nat.exists_eq_add_of_le' enough
          rw [redactWindow, found]
      | some place =>
          obtain ⟨next, same, nextAligned, holds, fewer⟩ :=
            redactWindow_round aligned listed foreign long found
          obtain ⟨fuel, last, runs, lastAligned, lastHolds, gone⟩ :=
            ih _ (size ▸ fewer) nextAligned rfl
          refine ⟨fuel + 1, last, ?_, lastAligned, holds.trans lastHolds, gone⟩
          intro more enough
          obtain ⟨less, rfl⟩ := Nat.exists_eq_add_of_le' (Nat.le_trans (Nat.le_add_left 1 fuel) enough)
          rw [redactWindow, found]
          dsimp only
          rw [same]
          exact runs less (by omega)

/-- The loops over the windows end, and every needle is gone. -/
theorem foldlM_redactWindow (windows : List Text) (aligned : Aligned table needles letters back)
    (listed : ∀ window ∈ windows, strLower table window ∈ needles)
    (foreign : ∀ window ∈ windows, Foreign redactionMarker (strLower table window))
    (long : ∀ window ∈ windows, (strLower table window).length = window.length) :
    ∃ fuel next, (∀ more, fuel ≤ more →
        windows.foldlM (fun redacted window => redactWindow table more window redacted)
          (written letters back) = some (written next back)) ∧
      Aligned table needles next back ∧ Holds table back letters next ∧
      ∀ window ∈ windows, ¬ strLower table window <:+: strLower table (written next back) := by
  induction windows generalizing letters with
  | nil => exact ⟨0, letters, fun _ _ => rfl, aligned, Holds.refl letters, nofun⟩
  | cons window later ih =>
      obtain ⟨fuel, middle, runs, middleAligned, holds, gone⟩ := redactWindow_terminates aligned
        (listed window List.mem_cons_self) (foreign window List.mem_cons_self)
        (long window List.mem_cons_self)
      obtain ⟨others, last, runsOn, lastAligned, lastHolds, goneOn⟩ := ih middleAligned
        (fun other member => listed other (List.mem_cons_of_mem _ member))
        (fun other member => foreign other (List.mem_cons_of_mem _ member))
        (fun other member => long other (List.mem_cons_of_mem _ member))
      refine ⟨max fuel others, last, ?_, lastAligned, holds.trans lastHolds, ?_⟩
      · intro more enough
        rw [List.foldlM_cons, runs more (Nat.le_trans (Nat.le_max_left _ _) enough)]
        exact runsOn more (Nat.le_trans (Nat.le_max_right _ _) enough)
      · intro other member
        rcases List.mem_cons.mp member with rfl | member
        · have strange := foreign other List.mem_cons_self
          rw [infix_strLower_written lastAligned strange]
          rw [infix_strLower_written middleAligned strange] at gone
          exact fun inside => gone (lastHolds _ inside)
        · exact goneOn other member

/-- Consecutive words of a snippet that are long enough are one of its windows. -/
theorem mem_snippetWindows {snippet : Text} {run : List Text} (inside : run <:+: splitBlank snippet)
    (many : redactMinWindowWords ≤ run.length)
    (long : redactMinWindowChars ≤ (join [' '] run).length) :
    join [' '] run ∈ snippetWindows snippet := by
  obtain ⟨before, after, parts⟩ := inside
  refine List.mem_filter.mpr ⟨List.mem_flatMap.mpr ⟨run.length, ?_, ?_⟩, by simpa using long⟩
  · have total := congrArg List.length parts
    simp only [List.length_append] at total
    refine List.mem_map.mpr ⟨(splitBlank snippet).length - run.length, List.mem_range.mpr ?_, ?_⟩
    · unfold redactMinWindowWords at many ⊢
      omega
    · omega
  · have total := congrArg List.length parts
    simp only [List.length_append] at total
    refine List.mem_map.mpr ⟨before.length, List.mem_range.mpr (by omega), ?_⟩
    rw [← parts, List.append_assoc, List.drop_left, List.take_left]

/-- The windows of the snippets that a text holds can be cut out of it: none occurs, or each ends
before the first code point that is not steady, keeps its length in lower case and is foreign to
the marker. -/
def Redactable (table : CaseTable) (summary : Text) (snippets : List Text) : Prop :=
  (∀ window ∈ snippets.flatMap snippetWindows,
    ¬ strLower table window <:+: strLower table summary) ∨
  ∃ front back, summary = front ++ back ∧ (∀ c ∈ front, Steady table c) ∧ capitalSigma ∉ back ∧
    ∀ window ∈ snippets.flatMap snippetWindows,
      (strLower table window).length = window.length ∧
      Foreign redactionMarker (strLower table window) ∧
      ∀ before after, strLower table summary = before ++ strLower table window ++ after →
        (strLower table back).length ≤ after.length

theorem foldlM_redactWindow_absent (windows : List Text) (summary : Text)
    (absent : ∀ window ∈ windows, ¬ strLower table window <:+: strLower table summary) :
    windows.foldlM (fun redacted window => redactWindow table 1 window redacted) summary =
      some summary := by
  induction windows with
  | nil => rfl
  | cons window later ih =>
      have first : redactWindow table 1 window summary = some summary := by
        rw [redactWindow, find_eq_none (absent window List.mem_cons_self)]
      rw [List.foldlM_cons, first]
      exact ih fun other member => absent other (List.mem_cons_of_mem _ member)

/-- At the start the front has no marker. -/
theorem Aligned.initial (steady : ∀ c ∈ front, Steady table c) (plain : capitalSigma ∉ back)
    (early : ∀ needle ∈ needles, ∀ before after,
      strLower table (front ++ back) = before ++ needle ++ after →
        (strLower table back).length ≤ after.length) :
    Aligned table needles (front.map some) back where
  steady c listed := by
    obtain ⟨letter, member, same⟩ := List.mem_map.mp listed
    exact Option.some.inj same ▸ steady letter member
  plain := plain
  early needle listed before after parts := by
    have frontPlain : capitalSigma ∉ front := fun member => (steady _ member).1 rfl
    have wholePlain : capitalSigma ∉ front ++ back := fun member =>
      (List.mem_append.mp member).elim frontPlain plain
    have frontLower : lower table.toUnicodeTable front = front.map (lowerSingle table) := by
      rw [lower, ← List.flatMap_pure_eq_map]
      exact List.flatMap_congr fun c member => (steady c member).lowerChar_eq
    have whole : strLower table (front ++ back) =
        front.map (lowerSingle table) ++ lower table.toUnicodeTable back := by
      rw [strLower_eq table wholePlain, lower_append, frontLower]
    have symbols : loweredLetters table (front.map some) back =
        (strLower table (front ++ back)).map some := by
      rw [whole, List.map_append, loweredLetters, List.map_map, List.map_map]
      rfl
    rw [symbols] at parts
    obtain ⟨left, last, split, leftMaps, rfl⟩ := List.map_eq_append_iff.mp parts
    obtain ⟨first, middle, rfl, -, middleMaps⟩ := List.map_eq_append_iff.mp leftMaps
    have same : middle = needle := List.map_injective_iff.mpr (Option.some_injective Char) middleMaps
    rw [List.length_map, ← strLower_eq table plain]
    exact early needle listed first last (same ▸ split)

end LumenCopilot.Memory
