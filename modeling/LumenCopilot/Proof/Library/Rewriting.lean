import LumenCopilot.Proof.Library.Lists
import LumenCopilot.Proof.Library.Substitution

namespace LumenCopilot.Library

variable {α : Type} {old new word text : List α} {separator weight : α}
  {pairs : List (List α × List α)}

/-- The words have a letter that the written texts do not have, and none has the separator. -/
structure Weighted (separator weight : α) (pairs : List (List α × List α)) : Prop where
  heavy : ∀ pair ∈ pairs, weight ∈ pair.1
  light : ∀ pair ∈ pairs, weight ∉ pair.2
  apart : ∀ pair ∈ pairs, separator ∉ pair.1
  foreign : ∀ pair ∈ pairs, separator ∉ pair.2

variable {pair : List α × List α}

theorem Weighted.tail (weighted : Weighted separator weight (pair :: pairs)) :
    Weighted separator weight pairs where
  heavy := fun other member => weighted.heavy other (.tail pair member)
  light := fun other member => weighted.light other (.tail pair member)
  apart := fun other member => weighted.apart other (.tail pair member)
  foreign := fun other member => weighted.foreign other (.tail pair member)

theorem Weighted.filled (weighted : Weighted separator weight pairs) (member : pair ∈ pairs) :
    pair.1 ≠ [] :=
  List.ne_nil_of_mem (weighted.heavy pair member)

variable [DecidableEq α]

/-- A substitution passes a letter or replaces a match. -/
theorem substitute_induction {motive : List α → Prop} (old : List α) (filled : old ≠ [])
    (nil : motive []) (found : ∀ rest, motive rest → motive (old ++ rest))
    (passed : ∀ c rest, ¬ old <+: c :: rest → motive rest → motive (c :: rest)) (text : List α) :
    motive text := by
  induction size : text.length using Nat.strongRecOn generalizing text with
  | ind count ih =>
      cases text with
      | nil => exact nil
      | cons c rest =>
          by_cases here : old <+: c :: rest
          · obtain ⟨later, parts⟩ := here
            have total := congrArg List.length parts
            have long := List.length_pos_iff.mpr filled
            rw [List.length_append] at total
            rw [← parts]
            apply found
            exact ih later.length (by omega) later rfl
          · apply passed c rest here
            rw [List.length_cons] at size
            exact ih rest.length (by omega) rest rfl

theorem substitute_of_absent (new : List α) (absent : ¬ old <:+: text) :
    substitute old new text = text := by
  induction text with
  | nil => rfl
  | cons c rest ih =>
      rw [substitute_cons_of_not_starts new fun starts => absent starts.isInfix,
        ih fun later => absent (List.infix_cons later)]

/-- A word without the delimiter is replaced on each side of it alone. -/
theorem substitute_delimiter (new before after : List α) (filled : old ≠ [])
    (apart : separator ∉ old) :
    substitute old new (before ++ separator :: after) =
      substitute old new before ++ separator :: substitute old new after := by
  induction before using substitute_induction old filled with
  | nil =>
      apply substitute_cons_of_not_starts
      intro starts
      obtain ⟨letter, later, rfl⟩ := List.exists_cons_of_ne_nil filled
      obtain ⟨same, -⟩ := List.cons_prefix_cons.mp starts
      exact apart (same ▸ List.mem_cons_self)
  | found rest ih =>
      rw [List.append_assoc, substitute_append _ _ filled, substitute_append _ _ filled,
        ih, List.append_assoc]
  | passed c rest away ih =>
      have still : ¬ old <+: c :: (rest ++ separator :: after) := fun starts =>
        away (@prefix_append_delimiter _ _ _ (c :: rest) _ apart starts)
      rw [List.cons_append, substitute_cons_of_not_starts _ still,
        substitute_cons_of_not_starts _ away, ih, List.cons_append]

theorem mem_substitute {c : α} (filled : old ≠ []) (member : c ∈ substitute old new text) :
    c ∈ new ∨ c ∈ text := by
  induction text using substitute_induction old filled with
  | nil => exact Or.inr member
  | found rest ih =>
      rw [substitute_append _ _ filled] at member
      rw [List.mem_append]
      rcases List.mem_append.mp member with written | later
      · exact Or.inl written
      · exact (ih later).imp_right Or.inr
  | passed first rest away ih =>
      rw [substitute_cons_of_not_starts _ away] at member
      rcases List.mem_cons.mp member with rfl | later
      · exact Or.inr List.mem_cons_self
      · exact (ih later).imp_right (List.mem_cons_of_mem first)

/-- A substitution does not bring in a letter that the new word does not have. -/
theorem count_substitute_le (filled : old ≠ []) (light : weight ∉ new) (text : List α) :
    (substitute old new text).count weight ≤ text.count weight := by
  induction text using substitute_induction old filled with
  | nil => exact Nat.le_refl _
  | found rest ih =>
      rw [substitute_append _ _ filled, List.count_append, List.count_append,
        List.count_eq_zero_of_not_mem light]
      omega
  | passed c rest away ih =>
      rw [substitute_cons_of_not_starts _ away, List.count_cons, List.count_cons]
      omega

/-- A substitution of a word with the letter takes the letter away. -/
theorem count_substitute_lt (heavy : weight ∈ old) (light : weight ∉ new) (found : old <:+: text) :
    (substitute old new text).count weight < text.count weight := by
  have filled := List.ne_nil_of_mem heavy
  induction text using substitute_induction old filled with
  | nil => exact absurd (List.eq_nil_of_infix_nil found) filled
  | found rest _ =>
      have some := List.count_pos_iff.mpr heavy
      have later := count_substitute_le filled light rest
      rw [substitute_append _ _ filled, List.count_append, List.count_append,
        List.count_eq_zero_of_not_mem light]
      omega
  | passed c rest away ih =>
      have later := ih ((List.infix_cons_iff.mp found).resolve_left away)
      rw [substitute_cons_of_not_starts _ away, List.count_cons, List.count_cons]
      omega

theorem rewrite_cons (pair : List α × List α) (pairs : List (List α × List α)) (text : List α) :
    rewrite (pair :: pairs) text = rewrite pairs (substitute pair.1 pair.2 text) := rfl

theorem rewrite_of_absent (absent : ∀ pair ∈ pairs, ¬ pair.1 <:+: text) : rewrite pairs text = text := by
  induction pairs with
  | nil => rfl
  | cons pair pairs ih =>
      rw [rewrite_cons, substitute_of_absent _ (absent pair List.mem_cons_self)]
      exact ih fun other member => absent other (.tail pair member)

section

variable (weighted : Weighted separator weight pairs)
include weighted

theorem Weighted.rewrite_nil : rewrite pairs [] = [] := by
  apply rewrite_of_absent
  intro pair member found
  exact weighted.filled member (List.eq_nil_of_infix_nil found)

/-- The texts on both sides of a separator are rewritten alone. -/
theorem Weighted.rewrite_separator (before after : List α) :
    rewrite pairs (before ++ separator :: after) =
      rewrite pairs before ++ separator :: rewrite pairs after := by
  induction pairs generalizing before after with
  | nil => rfl
  | cons pair pairs ih =>
      rw [rewrite_cons, substitute_delimiter _ _ _ (weighted.filled List.mem_cons_self)
        (weighted.apart pair List.mem_cons_self), ih weighted.tail]
      rfl

/-- Blocks with a blank line between them are rewritten alone. -/
theorem Weighted.rewrite_intercalate (blocks : List (List α)) :
    rewrite pairs ([separator, separator].intercalate blocks) =
      [separator, separator].intercalate (blocks.map (rewrite pairs)) := by
  induction blocks with
  | nil => simpa using weighted.rewrite_nil
  | cons block rest ih =>
      cases rest with
      | nil => simp
      | cons second rest =>
          rw [List.map_cons] at ih
          rw [List.map_cons, List.map_cons, List.intercalate_cons_cons, List.intercalate_cons_cons,
            ← ih]
          have first := weighted.rewrite_separator block
            (separator :: [separator, separator].intercalate (second :: rest))
          have second := weighted.rewrite_separator []
            ([separator, separator].intercalate (second :: rest))
          rw [weighted.rewrite_nil] at second
          simp only [List.nil_append] at second
          simpa [second] using first

theorem Weighted.not_mem_rewrite (absent : separator ∉ text) : separator ∉ rewrite pairs text := by
  induction pairs generalizing text with
  | nil => exact absent
  | cons pair pairs ih =>
      apply ih weighted.tail
      intro member
      rcases mem_substitute (weighted.filled List.mem_cons_self) member with written | kept
      · exact weighted.foreign pair List.mem_cons_self written
      · exact absent kept

/-- The pieces between the separators are rewritten alone. -/
theorem Weighted.splitOn_rewrite (text : List α) :
    (rewrite pairs text).splitOn separator = (text.splitOn separator).map (rewrite pairs) := by
  induction size : text.length using Nat.strongRecOn generalizing text with
  | ind count ih =>
      by_cases member : separator ∈ text
      · obtain ⟨before, after, rfl⟩ := List.append_of_mem member
        rw [List.length_append, List.length_cons] at size
        rw [weighted.rewrite_separator, List.splitOn_append_cons_self, List.splitOn_append_cons_self,
          List.map_append, ih before.length (by omega) before rfl,
          ih after.length (by omega) after rfl]
      · rw [List.splitOn_eq_singleton member,
          List.splitOn_eq_singleton (weighted.not_mem_rewrite member)]
        rfl

theorem Weighted.count_rewrite_le (text : List α) :
    (rewrite pairs text).count weight ≤ text.count weight := by
  induction pairs generalizing text with
  | nil => exact Nat.le_refl _
  | cons pair pairs ih =>
      have first := count_substitute_le (weighted.filled List.mem_cons_self)
        (weighted.light pair List.mem_cons_self) text
      have later := ih weighted.tail (substitute pair.1 pair.2 text)
      rw [rewrite_cons]
      omega

/-- A text with one of the words loses the letter of the words. -/
theorem Weighted.count_rewrite_lt (listed : pair ∈ pairs) (found : pair.1 <:+: text) :
    (rewrite pairs text).count weight < text.count weight := by
  induction pairs with
  | nil => cases listed
  | cons first pairs ih =>
      rw [rewrite_cons]
      by_cases here : first.1 <:+: text
      · have fewer := count_substitute_lt (weighted.heavy first List.mem_cons_self)
          (weighted.light first List.mem_cons_self) here
        have later := weighted.tail.count_rewrite_le (substitute first.1 first.2 text)
        omega
      · rw [substitute_of_absent _ here]
        rcases List.mem_cons.mp listed with rfl | later
        · exact absurd found here
        · exact ih weighted.tail later

end

/-- A word without the separator lies within one piece. -/
theorem infix_iff_splitOn (absent : separator ∉ word) (text : List α) :
    word <:+: text ↔ ∃ piece ∈ text.splitOn separator, word <:+: piece := by
  induction size : text.length using Nat.strongRecOn generalizing text with
  | ind count ih =>
      by_cases member : separator ∈ text
      · obtain ⟨before, after, rfl⟩ := List.append_of_mem member
        rw [List.length_append, List.length_cons] at size
        have first := ih before.length (by omega) before rfl
        have second := ih after.length (by omega) after rfl
        rw [List.splitOn_append_cons_self]
        simp only [List.mem_append, or_and_right, exists_or]
        rw [← first, ← second]
        exact infix_delimiter_iff absent
      · simp [List.splitOn_eq_singleton member]

variable {piece : List α}

theorem not_mem_of_mem_splitOn (part : piece ∈ text.splitOn separator) : separator ∉ piece := by
  intro present
  rw [List.splitOn_eq_splitOnP] at part
  have clear := mem_splitOnP part separator present
  simp at clear

theorem infix_of_mem_splitOn (part : piece ∈ text.splitOn separator) : piece <:+: text :=
  (infix_iff_splitOn (not_mem_of_mem_splitOn part) text).mpr ⟨piece, part, List.infix_rfl⟩

variable {blocks : List (List α)}

/-- A piece of blocks with blank lines between them is empty or a piece of a block. -/
theorem mem_splitOn_intercalate
    (member : piece ∈ ([separator, separator].intercalate blocks).splitOn separator) :
    piece = [] ∨ ∃ block ∈ blocks, piece ∈ block.splitOn separator := by
  induction blocks with
  | nil => simpa using member
  | cons block rest ih =>
      cases rest with
      | nil => simpa using Or.inr member
      | cons second rest =>
          have parted : ([separator, separator].intercalate (block :: second :: rest)).splitOn
              separator = block.splitOn separator ++
                [] :: ([separator, separator].intercalate (second :: rest)).splitOn separator := by
            have blank := List.splitOn_append_cons_self (a := separator) []
              ([separator, separator].intercalate (second :: rest))
            rw [List.intercalate_cons_cons, List.append_assoc]
            simp only [List.cons_append, List.nil_append] at blank ⊢
            rw [List.splitOn_append_cons_self, blank]
            rfl
          rw [parted, List.mem_append, List.mem_cons] at member
          rcases member with here | empty | later
          · exact Or.inr ⟨block, List.mem_cons_self, here⟩
          · exact Or.inl empty
          · rcases ih later with empty | ⟨other, listed, inside⟩
            · exact Or.inl empty
            · exact Or.inr ⟨other, .tail block listed, inside⟩

omit [DecidableEq α] in
theorem infix_intercalate {block : List α} (glue : List α) (listed : block ∈ blocks) :
    block <:+: glue.intercalate blocks := by
  induction blocks with
  | nil => cases listed
  | cons first rest ih =>
      cases rest with
      | nil =>
          obtain rfl := List.mem_singleton.mp listed
          simp
      | cons second rest =>
          rw [List.intercalate_cons_cons]
          rcases List.mem_cons.mp listed with rfl | later
          · rw [List.append_assoc]
            exact (List.prefix_append block _).isInfix
          · exact (ih later).trans (List.suffix_append _ _).isInfix

/-- A block without the words stays in the text that is rewritten. -/
theorem Weighted.infix_rewrite (weighted : Weighted separator weight pairs) {block : List α}
    (listed : block ∈ blocks) (absent : ∀ pair ∈ pairs, ¬ pair.1 <:+: block) :
    block <:+: rewrite pairs ([separator, separator].intercalate blocks) := by
  have kept := List.mem_map_of_mem (f := rewrite pairs) listed
  rw [rewrite_of_absent absent] at kept
  rw [weighted.rewrite_intercalate]
  exact infix_intercalate _ kept

/-- When all blocks stay, a piece with a word lies in the rewriting of a piece with a word, which
has more of the letter. -/
theorem Weighted.climbs (weighted : Weighted separator weight pairs)
    (kept : ∀ block ∈ blocks, block <:+: rewrite pairs ([separator, separator].intercalate blocks))
    (listed : piece ∈ ([separator, separator].intercalate blocks).splitOn separator)
    (member : pair ∈ pairs) (found : pair.1 <:+: piece) :
    ∃ other ∈ ([separator, separator].intercalate blocks).splitOn separator,
      (∃ pair ∈ pairs, pair.1 <:+: other) ∧ piece.count weight < other.count weight := by
  rcases mem_splitOn_intercalate listed with rfl | ⟨block, inside, part⟩
  · exact absurd (List.eq_nil_of_infix_nil found) (weighted.filled member)
  · have within := (infix_of_mem_splitOn part).trans (kept block inside)
    rw [infix_iff_splitOn (not_mem_of_mem_splitOn part), weighted.splitOn_rewrite] at within
    obtain ⟨rewritten, image, there⟩ := within
    obtain ⟨other, place, rfl⟩ := List.mem_map.mp image
    have fewer := there.sublist.count_le weight
    by_cases marked : ∃ pair ∈ pairs, pair.1 <:+: other
    · obtain ⟨second, known, inner⟩ := marked
      have lost := weighted.count_rewrite_lt known inner
      exact ⟨other, place, ⟨second, known, inner⟩, by omega⟩
    · push Not at marked
      rw [rewrite_of_absent marked] at there
      exact absurd (found.trans there) (marked pair member)

/-- All blocks stay in the text that is rewritten when no block has one of the words. -/
theorem Weighted.blocks_infix_iff (weighted : Weighted separator weight pairs)
    (blocks : List (List α)) :
    (∀ block ∈ blocks, block <:+: rewrite pairs ([separator, separator].intercalate blocks)) ↔
      ∀ block ∈ blocks, ∀ pair ∈ pairs, ¬ pair.1 <:+: block := by
  constructor
  · intro kept block listed pair member found
    have endless : ∀ gap, ∀ piece ∈ ([separator, separator].intercalate blocks).splitOn separator,
        (∃ pair ∈ pairs, pair.1 <:+: piece) →
        ([separator, separator].intercalate blocks).count weight < piece.count weight + gap →
        False := by
      intro gap
      induction gap with
      | zero =>
          intro piece part _ above
          have below := (infix_of_mem_splitOn part).sublist.count_le weight
          omega
      | succ gap ih =>
          intro piece part ⟨pair, member, found⟩ above
          obtain ⟨other, place, marked, more⟩ := weighted.climbs kept part member found
          exact ih other place marked (by omega)
    have present : pair.1 <:+: [separator, separator].intercalate blocks :=
      found.trans (infix_intercalate _ listed)
    obtain ⟨piece, part, inside⟩ := (infix_iff_splitOn (weighted.apart pair member) _).mp present
    exact endless (([separator, separator].intercalate blocks).count weight + 1) piece part
      ⟨pair, member, inside⟩ (by omega)
  · intro absent block listed
    exact weighted.infix_rewrite listed (absent block listed)

end LumenCopilot.Library
