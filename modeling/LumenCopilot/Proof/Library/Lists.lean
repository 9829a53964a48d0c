import Mathlib

namespace LumenCopilot.Library

/-- A list changed at one place has the new item there and its old ones elsewhere. -/
theorem getElem?_set_iff {α : Type} {items : List α} {place other : Nat} {item replaced found : α}
    (held : items[place]? = some replaced) :
    (items.set place item)[other]? = some found ↔
      other = place ∧ found = item ∨ other ≠ place ∧ items[other]? = some found := by
  have within : place < items.length := (List.getElem?_eq_some_iff.mp held).1
  rw [List.getElem?_set]
  by_cases same : place = other
  · subst same
    simp [within, eq_comm]
  · simp [same, Ne.symm same]

/-- A change at one place keeps the other items. -/
theorem mem_set_of_mem {α : Type} {items : List α} {place : Nat} {item replaced other : α}
    (held : items[place]? = some replaced) (member : other ∈ items) :
    other = replaced ∨ other ∈ items.set place item := by
  obtain ⟨index, within, same⟩ := List.getElem_of_mem member
  have known : items[index]? = some other := by rw [List.getElem?_eq_getElem within, same]
  by_cases here : index = place
  · rw [here, held] at known
    exact Or.inl (Option.some.inj known).symm
  · exact Or.inr (List.mem_of_getElem? ((getElem?_set_iff held).mpr (Or.inr ⟨here, known⟩)))

/-- A longer list has its old items and the last one. -/
theorem getElem?_snoc_iff {α : Type} {items : List α} {place : Nat} {last found : α} :
    (items ++ [last])[place]? = some found ↔
      items[place]? = some found ∨ place = items.length ∧ found = last := by
  rw [List.getElem?_append]
  by_cases within : place < items.length
  · simp [within, within.ne]
  · rw [if_neg within, List.getElem?_eq_none (Nat.le_of_not_lt within)]
    rcases Nat.eq_or_lt_of_le (Nat.le_of_not_lt within) with same | beyond
    · simp [← same, eq_comm]
    · have beyondLast : [last].length ≤ place - items.length := Nat.sub_pos_of_lt beyond
      simp [List.getElem?_eq_none beyondLast, beyond.ne']

/-- A change at one place changes a count by the old and the new item. -/
theorem countP_set_eq {α : Type} {items : List α} {place : Nat} {replaced : α}
    (held : items[place]? = some replaced) (item : α) (count : α → Bool) :
    (items.set place item).countP count + (if count replaced then 1 else 0) =
      items.countP count + (if count item then 1 else 0) := by
  obtain ⟨within, same⟩ := List.getElem?_eq_some_iff.mp held
  have some : (if count replaced then 1 else 0) ≤ items.countP count := by
    split
    · next counts => exact List.countP_pos_iff.mpr ⟨_, List.mem_of_getElem? held, counts⟩
    · exact Nat.zero_le _
  rw [List.countP_set within, same]
  omega

theorem countP_set_same {α : Type} {items : List α} {place : Nat} {item replaced : α}
    (held : items[place]? = some replaced) {count : α → Bool} (same : count item = count replaced) :
    (items.set place item).countP count = items.countP count := by
  have counts := countP_set_eq held item count
  rw [same] at counts
  omega

variable {α β : Type} {R S : α → β → Prop} {first : List α} {second : List β}

theorem exists_of_mem_left (each : List.Forall₂ R first second) {a : α} (listed : a ∈ first) :
    ∃ b ∈ second, R a b := by
  induction each with
  | nil => contradiction
  | cons related _ ih =>
      rcases List.mem_cons.mp listed with rfl | listed
      · exact ⟨_, List.mem_cons_self, related⟩
      · obtain ⟨b, member, holds⟩ := ih listed
        exact ⟨b, List.mem_cons_of_mem _ member, holds⟩

/-- Every element of the first list is related to one of the second. -/
theorem exists_of_mem_sublist (part : List.SublistForall₂ R first second) {a : α}
    (listed : a ∈ first) : ∃ b ∈ second, R a b := by
  obtain ⟨kept, each, inside⟩ := List.sublistForall₂_iff.mp part
  obtain ⟨b, member, holds⟩ := exists_of_mem_left each listed
  exact ⟨b, inside.subset member, holds⟩

/-- A relation may be replaced by one that it implies on the second list. -/
theorem sublistForall₂_imp (part : List.SublistForall₂ R first second)
    (implies : ∀ a, ∀ b ∈ second, R a b → S a b) : List.SublistForall₂ S first second := by
  induction part with
  | nil => exact .nil
  | cons related _ ih =>
      exact .cons (implies _ _ List.mem_cons_self related)
        (ih fun a b listed => implies a b (List.mem_cons_of_mem _ listed))
  | cons_right _ ih =>
      exact .cons_right
        (ih fun a b listed => implies a b (List.mem_cons_of_mem _ listed))

/-- A repeated last item is dropped, and a new one stays. -/
theorem eraseDups_concat {γ : Type} [BEq γ] [LawfulBEq γ] [DecidableEq γ] (seen : List γ) (item : γ) :
    (seen ++ [item]).eraseDups =
      if item ∈ seen.eraseDups then seen.eraseDups else seen.eraseDups ++ [item] := by
  rw [List.eraseDups_append]
  by_cases known : item ∈ seen
  · rw [if_pos (List.mem_eraseDups.mpr known), List.removeAll, List.filter_cons_of_neg (by simp [known])]
    simp
  · rw [if_neg (fun again => known (List.mem_eraseDups.mp again)), List.removeAll,
      List.filter_cons_of_pos (by simp [known])]
    rfl

theorem nodup_eraseDups {γ : Type} [BEq γ] [LawfulBEq γ] [DecidableEq γ] (items : List γ) :
    items.eraseDups.Nodup := by
  induction items using List.reverseRecOn with
  | nil => exact List.nodup_nil
  | append_singleton items item ih =>
      rw [eraseDups_concat]
      split
      · exact ih
      · next fresh =>
          exact List.nodup_append_comm.mp (List.nodup_cons.mpr ⟨fresh, ih⟩)

/-- Distinct items stay as they are. -/
theorem eraseDups_of_nodup {γ : Type} [BEq γ] [LawfulBEq γ] [DecidableEq γ] {items : List γ}
    (distinct : items.Nodup) : items.eraseDups = items := by
  induction items using List.reverseRecOn with
  | nil => rfl
  | append_singleton items item ih =>
      have moved : (item :: items).Nodup := List.nodup_append_comm.mp distinct
      obtain ⟨fresh, rest⟩ := List.nodup_cons.mp moved
      rw [eraseDups_concat, ih rest, if_neg fresh]

end LumenCopilot.Library

namespace LumenCopilot.Library

variable {κ ν : Type} [DecidableEq κ] [AddCommMonoid ν]

/-- The tally of a key is the sum of the amounts that were entered under it. -/
def tally (entries : List (κ × ν)) (key : κ) : ν :=
  ((entries.filter fun entry => entry.1 = key).map Prod.snd).sum

@[simp]
theorem tally_nil (key : κ) : tally ([] : List (κ × ν)) key = 0 := rfl

theorem tally_cons (entry : κ × ν) (entries : List (κ × ν)) (key : κ) :
    tally (entry :: entries) key = (if entry.1 = key then entry.2 else 0) + tally entries key := by
  by_cases same : entry.1 = key
  · simp [tally, same]
  · simp [tally, same]

theorem tally_append (first second : List (κ × ν)) (key : κ) :
    tally (first ++ second) key = tally first key + tally second key := by
  simp [tally]

theorem tally_singleton (entry : κ × ν) (key : κ) :
    tally [entry] key = if entry.1 = key then entry.2 else 0 := by
  rw [tally_cons, tally_nil, add_zero]

/-- An entry without an amount does not count. -/
theorem tally_filter (counts : κ × ν → Bool) (entries : List (κ × ν)) (key : κ)
    (empty : ∀ entry ∈ entries, counts entry = false → entry.2 = 0) :
    tally (entries.filter counts) key = tally entries key := by
  induction entries with
  | nil => rfl
  | cons entry rest ih =>
      have later := ih fun other member => empty other (List.mem_cons_of_mem entry member)
      cases counted : counts entry with
      | true =>
          rw [List.filter_cons_of_pos counted, tally_cons, tally_cons, later]
      | false =>
          have nothing := empty entry List.mem_cons_self counted
          rw [List.filter_cons_of_neg (by simp [counted]), later, tally_cons, nothing, ite_self, zero_add]

end LumenCopilot.Library

namespace LumenCopilot.Library

variable {α : Type}

/-- A word stands between two delimiters. -/
def delimit (delimiter : α) (word : List α) : List α := delimiter :: (word ++ [delimiter])

/-- A part that starts with the delimiter does not start before the delimiter. -/
theorem infix_append_of_not_mem {delimiter : α} {before after word : List α}
    (apart : delimiter ∉ before) :
    delimiter :: word <:+: before ++ after ↔ delimiter :: word <:+: after := by
  induction before with
  | nil => rfl
  | cons a rest ih =>
      rw [List.cons_append, List.infix_cons_iff, ih fun later => apart (.tail a later)]
      constructor
      · rintro (starts | found)
        · obtain ⟨same, -⟩ := List.cons_prefix_cons.mp starts
          exact absurd (same ▸ List.mem_cons_self) apart
        · exact found
      · exact Or.inr

section

variable {delimiter : α} {word before after : List α} (apart : delimiter ∉ word)
include apart

/-- A word without the delimiter that starts a text ends before the delimiter. -/
theorem prefix_append_delimiter (starts : word <+: before ++ delimiter :: after) :
    word <+: before := by
  induction before generalizing word with
  | nil =>
      cases word with
      | nil => exact List.nil_prefix
      | cons a rest =>
          obtain ⟨same, _⟩ := List.cons_prefix_cons.mp starts
          exact absurd (same ▸ List.mem_cons_self) apart
  | cons b before ih =>
      cases word with
      | nil => exact List.nil_prefix
      | cons a rest =>
          obtain ⟨same, starts⟩ := List.cons_prefix_cons.mp starts
          apply List.cons_prefix_cons.mpr
          exact ⟨same, ih (fun member => apart (List.mem_cons_of_mem a member)) starts⟩

/-- A word without the delimiter lies on one side of it. -/
theorem infix_append_delimiter (found : word <:+: before ++ delimiter :: after) :
    word <:+: before ∨ word <:+: after := by
  induction before with
  | nil =>
      rcases List.infix_cons_iff.mp found with starts | later
      · exact Or.inl (@prefix_append_delimiter _ _ _ [] _ apart starts).isInfix
      · exact Or.inr later
  | cons b before ih =>
      rcases List.infix_cons_iff.mp found with starts | later
      · exact Or.inl (@prefix_append_delimiter _ _ _ (b :: before) _ apart starts).isInfix
      · rcases ih later with inside | beyond
        · exact Or.inl (List.infix_cons inside)
        · exact Or.inr beyond

theorem infix_delimiter_iff :
    word <:+: before ++ delimiter :: after ↔ word <:+: before ∨ word <:+: after := by
  constructor
  · exact infix_append_delimiter apart
  · rintro (first | second)
    · exact first.trans (List.prefix_append before _).isInfix
    · exact second.trans ((List.suffix_cons delimiter after).trans (List.suffix_append before _)).isInfix

theorem infix_cons_delimiter_iff (filled : word ≠ []) :
    word <:+: delimiter :: after ↔ word <:+: after := by
  have sides := @infix_delimiter_iff _ _ _ [] after apart
  rw [List.nil_append, List.infix_nil] at sides
  rw [sides]
  exact or_iff_right filled

/-- A word without the delimiter lies on one side of an end that is empty or starts with it. -/
theorem infix_append_end_iff {close : List α} (filled : word ≠ [])
    (opens : close = [] ∨ ∃ rest, close = delimiter :: rest) :
    word <:+: before ++ close ↔ word <:+: before ∨ word <:+: close := by
  rcases opens with rfl | ⟨rest, rfl⟩
  · rw [List.append_nil, List.infix_nil]
    exact (or_iff_left filled).symm
  · rw [infix_delimiter_iff apart, infix_cons_delimiter_iff apart filled]

end

/-- A word without dropped letters lies in what is left. -/
theorem infix_dropWhile_iff {p : α → Bool} {word text : List α} (filled : word ≠ [])
    (kept : ∀ c ∈ word, p c = false) : word <:+: text.dropWhile p ↔ word <:+: text := by
  induction text with
  | nil => rfl
  | cons c rest ih =>
      rw [List.dropWhile_cons]
      split
      · next dropped =>
          rw [ih, List.infix_cons_iff]
          constructor
          · exact Or.inr
          · rintro (starts | later)
            · obtain ⟨first, others, rfl⟩ := List.exists_cons_of_ne_nil filled
              obtain ⟨rfl, -⟩ := List.cons_prefix_cons.mp starts
              exact absurd dropped (by simp [kept])
            · exact later
      · rfl

/-- A word ends at the first delimiter. -/
theorem prefix_delimiter_iff {delimiter : α} {word other rest : List α}
    (apart : delimiter ∉ word) (otherApart : delimiter ∉ other) :
    word ++ [delimiter] <+: other ++ delimiter :: rest ↔ word = other := by
  induction word generalizing other with
  | nil =>
      cases other with
      | nil => simp
      | cons a later =>
          have differs : delimiter ≠ a := fun same => otherApart (same ▸ List.mem_cons_self)
          simp [differs]
  | cons a word ih =>
      cases other with
      | nil =>
          have differs : a ≠ delimiter := fun same => apart (same ▸ List.mem_cons_self)
          simp [differs]
      | cons b other =>
          rw [List.cons_append, List.cons_append, List.cons_prefix_cons,
            ih (fun later => apart (.tail a later)) fun later => otherApart (.tail b later)]
          simp

/-- A delimited word is found at the start of a delimited word or after it. -/
theorem delimit_infix_delimit_iff {delimiter : α} {word other rest : List α}
    (apart : delimiter ∉ word) (otherApart : delimiter ∉ other) :
    delimit delimiter word <:+: delimit delimiter other ++ rest ↔
      word = other ∨ delimit delimiter word <:+: delimiter :: rest := by
  have opened : delimit delimiter other ++ rest = delimiter :: (other ++ delimiter :: rest) := by
    simp [delimit]
  rw [opened, delimit, List.infix_cons_iff, infix_append_of_not_mem otherApart,
    List.cons_prefix_cons, prefix_delimiter_iff apart otherApart]
  simp

/-- The text between two delimited words is not a word. -/
theorem delimit_infix_separator_iff {delimiter : α} {word separator after : List α}
    (apart : delimiter ∉ word) (separatorApart : delimiter ∉ separator)
    (differs : word ≠ separator) :
    delimit delimiter word <:+: delimiter :: (separator ++ delimiter :: after) ↔
      delimit delimiter word <:+: delimiter :: after := by
  rw [delimit, List.infix_cons_iff, infix_append_of_not_mem separatorApart,
    List.cons_prefix_cons, prefix_delimiter_iff apart separatorApart]
  simp [differs]

/-- The text after the last delimited word has no word. -/
theorem not_delimit_infix_close {delimiter : α} {word close : List α}
    (closeApart : delimiter ∉ close) : ¬ delimit delimiter word <:+: delimiter :: close := by
  intro found
  have twice : [delimiter, delimiter].Sublist (delimit delimiter word) :=
    (List.sublist_append_right word [delimiter]).cons_cons delimiter
  have once := List.cons_sublist_cons.mp (twice.trans found.sublist)
  exact closeApart (once.subset List.mem_cons_self)

/-- A delimited word is found in a separated list of delimited words when it is one of them. -/
theorem delimit_infix_intercalate_iff {delimiter : α} {word separator close : List α}
    {words : List (List α)} (apart : delimiter ∉ word) (separatorApart : delimiter ∉ separator)
    (closeApart : delimiter ∉ close) (wordsApart : ∀ other ∈ words, delimiter ∉ other)
    (differs : word ≠ separator) :
    delimit delimiter word <:+: separator.intercalate (words.map (delimit delimiter)) ++ close ↔
      word ∈ words := by
  induction words with
  | nil =>
      have absent : ¬ delimit delimiter word <:+: close := by
        intro found
        exact closeApart (found.subset List.mem_cons_self)
      simpa using absent
  | cons first rest ih =>
      have firstApart := wordsApart first List.mem_cons_self
      have later := ih fun other member => wordsApart other (.tail first member)
      cases rest with
      | nil =>
          have last := @not_delimit_infix_close _ _ word _ closeApart
          simp [delimit_infix_delimit_iff apart firstApart, last]
      | cons second rest =>
          obtain ⟨after, opened⟩ : ∃ after, separator.intercalate
              ((second :: rest).map (delimit delimiter)) ++ close = delimiter :: after := by
            cases rest <;> simp [delimit, List.intercalate_cons_cons]
          rw [opened] at later
          rw [List.map_cons, List.map_cons, List.intercalate_cons_cons, ← List.map_cons,
            List.append_assoc, List.append_assoc, opened,
            delimit_infix_delimit_iff apart firstApart,
            delimit_infix_separator_iff apart separatorApart differs, later]
          exact List.mem_cons.symm

/-- No letter of a part separates. -/
theorem mem_splitOnP {p : α → Bool} {text part : List α} (member : part ∈ text.splitOnP p) :
    ∀ x ∈ part, p x = false := by
  induction text generalizing part with
  | nil =>
      obtain rfl := List.mem_singleton.mp member
      nofun
  | cons first rest ih =>
      rw [List.splitOnP_cons_eq_if_modifyHead] at member
      split at member
      · rcases List.mem_cons.mp member with rfl | member
        · nofun
        · exact ih member
      · next plain =>
          cases splits : rest.splitOnP p with
          | nil => exact absurd splits (List.splitOnP_ne_nil p rest)
          | cons head tail =>
              rw [splits] at member
              rcases List.mem_cons.mp member with rfl | member
              · intro x known
                rcases List.mem_cons.mp known with rfl | known
                · simpa using plain
                · exact ih (splits ▸ List.mem_cons_self) x known
              · exact ih (splits ▸ List.mem_cons_of_mem _ member)

end LumenCopilot.Library
