import LumenCopilot.Construction.Library.Substitution

namespace LumenCopilot.Library

variable {α : Type} {words : List (List α)} {word text mark : List α}

/-- Words that are apart in a text are apart in what follows. -/
theorem Apart.drop (apart : Apart words text) (skip : Nat) : Apart words (text.drop skip) := by
  intro word listed other member different start inside finish within here there
  rw [List.drop_drop] at here there
  rw [List.length_drop] at inside within
  have distinct := apart word listed other member different (skip + start) (by omega)
    (skip + finish) (by omega) here there
  omega

variable {other : List α}

/-- At most one word begins at a place. -/
theorem Apart.unique (apart : Apart words text) (filled : ∀ word ∈ words, word ≠ [])
    (listed : word ∈ words) (member : other ∈ words) (here : word <+: text) (there : other <+: text)
    : word = other := by
  by_contra different
  have long := List.length_pos_iff.mpr (filled word listed)
  have longer := List.length_pos_iff.mpr (filled other member)
  have within := here.length_le
  have distinct := apart word listed other member different 0 (by omega) 0 (by omega) here there
  omega

variable {place : Nat}

/-- No other word begins inside of an occurrence. -/
theorem Apart.inside (apart : Apart words text) (listed : word ∈ words) (member : other ∈ words)
    (different : word ≠ other) (filled : other ≠ []) (here : word <+: text)
    (within : place < word.length) : ¬ other <+: text.drop place := by
  intro there
  have long := here.length_le
  have distinct := apart word listed other member different 0 (by omega) place (by omega) here there
  have some := List.length_pos_iff.mpr filled
  omega

@[simp] theorem expand_nil (mark : List α) : expand mark [] = [] := rfl

@[simp] theorem expand_some (mark : List α) (c : α) (letters : List (Option α)) :
    expand mark (some c :: letters) = c :: expand mark letters := rfl

@[simp] theorem expand_none (mark : List α) (letters : List (Option α)) :
    expand mark (none :: letters) = mark ++ expand mark letters := rfl

theorem expand_append (mark : List α) (first second : List (Option α)) :
    expand mark (first ++ second) = expand mark first ++ expand mark second :=
  List.flatMap_append

theorem expand_map_some (mark text : List α) : expand mark (text.map some) = text := by
  induction text with
  | nil => rfl
  | cons c rest ih => rw [List.map_cons, expand_some, ih]

/-- No occurrence of the word can share a letter with a mark. -/
structure Foreign (mark word : List α) : Prop where
  filled : word ≠ []
  begins : ∀ place < mark.length, ¬ word <+: mark.drop place ∧ ¬ mark.drop place <+: word
  reaches : ∀ place < word.length, ¬ word.drop place <+: mark ∧ ¬ mark <+: word.drop place

/-- A word without the first and the last letter of a mark is foreign when the mark does not hold
it. -/
theorem Foreign.of_ends {first last : α} (middle : List α) (absent : first ∉ word)
    (missing : last ∉ word) (outside : ¬ word <:+: first :: (middle ++ [last])) :
    Foreign (first :: (middle ++ [last])) word where
  filled := fun blank => outside (blank ▸ List.nil_infix)
  begins place within := by
    refine ⟨fun here => outside (here.isInfix.trans (List.drop_suffix _ _).isInfix), fun there => ?_⟩
    have reaches : place ≤ (first :: middle).length := by
      simpa [Nat.lt_succ_iff] using within
    rw [← List.cons_append, List.drop_append_of_le_length reaches] at there
    exact missing (there.subset (by simp))
  reaches place within := by
    refine ⟨fun here => ?_, fun there => ?_⟩
    · obtain ⟨letter, rest, parts⟩ : ∃ letter rest, word.drop place = letter :: rest :=
        List.exists_cons_of_ne_nil fun blank => by
          rw [List.drop_eq_nil_iff] at blank
          omega
      rw [parts, List.cons_prefix_cons] at here
      have member : letter ∈ word.drop place := parts ▸ List.mem_cons_self
      exact absent (here.1 ▸ List.mem_of_mem_drop member)
    · exact absent (List.mem_of_mem_drop (there.subset List.mem_cons_self))

/-- A foreign word does not begin inside of a mark. -/
theorem Foreign.not_prefix (foreign : Foreign mark word) (within : place < mark.length)
    (rest : List α) : ¬ word <+: mark.drop place ++ rest := by
  intro here
  obtain ⟨short, long⟩ := foreign.begins place within
  rcases List.prefix_or_prefix_of_prefix here (List.prefix_append (mark.drop place) rest) with
    before | after
  · exact short before
  · exact long after

theorem prefix_expand_of_reaches
    (reaches : ∀ place < word.length, ¬ word.drop place <+: mark ∧ ¬ mark <+: word.drop place)
    (letters : List (Option α)) :
    word <+: expand mark letters ↔ word.map some <+: letters := by
  induction word generalizing letters with
  | nil => simp
  | cons letter word ih =>
      have others := fun letters => ih
        (fun place within => reaches (place + 1) (Nat.succ_lt_succ within)) letters
      cases letters with
      | nil => simp
      | cons head tail =>
          cases head with
          | none =>
              obtain ⟨short, long⟩ := reaches 0 (Nat.succ_pos _)
              rw [expand_none, List.map_cons, List.cons_prefix_cons]
              constructor
              · intro here
                rcases List.prefix_or_prefix_of_prefix here (List.prefix_append mark _) with
                  before | after
                · exact absurd before short
                · exact absurd after long
              · rintro ⟨same, -⟩
                exact absurd same (Option.some_ne_none _)
          | some c =>
              rw [expand_some, List.cons_prefix_cons, List.map_cons, List.cons_prefix_cons,
                Option.some.injEq, others]

/-- Outside of the marks a foreign word begins where its letters begin. -/
theorem Foreign.prefix_expand (foreign : Foreign mark word) (letters : List (Option α)) :
    word <+: expand mark letters ↔ word.map some <+: letters :=
  prefix_expand_of_reaches foreign.reaches letters

/-- A foreign word in the written text is one in its letters, at the same place. -/
theorem Foreign.split_expand (foreign : Foreign mark word) (letters : List (Option α))
    (before after : List α) (parts : expand mark letters = before ++ word ++ after) :
    ∃ first last, letters = first ++ word.map some ++ last ∧ expand mark first = before ∧
      expand mark last = after := by
  induction letters generalizing before with
  | nil =>
      have blank : word = [] := by
        rw [expand_nil] at parts
        have none := congrArg List.length parts
        simp only [List.length_nil, List.length_append] at none
        exact List.eq_nil_of_length_eq_zero (by omega)
      exact absurd blank foreign.filled
  | cons head tail ih =>
      cases before with
      | nil =>
          have here : word <+: expand mark (head :: tail) := ⟨after, by rw [parts]; rfl⟩
          obtain ⟨last, whole⟩ := (foreign.prefix_expand _).mp here
          refine ⟨[], last, whole.symm, rfl, ?_⟩
          rw [← whole, expand_append, expand_map_some] at parts
          exact List.append_cancel_left parts
      | cons b before =>
          cases head with
          | some c =>
              rw [expand_some, List.cons_append, List.cons_append, List.cons.injEq] at parts
              obtain ⟨rfl, parts⟩ := parts
              obtain ⟨first, last, rfl, rfl, rfl⟩ := ih before parts
              exact ⟨some c :: first, last, rfl, rfl, rfl⟩
          | none =>
              rw [expand_none, List.append_assoc] at parts
              rcases List.append_eq_append_iff.mp parts with ⟨more, fits, rest⟩ | ⟨more, cut, rest⟩
              · rw [fits]
                rw [← List.append_assoc] at rest
                obtain ⟨first, last, rfl, rfl, rfl⟩ := ih more rest
                exact ⟨none :: first, last, rfl, rfl, rfl⟩
              · by_cases whole : more = []
                · rw [whole, List.append_nil] at cut
                  rw [whole, List.nil_append, ← List.nil_append (word ++ after), ← List.append_assoc]
                    at rest
                  obtain ⟨first, last, rfl, blank, rfl⟩ := ih [] rest.symm
                  exact ⟨none :: first, last, rfl, by rw [expand_none, blank, cut, List.append_nil],
                    rfl⟩
                · have within : (b :: before).length < mark.length := by
                    have some := List.length_pos_iff.mpr whole
                    rw [cut, List.length_append]
                    omega
                  have inside : mark.drop (b :: before).length = more := by
                    rw [cut, List.drop_left]
                  refine absurd ?_ (foreign.not_prefix within (expand mark tail))
                  rw [inside, ← rest]
                  exact List.prefix_append word after

/-- A foreign word in the written text is one in its letters. -/
theorem Foreign.infix_expand (foreign : Foreign mark word) (letters : List (Option α))
    (inside : word <:+: expand mark letters) : word.map some <:+: letters := by
  obtain ⟨before, after, parts⟩ := inside
  obtain ⟨first, last, rfl, -, -⟩ := foreign.split_expand letters before after parts.symm
  exact List.infix_append first _ last

/-- A word without the separator lies on one side of it. -/
theorem split_at_separator {separator : α} (absent : separator ∉ word)
    {first last before after : List α}
    (parts : first ++ word ++ last = before ++ separator :: after) :
    (∃ more, before = first ++ word ++ more ∧ last = more ++ separator :: after) ∨
      ∃ more, first = before ++ separator :: more ∧ after = more ++ word ++ last := by
  rcases List.append_eq_append_iff.mp parts with ⟨more, left, right⟩ | ⟨more, left, right⟩
  · exact Or.inl ⟨more, left, right⟩
  · cases more with
    | nil => exact Or.inl ⟨[], by simpa using left.symm, by simpa using right.symm⟩
    | cons head more =>
        rw [List.cons_append, List.cons.injEq] at right
        obtain ⟨rfl, right⟩ := right
        rcases List.append_eq_append_iff.mp left with ⟨other, start, rest⟩ | ⟨other, start, rest⟩
        · exact absurd (rest ▸ List.mem_append_right _ List.mem_cons_self) absent
        · cases other with
          | nil => exact absurd ((List.nil_append word ▸ rest) ▸ List.mem_cons_self) absent
          | cons head other =>
              rw [List.cons_append, List.cons.injEq] at rest
              obtain ⟨rfl, rest⟩ := rest
              exact Or.inr ⟨other, start, by rw [right, rest]⟩

variable [DecidableEq α]

theorem substituteFrom_skip (old new : List α) (skip : Nat) (text : List α) :
    substituteFrom old new skip text = substitute old new (text.drop skip) := by
  induction skip generalizing text with
  | zero => rfl
  | succ skip ih =>
      cases text with
      | nil => rfl
      | cons c rest => exact ih rest

theorem marked_skip (words : List (List α)) (skip : Nat) (text : List α) :
    marked words skip text = marked words 0 (text.drop skip) := by
  induction skip generalizing text with
  | zero => rfl
  | succ skip ih =>
      cases text with
      | nil => rfl
      | cons c rest => exact ih rest

variable {c : α} {rest old : List α}

theorem substitute_cons_of_prefix (new : List α) (here : old <+: c :: rest) (filled : old ≠ []) :
    substitute old new (c :: rest) = new ++ substitute old new ((c :: rest).drop old.length) := by
  obtain ⟨first, later, rfl⟩ := List.exists_cons_of_ne_nil filled
  rw [substitute, substituteFrom, if_pos (List.isPrefixOf_iff_prefix.mpr here), substituteFrom_skip]
  rfl

theorem substitute_append (new rest : List α) (filled : old ≠ []) :
    substitute old new (old ++ rest) = new ++ substitute old new rest := by
  obtain ⟨first, later, rfl⟩ := List.exists_cons_of_ne_nil filled
  have here : first :: later <+: first :: (later ++ rest) := List.prefix_append (first :: later) rest
  rw [List.cons_append, substitute_cons_of_prefix new here filled, ← List.cons_append,
    List.drop_left]

theorem substitute_cons_of_not_starts (new : List α) (away : ¬ old <+: c :: rest) :
    substitute old new (c :: rest) = c :: substitute old new rest := by
  rw [substitute, substituteFrom, if_neg (mt List.isPrefixOf_iff_prefix.mp away)]
  rfl

theorem marked_cons_of_starts (found : words.find? (·.isPrefixOf (c :: rest)) = some word)
    (filled : word ≠ []) :
    marked words 0 (c :: rest) = none :: marked words 0 ((c :: rest).drop word.length) := by
  obtain ⟨first, later, rfl⟩ := List.exists_cons_of_ne_nil filled
  rw [marked, found]
  dsimp only
  rw [marked_skip]
  rfl

theorem marked_cons_of_none (absent : words.find? (·.isPrefixOf (c :: rest)) = none) :
    marked words 0 (c :: rest) = some c :: marked words 0 rest := by
  rw [marked, absent]

theorem find?_isPrefixOf_eq_some (found : words.find? (·.isPrefixOf text) = some word) :
    word ∈ words ∧ word <+: text :=
  ⟨List.mem_of_find?_eq_some found, List.isPrefixOf_iff_prefix.mp
    (List.find?_some (p := fun other : List α => other.isPrefixOf text) found)⟩

theorem find?_isPrefixOf_eq_none (absent : words.find? (·.isPrefixOf text) = none)
    (listed : word ∈ words) : ¬ word <+: text := by
  intro here
  exact List.find?_eq_none.mp absent word listed (List.isPrefixOf_iff_prefix.mpr here)

/-- A stretch where no word begins stays as it is. -/
theorem marked_of_quiet (count : Nat)
    (quiet : ∀ place < count, words.find? (·.isPrefixOf (text.drop place)) = none) :
    marked words 0 text = (text.take count).map some ++ marked words 0 (text.drop count) := by
  induction count generalizing text with
  | zero => simp
  | succ count ih =>
      cases text with
      | nil => simp [marked]
      | cons c rest =>
          have first := quiet 0 (Nat.succ_pos count)
          have later : ∀ place < count, words.find? (·.isPrefixOf (rest.drop place)) = none :=
            fun place less => quiet (place + 1) (Nat.succ_lt_succ less)
          rw [marked_cons_of_none first, ih later]
          rfl

/-- A word at the start of the marked text is one at the start of the text. -/
theorem prefix_of_marked (word : List α) (here : word.map some <+: marked words 0 text) :
    word <+: text := by
  induction word generalizing text with
  | nil => exact List.nil_prefix
  | cons letter word ih =>
      cases text with
      | nil => simp [marked] at here
      | cons c rest =>
          cases found : words.find? (·.isPrefixOf (c :: rest)) with
          | some match_ =>
              rw [marked, found] at here
              simp at here
          | none =>
              rw [marked_cons_of_none found, List.map_cons, List.cons_prefix_cons] at here
              obtain ⟨same, here⟩ := here
              rw [Option.some.inj same]
              exact List.cons_prefix_cons.mpr ⟨rfl, ih here⟩

theorem find?_append_singleton (words : List (List α)) (word text : List α) :
    (words ++ [word]).find? (·.isPrefixOf text) =
      (words.find? (·.isPrefixOf text)).or (if word.isPrefixOf text then some word else none) := by
  rw [List.find?_append, List.find?_singleton]

/-- To substitute one more word in the marked text is to mark that word as well. -/
theorem substitute_marked (filled : ∀ other ∈ words ++ [word], other ≠ [])
    (apart : Apart (words ++ [word]) text) :
    substitute (word.map some) [none] (marked words 0 text) = marked (words ++ [word]) 0 text := by
  have wordFilled : word ≠ [] := filled word (by simp)
  have symbolsFilled : word.map some ≠ [] := by simpa using wordFilled
  induction size : text.length using Nat.strongRecOn generalizing text with
  | ind size ih =>
      cases text with
      | nil => rfl
      | cons c rest =>
          have shorter : ∀ skip, 0 < skip →
              substitute (word.map some) [none] (marked words 0 ((c :: rest).drop skip)) =
                marked (words ++ [word]) 0 ((c :: rest).drop skip) := by
            intro skip positive
            apply ih _ _ (apart.drop skip) rfl
            rw [List.length_drop, ← size]
            have long := List.length_pos_iff.mpr (List.cons_ne_nil c rest)
            omega
          have both := find?_append_singleton words word (c :: rest)
          cases found : words.find? (·.isPrefixOf (c :: rest)) with
          | some other =>
              have otherFilled := filled other
                (List.mem_append_left _ (find?_isPrefixOf_eq_some found).1)
              rw [found, Option.some_or] at both
              rw [marked_cons_of_starts found otherFilled, marked_cons_of_starts both otherFilled,
                substitute_cons_of_not_starts, shorter _ (List.length_pos_iff.mpr otherFilled)]
              intro here
              obtain ⟨letter, later, rfl⟩ := List.exists_cons_of_ne_nil wordFilled
              simp at here
          | none =>
              rw [found, Option.none_or] at both
              by_cases here : word <+: c :: rest
              · rw [if_pos (List.isPrefixOf_iff_prefix.mpr here)] at both
                have quiet : ∀ place < word.length,
                    words.find? (·.isPrefixOf ((c :: rest).drop place)) = none := by
                  intro place within
                  apply List.find?_eq_none.mpr
                  intro other listed there
                  have away := find?_isPrefixOf_eq_none found listed
                  have different : word ≠ other := fun same => away (same ▸ here)
                  exact apart.inside (by simp) (by simp [listed]) different
                    (filled other (by simp [listed])) here within (List.isPrefixOf_iff_prefix.mp there)
                have front : (c :: rest).take word.length = word :=
                  (List.prefix_iff_eq_take.mp here).symm
                rw [marked_of_quiet word.length quiet, front, substitute_append _ _ symbolsFilled,
                  shorter _ (List.length_pos_iff.mpr wordFilled),
                  marked_cons_of_starts both wordFilled]
                rfl
              · rw [if_neg (mt List.isPrefixOf_iff_prefix.mp here)] at both
                rw [marked_cons_of_none found, marked_cons_of_none both,
                  substitute_cons_of_not_starts]
                · exact congrArg _ (shorter 1 Nat.one_pos)
                · rw [← marked_cons_of_none found]
                  exact fun there => here (prefix_of_marked word there)

theorem marked_nil (text : List α) : marked [] 0 text = text.map some := by
  induction text with
  | nil => rfl
  | cons c rest ih =>
      rw [marked_cons_of_none rfl, ih]
      rfl

/-- To substitute the words one after another is to mark them all at once. -/
theorem foldl_substitute (filled : ∀ word ∈ words, word ≠ []) (apart : Apart words text) :
    words.foldl (fun letters word => substitute (word.map some) [none] letters) (text.map some) =
      marked words 0 text := by
  induction words using List.reverseRecOn with
  | nil => exact (marked_nil text).symm
  | append_singleton words word ih =>
      rw [List.foldl_append, List.foldl_cons, List.foldl_nil, ih,
        substitute_marked filled apart]
      · exact fun other listed => filled other (List.mem_append_left _ listed)
      · exact fun other listed another member =>
          apart other (List.mem_append_left _ listed) another (List.mem_append_left _ member)

/-- Marked texts hold no word. -/
theorem not_infix_marked (filled : ∀ word ∈ words, word ≠ []) (listed : word ∈ words) :
    ¬ word.map some <:+: marked words 0 text := by
  induction size : text.length using Nat.strongRecOn generalizing text with
  | ind size ih =>
      have wordFilled := filled word listed
      intro inside
      cases text with
      | nil => exact wordFilled (by simpa [marked] using inside)
      | cons c rest =>
          rw [List.length_cons] at size
          cases found : words.find? (·.isPrefixOf (c :: rest)) with
          | some other =>
              have some := List.length_pos_iff.mpr
                (filled other (find?_isPrefixOf_eq_some found).1)
              rw [marked_cons_of_starts found (List.length_pos_iff.mp some), List.infix_cons_iff]
                at inside
              rcases inside with here | later
              · obtain ⟨letter, more, rfl⟩ := List.exists_cons_of_ne_nil wordFilled
                simp at here
              · refine ih _ ?_ rfl later
                rw [List.length_drop, List.length_cons]
                omega
          | none =>
              have away := find?_isPrefixOf_eq_none found listed
              have whole := inside
              rw [marked_cons_of_none found, List.infix_cons_iff] at inside
              rcases inside with here | later
              · rw [← marked_cons_of_none found] at here
                exact away (prefix_of_marked word here)
              · exact ih _ (by omega) rfl later

/-- The marks do not depend on the order of the words. -/
theorem marked_congr {others : List (List α)} (filled : ∀ word ∈ words, word ≠ [])
    (apart : Apart words text) (same : ∀ word, word ∈ words ↔ word ∈ others) (skip : Nat) :
    marked words skip text = marked others skip text := by
  induction text generalizing skip with
  | nil => cases skip <;> rfl
  | cons c rest ih =>
      have later := ih (apart.drop 1)
      cases skip with
      | succ skip => exact later skip
      | zero =>
          cases found : words.find? (·.isPrefixOf (c :: rest)) with
          | none =>
              have absent : others.find? (·.isPrefixOf (c :: rest)) = none := by
                apply List.find?_eq_none.mpr
                intro other member
                exact List.find?_eq_none.mp found other ((same other).mpr member)
              rw [marked_cons_of_none found, marked_cons_of_none absent, later 0]
          | some word =>
              obtain ⟨listed, here⟩ := find?_isPrefixOf_eq_some found
              have again : others.find? (·.isPrefixOf (c :: rest)) = some word := by
                cases found' : others.find? (·.isPrefixOf (c :: rest)) with
                | none => exact absurd here (find?_isPrefixOf_eq_none found' ((same word).mp listed))
                | some other =>
                    obtain ⟨member, there⟩ := find?_isPrefixOf_eq_some found'
                    rw [apart.unique filled listed ((same other).mpr member) here there]
              rw [marked, found, marked, again]
              exact congrArg _ (later _)

/-- A substitution goes through a stretch in which the word does not begin. -/
theorem substitute_through (new stretch rest : List α)
    (quiet : ∀ place < stretch.length, ¬ old <+: stretch.drop place ++ rest) :
    substitute old new (stretch ++ rest) = stretch ++ substitute old new rest := by
  induction stretch with
  | nil => rfl
  | cons c stretch ih =>
      have away : ¬ old <+: c :: (stretch ++ rest) := quiet 0 (Nat.succ_pos _)
      rw [List.cons_append, substitute_cons_of_not_starts new away, ih,
        List.cons_append]
      intro place within
      exact quiet (place + 1) (Nat.succ_lt_succ within)

/-- To substitute a foreign word in the written text is to substitute its letters. -/
theorem substitute_expand (foreign : Foreign mark word) (letters : List (Option α)) :
    substitute word mark (expand mark letters) =
      expand mark (substitute (word.map some) [none] letters) := by
  have filled := foreign.filled
  have symbolsFilled : word.map some ≠ [] := by simpa using filled
  induction size : letters.length using Nat.strongRecOn generalizing letters with
  | ind count ih =>
      cases letters with
      | nil => rfl
      | cons head tail =>
          have long : tail.length + 1 = count := size
          have shorter := ih tail.length (by omega) tail rfl
          cases head with
          | none =>
              have away : ¬ word.map some <+: none :: tail := by
                obtain ⟨letter, later, rfl⟩ := List.exists_cons_of_ne_nil filled
                simp
              rw [substitute_cons_of_not_starts _ away, expand_none, expand_none, ← shorter]
              exact substitute_through mark mark _ fun place within => foreign.not_prefix within _
          | some c =>
              by_cases here : word.map some <+: some c :: tail
              · obtain ⟨rest, parts⟩ := here
                have smaller : rest.length < count := by
                  have total := congrArg List.length parts
                  have some := List.length_pos_iff.mpr symbolsFilled
                  rw [List.length_append, List.length_cons] at total
                  omega
                rw [← parts, expand_append, expand_map_some, substitute_append _ _ filled,
                  substitute_append _ _ symbolsFilled, expand_append,
                  ih rest.length smaller rest rfl]
                simp
              · have away : ¬ word <+: c :: expand mark tail := by
                  rw [← expand_some, foreign.prefix_expand]
                  exact here
                rw [substitute_cons_of_not_starts _ here, expand_some, expand_some,
                  substitute_cons_of_not_starts _ away, shorter]

theorem covered_iff (words : List (List α)) (text : List α) (place : Nat) :
    covered words text place = true ↔ ∃ word ∈ words, ∃ start ≤ place,
      place < start + word.length ∧ word <+: text.drop start := by
  simp [covered, List.any_eq_true]

theorem length_masked (words : List (List α)) (skip : Nat) (text : List α) :
    (masked words skip text).length = text.length := by
  induction text generalizing skip with
  | nil => cases skip <;> rfl
  | cons c rest ih =>
      cases skip with
      | succ skip => simp [masked, ih]
      | zero =>
          rw [masked]
          split <;> simp [ih]

/-- The letters that stay are those at the places without a mark. -/
theorem reduceOption_marked (words : List (List α)) (skip : Nat) (text : List α) :
    (marked words skip text).reduceOption =
      ((text.zip (masked words skip text)).filter fun pair => !pair.2).map Prod.fst := by
  induction text generalizing skip with
  | nil => cases skip <;> rfl
  | cons c rest ih =>
      cases skip with
      | succ skip => simpa [marked, masked] using ih skip
      | zero =>
          cases found : words.find? (·.isPrefixOf (c :: rest)) with
          | none => simpa [marked, masked, found] using ih 0
          | some word => simpa [marked, masked, found] using ih (word.length - 1)

/-- An occurrence of the word goes on for some more places. -/
def Running (word text : List α) (offset skip : Nat) : Prop :=
  ∃ start ≤ offset, start + word.length = offset + skip ∧ word <+: text.drop start

variable {whole : List α}

/-- A marked place lies in an occurrence. -/
theorem covered_of_masked (filled : ∀ word ∈ words, word ≠ []) (text : List α) (offset skip : Nat)
    (ends : text = whole.drop offset)
    (state : skip = 0 ∨ ∃ word ∈ words, Running word whole offset skip) (place : Nat)
    (marks : (masked words skip text)[place]? = some true) :
    covered words whole (offset + place) = true := by
  induction text generalizing offset skip place with
  | nil => cases skip <;> simp [masked] at marks
  | cons c rest ih =>
      have tail : rest = whole.drop (offset + 1) := by
        rw [← List.tail_drop, ← ends, List.tail_cons]
      have later : ∀ skip place : Nat,
          (skip = 0 ∨ ∃ word ∈ words, Running word whole (offset + 1) skip) →
          (masked words skip rest)[place]? = some true →
            covered words whole (offset + (place + 1)) = true := by
        intro skip place state marks
        have known := ih (offset + 1) skip tail state place marks
        rwa [Nat.add_right_comm, Nat.add_assoc] at known
      cases skip with
      | succ skip =>
          obtain ⟨word, listed, start, before, finish, here⟩ :=
            state.resolve_left (Nat.succ_ne_zero skip)
          cases place with
          | zero => exact (covered_iff _ _ _).mpr ⟨word, listed, start, before, by omega, here⟩
          | succ place =>
              rw [masked, List.getElem?_cons_succ] at marks
              exact later _ _ (Or.inr ⟨word, listed, start, by omega, by omega, here⟩) marks
      | zero =>
          rw [masked] at marks
          cases found : words.find? (·.isPrefixOf (c :: rest)) with
          | none =>
              rw [found] at marks
              cases place with
              | zero => simp at marks
              | succ place => exact later _ _ (Or.inl rfl) (by simpa using marks)
          | some word =>
              obtain ⟨listed, here⟩ := find?_isPrefixOf_eq_some found
              rw [ends] at here
              have long := List.length_pos_iff.mpr (filled word listed)
              rw [found] at marks
              cases place with
              | zero =>
                  exact (covered_iff _ _ _).mpr ⟨word, listed, offset, le_rfl, by omega, here⟩
              | succ place =>
                  refine later (word.length - 1) place
                    (Or.inr ⟨word, listed, offset, by omega, by omega, here⟩) ?_
                  simpa using marks

/-- The marks of one word alone are among the marks of all. -/
theorem masked_of_alone (filled : ∀ word ∈ words, word ≠ []) (apart : Apart words whole)
    (listed : word ∈ words) (text : List α) (offset alone skip : Nat)
    (ends : text = whole.drop offset)
    (state : alone = skip ∨ alone = 0 ∧ ∃ other ∈ words, word ≠ other ∧
      Running other whole offset skip) (place : Nat)
    (marks : (masked [word] alone text)[place]? = some true) :
    (masked words skip text)[place]? = some true := by
  induction text generalizing offset alone skip place with
  | nil => cases alone <;> simp [masked] at marks
  | cons c rest ih =>
      have tail : rest = whole.drop (offset + 1) := by
        rw [← List.tail_drop, ← ends, List.tail_cons]
      have long := List.length_pos_iff.mpr (filled word listed)
      have inside : offset < whole.length := by
        have some := congrArg List.length ends
        rw [List.length_cons, List.length_drop] at some
        omega
      have later : ∀ alone skip place : Nat,
          (alone = skip ∨ alone = 0 ∧ ∃ other ∈ words, word ≠ other ∧
            Running other whole (offset + 1) skip) →
          (masked [word] alone rest)[place]? = some true →
            (masked words skip rest)[place]? = some true :=
        fun alone skip place state marks =>
          ih (offset + 1) alone skip tail state place marks
      have onward : ¬ word <+: c :: rest → (masked [word] 0 (c :: rest))[place]? = some true →
          ∃ next, place = next + 1 ∧ (masked [word] 0 rest)[next]? = some true := by
        intro away marks
        have absent : [word].find? (·.isPrefixOf (c :: rest)) = none := by
          simpa [List.isPrefixOf_iff_prefix] using away
        rw [masked, absent] at marks
        cases place with
        | zero => simp at marks
        | succ next => exact ⟨next, rfl, by simpa using marks⟩
      by_cases running : 0 < skip ∧ alone = 0
      · obtain ⟨positive, rfl⟩ := running
        obtain ⟨-, other, member, different, start, before, finish, there⟩ :=
          state.resolve_left (by omega)
        have away : ¬ word <+: c :: rest := by
          intro here
          rw [ends] at here
          have distinct := apart word listed other member different offset inside start (by omega)
            here there
          omega
        obtain ⟨next, rfl, follows⟩ := onward away marks
        obtain ⟨skip, rfl⟩ := Nat.exists_eq_succ_of_ne_zero positive.ne'
        rw [masked, List.getElem?_cons_succ]
        exact later 0 skip next
          (Or.inr ⟨rfl, other, member, different, start, by omega, by omega, there⟩) follows
      · obtain rfl : alone = skip := by
          rcases state with same | ⟨none, -⟩ <;> omega
        cases alone with
        | succ alone =>
            rw [masked] at marks ⊢
            cases place with
            | zero => rfl
            | succ next => exact later alone alone next (Or.inl rfl) (by simpa using marks)
        | zero =>
            by_cases here : word <+: c :: rest
            · have found : words.find? (·.isPrefixOf (c :: rest)) = some word := by
                cases found : words.find? (·.isPrefixOf (c :: rest)) with
                | none => exact absurd here (find?_isPrefixOf_eq_none found listed)
                | some other =>
                    obtain ⟨member, there⟩ := find?_isPrefixOf_eq_some found
                    rw [ends] at here there
                    rw [(apart.drop offset).unique filled listed member here there]
              have single : [word].find? (·.isPrefixOf (c :: rest)) = some word := by
                simpa [List.isPrefixOf_iff_prefix] using here
              rw [masked, found]
              rw [masked, single] at marks
              cases place with
              | zero => rfl
              | succ next => exact later _ _ next (Or.inl rfl) (by simpa using marks)
            · obtain ⟨next, rfl, follows⟩ := onward here marks
              rw [masked]
              cases found : words.find? (·.isPrefixOf (c :: rest)) with
              | none => exact later 0 0 next (Or.inl rfl) follows
              | some other =>
                  obtain ⟨member, there⟩ := find?_isPrefixOf_eq_some found
                  have some := List.length_pos_iff.mpr (filled other member)
                  have different : word ≠ other := fun same => here (same ▸ there)
                  rw [ends] at there
                  exact later 0 (other.length - 1) next
                    (Or.inr ⟨rfl, other, member, different, offset, by omega, by omega, there⟩) follows

/-- Words that are apart and exhausted leave exactly the letters outside of their occurrences. -/
theorem reduceOption_marked_eq_uncovered (filled : ∀ word ∈ words, word ≠ [])
    (apart : Apart words text) (exhausted : Exhausted words text) :
    (marked words 0 text).reduceOption = uncovered words text := by
  have same : masked words 0 text = (List.range text.length).map (covered words text) := by
    apply List.ext_getElem
    · rw [length_masked, List.length_map, List.length_range]
    · intro place within _
      have inside : place < text.length := by rwa [length_masked] at within
      rw [List.getElem_map, List.getElem_range]
      apply Bool.eq_iff_iff.mpr
      constructor
      · intro marks
        have known := covered_of_masked filled text 0 0 rfl (Or.inl rfl) place
          (by rw [List.getElem?_eq_getElem within, marks])
        rwa [Nat.zero_add] at known
      · intro covers
        obtain ⟨word, listed, start, before, finish, here⟩ := (covered_iff _ _ _).mp covers
        have alone := exhausted word listed place inside
          ((covered_iff _ _ _).mpr ⟨word, List.mem_singleton_self _, start, before, finish, here⟩)
        have known := masked_of_alone filled apart listed text 0 0 0 rfl (Or.inl rfl) place alone
        rw [List.getElem?_eq_getElem within] at known
        exact Option.some.inj known
  rw [reduceOption_marked, same]
  rfl

end LumenCopilot.Library
