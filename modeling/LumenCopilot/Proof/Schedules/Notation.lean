import LumenCopilot.Construction.Schedules.Cadence
import LumenCopilot.Proof.Python.Numerals

namespace LumenCopilot.Schedules

open Python

variable {table : Char → Option Nat} {low high : Int}

/-- A text of digits and underscores has no sign, no blank and no separator. -/
def IsUnsigned (table : Char → Option Nat) (text : Text) : Prop :=
  ∀ c ∈ text, (decimalValue table c).isSome = true ∨ c = '_'

/-- These are the forms of a part that both parsers know. -/
inductive SharedPart (table : Char → Option Nat) : Text → Prop where
  | star : SharedPart table ['*']
  | starStep (step : Text) : IsUnsigned table step → SharedPart table ('*' :: '/' :: step)
  | number (value : Text) : IsUnsigned table value → SharedPart table value
  | range (first last : Text) : IsUnsigned table first → IsUnsigned table last →
      SharedPart table (first ++ '-' :: last)
  | rangeStep (first last step : Text) : IsUnsigned table first → IsUnsigned table last →
      IsUnsigned table step → SharedPart table (first ++ '-' :: last ++ '/' :: step)

/-- The parser of the crontab expands the documented forms within the bounds of the field. -/
structure Documented (table : Char → Option Nat) (expand : Expander) : Prop where
  star : ∀ low high, low ≤ high → expand ['*'] low high = some (rangeSet low (high + 1) 1)
  starStep : ∀ low high step count, low ≤ high → IsUnsigned table step →
    pyInt table step = some count → 0 < count →
    expand ('*' :: '/' :: step) low high = some (rangeSet low (high + 1) count)
  number : ∀ low high text value, IsUnsigned table text → pyInt table text = some value →
    low ≤ value → value ≤ high → expand text low high = some {value}
  range : ∀ low high first last start stop, IsUnsigned table first → IsUnsigned table last →
    pyInt table first = some start → pyInt table last = some stop →
    low ≤ start → start ≤ stop → stop ≤ high →
    expand (first ++ '-' :: last) low high = some (rangeSet start (stop + 1) 1)
  rangeStep : ∀ low high first last step start stop count, IsUnsigned table first →
    IsUnsigned table last → IsUnsigned table step → pyInt table first = some start →
    pyInt table last = some stop → pyInt table step = some count → 0 < count →
    low ≤ start → start ≤ stop → stop ≤ high →
    expand (first ++ '-' :: last ++ '/' :: step) low high = some (rangeSet start (stop + 1) count)

variable {text : Text}

theorem IsUnsigned.not_mem (unsigned : IsUnsigned table text) {c : Char} (ascii : isAscii c = true)
    (other : c.isDigit = false) (joins : c ≠ '_') : c ∉ text := by
  intro member
  rcases unsigned c member with digit | same
  · simp [decimalValue, ascii, other] at digit
  · exact joins same

theorem IsUnsigned.slash (unsigned : IsUnsigned table text) : '/' ∉ text :=
  unsigned.not_mem rfl rfl (by decide)

theorem IsUnsigned.minus (unsigned : IsUnsigned table text) : '-' ∉ text :=
  unsigned.not_mem rfl rfl (by decide)

theorem IsUnsigned.star (unsigned : IsUnsigned table text) : text ≠ ['*'] := by
  rintro rfl
  exact unsigned.not_mem rfl rfl (by decide) (List.mem_cons_self : '*' ∈ ['*'])

variable {first : Text}

/-- A text is parted at the first separator. -/
theorem partition_append {separator : Char} (absent : separator ∉ first) (rest : Text) :
    partition separator (first ++ separator :: rest) = (first, rest) := by
  have before : ∀ c ∈ first, decide (c ≠ separator) = true := by
    intro c member
    simp only [decide_eq_true_eq]
    rintro rfl
    exact absent member
  unfold partition
  rw [List.takeWhile_append_of_pos before, List.dropWhile_append_of_pos before]
  simp

theorem rangeSet_single (value : Int) : rangeSet value (value + 1) 1 = {value} := by
  ext other
  rw [mem_rangeSet_one, Finset.mem_singleton]
  omega

variable {part : Text}

/-- A part without a step. -/
theorem parsePart_plain (absent : '/' ∉ part) {start stop : Int}
    (bounds : parseBounds table part part low high = .ok (start, stop)) :
    parsePart table part low high =
      if start < low ∨ high < stop ∨ stop < start then .error (.bounds low high part)
      else .ok (rangeSet start (stop + 1) 1) := by
  unfold parsePart parseStep
  rw [if_neg absent]
  simp only [bind, Except.bind, pure, Except.pure, bounds]

/-- A part with a step. -/
theorem parsePart_stepped (body step : Text) (absent : '/' ∉ body) {count start stop : Int}
    (counts : pyInt table step = some count) (positive : 0 < count)
    (bounds : parseBounds table (body ++ '/' :: step) body low high = .ok (start, stop)) :
    parsePart table (body ++ '/' :: step) low high =
      if start < low ∨ high < stop ∨ stop < start then
        .error (.bounds low high (body ++ '/' :: step))
      else .ok (rangeSet start (stop + 1) count) := by
  unfold parsePart parseStep
  rw [if_pos (List.mem_append_right _ List.mem_cons_self), partition_append absent]
  simp only [counts]
  rw [if_neg (by omega)]
  simp only [bind, Except.bind, pure, Except.pure, bounds]

variable {values : Finset Int}

/-- The step of an accepted part is positive. -/
theorem parsePart_step {body : Text} (step : Text) (absent : '/' ∉ body)
    (parses : parsePart table (body ++ '/' :: step) low high = .ok values) :
    ∃ count, pyInt table step = some count ∧ 0 < count := by
  unfold parsePart parseStep at parses
  rw [if_pos (List.mem_append_right _ List.mem_cons_self), partition_append absent] at parses
  cases counts : pyInt table step with
  | none =>
      simp only [counts] at parses
      cases parses
  | some count =>
      simp only [counts] at parses
      split at parses
      · cases parses
      · exact ⟨count, rfl, by omega⟩

theorem parseBounds_star (part : Text) (low high : Int) :
    parseBounds table part ['*'] low high = .ok (low, high) := rfl

theorem parseBounds_number (unsigned : IsUnsigned table text) (part : Text) (low high : Int) :
    parseBounds table part text low high = match pyInt table text with
      | some value => .ok (value, value)
      | none => .error (.value part) := by
  unfold parseBounds
  rewrite [if_neg unsigned.star, if_neg unsigned.minus]
  cases pyInt table text <;> rfl

theorem parseBounds_range (unsigned : IsUnsigned table first) (last part : Text) (low high : Int) :
    parseBounds table part (first ++ '-' :: last) low high =
      match pyInt table first, pyInt table last with
      | some start, some stop => .ok (start, stop)
      | _, _ => .error (.range part) := by
  have dash : first ++ '-' :: last ≠ ['*'] := by
    intro same
    have member : '-' ∈ first ++ '-' :: last := List.mem_append_right _ List.mem_cons_self
    rw [same] at member
    revert member
    decide
  unfold parseBounds
  rewrite [if_neg dash, if_pos (List.mem_append_right _ List.mem_cons_self),
    partition_append unsigned.minus]
  show (match pyInt table first, pyInt table last with | some start, some stop => _ | _, _ => _) = _
  cases pyInt table first <;> cases pyInt table last <;> rfl

/-- An accepted number is within the bounds. -/
theorem parsePart_number (unsigned : IsUnsigned table text)
    (parses : parsePart table text low high = .ok values) :
    ∃ value, pyInt table text = some value ∧ low ≤ value ∧ value ≤ high ∧ values = {value} := by
  have bounds := parseBounds_number unsigned text low high
  cases known : pyInt table text with
  | none =>
      rw [known] at bounds
      unfold parsePart parseStep at parses
      rw [if_neg unsigned.slash] at parses
      simp [bind, Except.bind, bounds] at parses
  | some value =>
      rw [known] at bounds
      rw [parsePart_plain unsigned.slash bounds] at parses
      split at parses
      · cases parses
      · obtain rfl := Except.ok.inj parses
        exact ⟨value, rfl, by omega, by omega, rangeSet_single value⟩

/-- An accepted range is within the bounds. -/
theorem parsePart_range {last : Text} (step : Text) (unsigned : IsUnsigned table first)
    (ends : IsUnsigned table last)
    (form : part = first ++ '-' :: last ∨ part = first ++ '-' :: last ++ '/' :: step)
    (parses : parsePart table part low high = .ok values) :
    ∃ start stop, pyInt table first = some start ∧ pyInt table last = some stop := by
  have absent : '/' ∉ first ++ '-' :: last := by
    have left := unsigned.slash
    have right := ends.slash
    simp [left, right]
  have bounds := parseBounds_range unsigned last part low high
  have found : ∃ pair, parseBounds table part (first ++ '-' :: last) low high = .ok pair := by
    rcases form with rfl | rfl
    · unfold parsePart parseStep at parses
      rw [if_neg absent] at parses
      cases result : parseBounds table (first ++ '-' :: last) (first ++ '-' :: last) low high with
      | error error => simp [bind, Except.bind, result] at parses
      | ok pair => exact ⟨pair, rfl⟩
    · obtain ⟨count, counts, positive⟩ := parsePart_step _ absent parses
      unfold parsePart parseStep at parses
      rw [if_pos (List.mem_append_right _ List.mem_cons_self), partition_append absent] at parses
      simp only [counts] at parses
      rw [if_neg (by omega)] at parses
      cases result : parseBounds table (first ++ '-' :: last ++ '/' :: step)
          (first ++ '-' :: last) low high with
      | error error => simp only [bind, Except.bind, result, reduceCtorEq] at parses
      | ok pair => exact ⟨pair, rfl⟩
  obtain ⟨pair, known⟩ := found
  rw [known] at bounds
  cases starts : pyInt table first with
  | none => simp [starts] at bounds
  | some start =>
      cases stops : pyInt table last with
      | none => simp [starts, stops] at bounds
      | some stop => exact ⟨start, stop, rfl, rfl⟩

variable {expand : Expander}

/-- The two parsers make the same set of a part in a shared form. -/
theorem SharedPart.expands (documented : Documented table expand) (shared : SharedPart table part)
    (parses : parsePart table part low high = .ok values) : expand part low high = some values := by
  cases shared with
  | star =>
      rw [parsePart_plain (by decide) (parseBounds_star _ low high)] at parses
      split at parses
      · cases parses
      · obtain rfl := Except.ok.inj parses
        exact documented.star low high (by omega)
  | starStep step unsigned =>
      obtain ⟨count, counts, positive⟩ := parsePart_step step (by decide : '/' ∉ ['*']) parses
      have stepped := parsePart_stepped ['*'] step (by decide) counts positive
        (parseBounds_star _ low high)
      rw [show '*' :: '/' :: step = ['*'] ++ '/' :: step from rfl, stepped] at parses
      split at parses
      · cases parses
      · obtain rfl := Except.ok.inj parses
        exact documented.starStep low high step count (by omega) unsigned counts positive
  | number value unsigned =>
      obtain ⟨number, known, above, below, rfl⟩ := parsePart_number unsigned parses
      exact documented.number low high part number unsigned known above below
  | range first last starts stops =>
      obtain ⟨start, stop, begins, ends⟩ := parsePart_range [] starts stops (.inl rfl) parses
      have absent : '/' ∉ first ++ '-' :: last := by simp [starts.slash, stops.slash]
      have bounds := parseBounds_range starts last (first ++ '-' :: last) low high
      rw [begins, ends] at bounds
      rw [parsePart_plain absent bounds] at parses
      split at parses
      · cases parses
      · obtain rfl := Except.ok.inj parses
        exact documented.range low high first last start stop starts stops begins ends (by omega)
          (by omega) (by omega)
  | rangeStep first last step starts stops steps =>
      obtain ⟨start, stop, begins, ends⟩ := parsePart_range step starts stops (.inr rfl) parses
      have absent : '/' ∉ first ++ '-' :: last := by simp [starts.slash, stops.slash]
      obtain ⟨count, counts, positive⟩ := parsePart_step _ absent parses
      have bounds := parseBounds_range starts last (first ++ '-' :: last ++ '/' :: step)
        low high
      rw [begins, ends] at bounds
      rw [parsePart_stepped _ step absent counts positive bounds] at parses
      split at parses
      · cases parses
      · obtain rfl := Except.ok.inj parses
        exact documented.rangeStep low high first last step start stop count starts stops steps
          begins ends counts positive (by omega) (by omega) (by omega)

/-- The two parsers make the same set of parts in shared forms. -/
theorem parts_expand (documented : Documented table expand) {parts : List Text}
    (shared : ∀ part ∈ parts, SharedPart table part) {before : Finset Int}
    (parses : parseParts table low high parts before = .ok values) :
    ∃ added, crontabParts expand low high parts = some added ∧ values = before ∪ added := by
  induction parts generalizing before with
  | nil =>
      obtain rfl := Except.ok.inj parses
      exact ⟨∅, rfl, by simp⟩
  | cons part rest ih =>
      simp only [parseParts] at parses
      cases first : parsePart table part low high with
      | error error =>
          rw [first] at parses
          cases parses
      | ok set =>
          rw [first] at parses
          obtain ⟨added, others, rfl⟩ := ih (fun other member => shared other (.tail _ member)) parses
          have expands := (shared part List.mem_cons_self).expands documented first
          refine ⟨set ∪ added, ?_, by rw [Finset.union_assoc]⟩
          simp only [crontabParts, expands, others]
          rfl

/-- A field is written in shared forms. -/
def SharedField (table : Char → Option Nat) (spec : Text) : Prop :=
  ∀ part ∈ spec.splitOn ',', SharedPart table part

/-- The two parsers make the same set of a field in shared forms. -/
theorem SharedField.expands (documented : Documented table expand) {spec : Text}
    (shared : SharedField table spec) (parses : parseField table spec low high = .ok values) :
    crontabField expand spec low high = some values := by
  unfold parseField at parses
  cases parts : parseParts table low high (spec.splitOn ',') ∅ with
  | error error =>
      rw [parts] at parses
      cases parses
  | ok set =>
      rw [parts] at parses
      obtain ⟨added, expands, rfl⟩ := parts_expand documented shared parts
      change (if _ then _ else _) = _ at parses
      split at parses
      · cases parses
      · obtain rfl := Except.ok.inj parses
        rw [Finset.empty_union]
        exact expands

/-- The set of an accepted part is within the bounds. -/
theorem parsePart_within (parses : parsePart table part low high = .ok values) :
    ∀ value ∈ values, low ≤ value ∧ value ≤ high := by
  unfold parsePart at parses
  cases steps : parseStep table part with
  | error error =>
      rw [steps] at parses
      cases parses
  | ok pair =>
      rw [steps] at parses
      cases bounds : parseBounds table part pair.1 low high with
      | error error => simp [bind, Except.bind, bounds] at parses
      | ok ends =>
          simp only [bind, Except.bind, bounds] at parses
          change (if ends.1 < low ∨ high < ends.2 ∨ ends.2 < ends.1 then _ else _) = _ at parses
          split at parses
          · cases parses
          · obtain rfl := Except.ok.inj parses
            intro value member
            obtain ⟨above, below, _⟩ := mem_rangeSet.mp member
            omega

theorem parseParts_within {parts : List Text} {before : Finset Int}
    (within : ∀ value ∈ before, low ≤ value ∧ value ≤ high)
    (parses : parseParts table low high parts before = .ok values) :
    ∀ value ∈ values, low ≤ value ∧ value ≤ high := by
  induction parts generalizing before with
  | nil =>
      obtain rfl := Except.ok.inj parses
      exact within
  | cons part rest ih =>
      simp only [parseParts] at parses
      cases first : parsePart table part low high with
      | error error =>
          rw [first] at parses
          cases parses
      | ok set =>
          rw [first] at parses
          refine ih (fun value member => ?_) parses
          rcases Finset.mem_union.mp member with member | member
          · exact within value member
          · exact parsePart_within first value member

/-- The set of an accepted field is not empty and within the bounds. -/
theorem parseField_within {spec : Text} (parses : parseField table spec low high = .ok values) :
    values.Nonempty ∧ ∀ value ∈ values, low ≤ value ∧ value ≤ high := by
  unfold parseField at parses
  cases parts : parseParts table low high (spec.splitOn ',') ∅ with
  | error error =>
      rw [parts] at parses
      cases parses
  | ok set =>
      rw [parts] at parses
      change (if _ then _ else _) = _ at parses
      split at parses
      · cases parses
      · next filled =>
          obtain rfl := Except.ok.inj parses
          exact ⟨Finset.nonempty_of_ne_empty filled, parseParts_within (by simp) parts⟩

/-- The parser of the cadence itself expands the documented forms. -/
theorem parsePart_documented (table : Char → Option Nat) :
    Documented table fun part low high => (parsePart table part low high).toOption where
  star low high ordered := by
    rw [parsePart_plain (by decide) (parseBounds_star _ low high), if_neg (by omega)]
    rfl
  starStep low high step count ordered unsigned counts positive := by
    have stepped := parsePart_stepped ['*'] step (by decide) counts positive
      (parseBounds_star _ low high)
    rw [show '*' :: '/' :: step = ['*'] ++ '/' :: step from rfl, stepped, if_neg (by omega)]
    rfl
  number low high text value unsigned known above below := by
    have bounds := parseBounds_number unsigned text low high
    rw [known] at bounds
    rw [parsePart_plain unsigned.slash bounds, if_neg (by omega), rangeSet_single]
    rfl
  range low high first last start stop starts stops begins ends above ordered below := by
    have bounds := parseBounds_range starts last (first ++ '-' :: last) low high
    rw [begins, ends] at bounds
    rw [parsePart_plain (by simp [starts.slash, stops.slash]) bounds, if_neg (by omega)]
    rfl
  rangeStep low high first last step start stop count starts stops steps begins ends counts positive
      above ordered below := by
    have bounds := parseBounds_range starts last (first ++ '-' :: last ++ '/' :: step) low high
    rw [begins, ends] at bounds
    rw [parsePart_stepped _ step (by simp [starts.slash, stops.slash]) counts positive bounds,
      if_neg (by omega)]
    rfl

end LumenCopilot.Schedules
