import LumenCopilot.Construction.Python.Bytes
import LumenCopilot.Construction.Python.Json
import LumenCopilot.Construction.Python.Numerals
import LumenCopilot.Proof.Library.Lists

namespace LumenCopilot.Python

variable {other : Text} {names : List Text}

theorem mem_insertSorted {name : Text} :
    other ∈ insertSorted name names ↔ other = name ∨ other ∈ names := by
  induction names with
  | nil => simp [insertSorted]
  | cons head rest ih =>
      unfold insertSorted
      split
      · next same => simp [same]
      · split
        · simp
        · simp only [List.mem_cons, ih]
          exact or_left_comm

@[simp] theorem mem_sortedSet : other ∈ sortedSet names ↔ other ∈ names := by
  induction names with
  | nil => rfl
  | cons name rest ih =>
      rw [sortedSet, List.foldr_cons, mem_insertSorted, ← sortedSet, ih, List.mem_cons]


/-- These are the characters of a hexadecimal number. -/
def isHexDigit (c : Char) : Bool := (List.range 16).any fun n => hexDigit n == c

variable {n m : Nat}

theorem hexDigit_injective (nFits : n < 16) (mFits : m < 16) (same : hexDigit n = hexDigit m) :
    n = m := by
  have table : ∀ n : Fin 16, ∀ m : Fin 16, hexDigit n = hexDigit m → n = m := by decide
  exact congrArg Fin.val (table ⟨n, nFits⟩ ⟨m, mFits⟩ same)

theorem length_hexDigits (width n : Nat) : (hexDigits width n).length = width := by
  induction width generalizing n with
  | zero => rfl
  | succ width ih => rw [hexDigits, List.length_append, ih, List.length_singleton]

variable {width : Nat} {c : Char}

theorem isHexDigit_of_mem (member : c ∈ hexDigits width n) : isHexDigit c = true := by
  induction width generalizing n with
  | zero => contradiction
  | succ width ih =>
      rcases List.mem_append.mp member with member | member
      · exact ih member
      · rw [List.mem_singleton.mp member, isHexDigit, List.any_eq_true]
        exact ⟨n % 16, List.mem_range.mpr (Nat.mod_lt n (by decide)), beq_self_eq_true _⟩

/-- A number of the width is written in one way. -/
theorem hexDigits_injective (nFits : n < 16 ^ width) (mFits : m < 16 ^ width)
    (same : hexDigits width n = hexDigits width m) : n = m := by
  induction width generalizing n m with
  | zero =>
      rw [pow_zero] at nFits mFits
      omega
  | succ width ih =>
      rw [pow_succ] at nFits mFits
      obtain ⟨high, low⟩ := List.append_inj' same rfl
      have lowSame := hexDigit_injective (Nat.mod_lt n (by decide)) (Nat.mod_lt m (by decide))
        (List.cons.inj low).1
      have highSame := ih (Nat.div_lt_of_lt_mul (Nat.mul_comm _ 16 ▸ nFits))
        (Nat.div_lt_of_lt_mul (Nat.mul_comm _ 16 ▸ mFits)) high
      omega

/-- The digits of an identifier are its string without the dashes. -/
theorem Uuid.str_filter (uuid : Uuid) :
    uuid.str.filter (fun c => c ≠ '-') = hexDigits 32 uuid.int := by
  have dashless : ∀ part : Text, (∀ c ∈ part, isHexDigit c = true) →
      part.filter (fun c => c ≠ '-') = part := by
    intro part digits
    rw [List.filter_eq_self]
    intro c member
    have digit := digits c member
    rw [decide_eq_true_eq]
    rintro rfl
    exact absurd digit (by decide)
  have digits : ∀ c ∈ hexDigits 32 uuid.int, isHexDigit c = true := fun c => isHexDigit_of_mem
  have taken : ∀ start count, ∀ c ∈ ((hexDigits 32 uuid.int).drop start).take count,
      isHexDigit c = true := fun start count c member =>
    digits c (List.mem_of_mem_drop (List.mem_of_mem_take member))
  have first : ∀ c ∈ (hexDigits 32 uuid.int).take 8, isHexDigit c = true := fun c member =>
    digits c (List.mem_of_mem_take member)
  have last : ∀ c ∈ (hexDigits 32 uuid.int).drop 20, isHexDigit c = true := fun c member =>
    digits c (List.mem_of_mem_drop member)
  unfold Uuid.str
  simp only [List.filter_append, List.filter_cons, dashless _ (taken _ _), dashless _ first,
    dashless _ last, ne_eq, not_true_eq_false, decide_false, Bool.false_eq_true, if_false]
  have cut : ∀ start count, ((hexDigits 32 uuid.int).drop start).take count ++
      (hexDigits 32 uuid.int).drop (start + count) = (hexDigits 32 uuid.int).drop start := by
    intro start count
    rw [← List.drop_drop, List.take_append_drop]
  simp only [List.append_assoc, cut 16 4, cut 12 4, cut 8 4, List.take_append_drop]

theorem Uuid.str_injective {a b : Uuid} (same : a.str = b.str) : a = b := by
  have digits := congrArg (List.filter fun c => c ≠ '-') same
  rw [Uuid.str_filter, Uuid.str_filter] at digits
  obtain ⟨a, aFits⟩ := a
  obtain ⟨b, bFits⟩ := b
  obtain rfl := hexDigits_injective aFits bFits digits
  rfl

/-- An identifier is written with digits and dashes. -/
theorem Uuid.mem_str {uuid : Uuid} (member : c ∈ uuid.str) : isHexDigit c = true ∨ c = '-' := by
  by_cases dash : c = '-'
  · exact Or.inr dash
  · have kept : c ∈ uuid.str.filter (fun c => c ≠ '-') := by
      rw [List.mem_filter]
      exact ⟨member, decide_eq_true dash⟩
    rw [Uuid.str_filter] at kept
    exact Or.inl (isHexDigit_of_mem kept)

/-- A text is plain when it is its own JSON text. -/
def isPlain (c : Char) : Bool := Json.escapeChar c == [c]

variable {text : Text}

theorem quote_plain (plain : ∀ c ∈ text, isPlain c = true) :
    Json.quote text = Library.delimit '"' text := by
  have escapes : text.flatMap Json.escapeChar = text := by
    induction text with
    | nil => rfl
    | cons c rest ih =>
        rw [List.flatMap_cons, ih fun later member => plain later (.tail c member),
          beq_iff_eq.mp (plain c List.mem_cons_self)]
        rfl
  rw [Json.quote, escapes, Library.delimit]

theorem Json.dumpItems_strs (texts : List Text) :
    Json.dumpItems (texts.map .str) = [',', ' '].intercalate (texts.map Json.quote) := by
  induction texts with
  | nil => rfl
  | cons text rest ih =>
      cases rest with
      | nil => simp [Json.dumpItems, Json.dumps]
      | cons second rest =>
          rw [List.map_cons] at ih
          simp only [List.map_cons, Json.dumpItems, Json.dumps, ih, List.intercalate_cons_cons]

variable {table : Char → Option Nat}

variable {start stop : Int}

theorem mem_rangeSet {step value : Int} :
    value ∈ rangeSet start stop step ↔
      start ≤ value ∧ value < stop ∧ (value - start) % step = 0 := by
  simp only [rangeSet, List.mem_toFinset, List.mem_filter, List.mem_map, List.mem_range,
    decide_eq_true_eq]
  constructor
  · rintro ⟨⟨place, within, rfl⟩, divides⟩
    omega
  · rintro ⟨low, high, divides⟩
    exact ⟨⟨(value - start).toNat, by omega, by omega⟩, divides⟩

theorem mem_rangeSet_one {value : Int} :
    value ∈ rangeSet start stop 1 ↔ start ≤ value ∧ value < stop := by
  rw [mem_rangeSet, Int.emod_one]
  simp

/-- A word is a text without blanks that is not empty. -/
def IsWordText (text : Text) : Prop := text ≠ [] ∧ ∀ c ∈ text, isSpace c = false

/-- The parts of a split text are words. -/
theorem splitBlank_words {part : Text} (member : part ∈ splitBlank text) : IsWordText part := by
  obtain ⟨splits, filled⟩ := List.mem_filter.mp member
  exact ⟨by simpa using filled, Library.mem_splitOnP splits⟩

theorem splitBlank_word (word : IsWordText text) : splitBlank text = [text] := by
  unfold splitBlank
  rw [List.splitOnP_eq_singleton word.2]
  simp [word.1]

theorem splitBlank_cons (word : IsWordText text) (rest : Text) :
    splitBlank (text ++ ' ' :: rest) = text :: splitBlank rest := by
  unfold splitBlank
  rw [List.splitOnP_append_cons_of_forall_mem word.2 ' ' rfl]
  simp [word.1]

/-- Words that are joined by spaces are split again. -/
theorem splitBlank_join {words : List Text} (are : ∀ word ∈ words, IsWordText word) :
    splitBlank (join [' '] words) = words := by
  induction words with
  | nil => rfl
  | cons word rest ih =>
      cases rest with
      | nil => simpa [join] using splitBlank_word (are word List.mem_cons_self)
      | cons second rest =>
          have spread : join [' '] (word :: second :: rest) = word ++ ' ' :: join [' '] (second :: rest) := by
            simp [join, List.intercalate_cons_cons]
          rw [spread, splitBlank_cons (are word List.mem_cons_self),
            ih fun other member => are other (List.mem_cons_of_mem _ member)]

theorem lstrip_cons (plain : isSpace c = false) (rest : Text) : lstrip (c :: rest) = c :: rest := by
  simp [lstrip, plain]

/-- Blanks at the start of a text do not change its parts. -/
theorem splitBlank_lstrip (text : Text) : splitBlank (lstrip text) = splitBlank text := by
  induction text with
  | nil => rfl
  | cons c rest ih =>
      by_cases blank : isSpace c = true
      · have skips : splitBlank (c :: rest) = splitBlank rest := by
          simp [splitBlank, List.splitOnP_cons_eq_if_modifyHead, blank]
        rw [skips, ← ih]
        simp [lstrip, blank]
      · rw [lstrip_cons (by simpa using blank)]

theorem splitBlank_snoc (blank : isSpace c = true) (text : Text) :
    splitBlank (text ++ [c]) = splitBlank text := by
  unfold splitBlank
  rw [List.splitOnP_append_cons text [] blank]
  simp

/-- Blanks at the end of a text do not change its parts. -/
theorem splitBlank_rstrip (text : Text) : splitBlank (rstrip text) = splitBlank text := by
  induction text using List.reverseRecOn with
  | nil => rfl
  | append_singleton rest c ih =>
      by_cases blank : isSpace c = true
      · rw [splitBlank_snoc blank, ← ih]
        simp [rstrip, blank]
      · simp [rstrip, blank]

theorem splitBlank_strip (text : Text) : splitBlank (strip text) = splitBlank text := by
  unfold strip
  rw [splitBlank_lstrip, splitBlank_rstrip]

theorem digit_bounds (digit : c.isDigit = true) : 48 ≤ c.toNat ∧ c.toNat ≤ 57 := by
  rw [Char.isDigit, Bool.and_eq_true, decide_eq_true_eq, decide_eq_true_eq] at digit
  exact ⟨digit.1, digit.2⟩

theorem natText_digit {value : Nat} (member : c ∈ natText value) : c.isDigit = true :=
  Nat.isDigit_of_mem_toDigits (by omega) (by omega) member

/-- A decimal numeral is a word. -/
theorem natText_word (value : Nat) : IsWordText (natText value) := by
  refine ⟨Nat.toDigits_ne_nil, fun c member => ?_⟩
  have bounds := digit_bounds (natText_digit member)
  simp only [isSpace, Bool.or_eq_false_iff, Bool.and_eq_false_iff, decide_eq_false_iff_not,
    beq_eq_false_iff_ne]
  omega

theorem natText_not_mem {value : Nat} (other : c.isDigit = false) : c ∉ natText value := by
  intro member
  rw [natText_digit member] at other
  contradiction

end LumenCopilot.Python
