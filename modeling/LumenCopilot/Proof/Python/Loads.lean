import LumenCopilot.Construction.Python.Loads
import LumenCopilot.Proof.Python.Numerals

namespace LumenCopilot.Python.Json

theorem unitValue_hexDigits (n : Nat) (small : n < 32) :
    ∃ a b c d, hexDigits 4 n = [a, b, c, d] ∧ unitValue a b c d = some n := by
  have all : ∀ n < 32, unitValue ((hexDigits 4 n).getD 0 ' ') ((hexDigits 4 n).getD 1 ' ')
      ((hexDigits 4 n).getD 2 ' ') ((hexDigits 4 n).getD 3 ' ') = some n := by decide
  exact ⟨_, _, _, _, rfl, all n small⟩

variable {c : Char}

theorem scanString_plain (quote : c ≠ '"') (backslash : c ≠ '\\') (high : ¬ c.toNat < 32)
    (rest : Text) :
    scanString (c :: rest) = (scanString rest).map fun scanned => (c :: scanned.1, scanned.2) := by
  rw [scanString]
  · simp [high, backslash]
  all_goals simp_all

theorem scanString_unescape {plain : Char} (unicode : c ≠ 'u') (stands : unescape c = some plain)
    (rest : Text) :
    scanString ('\\' :: c :: rest) =
      (scanString rest).map fun scanned => (plain :: scanned.1, scanned.2) := by
  rw [scanString]
  · simp [stands]
  all_goals simp_all

variable {d : Char}

theorem scanString_noUnit {a b : Char} (noUnit : unitValue a b c d = none) (rest : Text) :
    scanString ('\\' :: 'u' :: a :: b :: c :: d :: rest) = .error .value := by
  rw [scanString.eq_def]
  split
  case h_5 notUnit matched =>
    cases matched
    exact absurd rfl (notUnit a b c d rest rfl)
  case h_6 notEscape matched =>
    cases matched
    exact absurd rfl (notEscape 'u' _ rfl)
  all_goals simp_all

theorem scanString_unit {a b : Char} {n : Nat} (unit : unitValue a b c d = some n) (small : n < 32)
    (rest : Text) :
    scanString ('\\' :: 'u' :: a :: b :: c :: d :: rest) =
      (scanString rest).map fun scanned => (Char.ofNat n :: scanned.1, scanned.2) := by
  have low : ¬ 0xD800 ≤ n := by omega
  rw [scanString.eq_def]
  split
  case h_3 e f g h after matched =>
    cases matched
    simp only [unit]
    cases second : unitValue e f g h with
    | none => simp [scanString_noUnit second, Except.map]
    | some value => simp [low]
  case h_4 matched =>
    cases matched
    simp [unit, low]
  case h_5 notUnit matched =>
    cases matched
    exact absurd rfl (notUnit a b c d rest rfl)
  case h_6 notEscape matched =>
    cases matched
    exact absurd rfl (notEscape 'u' _ rfl)
  all_goals simp_all

/-- The reader takes an escaped code point back. -/
theorem scanString_escapeControl (c : Char) (rest : Text) :
    scanString (escapeControl c ++ rest) =
      (scanString rest).map fun scanned => (c :: scanned.1, scanned.2) := by
  by_cases quote : c = '"'
  · subst quote
    exact scanString_unescape (by decide) (by decide) rest
  by_cases backslash : c = '\\'
  · subst backslash
    exact scanString_unescape (by decide) (by decide) rest
  by_cases feed : c = '\n'
  · subst feed
    exact scanString_unescape (by decide) (by decide) rest
  by_cases carriage : c = '\r'
  · subst carriage
    exact scanString_unescape (by decide) (by decide) rest
  by_cases tab : c = '\t'
  · subst tab
    exact scanString_unescape (by decide) (by decide) rest
  by_cases form : c.toNat = 12
  · have same : c = Char.ofNat 12 := by rw [← form, Char.ofNat_toNat]
    subst same
    exact scanString_unescape (by decide) (by decide) rest
  by_cases back : c.toNat = 8
  · have same : c = Char.ofNat 8 := by rw [← back, Char.ofNat_toNat]
    subst same
    exact scanString_unescape (by decide) (by decide) rest
  by_cases control : c.toNat < 32
  · obtain ⟨first, second, third, fourth, digits, unit⟩ := unitValue_hexDigits c.toNat control
    have written : escapeControl c = ['\\', 'u', first, second, third, fourth] := by
      simp [escapeControl, escapeUnit, quote, backslash, feed, carriage, tab, form, back, control,
        digits]
    rw [written]
    simpa [Char.ofNat_toNat] using scanString_unit unit control rest
  · have written : escapeControl c = [c] := by
      simp [escapeControl, quote, backslash, feed, carriage, tab, form, back, control]
    rw [written]
    exact scanString_plain quote backslash control rest

/-- The reader takes a quoted text back. -/
theorem scanString_quote (text rest : Text) :
    scanString (text.flatMap escapeControl ++ '"' :: rest) = .ok (text, rest) := by
  induction text with
  | nil => simp [scanString]
  | cons c text ih =>
      rw [List.flatMap_cons, List.append_assoc, scanString_escapeControl, ih]
      rfl

theorem skipSpace_cons (solid : isJsonSpace c = false) (rest : Text) :
    skipSpace (c :: rest) = c :: rest := by
  simp [skipSpace, solid]

/-- A reader takes the compact text of the value back and leaves what follows. -/
structure Reads (value : Text → Except LoadError (Json × Text)) (json : Json) : Prop where
  reads : ∀ rest, value (json.dumpsCompact ++ rest) = .ok (json, rest)
  opens : ∃ c tail, json.dumpsCompact = c :: tail ∧ isJsonSpace c = false ∧ c ≠ ']'

variable {value : Text → Except LoadError (Json × Text)}

theorem Reads.skipSpace {json : Json} (read : Reads value json) (rest : Text) :
    Json.skipSpace (json.dumpsCompact ++ rest) = json.dumpsCompact ++ rest := by
  obtain ⟨c, tail, written, solid, -⟩ := read.opens
  rw [written, List.cons_append, skipSpace_cons solid]

/-- Items that are read one by one are read as a list. -/
theorem scanItems_reads (items : List Json) (some : items ≠ [])
    (read : ∀ item ∈ items, Reads value item) (fuel : Nat) (enough : items.length ≤ fuel)
    (rest : Text) :
    scanItems value fuel (dumpItemsCompact items ++ ']' :: rest) = .ok (items, rest) := by
  induction items generalizing fuel with
  | nil => exact absurd rfl some
  | cons head tail ih =>
      obtain ⟨fuel, rfl⟩ : ∃ less, fuel = less + 1 :=
        Nat.exists_eq_succ_of_ne_zero (by simp at enough; omega)
      have first := read head List.mem_cons_self
      cases tail with
      | nil =>
          rw [dumpItemsCompact, scanItems, first.reads]
          simp only [bind, Except.bind]
          rw [skipSpace_cons (by decide)]
          rfl
      | cons next later =>
          have others := ih (by simp)
            (fun item listed => read item (List.mem_cons_of_mem _ listed)) fuel (by simpa using enough)
          have spaced : Json.skipSpace (dumpItemsCompact (next :: later) ++ ']' :: rest) =
              dumpItemsCompact (next :: later) ++ ']' :: rest := by
            have solid := (read next (by simp)).skipSpace
            cases later <;> simp [dumpItemsCompact, solid]
          rw [dumpItemsCompact, scanItems, List.append_assoc, List.append_assoc, first.reads]
          · simp only [bind, Except.bind]
            rw [List.singleton_append, skipSpace_cons (by decide)]
            simp only [spaced, others]
          · simp

/-- Fields whose values are read one by one are read as an object. -/
theorem scanFields_reads (fields : List (Text × Json)) (some : fields ≠ [])
    (read : ∀ field ∈ fields, Reads value field.2) (fuel : Nat) (enough : fields.length ≤ fuel)
    (rest : Text) :
    scanFields value fuel (dumpFieldsCompact fields ++ '\x7d' :: rest) = .ok (fields, rest) := by
  induction fields generalizing fuel with
  | nil => exact absurd rfl some
  | cons head tail ih =>
      obtain ⟨fuel, rfl⟩ : ∃ less, fuel = less + 1 :=
        Nat.exists_eq_succ_of_ne_zero (by simp at enough; omega)
      obtain ⟨key, json⟩ := head
      have first : Reads value json := read (key, json) List.mem_cons_self
      cases tail with
      | nil =>
          simp only [dumpFieldsCompact, quoteUnicode, List.cons_append, List.append_assoc, scanFields,
            List.nil_append, scanString_quote, bind, Except.bind]
          rw [skipSpace_cons (by decide)]
          simp only [first.skipSpace, first.reads]
          rw [skipSpace_cons (by decide)]
          rfl
      | cons next later =>
          have others := ih (by simp)
            (fun field listed => read field (List.mem_cons_of_mem _ listed)) fuel
            (by simpa using enough)
          have spaced : Json.skipSpace (dumpFieldsCompact (next :: later) ++ '\x7d' :: rest) =
              dumpFieldsCompact (next :: later) ++ '\x7d' :: rest := by
            cases later <;> simp [dumpFieldsCompact, quoteUnicode, skipSpace_cons, isJsonSpace]
          rw [dumpFieldsCompact]
          · simp only [quoteUnicode, List.cons_append, List.append_assoc, scanFields,
              List.nil_append, scanString_quote, bind, Except.bind]
            rw [skipSpace_cons (by decide)]
            simp only [first.skipSpace, first.reads]
            rw [skipSpace_cons (by decide)]
            simp only [spaced, others]
          · simp

variable {nesting : Nat}

section Values

variable (hook : List (Text × Json) → Except LoadError Json)

/-- A string is read at every depth. -/
theorem Reads.str (nesting : Nat) (text : Text) : Reads (scanValue hook nesting) (.str text) where
  reads rest := by
    rw [dumpsCompact, quoteUnicode, List.cons_append, List.append_assoc, List.singleton_append,
      scanValue, scanString_quote]
    rfl
  opens := ⟨'"', _, rfl, by decide, by decide⟩

theorem length_dumpItemsCompact (items : List Json) (read : ∀ item ∈ items, Reads value item) :
    items.length ≤ (dumpItemsCompact items).length := by
  induction items with
  | nil => simp
  | cons head tail ih =>
      obtain ⟨c, after, written, -, -⟩ := (read head List.mem_cons_self).opens
      have others := ih fun item listed => read item (List.mem_cons_of_mem _ listed)
      cases tail with
      | nil => simp [dumpItemsCompact, written]
      | cons next later =>
          simp only [dumpItemsCompact, List.length_append, List.length_cons, written] at others ⊢
          omega

theorem length_dumpFieldsCompact (fields : List (Text × Json)) :
    fields.length ≤ (dumpFieldsCompact fields).length := by
  induction fields with
  | nil => simp
  | cons head tail ih =>
      obtain ⟨key, json⟩ := head
      cases tail with
      | nil => simp [dumpFieldsCompact, quoteUnicode]
      | cons next later =>
          simp only [dumpFieldsCompact, quoteUnicode, List.length_append, List.length_cons]
            at ih ⊢
          omega

/-- A list is read one level above its items. -/
theorem Reads.list (nesting : Nat) (items : List Json)
    (read : ∀ item ∈ items, Reads (scanValue hook nesting) item) :
    Reads (scanValue hook (nesting + 1)) (.list items) where
  reads rest := by
    rw [dumpsCompact, List.cons_append, List.append_assoc, List.singleton_append, scanValue]
    cases items with
    | nil =>
        rw [dumpItemsCompact, List.nil_append, skipSpace_cons (by decide)]
        rfl
    | cons head tail =>
        have scanned := scanItems_reads (head :: tail) (by simp) read
          (dumpItemsCompact (head :: tail) ++ ']' :: rest).length
          (by
            have long := length_dumpItemsCompact (head :: tail) read
            simp only [List.length_append]
            omega) rest
        obtain ⟨c, after, written, solid, open'⟩ := (read head List.mem_cons_self).opens
        obtain ⟨later, begins⟩ : ∃ later,
            dumpItemsCompact (head :: tail) ++ ']' :: rest = c :: later := by
          cases tail <;> simp [dumpItemsCompact, written]
        rw [begins] at scanned ⊢
        rw [skipSpace_cons solid]
        split
        case h_1 matched => exact absurd (List.cons.inj matched).1 open'
        case h_2 => simp only [scanned, Except.map]
  opens := ⟨'[', _, rfl, by decide, by decide⟩

/-- An object is read one level above its values, as its hook takes it. -/
theorem Reads.dict (nesting : Nat) (fields : List (Text × Json))
    (read : ∀ field ∈ fields, Reads (scanValue hook nesting) field.2)
    (taken : hook fields = .ok (.dict fields)) :
    Reads (scanValue hook (nesting + 1)) (.dict fields) where
  reads rest := by
    rw [dumpsCompact, List.cons_append, List.append_assoc, List.singleton_append, scanValue]
    cases fields with
    | nil =>
        rw [dumpFieldsCompact, List.nil_append, skipSpace_cons (by decide), taken]
        rfl
    | cons head tail =>
        have scanned := scanFields_reads (head :: tail) (by simp) read
          (dumpFieldsCompact (head :: tail) ++ '\x7d' :: rest).length
          (by
            have long := length_dumpFieldsCompact (head :: tail)
            simp only [List.length_append]
            omega) rest
        obtain ⟨later, begins⟩ : ∃ later,
            dumpFieldsCompact (head :: tail) ++ '\x7d' :: rest = '"' :: later := by
          cases tail <;> simp [dumpFieldsCompact, quoteUnicode]
        rw [begins] at scanned ⊢
        rw [skipSpace_cons (by decide)]
        split
        case h_1 matched => exact absurd (List.cons.inj matched).1 (by decide)
        case h_2 => simp only [scanned, taken, bind, Except.bind]
  opens := ⟨'\x7b', _, rfl, by decide, by decide⟩

/-- A value that is read with nothing after it is what `json.loads` returns. -/
theorem loads_reads {json : Json} (read : Reads (scanValue hook nesting) json)
    (mark : startsWith json.dumpsCompact [Char.ofNat 0xFEFF] = false) :
    loads hook nesting json.dumpsCompact = .ok json := by
  have whole := read.reads []
  have start := read.skipSpace []
  rw [List.append_nil] at whole start
  have blank : skipSpace [] = [] := rfl
  simp [loads, mark, start, whole, blank, bind, Except.bind]

end Values

theorem ne_of_isSpace (space : isSpace c = true) (solid : isSpace d = false) : c ≠ d := by
  rintro rfl
  rw [space] at solid
  contradiction

theorem isDigit_of_isSpace (space : isSpace c = true) : c.isDigit = false := by
  by_contra digit
  have bounds := digit_bounds (Bool.eq_true_of_not_eq_false digit)
  simp only [isSpace, Bool.or_eq_true, Bool.and_eq_true, decide_eq_true_eq, beq_iff_eq] at space
  omega

theorem startsWith_isSpace (space : isSpace c = true) (solid : isSpace d = false)
    (rest start : Text) : startsWith (c :: rest) (d :: start) = false := by
  have apart : (d == c) = false := beq_false_of_ne (ne_of_isSpace space solid).symm
  simp only [startsWith, List.isPrefixOf, apart, Bool.false_and]

variable {text : Text}

/-- White space is no constant and no number. -/
theorem scanAtom_blank (blank : isBlank text = true) : scanAtom text = .error .value := by
  cases text with
  | nil => rfl
  | cons c rest =>
      have space : isSpace c = true := List.all_eq_true.mp blank c List.mem_cons_self
      have digits : (c :: rest).takeWhile Char.isDigit = [] := by
        rw [List.takeWhile_cons_of_neg (by rw [isDigit_of_isSpace space]; exact Bool.false_ne_true)]
      have number : scanNatural (c :: rest) = none := by
        unfold scanNatural
        split
        · next equal => exact absurd (List.cons.inj equal).1 (ne_of_isSpace space (by decide))
        · rw [digits]
          rfl
      unfold scanAtom
      have unlisted : ([("null".toList, Json.null), ("true".toList, .bool true),
          ("false".toList, .bool false), ("NaN".toList, .float "NaN".toList),
          ("Infinity".toList, .float "Infinity".toList),
          ("-Infinity".toList, .float "-Infinity".toList)] : List (Text × Json)).find?
            (fun constant => startsWith (c :: rest) constant.1) = none := by
        have apart (d : Char) (start : Text) (solid : isSpace d = false) :=
          startsWith_isSpace space solid rest start
        apply List.find?_eq_none.mpr
        intro constant member
        simp only [List.mem_cons, List.not_mem_nil, or_false] at member
        rcases member with rfl | rfl | rfl | rfl | rfl | rfl <;>
          exact ne_true_of_eq_false (apart _ _ (by decide))
      dsimp only
      rw [unlisted]
      dsimp only
      split
      · next equal => exact absurd (List.cons.inj equal).1 (ne_of_isSpace space (by decide))
      · unfold scanUnsigned
        rw [number]

theorem scanValue_blank {hook : List (Text × Json) → Except LoadError Json}
    (blank : isBlank text = true) : scanValue hook nesting text = .error .value := by
  have head {c : Char} {rest : Text} (starts : text = c :: rest) : isSpace c = true := by
    rw [starts] at blank
    exact List.all_eq_true.mp blank c List.mem_cons_self
  unfold scanValue
  split
  · next equal => exact absurd rfl (ne_of_isSpace (head rfl) (by decide))
  · next c rest _ =>
      rw [if_neg, scanAtom_blank blank]
      simp only [Bool.or_eq_true, decide_eq_true_eq, not_or]
      exact ⟨ne_of_isSpace (head rfl) (by decide), ne_of_isSpace (head rfl) (by decide)⟩
  · exact absurd rfl (ne_of_isSpace (head rfl) (by decide))
  · exact absurd rfl (ne_of_isSpace (head rfl) (by decide))
  · exact scanAtom_blank blank

/-- A reader finds nothing in a blank text. -/
theorem loads_blank {hook : List (Text × Json) → Except LoadError Json}
    (blank : isBlank text = true) (json : Json) : loads hook nesting text ≠ .ok json := by
  intro read
  have skipped : isBlank (skipSpace text) = true := by
    apply List.all_eq_true.mpr
    intro c member
    exact List.all_eq_true.mp blank c ((List.dropWhile_sublist _).subset member)
  unfold loads at read
  split at read
  · cases read
  · rw [scanValue_blank skipped] at read
    cases read

end LumenCopilot.Python.Json
