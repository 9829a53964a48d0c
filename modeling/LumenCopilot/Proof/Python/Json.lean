import LumenCopilot.Construction.Python.Bytes
import LumenCopilot.Proof.Python.Numerals

namespace LumenCopilot.Python

/-- These are the code points with an escape of two characters. -/
def shortEscapes : List (Char × Char) :=
  [('"', '"'), ('\\', '\\'), ('\n', 'n'), ('\r', 'r'), ('\t', 't'), (Char.ofNat 12, 'f'), (Char.ofNat 8, 'b')]

/-- A code point is written as itself, by a short escape, by one code unit or by two. -/
inductive Escaped (c : Char) : Text → Prop where
  | plain (printable : c.toNat ≤ 126) (unmarked : c ≠ '\\') (inside : c ≠ '"') : Escaped c [c]
  | short (mark : Char) (listed : (c, mark) ∈ shortEscapes) : Escaped c ['\\', mark]
  | unit (fits : c.toNat < 0x10000) : Escaped c (Json.escapeUnit c.toNat)
  | pair (beyond : 0x10000 ≤ c.toNat) : Escaped c
      (Json.escapeUnit (0xD800 + (c.toNat - 0x10000) / 1024) ++
        Json.escapeUnit (0xDC00 + (c.toNat - 0x10000) % 1024))

theorem escapeChar_escaped (c : Char) : Escaped c (Json.escapeChar c) := by
  have named : ∀ n : Nat, n.isValidChar → c.toNat = n → c = Char.ofNat n := by
    intro n _ same
    rw [← same, Char.ofNat_toNat]
  unfold Json.escapeChar
  simp only
  split
  · next same => exact .short '"' (by simp [same, shortEscapes])
  split
  · next same => exact .short '\\' (by simp [same, shortEscapes])
  split
  · next same => exact .short 'n' (by simp [same, shortEscapes])
  split
  · next same => exact .short 'r' (by simp [same, shortEscapes])
  split
  · next same => exact .short 't' (by simp [same, shortEscapes])
  split
  · next same => exact .short 'f' (by simp [named 12 (by decide) same, shortEscapes])
  split
  · next same => exact .short 'b' (by simp [named 8 (by decide) same, shortEscapes])
  split
  · next inside unmarked _ _ _ _ _ printable =>
      simp only [Bool.and_eq_true, decide_eq_true_eq] at printable
      exact .plain printable.2 unmarked inside
  split
  · next fits => exact .unit fits
  · next beyond => exact .pair (not_lt.mp beyond)

variable {rest other : Text}

theorem escapeUnit_append_inj {n m : Nat} (nFits : n < 0x10000) (mFits : m < 0x10000)
    (same : Json.escapeUnit n ++ rest = Json.escapeUnit m ++ other) : n = m ∧ rest = other := by
  have lengths : (Json.escapeUnit n).length = (Json.escapeUnit m).length := by
    simp [Json.escapeUnit, length_hexDigits]
  obtain ⟨units, rests⟩ := List.append_inj same lengths
  unfold Json.escapeUnit at units
  simp only [List.cons.injEq, true_and] at units
  exact ⟨hexDigits_injective nFits mFits units, rests⟩

variable {a b : Char}

theorem toNat_injective (same : a.toNat = b.toNat) : a = b := by
  rw [← Char.ofNat_toNat a, same, Char.ofNat_toNat]

variable {c : Char}

/-- A short escape is not the start of a code unit. -/
theorem shortEscapes_not_unit {mark : Char} (listed : (c, mark) ∈ shortEscapes) : mark ≠ 'u' := by
  rintro rfl
  simp [shortEscapes] at listed

theorem shortEscapes_inj {mark : Char} (first : (a, mark) ∈ shortEscapes)
    (second : (b, mark) ∈ shortEscapes) : a = b := by
  have marks : (shortEscapes.map Prod.snd).Nodup := by decide
  exact (Prod.mk.inj (List.inj_on_of_nodup_map marks first second rfl)).1

theorem high_fits (c : Char) : 0xD800 + (c.toNat - 0x10000) / 1024 < 0x10000 := by
  have valid : c.toNat.isValidChar := c.valid
  unfold Nat.isValidChar at valid
  omega

/-- A code point is not the first unit of a pair. -/
theorem not_high (a b : Char) : a.toNat ≠ 0xD800 + (b.toNat - 0x10000) / 1024 := by
  have first : a.toNat.isValidChar := a.valid
  have second : b.toNat.isValidChar := b.valid
  unfold Nat.isValidChar at first second
  omega

variable {text : Text}

/-- An escape does not start with the mark that ends a string. -/
theorem quote_not_escaped (c : Char) :
    List.flatMap Json.escapeChar [] ++ (['"'] ++ rest) ≠
      List.flatMap Json.escapeChar (c :: text) ++ (['"'] ++ other) := by
  intro same
  rw [List.flatMap_cons] at same
  cases escaped : Json.escapeChar c with
  | nil =>
      have lengths := escapeChar_escaped c
      rw [escaped] at lengths
      cases lengths
  | cons head tail =>
      have shape := escapeChar_escaped c
      rw [escaped] at same shape
      obtain ⟨rfl, _⟩ := List.cons.inj same
      cases shape with
      | plain _ _ inside => exact inside rfl

/-- Escapes are a prefix code. -/
theorem Escaped.append_inj {first second : Text} (here : Escaped a first) (there : Escaped b second)
    (same : first ++ rest = second ++ other) : a = b ∧ rest = other := by
  cases here with
  | plain _ unmarked _ =>
      cases there with
      | plain => exact List.cons.inj same
      | _ => exact (unmarked (List.cons.inj same).1).elim
  | short mark listed =>
      have marked : ∀ {units : Text}, ['\\', mark] ++ rest ≠ '\\' :: 'u' :: units := fun equal =>
        shortEscapes_not_unit listed (List.cons.inj (List.cons.inj equal).2).1
      cases there with
      | plain _ unmarked => exact (unmarked (List.cons.inj same).1.symm).elim
      | short other there =>
          obtain ⟨rfl, rests⟩ := List.cons.inj (List.cons.inj same).2
          exact ⟨shortEscapes_inj listed there, rests⟩
      | unit => exact (marked same).elim
      | pair => exact (marked same).elim
  | unit fits =>
      cases there with
      | plain _ unmarked => exact (unmarked (List.cons.inj same).1.symm).elim
      | short mark there =>
          exact (shortEscapes_not_unit there (List.cons.inj (List.cons.inj same).2).1.symm).elim
      | unit otherFits =>
          obtain ⟨units, rests⟩ := escapeUnit_append_inj fits otherFits same
          exact ⟨toNat_injective units, rests⟩
      | pair beyond =>
          rw [List.append_assoc] at same
          obtain ⟨units, _⟩ := escapeUnit_append_inj fits (high_fits b) same
          exact (not_high a b units).elim
  | pair beyond =>
      rw [List.append_assoc] at same
      cases there with
      | plain _ unmarked => exact (unmarked (List.cons.inj same).1.symm).elim
      | short mark there =>
          exact (shortEscapes_not_unit there (List.cons.inj (List.cons.inj same).2).1.symm).elim
      | unit otherFits =>
          obtain ⟨units, _⟩ := escapeUnit_append_inj (high_fits a) otherFits same
          exact (not_high b a units.symm).elim
      | pair otherBeyond =>
          rw [List.append_assoc] at same
          obtain ⟨highs, lows⟩ := escapeUnit_append_inj (high_fits a) (high_fits b) same
          obtain ⟨units, rests⟩ := escapeUnit_append_inj (by omega) (by omega) lows
          exact ⟨toNat_injective (by omega), rests⟩

/-- A string is read back from its quoted text. -/
theorem quote_append_inj {first second : Text}
    (same : Json.quote first ++ rest = Json.quote second ++ other) :
    first = second ∧ rest = other := by
  have opened : first.flatMap Json.escapeChar ++ (['"'] ++ rest) =
      second.flatMap Json.escapeChar ++ (['"'] ++ other) := by
    simpa [Json.quote] using same
  clear same
  induction first generalizing second with
  | nil =>
      cases second with
      | nil => exact ⟨rfl, (List.cons.inj opened).2⟩
      | cons b second => exact (quote_not_escaped b opened).elim
  | cons a first ih =>
      cases second with
      | nil => exact (quote_not_escaped a opened.symm).elim
      | cons b second =>
          simp only [List.flatMap_cons, List.append_assoc] at opened
          obtain ⟨rfl, rests⟩ := (escapeChar_escaped a).append_inj (escapeChar_escaped b) opened
          obtain ⟨rfl, ends⟩ := ih rests
          exact ⟨rfl, ends⟩

/-- These are the items of a list behind its first one. -/
def dumpRest (items : List Json) : Text := items.flatMap fun item => ',' :: ' ' :: item.dumps

theorem dumpItems_cons (item : Json) (items : List Json) :
    Json.dumpItems (item :: items) = item.dumps ++ dumpRest items := by
  induction items generalizing item with
  | nil => simp [Json.dumpItems, dumpRest]
  | cons next items ih =>
      rw [Json.dumpItems, ih, dumpRest, dumpRest, List.flatMap_cons]
      · simp
      · simp

/-- Values of a class are read back from the start of a text, and none starts with a closing bracket. -/
structure PrefixCode (good : Json → Prop) : Prop where
  append_inj : ∀ {first second : Json} {rest other : Text}, good first → good second →
    first.dumps ++ rest = second.dumps ++ other → first = second ∧ rest = other
  head_ne : ∀ {value : Json} {rest other : Text}, good value → value.dumps ++ rest ≠ ']' :: other

theorem PrefixCode.rest_inj {good : Json → Prop} (code : PrefixCode good) {first second : List Json}
    (goods : ∀ item ∈ first, good item) (others : ∀ item ∈ second, good item)
    (same : dumpRest first ++ ']' :: rest = dumpRest second ++ ']' :: other) :
    first = second ∧ rest = other := by
  induction first generalizing second with
  | nil =>
      cases second with
      | nil => exact ⟨rfl, (List.cons.inj same).2⟩
      | cons item second => exact absurd (List.cons.inj same).1 (by decide)
  | cons item first ih =>
      cases second with
      | nil => exact absurd (List.cons.inj same).1 (by decide)
      | cons next second =>
          simp only [dumpRest, List.flatMap_cons, List.cons_append, List.append_assoc, List.cons.injEq,
            true_and] at same
          obtain ⟨rfl, rests⟩ := code.append_inj (goods item List.mem_cons_self)
            (others next List.mem_cons_self) same
          obtain ⟨rfl, ends⟩ := ih (fun item member => goods item (.tail _ member))
            (fun item member => others item (.tail _ member)) rests
          exact ⟨rfl, ends⟩

/-- A list of such values is read back from the start of a text. -/
theorem PrefixCode.list_inj {good : Json → Prop} (code : PrefixCode good) {first second : List Json}
    (goods : ∀ item ∈ first, good item) (others : ∀ item ∈ second, good item)
    (same : (Json.list first).dumps ++ rest = (Json.list second).dumps ++ other) :
    first = second ∧ rest = other := by
  have inner : Json.dumpItems first ++ ']' :: rest = Json.dumpItems second ++ ']' :: other := by
    simpa [Json.dumps] using same
  cases first with
  | nil =>
      cases second with
      | nil => exact ⟨rfl, (List.cons.inj inner).2⟩
      | cons item second =>
          rw [dumpItems_cons, List.append_assoc] at inner
          exact (code.head_ne (others item List.mem_cons_self) inner.symm).elim
  | cons item first =>
      rw [dumpItems_cons, List.append_assoc] at inner
      cases second with
      | nil => exact (code.head_ne (goods item List.mem_cons_self) inner).elim
      | cons next second =>
          rw [dumpItems_cons, List.append_assoc] at inner
          obtain ⟨rfl, rests⟩ := code.append_inj (goods item List.mem_cons_self)
            (others next List.mem_cons_self) inner
          obtain ⟨rfl, ends⟩ := code.rest_inj (fun item member => goods item (.tail _ member))
            (fun item member => others item (.tail _ member)) rests
          exact ⟨rfl, ends⟩

/-- These values are the strings. -/
def IsStr (value : Json) : Prop := ∃ text, value = .str text

theorem isStr_code : PrefixCode IsStr where
  append_inj := by
    rintro _ _ rest other ⟨first, rfl⟩ ⟨second, rfl⟩ same
    obtain ⟨rfl, rests⟩ := quote_append_inj same
    exact ⟨rfl, rests⟩
  head_ne := by
    rintro _ rest other ⟨text, rfl⟩ same
    exact absurd (List.cons.inj same).1 (by decide)

/-- These values are null, the strings and the lists of strings. -/
inductive IsFlat : Json → Prop where
  | null : IsFlat .null
  | str (text : Text) : IsFlat (.str text)
  | list (texts : List Text) : IsFlat (.list (texts.map .str))

theorem isFlat_code : PrefixCode IsFlat where
  append_inj := by
    intro first second rest other here there same
    cases here with
    | null =>
        cases there with
        | null => exact ⟨rfl, List.append_cancel_left same⟩
        | str => exact absurd (List.cons.inj same).1 (by decide)
        | list => exact absurd (List.cons.inj same).1 (by decide)
    | str text =>
        cases there with
        | null => exact absurd (List.cons.inj same).1 (by decide)
        | str => exact isStr_code.append_inj ⟨_, rfl⟩ ⟨_, rfl⟩ same
        | list => exact absurd (List.cons.inj same).1 (by decide)
    | list texts =>
        cases there with
        | null => exact absurd (List.cons.inj same).1 (by decide)
        | str => exact absurd (List.cons.inj same).1 (by decide)
        | list others =>
            obtain ⟨items, rests⟩ := isStr_code.list_inj (by simp [IsStr]) (by simp [IsStr]) same
            exact ⟨congrArg Json.list items, rests⟩
  head_ne := by
    intro value rest other flat same
    cases flat <;> exact absurd (List.cons.inj same).1 (by decide)

/-- A list of flat values is determined by its JSON text. -/
theorem dumps_flat_inj {first second : List Json} (flat : ∀ item ∈ first, IsFlat item)
    (others : ∀ item ∈ second, IsFlat item) (same : (Json.list first).dumps = (Json.list second).dumps) :
    first = second :=
  (isFlat_code.list_inj flat others (congrArg (· ++ []) same)).1

theorem isAscii_of_isHexDigit (digit : isHexDigit c = true) : isAscii c = true := by
  obtain ⟨n, member, same⟩ := List.any_eq_true.mp digit
  have table : ∀ n ∈ List.range 16, isAscii (hexDigit n) = true := by decide
  rw [← beq_iff_eq.mp same]
  exact table n member

theorem isAscii_escapeUnit {n : Nat} (member : c ∈ Json.escapeUnit n) : isAscii c = true := by
  rcases List.mem_cons.mp member with rfl | member
  · rfl
  · rcases List.mem_cons.mp member with rfl | member
    · rfl
    · exact isAscii_of_isHexDigit (isHexDigit_of_mem member)

/-- An escape is ASCII. -/
theorem Escaped.ascii {d : Char} (escaped : Escaped c text) (member : d ∈ text) :
    isAscii d = true := by
  cases escaped with
  | plain printable =>
      obtain rfl := List.mem_singleton.mp member
      exact decide_eq_true (by omega)
  | short mark listed =>
      have marks : ∀ entry ∈ shortEscapes, isAscii entry.2 = true := by decide
      simp only [List.mem_cons, List.not_mem_nil, or_false] at member
      rcases member with rfl | rfl
      · rfl
      · exact marks _ listed
  | unit => exact isAscii_escapeUnit member
  | pair =>
      rcases List.mem_append.mp member with member | member
      · exact isAscii_escapeUnit member
      · exact isAscii_escapeUnit member

theorem Escaped.length_le (escaped : Escaped c text) : text.length ≤ 12 := by
  cases escaped <;> simp [Json.escapeUnit, length_hexDigits]

theorem isAscii_quote (member : c ∈ Json.quote text) : isAscii c = true := by
  unfold Json.quote at member
  rcases List.mem_cons.mp member with rfl | member
  · rfl
  · rcases List.mem_append.mp member with member | member
    · obtain ⟨d, _, here⟩ := List.mem_flatMap.mp member
      exact (escapeChar_escaped d).ascii here
    · obtain rfl := List.mem_singleton.mp member
      rfl

theorem length_quote_le (text : Text) : (Json.quote text).length ≤ 12 * text.length + 2 := by
  have bound : (text.flatMap Json.escapeChar).length ≤ 12 * text.length := by
    induction text with
    | nil => rfl
    | cons c rest ih =>
        have here := (escapeChar_escaped c).length_le
        rw [List.flatMap_cons, List.length_append, List.length_cons]
        omega
  simp only [Json.quote, List.length_cons, List.length_append, List.length_nil]
  omega

/-- A plain text is quoted with its own characters. -/
theorem length_quote_plain (plain : ∀ c ∈ text, isPlain c = true) :
    (Json.quote text).length = text.length + 2 := by
  rw [quote_plain plain]
  simp [Library.delimit]

/-- A list is written in ASCII when its items are. -/
theorem isAscii_list {items : List Json}
    (ascii : ∀ item ∈ items, ∀ c ∈ item.dumps, isAscii c = true)
    (member : c ∈ (Json.list items).dumps) : isAscii c = true := by
  have inner : ∀ c ∈ Json.dumpItems items, isAscii c = true := by
    intro c member
    cases items with
    | nil => cases member
    | cons item rest =>
        rw [dumpItems_cons] at member
        rcases List.mem_append.mp member with member | member
        · exact ascii item List.mem_cons_self c member
        · obtain ⟨next, listed, here⟩ := List.mem_flatMap.mp member
          simp only [List.mem_cons] at here
          rcases here with rfl | rfl | here
          · rfl
          · rfl
          · exact ascii next (.tail _ listed) c here
  simp only [Json.dumps, List.mem_cons, List.mem_append, List.not_mem_nil, or_false] at member
  rcases member with rfl | member | rfl
  · rfl
  · exact inner c member
  · rfl

theorem isAscii_fields {fields : List (Text × Json)}
    (ascii : ∀ field ∈ fields, ∀ c ∈ field.2.dumps, isAscii c = true)
    (member : c ∈ Json.dumpFields fields) : isAscii c = true := by
  induction fields with
  | nil => cases member
  | cons field rest ih =>
      obtain ⟨key, value⟩ := field
      have here : c ∈ Json.quote key ++ [':', ' '] ++ value.dumps → isAscii c = true := by
        simp only [List.mem_append, List.mem_cons, List.not_mem_nil, or_false]
        rintro ((quoted | rfl | rfl) | written)
        · exact isAscii_quote quoted
        · rfl
        · rfl
        · exact ascii _ List.mem_cons_self c written
      cases rest with
      | nil => exact here member
      | cons next rest =>
          rw [Json.dumpFields] at member
          · simp only [List.mem_append, List.mem_cons, List.not_mem_nil, or_false] at member here
            rcases member with (written | rfl | rfl) | later
            · exact here written
            · rfl
            · rfl
            · exact ih (fun field listed => ascii field (.tail _ listed)) later
          · simp

/-- An object is written in ASCII when its values are. -/
theorem isAscii_dict {fields : List (Text × Json)}
    (ascii : ∀ field ∈ fields, ∀ c ∈ field.2.dumps, isAscii c = true)
    (member : c ∈ (Json.dict fields).dumps) : isAscii c = true := by
  simp only [Json.dumps, List.mem_cons, List.mem_append, List.not_mem_nil, or_false] at member
  rcases member with rfl | member | rfl
  · rfl
  · exact isAscii_fields ascii member
  · rfl

theorem IsFlat.ascii {value : Json} (flat : IsFlat value) (member : c ∈ value.dumps) :
    isAscii c = true := by
  cases flat with
  | null =>
      have letters : "null".toList.all isAscii = true := by decide
      exact List.all_eq_true.mp letters c member
  | str => exact isAscii_quote member
  | list texts =>
      refine isAscii_list (fun item listed c here => ?_) member
      obtain ⟨text, _, rfl⟩ := List.mem_map.mp listed
      exact isAscii_quote here

/-- The bytes of an ASCII text are its code points. -/
theorem utf8_ascii (ascii : ∀ c ∈ text, isAscii c = true) : utf8 text = text.map Char.toNat := by
  induction text with
  | nil => rfl
  | cons c rest ih =>
      have small : c.toNat < 0x80 := of_decide_eq_true (ascii c List.mem_cons_self)
      rw [utf8, List.flatMap_cons, ← utf8, ih fun d member => ascii d (.tail _ member), utf8Char]
      exact congrArg (· ++ _) (if_pos small)

theorem length_utf8 (ascii : ∀ c ∈ text, isAscii c = true) : (utf8 text).length = text.length := by
  rw [utf8_ascii ascii, List.length_map]

/-- ASCII texts are equal when their bytes are. -/
theorem utf8_ascii_inj {first second : Text} (ascii : ∀ c ∈ first, isAscii c = true)
    (other : ∀ c ∈ second, isAscii c = true) (same : utf8 first = utf8 second) : first = second := by
  rw [utf8_ascii ascii, utf8_ascii other] at same
  exact List.map_injective_iff.mpr (fun _ _ => toNat_injective) same

theorem length_urlsafeB64encode (bytes : List Nat) :
    (urlsafeB64encode bytes).length = 4 * ((bytes.length + 2) / 3) := by
  induction bytes using urlsafeB64encode.induct with
  | case1 => rfl
  | case2 a => simp [urlsafeB64encode]
  | case3 a b => simp [urlsafeB64encode]
  | case4 a b c rest ih =>
      simp only [urlsafeB64encode, List.length_cons, ih]
      omega

theorem isHexDigit_hexdigest {bytes : List Nat} (member : c ∈ Sha256.hexdigest bytes) :
    isHexDigit c = true := by
  unfold Sha256.hexdigest at member
  obtain ⟨word, _, here⟩ := List.mem_flatMap.mp member
  exact isHexDigit_of_mem here

theorem length_hexdigest (bytes : List Nat) : (Sha256.hexdigest bytes).length = 64 := by
  simp [Sha256.hexdigest, length_hexDigits]

theorem Uuid.length_str (uuid : Uuid) : uuid.str.length = 36 := by
  simp [Uuid.str, length_hexDigits]

end LumenCopilot.Python
