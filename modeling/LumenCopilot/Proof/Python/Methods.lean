import LumenCopilot.Construction.Python.Bytes
import LumenCopilot.Construction.Python.Numerals
import LumenCopilot.Construction.Python.Text

namespace LumenCopilot.Python

variable {part text : Text}

/-- A part that is not found does not occur. -/
theorem not_infix_of_find (filled : part ≠ []) (missing : find part text = none) :
    ¬ part <:+: text := by
  induction text with
  | nil => simpa using filled
  | cons c rest ih =>
      rw [find] at missing
      split at missing
      · contradiction
      · next away =>
        have later := ih (Option.map_eq_none_iff.mp missing)
        rw [List.infix_cons_iff]
        rintro (here | inside)
        · exact away (List.isPrefixOf_iff_prefix.mpr here)
        · exact later inside

/-- A part that is found stands at its index. -/
theorem prefix_of_find {place : Nat} (found : find part text = some place) :
    part <+: text.drop place := by
  induction text generalizing place with
  | nil =>
      rw [find] at found
      split at found
      · next blank => exact blank ▸ List.nil_prefix
      · contradiction
  | cons c rest ih =>
      rw [find] at found
      split at found
      · next here =>
        obtain rfl := Option.some.inj found
        exact List.isPrefixOf_iff_prefix.mp here
      · obtain ⟨earlier, before, rfl⟩ := Option.map_eq_some_iff.mp found
        exact ih before

theorem find_eq_none (absent : ¬ part <:+: text) : find part text = none := by
  cases found : find part text with
  | none => rfl
  | some place =>
      exact absurd ((prefix_of_find found).isInfix.trans (List.drop_suffix _ _).isInfix) absent

theorem split_of_find {place : Nat} (filled : part ≠ []) (found : find part text = some place) :
    ∃ after, text = text.take place ++ part ++ after ∧ (text.take place).length = place := by
  obtain ⟨after, rest⟩ := prefix_of_find found
  have inside : place ≤ text.length := by
    by_contra beyond
    rw [List.drop_eq_nil_of_le (by omega)] at rest
    exact filled (List.append_eq_nil_iff.mp rest).1
  refine ⟨after, ?_, List.length_take_of_le inside⟩
  rw [List.append_assoc, rest, List.take_append_drop]

section Casing

variable (table : CaseTable)

/-- Without a capital sigma the lower case goes code point by code point. -/
theorem strLower_eq (plain : capitalSigma ∉ text) : strLower table text = lower table.toUnicodeTable text := by
  have from_ : ∀ before, lowerAfter table before text = lower table.toUnicodeTable text := by
    induction text with
    | nil => exact fun _ => rfl
    | cons c rest ih =>
        intro before
        have different : c ≠ capitalSigma := fun same => plain (same ▸ List.mem_cons_self)
        rw [lowerAfter, if_neg different,
          ih (fun member => plain (List.mem_cons_of_mem _ member))]
        rfl
  exact from_ []

theorem lower_append (first second : Text) :
    lower table.toUnicodeTable (first ++ second) =
      lower table.toUnicodeTable first ++ lower table.toUnicodeTable second :=
  List.flatMap_append

end Casing

end LumenCopilot.Python

namespace LumenCopilot.Python

theorem lstrip_suffix_self (text : Text) : lstrip text <:+ text := List.dropWhile_suffix isSpace

theorem rstrip_isPrefix (text : Text) : rstrip text <+: text := List.rdropWhile_prefix isSpace text

theorem strip_isInfix (text : Text) : strip text <:+: text :=
  (lstrip_suffix_self (rstrip text)).isInfix.trans (rstrip_isPrefix text).isInfix

theorem length_strip_le (text : Text) : (strip text).length ≤ text.length :=
  (strip_isInfix text).length_le

theorem rstrip_lstrip_rstrip (text : Text) : rstrip (lstrip (rstrip text)) = lstrip (rstrip text) := by
  apply List.rdropWhile_eq_self_iff.mpr
  intro filled
  have longer : rstrip text ≠ [] := by
    intro blank
    exact filled (by rw [blank]; rfl)
  have same := (lstrip_suffix_self (rstrip text)).getLast filled
  rw [same]
  exact List.rdropWhile_last_not isSpace text longer

/-- A trimmed text stays as it is. -/
@[simp] theorem strip_strip (text : Text) : strip (strip text) = strip text := by
  unfold strip
  rw [rstrip_lstrip_rstrip]
  exact List.dropWhile_idempotent isSpace _

theorem rstrip_append_of_blank {blank : Text} (spaces : ∀ c ∈ blank, isSpace c = true) (text : Text) :
    rstrip (text ++ blank) = rstrip text := by
  unfold rstrip
  rw [List.reverse_append, List.dropWhile_append_of_pos]
  intro c member
  exact spaces c (List.mem_reverse.mp member)

theorem lstrip_append_of_blank {blank : Text} (spaces : ∀ c ∈ blank, isSpace c = true) (text : Text) :
    lstrip (blank ++ text) = lstrip text :=
  List.dropWhile_append_of_pos spaces

theorem lstrip_blank {blank : Text} (spaces : ∀ c ∈ blank, isSpace c = true) : lstrip blank = [] :=
  List.dropWhile_eq_nil_iff.mpr spaces

/-- The two ends are trimmed in either order. -/
theorem strip_eq (text : Text) : strip text = rstrip (lstrip text) := by
  have parts : rstrip text ++ text.rtakeWhile isSpace = text :=
    List.rdropWhile_append_rtakeWhile
  have spaces : ∀ c ∈ text.rtakeWhile isSpace, isSpace c = true := fun c member =>
    List.mem_rtakeWhile_imp member
  have left : lstrip text = if (lstrip (rstrip text)).isEmpty then lstrip (text.rtakeWhile isSpace)
      else lstrip (rstrip text) ++ text.rtakeWhile isSpace := by
    conv_lhs => rw [← parts]
    exact List.dropWhile_append
  rw [left]
  split
  · next blank =>
    rw [lstrip_blank spaces]
    exact List.isEmpty_iff.mp blank
  · rw [rstrip_append_of_blank spaces, rstrip_lstrip_rstrip]
    rfl

theorem strip_append_of_blank {blank : Text} (spaces : ∀ c ∈ blank, isSpace c = true) (text : Text) :
    strip (blank ++ text) = strip text := by
  rw [strip_eq, strip_eq, lstrip_append_of_blank spaces]

/-- A text that is cut and trimmed twice is one that is cut and trimmed once. -/
theorem strip_take_strip (text : Text) (first second : Nat) :
    ∃ kept, strip ((strip (text.take first)).take second) = strip (text.take kept) := by
  obtain ⟨reach, cut⟩ : ∃ reach, rstrip (text.take first) = text.take reach := by
    have inside := (rstrip_isPrefix (text.take first)).trans (List.take_prefix first text)
    exact ⟨_, List.prefix_iff_eq_take.mp inside⟩
  have trimmed : strip (text.take first) = lstrip (text.take reach) := by rw [strip, cut]
  let lead := (text.take reach).takeWhile isSpace
  have parts : lead ++ lstrip (text.take reach) = text.take reach := List.takeWhile_append_dropWhile
  have spaces : ∀ c ∈ lead, isSpace c = true := fun c member => List.mem_takeWhile_imp member
  refine ⟨min (lead.length + second) reach, ?_⟩
  calc strip ((strip (text.take first)).take second)
      = strip (lead ++ (lstrip (text.take reach)).take second) := by
        rw [trimmed, strip_append_of_blank spaces]
    _ = strip ((lead ++ lstrip (text.take reach)).take (lead.length + second)) := by
        rw [List.take_length_add_append]
    _ = strip (text.take (min (lead.length + second) reach)) := by
        rw [parts, List.take_take]

/-- A text between two solid code points is trimmed. -/
theorem strip_solid {first last : Char} (start : isSpace first = false) (finish : isSpace last = false)
    (middle : Text) : strip (first :: (middle ++ [last])) = first :: (middle ++ [last]) := by
  have kept : rstrip (first :: (middle ++ [last])) = first :: (middle ++ [last]) := by
    apply List.rdropWhile_eq_self_iff.mpr
    intro filled
    simp [finish]
  rw [strip, kept]
  simp [lstrip, start]

end LumenCopilot.Python

namespace LumenCopilot.Python

section Chunks

variable (decoder : IncrementalDecoder)

/-- The chunks of two inputs are decoded one after the other. -/
theorem IncrementalDecoder.feedAll_append (state : decoder.State) (first second : List (List UInt8)) :
    decoder.feedAll state (first ++ second) =
      ((decoder.feedAll state first).1 ++ (decoder.feedAll (decoder.feedAll state first).2 second).1,
        (decoder.feedAll (decoder.feedAll state first).2 second).2) := by
  induction first generalizing state with
  | nil => rfl
  | cons chunk first ih =>
      simp only [List.cons_append, feedAll, ih, List.append_assoc]

end Chunks

namespace Utf8

/-- This is the text of an input from a state. -/
def run (state : Option Pending) (bytes : List UInt8) : Text :=
  (feed state bytes).1 ++ flush (feed state bytes).2

theorem run_cons (state : Option Pending) (byte : UInt8) (rest : List UInt8) :
    run state (byte :: rest) = (step state byte).1 ++ run (step state byte).2 rest := by
  simp only [run, feed, List.append_assoc]

/-- A sequence that has begun is completed or replaced. -/
theorem run_pending (pending : Pending) (bytes : List UInt8) (missing : 0 < pending.missing) :
    run (some pending) bytes =
      (if (takeTail pending.missing pending.bounds bytes).1.length = pending.missing then
        codePoint pending.lead (pending.tail ++ (takeTail pending.missing pending.bounds bytes).1)
      else replacement) :: run none (takeTail pending.missing pending.bounds bytes).2 := by
  induction bytes generalizing pending with
  | nil =>
      obtain ⟨lead, tail, count, bounds⟩ := pending
      obtain ⟨count, rfl⟩ := Nat.exists_eq_succ_of_ne_zero (Nat.ne_of_gt missing)
      rfl
  | cons byte rest ih =>
      obtain ⟨lead, tail, count, bounds⟩ := pending
      obtain ⟨count, rfl⟩ := Nat.exists_eq_succ_of_ne_zero (Nat.ne_of_gt missing)
      rw [run_cons]
      unfold step takeTail
      dsimp only
      by_cases valid : bounds.1 ≤ byte ∧ byte ≤ bounds.2
      · rw [if_pos valid, if_pos valid]
        by_cases last : count = 0
        · subst last
          rw [if_pos rfl]
          cases rest with
          | nil => rfl
          | cons next rest => rfl
        · rw [if_neg (by omega)]
          have later := ih ⟨lead, tail ++ [byte], count, (0x80, 0xBF)⟩
            (Nat.pos_of_ne_zero last)
          dsimp only at later
          rw [Nat.succ_sub_one, List.nil_append, later]
          simp only [List.length_cons, Nat.succ_eq_add_one, Nat.add_right_cancel_iff,
            List.append_assoc, List.singleton_append]
      · rw [if_neg valid, if_neg valid, if_neg (by rw [List.length_nil]; omega), run_cons]
        rfl

/-- The decoder that takes byte after byte decodes the whole. -/
theorem run_none (bytes : List UInt8) : run none bytes = decode bytes := by
  induction size : bytes.length using Nat.strong_induction_on generalizing bytes with
  | _ size ih =>
      cases bytes with
      | nil =>
          rw [decode]
          rfl
      | cons byte rest =>
          rw [List.length_cons] at size
          rw [run_cons, decode]
          unfold step begin
          dsimp only
          by_cases plain : tailLength byte = 0
          · rw [if_pos plain, if_pos plain]
            rw [ih rest.length (by omega) rest rfl]
            rfl
          · rw [if_neg plain, if_neg plain]
            have shorter := length_takeTail (tailLength byte) (tailBounds byte) rest
            rw [List.nil_append, run_pending _ _ (Nat.pos_of_ne_zero plain)]
            dsimp only
            rw [ih (takeTail (tailLength byte) (tailBounds byte) rest).2.length
              (by omega) _ rfl]
            rfl

theorem feed_append (state : Option Pending) (first second : List UInt8) :
    feed state (first ++ second) =
      ((feed state first).1 ++ (feed (feed state first).2 second).1,
        (feed (feed state first).2 second).2) := by
  induction first generalizing state with
  | nil => rfl
  | cons byte first ih =>
      simp only [List.cons_append, feed, ih, List.append_assoc]

theorem feedAll_decoder (state : Option Pending) (chunks : List (List UInt8)) :
    decoder.feedAll state chunks = feed state chunks.flatten := by
  induction chunks generalizing state with
  | nil => rfl
  | cons chunk chunks ih =>
      rw [List.flatten_cons, feed_append]
      show ((feed state chunk).1 ++ (decoder.feedAll (feed state chunk).2 chunks).1,
        (decoder.feedAll (feed state chunk).2 chunks).2) = _
      rw [ih]
      rfl

/-- The incremental decoder agrees with the decoding of the whole input. -/
theorem decoder_agrees : decoder.Agrees decode := by
  intro chunks
  rw [show decoder.start = (none : Option Pending) from rfl, feedAll_decoder, ← run_none]
  rfl

end Utf8

end LumenCopilot.Python
