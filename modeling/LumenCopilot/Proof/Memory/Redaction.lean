import LumenCopilot.Proof.Library.Lists
import LumenCopilot.Proof.Library.Substitution
import LumenCopilot.Proof.Memory.Payload

namespace LumenCopilot.Memory

open Library Python

variable {interpreter : Interpreter} {names : List Text}

/-- This is the length of the quoted item in the serialized form. -/
def quotedLength (item : Text) : Nat := (Json.quoteUnicode item).length

theorem length_escapeControl_pos (c : Char) : 1 ≤ (Json.escapeControl c).length := by
  unfold Json.escapeControl
  dsimp only
  repeat' split
  all_goals simp [Json.escapeUnit]

theorem length_le_flatMap_escapeControl (text : Text) :
    text.length ≤ (text.flatMap Json.escapeControl).length := by
  induction text with
  | nil => simp
  | cons c text ih =>
      have one := length_escapeControl_pos c
      rw [List.flatMap_cons, List.length_append, List.length_cons]
      omega

/-- A part of a text saves at least as many characters in its quoted form. -/
theorem quotedLength_infix {part text : Text} (inside : part <:+: text) :
    quotedLength part + (text.length - part.length) ≤ quotedLength text := by
  obtain ⟨before, after, rfl⟩ := inside
  have early := length_le_flatMap_escapeControl before
  have late := length_le_flatMap_escapeControl after
  simp only [quotedLength, Json.quoteUnicode, List.flatMap_append, List.length_cons,
    List.length_append, List.length_nil]
  omega

theorem dumpItemsCompact_snoc (items : List Json) (item : Json) :
    (Json.dumpItemsCompact (items ++ [item])).length =
      (if items = [] then 0 else (Json.dumpItemsCompact items).length + 1) +
        item.dumpsCompact.length := by
  induction items with
  | nil => simp [Json.dumpItemsCompact]
  | cons head tail ih =>
      cases tail with
      | nil =>
          simp only [List.cons_append, List.nil_append, Json.dumpItemsCompact, List.length_append,
            List.length_cons, List.length_nil, reduceCtorEq, if_false]
      | cons next later =>
          have others : (next :: later) ++ [item] = next :: (later ++ [item]) := rfl
          rw [others] at ih
          simp only [List.cons_append, Json.dumpItemsCompact, List.length_append,
            ih, reduceCtorEq, if_false]
          omega

/-- One item adds its quoted length to the serialized form. -/
theorem length_serializeSummary_append (summary : RollingSummary) (field : SummaryField) :
    ∃ base, ∀ item,
      (serializeSummary (summary.append field item)).length = base + quotedLength item := by
  have grown := dumpItemsCompact_snoc ((summary.get field).map .str)
  refine ⟨(serializeSummary (summary.append field [])).length - 2, fun item => ?_⟩
  have long := grown (.str item)
  have short := grown (.str [])
  cases field <;>
    simp only [serializeSummary, RollingSummary.payload, RollingSummary.append, RollingSummary.get,
      summaryFields, List.map_cons, List.map_nil, Json.dumpsCompact, Json.dumpFieldsCompact,
      List.length_append, List.length_cons, List.map_append, List.length_nil] at long short ⊢ <;>
    simp only [long, short, quotedLength, Json.quoteUnicode, List.flatMap_nil, List.length_append,
      List.length_cons, List.length_nil] <;> omega

@[simp] theorem get_append_self (summary : RollingSummary) (field : SummaryField) (item : Text) :
    (summary.append field item).get field = summary.get field ++ [item] := by
  cases field <;> rfl

theorem get_append_other (summary : RollingSummary) {field other : SummaryField} (item : Text)
    (different : other ≠ field) : (summary.append field item).get other = summary.get other := by
  cases field <;> cases other <;> first | rfl | exact absurd rfl different

theorem total_append (summary : RollingSummary) (field : SummaryField) (item : Text) :
    (summary.append field item).total = summary.total + item.length := by
  cases field <;>
    simp only [RollingSummary.total, RollingSummary.items, summaryFields, RollingSummary.append,
      RollingSummary.get, List.flatMap_cons, List.flatMap_nil, List.map_append, List.sum_append,
      List.map_cons, List.map_nil, List.sum_cons, List.sum_nil] <;> omega

/-- An image of an item has its names replaced, and is cut and trimmed. -/
def Image (names : List Text) (image item : Text) : Prop :=
  ∃ kept, image = strip ((replaceNames names item).take kept)

/-- The item is trimmed, not empty and within the limit of one item. -/
def Presentable (item : Text) : Prop := item ≠ [] ∧ strip item = item ∧ item.length ≤ maxItemChars

/-- The items so far keep to every limit. -/
structure Redaction.Fits (state : Redaction) : Prop where
  counted : state.fields.total + state.remaining = maxTotalChars
  stored : (serializeSummary state.fields).length ≤ maxSerializedChars
  presentable : ∀ field, ∀ item ∈ state.fields.get field, Presentable item

/-- This is the item that a round appends when it is not empty. -/
def Redaction.cut (names : List Text) (field : SummaryField) (state : Redaction) (item : Text) : Text :=
  let item := strip ((replaceNames names item).take (min maxItemChars state.remaining))
  let overflow := (serializeSummary (state.fields.append field item)).length - maxSerializedChars
  if 0 < overflow then strip (item.take (item.length - overflow)) else item

section

variable (field : SummaryField) (state : Redaction) (item : Text)

theorem Redaction.add_eq :
    state.add names field item =
      ⟨if state.cut names field item = [] then state.fields
        else state.fields.append field (state.cut names field item),
        state.remaining - (state.cut names field item).length⟩ := rfl

theorem Redaction.cut_image : Image names (state.cut names field item) item := by
  unfold Redaction.cut
  dsimp only
  split
  · exact strip_take_strip _ _ _
  · exact ⟨_, rfl⟩

theorem Redaction.cut_length :
    (state.cut names field item).length ≤ min maxItemChars state.remaining := by
  have first : (strip ((replaceNames names item).take (min maxItemChars state.remaining))).length ≤
      min maxItemChars state.remaining :=
    (length_strip_le _).trans (List.length_take_le _ _)
  unfold Redaction.cut
  dsimp only
  split
  · exact ((length_strip_le _).trans (List.length_take_le' _ _)).trans first
  · exact first

theorem Redaction.strip_cut : strip (state.cut names field item) = state.cut names field item := by
  obtain ⟨kept, cut⟩ := Redaction.cut_image field state item
  rw [cut, strip_strip]

/-- The overflow is cut off, whatever the characters cost in the serialized form. -/
theorem Redaction.cut_stored (filled : state.cut names field item ≠ []) :
    (serializeSummary (state.fields.append field (state.cut names field item))).length ≤
      maxSerializedChars := by
  obtain ⟨base, grown⟩ := length_serializeSummary_append state.fields field
  unfold Redaction.cut at filled ⊢
  dsimp only at filled ⊢
  split
  · next spills =>
    rw [if_pos spills] at filled
    generalize strip ((replaceNames names item).take (min maxItemChars state.remaining)) = whole
      at spills filled ⊢
    generalize cutOff : (serializeSummary (state.fields.append field whole)).length -
      maxSerializedChars = overflow at spills filled ⊢
    have inside : strip (whole.take (whole.length - overflow)) <:+: whole :=
      (strip_isInfix _).trans (List.take_prefix _ _).isInfix
    have saved := quotedLength_infix inside
    have short := length_strip_le (whole.take (whole.length - overflow))
    have some : 0 < (strip (whole.take (whole.length - overflow))).length :=
      List.length_pos_iff.mpr filled
    rw [List.length_take] at short
    rw [grown] at cutOff ⊢
    omega
  · next within => exact Nat.sub_eq_zero_iff_le.mp (Nat.eq_zero_of_not_pos within)

end

/-- One round keeps to every limit. -/
theorem Redaction.Fits.add {state : Redaction} (fits : state.Fits) (field : SummaryField)
    (item : Text) : (state.add names field item).Fits := by
  have short : (state.cut names field item).length ≤ min maxItemChars state.remaining :=
    Redaction.cut_length field state item
  have room := short.trans (Nat.min_le_right _ _)
  have counted := fits.counted
  rw [Redaction.add_eq]
  by_cases blank : state.cut names field item = []
  · rw [if_pos blank, blank]
    exact { counted := by simpa using counted, stored := fits.stored, presentable := fits.presentable }
  · rw [if_neg blank]
    refine { counted := ?_, stored := state.cut_stored field item blank, presentable := ?_ }
    · dsimp only
      rw [total_append, Nat.add_assoc, Nat.add_sub_cancel' room]
      exact counted
    · intro other member listed
      by_cases same : other = field
      · subst same
        rw [get_append_self] at listed
        rcases List.mem_append.mp listed with old | new
        · exact fits.presentable other member old
        · rw [List.mem_singleton.mp new]
          have limited := short.trans (Nat.min_le_left _ _)
          exact And.intro blank (And.intro (state.strip_cut other item) limited)
      · rw [get_append_other _ _ same] at listed
        exact fits.presentable other member listed

/-- The inner loop extends its field by images of the items in order. -/
theorem Redaction.inner_loop (field : SummaryField) (items : List Text) (state : Redaction)
    (fits : state.Fits) :
    let after := items.foldl (Redaction.add names field) state
    after.Fits ∧ (∀ other, other ≠ field → after.fields.get other = state.fields.get other) ∧
      ∃ added, after.fields.get field = state.fields.get field ++ added ∧
        List.SublistForall₂ (Image names) added items := by
  induction items generalizing state with
  | nil => exact ⟨fits, fun _ _ => rfl, [], (List.append_nil _).symm, .nil⟩
  | cons item later ih =>
      obtain ⟨done, others, added, extends_, images⟩ :=
        ih (state.add names field item) (fits.add field item)
      rw [List.foldl_cons]
      refine ⟨done, ?_, ?_⟩
      · intro other different
        rw [others other different, Redaction.add_eq]
        dsimp only
        split
        · rfl
        · exact get_append_other _ _ different
      · rw [extends_, Redaction.add_eq]
        dsimp only
        split
        · exact ⟨added, rfl, .cons_right images⟩
        · rw [get_append_self, List.append_assoc]
          exact ⟨_, rfl, .cons (Redaction.cut_image field state item) images⟩

/-- The outer loop gives every field the images of its items in order. -/
theorem Redaction.outer_loop (summary : RollingSummary) (fields : List SummaryField)
    (distinct : fields.Nodup) (state : Redaction) (fits : state.Fits) :
    let after := fields.foldl (fun (state : Redaction) field =>
      (summary.get field).foldl (Redaction.add names field) state) state
    after.Fits ∧ (∀ field, field ∉ fields → after.fields.get field = state.fields.get field) ∧
      ∀ field ∈ fields, ∃ added, after.fields.get field = state.fields.get field ++ added ∧
        List.SublistForall₂ (Image names) added (summary.get field) := by
  induction fields generalizing state with
  | nil => exact ⟨fits, fun _ _ => rfl, nofun⟩
  | cons first later ih =>
      obtain ⟨absent, distinct⟩ := List.nodup_cons.mp distinct
      obtain ⟨done, others, added, extends_, images⟩ :=
        @Redaction.inner_loop names first (summary.get first) state fits
      obtain ⟨finished, kept, reached⟩ := ih distinct _ done
      rw [List.foldl_cons]
      refine ⟨finished, ?_, ?_⟩
      · intro field outside
        obtain ⟨different, outside⟩ := not_or.mp (mt List.mem_cons.mpr outside)
        rw [kept field outside, others field different]
      · intro field listed
        rcases List.mem_cons.mp listed with rfl | listed
        · exact ⟨added, by rw [kept field absent, extends_], images⟩
        · have different : field ≠ first := fun same => absent (same ▸ listed)
          rw [← others field different]
          exact reached field listed

theorem Redaction.initial_fits : Redaction.Fits ⟨.empty, maxTotalChars⟩ where
  counted := Nat.zero_add _
  stored := by decide
  presentable field item listed := by cases field <;> exact absurd listed List.not_mem_nil

/-- The redacted items are images of the items in order, and keep to every limit. -/
theorem redactItems_fits (names : List Text) (summary : RollingSummary) :
    (redactItems names summary).total ≤ maxTotalChars ∧
      (serializeSummary (redactItems names summary)).length ≤ maxSerializedChars ∧
      (∀ field, ∀ item ∈ (redactItems names summary).get field, Presentable item) ∧
      ∀ field, List.SublistForall₂ (Image names) ((redactItems names summary).get field)
        (summary.get field) := by
  obtain ⟨fits, -, reached⟩ := @Redaction.outer_loop names summary summaryFields (by decide)
    ⟨.empty, maxTotalChars⟩ Redaction.initial_fits
  refine ⟨Nat.le.intro fits.counted, fits.stored, fits.presentable, fun field => ?_⟩
  obtain ⟨added, same, images⟩ := reached field (by cases field <;> decide)
  have start : RollingSummary.empty.get field = [] := by cases field <;> rfl
  rw [start, List.nil_append] at same
  exact same.symm ▸ images

variable {summary : RollingSummary}

theorem mem_items {item : Text} : item ∈ summary.items ↔ ∃ field, item ∈ summary.get field := by
  rw [RollingSummary.items, List.mem_flatMap]
  constructor
  · rintro ⟨field, -, listed⟩
    exact ⟨field, listed⟩
  · rintro ⟨field, listed⟩
    exact ⟨field, by cases field <;> decide, listed⟩

/-- A presentable item is checked for its content only. -/
theorem validateItem_presentable {item : Text} (presentable : Presentable item) :
    validateItem interpreter (.str item) = .ok item ↔ contentCheck interpreter item = .ok () := by
  obtain ⟨filled, trimmed, short⟩ := presentable
  simp only [validateItem, trimmed, raiseIf_pass _ filled, raiseIf_pass _ (Nat.not_lt.mpr short),
    ok_bind]
  cases checked : contentCheck interpreter item with
  | ok done => simp
  | error raised => simp

/-- A returned item is presentable. -/
theorem presentable_of_validateItem {item : Text}
    (returned : validateItem interpreter (.str item) = .ok item) : Presentable item := by
  obtain ⟨_, filled, returned⟩ := bind_eq_ok returned
  obtain ⟨_, short, returned⟩ := bind_eq_ok returned
  obtain ⟨_, _, returned⟩ := bind_eq_ok returned
  have trimmed := Except.ok.inj returned
  rw [trimmed] at filled short
  exact And.intro (raiseIf_eq_ok.mp filled)
    (And.intro trimmed (Nat.not_lt.mp (raiseIf_eq_ok.mp short)))

theorem total_eq_zero_iff (filled : ∀ item ∈ summary.items, item ≠ []) :
    summary.total = 0 ↔ summary.items = [] := by
  rw [RollingSummary.total, List.sum_eq_zero_iff]
  constructor
  · intro zero
    apply List.eq_nil_iff_forall_not_mem.mpr
    intro item listed
    exact filled item listed (List.eq_nil_of_length_eq_zero (zero _ (List.mem_map_of_mem listed)))
  · intro none
    rw [none]
    nofun

/-- A field that parses has items that pass the content checks. -/
theorem contentCheck_of_parseField {field : SummaryField} {items : List Text}
    (presentable : ∀ item ∈ summary.get field, Presentable item)
    (parsed : parseField interpreter summary.payload field = .ok items) :
    ∀ item ∈ summary.get field, contentCheck interpreter item = .ok () := by
  unfold parseField at parsed
  rw [lookup_payload] at parsed
  dsimp only at parsed
  split at parsed
  · simp at parsed
  · have each := (mapM_eq_ok_iff _ _ _).mp parsed
    rw [List.forall₂_map_left_iff] at each
    intro item listed
    obtain ⟨place, inside, here⟩ := List.getElem_of_mem listed
    have known := List.Forall₂.get each inside (by rw [← each.length_eq]; exact inside)
    rw [List.get_eq_getElem, here] at known
    obtain ⟨filled, trimmed, short⟩ := presentable item listed
    simp only [validateItem, trimmed] at known
    obtain ⟨_, _, known⟩ := bind_eq_ok known
    obtain ⟨_, _, known⟩ := bind_eq_ok known
    obtain ⟨_, checked, _⟩ := bind_eq_ok known
    exact checked

/-- A summary whose serialized form parses has items that pass the content checks. -/
theorem contentCheck_of_parse {again : RollingSummary}
    (presentable : ∀ field, ∀ item ∈ summary.get field, Presentable item)
    (parsed : parseSummaryPayload interpreter (serializeSummary summary) = .ok again) :
    ∀ item ∈ summary.items, contentCheck interpreter item = .ok () := by
  simp only [parseSummaryPayload, strip_serializeSummary, loads_serializeSummary] at parsed
  obtain ⟨_, _, parsed⟩ := bind_eq_ok parsed
  obtain ⟨_, _, parsed⟩ := bind_eq_ok parsed
  intro item listed
  obtain ⟨field, listed⟩ := mem_items.mp listed
  exact contentCheck_of_parseField (presentable field) ((parseFields_each parsed).1 field) item listed

theorem serializeSummary_injective : Function.Injective serializeSummary := by
  intro first second same
  have read := loads_serializeSummary .plain first
  rw [same, loads_serializeSummary] at read
  have fields : second.payload = first.payload := by
    simpa only [Except.ok.injEq, Json.dict.injEq] using read
  have each : ∀ field, second.get field = first.get field := by
    intro field
    have found := lookup_payload second field
    rw [fields, lookup_payload] at found
    have lists : (first.get field).map Json.str = (second.get field).map Json.str := by
      simpa only [Option.some.injEq, Json.list.injEq] using found
    exact (List.map_injective_iff.mpr (fun _ _ equal => Json.str.inj equal) lists).symm
  have parts := And.intro (each .facts) (And.intro (each .decisions)
    (And.intro (each .openQuestions) (each .evidenceRefs)))
  obtain ⟨facts, decisions, questions, refs⟩ := first
  simp only [RollingSummary.get] at parts
  obtain ⟨rfl, rfl, rfl, rfl⟩ := parts
  rfl

/-- Redaction returns a text with trimmed and cut images of the items in order, and it parses unless
nothing is left. -/
def KeepsDataValid (interpreter : Interpreter) (stored : Text) (names : List Text)
    (summary : RollingSummary) : Prop :=
  ∃ redacted, redactSummaryNames interpreter stored names = .ok (some (serializeSummary redacted)) ∧
    (∀ field, List.SublistForall₂ (Image names) (redacted.get field) (summary.get field)) ∧
    (redacted.items ≠ [] →
      parseSummaryPayload interpreter (serializeSummary redacted) = .ok redacted)

/-- Redacted items that pass the content checks are a valid summary. -/
theorem redactItems_valid (valid : summary.Valid interpreter)
    (clean : ∀ item ∈ (redactItems names summary).items, contentCheck interpreter item = .ok ())
    (some : (redactItems names summary).items ≠ []) :
    (redactItems names summary).Valid interpreter := by
  obtain ⟨bounded, stored, presentable, images⟩ := redactItems_fits names summary
  exact {
    counted := by
      intro field
      obtain ⟨kept, each, part⟩ := List.sublistForall₂_iff.mp (images field)
      rw [each.length_eq]
      exact part.length_le.trans (valid.counted field)
    checked := fun field item listed =>
      (validateItem_presentable (presentable field item listed)).mpr
        (clean item (mem_items.mpr ⟨field, listed⟩))
    filled := by
      intro zero
      refine some ((total_eq_zero_iff ?_).mp zero)
      intro item listed
      obtain ⟨field, listed⟩ := mem_items.mp listed
      exact (presentable field item listed).1
    bounded := bounded
    stored := stored }

theorem redactSummaryNames_eq {stored : Text}
    (parsed : parseSummaryPayload interpreter stored = .ok summary) :
    redactSummaryNames interpreter stored names =
      .ok (some (serializeSummary (redactItems names summary))) := by
  rw [redactSummaryNames, parsed]

end LumenCopilot.Memory

namespace LumenCopilot.Memory

open Library Python

variable {interpreter : Interpreter} {names : List Text}

/-- The name has no square bracket and does not occur in the marker. -/
def Plain (name : Text) : Prop := '[' ∉ name ∧ ']' ∉ name ∧ ¬ name <:+: accessMarker

theorem Plain.foreign {name : Text} (plain : Plain name) : Foreign accessMarker name :=
  Foreign.of_ends "document no longer accessible".toList plain.1 plain.2.1 plain.2.2

theorem foldl_replace (plain : ∀ name ∈ names, Plain name) (letters : List (Option Char)) :
    names.foldl (fun item name => replace name accessMarker item) (expand accessMarker letters) =
      expand accessMarker (names.foldl (fun letters name =>
        substitute (name.map some) [none] letters) letters) := by
  induction names generalizing letters with
  | nil => rfl
  | cons name names ih =>
      have foreign := (plain name List.mem_cons_self).foreign
      rw [List.foldl_cons, List.foldl_cons, replace, substitute_expand foreign]
      exact ih (fun other listed => plain other (List.mem_cons_of_mem _ listed)) _

/-- Names that are apart in the item are replaced all at once. -/
theorem replaceNames_eq (plain : ∀ name ∈ names, Plain name) {item : Text} (apart : Apart names item) :
    replaceNames names item = expand accessMarker (marked names 0 item) := by
  have filled : ∀ name ∈ names, name ≠ [] := fun name listed => (plain name listed).foreign.filled
  have kept : names.filter (· ≠ []) = names :=
    List.filter_eq_self.mpr fun name listed => by simpa using filled name listed
  have start := foldl_replace plain (item.map some)
  rw [expand_map_some, foldl_substitute filled apart] at start
  rw [replaceNames, kept, start]

instance (name : Text) : Decidable (Plain name) := inferInstanceAs (Decidable (_ ∧ _))

/-- The image shows exactly the characters of the item outside of every occurrence of a name, up to
a cut; markers stand beside them. -/
def Shows (names : List Text) (image item : Text) : Prop :=
  ∃ letters kept, image = strip ((expand accessMarker letters).take kept) ∧
    letters.reduceOption = Library.uncovered names item

/-- Redaction in every order of the names returns one text, in which no item has a name and no
character of an occurrence of a name is left outside of the marker. -/
def RemovesNames (interpreter : Interpreter) (stored : Text) (names : List Text)
    (summary : RollingSummary) : Prop :=
  ∃ redacted, (∀ order, order.Perm names →
      redactSummaryNames interpreter stored order = .ok (some (serializeSummary redacted))) ∧
    (∀ item ∈ redacted.items, ∀ name ∈ names, ¬ name <:+: item) ∧
    ∀ field, List.SublistForall₂ (Shows names) (redacted.get field) (summary.get field)

/-- The redacted items depend on the items with their names replaced only. -/
theorem redactItems_congr {order : List Text} (summary : RollingSummary)
    (same : ∀ item ∈ summary.items, replaceNames order item = replaceNames names item) :
    redactItems order summary = redactItems names summary := by
  refine congrArg Redaction.fields (List.foldl_ext _ _ _ ?_)
  intro state field _
  refine List.foldl_ext _ _ _ ?_
  intro state item listed
  rw [Redaction.add, Redaction.add, same item (mem_items.mpr ⟨field, listed⟩)]

/-- Names whose occurrences do not overlap are removed whole in every order. -/
theorem redactSummaryNames_removes (interpreter : Interpreter) (stored : Text) (names : List Text)
    (summary : RollingSummary) (parsed : parseSummaryPayload interpreter stored = .ok summary)
    (plain : ∀ name ∈ names, Plain name)
    (apart : ∀ item ∈ summary.items, Apart names item ∧ Exhausted names item) :
    RemovesNames interpreter stored names summary := by
  have filled : ∀ name ∈ names, name ≠ [] := fun name listed => (plain name listed).foreign.filled
  have images := (redactItems_fits names summary).2.2.2
  refine ⟨redactItems names summary, ?_, ?_, ?_⟩
  · intro order perm
    rw [redactSummaryNames_eq parsed, redactItems_congr]
    intro item listed
    have apartHere := (apart item listed).1
    have apartOrder : Apart order item := fun name known other member =>
      apartHere name (perm.mem_iff.mp known) other (perm.mem_iff.mp member)
    rw [replaceNames_eq plain apartHere,
      replaceNames_eq (fun name known => plain name (perm.mem_iff.mp known)) apartOrder,
      marked_congr filled apartHere fun name => perm.mem_iff.symm]
  · intro image listed name known inside
    obtain ⟨field, listed⟩ := mem_items.mp listed
    obtain ⟨item, member, cut, rfl⟩ := exists_of_mem_sublist (images field) listed
    have apartHere := (apart item (mem_items.mpr ⟨field, member⟩)).1
    rw [replaceNames_eq plain apartHere] at inside
    have whole := (inside.trans (strip_isInfix _)).trans (List.take_prefix cut _).isInfix
    exact not_infix_marked filled known ((plain name known).foreign.infix_expand _ whole)
  · intro field
    apply sublistForall₂_imp (images field)
    rintro image item member ⟨cut, rfl⟩
    obtain ⟨apartHere, exhausted⟩ := apart item (mem_items.mpr ⟨field, member⟩)
    rw [replaceNames_eq plain apartHere]
    exact ⟨_, cut, rfl, reduceOption_marked_eq_uncovered filled apartHere exhausted⟩

theorem redactSummaryNames_removes_two :
    RemovesNames .plain (serializeSummary ⟨["Report 2024 replaces Plan 7.".toList], [], [], []⟩)
      ["Plan 7".toList, "Report 2024".toList] ⟨["Report 2024 replaces Plan 7.".toList], [], [], []⟩ :=
  redactSummaryNames_removes .plain
    (serializeSummary ⟨["Report 2024 replaces Plan 7.".toList], [], [], []⟩)
    ["Plan 7".toList, "Report 2024".toList] ⟨["Report 2024 replaces Plan 7.".toList], [], [], []⟩
    (by decide +kernel) (by decide) (by decide)

/-- A shorter name that is replaced first leaves the rest of the longer one. -/
theorem redactSummaryNames_leaves :
    ¬ ∀ (interpreter : Interpreter) stored names summary,
      parseSummaryPayload interpreter stored = .ok summary → (∀ name ∈ names, Plain name) →
        RemovesNames interpreter stored names summary := by
  intro always
  obtain ⟨redacted, returned, -⟩ := always .plain
    (serializeSummary ⟨["It quotes Report 2024.".toList], [], [], []⟩)
    ["Report".toList, "Report 2024".toList] ⟨["It quotes Report 2024.".toList], [], [], []⟩
    (by decide +kernel) (by decide)
  have stored := returned _ (List.Perm.refl _)
  have swapped := returned ["Report 2024".toList, "Report".toList] (List.Perm.swap _ _ _)
  rw [← stored] at swapped
  revert swapped
  decide +kernel

end LumenCopilot.Memory
