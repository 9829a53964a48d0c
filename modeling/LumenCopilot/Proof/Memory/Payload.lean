import LumenCopilot.Construction.Memory.Payload
import LumenCopilot.Proof.Library.Partial
import LumenCopilot.Proof.Python.Loads
import LumenCopilot.Proof.Python.Methods

namespace LumenCopilot.Memory

open Library Python

variable {interpreter : Interpreter}

/-- These are the conditions that `parse_summary_payload` puts on a summary. -/
structure RollingSummary.Valid (interpreter : Interpreter) (summary : RollingSummary) : Prop where
  counted : ∀ field, (summary.get field).length ≤ maxItemsPerField
  checked : ∀ field, ∀ item ∈ summary.get field, validateItem interpreter (.str item) = .ok item
  filled : summary.total ≠ 0
  bounded : summary.total ≤ maxTotalChars
  stored : (serializeSummary summary).length ≤ maxSerializedChars

theorem raiseIf_eq_ok {condition : Prop} [Decidable condition] {error : SummaryValidationError}
    {result : Unit} : raiseIf condition error = .ok result ↔ ¬ condition := by
  unfold raiseIf
  split <;> simp_all

theorem raiseIf_pass {condition : Prop} [Decidable condition] (error : SummaryValidationError)
    (holds : ¬ condition) : raiseIf condition error = .ok () := if_neg holds

/-- A returned item is checked as it stands. -/
theorem validateItem_again {json : Json} {item : Text}
    (returned : validateItem interpreter json = .ok item) :
    validateItem interpreter (.str item) = .ok item := by
  cases json with
  | str text =>
      have trimmed : item = strip text := by
        obtain ⟨_, _, returned⟩ := bind_eq_ok returned
        obtain ⟨_, _, returned⟩ := bind_eq_ok returned
        obtain ⟨_, _, returned⟩ := bind_eq_ok returned
        exact (Except.ok.inj returned).symm
      subst trimmed
      rw [validateItem] at returned ⊢
      rw [strip_strip]
      exact returned
  | _ => simp [validateItem] at returned

variable {fields : List (Text × Json)}

theorem parseField_eq_ok {field : SummaryField} {items : List Text}
    (parsed : parseField interpreter fields field = .ok items) :
    items.length ≤ maxItemsPerField ∧
      ∀ item ∈ items, validateItem interpreter (.str item) = .ok item := by
  unfold parseField at parsed
  split at parsed
  · split at parsed
    · simp at parsed
    · next json _ few =>
      have each := (mapM_eq_ok_iff _ _ _).mp parsed
      refine ⟨by rw [← each.length_eq]; omega, ?_⟩
      intro item member
      obtain ⟨json, returned⟩ : ∃ json, validateItem interpreter json = .ok item := by
        obtain ⟨place, inside, here⟩ := List.getElem_of_mem member
        have known := List.Forall₂.get each (i := place) (by rw [each.length_eq]; exact inside) inside
        exact ⟨_, by rw [← here]; exact known⟩
      exact validateItem_again returned
  · simp at parsed

variable {summary : RollingSummary}

/-- Every field of a parsed summary is parsed, and the limits of the whole hold. -/
theorem parseFields_each (parsed : parseFields interpreter fields = .ok summary) :
    (∀ field, parseField interpreter fields field = .ok (summary.get field)) ∧
      summary.total ≠ 0 ∧ summary.total ≤ maxTotalChars ∧
      (serializeSummary summary).length ≤ maxSerializedChars := by
  obtain ⟨_, _, parsed⟩ := bind_eq_ok parsed
  obtain ⟨_, _, parsed⟩ := bind_eq_ok parsed
  obtain ⟨facts, factsParsed, parsed⟩ := bind_eq_ok parsed
  obtain ⟨decisions, decisionsParsed, parsed⟩ := bind_eq_ok parsed
  obtain ⟨questions, questionsParsed, parsed⟩ := bind_eq_ok parsed
  obtain ⟨refs, refsParsed, parsed⟩ := bind_eq_ok parsed
  obtain ⟨_, filled, parsed⟩ := bind_eq_ok parsed
  obtain ⟨_, bounded, parsed⟩ := bind_eq_ok parsed
  obtain ⟨_, stored, parsed⟩ := bind_eq_ok parsed
  obtain rfl := Except.ok.inj parsed
  refine ⟨?_, raiseIf_eq_ok.mp filled, Nat.not_lt.mp (raiseIf_eq_ok.mp bounded),
    Nat.not_lt.mp (raiseIf_eq_ok.mp stored)⟩
  intro field
  cases field <;> assumption

/-- Parsed fields are a valid summary. -/
theorem parseFields_valid (parsed : parseFields interpreter fields = .ok summary) :
    summary.Valid interpreter := by
  obtain ⟨each, filled, bounded, stored⟩ := parseFields_each parsed
  exact {
    counted := fun field => (parseField_eq_ok (each field)).1
    checked := fun field => (parseField_eq_ok (each field)).2
    filled := filled
    bounded := bounded
    stored := stored }

/-- `parse_summary_payload` returns valid summaries only. -/
theorem parseSummaryPayload_valid {text : Text}
    (parsed : parseSummaryPayload interpreter text = .ok summary) : summary.Valid interpreter := by
  obtain ⟨_, _, parsed⟩ := bind_eq_ok parsed
  obtain ⟨_, _, parsed⟩ := bind_eq_ok parsed
  split at parsed
  · exact parseFields_valid parsed
  all_goals simp at parsed

theorem payload_keys (summary : RollingSummary) :
    summary.payload.map Prod.fst = summaryFields.map SummaryField.key := by
  rw [RollingSummary.payload, List.map_map]
  rfl

theorem lookup_payload (summary : RollingSummary) (field : SummaryField) :
    summary.payload.lookup field.key = some (Json.list ((summary.get field).map .str)) := by
  cases field <;> rfl

theorem parseField_payload (summary : RollingSummary) (valid : summary.Valid interpreter)
    (field : SummaryField) :
    parseField interpreter summary.payload field = .ok (summary.get field) := by
  have few : ¬ maxItemsPerField < ((summary.get field).map Json.str).length := by
    rw [List.length_map]
    exact Nat.not_lt.mpr (valid.counted field)
  simp only [parseField, lookup_payload, few, if_false]
  apply (mapM_eq_ok_iff _ _ _).mpr
  rw [List.forall₂_map_left_iff, List.forall₂_same]
  exact valid.checked field

/-- The dictionary of a valid summary is parsed to the summary. -/
theorem parseFields_payload (summary : RollingSummary) (valid : summary.Valid interpreter) :
    parseFields interpreter summary.payload = .ok summary := by
  have known : ¬ ∃ key ∈ summaryFields.map SummaryField.key,
      key ∉ summaryFields.map SummaryField.key := by
    rintro ⟨key, member, absent⟩
    exact absent member
  have same : RollingSummary.mk (summary.get .facts) (summary.get .decisions)
      (summary.get .openQuestions) (summary.get .evidenceRefs) = summary := rfl
  simp only [parseFields, payload_keys, parseField_payload summary valid, ok_bind, same,
    raiseIf_pass _ known, raiseIf_pass _ valid.filled,
    raiseIf_pass _ (Nat.not_lt.mpr valid.bounded), raiseIf_pass _ (Nat.not_lt.mpr valid.stored)]

theorem payload_reads (summary : RollingSummary) (nesting : Nat) :
    Json.Reads (Json.scanValue uniqueObject (nesting + 2)) (.dict summary.payload) := by
  apply Json.Reads.dict
  · intro field listed
    obtain ⟨name, -, rfl⟩ := List.mem_map.mp listed
    apply Json.Reads.list
    intro item member
    obtain ⟨text, -, rfl⟩ := List.mem_map.mp member
    exact Json.Reads.str uniqueObject nesting text
  · rw [uniqueObject, payload_keys, if_pos (by decide)]

/-- The reader takes a serialized summary back. -/
theorem loads_serializeSummary (interpreter : Interpreter) (summary : RollingSummary) :
    Json.loads uniqueObject interpreter.nesting (serializeSummary summary) =
      .ok (.dict summary.payload) := by
  obtain ⟨nesting, deep⟩ := Nat.exists_eq_add_of_le' interpreter.nests
  rw [deep]
  exact Json.loads_reads uniqueObject (payload_reads summary nesting) rfl

theorem strip_serializeSummary (summary : RollingSummary) :
    strip (serializeSummary summary) = serializeSummary summary :=
  strip_solid (by decide) (by decide) _

/-- A valid summary is parsed back from its serialized form. -/
theorem parseSummaryPayload_serialize (valid : summary.Valid interpreter) :
    parseSummaryPayload interpreter (serializeSummary summary) = .ok summary := by
  have filled : serializeSummary summary ≠ [] := by
    rw [serializeSummary, Json.dumpsCompact]
    exact List.cons_ne_nil _ _
  simp only [parseSummaryPayload, strip_serializeSummary, raiseIf_pass _ filled, ok_bind,
    raiseIf_pass _ (Nat.not_lt.mpr valid.stored), loads_serializeSummary]
  exact parseFields_payload summary valid

/-- Parsing gives back what it has returned from the serialized form, and a stored text that is read
stays as it is. -/
theorem parseSummaryPayload_roundTrip (interpreter : Interpreter) (text : Text) :
    (∀ summary, parseSummaryPayload interpreter text = .ok summary →
      parseSummaryPayload interpreter (serializeSummary summary) = .ok summary) ∧
    ∀ stored output code, storedSummaryText interpreter stored = .ok (some output, code) →
      storedSummaryText interpreter (some output) = .ok (some output, none) := by
  refine ⟨fun summary parsed => parseSummaryPayload_serialize (parseSummaryPayload_valid parsed), ?_⟩
  intro stored output code returned
  unfold storedSummaryText at returned
  cases stored with
  | none => simp at returned
  | some text =>
      dsimp only at returned
      split at returned
      · simp at returned
      · split at returned
        · next summary parsed =>
          have written : serializeSummary summary = output ∧ none = code := by simpa using returned
          obtain ⟨rfl, -⟩ := written
          have again := parseSummaryPayload_serialize (parseSummaryPayload_valid parsed)
          have filled : isBlank (serializeSummary summary) = false := rfl
          simp [storedSummaryText, filled, again]
        · simp at returned
        · simp at returned

theorem parseSummaryPayload_roundTrip_spaced :
    parseSummaryPayload .plain (serializeSummary ⟨["a \"b\"".toList], [], [], []⟩) =
      .ok ⟨["a \"b\"".toList], [], [], []⟩ :=
  (parseSummaryPayload_roundTrip .plain
    (" \x7b\"facts\": [\" a \\u0022b\\\"\"], \"evidence_refs\": [], \"decisions\": [],".toList ++
      " \"open_questions\": []\x7d\n".toList)).1 _ (by decide +kernel)

end LumenCopilot.Memory
