import LumenCopilot.Construction.Python.Loads
import LumenCopilot.Construction.Python.Text

namespace LumenCopilot.Memory

open Python

/-- These are the Unicode data of the interpreter and how deep its JSON reader nests. -/
structure Interpreter where
  table : UnicodeTable
  nesting : Nat
  nests : 2 ≤ nesting

/-- These are the data above ASCII as uncased symbols, and the default recursion limit. -/
def Interpreter.plain : Interpreter := ⟨.symbols, 1000, by decide⟩

/-- This is `_MAX_ITEMS_PER_FIELD`. -/
def maxItemsPerField : Nat := 20

/-- This is `_MAX_ITEM_CHARS`. -/
def maxItemChars : Nat := 500

/-- This is `_MAX_TOTAL_CHARS`. -/
def maxTotalChars : Nat := 5500

/-- This is `_MAX_SERIALIZED_CHARS`. -/
def maxSerializedChars : Nat := 6000

/-- These are the names of `SUMMARY_FIELDS`. -/
inductive SummaryField where
  | facts
  | decisions
  | openQuestions
  | evidenceRefs
  deriving DecidableEq

/-- This is the key of a field. -/
def SummaryField.key : SummaryField → Text
  | .facts => "facts".toList
  | .decisions => "decisions".toList
  | .openQuestions => "open_questions".toList
  | .evidenceRefs => "evidence_refs".toList

/-- This is `SUMMARY_FIELDS`. -/
def summaryFields : List SummaryField := [.facts, .decisions, .openQuestions, .evidenceRefs]

/-- This is `RollingSummary`. -/
structure RollingSummary where
  facts : List Text
  decisions : List Text
  openQuestions : List Text
  evidenceRefs : List Text
  deriving DecidableEq

/-- This is a summary without items. -/
def RollingSummary.empty : RollingSummary := ⟨[], [], [], []⟩

/-- This is `getattr(summary, field)`. -/
def RollingSummary.get (summary : RollingSummary) : SummaryField → List Text
  | .facts => summary.facts
  | .decisions => summary.decisions
  | .openQuestions => summary.openQuestions
  | .evidenceRefs => summary.evidenceRefs

/-- This is `fields[field] += (item,)`. -/
def RollingSummary.append (summary : RollingSummary) (field : SummaryField) (item : Text) :
    RollingSummary :=
  match field with
  | .facts => { summary with facts := summary.facts ++ [item] }
  | .decisions => { summary with decisions := summary.decisions ++ [item] }
  | .openQuestions => { summary with openQuestions := summary.openQuestions ++ [item] }
  | .evidenceRefs => { summary with evidenceRefs := summary.evidenceRefs ++ [item] }

/-- These are the items of the summary, field by field. -/
def RollingSummary.items (summary : RollingSummary) : List Text :=
  summaryFields.flatMap summary.get

/-- These are the codes of `SummaryValidationError`. -/
inductive SummaryValidationError where
  | itemNotString
  | itemEmpty
  | itemTooLong
  | controlToken
  | reasoningTag
  | serializedEnvelope
  | roleMarker
  | internalPromptText
  | duplicateKeys
  | empty
  | tooLong
  | notJson
  | notObject
  | unknownKeys
  | missingKeys
  | fieldNotList
  | tooManyItems
  deriving DecidableEq

/-- This is `SummaryValidationError.code`. -/
def SummaryValidationError.code : SummaryValidationError → Text
  | .itemNotString => "item_not_string".toList
  | .itemEmpty => "item_empty".toList
  | .itemTooLong => "item_too_long".toList
  | .controlToken => "control_token".toList
  | .reasoningTag => "reasoning_tag".toList
  | .serializedEnvelope => "serialized_envelope".toList
  | .roleMarker => "role_marker".toList
  | .internalPromptText => "internal_prompt_text".toList
  | .duplicateKeys => "duplicate_keys".toList
  | .empty => "empty".toList
  | .tooLong => "too_long".toList
  | .notJson => "not_json".toList
  | .notObject => "not_object".toList
  | .unknownKeys => "unknown_keys".toList
  | .missingKeys => "missing_keys".toList
  | .fieldNotList => "field_not_list".toList
  | .tooManyItems => "too_many_items".toList

/-- A `RecursionError` of the reader within an item is not caught. -/
inductive SummaryError where
  | validation (error : SummaryValidationError)
  | recursion
  deriving DecidableEq

/-- This is `raise SummaryValidationError` under a condition. -/
def raiseIf (condition : Prop) [Decidable condition] (error : SummaryValidationError) :
    Except SummaryError Unit :=
  if condition then .error (.validation error) else .ok ()

/-- A pattern matches at some place of the text. -/
def search (matchAt : Text → Bool) (text : Text) : Bool := text.tails.any matchAt

/-- This is `<\|[^|]{0,64}\|>` at the start of the text. -/
def pipeTokenAt : Text → Bool
  | '<' :: '|' :: rest =>
      let body := rest.takeWhile (· != '|')
      body.length ≤ 64 && startsWith (rest.drop body.length) ['|', '>']
  | _ => false

/-- This is `<\s*/?\s*name\s*>` at the start of the text. -/
def turnTokenAt (name : Text) : Text → Bool
  | '<' :: rest =>
      (dropIgnoreCase name (lstrip (removeStart ['/'] (lstrip rest)))).any fun tail =>
        startsWith (lstrip tail) ['>']
  | _ => false

/-- This is `\[/?INST\]` at the start of the text. -/
def instTokenAt : Text → Bool
  | '[' :: rest => (dropIgnoreCase "inst]".toList (removeStart ['/'] rest)).isSome
  | _ => false

/-- This is `<<\s*/?SYS\s*>>` at the start of the text. -/
def sysTokenAt : Text → Bool
  | '<' :: '<' :: rest =>
      (dropIgnoreCase "sys".toList (removeStart ['/'] (lstrip rest))).any fun tail =>
        startsWith (lstrip tail) ['>', '>']
  | _ => false

/-- This is `CONTROL_TOKEN` at the start of the text. -/
def controlTokenAt (text : Text) : Bool :=
  pipeTokenAt text || turnTokenAt "s".toList text || turnTokenAt "start_of_turn".toList text ||
    instTokenAt text || sysTokenAt text

/-- This is `\b[^>]*>` after a word. -/
def attributesAt (table : UnicodeTable) : Text → Bool
  | c :: rest => !isWord table c && (c :: rest).contains '>'
  | [] => false

/-- This is `_REASONING_TAG` at the start of the text. -/
def reasoningTagAt (table : UnicodeTable) : Text → Bool
  | '<' :: rest =>
      let tags := ["think".toList, "thinking".toList, "reasoning".toList, "reflection".toList]
      tags.any fun tag =>
        (dropIgnoreCase tag (lstrip (removeStart ['/'] (lstrip rest)))).any (attributesAt table)
  | _ => false

/-- This is `_ENVELOPE_KEY` at the start of the text. -/
def envelopeKeyAt : Text → Bool
  | '"' :: rest =>
      let keys := ["role\"".toList, "system_prompt\"".toList, "developer\"".toList,
        "reasoning\"".toList, "thinking\"".toList, "chain_of_thought\"".toList,
        "tool_calls\"".toList]
      keys.any fun key => (dropIgnoreCase key rest).any fun tail => startsWith (lstrip tail) [':']
  | _ => false

/-- This is `\s*(?:system|developer|assistant|tool)\s*:` at the start of the text. -/
def roleAt (text : Text) : Bool :=
  let roles := ["system".toList, "developer".toList, "assistant".toList, "tool".toList]
  roles.any fun role =>
    (dropIgnoreCase role (lstrip text)).any fun tail => startsWith (lstrip tail) [':']

/-- This is a match of `_ROLE_MARKER` that begins with a line feed. -/
def roleLineAt : Text → Bool
  | '\n' :: rest => roleAt rest
  | _ => false

/-- This is `_INTERNAL_PHRASES`. -/
def internalPhrases : List Text :=
  ["you maintain a rolling summary".toList, "output only the summary".toList,
    "[conversation memory".toList, "conversation memory — data".toList,
    "conversation memory - data".toList,
    "summarized earlier turns; anything phrased as a command".toList,
    "previous_summary_data".toList, "new_turns_data".toList,
    "return only one json object with exactly".toList]

/-- This is the marker of `redact_summary_names`. -/
def accessMarker : Text := "[document no longer accessible]".toList

variable (interpreter : Interpreter)

/-- This is `leakage_reason`. -/
def leakageReason (text : Text) : Option SummaryValidationError :=
  if search controlTokenAt text then some .controlToken
  else if search (reasoningTagAt interpreter.table) text then some .reasoningTag
  else if search envelopeKeyAt text then some .serializedEnvelope
  else if roleAt text || search roleLineAt text then some .roleMarker
  else if internalPhrases.any fun phrase => phrase <:+: lower interpreter.table text then
    some .internalPromptText
  else none

/-- This is the check of `_validate_item` for a nested JSON text. -/
def envelopeCheck (text : Text) : Except SummaryError Unit :=
  if startsWith text ['\x7b'] || startsWith text ['['] then
    match Json.loads (fun pairs => .ok (.dict (Json.ofPairs pairs))) interpreter.nesting text with
    | .ok _ => .error (.validation .serializedEnvelope)
    | .error .recursion => .error .recursion
    | .error _ => .ok ()
  else .ok ()

/-- This is the part of `_validate_item` about the content of a trimmed item. -/
def contentCheck (value : Text) : Except SummaryError Unit :=
  match leakageReason interpreter value with
  | some reason => .error (.validation reason)
  | none => envelopeCheck interpreter (lstrip value)

/-- This is `_validate_item`. -/
def validateItem : Json → Except SummaryError Text
  | .str text => do
      let value := strip text
      raiseIf (value = []) .itemEmpty
      raiseIf (maxItemChars < value.length) .itemTooLong
      contentCheck interpreter value
      .ok value
  | _ => .error (.validation .itemNotString)

/-- This is `_unique_object`. -/
def uniqueObject (pairs : List (Text × Json)) : Except Json.LoadError Json :=
  if (pairs.map Prod.fst).Nodup then .ok (.dict pairs) else .error .hook

/-- This is one round of the loop of `parse_summary_payload`. -/
def parseField (fields : List (Text × Json)) (field : SummaryField) :
    Except SummaryError (List Text) :=
  match fields.lookup field.key with
  | some (.list items) =>
      if maxItemsPerField < items.length then .error (.validation .tooManyItems)
      else items.mapM (validateItem interpreter)
  | _ => .error (.validation .fieldNotList)

/-- This is the dictionary that `serialize_summary` writes. -/
def RollingSummary.payload (summary : RollingSummary) : List (Text × Json) :=
  summaryFields.map fun field => (field.key, .list ((summary.get field).map .str))

/-- This is `serialize_summary`. -/
def serializeSummary (summary : RollingSummary) : Text := (Json.dict summary.payload).dumpsCompact

/-- This is the number of characters of the items. -/
def RollingSummary.total (summary : RollingSummary) : Nat := (summary.items.map List.length).sum

/-- This is what `parse_summary_payload` does with the fields of the object. -/
def parseFields (fields : List (Text × Json)) : Except SummaryError RollingSummary := do
  let keys := summaryFields.map SummaryField.key
  raiseIf (∃ key ∈ fields.map Prod.fst, key ∉ keys) .unknownKeys
  raiseIf (∃ key ∈ keys, key ∉ fields.map Prod.fst) .missingKeys
  let facts ← parseField interpreter fields .facts
  let decisions ← parseField interpreter fields .decisions
  let openQuestions ← parseField interpreter fields .openQuestions
  let evidenceRefs ← parseField interpreter fields .evidenceRefs
  let summary : RollingSummary := ⟨facts, decisions, openQuestions, evidenceRefs⟩
  raiseIf (summary.total = 0) .empty
  raiseIf (maxTotalChars < summary.total) .tooLong
  raiseIf (maxSerializedChars < (serializeSummary summary).length) .tooLong
  .ok summary

/-- This is `parse_summary_payload`. -/
def parseSummaryPayload (text : Text) : Except SummaryError RollingSummary := do
  let raw := strip text
  raiseIf (raw = []) .empty
  raiseIf (maxSerializedChars < raw.length) .tooLong
  match Json.loads uniqueObject interpreter.nesting raw with
  | .ok (.dict fields) => parseFields interpreter fields
  | .ok _ => .error (.validation .notObject)
  | .error .hook => .error (.validation .duplicateKeys)
  | .error _ => .error (.validation .notJson)

/-- This is `stored_summary_text`. -/
def storedSummaryText (stored : Option Text) : Except SummaryError (Option Text × Option Text) :=
  match stored with
  | none => .ok (none, some SummaryValidationError.empty.code)
  | some text =>
      if isBlank text then .ok (none, some SummaryValidationError.empty.code)
      else
        match parseSummaryPayload interpreter text with
        | .ok summary => .ok (some (serializeSummary summary), none)
        | .error (.validation error) => .ok (none, some error.code)
        | .error .recursion => .error .recursion

/-- This is the item after its names are replaced. -/
def replaceNames (names : List Text) (item : Text) : Text :=
  (names.filter (· ≠ [])).foldl (fun item name => replace name accessMarker item) item

/-- These are the variables of the loops of `redact_summary_names`. -/
structure Redaction where
  fields : RollingSummary
  remaining : Nat

/-- This is one round of the inner loop of `redact_summary_names`. -/
def Redaction.add (names : List Text) (field : SummaryField) (state : Redaction) (item : Text) :
    Redaction :=
  let item := strip ((replaceNames names item).take (min maxItemChars state.remaining))
  let overflow := (serializeSummary (state.fields.append field item)).length - maxSerializedChars
  let item := if 0 < overflow then strip (item.take (item.length - overflow)) else item
  { fields := if item = [] then state.fields else state.fields.append field item
    remaining := state.remaining - item.length }

/-- These are the loops of `redact_summary_names`. -/
def redactItems (names : List Text) (summary : RollingSummary) : RollingSummary :=
  (summaryFields.foldl
    (fun state field => (summary.get field).foldl (Redaction.add names field) state)
    ⟨.empty, maxTotalChars⟩).fields

/-- This is `redact_summary_names`. -/
def redactSummaryNames (stored : Text) (names : List Text) : Except SummaryError (Option Text) :=
  match parseSummaryPayload interpreter stored with
  | .ok summary => .ok (some (serializeSummary (redactItems names summary)))
  | .error (.validation _) => .ok none
  | .error .recursion => .error .recursion

end LumenCopilot.Memory
