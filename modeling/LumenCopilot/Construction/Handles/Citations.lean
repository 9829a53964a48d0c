import LumenCopilot.Construction.Library.Dict
import LumenCopilot.Construction.Python.Text

namespace LumenCopilot.Handles

open Library Python

def isHandleLetter (c : Char) : Bool := c == 'S' || c == 'D' || c == 'W'

def isLeadDigit (c : Char) : Bool := '1' ≤ c && c ≤ '9'

def isDecimal (c : Char) : Bool := '0' ≤ c && c ≤ '9'

/-- This is a match of `\[([SDW][1-9][0-9]*)\]` at the start of the text, with the rest. -/
def matchHandle : Text → Option (Text × Text)
  | '[' :: letter :: digit :: rest =>
      if isHandleLetter letter && isLeadDigit digit then
        match rest.dropWhile isDecimal with
        | ']' :: after => some (letter :: digit :: rest.takeWhile isDecimal, after)
        | _ => none
      else none
  | _ => none

/-- This is one match with its span. -/
structure HandleMatch where
  start : Nat
  stop : Nat
  handle : Text
  deriving DecidableEq

/-- The search goes from left to right; the first argument bounds its steps. -/
def findHandles : Nat → Nat → Text → List HandleMatch
  | 0, _, _ => []
  | _ + 1, _, [] => []
  | steps + 1, offset, c :: rest =>
      match matchHandle (c :: rest) with
      | some (handle, after) =>
          ⟨offset, offset + (handle.length + 2), handle⟩ ::
            findHandles steps (offset + (handle.length + 2)) after
      | none => findHandles steps (offset + 1) rest

/-- This is `_HANDLE.finditer(text)`. -/
def handleMatches (text : Text) : List HandleMatch := findHandles text.length 0 text

/-- This is `_HANDLE.finditer(text, start, stop)`. -/
def handleMatchesIn (text : Text) (start stop : Nat) : List HandleMatch :=
  (handleMatches ((text.take stop).drop start)).map fun found =>
    ⟨start + found.start, start + found.stop, found.handle⟩

/-- The Markdown parser tries the rule of the markers at these positions of an inline token. -/
structure InlineToken where
  content : Text
  map : Option (Nat × Nat)
  positions : List Nat

/-- The parser returns the inline tokens of an answer. -/
abbrev MarkdownParser := Text → List InlineToken

/-- This is `_citation_marker` at every tried position: the offset and the handle of a child. -/
def InlineToken.citationMarkers (token : InlineToken) : List (Nat × Text) :=
  token.positions.filterMap fun position =>
    (matchHandle (token.content.drop position)).map fun found => (position, found.1)

/-- These are the ends of the line breaks `\r\n`, `\r` and `\n`. -/
def lineEnds : Nat → Text → List Nat
  | _, [] => []
  | offset, '\r' :: '\n' :: rest => (offset + 2) :: lineEnds (offset + 2) rest
  | offset, c :: rest =>
      if c = '\r' ∨ c = '\n' then (offset + 1) :: lineEnds (offset + 1) rest
      else lineEnds (offset + 1) rest

def lineStarts (answer : Text) : List Nat := 0 :: (lineEnds 0 answer ++ [answer.length])

/-- These are the lists that the loops fill. -/
structure Selection where
  selected : List Text := []
  removed : List (Nat × Nat) := []

/-- A marker is removed when it is for a document or for a handle that is not available. -/
def isInvalid (available : List Text) (handle : Text) : Bool :=
  handle.head? = some 'D' || handle ∉ available

/-- This is one child of the inner loop; an unknown offset is a `KeyError`. -/
def selectMarker (available : List Text) (offsets : List (Nat × (Nat × Nat)))
    (selection : Selection) (marker : Nat × Text) : Option Selection :=
  if isInvalid available marker.2 then
    (offsets.lookup marker.1).map fun span =>
      { selection with removed := selection.removed ++ [span] }
  else if marker.2 ∈ selection.selected then some selection
  else some { selection with selected := selection.selected ++ [marker.2] }

/-- This is one token of the outer loop; the strict `zip` refuses lists of different lengths. -/
def selectToken (answer : Text) (available : List Text) (selection : Selection)
    (token : InlineToken) : Option Selection :=
  match token.map with
  | none => some selection
  | some (first, last) => do
      let start ← (lineStarts answer)[first]?
      let stop ← (lineStarts answer)[last]?
      let original := handleMatchesIn answer start stop
      let own := handleMatches token.content
      if own.length ≠ original.length then none
      else
        token.citationMarkers.foldlM (selectMarker available
          ((own.map HandleMatch.start).zip (original.map fun found => (found.start, found.stop))))
          selection

def cutSpan (span : Nat × Nat) (answer : Text) : Text :=
  answer.take span.1 ++ answer.drop span.2

/-- This is `select_cited_handles`; the absent result is an exception. -/
def selectCitedHandles (parse : MarkdownParser) (answer : Text) (available : List Text) :
    Option (Text × List Text) := do
  let selection ← (parse answer).foldlM (selectToken answer available) {}
  return (selection.removed.foldr cutSpan answer, selection.selected)

/-- This is `NO_SOURCES_FALLBACK`. -/
def noSourcesFallback : Text :=
  ("I couldn't find anything in your sources that answers that. " ++
    "Try rephrasing, or upload a document that covers it.").toList

/-- This is a grounded citation of a passage. -/
structure GroundedCitation where
  handle : Text
  chunkId : Nat
  documentId : Nat
  deriving DecidableEq

/-- The answer has the passages and web pages that its tools returned, and the passages that a
read right before the end still returns; such a read has one handle for a chunk. -/
structure AnswerEvidence where
  corpus : List GroundedCitation
  web : List Text
  reread : List GroundedCitation
  distinct : ∀ first ∈ corpus, ∀ second ∈ corpus, first.chunkId = second.chunkId →
    (∃ fresh ∈ reread, fresh.handle = first.handle) →
      (∃ fresh ∈ reread, fresh.handle = second.handle) → first = second

/-- The tools make the handles of both kinds of evidence available. -/
def AnswerEvidence.available (evidence : AnswerEvidence) : List Text :=
  evidence.corpus.map GroundedCitation.handle ++ evidence.web

/-- The read confirms a citation of the same document. -/
def AnswerEvidence.confirms (evidence : AnswerEvidence) (citation : GroundedCitation) : Bool :=
  evidence.reread.any fun fresh =>
    fresh.handle = citation.handle && fresh.documentId = citation.documentId

/-- An answer is stored with its text, its citations and its web citations. -/
structure StoredAnswer where
  text : Text
  citations : List GroundedCitation
  web : List Text
  deriving DecidableEq

/-- The selected passages, or nothing when the read does not confirm all of them. -/
def confirmedSelection (evidence : AnswerEvidence) (cleaned : Text) (selected : List Text) :
    Text × List Text × List GroundedCitation × List Text :=
  let chosen := evidence.corpus.filter fun citation => citation.handle ∈ selected
  if chosen.all evidence.confirms then (cleaned, selected, chosen, evidence.web)
  else (noSourcesFallback, [], [], [])

/-- This is the dictionary of the citations by their chunk, in the order of the handles. -/
def citedByChunk (selected : List Text) (chosen : List GroundedCitation) :
    List GroundedCitation :=
  let ordered := chosen.mergeSort fun first second =>
    decide (selected.idxOf first.handle ≤ selected.idxOf second.handle)
  (ordered.foldl (fun cited citation => Dict.assign cited citation.chunkId citation)
    (∅ : Dict Nat GroundedCitation)).entries.map Sigma.snd

/-- This is the selection of the citations in `_answer`. -/
def storeAnswer (parse : MarkdownParser) (evidence : AnswerEvidence) (answer : Text) :
    Option StoredAnswer := do
  let first ← selectCitedHandles parse answer evidence.available
  let (cleaned, selected, chosen, web) := confirmedSelection evidence first.1 first.2
  let allowed := chosen.map GroundedCitation.handle ++ selected.filter (· ∈ web)
  let last ← selectCitedHandles parse cleaned allowed
  if isBlank last.1 then return ⟨noSourcesFallback, [], []⟩
  return ⟨last.1, citedByChunk last.2 chosen, last.2.filter (· ∈ web)⟩

end LumenCopilot.Handles
