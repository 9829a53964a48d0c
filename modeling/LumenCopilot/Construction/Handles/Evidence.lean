import LumenCopilot.Construction.Context.Message
import LumenCopilot.Construction.Handles.Conversation
import LumenCopilot.Construction.Python.Numerals
import LumenCopilot.Construction.Retrieval.Corpus

namespace LumenCopilot.Library

variable {σ α β : Type}

/-- A pass threads a state through a list of items and stops at an error. -/
def thread (step : σ → α → Option (β × σ)) : σ → List α → Option (List β × σ)
  | state, [] => some ([], state)
  | state, item :: rest =>
      match step state item with
      | none => none
      | some (result, after) =>
          (thread step after rest).map fun (results, last) => (result :: results, last)

end LumenCopilot.Library

namespace LumenCopilot.Handles

open Library Python

def HandleKind.letter : HandleKind → Char
  | .passage => 'S'
  | .document => 'D'
  | .web => 'W'

/-- This is the string of a handle. -/
def Handle.written (handle : Handle) : Text := handle.kind.letter :: natText handle.number

/-- This is the format `0{width}d` of an integer. -/
def padded (width : Nat) (value : Int) : Text :=
  let sign := if value < 0 then ['-'] else []
  let digits := natText value.natAbs
  sign ++ List.replicate (width - sign.length - digits.length) '0' ++ digits

/-- This is `_format_player_time`. -/
def formatPlayerTime (milliseconds : Int) : Text :=
  let hours := milliseconds / 3600000
  let minutes := milliseconds % 3600000 / 60000
  let seconds := milliseconds % 60000 / 1000
  let millis := milliseconds % 1000
  let clock := padded 2 minutes ++ ':' :: padded 2 seconds ++ '.' :: padded 3 millis
  if hours ≠ 0 then padded 2 hours ++ ':' :: clock else clock

/-- The evidence of a passage also shows the name of its document. -/
structure ShownPassage extends RetrievedPassage where
  documentName : Text

/-- These are the speaker's name and identifier; an absent one counts as an empty one. -/
def ShownPassage.name (passage : ShownPassage) : Text := passage.speakerName.getD []

def ShownPassage.speaker (passage : ShownPassage) : Text := passage.speakerId.getD []

/-- This is the variable `identity` of `_media_provenance`. -/
def ShownPassage.identity (passage : ShownPassage) : Text :=
  let speaker := if passage.name ≠ [] then passage.name else passage.speaker
  if passage.name ≠ [] ∧ passage.speaker ≠ [] then
    ',' :: ' ' :: speaker ++ ' ' :: '(' :: passage.speaker ++ [')']
  else if speaker ≠ [] then ',' :: ' ' :: speaker
  else []

/-- This is `_media_provenance`. -/
def ShownPassage.mediaProvenance (passage : ShownPassage) : Text :=
  match passage.timeStartMs, passage.timeEndMs with
  | some start, some finish =>
      ", time ".toList ++ formatPlayerTime start ++ '-' :: formatPlayerTime finish ++
        passage.identity
  | _, _ => []

/-- This is the variable `location` of `rendered_evidence`. -/
def ShownPassage.location (passage : ShownPassage) (document : Option Text) : Text :=
  match document with
  | some document =>
      " (document ".toList ++ document ++ ", chars ".toList ++ padded 0 passage.charStart ++
        '-' :: padded 0 passage.charEnd ++ passage.mediaProvenance ++ [')']
  | none => passage.mediaProvenance

/-- This is `rendered_evidence`. -/
def ShownPassage.renderedEvidence (passage : ShownPassage) (handle : Text)
    (document : Option Text) : Text :=
  '[' :: handle ++ ']' :: ' ' :: passage.documentName ++ passage.location document ++
    '\n' :: strip passage.text

/-- A handle is issued, or the error of the budget leaves the loop. -/
def EvidenceHandles.take (registry : EvidenceHandles) (source : Source) :
    Option (Handle × EvidenceHandles) :=
  match registry.issueFor source with
  | (some handle, after) => some (handle, after)
  | (none, _) => none

def searchText : Text := "search_text".toList

def searchPassages : Text := "search_passages".toList

def readDocument : Text := "read_document".toList

/-- This is `_evidence`. -/
def evidence (call : Context.ToolCall) (registry : EvidenceHandles) (passage : ShownPassage) :
    Option (Text × EvidenceHandles) :=
  if call.name = searchPassages then
    match registry.take (.document passage.documentId) with
    | none => none
    | some (document, registry) =>
        (registry.take (.passage passage.toRetrievedPassage)).map fun (handle, after) =>
          (passage.renderedEvidence handle.written (some document.written), after)
  else
    (registry.take (.passage passage.toRetrievedPassage)).map fun (handle, after) =>
      (passage.renderedEvidence handle.written none, after)

/-- The loop over the passages of a result registers each of them and then renders it. -/
def passageBlock (call : Context.ToolCall) (registry : EvidenceHandles) (passage : ShownPassage) :
    Option (Text × EvidenceHandles) :=
  match registry.take (.passage passage.toRetrievedPassage) with
  | none => none
  | some (_, after) => evidence call after passage

/-- The snippet of a passage is rendered again and stored under its chunk. -/
def recordedSnippet (call : Context.ToolCall) (registry : EvidenceHandles)
    (passage : ShownPassage) : Option ((Text × Text) × EvidenceHandles) :=
  (evidence call registry passage).map fun (snippet, after) => ((passage.chunkId, snippet), after)

/-- These are the parts of `urlsplit` that a web citation checks. -/
structure CitedUrl where
  scheme : Text
  hostname : Option Text
  username : Option Text
  deriving DecidableEq

/-- These are `str` of a JSON value and `urlsplit`; no answer is a `ValueError`. -/
structure WebReader where
  str : Json → Text
  urlsplit : Text → Option CitedUrl

variable (reader : WebReader)

/-- This is the check of `WebCitation`. -/
def WebReader.citable (url : Text) : Bool :=
  match reader.urlsplit url with
  | none => false
  | some parts =>
      (parts.scheme = "http".toList || parts.scheme = "https".toList) &&
        parts.hostname.getD [] ≠ [] && parts.username.getD [] = []

/-- These are the texts that the loop reads from one web result. -/
structure WebItem where
  url : Text
  title : Text
  body : Text
  deriving DecidableEq

/-- The item of a web result is read when it is an object. -/
def WebReader.item : Json → Option WebItem
  | .dict fields =>
      let get := Retrieval.Arguments.get fields
      let text := fun value : Json => reader.str (Retrieval.orElse value (.str []))
      some ⟨text (get "url"), text (get "title"),
        strip (text (Retrieval.orElse (get "fetchedPassage") (get "snippet")))⟩
  | _ => none

def WebItem.visible (item : WebItem) : Text := item.body.take 700

/-- This is the block of a web result. -/
def WebItem.block (item : WebItem) (handle : Text) : Text :=
  '[' :: handle ++ ']' :: ' ' :: item.title ++ '\n' :: item.url ++ '\n' :: item.visible ++
    if item.visible.length < item.body.length then "\n[Truncated web excerpt.]".toList else []

/-- An item with a visible text takes a handle; it gives a block when its citation is valid. -/
def webBlock (registry : EvidenceHandles) (value : Json) :
    Option (Option Text × EvidenceHandles) :=
  match reader.item value with
  | none => some (none, registry)
  | some item =>
      if item.visible = [] then some (none, registry)
      else
        (registry.take (.web item.url item.title item.visible)).map fun (handle, after) =>
          (if reader.citable item.url then some (item.block handle.written) else none, after)

/-- This is `ToolResult` with the fields that the loop folds into the transcript. -/
structure ToolResult where
  ok : Bool
  content : Text
  payload : List (Text × Json) := []
  passages : List ShownPassage := []
  documentIds : List Uuid := []
  sourceDocumentIds : Option (List Uuid) := none

def ToolResult.isWeb (result : ToolResult) : Bool :=
  result.ok &&
    match Retrieval.Arguments.get result.payload "sourceType" with
    | .str kind => kind = "web".toList
    | _ => false

/-- This is `result.payload.get("results", [])` as the items of its iteration. -/
def ToolResult.webResults (result : ToolResult) : Option (List Json) :=
  match result.payload.lookup "results".toList with
  | none => some []
  | some (.list items) => some items
  | some (.str text) => some (text.map fun c => .str [c])
  | some (.dict fields) => some (fields.map fun field => .str field.1)
  | some _ => none

/-- This is one round of the replacement of the document ids in the content. -/
def rewriteId (state : Text × EvidenceHandles) (documentId : Uuid) :
    Option (Text × EvidenceHandles) :=
  (state.2.take (.document documentId.str)).map fun (handle, after) =>
    (replace documentId.str handle.written state.1, after)

/-- This is the message of a tool in the transcript. -/
structure ToolMessage where
  content : Text
  toolCallId : Text
  name : Text
  sourceDocumentIds : Option (List Text)
  deriving DecidableEq

/-- A call of the batch leaves its message and what is recorded under its id. -/
structure Folded where
  message : ToolMessage
  snippets : Option (List (Text × Text))
  webSnippets : Option (List Text)
  deriving DecidableEq

def evidenceSeparator : Text := ['\n', '\n']

/-- These are the content before the replacement, the web blocks and the registry after them. -/
def renderResult (call : Context.ToolCall) (result : ToolResult) (registry : EvidenceHandles) :
    Option ((Text × Option (List Text)) × EvidenceHandles) :=
  if result.passages ≠ [] then
    (thread (passageBlock call) registry result.passages).map fun (blocks, after) =>
      let evidenceContent := join evidenceSeparator blocks
      let content :=
        if call.name = searchText ∨ call.name = searchPassages then evidenceContent
        else if call.name ≠ readDocument then result.content ++ evidenceSeparator ++ evidenceContent
        else result.content
      ((content, none), after)
  else if result.isWeb then
    match result.webResults with
    | none => none
    | some items =>
        (thread (webBlock reader) registry items).map fun (found, after) =>
          let blocks := found.reduceOption
          let content := join evidenceSeparator blocks
          let shown :=
            if content ≠ [] then content
            else "No usable web evidence. Try another query.".toList
          ((shown, some blocks), after)
  else some ((result.content, none), registry)

/-- These are the source documents of the message of a result. -/
def ToolResult.dependencies (result : ToolResult) : Option (List Text) :=
  match result.ok, result.sourceDocumentIds with
  | true, some sources =>
      some (sortedSet (sources.map Uuid.str ++ result.documentIds.map Uuid.str ++
        result.passages.map fun passage => passage.documentId))
  | _, _ => none

/-- This is the body of the loop that folds the results of a batch into the transcript. -/
def foldResult (registry : EvidenceHandles) (entry : Context.ToolCall × ToolResult) :
    Option (Folded × EvidenceHandles) :=
  match renderResult reader entry.1 entry.2 registry with
  | none => none
  | some ((rendered, webSnippets), shown) =>
      match entry.2.documentIds.foldlM rewriteId (rendered, shown) with
      | none => none
      | some (content, rewritten) =>
          let message : ToolMessage := ⟨content, entry.1.id, entry.1.name, entry.2.dependencies⟩
          if entry.2.passages ≠ [] then
            (thread (recordedSnippet entry.1) rewritten entry.2.passages).map
              fun (snippets, after) => (⟨message, some snippets, webSnippets⟩, after)
          else some (⟨message, none, webSnippets⟩, rewritten)

/-- The loop folds the results in the order of the calls. -/
def foldResults (registry : EvidenceHandles) (batch : List (Context.ToolCall × ToolResult)) :
    Option (List Folded × EvidenceHandles) :=
  thread (foldResult reader) registry batch

/-- This is `result_passage_snippets`. -/
def passageSnippets (turns : List Folded) : Dict Text (List (Text × Text)) :=
  turns.foldl (fun recorded turn =>
    turn.snippets.elim recorded (recorded.assign turn.message.toolCallId)) ∅

/-- This is `web_snippets`. -/
def webSnippets (turns : List Folded) : Dict Text (List Text) :=
  turns.foldl (fun recorded turn =>
    turn.webSnippets.elim recorded (recorded.assign turn.message.toolCallId)) ∅

/-- These are the snippets of the cited chunks, each chunk once. -/
def citedSnippets (cited : Text → Bool) : List Text → List (Text × Text) → List Text
  | _, [] => []
  | seen, (chunkId, snippet) :: rest =>
      if cited chunkId && !seen.contains chunkId then
        snippet :: citedSnippets cited (chunkId :: seen) rest
      else citedSnippets cited seen rest

/-- This is `_cited_snippets_by_call`. -/
def citedSnippetsByCall (recorded : Dict Text (List (Text × Text))) (cited : Text → Bool)
    (web : Dict Text (List Text)) : Dict Text (List Text) :=
  recorded.entries.foldl (fun out entry =>
    let snippets := citedSnippets cited [] entry.2
    if snippets = [] then out else out.assign entry.1 snippets) web

end LumenCopilot.Handles
