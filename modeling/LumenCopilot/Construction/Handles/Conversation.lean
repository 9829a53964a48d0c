import LumenCopilot.Construction.Library.Dict
import LumenCopilot.Construction.Python.Json

namespace LumenCopilot.Handles

open Library Python

/-- A handle is for a passage `S`, a document `D` or a web page `W`. -/
inductive HandleKind where
  | passage
  | document
  | web
  deriving DecidableEq

/-- A handle is written as the letter of its kind and its number. -/
structure Handle where
  kind : HandleKind
  number : Nat
  deriving DecidableEq

/-- These are the fields of a retrieved passage that its evidence is made of; UUIDs are written out. -/
structure RetrievedPassage where
  chunkId : Text
  documentId : Text
  text : Text
  charStart : Int
  charEnd : Int
  timeStartMs : Option Int := none
  timeEndMs : Option Int := none
  transcriptSegmentId : Option Text := none
  speakerId : Option Text := none
  speakerName : Option Text := none
  deriving DecidableEq

/-- An entry identifies its source; a passage is kept by its place and its hashes only. -/
inductive Evidence where
  | passage (documentId chunkId : Text) (charStart charEnd : Int) (fingerprint : Text)
      (provenanceFingerprint : Option Text)
  | document (documentId : Text)
  | web (url title text : Text)
  deriving DecidableEq

/-- This is one field of the compact JSON of the provenance. -/
def provenanceField (key : String) (value : Json) : Text :=
  Json.quote key.toList ++ [':'] ++ value.dumps

/-- This is the compact JSON of the provenance with sorted keys. -/
def RetrievedPassage.provenanceJson (passage : RetrievedPassage) : Text :=
  '\x7b' :: (join [','] [
    provenanceField "speaker_id" (passage.speakerId.elim .null .str),
    provenanceField "speaker_name" (passage.speakerName.elim .null .str),
    provenanceField "time_end_ms" (passage.timeEndMs.elim .null .int),
    provenanceField "time_start_ms" (passage.timeStartMs.elim .null .int),
    provenanceField "transcript_segment_id" (passage.transcriptSegmentId.elim .null .str)] ++
      ['\x7d'])

def RetrievedPassage.hasProvenance (passage : RetrievedPassage) : Bool :=
  passage.timeStartMs.isSome || passage.timeEndMs.isSome || passage.transcriptSegmentId.isSome ||
    passage.speakerId.isSome || passage.speakerName.isSome

/-- This is the entry that `EvidenceHandles.passage` builds. -/
def RetrievedPassage.evidence (passage : RetrievedPassage) : Evidence :=
  .passage passage.documentId passage.chunkId passage.charStart passage.charEnd
    (Sha256.hexdigest (utf8 passage.text))
    (if passage.hasProvenance then some (Sha256.hexdigest (utf8 passage.provenanceJson)) else none)

/-- This is the registry of one answer. -/
structure EvidenceHandles where
  entries : Dict Handle Evidence
  created : Dict Handle Evidence
  next : Nat
  capacity : Nat

/-- This is `EvidenceHandles.__init__`. -/
def EvidenceHandles.start (first : Nat) (existing : Dict Handle Evidence) (capacity : Nat) :
    EvidenceHandles :=
  { entries := existing, created := ∅, next := first, capacity := capacity }

/-- A number is taken by a handle of any kind. -/
def taken (entries : Dict Handle Evidence) (number : Nat) : Bool :=
  [HandleKind.passage, .document, .web].any fun kind => (⟨kind, number⟩ : Handle) ∈ entries

/-- The loop steps over the taken numbers. -/
def skipTaken (entries : Dict Handle Evidence) : Nat → Nat → Nat
  | 0, number => number
  | rounds + 1, number =>
      if taken entries number then skipTaken entries rounds (number + 1) else number

/-- The loop ends within as many rounds as there are entries. -/
def freeNumber (entries : Dict Handle Evidence) (number : Nat) : Nat :=
  skipTaken entries entries.size number

/-- This is the first handle, in the order of the dictionary, whose entry is equal. -/
def EvidenceHandles.known (registry : EvidenceHandles) (entry : Evidence) : Option Handle :=
  (registry.entries.entries.find? fun item => item.2 = entry).map (·.1)

/-- This is `_issue`; the absent handle is the error `handle_budget_exhausted`. -/
def EvidenceHandles.issue (registry : EvidenceHandles) (kind : HandleKind) (entry : Evidence) :
    Option Handle × EvidenceHandles :=
  match registry.known entry with
  | some handle => (some handle, registry)
  | none =>
      if registry.capacity ≤ registry.created.size then (none, registry)
      else
        let number := freeNumber registry.entries registry.next
        let handle : Handle := ⟨kind, number⟩
        (some handle,
          { registry with
            next := number + 1
            entries := registry.entries.assign handle entry
            created := registry.created.assign handle entry })

/-- A tool issues a handle for a passage, a document or a web page. -/
inductive Source where
  | passage (retrieved : RetrievedPassage)
  | document (documentId : Text)
  | web (url title text : Text)
  deriving DecidableEq

def Source.kind : Source → HandleKind
  | .passage _ => .passage
  | .document _ => .document
  | .web _ _ _ => .web

def Source.evidence : Source → Evidence
  | .passage retrieved => retrieved.evidence
  | .document documentId => .document documentId
  | .web url title text => .web url title text

/-- These are `passage`, `document` and `web`. -/
def EvidenceHandles.issueFor (registry : EvidenceHandles) (source : Source) :
    Option Handle × EvidenceHandles :=
  registry.issue source.kind source.evidence

end LumenCopilot.Handles

namespace LumenCopilot.Handles

open Library

/-- This is `HandleRepository.append` over the loaded rows: the rows to insert, or the error
`Evidence handle cannot be reassigned.` -/
def appendRows (existing : Dict Handle Evidence) :
    List (Sigma fun _ : Handle => Evidence) → Option (List (Sigma fun _ : Handle => Evidence))
  | [] => some []
  | item :: rest =>
      match existing.lookup item.1 with
      | some evidence => if evidence ≠ item.2 then none else appendRows existing rest
      | none => (appendRows existing rest).map (item :: ·)

/-- An answer reserves, loads, issues, appends and ends. -/
inductive AnswerPhase where
  | reserved
  | answering (registry : EvidenceHandles)
  | appended (rows : List (Sigma fun _ : Handle => Evidence))
  | ended

/-- An answer has its reserved range of numbers. -/
structure Answer where
  first : Nat
  capacity : Nat
  phase : AnswerPhase

/-- An issue is a handle that an answer gave for a source. -/
structure Issue where
  answer : Nat
  source : Source
  handle : Handle
  deriving DecidableEq

/-- A conversation has a counter, the committed rows and its answers; the history is kept beside. -/
structure Conversation where
  handleNext : Nat
  stored : Dict Handle Evidence
  answers : Nat → Option Answer
  issues : List Issue
  created : List Handle

/-- The counter of a new conversation is one. -/
def Conversation.started : Conversation :=
  { handleNext := 1, stored := ∅, answers := fun _ => none, issues := [], created := [] }

/-- These are the steps of the answers; the rows of a load come in the order of the database. -/
inductive Action where
  | reserve (answer capacity : Nat)
  | load (answer : Nat) (rows : Dict Handle Evidence)
  | issue (answer : Nat) (source : Source)
  | append (answer : Nat)
  | commit (answer : Nat)
  | abort (answer : Nat)

def Conversation.move (conversation : Conversation) (id : Nat) (answer : Answer)
    (phase : AnswerPhase) : Conversation :=
  { conversation with
    answers := Function.update conversation.answers id (some { answer with phase := phase }) }

/-- This is `reserve` with its own commit. -/
def Conversation.reserve (conversation : Conversation) (id capacity : Nat) : Option Conversation :=
  if (conversation.answers id).isNone ∧ 1 ≤ capacity ∧ capacity ≤ 1000 then
    some { conversation with
      handleNext := conversation.handleNext + capacity
      answers := Function.update conversation.answers id
        (some ⟨conversation.handleNext, capacity, .reserved⟩) }
  else none

/-- This is `load`, and the registry that starts from it. -/
def Conversation.load (conversation : Conversation) (id : Nat) (answer : Answer)
    (rows : Dict Handle Evidence) : Option Conversation :=
  match answer.phase with
  | .reserved =>
      if rows.entries.Perm conversation.stored.entries then
        some (conversation.move id answer
          (.answering (.start answer.first rows answer.capacity)))
      else none
  | _ => none

/-- One source gets a handle, or the budget of the answer is exhausted. -/
def Conversation.issue (conversation : Conversation) (id : Nat) (answer : Answer) (source : Source) :
    Option Conversation :=
  match answer.phase with
  | .answering registry =>
      match registry.issueFor source with
      | (none, _) => some conversation
      | (some handle, after) =>
          let moved := conversation.move id answer (.answering after)
          some { moved with
            issues := ⟨id, source, handle⟩ :: conversation.issues
            created :=
              if (registry.known source.evidence).isSome then conversation.created
              else handle :: conversation.created }
  | _ => none

/-- This is the check of `append` against the rows that are committed by now. -/
def Conversation.appending (conversation : Conversation) (registry : EvidenceHandles) :
    Option (List (Sigma fun _ : Handle => Evidence)) :=
  appendRows conversation.stored registry.created.entries

/-- A raised error ends the answer without its rows. -/
def Conversation.append (conversation : Conversation) (id : Nat) (answer : Answer) :
    Option Conversation :=
  match answer.phase with
  | .answering registry =>
      match conversation.appending registry with
      | some rows => some (conversation.move id answer (.appended rows))
      | none => some (conversation.move id answer .ended)
  | _ => none

/-- The unique constraint refuses a handle that is committed by now. -/
def Conversation.conflicts (conversation : Conversation)
    (rows : List (Sigma fun _ : Handle => Evidence)) : Bool :=
  rows.any fun item => item.1 ∈ conversation.stored

/-- The commit makes the rows of the answer visible. -/
def Conversation.commit (conversation : Conversation) (id : Nat) (answer : Answer) :
    Option Conversation :=
  match answer.phase with
  | .appended rows =>
      let moved := conversation.move id answer .ended
      if conversation.conflicts rows then some moved
      else
        some { moved with
          stored := rows.foldl (fun stored item => stored.assign item.1 item.2) conversation.stored }
  | _ => none

/-- An answer is rolled back at any point before its commit. -/
def Conversation.abort (conversation : Conversation) (id : Nat) (answer : Answer) :
    Option Conversation :=
  some (conversation.move id answer .ended)

def Conversation.step (conversation : Conversation) : Action → Option Conversation
  | .reserve id capacity => conversation.reserve id capacity
  | .load id rows => (conversation.answers id).bind fun answer => conversation.load id answer rows
  | .issue id source =>
      (conversation.answers id).bind fun answer => conversation.issue id answer source
  | .append id => (conversation.answers id).bind fun answer => conversation.append id answer
  | .commit id => (conversation.answers id).bind fun answer => conversation.commit id answer
  | .abort id => (conversation.answers id).bind fun answer => conversation.abort id answer

end LumenCopilot.Handles
