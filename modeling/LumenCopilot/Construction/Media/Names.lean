import LumenCopilot.Construction.Library.Dict
import LumenCopilot.Construction.Media.Stitching
import LumenCopilot.Construction.Python.Numerals
import LumenCopilot.Construction.Python.Regex

namespace LumenCopilot.Media

open Python Library

/-- This is `TranscriptSegmentDraft`. -/
structure TranscriptSegmentDraft where
  id : Nat
  ordinal : Int
  speakerId : Text
  startMs : Int
  endMs : Int
  charStart : Nat
  charEnd : Nat
  text : Text
  confidence : Option Rat
  deriving DecidableEq

/-- This is `SpeakerNameStatus`. -/
inductive SpeakerNameStatus where
  | unknown
  | inferred
  deriving DecidableEq

/-- This is `SpeakerNameMethod`. -/
inductive SpeakerNameMethod where
  | selfIntroduction
  | contextualDialogue
  deriving DecidableEq

/-- This is `SpeakerIdentity`. -/
structure SpeakerIdentity where
  speakerId : Text
  displayName : Option Text
  status : SpeakerNameStatus
  confidence : Option Rat
  method : Option SpeakerNameMethod
  evidenceSegmentIds : List Nat
  deriving DecidableEq

/-- This is the class of `_NAME_TOKEN` behind the capital. -/
def isNameChar (c : Char) : Bool := c.isAlpha || c == '\'' || c == '’' || c == '-'

/-- This is `_NAME_TOKEN`. -/
def nameToken : Regex := .seq (.one Char.isUpper) (.many (.one isNameChar))

/-- This is `_FULL_NAME`. -/
def fullName : Regex :=
  let more : Regex := .seq (.some .space) nameToken
  .group (.seq nameToken (.optional (.seq more (.optional more))))

/-- This is `(?:^|[.!?]\s*)`. -/
def sentenceStart : Regex := .either .begins (.seq (.anyOf ".!?") (.many .space))

/-- This is `(?i:hello|hi|hey)`. -/
def greeting : Regex := .oneOf (["hello", "hi", "hey"].map Regex.ignoringCase)

/-- This is `(?=[,.!?]|$)`. -/
def nameEnd : Regex := .ahead (.either (.anyOf ",.!?") .ends)

/-- This is the end `[,.!?]?\s*$` of an address. -/
def addressEnd : Regex := .all [.optional (.anyOf ",.!?"), .many .space, .ends]

/-- These are `_SELF_PATTERNS`. -/
def selfPatterns : List Regex :=
  [.all [sentenceStart,
      .optional (.all [.ignoringCase "oh", .optional (.anyOf ",!"), .some .space]),
      .optional (.all [greeting, .optional (.anyOf ",!"), .some .space]),
      .ignoringCase "my name is", .some .space, fullName, nameEnd],
    .all [sentenceStart, greeting, .optional (.anyOf ",!"), .some .space,
      .oneOf (["i am", "i'm"].map Regex.ignoringCase), .some .space, fullName, nameEnd]]

/-- These are `_ADDRESS_PATTERNS`. -/
def addressPatterns (table : UnicodeTable) : List Regex :=
  [.all [.begins, .oneOf (["hello", "hi", "hey", "thanks", "thank you", "welcome"].map
      Regex.ignoringCase), .some (.anyOf ",! "), fullName, addressEnd],
    .all [.begins, .ignoringCase "over to you", .some (.anyOf ",! "), fullName, addressEnd],
    .all [.begins, fullName, .exactly ",", .some .space, .oneOf (["can", "could", "would", "will",
      "are", "is", "do", "did", "please", "thanks", "thank", "what", "how"].map Regex.exactly),
      .boundary (isWord table)]]

/-- These are `_NON_NAMES`. -/
def nonNames : List Text :=
  ["everyone", "everybody", "team", "folks", "there", "all", "sir", "madam"].map String.toList

/-- This is `text.strip(listed)`. -/
def stripOf (listed : List Char) (text : Text) : Text :=
  (((text.dropWhile (· ∈ listed)).reverse).dropWhile (· ∈ listed)).reverse

/-- This is `_valid_name`. -/
def validName (table : FoldTable) (raw : Text) : Option Text :=
  let name := join [' '] (splitBlank (stripOf " ,.!?".toList raw))
  let parts := splitBlank name
  if ¬ (1 ≤ parts.length ∧ parts.length ≤ 3) then none
  else if parts.any fun part => casefold table part ∈ nonNames || !nameToken.fullmatch part then none
  else some name

/-- This is the only element of a set, if it has one. -/
def onlyOne (names : List Text) : Option Text :=
  match names.eraseDups with
  | [name] => some name
  | _ => none

/-- This is `_self_name`. -/
def selfName (table : FoldTable) (text : Text) : Option Text :=
  onlyOne (selfPatterns.flatMap fun pattern =>
    (pattern.finditer text).filterMap fun found => validName table found.group)

/-- This is `_addressed_name`. -/
def addressedName (table : FoldTable) (text : Text) : Option Text :=
  onlyOne ((addressPatterns table.toUnicodeTable).filterMap fun pattern =>
    (pattern.search text).bind fun found => validName table found.group)

/-- This is a candidate name of a speaker. -/
structure NameCandidate where
  name : Text
  confidence : Rat
  method : SpeakerNameMethod
  evidence : List Nat
  deriving DecidableEq

/-- These are the candidates of the first loop of `infer_speaker_names`. -/
def selfCandidates (table : FoldTable) (ordered : List TranscriptSegmentDraft) :
    List (Text × NameCandidate) :=
  ordered.filterMap fun segment => (selfName table segment.text).map fun name =>
    (segment.speakerId, ⟨name, 98 / 100, .selfIntroduction, [segment.id]⟩)

/-- This is the candidate that a segment gives to the speaker of the next one. -/
def addressCandidate (table : FoldTable) (segment response : TranscriptSegmentDraft) :
    Option (Text × NameCandidate) :=
  (addressedName table segment.text).bind fun name =>
    if response.speakerId ≠ segment.speakerId ∧ 0 ≤ response.startMs - segment.endMs ∧
        response.startMs - segment.endMs ≤ 10000 then
      some (response.speakerId, ⟨name, 80 / 100, .contextualDialogue, [segment.id, response.id]⟩)
    else none

/-- These are the candidates of the second loop of `infer_speaker_names`. -/
def addressCandidates (table : FoldTable) (ordered : List TranscriptSegmentDraft) :
    List (Text × NameCandidate) :=
  (ordered.zip ordered.tail).filterMap fun pair => addressCandidate table pair.1 pair.2

/-- These are the items of `candidates`. -/
def nameCandidates (table : FoldTable) (ordered : List TranscriptSegmentDraft) :
    List (Text × List NameCandidate) :=
  grouped (selfCandidates table ordered ++ addressCandidates table ordered)

/-- This is the entry of `chosen` for the candidates of a speaker. -/
def chooseName (table : FoldTable) (values : List NameCandidate) : Option NameCandidate :=
  if ((values.map fun value => casefold table value.name).eraseDups).length = 1 then
    values.argmax NameCandidate.confidence
  else none

/-- These are the items of `chosen`. -/
def chosenNames (table : FoldTable) (ordered : List TranscriptSegmentDraft) :
    List (Text × NameCandidate) :=
  (nameCandidates table ordered).filterMap fun entry =>
    (chooseName table entry.2).map fun value => (entry.1, value)

/-- This is `duplicates[name.casefold()]`. -/
def nameCount (table : FoldTable) (chosen : List (Text × NameCandidate)) (name : Text) : Nat :=
  chosen.countP fun entry => casefold table entry.2.name = casefold table name

/-- This is the identity of a speaker. -/
def identityOf (table : FoldTable) (chosen : List (Text × NameCandidate)) (speaker : Text) :
    SpeakerIdentity :=
  match (chosen.find? fun entry => entry.1 = speaker).map Prod.snd with
  | none => ⟨speaker, none, .unknown, none, none, []⟩
  | some value =>
      if 1 < nameCount table chosen value.name then ⟨speaker, none, .unknown, none, none, []⟩
      else ⟨speaker, some value.name, .inferred, some value.confidence, some value.method,
        value.evidence⟩

/-- This is `infer_speaker_names`. -/
def inferSpeakerNames (table : FoldTable) (segments : List TranscriptSegmentDraft) :
    List SpeakerIdentity :=
  let ordered := sortedBy TranscriptSegmentDraft.ordinal segments
  let speakers := sortedBy id ((ordered.map TranscriptSegmentDraft.speakerId).eraseDups)
  speakers.map (identityOf table (chosenNames table ordered))

end LumenCopilot.Media
