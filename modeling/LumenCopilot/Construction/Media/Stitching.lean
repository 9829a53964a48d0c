import LumenCopilot.Construction.Library.Alignment
import LumenCopilot.Construction.Library.Dict
import LumenCopilot.Construction.Python.Numerals
import LumenCopilot.Construction.Python.Text

namespace LumenCopilot.Media

open Python Library

/-- This is `MediaProcessingError`. -/
structure MediaProcessingError where
  message : Text
  deriving DecidableEq

def refuse {α : Type} (message : String) : Except MediaProcessingError α := .error ⟨message.toList⟩

/-- This is `MediaSpan`. -/
structure MediaSpan where
  index : Int
  startMs : Int
  endMs : Int
  deriving DecidableEq

/-- This is `TranscriptionWord`, with its times on the timeline of the request. -/
structure TranscriptionWord where
  text : Text
  startMs : Int
  endMs : Int
  speakerLabel : Text
  confidence : Option Rat
  deriving DecidableEq

/-- This is `ChunkTranscription` with the words of its result. -/
structure ChunkTranscription where
  span : MediaSpan
  words : List TranscriptionWord
  deriving DecidableEq

/-- This is `_GlobalWord`, with its times on the timeline of the file. -/
structure GlobalWord where
  text : Text
  startMs : Int
  endMs : Int
  label : Text
  confidence : Option Rat
  deriving DecidableEq

/-- This is the loop of `plan_audio_chunks`; each pass takes one unit of fuel. -/
def planFrom (durationMs maxChunkMs overlapMs : Int) : Nat → Nat → Int → List MediaSpan
  | 0, _, _ => []
  | fuel + 1, index, start =>
      if start < durationMs then
        let stop := min durationMs (start + maxChunkMs)
        ⟨index, start, stop⟩ ::
          if stop = durationMs then []
          else planFrom durationMs maxChunkMs overlapMs fuel (index + 1) (stop - overlapMs)
      else []

/-- This is `plan_audio_chunks`. -/
def planAudioChunks (durationMs maxChunkMs overlapMs : Int) :
    Except MediaProcessingError (List MediaSpan) :=
  if durationMs ≤ 0 ∨ maxChunkMs ≤ 0 then refuse "audio duration and chunk size must be positive"
  else if overlapMs ≤ 0 ∨ maxChunkMs ≤ overlapMs then
    refuse "audio chunk overlap must be positive and smaller than the chunk size"
  else .ok (planFrom durationMs maxChunkMs overlapMs durationMs.toNat 0 0)

/-- The table has the case folding of the code points above ASCII as well. -/
structure FoldTable extends UnicodeTable where
  fold : Char → Text

/-- This table treats every code point above ASCII as an uncased symbol. -/
def FoldTable.symbols : FoldTable := ⟨.symbols, fun c => [c]⟩

/-- This is `str.casefold`. -/
def casefold (table : FoldTable) (text : Text) : Text :=
  text.flatMap fun c => if isAscii c then [c.toLower] else table.fold c

/-- This is `_normal_word`. -/
def normalWord (table : FoldTable) (text : Text) : Text :=
  (casefold table text).filter fun c => isWord table.toUnicodeTable c || c == '\''

/-- A word intersects the shared audio. -/
def GlobalWord.intersects (overlapStart overlapEnd : Int) (word : GlobalWord) : Bool :=
  word.startMs < overlapEnd && overlapStart < word.endMs

/-- Two observations may be of one utterance. -/
def GlobalWord.agrees (table : FoldTable) (prior word : GlobalWord) : Bool :=
  normalWord table prior.text ≠ [] && normalWord table prior.text = normalWord table word.text &&
    |word.startMs - prior.startMs| ≤ 750 && |word.endMs - prior.endMs| ≤ 750

/-- A pair counts once, and its timing distance counts against it. -/
def pairGain (table : FoldTable) (prior word : GlobalWord) : Option (Nat ×ₗ Int) :=
  if prior.agrees table word then
    some (toLex (1, -|word.startMs - prior.startMs| - |word.endMs - prior.endMs|))
  else none

/-- These are the words that intersect the shared audio, with their indexes. -/
def overlapWords (overlapStart overlapEnd : Int) (words : List GlobalWord) : List (GlobalWord × Nat) :=
  words.zipIdx.filter fun entry => entry.1.intersects overlapStart overlapEnd

/-- This is `_align_overlap_words`. -/
def alignOverlapWords (table : FoldTable) (previous current : List GlobalWord)
    (overlapStart overlapEnd : Int) : List (Nat × Nat) :=
  (alignItems (fun prior word => pairGain table prior.1 word.1)
    (overlapWords overlapStart overlapEnd previous)
    (overlapWords overlapStart overlapEnd current)).map fun pair => (pair.1.2, pair.2.2)

/-- This is `StitchedWord`. -/
structure StitchedWord where
  text : Text
  startMs : Int
  endMs : Int
  speakerId : Text
  confidence : Option Rat
  deriving DecidableEq

/-- A word is named by the index of its chunk and its index there. -/
abbrev WordKey : Type := Nat ×ₗ Nat

def wordKey (chunkIndex wordIndex : Nat) : WordKey := toLex (chunkIndex, wordIndex)

/-- This is a chunk with its words on the timeline of the file and its entry of `label_maps`. -/
structure ReadChunk where
  span : MediaSpan
  words : List GlobalWord
  labels : Dict Text Text

/-- These are the variables of the loop over the chunks; the chunks hold `raw_global` and
`label_maps`. -/
structure Stitching where
  nextSpeaker : Nat
  chunks : List ReadChunk
  roots : Dict WordKey WordKey

def Stitching.start : Stitching := ⟨1, [], ∅⟩

/-- These are the checks of the ordered spans. -/
def checkSpans (durationMs : Int) : Nat → Option MediaSpan → List MediaSpan →
    Except MediaProcessingError Unit
  | _, _, [] => .ok ()
  | expected, previous, span :: rest =>
      if span.index ≠ expected ∨ ¬ (0 ≤ span.startMs ∧ span.startMs < span.endMs) then
        refuse "transcription chunks are missing or out of order"
      else if durationMs < span.endMs then refuse "transcription chunk exceeds media duration"
      else if previous.any fun previous => previous.endMs ≤ span.startMs then
        refuse "adjacent transcription chunks do not overlap"
      else checkSpans durationMs (expected + 1) (some span) rest

/-- This is the word on the timeline of the file. -/
def TranscriptionWord.globalIn (span : MediaSpan) (word : TranscriptionWord) : GlobalWord :=
  ⟨word.text, span.startMs + word.startMs, span.startMs + word.endMs, word.speakerLabel,
    word.confidence⟩

/-- This is the loop over the words of a chunk. -/
def readWords (durationMs : Int) (span : MediaSpan) : Int → List TranscriptionWord →
    Except MediaProcessingError (List GlobalWord)
  | _, [] => .ok []
  | previousLocalStart, word :: rest =>
      if ¬ (0 ≤ word.startMs ∧ word.startMs < word.endMs ∧ word.endMs ≤ span.endMs - span.startMs) ∨
          word.startMs < previousLocalStart then
        refuse "provider word falls outside its audio chunk"
      else if durationMs < span.startMs + word.endMs then
        refuse "provider word falls outside media duration"
      else (readWords durationMs span word.startMs rest).map (word.globalIn span :: ·)

/-- This is the neutral id of a speaker of the file. -/
def speakerId (number : Nat) : Text := "speaker-".toList ++ natText number

/-- This is the id that the most aligned words give, if two words do and no other id has as many. -/
def bestCanonical {α : Type} [DecidableEq α] (candidates : List α) : Option (α × Nat) :=
  match mostCommon candidates with
  | [] => none
  | [best] => if 2 ≤ best.2 then some best else none
  | best :: second :: _ => if 2 ≤ best.2 ∧ second.2 < best.2 then some best else none

/-- These are the increments of `counts`: the label of each aligned word with the id that the
previous chunk gave its counterpart. -/
def labelVotes (previous : ReadChunk) (words : List GlobalWord) (matched : List (Nat × Nat)) :
    List (Text × Text) :=
  matched.filterMap fun pair => do
    let prior ← previous.words[pair.1]?
    let word ← words[pair.2]?
    let canonical ← previous.labels.lookup prior.label
    return (word.label, canonical)

/-- This is `sorted(ranked, reverse=True)`. -/
def rankedClaims (votes : List (Text × Text)) : List (Text × Text) :=
  let ranked := (grouped votes).filterMap fun entry =>
    (bestCanonical entry.2).map fun best => (best.2, entry.1, best.1)
  (sortedBy (fun claim => OrderDual.toDual (toLex (claim.1, toLex (claim.2.1, claim.2.2))))
    ranked).map Prod.snd

/-- Each claimed id is given to one label. -/
def claimLabel (claims : Dict Text Text × List Text) (claim : Text × Text) :
    Dict Text Text × List Text :=
  if claim.2 ∈ claims.2 then claims
  else (claims.1.assign claim.1 claim.2, claims.2 ++ [claim.2])

/-- This is the mapping of the labels that claim an id of the previous chunk. -/
def claimedLabels (votes : List (Text × Text)) : Dict Text Text :=
  ((rankedClaims votes).foldl claimLabel (∅, [])).1

/-- A label without an id gets a new one. -/
def mintLabel (minted : Dict Text Text × Nat) (label : Text) : Dict Text Text × Nat :=
  if label ∈ minted.1 then minted
  else (minted.1.assign label (speakerId minted.2), minted.2 + 1)

def rootOf (roots : Dict WordKey WordKey) (key : WordKey) : WordKey := (roots.lookup key).getD key

/-- A matched word shares the root of its counterpart in the previous chunk. -/
def linkRoot (chunkIndex : Nat) (roots : Dict WordKey WordKey) (pair : Nat × Nat) :
    Dict WordKey WordKey :=
  roots.assign (wordKey chunkIndex pair.2) (rootOf roots (wordKey (chunkIndex - 1) pair.1))

/-- This is the alignment of a chunk with the one before it. -/
def overlapMatches (table : FoldTable) (previous : Option ReadChunk) (span : MediaSpan)
    (words : List GlobalWord) : List (Nat × Nat) :=
  match previous with
  | none => []
  | some previous =>
      alignOverlapWords table previous.words words span.startMs previous.span.endMs

/-- These are the labels of a chunk that keep an id of the chunk before it. -/
def carriedLabels (table : FoldTable) (previous : Option ReadChunk) (span : MediaSpan)
    (words : List GlobalWord) : Dict Text Text :=
  match previous with
  | none => ∅
  | some chunk => claimedLabels (labelVotes chunk words (overlapMatches table previous span words))

/-- These are the labels of a chunk with their ids, and the next number. -/
def mintedLabels (table : FoldTable) (span : MediaSpan) (words : List GlobalWord)
    (state : Stitching) : Dict Text Text × Nat :=
  (words.map GlobalWord.label).eraseDups.foldl mintLabel
    (carriedLabels table state.chunks.getLast? span words, state.nextSpeaker)

/-- This is the chunk that the loop adds. -/
def Stitching.added (table : FoldTable) (span : MediaSpan) (words : List GlobalWord)
    (state : Stitching) : ReadChunk :=
  ⟨span, words, (mintedLabels table span words state).1⟩

/-- This is the state after the words of a chunk. -/
def Stitching.take (table : FoldTable) (span : MediaSpan) (words : List GlobalWord)
    (state : Stitching) : Stitching where
  nextSpeaker := (mintedLabels table span words state).2
  chunks := state.chunks ++ [state.added table span words]
  roots := (overlapMatches table state.chunks.getLast? span words).foldl
    (linkRoot state.chunks.length) state.roots

/-- This is one pass of the loop over the chunks. -/
def readChunk (table : FoldTable) (durationMs : Int) (state : Stitching) (item : ChunkTranscription) :
    Except MediaProcessingError Stitching := do
  let words ← readWords durationMs item.span (-1) item.words
  if words = [] then refuse "provider returned an empty transcription chunk"
  else return state.take table item.span words

/-- These are the keys of all words. -/
def wordKeys (chunks : List ReadChunk) : List WordKey :=
  chunks.zipIdx.flatMap fun entry =>
    (List.range entry.1.words.length).map fun wordIndex => wordKey entry.2 wordIndex

def wordAt (chunks : List ReadChunk) (key : WordKey) : Option GlobalWord := do
  let chunk ← chunks[(ofLex key).1]?
  chunk.words[(ofLex key).2]?

/-- These are the `boundaries` of ownership. -/
def boundaries (spans : List MediaSpan) : List Int :=
  List.zipWith (fun span next => (span.endMs + next.startMs) / 2) spans spans.tail

/-- This is the ownership window of a chunk. -/
def ownershipWindow (durationMs : Int) (spans : List MediaSpan) (index : Nat) : Int × Int :=
  (if index = 0 then 0 else (boundaries spans).getD (index - 1) 0,
    if index + 1 = spans.length then durationMs + 1 else (boundaries spans).getD index 0)

/-- This is `is_owned` of the key of a word. -/
def isOwned (durationMs : Int) (chunks : List ReadChunk) (key : WordKey) : Bool :=
  let window := ownershipWindow durationMs (chunks.map ReadChunk.span) (ofLex key).1
  (wordAt chunks key).any fun word =>
    window.1 ≤ (word.startMs + word.endMs) / 2 && (word.startMs + word.endMs) / 2 < window.2

/-- This is the canonical observation of an utterance. -/
def pickObservation (owns : WordKey → Bool) (instances : List WordKey) : Option WordKey :=
  let owned := instances.filter owns
  if owned = [] ∧ instances.length = 1 then none
  else if owned = [] then instances.min? else owned.min?

/-- This is the word of an observation. -/
def stitchedWord (chunks : List ReadChunk) (key : WordKey) : Option StitchedWord := do
  let chunk ← chunks[(ofLex key).1]?
  let word ← chunk.words[(ofLex key).2]?
  let speaker ← chunk.labels.lookup word.label
  return ⟨word.text, word.startMs, word.endMs, speaker, word.confidence⟩

/-- These are the canonical observations of the `observations` in their order. -/
def Stitching.picked (durationMs : Int) (state : Stitching) : List WordKey :=
  (grouped ((wordKeys state.chunks).map fun key => (rootOf state.roots key, key))).filterMap
    fun entry => pickObservation (isOwned durationMs state.chunks) entry.2

/-- These are the words of the canonical observations in their final order. -/
def Stitching.output (durationMs : Int) (state : Stitching) : List StitchedWord :=
  sortedBy (fun word : StitchedWord => toLex (word.startMs, word.endMs))
    ((state.picked durationMs).filterMap (stitchedWord state.chunks))

/-- These are the checks and the loop over the chunks of `stitch_chunk_transcriptions`. -/
def readChunks (table : FoldTable) (durationMs : Int) (chunks : List ChunkTranscription) :
    Except MediaProcessingError Stitching :=
  if durationMs ≤ 0 ∨ chunks = [] then refuse "cannot stitch an empty media transcript"
  else do
    let ordered := sortedBy (fun item : ChunkTranscription => item.span.index) chunks
    checkSpans durationMs 0 none (ordered.map ChunkTranscription.span)
    ordered.foldlM (readChunk table durationMs) .start

/-- This is `stitch_chunk_transcriptions`. -/
def stitchChunkTranscriptions (table : FoldTable) (durationMs : Int)
    (chunks : List ChunkTranscription) : Except MediaProcessingError (List StitchedWord) := do
  let state ← readChunks table durationMs chunks
  if state.output durationMs = [] then refuse "overlap stitching produced no words"
  else return state.output durationMs

end LumenCopilot.Media
