import LumenCopilot.Construction.Python.Text

namespace LumenCopilot.Ingestion

open Python

/-- This is `text[start:stop]`. -/
def slice (text : Text) (start stop : Nat) : Text := (text.take stop).drop start

/-- This is `TextChunk`. -/
structure TextChunk where
  ord : Nat
  text : Text
  charStart : Nat
  charEnd : Nat
  deriving DecidableEq

/-- These are the misconfigurations that `chunk_text` refuses. -/
inductive ChunkingError where
  | chunkSize
  | overlap
  deriving DecidableEq

/-- This is `_SENTENCE_ENDINGS`. -/
def sentenceEndings : List Char := ['.', '!', '?', '\n']

/-- The position after the last character of the band that the predicate accepts. -/
def lastCut (text : Text) (floor hardEnd : Nat) (accepts : Char → Bool) : Option Nat :=
  ((List.range' floor (hardEnd - floor)).reverse.find? fun place => text[place]?.any accepts).map
    (· + 1)

/-- This is `_find_boundary`. -/
def findBoundary (text : Text) (windowStart hardEnd : Nat) : Nat :=
  let lookback := (hardEnd - windowStart) / 2
  let floor := max (windowStart + 1) (hardEnd - lookback)
  match lastCut text floor hardEnd fun c => c ∈ sentenceEndings with
  | some cut => cut
  | none => (lastCut text floor hardEnd isSpace).getD hardEnd

/-- This is the cut of the window that starts here. -/
def windowCut (text : Text) (chunkSize overlap windowStart : Nat) : Nat :=
  let hardEnd := min (windowStart + chunkSize) text.length
  let cut := if text.length ≤ hardEnd then hardEnd else findBoundary text windowStart hardEnd
  if cut < hardEnd ∧ cut - windowStart ≤ overlap then hardEnd else cut

/-- This is the loop of `chunk_text`; each pass takes one unit of fuel. -/
def chunkLoop (text : Text) (chunkSize overlap : Nat) : Nat → Nat → Nat → List TextChunk
  | 0, _, _ => []
  | fuel + 1, windowStart, ordinal =>
      if windowStart < text.length then
        let cut := windowCut text chunkSize overlap windowStart
        let piece := slice text windowStart cut
        let rest (ordinal : Nat) : List TextChunk :=
          if text.length ≤ cut then [] else chunkLoop text chunkSize overlap fuel (cut - overlap) ordinal
        if isBlank piece then rest ordinal
        else ⟨ordinal, piece, windowStart, cut⟩ :: rest (ordinal + 1)
      else []

/-- This is `chunk_text`. -/
def chunkText (text : Text) (chunkSize overlap : Int) : Except ChunkingError (List TextChunk) :=
  if chunkSize ≤ 0 then .error .chunkSize
  else if overlap < 0 ∨ chunkSize ≤ overlap then .error .overlap
  else if isBlank text then .ok []
  else .ok (chunkLoop text chunkSize.toNat overlap.toNat text.length 0 0)

/-- This is the text of `load_document_text` from the chunk rows of a document; a document that the
caller may not see has none. -/
def loadDocumentText (visible : Bool) (rows : List TextChunk) : Option Text :=
  if visible then
    some ((rows.mergeSort fun first second => first.ord ≤ second.ord).flatMap TextChunk.text)
  else none

/-- This is the loop of `reassemble_chunk_texts` behind the furthest character. -/
def reassembleFrom (previousEnd : Nat) : List TextChunk → Text
  | [] => []
  | chunk :: rest =>
      if chunk.charEnd ≤ previousEnd then reassembleFrom previousEnd rest
      else chunk.text.drop (previousEnd - chunk.charStart) ++ reassembleFrom chunk.charEnd rest

/-- This is `reassemble_chunk_texts`. -/
def reassembleChunkTexts (chunks : List TextChunk) : Text := reassembleFrom 0 chunks

end LumenCopilot.Ingestion
