import LumenCopilot.Construction.Python.Text

namespace LumenCopilot.Chat

open Python

/-- This is the body of a typed problem. -/
structure Problem where
  status : Nat
  title : Text
  code : Text
  detail : Option Text := none
  deriving DecidableEq

/-- These side-band events leave the answer text of the client alone. -/
inductive EventName where
  | step
  | toolCall
  | toolResult
  | codeOutput
  | codeResult
  | citation
  | webCitation
  deriving DecidableEq

/-- This is the type of an envelope with the data that the client folds. -/
inductive Payload where
  | start
  | delta (text : Text)
  | answerRetract
  | narration (text : Text) (turn : Nat)
  | event (name : EventName)
  | askUser (question : Text)
  | suggestions (items : List Text)
  | done (finishReason : Text) (pendingSuggestions : Bool)
  | error (problem : Problem)
  | cancelled
  deriving DecidableEq

/-- An envelope carries its sequence number. -/
structure Envelope where
  seq : Nat
  payload : Payload
  deriving DecidableEq

/-- This is `is_terminal`. -/
def Payload.isTerminal : Payload → Bool
  | .done _ _ | .error _ | .cancelled => true
  | _ => false

/-- These envelopes change the answer text of the client. -/
def Payload.isText : Payload → Bool
  | .delta _ | .answerRetract => true
  | _ => false

/-- This is the phase of a client stream. -/
inductive StreamPhase where
  | idle
  | streaming
  | done
  | error
  | cancelled
  deriving DecidableEq

def StreamPhase.isTerminal : StreamPhase → Bool
  | .done | .error | .cancelled => true
  | .idle | .streaming => false

/-- This is the state of `streamReducer`, without the lists that the side-band events fill. -/
structure StreamState where
  phase : StreamPhase := .idle
  lastSeq : Int := -1
  text : Text := []
  narration : Option (Nat × Text) := none
  askUser : Option Text := none
  suggestions : Option (List Text) := none
  pendingSuggestions : Bool := false
  problem : Option Problem := none
  deriving DecidableEq

/-- These code points are white space for `trim`. -/
def isTrimmed (c : Char) : Bool :=
  let n := c.toNat
  (9 ≤ n && n ≤ 13) || n == 32 || n == 0xA0 || n == 0x1680 || (0x2000 ≤ n && n ≤ 0x200A) ||
    n == 0x2028 || n == 0x2029 || n == 0x202F || n == 0x205F || n == 0x3000 || n == 0xFEFF

/-- This is `asSuggestions`: blank items are dropped, and no item is no suggestion. -/
def asSuggestions (items : List Text) : Option (List Text) :=
  let shown := items.filter fun item => !item.all isTrimmed
  if shown.isEmpty then none else some shown

/-- This is the part of `reduceStream` for an envelope that is not stale. -/
def StreamState.apply (state : StreamState) (seq : Nat) (payload : Payload) : StreamState :=
  let base := { state with lastSeq := (seq : Int) }
  match payload with
  | .start => { base with phase := .streaming }
  | .delta text => { base with phase := .streaming, text := base.text ++ text }
  | .answerRetract => { base with text := [] }
  | .narration text turn =>
      if 1 ≤ turn then
        let earlier := match base.narration with
          | some (sameTurn, told) => if sameTurn = turn then told else []
          | none => []
        { base with narration := some (turn, earlier ++ text) }
      else base
  | .event _ => base
  | .askUser question => { base with askUser := some question }
  | .suggestions items =>
      match asSuggestions items with
      | some shown => { base with suggestions := some shown }
      | none => base
  | .done _ pendingSuggestions =>
      { base with phase := .done, pendingSuggestions := pendingSuggestions }
  | .error problem => { base with phase := .error, problem := some problem }
  | .cancelled => { base with phase := .cancelled }

/-- A settled stream accepts one event of suggestions that its `done` declared. -/
def StreamState.applySettled (state : StreamState) (envelope : Envelope) : StreamState :=
  match envelope.payload with
  | .suggestions items =>
      if state.phase = .done ∧ state.pendingSuggestions ∧ state.suggestions.isNone ∧
          state.lastSeq < envelope.seq then
        match asSuggestions items with
        | some shown => { state with lastSeq := envelope.seq, suggestions := some shown }
        | none => state
      else state
  | _ => state

/-- This is `reduceStream`. -/
def reduceStream (state : StreamState) (envelope : Envelope) : StreamState :=
  if state.phase.isTerminal then state.applySettled envelope
  else if (envelope.seq : Int) ≤ state.lastSeq then state
  else state.apply envelope.seq envelope.payload

end LumenCopilot.Chat
