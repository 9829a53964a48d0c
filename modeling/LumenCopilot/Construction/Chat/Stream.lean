import LumenCopilot.Construction.Chat.Coroutine
import LumenCopilot.Construction.Guard.ReasoningGuard
import LumenCopilot.Construction.Library.Dict
import LumenCopilot.Construction.Python.Loads
import LumenCopilot.Construction.Python.Text

namespace LumenCopilot.Chat

open Python Guard

/-- This is a requested tool call with its unparsed arguments. -/
structure ToolCall where
  id : Text := []
  name : Text := []
  arguments : Text := []
  deriving DecidableEq

/-- This is `StreamEvent`. -/
structure StreamEvent where
  text : Text := []
  toolCalls : List ToolCall := []
  finishReason : Option Text := none
  usage : Option TokenUsage := none
  toolCallStarted : Bool := false
  deriving DecidableEq

/-- This is `feed` of `_ToolCallAccumulator`. -/
def ToolCall.feed (call : ToolCall) (fragment : Fragment) : ToolCall where
  id := if fragment.id.isEmpty then call.id else fragment.id
  name := if fragment.name.isEmpty then call.name else fragment.name
  arguments := call.arguments ++ fragment.arguments

/-- This is `_accumulate_tool_call`; the accumulators stay sorted by their index. -/
def accumulateToolCall (fragment : Fragment) : List (Nat × ToolCall) → List (Nat × ToolCall)
  | [] => [(fragment.index, ToolCall.feed {} fragment)]
  | (index, call) :: rest =>
      if fragment.index < index then
        (fragment.index, ToolCall.feed {} fragment) :: (index, call) :: rest
      else if fragment.index = index then (index, call.feed fragment) :: rest
      else (index, call) :: accumulateToolCall fragment rest

/-- These are the variables of the loop of `stream_tools`. -/
structure GatewayStream where
  guard : ReasoningGuard := .fresh
  toolCalls : List (Nat × ToolCall) := []
  signalled : Bool := false
  finishReason : Option Text := none
  usage : Option TokenUsage := none

/-- One part yields its safe text and, at the first fragment, the classification signal. -/
def GatewayStream.feed (table : UnicodeTable) (stream : GatewayStream) (part : Part) :
    List StreamEvent × GatewayStream :=
  let fed := if part.content.isEmpty then (stream.guard, []) else stream.guard.feed table part.content
  let signals := !part.fragments.isEmpty && !stream.signalled
  ((if fed.2.isEmpty then [] else [{ text := fed.2 }]) ++
      (if signals then [{ toolCallStarted := true }] else []),
    { guard := fed.1
      toolCalls := part.fragments.foldl (fun calls fragment => accumulateToolCall fragment calls)
        stream.toolCalls
      signalled := stream.signalled || signals
      finishReason := part.finishReason.or stream.finishReason
      usage := part.usage.or stream.usage })

/-- The end of a completion flushes the guard and reports the assembled tool calls. -/
def GatewayStream.finish (table : UnicodeTable) (stream : GatewayStream) : List StreamEvent :=
  let blocked := stream.finishReason = some "length".toList && !stream.guard.continuationSafe
  let flushed := if blocked then [] else (stream.guard.flush table).2
  let toolCalls := stream.toolCalls.map Prod.snd
  let reason := if blocked then some "stop".toList else stream.finishReason
  (if flushed.isEmpty then [] else [{ text := flushed }]) ++
    [{ toolCalls := toolCalls
       finishReason := some
         (reason.getD (if toolCalls.isEmpty then "stop".toList else "tool_calls".toList))
       usage := stream.usage }]

/-- The loop of `stream_tools` over the parts that arrive before the stream ends or breaks. -/
def GatewayStream.read (table : UnicodeTable) (broken : Bool) :
    GatewayStream → List Part → List StreamEvent
  | stream, [] => if broken then [] else stream.finish table
  | stream, part :: rest =>
      let fed := stream.feed table part
      fed.1 ++ fed.2.read table broken rest

/-- This is `stream_tools`: the events that the gateway yields before its end or its fault. -/
def streamTools (table : UnicodeTable) (completion : Completion) : List StreamEvent :=
  GatewayStream.read table completion.broken.isSome {} completion.parts

end LumenCopilot.Chat

namespace LumenCopilot.Chat

open Python Library

/-- The settings of a runtime, and the functions of other components that it calls. -/
structure Config where
  textCoalesceChars : Nat := 160
  textCoalesceMillis : Int := 40
  answerDeadline : Option Int := none
  turnTimeout : Bool := false
  terminalPublishMargin : Bool := false
  turnAttempts : Nat := 3
  maxModelCalls : Option Nat := none
  maxExternalCalls : Option Nat := none
  maxToolTurns : Nat := 4
  toolConcurrency : Nat := 1
  interceptsAskUser : Bool := true
  suggestionsEnabled : Bool := false
  restoresContext : Bool := false
  model : Text := []
  fallbacks : List Text := []
  table : UnicodeTable := .symbols
  isExternalTool : Text → Bool := fun _ => false
  isConcurrencySafe : Text → Bool := fun _ => false
  parseAskUser : Text → Option Text := fun _ => none
  selectCitedHandles : Text → List Text → Text × List Text := fun answer _ => (answer, [])

/-- This is the typed error of an exhausted answer budget. -/
def budgetProblem (detail : String) : Problem :=
  ⟨503, "Service Unavailable".toList, "answer_budget_exhausted".toList, some detail.toList⟩

/-- This is `_check_answer_deadline`. -/
def checkAnswerDeadline (config : Config) : Coroutine Unit := do
  match config.answerDeadline, ← observe World.finalisingCancel with
  | some deadline, false =>
      let now ← readClock
      if deadline ≤ now then
        raise (.app (budgetProblem "The answer wall-clock budget was exhausted."))
      else return ()
  | _, _ => return ()

/-- This is `_check_cancelled`. -/
def checkCancelled (config : Config) : Coroutine Unit := do
  if ← observe fun world => world.finalisingCancel || world.answerCommitted then return ()
  else if ← observe World.cancelRequested then raise (.cancelled .stop)
  else if ← awaitCall then
    update fun world => { world with cancelRequested := true }
    raise (.cancelled .stop)
  else checkAnswerDeadline config

/-- This is `_claim_model_call`. -/
def claimModelCall (config : Config) : Coroutine Unit := do
  checkAnswerDeadline config
  if ← observe fun world => world.cancelRequested && !world.finalisingCancel then
    raise (.cancelled .stop)
  else
    let calls ← observe World.modelCalls
    match config.maxModelCalls with
    | some cap =>
        if cap ≤ calls then
          raise (.app (budgetProblem "The answer model-call budget was exhausted."))
        else update fun world => { world with modelCalls := world.modelCalls + 1 }
    | none => update fun world => { world with modelCalls := world.modelCalls + 1 }

/-- This is `next_seq` of the stream state. -/
def mintSeq : Coroutine Nat := transition fun world => (.ok world.seq, { world with seq := world.seq + 1 })

/-- This is `_publish`: an accepted Stop refuses every envelope but `start`. -/
def publishOn (next : Coroutine Await) (seq : Nat) (payload : Payload) : Coroutine Unit := do
  if ← observe fun world => world.cancelRequested && !world.finalisingCancel &&
      !world.answerCommitted && payload ≠ .start then
    raise (.cancelled .stop)
  else
    let outcome ← next
    backplanePublish outcome ⟨seq, payload⟩

def publish (seq : Nat) (payload : Payload) : Coroutine Unit := publishOn nextAwait seq payload

/-- This is `_publish_text_envelope`. -/
def publishTextEnvelope (kind : TextKind) (text : Text) : Coroutine Unit := do
  match kind with
  | .narration turn =>
      let seq ← mintSeq
      publish seq (.narration text turn)
  | .answer =>
      update fun world =>
        { world with answerOnWire := true, partialAnswer := world.partialAnswer ++ [text] }
      let seq ← mintSeq
      publish seq (.delta text)

/-- This program drains the buffer. -/
def takeBuffer : Coroutine (Option Text) := transition fun world =>
  (.ok world.buffer.take.1, { world with buffer := world.buffer.take.2 })

/-- This is `_flush_text`. -/
def flushText : Coroutine Unit := do
  let kind ← observe fun world => world.buffer.kind
  let text ← takeBuffer
  match kind, text with
  | some kind, some text => publishTextEnvelope kind text
  | _, _ => return ()

/-- This is `_next_seq`. -/
def nextSeq : Coroutine Nat := do
  flushText
  mintSeq

/-- An envelope other than streamed text mints its number after the buffered text. -/
def emit (payload : Payload) : Coroutine Unit := do
  let seq ← nextSeq
  publish seq payload

/-- This program adds a chunk to the buffer. -/
def addToBuffer (config : Config) (now : Int) (kind : TextKind) (chunk : Text) :
    Coroutine (Option Text) := transition fun world =>
  let added := world.buffer.add config.textCoalesceChars config.textCoalesceMillis now kind chunk
  (.ok added.1, { world with buffer := added.2 })

/-- This is `_stream_text`. -/
def streamText (config : Config) (kind : TextKind) (chunk : Text) : Coroutine Unit := do
  if chunk.isEmpty then return ()
  else
    let buffered ← observe fun world => world.buffer.kind
    doWhen (buffered.isSome && buffered ≠ some kind) flushText
    let now ← readClock
    match ← addToBuffer config now kind chunk with
    | some ready => publishTextEnvelope kind ready
    | none => return ()

/-- The buffered answer text is discarded, and buffered narration is flushed. -/
def discardBuffer : Coroutine Unit := do
  let kind ← observe fun world => world.buffer.kind
  if kind = none ∨ kind = some .answer then
    let _ ← takeBuffer
  else flushText

/-- This is `_retract_answer`. -/
def retractAnswer : Coroutine Unit := do
  discardBuffer
  update fun world => { world with partialAnswer := [] }
  if ← observe World.answerOnWire then
    update fun world => { world with answerOnWire := false }
    let seq ← mintSeq
    publish seq .answerRetract
  else return ()

/-- This is `_publish_text`. -/
def publishText (config : Config) : List Text → Coroutine Unit
  | [] => return ()
  | chunk :: rest => do
      streamText config .answer chunk
      publishText config rest

end LumenCopilot.Chat

namespace LumenCopilot.Chat

open Python Library

/-- This is the character class of `_SAFE_NAME`. -/
def isSafeNameChar (c : Char) : Bool := c.isAlphanum || c == '_'

/-- This is `_SAFE_NAME.fullmatch(name)`. -/
def isSafeName (name : Text) : Bool :=
  !name.isEmpty && name.length ≤ 64 && name.all isSafeNameChar

/-- This is the portable name of a tool. -/
def wireName (name : Text) : Text :=
  if isSafeName name then name
  else
    let readable := (replace [':'] ['_', '_'] name).map fun c => if isSafeNameChar c then c else '_'
    readable.take 42 ++ ['_', '_'] ++ (Sha256.hexdigest (utf8 name)).take 20

/-- This is `ToolNameMap`. -/
structure ToolNameMap where
  forward : Dict Text Text
  reverse : Dict Text Text

/-- This is the body of the loop of `ToolNameMap.__init__`; a collision is a `ValidationError`. -/
def ToolNameMap.add (map : ToolNameMap) (name : Text) : Option ToolNameMap :=
  if (map.reverse.lookup (wireName name)).any fun other => other ≠ name then none
  else some ⟨map.forward.assign name (wireName name), map.reverse.assign (wireName name) name⟩

/-- This is `ToolNameMap.__init__`. -/
def ToolNameMap.ofNames (names : List Text) : Option ToolNameMap :=
  (sortedSet names).foldlM ToolNameMap.add ⟨∅, ∅⟩

/-- This is `to_wire`. -/
def ToolNameMap.toWire (map : ToolNameMap) (name : Text) : Text :=
  (map.forward.lookup name).getD name

/-- This is `from_wire`. -/
def ToolNameMap.fromWire (map : ToolNameMap) (name : Text) : Text :=
  (map.reverse.lookup name).getD name

/-- This is a domain `ToolCall` with its parsed arguments. -/
structure BuiltToolCall where
  id : Text
  name : Text
  arguments : List (Text × Json)

/-- This is `json.loads` into a `dict`. -/
def loadsPlain (nesting : Nat) (text : Text) : Except Json.LoadError Json :=
  Json.loads (fun pairs => .ok (.dict (Json.ofPairs pairs))) nesting text

/-- This is `build` of `_ToolCallAccumulator`: a `ValueError` and a value other than an object give no
arguments. -/
def ToolCall.build (nesting : Nat) (call : ToolCall) : Except Json.LoadError BuiltToolCall :=
  if isBlank call.arguments then .ok ⟨call.id, call.name, []⟩
  else
    match loadsPlain nesting call.arguments with
    | .ok (.dict fields) => .ok ⟨call.id, call.name, fields⟩
    | .ok _ | .error .value | .error .hook => .ok ⟨call.id, call.name, []⟩
    | .error .recursion => .error .recursion

/-- These are the calls that `stream_tools` emits, under their domain names. -/
def domainCalls (map : ToolNameMap) (nesting : Nat) (calls : List ToolCall) :
    Except Json.LoadError (List BuiltToolCall) :=
  calls.mapM fun call =>
    (call.build nesting).map fun built => { built with name := map.fromWire built.name }

/-- This is `_accumulate_tool_call` on the dictionary of accumulators. -/
def accumulate (acc : Dict Nat ToolCall) (fragment : Fragment) : Dict Nat ToolCall :=
  acc.assign fragment.index (((acc.lookup fragment.index).getD {}).feed fragment)

/-- This is `sorted(tool_acc.items())`, whose keys are distinct. -/
def sortedItems (acc : Dict Nat ToolCall) : List (Nat × ToolCall) :=
  sortedBy Prod.fst (acc.entries.map fun entry => (entry.1, entry.2))

end LumenCopilot.Chat
