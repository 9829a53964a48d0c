import LumenCopilot.Construction.Chat.Envelope
import LumenCopilot.Construction.Library.Program

namespace LumenCopilot.Chat

open Python Library

/-- A cancellation comes from a user Stop, from a shutdown or from one of the two deadlines. -/
inductive Cause where
  | stop
  | shutdown
  | answerDeadline
  | turnDeadline
  deriving DecidableEq

/-- These errors can leave an await of the coroutine. A Stop is not among them because
`request_cancel` itself raises it. -/
inductive Fault where
  | shutdown
  | answerDeadline
  | turnDeadline
  | timeout
  | app (problem : Problem)
  | other
  deriving DecidableEq

/-- These errors travel through the coroutine; `cleanup` is `ToolCancellationPending`. -/
inductive Interrupt where
  | cancelled (cause : Cause)
  | timeout
  | app (problem : Problem)
  | provider (problem : Problem) (retryable : Bool)
  | cleanup
  | other
  deriving DecidableEq

def Fault.interrupt : Fault → Interrupt
  | .shutdown => .cancelled .shutdown
  | .answerDeadline => .cancelled .answerDeadline
  | .turnDeadline => .cancelled .turnDeadline
  | .timeout => .timeout
  | .app problem => .app problem
  | .other => .other

/-- One suspension of the coroutine: whether `request_cancel` is called meanwhile, whether the
awaited call takes effect although it raises, the Boolean that it returns, and its error. -/
structure Await where
  stops : Bool := false
  taken : Bool := true
  flag : Bool := false
  ending : Option Fault := none
  deriving DecidableEq

/-- This is `_TextKind`: answer text, or the narration of one turn. -/
inductive TextKind where
  | answer
  | narration (turn : Nat)
  deriving DecidableEq

/-- This is the buffer of `_TextCoalescer`. -/
structure TextCoalescer where
  kind : Option TextKind := none
  parts : List Text := []
  chars : Nat := 0
  openedAt : Int := 0
  deriving DecidableEq

/-- This is `take`. -/
def TextCoalescer.take (buffer : TextCoalescer) : Option Text × TextCoalescer :=
  if buffer.parts.isEmpty then (none, { buffer with kind := none })
  else (some buffer.parts.flatten, { buffer with kind := none, parts := [], chars := 0 })

/-- This is `add`. -/
def TextCoalescer.add (maxChars : Nat) (maxDelay : Int) (now : Int) (kind : TextKind) (chunk : Text)
    (buffer : TextCoalescer) : Option Text × TextCoalescer :=
  let opened := if buffer.kind.isNone then { buffer with kind := some kind, openedAt := now }
    else buffer
  let added := { opened with
    parts := opened.parts ++ [chunk], chars := opened.chars + chunk.length }
  if maxChars ≤ added.chars ∨ maxDelay ≤ now - added.openedAt then added.take
  else (none, added)

/-- This is `flush_deadline`. -/
def TextCoalescer.flushDeadline (maxDelay : Int) (buffer : TextCoalescer) : Option Int :=
  if buffer.kind.isNone then none else some (buffer.openedAt + maxDelay)

/-- One call of the backplane: the envelope, whether it took effect, and the text that was
buffered at that time. -/
structure Sent where
  envelope : Envelope
  taken : Bool
  buffered : List Text
  deriving DecidableEq

/-- The stored assistant message is an answer, a clarifying question or a cancelled partial. -/
inductive MessageKind where
  | answer
  | question
  | cancelled
  deriving DecidableEq

structure StoredMessage where
  content : Text
  kind : MessageKind
  deriving DecidableEq

/-- This is `TokenUsage`. -/
structure TokenUsage where
  promptTokens : Nat := 0
  completionTokens : Nat := 0
  totalTokens : Nat := 0
  cachedPromptTokens : Nat := 0
  cacheWriteTokens : Nat := 0
  deriving DecidableEq

/-- This is `_Usage`. -/
structure Usage where
  totals : TokenUsage := {}
  lastTurnPromptTokens : Option Nat := none
  deriving DecidableEq

def TokenUsage.add (first second : TokenUsage) : TokenUsage where
  promptTokens := first.promptTokens + second.promptTokens
  completionTokens := first.completionTokens + second.completionTokens
  totalTokens := first.totalTokens + second.totalTokens
  cachedPromptTokens := first.cachedPromptTokens + second.cachedPromptTokens
  cacheWriteTokens := first.cacheWriteTokens + second.cacheWriteTokens

/-- This is `_RouteState`, without the credentials of the route. -/
structure RouteState where
  model : Text
  fallbacks : List Text := []
  spent : List (Text × Usage) := []
  deriving DecidableEq

/-- A row of `llm_usage` for an answer names its model and whether it belongs to the message. -/
structure UsageRow where
  model : Text
  usage : Usage
  ofMessage : Bool
  deriving DecidableEq

/-- A usage report that arrived names the model of the active route, and whether a Stop or the
deadline had come before it. -/
structure Report where
  model : Text
  usage : TokenUsage
  late : Bool
  deriving DecidableEq

/-- A provider streams a tool call in fragments. -/
structure Fragment where
  index : Nat := 0
  id : Text := []
  name : Text := []
  arguments : Text := []
  deriving DecidableEq

/-- One part of a provider stream. -/
structure Part where
  content : Text := []
  fragments : List Fragment := []
  finishReason : Option Text := none
  usage : Option TokenUsage := none
  deriving DecidableEq

/-- A provider stream ends, or breaks with a classified fault. -/
structure Completion where
  parts : List Part := []
  broken : Option (Problem × Bool) := none
  deriving DecidableEq

/-- The result of a tool call: the passages and web sources that it issues handles for, the
envelopes that a sandbox publishes itself, and whether a cancelled call leaves its cleanup pending. -/
structure ToolOutcome where
  passages : List (Text × Nat) := []
  web : List Text := []
  codeEvents : List EventName := []
  cleanupPending : Bool := false
  deriving DecidableEq

/-- The world is the stream state and the runtime of one answer, the environment that is still to
come and the history of the answer. -/
structure World where
  seq : Nat := 0
  buffer : TextCoalescer := {}
  terminalSent : Bool := false
  terminalSeq : Option Nat := none
  answerOnWire : Bool := false
  answerCommitted : Bool := false
  partialAnswer : List Text := []
  cancelRequested : Bool := false
  finalisingCancel : Bool := false
  completing : Bool := false
  settlingError : Bool := false
  modelCalls : Nat := 0
  producerDeadline : Bool := false
  cancelling : Bool := false
  emittedNarration : Bool := false
  emittedAnswer : Bool := false
  route : RouteState := { model := [] }
  usage : Usage := {}
  salvage : Bool := false
  script : List Await := []
  clock : List Int := []
  provider : List Completion := []
  tools : List ToolOutcome := []
  sent : List Sent := []
  stops : List Bool := []
  draft : Option StoredMessage := none
  stored : Option StoredMessage := none
  draftRows : List UsageRow := []
  rows : List UsageRow := []
  reports : List Report := []
  deriving DecidableEq

abbrev Coroutine : Type → Type := Effect World Interrupt

/-- This is `request_cancel`; the answer tells whether the Stop was accepted. -/
def World.requestCancel (world : World) : Bool × World :=
  if world.completing || world.settlingError || world.answerCommitted || world.terminalSent then
    (false, { world with stops := world.stops ++ [false] })
  else (true, { world with cancelRequested := true, stops := world.stops ++ [true] })

/-- The coroutine suspends; the first accepted Stop cancels it at this await. -/
def World.suspend (outcome : Await) (world : World) : Option Interrupt × World :=
  let stopped := if outcome.stops then world.requestCancel.2 else world
  if stopped.cancelRequested && !world.cancelRequested then
    (some (.cancelled .stop), { stopped with cancelling := true })
  else
    (outcome.ending.map Fault.interrupt,
      { stopped with cancelling := stopped.cancelling || outcome.ending = some .shutdown })

/-- The environment decides the next suspension. -/
def nextAwait : Coroutine Await := transition fun world =>
  (.ok (world.script.headD {}), { world with script := world.script.tail })

/-- An awaited call returns its Boolean or raises. -/
def awaitOn (outcome : Await) : Coroutine Bool := transition fun world =>
  match world.suspend outcome with
  | (none, resumed) => (.ok outcome.flag, resumed)
  | (some interrupt, resumed) => (.error interrupt, resumed)

def awaitCall : Coroutine Bool := do awaitOn (← nextAwait)

/-- An awaited call whose Boolean is not read. -/
def awaits : Coroutine Unit := do
  let _ ← awaitCall

/-- An await whose ordinary errors are contained, and whose cancellation passes. -/
def awaitContained : Coroutine Unit :=
  catching awaits fun
    | .cancelled _ => none
    | _ => some (pure ())

/-- An await whose cancellation is suppressed. -/
def awaitSuppressed : Coroutine Unit :=
  catching awaits fun
    | .cancelled _ => some (pure ())
    | _ => none

/-- The history of a publication that the backplane has answered. -/
def World.publishes (outcome : Await) (envelope : Envelope) (world : World) :
    Option Interrupt × World :=
  let (raised, resumed) := world.suspend outcome
  (raised, { resumed with
    sent := resumed.sent ++ [⟨envelope, outcome.taken || raised.isNone, world.buffer.parts⟩] })

/-- The backplane publishes an envelope; a call that raises may still take effect. -/
def backplanePublish (outcome : Await) (envelope : Envelope) : Coroutine Unit := transition fun world =>
  match world.publishes outcome envelope with
  | (none, published) => (.ok (), published)
  | (some interrupt, published) => (.error interrupt, published)

/-- This function reads the next value of the monotonic clock. -/
def readClock : Coroutine Int := transition fun world =>
  (.ok (world.clock.headD 0), { world with clock := world.clock.tail })

/-- A computation without an await may refuse its input with a typed error. -/
def mayRefuse : Coroutine Unit := transition fun world =>
  let resumed := { world with script := world.script.tail }
  match (world.script.headD {}).ending with
  | some (.app problem) => (.error (.app problem), resumed)
  | _ => (.ok (), resumed)

end LumenCopilot.Chat
