import LumenCopilot.Construction.Chat.Stream

namespace LumenCopilot.Chat

open Python Library

/-- The seams of a turn: the number under which it narrates, if a tool call can classify it, and
whether its text streams as answer. -/
structure Seams where
  narrate : Option Nat := none
  speak : Bool := true
  deriving DecidableEq

/-- These are the variables of `_stream_one_turn`. -/
structure Turn where
  toolCalls : List ToolCall := []
  finishReason : Text := "stop".toList
  chunks : List Text := []
  narrating : Bool := false
  deriving DecidableEq

/-- This is `_speak_answer`. -/
def speakAnswer (config : Config) (text : Text) : Coroutine Unit := do
  update fun world => { world with emittedAnswer := true }
  streamText config .answer text

/-- This is `_retract_speculative_answer`. -/
def retractSpeculativeAnswer : Coroutine Unit := do
  retractAnswer
  update fun world => { world with emittedAnswer := false }

/-- This is `_narrate_and_close_window`. -/
def narrateAndCloseWindow (config : Config) (turn : Nat) (text : Text) : Coroutine Unit := do
  update fun world => { world with emittedNarration := true }
  streamText config (.narration turn) text

/-- Between two events the coalescer flushes at its deadline, or the timer is reaped. -/
def drainOnDeadline (config : Config) : Coroutine Unit := do
  match ← observe fun world => world.buffer.flushDeadline config.textCoalesceMillis with
  | none => return ()
  | some deadline =>
      let now ← readClock
      if deadline - now ≤ 0 then flushText
      else if ← awaitCall then flushText
      else awaitSuppressed

/-- The next event is awaited; the pending task makes its own checks first. -/
def awaitEvent (config : Config) : Coroutine Unit := do
  drainOnDeadline config
  if ← observe World.cancelRequested then raise (.cancelled .stop)
  else
    checkAnswerDeadline config
    awaits

/-- The deadline has passed at the next reading of the clock. -/
def World.overdue (config : Config) (world : World) : Bool :=
  !world.finalisingCancel && config.answerDeadline.any (· ≤ world.clock.headD 0)

/-- An event arrives; its usage report enters the history under the model of the route. -/
def receive (config : Config) (reported : Option TokenUsage) : Coroutine Unit :=
  match reported with
  | some usage => update fun world => { world with
      reports := world.reports ++
        [⟨world.route.model, usage, world.cancelRequested || world.overdue config⟩] }
  | none => return ()

/-- The loop checks the Stop and the deadline again when an event has arrived. -/
def checkEvent (config : Config) : Coroutine Unit := do
  if ← observe World.cancelRequested then raise (.cancelled .stop)
  else checkAnswerDeadline config

/-- The first tool-call fragment classifies the turn: its text is narration from now on. -/
def classify (config : Config) (seams : Seams) (event : StreamEvent) (turn : Turn) :
    Coroutine Turn := do
  match seams.narrate with
  | some number =>
      if (event.toolCallStarted || !event.toolCalls.isEmpty) && !turn.narrating then
        retractSpeculativeAnswer
        narrateAndCloseWindow config number turn.chunks.flatten
        return { turn with narrating := true }
      else return turn
  | none => return turn

/-- The text of an event is narrated, spoken or kept. -/
def forward (config : Config) (seams : Seams) (narrating : Bool) (text : Text) : Coroutine Unit :=
  match narrating, seams.narrate with
  | true, some number => narrateAndCloseWindow config number text
  | _, _ => doWhen seams.speak (speakAnswer config text)

/-- The loop folds the provider usage of an event into the running totals. -/
def addUsage (reported : Option TokenUsage) : Coroutine Unit :=
  match reported with
  | some usage => update fun world => { world with
      usage := ⟨world.usage.totals.add usage, some usage.promptTokens⟩ }
  | none => return ()

/-- The body of the loop of `_stream_one_turn`. -/
def handleEvent (config : Config) (seams : Seams) (event : StreamEvent) (turn : Turn) :
    Coroutine Turn := do
  let turn ← classify config seams event turn
  doWhen (!event.text.isEmpty) (forward config seams turn.narrating event.text)
  addUsage event.usage
  return { turn with
    toolCalls := if event.toolCalls.isEmpty then turn.toolCalls else event.toolCalls
    finishReason := event.finishReason.getD turn.finishReason
    chunks := if event.text.isEmpty then turn.chunks else turn.chunks ++ [event.text] }

/-- The loop of `_stream_one_turn` over the events of the gateway. -/
def consume (config : Config) (seams : Seams) (broken : Option (Problem × Bool)) :
    List StreamEvent → Turn → Coroutine Turn
  | [], turn => do
      awaitEvent config
      match broken with
      | some (problem, retryable) => raise (.provider problem retryable)
      | none =>
          checkEvent config
          return turn
  | event :: rest, turn => do
      awaitEvent config
      receive config event.usage
      checkEvent config
      let turn ← handleEvent config seams event turn
      consume config seams broken rest turn

/-- The next completion of the provider starts. -/
def openCompletion : Coroutine Completion := transition fun world =>
  (.ok (world.provider.headD {}), { world with provider := world.provider.tail })

/-- This is `_stream_one_turn`; the generator is closed on every exit. -/
def streamOneTurn (config : Config) (seams : Seams) : Coroutine Turn := do
  let completion ← openCompletion
  ensuring (consume config seams completion.broken (streamTools config.table completion) {})
    awaitContained

/-- A retryable fault of an attempt is kept, and what the attempt spoke is retracted. -/
def recoverAttempt (problem : Problem) : Coroutine (Except Problem Turn) := do
  let spoken ← observe World.emittedAnswer
  doWhen spoken retractSpeculativeAnswer
  return .error problem

/-- One attempt of a turn returns its last retryable fault. -/
def attemptTurn (config : Config) (seams : Seams) : Coroutine (Except Problem Turn) := do
  checkCancelled config
  claimModelCall config
  catching (do return .ok (← streamOneTurn config seams)) fun
    | .provider problem true => some do
        if ← observe World.emittedNarration then raise (.provider problem true)
        else recoverAttempt problem
    | _ => none

/-- The attempts on one route, with a pause before each but the first. -/
def attemptTurns (config : Config) (seams : Seams) : Nat → Option Problem →
    Coroutine (Except Problem Turn)
  | 0, some last => return .error last
  | 0, none => raise .other
  | attempts + 1, last => do
      doWhen last.isSome awaits
      match ← attemptTurn config seams with
      | .ok turn => return .ok turn
      | .error problem => attemptTurns config seams attempts (some problem)

/-- The dying route keeps its spend and the candidate becomes the route. -/
def rebindRoute (candidate : Text) : Coroutine Unit := update fun world =>
  { world with
    route := { world.route with
      model := candidate, spent := world.route.spent ++ [(world.route.model, world.usage)] }
    usage := {} }

/-- A candidate resolves, or it is skipped because of a typed error or an unresolved route. -/
def resolveCandidate : Coroutine Bool :=
  catching (do return !(← awaitCall)) fun
    | .app _ | .provider _ _ => some (return false)
    | _ => none

/-- The loops of `_run_attempts` and `_advance_to_fallback` over the remaining candidates. -/
def failover (config : Config) (seams : Seams) : List Text → Problem → Coroutine Turn
  | [], last => raise (.provider last true)
  | candidate :: rest, last => do
      update fun world => { world with route := { world.route with fallbacks := rest } }
      if ← resolveCandidate then
        rebindRoute candidate
        mayRefuse
        match ← attemptTurns config seams config.turnAttempts none with
        | .ok turn => return turn
        | .error problem => failover config seams rest problem
      else failover config seams rest last

/-- This is `_run_attempts`. -/
def runAttempts (config : Config) (seams : Seams) (allowFailover : Bool) : Coroutine Turn := do
  match ← attemptTurns config seams config.turnAttempts none with
  | .ok turn => return turn
  | .error problem =>
      if allowFailover then
        let candidates ← observe fun world => world.route.fallbacks
        failover config seams candidates problem
      else raise (.provider problem true)

/-- This is the typed error of an expired turn. -/
def turnTimeoutProblem : Problem :=
  ⟨503, "Service Unavailable".toList, "dependency_unavailable".toList,
    some "The model did not respond within the interactive time budget.".toList⟩

/-- A deadline becomes an error of its own only when nothing else cancels the task. -/
def expiring (deadline : Cause) (expired : Interrupt) {α : Type} (program : Coroutine α) :
    Coroutine α :=
  catching program fun
    | .cancelled cause => some do
        if (← observe World.cancelling) || cause ≠ deadline then raise (.cancelled cause)
        else raise expired
    | _ => none

/-- This is `_stream_turn_resilient`. -/
def streamTurnResilient (config : Config) (seams : Seams) (allowFailover : Bool) :
    Coroutine Turn := do
  update fun world => { world with emittedNarration := false, emittedAnswer := false }
  if config.turnTimeout then
    expiring .turnDeadline (.app turnTimeoutProblem) (runAttempts config seams allowFailover)
  else runAttempts config seams allowFailover

/-- These suspensions follow the commit of an answer: the two publications of `done`, the
follow-up suggestions with their publication, and the three releases at the end of `run`. -/
structure Aftermath where
  doneFirst : Await := {}
  doneSecond : Await := {}
  suggest : Await := {}
  suggestions : List Text := []
  suggestPublish : Await := {}
  sessionClose : Await := {}
  resourcesClose : Await := {}
  watcherClose : Await := {}
  deriving DecidableEq

/-- This is `_publish_terminal`: a deadline turns a stalled publication into `false`. -/
def publishTerminal (next : Coroutine Await) (deadline : Bool) (seq : Nat) (payload : Payload) :
    Coroutine Bool :=
  let confirmed : Coroutine Bool := do
    publishOn next seq payload
    return true
  if deadline then
    catching confirmed fun
      | .timeout => some (return false)
      | _ => none
  else confirmed

/-- The terminal number is minted once, after the buffered text, and kept. -/
def terminalSeq (mint : Coroutine Nat) : Coroutine Nat := do
  match ← observe World.terminalSeq with
  | some seq => return seq
  | none =>
      let seq ← mint
      update fun world => { world with terminalSeq := some seq }
      return seq

def markTerminalSent : Coroutine Unit := update fun world => { world with terminalSent := true }

/-- This is `_publish_terminal_done`. -/
def publishTerminalDone (config : Config) (aftermath : Aftermath) (finishReason : Text)
    (pendingSuggestions : Bool) : Coroutine Unit := do
  if ← observe World.terminalSent then return ()
  else
    let seq ← terminalSeq nextSeq
    let done := Payload.done finishReason pendingSuggestions
    if (← observe World.producerDeadline) && config.terminalPublishMargin then
      if ← publishTerminal (return aftermath.doneFirst) true seq done then markTerminalSent
      else if ← publishTerminal (return aftermath.doneSecond) true seq done then markTerminalSent
      else return ()
    else
      publishOn (return aftermath.doneFirst) seq done
      markTerminalSent

/-- This is `_terminal_error`. -/
def terminalError (problem : Problem) : Coroutine Unit := do
  if ← observe World.terminalSent then return ()
  else
    let speculative ← observe fun world => !world.answerCommitted &&
      (world.answerOnWire || world.buffer.kind = some .answer)
    doWhen speculative retractAnswer
    markTerminalSent
    let cached ← observe World.terminalSeq
    let seq ← match cached with
      | some seq => pure seq
      | none => nextSeq
    let deadline ← observe World.producerDeadline
    let _ ← publishTerminal nextAwait deadline seq (.error problem)

/-- A commit is durable when it returns, and may be durable when it raises. -/
def commitWith (durable : World → World) : Coroutine Unit := do
  let outcome ← nextAwait
  transition fun world =>
    match world.suspend outcome with
    | (none, resumed) => (.ok (), durable resumed)
    | (some interrupt, resumed) =>
        (.error interrupt, if outcome.taken then durable resumed else resumed)

/-- The scopes that spent tokens are recorded without a message. -/
def World.salvagedRows (world : World) : List UsageRow :=
  let scopes := world.route.spent ++ [(world.route.model, world.usage)]
  (scopes.filter fun scope => 0 < scope.2.totals.totalTokens || 0 < scope.2.totals.promptTokens).map
    fun scope => ⟨scope.1, scope.2, false⟩

/-- This is `_salvage_usage_after_failure`. -/
def salvageUsageAfterFailure : Coroutine Unit := do
  let rows ← observe World.salvagedRows
  if (← observe World.salvage) && !rows.isEmpty then
    catching (do
        awaits
        commitWith fun world => { world with rows := world.rows ++ rows }) fun
      | .cancelled _ => none
      | _ => some (return ())
  else return ()

/-- The partial answer and its audit are stored in a transaction of their own. -/
def persistCancelled (content : Text) : Coroutine Bool :=
  catching (do
      awaits
      commitWith fun world => { world with stored := some ⟨content, .cancelled⟩ }
      return true) fun
    | .cancelled _ => none
    | _ => some (return false)

/-- The cancelled terminal is published until it is confirmed, at most so many times. -/
def publishCancelled (seq : Nat) : Nat → Coroutine Unit
  | 0 => return ()
  | attempts + 1 => do
      let confirmed ← catching (publishTerminal nextAwait true seq .cancelled) fun
        | .cancelled _ => none
        | _ => some (return false)
      if confirmed then markTerminalSent
      else publishCancelled seq attempts

/-- This is `_finalise_cancelled`. -/
def finaliseCancelled : Coroutine Unit := do
  if ← observe World.terminalSent then return ()
  else
    flushText
    let content ← observe fun world => world.partialAnswer.flatten
    if ← persistCancelled content then
      let seq ← terminalSeq mintSeq
      publishCancelled seq 2
    else
      terminalError ⟨503, "Service Unavailable".toList, "cancellation_persist_failed".toList,
        some "The stopped answer could not be saved.".toList⟩

end LumenCopilot.Chat
