import LumenCopilot.Construction.Chat.Turn

namespace LumenCopilot.Chat

open Python Library

/-- This text is `NO_SOURCES_FALLBACK`. -/
def noSourcesFallback : Text :=
  ("I couldn't find anything in your sources that answers that. " ++
    "Try rephrasing, or upload a document that covers it.").toList

/-- The evidence of an answer: the passage handles with their chunks, and the web handles. -/
structure Evidence where
  passages : List (Text × Nat) := []
  web : List Text := []
  deriving DecidableEq

def Evidence.add (evidence : Evidence) (outcome : ToolOutcome) : Evidence where
  passages := outcome.passages.foldl
    (fun known passage => if known.any (·.1 = passage.1) then known else known ++ [passage])
    evidence.passages
  web := outcome.web.foldl
    (fun known handle => if known.contains handle then known else known ++ [handle]) evidence.web

def Evidence.handles (evidence : Evidence) : List Text := evidence.passages.map Prod.fst ++ evidence.web

/-- A sandbox publishes its own envelopes with a number that it mints directly; the runner turns
an ordinary error into a tool result. -/
def publishCodeEvents : List EventName → Coroutine Unit
  | [] => return ()
  | name :: rest => do
      catching (do
          let seq ← mintSeq
          let outcome ← nextAwait
          backplanePublish outcome ⟨seq, .event name⟩) fun
        | .cancelled _ => none
        | _ => some (return ())
      publishCodeEvents rest

/-- The runner governs and executes one call; an unconfirmed kill becomes a pending cleanup. -/
def runTool : Coroutine ToolOutcome := do
  let outcome ← transition fun world =>
    (.ok (world.tools.headD {}), { world with tools := world.tools.tail })
  catching awaits fun
    | .cancelled cause => some (raise (if outcome.cleanupPending then .cleanup else .cancelled cause))
    | _ => none
  publishCodeEvents outcome.codeEvents
  awaits
  return outcome

/-- The serial form of `_run_tool_batch`. -/
def runSerial (config : Config) : List ToolCall → Coroutine (List ToolOutcome)
  | [] => return []
  | _ :: rest => do
      checkCancelled config
      emit (.event .toolCall)
      checkCancelled config
      let outcome ← runTool
      checkCancelled config
      awaits
      emit (.event .toolResult)
      return outcome :: (← runSerial config rest)

/-- The fanned-out calls publish their results in dispatch order; a read-only call has no sandbox. -/
def collectResults (config : Config) : List ToolCall → Coroutine (List ToolOutcome)
  | [] => return []
  | _ :: rest => do
      checkCancelled config
      let outcome ← transition fun world =>
        (.ok (world.tools.headD {}), { world with tools := world.tools.tail })
      awaits
      checkCancelled config
      emit (.event .toolResult)
      return { outcome with codeEvents := [] } :: (← collectResults config rest)

def publishToolCalls : List ToolCall → Coroutine Unit
  | [] => return ()
  | _ :: rest => do
      emit (.event .toolCall)
      publishToolCalls rest

/-- The fan-out reaps its workers before an error passes. -/
def runFanOut (config : Config) (calls : List ToolCall) : Coroutine (List ToolOutcome) := do
  publishToolCalls calls
  let outcomes ← catching (collectResults config calls) fun interrupt => some do
    awaits
    raise interrupt
  awaits
  return outcomes

/-- This is `_run_tool_batch`, up to the order in which the results return to their calls. -/
def runToolBatch (config : Config) (calls : List ToolCall) : Coroutine (List ToolOutcome) := do
  let safe := calls.filter fun call => config.isConcurrencySafe call.name
  if 1 < config.toolConcurrency && 1 < safe.length then
    let fanned ← runFanOut config safe
    return fanned ++ (← runSerial config
      (calls.filter fun call => !config.isConcurrencySafe call.name))
  else runSerial config calls

/-- This is `_select_ask_user`. -/
def selectAskUser (config : Config) (calls : List ToolCall) : Option Text :=
  if config.interceptsAskUser then
    calls.findSome? fun call =>
      if call.name = "ask_user".toList then config.parseAskUser call.arguments else none
  else none

/-- The tool loop ends with a tool-free turn, with a question, or with its budget spent. -/
inductive LoopEnd where
  | answered (turn : Turn)
  | asked (question : Text)
  | exhausted
  deriving DecidableEq

/-- The loop over the tool turns. -/
def toolLoop (config : Config) : Nat → Nat → Nat → Evidence → Coroutine (LoopEnd × Evidence)
  | 0, _, _, evidence => return (.exhausted, evidence)
  | turns + 1, number, external, evidence => do
      checkCancelled config
      mayRefuse
      emit (.event .step)
      let turn ← streamTurnResilient config { narrate := some number } true
      emit (.event .step)
      if turn.toolCalls.isEmpty then return (.answered turn, evidence)
      else
        match selectAskUser config turn.toolCalls with
        | some question => return (.asked question, evidence)
        | none =>
            let batch := turn.toolCalls.countP fun call => config.isExternalTool call.name
            if config.maxExternalCalls.any (· < external + batch) then return (.exhausted, evidence)
            else
              checkCancelled config
              let outcomes ← runToolBatch config turn.toolCalls
              checkCancelled config
              mayRefuse
              toolLoop config turns (number + 1) (external + batch) (outcomes.foldl Evidence.add evidence)

/-- A spent budget forces one synthesis without tools. -/
def synthesise (config : Config) : Coroutine Turn := do
  checkCancelled config
  mayRefuse
  emit (.event .step)
  let turn ← streamTurnResilient config {} true
  emit (.event .step)
  return turn

/-- An answer that hit its output cap is continued once, without streaming; a typed error keeps
the published text. -/
def continueAnswer (config : Config) (turn : Turn) : Coroutine Turn := do
  if turn.finishReason = "length".toList then
    mayRefuse
    let continued ← catching (do
        return some (← streamTurnResilient config { speak := false } false)) fun
      | .app _ | .provider _ _ => some (return none)
      | _ => none
    match continued with
    | some extra =>
        publishText config extra.chunks
        return { turn with finishReason := extra.finishReason, chunks := turn.chunks ++ extra.chunks }
    | none => return turn
  else return turn

/-- The clean answer with the passages that it keeps and the handles that it cites. -/
structure Cleaned where
  text : Text
  passages : List (Text × Nat)
  handles : List Text
  web : List Text

/-- The selected passages are read again, and a changed or forbidden one drops the whole answer. -/
def cleanAnswer (config : Config) (permitted : List Text) (evidence : Evidence) (answer : Text) :
    Coroutine Cleaned := do
  let selected := config.selectCitedHandles answer evidence.handles
  let corpus := evidence.passages.filter fun passage => selected.2.contains passage.1
  doWhen (!corpus.isEmpty) do
    awaits
    awaits
  let valid := corpus.filter fun passage => permitted.contains passage.1
  let kept := valid.length = corpus.length
  let text := if kept then selected.1 else noSourcesFallback
  let passages := if kept then corpus else []
  let web := if kept then evidence.web else []
  let handles := if kept then selected.2 else []
  let allowed := passages.map Prod.fst ++ handles.filter fun handle => web.contains handle
  let final := config.selectCitedHandles text allowed
  return ⟨final.1, passages, final.2, final.2.filter fun handle => web.contains handle⟩

/-- A changed answer replaces the text on the wire; a kept passage without a marker is an error. -/
def replaceAnswer (config : Config) (answer : Text) (cleaned : Cleaned) : Coroutine Unit := do
  doWhen (cleaned.text ≠ answer) do
    retractAnswer
    publishText config [cleaned.text]
  doWhen (cleaned.passages.any fun passage => !cleaned.handles.contains passage.1) (raise .other)

/-- A blank answer becomes the honest fallback without citations. -/
def fallBack (config : Config) (cleaned : Cleaned) : Coroutine Cleaned := do
  if isBlank cleaned.text then
    let speculative ← observe fun world =>
      world.answerOnWire || world.buffer.kind = some .answer
    doWhen speculative retractAnswer
    streamText config .answer noSourcesFallback
    return ⟨noSourcesFallback, [], [], []⟩
  else return cleaned

def emitAll : List Payload → Coroutine Unit
  | [] => return ()
  | payload :: rest => do
      emit payload
      emitAll rest

/-- This is `_persist` into the open transaction. -/
def persist (message : StoredMessage) : Coroutine Unit := do
  awaits
  update fun world => { world with draft := some message }

/-- This is `_record_usage_scopes` into the open transaction. -/
def recordUsageScopes : Coroutine Unit := do
  awaits
  update fun world => { world with
    draftRows := world.route.spent.map (fun scope => ⟨scope.1, scope.2, false⟩) ++
      [⟨world.route.model, world.usage, true⟩] }

/-- The completion latch closes right after the last check, before the commit. -/
def completeAnswer (config : Config) : Coroutine Unit := do
  checkCancelled config
  update fun world => { world with completing := true }
  commitWith fun world =>
    { world with stored := world.draft, rows := world.rows ++ world.draftRows }
  update fun world => { world with salvage := false, answerCommitted := true }

/-- This is `_run_followup_suggestions`: only a cancellation leaves it. -/
def runFollowupSuggestions (aftermath : Aftermath) : Coroutine (List Text) :=
  catching (do
      let _ ← awaitOn aftermath.suggest
      return aftermath.suggestions) fun
    | .cancelled _ => none
    | _ => some (return [])

/-- The clarifying question is the message of its turn. -/
def askQuestion (config : Config) (aftermath : Aftermath) (question : Text) : Coroutine Unit := do
  awaits
  persist ⟨question, .question⟩
  recordUsageScopes
  awaits
  completeAnswer config
  emit (.askUser question)
  publishTerminalDone config aftermath "ask_user".toList false

/-- The answer is stored, committed and announced; then the suggestions follow. -/
def finishAnswer (config : Config) (aftermath : Aftermath) (cleaned : Cleaned) (finishReason : Text) :
    Coroutine Unit := do
  checkCancelled config
  emit (.event .step)
  persist ⟨cleaned.text, .answer⟩
  awaits
  emitAll ((cleaned.passages.map Prod.snd).dedup.map fun _ => .event .citation)
  emitAll (cleaned.web.map fun _ => .event .webCitation)
  awaits
  emit (.event .step)
  recordUsageScopes
  completeAnswer config
  let suggests := config.suggestionsEnabled && cleaned.text ≠ noSourcesFallback
  publishTerminalDone config aftermath finishReason suggests
  doWhen suggests do
    let suggestions ← runFollowupSuggestions aftermath
    doWhen (!suggestions.isEmpty) do
      let seq ← nextSeq
      publishOn (return aftermath.suggestPublish) seq (.suggestions suggestions)

/-- The model is resolved, the tools are selected and the prompt is assembled. -/
def prepareAnswer (config : Config) : Coroutine Unit := do
  emit (.event .step)
  awaits
  update fun world => { world with route := ⟨config.model, config.fallbacks, []⟩ }
  awaits
  mayRefuse
  emit (.event .step)
  update fun world => { world with usage := {}, salvage := true }

/-- This is `_answer`. -/
def answer (config : Config) (permitted : List Text) (aftermath : Aftermath) : Coroutine Unit := do
  prepareAnswer config
  let (ended, evidence) ← toolLoop config config.maxToolTurns 1 0 {}
  match ended with
  | .asked question => askQuestion config aftermath question
  | .answered turn => deliver turn evidence
  | .exhausted => do
      let turn ← synthesise config
      deliver turn evidence
where
  deliver (turn : Turn) (evidence : Evidence) : Coroutine Unit := do
    let turn ← continueAnswer config turn
    let answerText := turn.chunks.flatten
    let cleaned ← cleanAnswer config permitted evidence answerText
    replaceAnswer config answerText cleaned
    let final ← fallBack config cleaned
    finishAnswer config aftermath final turn.finishReason

end LumenCopilot.Chat
