import LumenCopilot.Construction.Chat.Answer

namespace LumenCopilot.Chat

open Python Library

def unavailable (code detail : String) : Problem :=
  ⟨503, "Service Unavailable".toList, code.toList, some detail.toList⟩

def shutdownProblem : Problem := unavailable "dependency_unavailable" "Server is shutting down."

def deadlineProblem : Problem :=
  unavailable "answer_budget_exhausted" "The answer wall-clock budget was exhausted."

def internalProblem : Problem := ⟨500, "Internal Server Error".toList, "internal_error".toList, none⟩

/-- A settled cancellation or error is drained before a shutdown passes. -/
def shielded (finalizer : Coroutine Unit) : Coroutine Unit := do
  finalizer
  awaits

/-- This is `finish_user_cancel`. -/
def finishUserCancel (cleanup : Bool) : Coroutine Bool := do
  update fun world => { world with finalisingCancel := true }
  shielded do
    doWhen cleanup awaits
    awaits
    salvageUsageAfterFailure
    finaliseCancelled
  return false

/-- A settlement that outlives its budget gets a fresh publication deadline. -/
def extendDeadline : Coroutine Unit := update fun world => { world with producerDeadline := true }

/-- This is `finish_error`. -/
def finishError (cleanup : Bool) (problem : Problem) : Coroutine Unit := do
  update fun world => { world with settlingError := true }
  shielded do
    doWhen cleanup do
      awaits
      extendDeadline
    salvageUsageAfterFailure
    terminalError problem

/-- A typed error that rejects the context restores its audit before it passes. -/
def restoringContext (config : Config) (program : Coroutine Unit) : Coroutine Unit :=
  catching program fun
    | .app problem =>
        if config.restoresContext && problem.code = "context_too_large".toList then some do
          awaits
          raise (.app problem)
        else none
    | _ => none

/-- A run whose deadline has passed does not open a session. -/
def checkStart (config : Config) : Coroutine Unit := do
  match config.answerDeadline with
  | some deadline =>
      let now ← readClock
      doWhen (deadline ≤ now) (raise .timeout)
  | none => return ()

/-- The guarded block of `run`. -/
def produce (config : Config) (permitted : List Text) (aftermath : Aftermath) : Coroutine Unit := do
  emit .start
  checkCancelled config
  checkStart config
  awaits
  ensuring (restoringContext config (answer config permitted aftermath)) do
    let _ ← awaitOn aftermath.sessionClose

/-- The exception arms of `run`. -/
def settle (config : Config) (interrupt : Interrupt) : Coroutine Bool := do
  let stopped ← observe fun world => world.cancelRequested && !world.answerCommitted
  match interrupt with
  | .cleanup =>
      if ← observe World.cancelRequested then finishUserCancel true
      else
        let now ← readClock
        if config.answerDeadline.any (· ≤ now) then
          finishError true deadlineProblem
          return false
        else
          finishError true shutdownProblem
          raise (.cancelled .shutdown)
  | .cancelled cause =>
      if stopped then finishUserCancel false
      else if ← observe fun world => world.cancelRequested && world.terminalSent then return true
      else
        finishError false shutdownProblem
        raise (.cancelled cause)
  | .timeout =>
      if stopped then finishUserCancel false
      else
        extendDeadline
        finishError false deadlineProblem
        return false
  | .app problem | .provider problem _ =>
      if stopped then finishUserCancel false
      else
        doWhen (problem.code = "answer_budget_exhausted".toList) extendDeadline
        finishError false problem
        return false
  | .other =>
      if stopped then finishUserCancel false
      else
        finishError false internalProblem
        return false

/-- This is `run` of `ChatRuntime`. -/
def run (config : Config) (permitted : List Text) (aftermath : Aftermath) : Coroutine Bool := do
  update fun world => { world with
    modelCalls := 0, producerDeadline := config.turnTimeout && config.terminalPublishMargin }
  ensuring
    (catching (do
        expiring .answerDeadline .timeout (produce config permitted aftermath)
        return true) fun interrupt => some (settle config interrupt))
    (ensuring (do
        let _ ← awaitOn aftermath.resourcesClose)
      do
        let _ ← awaitOn aftermath.watcherClose)

/-- A run starts with the environment that is to come, and possibly with an accepted Stop. -/
def World.initial (stopped : Bool) (script : List Await) (clock : List Int)
    (provider : List Completion) (tools : List ToolOutcome) : World :=
  { cancelRequested := stopped, stops := if stopped then [true] else []
    script := script, clock := clock, provider := provider, tools := tools }

/-- This function runs an answer to its end. -/
def World.ran (world : World) (config : Config) (permitted : List Text) (aftermath : Aftermath) :
    Except Interrupt Bool × World :=
  Effect.perform (run config permitted aftermath) world

/-- One run of an answer: its settings, and the environment that decides it. -/
structure Session where
  config : Config := {}
  permitted : List Text := []
  stopped : Bool := false
  script : List Await := []
  clock : List Int := []
  provider : List Completion := []
  tools : List ToolOutcome := []
  aftermath : Aftermath := {}

def Session.ran (session : Session) : Except Interrupt Bool × World :=
  (World.initial session.stopped session.script session.clock session.provider session.tools).ran
    session.config session.permitted session.aftermath

/-- This is what `run` returned or raised. -/
def Session.result (session : Session) : Except Interrupt Bool := session.ran.1

/-- This is the world when `run` has ended. -/
def Session.final (session : Session) : World := session.ran.2

/-- The client folds the envelopes that took effect. -/
def clientState (sent : List Sent) : StreamState :=
  (sent.filter Sent.taken).foldl (fun state sent => reduceStream state sent.envelope) {}

end LumenCopilot.Chat
