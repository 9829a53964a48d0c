import LumenCopilot.Construction.Runs.Repository

namespace LumenCopilot.Runs

open Python

/-- These are the effects that a transaction writes beside the run row. -/
inductive Effect where
  | started
  | steps
  | finished (status : RunStatus)
  | escalated
  | delivered
  | controlled
  deriving DecidableEq

/-- A row update comes from a process with a claim, from one without, or from an owner control. -/
inductive Cause where
  | claimant (claim : Int)
  | system
  | control
  deriving DecidableEq

def Cause.of : Option Int → Cause
  | some claim => .claimant claim
  | none => .system

/-- An event is a won row update, kept as a history variable, or an effect of a writer. -/
inductive Event where
  | change (writer : Nat) (cause : Cause) (before after : RunRow)
  | effect (writer : Nat) (effect : Effect)
  deriving DecidableEq

/-- The outcome is what the transcript sink folds after the runtime returned. -/
structure Outcome where
  succeeded : Bool
  summary : Option Text := none
  messageId : Option Nat := none
  error : Option RunError := none
  deriving DecidableEq

/-- This is the terminal status of an outcome. -/
def Outcome.terminalStatus (outcome : Outcome) : RunStatus :=
  classifyTerminal (if outcome.succeeded then .succeeded else .failed) outcome.error

/-- These are the three owner controls. -/
inductive Control where
  | resume
  | cancel
  | reroute (toOwner : Nat)
  deriving DecidableEq

/-- This is what a process does after its transaction commits. -/
inductive Next where
  | execute (attempt : Nat) (claim : Int) (session : Nat)
  | retry (claim : Int)
  | stop
  deriving DecidableEq

/-- A process is a delivery of `run_assistant`, a writer of a failure, a reaper or a control.
The phase `writing` holds the committed claim of its process and whether a failure is rescued. -/
inductive Phase where
  | idle
  | starting (attempt : Nat)
  | observed (attempt : Nat) (seen : RunRow)
  | claimed (attempt : Nat) (claim : Int) (seen : RunRow)
  | executing (attempt : Nat) (claim : Int) (session : Nat)
  | settling (claim : Int) (session : Nat) (outcome : Outcome)
  | retrying (claim : Int)
  | ensuring (claim : Option Int) (retryStartedAt : Option Int)
  | reaping (olderThan : Int)
  | requesting (control : Control) (caller : Nat)
  | deciding (control : Control) (seen : RunRow)
  | rerouting (seen : RunRow)
  | writing (claim : Option Int) (rescued : Bool) (todo : List Effect) (next : Next)
  | done
  deriving DecidableEq

/-- These are the phases in which a process enters the system. -/
def Phase.isInitial : Phase → Bool
  | .starting _ | .ensuring none _ | .reaping _ | .requesting _ _ => true
  | _ => false

def Phase.isControl : Phase → Bool
  | .requesting _ _ | .deciding _ _ | .rerouting _ => true
  | .writing _ _ todo _ => todo.contains .controlled
  | _ => false

/-- An open transaction holds the row lock, its uncommitted row and its uncommitted events. -/
structure Transaction where
  holder : Nat
  draft : RunRow
  buffered : List Event
  deriving DecidableEq

/-- The system is one run row with the transaction that locks it, the committed events and the
processes that work on the run. -/
structure State where
  row : RunRow
  lock : Option Transaction
  log : List Event
  processes : Nat → Phase

def State.initial (row : RunRow) : State := ⟨row, none, [], fun _ => .idle⟩

def State.goto (state : State) (i : Nat) (phase : Phase) : State :=
  { state with processes := fun j => if j = i then phase else state.processes j }

/-- An update waits for the row lock; a won update keeps the lock until its transaction ends. -/
def State.update (state : State) (i : Nat) (cause : Cause) (write : RunRow → Option RunRow)
    (won lost : Phase) : Option State :=
  match state.lock with
  | none =>
      match write state.row with
      | none => some (state.goto i lost)
      | some row =>
          some ({ state with lock := some ⟨i, row, [Event.change i cause state.row row]⟩ }.goto i won)
  | some transaction =>
      if transaction.holder = i then
        match write transaction.draft with
        | none => some (state.goto i lost)
        | some row =>
            some ({ state with lock := some ⟨i, row,
              transaction.buffered ++ [Event.change i cause transaction.draft row]⟩ }.goto i won)
      else none

/-- A rollback drops the uncommitted row and events of a process. -/
def State.rollback (state : State) (i : Nat) : State :=
  match state.lock with
  | some transaction => if transaction.holder = i then { state with lock := none } else state
  | none => state

/-- The claim time exceeds the observed one, also when the clock is coarse or goes back. -/
def claimTime (now : Int) (observed : Option Int) : Int :=
  match observed with
  | some startedAt => max now (startedAt + 1)
  | none => now

/-- These effects follow a won failure. -/
def failureEffects : List Effect := [.finished .failed, .delivered]

/-- These effects follow the won terminal of an execution. -/
def finishEffects (status : RunStatus) : List Effect :=
  [.steps, .finished status] ++ (if status = .escalated then [.escalated] else []) ++ [.delivered]

/-- The first read of a delivery ends it unless the run is queued. -/
def State.observe (state : State) (i : Nat) : Option State :=
  match state.processes i with
  | .starting attempt =>
      if state.row.status = .queued then some (state.goto i (.observed attempt state.row))
      else some (state.goto i .done)
  | _ => none

def State.claim (state : State) (i : Nat) (now : Int) : Option State :=
  match state.processes i with
  | .observed attempt seen =>
      let startedAt := claimTime now seen.startedAt
      state.update i .system (RunRow.markRunning startedAt seen.startedAt)
        (.claimed attempt startedAt seen) .done
  | _ => none

/-- A run without its owner or version fails inside the transaction of its claim. -/
def State.refuse (state : State) (i : Nat) (finishedAt : Int) (error : RunError) : Option State :=
  match state.processes i with
  | .claimed _ claim _ =>
      state.update i (.claimant claim)
        (RunRow.markTerminal { status := .failed, finishedAt := finishedAt, error := some error }
          (some .running) none)
        (.writing none true failureEffects .stop) (.writing none true [] .stop)
  | _ => none

/-- A queued retry keeps its chat session; another execution attaches a new one. -/
def State.prepare (state : State) (i : Nat) (newSession : Nat) : Option State :=
  match state.processes i with
  | .claimed attempt claim seen =>
      match seen.startedAt, seen.sessionId with
      | some _, some session =>
          some (state.goto i (.writing none true [] (.execute attempt claim session)))
      | _, _ =>
          state.update i (.claimant claim) (fun row => some (row.attachSession newSession))
            (.writing none true [.started] (.execute attempt claim newSession)) .done
  | _ => none

/-- A transient failure with retry budget left goes back to the queue and keeps its claim. -/
def State.requeue (maxRetries : Nat) (state : State) (i : Nat) (outcome : Outcome) : Option State :=
  match state.processes i with
  | .executing attempt claim _ =>
      if isTransient outcome.error && attempt < maxRetries then
        state.update i (.claimant claim) (RunRow.markQueued (some .running) true (some claim))
          (.writing (some claim) true [] (.retry claim)) .done
      else none
  | _ => none

/-- The settlement first reads the row, and a terminal row ends it. -/
def State.fold (maxRetries : Nat) (state : State) (i : Nat) (outcome : Outcome) : Option State :=
  match state.processes i with
  | .executing attempt claim session =>
      if isTransient outcome.error && attempt < maxRetries then none
      else if state.row.status.isTerminal then some (state.goto i .done)
      else some (state.goto i (.settling claim session outcome))
  | _ => none

/-- A success without a message raises instead of finishing. -/
def State.finish (state : State) (i : Nat) (finishedAt : Int) : Option State :=
  match state.processes i with
  | .settling claim session outcome =>
      let status := outcome.terminalStatus
      let messageId := if status = .succeeded then outcome.messageId else none
      if status = .succeeded && messageId.isNone then none
      else
        state.update i (.claimant claim)
          (RunRow.markTerminal
            { status := status, finishedAt := finishedAt, summary := outcome.summary,
              messageId := messageId, sessionId := some session, error := outcome.error }
            (some .running) none)
          (.writing (some claim) true (finishEffects status) .stop) .done
  | _ => none

/-- The wrapper publishes the retry, or fails only the queued claim that it left. -/
def State.publish (state : State) (i : Nat) (succeeds : Bool) : Option State :=
  match state.processes i with
  | .retrying claim =>
      some (state.goto i (if succeeds then .done else .ensuring (some claim) (some claim)))
  | _ => none

/-- This is `ensure_run_terminal_on_failure`. -/
def State.ensure (state : State) (i : Nat) (finishedAt : Int) (error : RunError) : Option State :=
  match state.processes i with
  | .ensuring claim retryStartedAt =>
      let expected := if retryStartedAt.isSome then RunStatus.queued else RunStatus.running
      state.update i (.of claim)
        (RunRow.markTerminal { status := .failed, finishedAt := finishedAt, error := some error }
          (some expected) retryStartedAt)
        (.writing (if retryStartedAt.isSome then none else claim) retryStartedAt.isNone
          failureEffects .stop) .done
  | _ => none

/-- This is `reap_stale_run`. -/
def State.reap (state : State) (i : Nat) (finishedAt : Int) : Option State :=
  match state.processes i with
  | .reaping olderThan =>
      state.update i .system
        (RunRow.failStaleRunning olderThan finishedAt
          ⟨"stale_run_timeout".toList,
            ("The run did not finish and was marked failed after exceeding " ++
              "the stale-run age limit.").toList⟩)
        (.writing none false failureEffects .stop) .done
  | _ => none

/-- This is `_load_escalated`; the other cases answer 404 or 409. -/
def State.load (state : State) (i : Nat) : Option State :=
  match state.processes i with
  | .requesting control caller =>
      if state.row.ownerId = caller && state.row.status = .escalated then
        some (state.goto i (.deciding control state.row))
      else some (state.goto i .done)
  | _ => none

/-- The first write of `reroute` reassigns the owner; an unknown target answers 404. -/
def State.reassign (state : State) (i : Nat) (targetExists : Bool) : Option State :=
  match state.processes i with
  | .deciding (.reroute toOwner) seen =>
      if toOwner = seen.ownerId || !targetExists then some (state.goto i .done)
      else
        state.update i .control (fun row => some (row.reassignOwner toOwner)) (.rerouting seen) .done
  | _ => none

/-- The controls write without an expected status. -/
def State.control (state : State) (i : Nat) (finishedAt : Int) : Option State :=
  match state.processes i with
  | .deciding .resume _ =>
      state.update i .control (RunRow.markQueued none false none)
        (.writing none false [.controlled] .stop) .done
  | .deciding .cancel _ =>
      state.update i .control
        (RunRow.markTerminal
          { status := .failed, finishedAt := finishedAt,
            error := some ⟨"cancelled".toList,
              "The escalated run was cancelled by its owner.".toList⟩ } none none)
        (.writing none false [.controlled] .stop) .done
  | .rerouting _ =>
      state.update i .control (RunRow.markQueued none false none)
        (.writing none false [.controlled] .stop) .done
  | _ => none

/-- A transaction writes its effects one by one; a failed delivery is isolated in a savepoint. -/
def State.emit (state : State) (i : Nat) (fails : Bool) : Option State :=
  match state.processes i, state.lock with
  | .writing claim rescued (effect :: todo) next, some transaction =>
      if transaction.holder = i then
        let phase := Phase.writing claim rescued todo next
        if fails then
          if effect = .delivered then some (state.goto i phase) else none
        else
          some ({ state with lock := some { transaction with
            buffered := transaction.buffered ++ [Event.effect i effect] } }.goto i phase)
      else none
  | _, _ => none

def Next.phase : Next → Phase
  | .execute attempt claim session => .executing attempt claim session
  | .retry claim => .retrying claim
  | .stop => .done

/-- A commit makes the row and the events of a transaction durable. -/
def State.commit (state : State) (i : Nat) : Option State :=
  match state.processes i, state.lock with
  | .writing _ _ [] next, some transaction =>
      if transaction.holder = i then
        some ({ state with
          row := transaction.draft
          lock := none
          log := state.log ++ transaction.buffered }.goto i next.phase)
      else none
  | _, _ => none

/-- A raised error rolls back; the execution core or its wrapper then ensures a terminal. -/
def Phase.afterRaise (retries : Bool) : Phase → Option Phase
  | .idle | .done | .retrying _ => none
  | .starting _ | .observed _ _ | .claimed _ _ _ => some (.ensuring none none)
  | .executing _ claim _ | .settling claim _ _ => some (.ensuring (some claim) none)
  | .ensuring claim none => some (if retries then .ensuring claim none else .done)
  | .ensuring _ (some _) | .reaping _ | .requesting _ _ | .deciding _ _ | .rerouting _ => some .done
  | .writing claim rescued _ _ => some (if rescued then .ensuring claim none else .done)

def State.raise (state : State) (i : Nat) (retries : Bool) : Option State :=
  ((state.processes i).afterRaise retries).map fun phase => (state.rollback i).goto i phase

/-- One action is a repository call, a commit, a raised error or a killed process. -/
inductive Action where
  | spawn (i : Nat) (phase : Phase)
  | observe (i : Nat)
  | claim (i : Nat) (now : Int)
  | refuse (i : Nat) (finishedAt : Int) (error : RunError)
  | prepare (i : Nat) (newSession : Nat)
  | requeue (i : Nat) (outcome : Outcome)
  | fold (i : Nat) (outcome : Outcome)
  | finish (i : Nat) (finishedAt : Int)
  | publish (i : Nat) (succeeds : Bool)
  | ensure (i : Nat) (finishedAt : Int) (error : RunError)
  | reap (i : Nat) (finishedAt : Int)
  | load (i : Nat)
  | reassign (i : Nat) (targetExists : Bool)
  | control (i : Nat) (finishedAt : Int)
  | emit (i : Nat) (fails : Bool)
  | commit (i : Nat)
  | raise (i : Nat) (retries : Bool)
  | crash (i : Nat)
  deriving DecidableEq

/-- The system takes one step of one process. -/
def step (maxRetries : Nat) (state : State) : Action → Option State
  | .spawn i phase =>
      if state.processes i = .idle ∧ phase.isInitial then some (state.goto i phase) else none
  | .observe i => state.observe i
  | .claim i now => state.claim i now
  | .refuse i finishedAt error => state.refuse i finishedAt error
  | .prepare i newSession => state.prepare i newSession
  | .requeue i outcome => state.requeue maxRetries i outcome
  | .fold i outcome => state.fold maxRetries i outcome
  | .finish i finishedAt => state.finish i finishedAt
  | .publish i succeeds => state.publish i succeeds
  | .ensure i finishedAt error => state.ensure i finishedAt error
  | .reap i finishedAt => state.reap i finishedAt
  | .load i => state.load i
  | .reassign i targetExists => state.reassign i targetExists
  | .control i finishedAt => state.control i finishedAt
  | .emit i fails => state.emit i fails
  | .commit i => state.commit i
  | .raise i retries => state.raise i retries
  | .crash i => some ((state.rollback i).goto i .done)

end LumenCopilot.Runs
