import LumenCopilot.Construction.Runs.Repository

namespace LumenCopilot.Schedules

open Runs

/-- This is `OverlapPolicy`. -/
inductive OverlapPolicy where
  | skip
  | queue
  | allow
  deriving DecidableEq

/-- These are the fields of a schedule's row that a fire reads. -/
structure ScheduleRow where
  enabled : Bool
  overlapPolicy : OverlapPolicy
  deriving DecidableEq

/-- This is a row of `runs`: its schedule, whether a fire created it, and its status. -/
structure TenantRun where
  scheduleId : Option Nat
  fired : Bool
  status : RunStatus
  deriving DecidableEq

/-- The run is queued or running. -/
def TenantRun.active (run : TenantRun) : Bool := !run.status.isTerminal

/-- These are the outcomes of `_dispatch_fire`. -/
inductive FireOutcome where
  | noSchedule
  | skippedOverlap
  | deferredConcurrency
  | deferredRate
  | assistantUnavailable
  | enqueued
  deriving DecidableEq

/-- This is where a fire stands: the name is that of what it has done. -/
inductive FirePhase where
  | started
  | loaded (row : ScheduleRow)
  | refused (outcome : FireOutcome)
  | admitted
  | acquired
  | located
  | unavailable
  | resolved
  | created
  | closing (outcome : FireOutcome)
  | committed
  | finished (outcome : FireOutcome)
  | failed
  deriving DecidableEq

/-- This is one execution of `_dispatch_fire`. -/
structure Fire where
  schedule : Nat
  phase : FirePhase
  deriving DecidableEq

/-- These are the committed rows of one tenant and the executions of its fires. -/
structure TenantState where
  schedules : List ScheduleRow
  runs : List TenantRun
  fires : List Fire
  deriving DecidableEq

/-- This is what `enqueue_manual_run` finds of the assistant. -/
inductive AssistantView where
  | notVisible
  | unpublished
  | published
  deriving DecidableEq

/-- This is what the environment answers: whether the call passes, the rate limiter, the assistant
and its head version. -/
structure FireChoice where
  passes : Bool
  acquires : Bool
  assistant : AssistantView
  head : Bool
  deriving DecidableEq

/-- This is `RunRepository.count_active_for_schedule` over the committed rows. -/
def TenantState.countActiveForSchedule (state : TenantState) (schedule : Nat) : Nat :=
  state.runs.countP fun run => run.active && run.scheduleId = some schedule

/-- These are the overlap gate and the concurrency gate. -/
def gateOutcome (runMaxInFlightPerTenant : Nat) (row : ScheduleRow) (active : Nat) :
    Option FireOutcome :=
  if 0 < active ∧ row.overlapPolicy = .skip then some .skippedOverlap
  else if runMaxInFlightPerTenant ≤ active then some .deferredConcurrency
  else none

variable (runMaxInFlightPerTenant : Nat)

/-- The execution has returned or raised. -/
def FirePhase.over : FirePhase → Bool
  | .finished _ | .failed => true
  | _ => false

/-- This is `_dispatch_fire` from one of its calls to the next. -/
def Fire.proceed (state : TenantState) (fire : Fire) (choice : FireChoice) : FirePhase :=
  match fire.phase with
  | .started =>
      match state.schedules[fire.schedule]? with
      | none => .closing .noSchedule
      | some row => if row.enabled then .loaded row else .closing .noSchedule
  | .loaded row =>
      match gateOutcome runMaxInFlightPerTenant row (state.countActiveForSchedule fire.schedule) with
      | some outcome => .refused outcome
      | none => .admitted
  | .admitted => if choice.acquires then .acquired else .refused .deferredRate
  | .refused outcome => .closing outcome
  | .acquired => if choice.assistant = .published then .located else .unavailable
  | .located => if choice.head then .resolved else .unavailable
  | .unavailable => .closing .assistantUnavailable
  | .resolved => .created
  | .created => .closing .enqueued
  | .closing outcome => if outcome = .enqueued then .committed else .finished outcome
  | .committed => .finished .enqueued
  | .finished outcome => .finished outcome
  | .failed => .failed

/-- This is the next call of a fire; a call that raises rolls the transaction back. -/
def Fire.advance (state : TenantState) (fire : Fire) (choice : FireChoice) : Option FirePhase :=
  if fire.phase.over then none
  else some (if choice.passes then fire.proceed runMaxInFlightPerTenant state choice else .failed)

/-- These are the rows that a commit adds: the queued run of a fire that created one. -/
def Fire.commits (fire : Fire) (choice : FireChoice) : List TenantRun :=
  if fire.phase = .closing .enqueued ∧ choice.passes = true then
    [⟨some fire.schedule, true, .queued⟩]
  else []

/-- Fires are delivered and go on; runs start and complete. -/
inductive TenantAction where
  | deliver (schedule : Nat)
  | fire (place : Nat) (choice : FireChoice)
  | startRun (place : Nat)
  | completeRun (place : Nat) (status : RunStatus)
  deriving DecidableEq

/-- This is `mark_running`. -/
def TenantState.startRun (state : TenantState) (place : Nat) : Option TenantState :=
  match state.runs[place]? with
  | none => none
  | some run =>
      if run.status = .queued then
        some { state with runs := state.runs.set place { run with status := .running } }
      else none

/-- This is `mark_terminal` of an active run. -/
def TenantState.completeRun (state : TenantState) (place : Nat) (status : RunStatus) :
    Option TenantState :=
  match state.runs[place]? with
  | none => none
  | some run =>
      if run.active && status.isTerminal then
        some { state with runs := state.runs.set place { run with status } }
      else none

/-- This is one step of the tenant. -/
def tenantStep (state : TenantState) : TenantAction → Option TenantState
  | .deliver schedule => some { state with fires := state.fires ++ [⟨schedule, .started⟩] }
  | .fire place choice =>
      match state.fires[place]? with
      | none => none
      | some fire => (fire.advance runMaxInFlightPerTenant state choice).map fun phase =>
          { state with
            runs := state.runs ++ fire.commits choice
            fires := state.fires.set place { fire with phase } }
  | .startRun place => state.startRun place
  | .completeRun place status => state.completeRun place status

/-- No fire has come and no run was created by one. -/
def TenantState.initial (schedules : List ScheduleRow) (runs : List TenantRun) : TenantState :=
  ⟨schedules, runs, []⟩

end LumenCopilot.Schedules
