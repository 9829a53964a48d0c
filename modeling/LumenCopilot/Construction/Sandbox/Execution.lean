import Mathlib

namespace LumenCopilot.Sandbox

/-- These are the statuses of a code run. -/
inductive CodeRunStatus where
  | queued
  | running
  | succeeded
  | failed
  | timeout
  | killed
  | denied
  deriving DecidableEq

def CodeRunStatus.isActive : CodeRunStatus → Bool
  | .queued | .running => true
  | _ => false

/-- This is `CodeRunRepository.mark_running`; when it loses, it returns the current row. -/
def markRunning (status : CodeRunStatus) : CodeRunStatus :=
  if status = .queued then .running else status

/-- This is `CodeRunRepository.mark_terminal`; an active row takes the terminal status. -/
def markTerminal (terminal status : CodeRunStatus) : CodeRunStatus :=
  if status.isActive then terminal else status

/-- This is what `acquire_lease` finds about the tenant, apart from the lease of the run. -/
inductive LeaseGrant where
  | granted
  | refused
  | unavailable
  deriving DecidableEq

/-- This is what `reserve_daily` answers. -/
inductive DailyGrant where
  | reserved
  | exceeded
  | unavailable
  deriving DecidableEq

/-- This is what `lifecycle.ensure` answers, with the loss of accounting that is checked after it. -/
inductive SessionGrant where
  | ready
  | accountingLost
  | disabled
  | failed
  deriving DecidableEq

/-- These are the awaits of `execute_outcome`. The callback confirms a kill in line or deferred, and
a settlement is shielded unless the deferred cleanup makes it. -/
inductive CallPhase where
  | idle
  | reading
  | deciding
  | leasing
  | reserving
  | ensuring
  | marking
  | dispatching
  | executing
  | finishing (result : CodeRunStatus)
  | denying (admitted : Bool)
  | failing
  | confirming (deferred : Bool)
  | stopping (deferred : Bool)
  | recording (deferred : Bool)
  | killing
  | recordingKill
  | retrying
  | deferred
  | closing
  | settling (shielded : Bool)
  | releasing (shielded : Bool)
  | done
  deriving DecidableEq

/-- A call owns an admission: the latches of `AdmissionOwnership` and of its lease. The chat gives
it a cleanup callback. -/
structure Call where
  phase : CallPhase := .idle
  callback : Bool := false
  reserved : Bool := false
  settled : Bool := false
  released : Bool := false
  pending : Bool := false
  confirmed : Bool := false
  deriving DecidableEq

/-- A user request to cancel the code run reads the row before it writes. -/
inductive RequestPhase where
  | idle
  | observed (allocated : Bool)
  | stopped
  | done
  deriving DecidableEq

/-- These events are the calls of the runner and the accounting store, and the won row updates. -/
inductive ExecutionEvent where
  | started (i : Nat)
  | dispatched (i : Nat)
  | returned (i : Nat)
  | killed
  | ended (i : Nat) (before : CodeRunStatus)
  | settled (i : Nat)
  | released (i : Nat)
  deriving DecidableEq

/-- One code run has its row, its lease, the calls and requests on it, and the history. -/
structure World where
  status : CodeRunStatus
  lease : Option Nat
  calls : Nat → Call
  requests : Nat → RequestPhase
  log : List ExecutionEvent

def World.initial : World := ⟨.queued, none, fun _ => {}, fun _ => .idle, []⟩

def World.setCall (world : World) (i : Nat) (call : Call) : World :=
  { world with calls := fun j => if j = i then call else world.calls j }

def World.goto (world : World) (i : Nat) (phase : CallPhase) : World :=
  world.setCall i { world.calls i with phase := phase }

def World.emit (world : World) (events : List ExecutionEvent) : World :=
  { world with log := world.log ++ events }

/-- A terminal write of a call ends an active row. -/
def World.terminate (world : World) (i : Nat) (terminal : CodeRunStatus) : World :=
  { world with
    status := markTerminal terminal world.status
    log := if world.status.isActive then world.log ++ [.ended i world.status] else world.log }

/-- A won `mark_running` starts the row. -/
def World.start (world : World) (i : Nat) : World :=
  { world with
    status := markRunning world.status
    log := if world.status = .queued then world.log ++ [.started i] else world.log }

/-- One action is an await of a call, an interruption of one, a user request or a lost lease. -/
inductive ExecutionAction where
  | start (i : Nat) (callback : Bool)
  | read (i : Nat)
  | decide (i : Nat) (denied : Bool)
  | acquire (i : Nat) (grant : LeaseGrant)
  | reserve (i : Nat) (grant : DailyGrant)
  | ensure (i : Nat) (grant : SessionGrant)
  | mark (i : Nat)
  | dispatch (i : Nat)
  | returns (i : Nat) (result : CodeRunStatus)
  | fails (i : Nat)
  | stops (i : Nat) (accountingLoss : Bool)
  | finish (i : Nat)
  | deny (i : Nat)
  | fail (i : Nat)
  | confirm (i : Nat)
  | stop (i : Nat)
  | record (i : Nat)
  | kill (i : Nat)
  | recordKill (i : Nat)
  | retry (i : Nat)
  | cleanup (i : Nat)
  | close (i : Nat)
  | settle (i : Nat)
  | release (i : Nat)
  | raise (i : Nat)
  | cancel (i : Nat) (applied : Bool)
  | request (u : Nat)
  | stopRequest (u : Nat)
  | recordRequest (u : Nat)
  | loseLease
  deriving DecidableEq

/-- This is the phase after an ordinary exception, with the effects of its transaction undone. -/
def CallPhase.afterRaise : CallPhase → Option CallPhase
  | .reading | .deciding | .leasing | .denying false => some .done
  | .reserving | .marking | .denying true | .failing | .finishing _ => some .closing
  | .confirming _ | .stopping _ | .recording _ => some .deferred
  | .killing | .recordingKill => some .retrying
  | _ => none

/-- This is the phase after a cancellation of the producer or, in deferred cleanup, of its
finalizer. -/
def CallPhase.afterCancel (callback : Bool) : CallPhase → Option CallPhase
  | .reading | .deciding | .leasing | .denying false => some .done
  | .reserving | .ensuring | .marking | .denying true | .failing | .finishing _ => some .closing
  | .confirming false | .stopping false | .recording false => some .deferred
  | .confirming true | .stopping true | .recording true | .deferred => some .done
  | .killing | .recordingKill => some .retrying
  | .retrying => some (if callback then .deferred else .closing)
  | .closing | .releasing false => some .done
  | .settling false => some (.releasing false)
  | _ => none

/-- These are the effects that an interrupted await may still have. -/
def World.applied (world : World) (i : Nat) : World :=
  match (world.calls i).phase with
  | .leasing => if world.lease.isNone then { world with lease := some i } else world
  | .marking => world.start i
  | .recording _ | .recordingKill => world.terminate i .killed
  | .settling false =>
      if (world.calls i).reserved && !(world.calls i).settled then world.emit [.settled i] else world
  | .releasing false =>
      if (world.calls i).released then world
      else { world with lease := if world.lease = some i then none else world.lease }.emit [.released i]
  | _ => world

/-- The system takes one step of one call or request. -/
def executionStep (world : World) : ExecutionAction → Option World
  | .start i callback =>
      if (world.calls i).phase = .idle then
        some (world.setCall i { phase := .reading, callback := callback })
      else none
  | .read i =>
      if (world.calls i).phase = .reading then
        some (world.goto i (if world.status = .queued then .deciding else .done))
      else none
  | .decide i denied =>
      if (world.calls i).phase = .deciding then
        some (world.goto i (if denied then .denying false else .leasing))
      else none
  | .acquire i grant =>
      if (world.calls i).phase = .leasing then
        match grant, world.lease with
        | .unavailable, _ => some (world.goto i (.denying false))
        | _, some _ => some (world.goto i .done)
        | .refused, none => some (world.goto i (.denying false))
        | .granted, none => some ({ world with lease := some i }.goto i .reserving)
      else none
  | .reserve i grant =>
      if (world.calls i).phase = .reserving then
        match grant with
        | .reserved => some (world.setCall i { world.calls i with phase := .ensuring, reserved := true })
        | .exceeded | .unavailable => some (world.goto i (.denying true))
      else none
  | .ensure i grant =>
      if (world.calls i).phase = .ensuring then
        match grant with
        | .ready => some (world.goto i .marking)
        | .accountingLost | .disabled => some (world.goto i (.denying true))
        | .failed => some (world.goto i .failing)
      else none
  | .mark i =>
      if (world.calls i).phase = .marking then
        let phase := if markRunning world.status = .running then .dispatching else .closing
        some ((world.start i).goto i phase)
      else none
  | .dispatch i =>
      if (world.calls i).phase = .dispatching then
        some ((world.emit [.dispatched i]).goto i .executing)
      else none
  | .returns i result =>
      if (world.calls i).phase = .executing then
        some ((world.emit [.returned i]).goto i (.finishing result))
      else none
  | .fails i =>
      if (world.calls i).phase = .executing then some (world.goto i .failing) else none
  | .stops i accountingLoss =>
      if (world.calls i).phase = .executing then
        let call := world.calls i
        some (world.setCall i { call with
          pending := true
          phase := if call.callback && !accountingLoss then .confirming false else .killing })
      else none
  | .finish i =>
      match (world.calls i).phase with
      | .finishing result =>
          if result.isActive then none else some ((world.terminate i result).goto i .closing)
      | _ => none
  | .deny i =>
      match (world.calls i).phase with
      | .denying admitted =>
          some ((world.terminate i .denied).goto i (if admitted then .closing else .done))
      | _ => none
  | .fail i =>
      if (world.calls i).phase = .failing then some ((world.terminate i .failed).goto i .closing)
      else none
  | .confirm i =>
      match (world.calls i).phase with
      | .confirming deferred =>
          if world.status = .running then some (world.goto i (.stopping deferred))
          else if world.status = .queued then some (world.goto i (.recording deferred))
          else
            some (world.setCall i { world.calls i with
              confirmed := true
              phase := if deferred then .settling false else .closing })
      | _ => none
  | .stop i =>
      match (world.calls i).phase with
      | .stopping deferred => some ((world.emit [.killed]).goto i (.recording deferred))
      | _ => none
  | .record i =>
      match (world.calls i).phase with
      | .recording deferred =>
          some ((world.terminate i .killed).setCall i { world.calls i with
            confirmed := true
            phase := if deferred then .settling false else .closing })
      | _ => none
  | .kill i =>
      if (world.calls i).phase = .killing then some ((world.emit [.killed]).goto i .recordingKill)
      else none
  | .recordKill i =>
      if (world.calls i).phase = .recordingKill then
        some ((world.terminate i .killed).setCall i { world.calls i with
          confirmed := true
          phase := .closing })
      else none
  | .retry i =>
      if (world.calls i).phase = .retrying then some (world.goto i .killing) else none
  | .cleanup i =>
      if (world.calls i).phase = .deferred then some (world.goto i (.confirming true)) else none
  | .close i =>
      if (world.calls i).phase = .closing then
        some (world.goto i
          (if !(world.calls i).pending || (world.calls i).confirmed then .settling true else .done))
      else none
  | .settle i =>
      match (world.calls i).phase with
      | .settling shielded =>
          if (world.calls i).reserved && !(world.calls i).settled then
            some ((world.emit [.settled i]).setCall i { world.calls i with
              settled := true
              phase := .releasing shielded })
          else some (world.goto i (.releasing shielded))
      | _ => none
  | .release i =>
      match (world.calls i).phase with
      | .releasing _ =>
          if (world.calls i).released then some (world.goto i .done)
          else
            some (({ world with lease := if world.lease = some i then none else world.lease }.emit
              [.released i]).setCall i { world.calls i with released := true, phase := .done })
      | _ => none
  | .raise i => ((world.calls i).phase.afterRaise).map fun phase => world.goto i phase
  | .cancel i applied =>
      ((world.calls i).phase.afterCancel (world.calls i).callback).map fun phase =>
        (if applied then world.applied i else world).goto i phase
  | .request u =>
      if world.requests u = .idle then
        some { world with
          requests := fun v =>
            if v = u then
              if world.status.isActive then .observed (world.status = .running) else .done
            else world.requests v }
      else none
  | .stopRequest u =>
      if world.requests u = .observed true then
        some ({ world with
          requests := fun v => if v = u then .stopped else world.requests v }.emit [.killed])
      else none
  | .recordRequest u =>
      if world.requests u = .observed false ∨ world.requests u = .stopped then
        some { world with
          status := markTerminal .killed world.status
          requests := fun v => if v = u then .done else world.requests v }
      else none
  | .loseLease => some { world with lease := none }

end LumenCopilot.Sandbox
