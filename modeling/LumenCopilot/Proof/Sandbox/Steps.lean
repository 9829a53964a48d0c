import LumenCopilot.Construction.Sandbox.Execution

namespace LumenCopilot.Sandbox

/-- These are the ways in which one action changes the system, with what each finds before it. -/
inductive World.Takes (world : World) : ExecutionAction → World → Prop where
  | start (i : Nat) (callback : Bool) (idle : (world.calls i).phase = .idle) :
      world.Takes (.start i callback) (world.setCall i { phase := .reading, callback := callback })
  | read (i : Nat) (reading : (world.calls i).phase = .reading) :
      world.Takes (.read i) (world.goto i (if world.status = .queued then .deciding else .done))
  | decide (i : Nat) (denied : Bool) (deciding : (world.calls i).phase = .deciding) :
      world.Takes (.decide i denied) (world.goto i (if denied then .denying false else .leasing))
  | refuse (i : Nat) (grant : LeaseGrant) (leasing : (world.calls i).phase = .leasing) :
      world.Takes (.acquire i grant) (world.goto i (.denying false))
  | duplicate (i : Nat) (grant : LeaseGrant) (leasing : (world.calls i).phase = .leasing)
      (holder : Nat) (held : world.lease = some holder) :
      world.Takes (.acquire i grant) (world.goto i .done)
  | acquire (i : Nat) (leasing : (world.calls i).phase = .leasing) (free : world.lease = none) :
      world.Takes (.acquire i .granted) ({ world with lease := some i }.goto i .reserving)
  | reserve (i : Nat) (reserving : (world.calls i).phase = .reserving) :
      world.Takes (.reserve i .reserved)
        (world.setCall i { world.calls i with phase := .ensuring, reserved := true })
  | exceed (i : Nat) (grant : DailyGrant) (reserving : (world.calls i).phase = .reserving) :
      world.Takes (.reserve i grant) (world.goto i (.denying true))
  | ensure (i : Nat) (grant : SessionGrant) (phase : CallPhase)
      (ensuring : (world.calls i).phase = .ensuring)
      (answers : phase = .marking ∨ phase = .denying true ∨ phase = .failing) :
      world.Takes (.ensure i grant) (world.goto i phase)
  | mark (i : Nat) (marking : (world.calls i).phase = .marking) :
      world.Takes (.mark i) ((world.start i).goto i
        (if markRunning world.status = .running then .dispatching else .closing))
  | dispatch (i : Nat) (dispatching : (world.calls i).phase = .dispatching) :
      world.Takes (.dispatch i) ((world.emit [.dispatched i]).goto i .executing)
  | returns (i : Nat) (result : CodeRunStatus) (executing : (world.calls i).phase = .executing) :
      world.Takes (.returns i result) ((world.emit [.returned i]).goto i (.finishing result))
  | fails (i : Nat) (executing : (world.calls i).phase = .executing) :
      world.Takes (.fails i) (world.goto i .failing)
  | stops (i : Nat) (accountingLoss : Bool) (executing : (world.calls i).phase = .executing) :
      world.Takes (.stops i accountingLoss) (world.setCall i { world.calls i with
        pending := true
        phase := if (world.calls i).callback && !accountingLoss then .confirming false
          else .killing })
  | finish (i : Nat) (result : CodeRunStatus) (finishing : (world.calls i).phase = .finishing result)
      (ends : result.isActive = false) :
      world.Takes (.finish i) ((world.terminate i result).goto i .closing)
  | deny (i : Nat) (admitted : Bool) (denying : (world.calls i).phase = .denying admitted) :
      world.Takes (.deny i)
        ((world.terminate i .denied).goto i (if admitted then .closing else .done))
  | fail (i : Nat) (failing : (world.calls i).phase = .failing) :
      world.Takes (.fail i) ((world.terminate i .failed).goto i .closing)
  | confirmRunning (i : Nat) (deferred : Bool)
      (confirming : (world.calls i).phase = .confirming deferred) (runs : world.status = .running) :
      world.Takes (.confirm i) (world.goto i (.stopping deferred))
  | confirmQueued (i : Nat) (deferred : Bool)
      (confirming : (world.calls i).phase = .confirming deferred) (waits : world.status = .queued) :
      world.Takes (.confirm i) (world.goto i (.recording deferred))
  | confirmEnded (i : Nat) (deferred : Bool)
      (confirming : (world.calls i).phase = .confirming deferred)
      (ended : world.status.isActive = false) :
      world.Takes (.confirm i) (world.setCall i { world.calls i with
        confirmed := true
        phase := if deferred then .settling false else .closing })
  | stop (i : Nat) (deferred : Bool) (stopping : (world.calls i).phase = .stopping deferred) :
      world.Takes (.stop i) ((world.emit [.killed]).goto i (.recording deferred))
  | record (i : Nat) (deferred : Bool) (recording : (world.calls i).phase = .recording deferred) :
      world.Takes (.record i) ((world.terminate i .killed).setCall i { world.calls i with
        confirmed := true
        phase := if deferred then .settling false else .closing })
  | kill (i : Nat) (killing : (world.calls i).phase = .killing) :
      world.Takes (.kill i) ((world.emit [.killed]).goto i .recordingKill)
  | recordKill (i : Nat) (recording : (world.calls i).phase = .recordingKill) :
      world.Takes (.recordKill i) ((world.terminate i .killed).setCall i { world.calls i with
        confirmed := true
        phase := .closing })
  | retry (i : Nat) (retrying : (world.calls i).phase = .retrying) :
      world.Takes (.retry i) (world.goto i .killing)
  | cleanup (i : Nat) (deferred : (world.calls i).phase = .deferred) :
      world.Takes (.cleanup i) (world.goto i (.confirming true))
  | close (i : Nat) (closing : (world.calls i).phase = .closing) :
      world.Takes (.close i) (world.goto i
        (if !(world.calls i).pending || (world.calls i).confirmed then .settling true else .done))
  | settle (i : Nat) (shielded : Bool) (settling : (world.calls i).phase = .settling shielded)
      (owed : ((world.calls i).reserved && !(world.calls i).settled) = true) :
      world.Takes (.settle i) ((world.emit [.settled i]).setCall i { world.calls i with
        settled := true
        phase := .releasing shielded })
  | skip (i : Nat) (shielded : Bool) (settling : (world.calls i).phase = .settling shielded)
      (paid : ((world.calls i).reserved && !(world.calls i).settled) = false) :
      world.Takes (.settle i) (world.goto i (.releasing shielded))
  | release (i : Nat) (shielded : Bool) (releasing : (world.calls i).phase = .releasing shielded)
      (held : (world.calls i).released = false) :
      world.Takes (.release i)
        (({ world with lease := if world.lease = some i then none else world.lease }.emit
          [.released i]).setCall i { world.calls i with released := true, phase := .done })
  | released (i : Nat) (shielded : Bool) (releasing : (world.calls i).phase = .releasing shielded)
      (free : (world.calls i).released = true) :
      world.Takes (.release i) (world.goto i .done)
  | raise (i : Nat) (phase : CallPhase) (raised : (world.calls i).phase.afterRaise = some phase) :
      world.Takes (.raise i) (world.goto i phase)
  | cancel (i : Nat) (applied : Bool) (phase : CallPhase)
      (interrupted : (world.calls i).phase.afterCancel (world.calls i).callback = some phase) :
      world.Takes (.cancel i applied)
        ((if applied then world.applied i else world).goto i phase)
  | request (u : Nat) (idle : world.requests u = .idle) :
      world.Takes (.request u) { world with
        requests := fun v =>
          if v = u then
            if world.status.isActive then .observed (world.status = .running) else .done
          else world.requests v }
  | stopRequest (u : Nat) (observed : world.requests u = .observed true) :
      world.Takes (.stopRequest u) ({ world with
        requests := fun v => if v = u then .stopped else world.requests v }.emit [.killed])
  | recordRequest (u : Nat)
      (observed : world.requests u = .observed false ∨ world.requests u = .stopped) :
      world.Takes (.recordRequest u) { world with
        status := markTerminal .killed world.status
        requests := fun v => if v = u then .done else world.requests v }
  | loseLease : world.Takes .loseLease { world with lease := none }

/-- A step of the system is one of these ways. -/
theorem executionStep_takes {world after : World} {action : ExecutionAction}
    (steps : executionStep world action = some after) : world.Takes action after := by
  cases action with
  | start i callback =>
      simp only [executionStep] at steps
      split at steps <;> cases steps
      exact .start i callback ‹_›
  | read i =>
      simp only [executionStep] at steps
      split at steps <;> cases steps
      exact .read i ‹_›
  | decide i denied =>
      simp only [executionStep] at steps
      split at steps <;> cases steps
      exact .decide i denied ‹_›
  | acquire i grant =>
      simp only [executionStep] at steps
      split at steps
      · next leasing =>
          split at steps <;> cases steps
          · exact .refuse i _ leasing
          · next held => exact .duplicate i _ leasing _ held
          · exact .refuse i _ leasing
          · next free => exact .acquire i leasing free
      · contradiction
  | reserve i grant =>
      simp only [executionStep] at steps
      split at steps
      · next reserving =>
          split at steps <;> cases steps
          · exact .reserve i reserving
          · exact .exceed i _ reserving
          · exact .exceed i _ reserving
      · contradiction
  | ensure i grant =>
      simp only [executionStep] at steps
      split at steps
      · next ensuring =>
          split at steps <;> cases steps
          · exact .ensure i _ _ ensuring (Or.inl rfl)
          · exact .ensure i _ _ ensuring (Or.inr (Or.inl rfl))
          · exact .ensure i _ _ ensuring (Or.inr (Or.inl rfl))
          · exact .ensure i _ _ ensuring (Or.inr (Or.inr rfl))
      · contradiction
  | mark i =>
      simp only [executionStep] at steps
      split at steps <;> cases steps
      exact .mark i ‹_›
  | dispatch i =>
      simp only [executionStep] at steps
      split at steps <;> cases steps
      exact .dispatch i ‹_›
  | returns i result =>
      simp only [executionStep] at steps
      split at steps <;> cases steps
      exact .returns i result ‹_›
  | fails i =>
      simp only [executionStep] at steps
      split at steps <;> cases steps
      exact .fails i ‹_›
  | stops i accountingLoss =>
      simp only [executionStep] at steps
      split at steps <;> cases steps
      exact .stops i accountingLoss ‹_›
  | finish i =>
      simp only [executionStep] at steps
      split at steps
      · next result finishing =>
          split at steps <;> cases steps
          next ends => exact .finish i result finishing (Bool.eq_false_iff.mpr ends)
      · contradiction
  | deny i =>
      simp only [executionStep] at steps
      split at steps <;> cases steps
      exact .deny i _ ‹_›
  | fail i =>
      simp only [executionStep] at steps
      split at steps <;> cases steps
      exact .fail i ‹_›
  | confirm i =>
      simp only [executionStep] at steps
      split at steps
      · next deferred confirming =>
          split at steps
          · next runs =>
              cases steps
              exact .confirmRunning i deferred confirming runs
          · next stopped =>
              split at steps <;> cases steps
              · next waits => exact .confirmQueued i deferred confirming waits
              · next started =>
                  refine .confirmEnded i deferred confirming ?_
                  cases status : world.status <;> simp_all [CodeRunStatus.isActive]
      · contradiction
  | stop i =>
      simp only [executionStep] at steps
      split at steps <;> cases steps
      exact .stop i _ ‹_›
  | record i =>
      simp only [executionStep] at steps
      split at steps <;> cases steps
      exact .record i _ ‹_›
  | kill i =>
      simp only [executionStep] at steps
      split at steps <;> cases steps
      exact .kill i ‹_›
  | recordKill i =>
      simp only [executionStep] at steps
      split at steps <;> cases steps
      exact .recordKill i ‹_›
  | retry i =>
      simp only [executionStep] at steps
      split at steps <;> cases steps
      exact .retry i ‹_›
  | cleanup i =>
      simp only [executionStep] at steps
      split at steps <;> cases steps
      exact .cleanup i ‹_›
  | close i =>
      simp only [executionStep] at steps
      split at steps <;> cases steps
      exact .close i ‹_›
  | settle i =>
      simp only [executionStep] at steps
      split at steps
      · next shielded settling =>
          split at steps <;> cases steps
          · next owed => exact .settle i shielded settling owed
          · next paid => exact .skip i shielded settling (Bool.eq_false_iff.mpr paid)
      · contradiction
  | release i =>
      simp only [executionStep] at steps
      split at steps
      · next shielded releasing =>
          split at steps <;> cases steps
          · next free => exact .released i shielded releasing free
          · next held => exact .release i shielded releasing (Bool.eq_false_iff.mpr held)
      · contradiction
  | raise i =>
      obtain ⟨phase, raised, rfl⟩ := Option.map_eq_some_iff.mp steps
      exact .raise i phase raised
  | cancel i applied =>
      obtain ⟨phase, interrupted, rfl⟩ := Option.map_eq_some_iff.mp steps
      exact .cancel i applied phase interrupted
  | request u =>
      simp only [executionStep] at steps
      split at steps <;> cases steps
      exact .request u ‹_›
  | stopRequest u =>
      simp only [executionStep] at steps
      split at steps <;> cases steps
      exact .stopRequest u ‹_›
  | recordRequest u =>
      simp only [executionStep] at steps
      split at steps <;> cases steps
      exact .recordRequest u ‹_›
  | loseLease =>
      cases steps
      exact .loseLease

end LumenCopilot.Sandbox
