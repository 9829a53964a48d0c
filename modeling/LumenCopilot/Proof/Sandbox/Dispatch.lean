import LumenCopilot.Proof.Sandbox.Steps
import LumenCopilot.Proof.Library.Transition

namespace LumenCopilot.Sandbox

open Library

/-- In these phases the call has dispatched its execution and still works on it. -/
def CallPhase.isDispatched : CallPhase → Bool
  | .executing | .finishing _ | .confirming _ | .stopping _ | .recording _ | .killing
  | .recordingKill | .retrying | .deferred => true
  | _ => false

def ExecutionEvent.isDispatch : ExecutionEvent → Bool
  | .dispatched _ => true
  | _ => false

/-- This is how often `runner.execute` was called. -/
def dispatches (log : List ExecutionEvent) : Nat := log.countP ExecutionEvent.isDispatch

/-- No call finds a running row where it marks it, or where it refuses or fails a run that it has not
dispatched. -/
def ExecutionAction.keepsDispatch (world : World) : ExecutionAction → Bool
  | .mark _ => world.status ≠ .running
  | .deny i | .fail i => world.status ≠ .running || world.log.contains (.dispatched i)
  | _ => true

@[simp] theorem World.setCall_self (world : World) (i : Nat) (call : Call) :
    (world.setCall i call).calls i = call := by
  simp [World.setCall]

theorem World.setCall_other (world : World) (i j : Nat) (call : Call) (other : j ≠ i) :
    (world.setCall i call).calls j = world.calls j := by
  simp [World.setCall, other]

/-- The row is never queued again. -/
theorem markTerminal_queued {terminal status : CodeRunStatus} (ends : terminal ≠ .queued)
    (queued : markTerminal terminal status = .queued) : status = .queued := by
  unfold markTerminal at queued
  split at queued
  · exact absurd queued ends
  · exact queued

theorem markRunning_ne_queued (status : CodeRunStatus) : markRunning status ≠ .queued := by
  unfold markRunning
  split
  · simp
  · assumption

/-- The invariant of the dispatches. -/
structure World.Exclusive (world : World) : Prop where
  free : world.status = .queued → dispatches world.log = 0 ∧ ∀ i, (world.calls i).phase ≠ .dispatching
  unique : ∀ i, (world.calls i).phase = .dispatching →
    dispatches world.log = 0 ∧ ∀ j, (world.calls j).phase = .dispatching → j = i
  once : dispatches world.log ≤ 1
  dispatched : ∀ i, (world.calls i).phase.isDispatched → .dispatched i ∈ world.log
  ended : ∀ i, .ended i .running ∈ world.log → .dispatched i ∈ world.log

theorem World.initial_exclusive : World.initial.Exclusive := by
  refine ⟨?_, ?_, ?_, ?_, ?_⟩ <;>
    simp [World.initial, dispatches, CallPhase.isDispatched]

theorem dispatches_append (first second : List ExecutionEvent) :
    dispatches (first ++ second) = dispatches first + dispatches second :=
  List.countP_append

/-- This is the call that an event belongs to. -/
def ExecutionEvent.owner : ExecutionEvent → Option Nat
  | .started i | .dispatched i | .returned i | .ended i _ | .settled i | .released i => some i
  | .killed => none

/-- A step changes one call and appends events that belong to it. -/
structure World.Steps (world : World) (i : Nat) (events : List ExecutionEvent) (after : World) :
    Prop where
  others : ∀ j, j ≠ i → after.calls j = world.calls j
  log : after.log = world.log ++ events
  queued : after.status = .queued → world.status = .queued
  own : ∀ event ∈ events, ∀ j, event.owner = some j → j = i

/-- This is the event of a terminal write. -/
def World.ending (world : World) (i : Nat) : List ExecutionEvent :=
  if world.status.isActive then [.ended i world.status] else []

theorem World.dispatches_ending (world : World) (i : Nat) : dispatches (world.ending i) = 0 := by
  unfold World.ending
  split <;> rfl

theorem World.mem_ending {world : World} {i : Nat} {event : ExecutionEvent}
    (member : event ∈ world.ending i) : event = .ended i world.status := by
  unfold World.ending at member
  split at member
  · exact List.mem_singleton.mp member
  · cases member

theorem World.steps_setCall (world : World) (i : Nat) (call : Call) :
    world.Steps i [] (world.setCall i call) :=
  ⟨fun j other => world.setCall_other i j call other, by simp [World.setCall], id, by simp⟩

theorem World.steps_emit (world : World) (i : Nat) (events : List ExecutionEvent) (call : Call)
    (own : ∀ event ∈ events, ∀ j, event.owner = some j → j = i) :
    world.Steps i events ((world.emit events).setCall i call) :=
  ⟨fun j other => (world.emit events).setCall_other i j call other, rfl, id, own⟩

theorem World.steps_terminate (world : World) (i : Nat) (terminal : CodeRunStatus) (call : Call)
    (ends : terminal ≠ .queued) :
    world.Steps i (world.ending i) ((world.terminate i terminal).setCall i call) := by
  refine ⟨fun j other => (world.terminate i terminal).setCall_other i j call other, ?_,
    fun queued => markTerminal_queued ends queued, ?_⟩
  · simp only [World.setCall, World.terminate, World.ending]
    split <;> simp
  · intro event member j owner
    rw [World.mem_ending member] at owner
    exact (Option.some.inj owner).symm

/-- This is the event of a won `mark_running`. -/
def World.starting (world : World) (i : Nat) : List ExecutionEvent :=
  if world.status = .queued then [.started i] else []

theorem World.dispatches_starting (world : World) (i : Nat) : dispatches (world.starting i) = 0 := by
  unfold World.starting
  split <;> rfl

theorem World.steps_start (world : World) (i : Nat) (call : Call) :
    world.Steps i (world.starting i) ((world.start i).setCall i call) := by
  refine ⟨fun j other => (world.start i).setCall_other i j call other, ?_, ?_, ?_⟩
  · simp only [World.setCall, World.start, World.starting]
    split <;> simp
  · intro queued
    exact absurd queued (markRunning_ne_queued world.status)
  · intro event member j owner
    unfold World.starting at member
    split at member
    · rw [List.mem_singleton.mp member] at owner
      exact (Option.some.inj owner).symm
    · cases member

/-- A step without a dispatch keeps the invariant. -/
theorem World.Exclusive.steps {world after : World} (exclusive : world.Exclusive) {i : Nat}
    {events : List ExecutionEvent} (steps : world.Steps i events after)
    (quiet : dispatches events = 0)
    (phase : (after.calls i).phase ≠ .dispatching)
    (kept : (after.calls i).phase.isDispatched → (world.calls i).phase.isDispatched)
    (ended : ∀ j, .ended j .running ∈ events → .dispatched j ∈ world.log) : after.Exclusive := by
  have same : dispatches after.log = dispatches world.log := by
    rw [steps.log, dispatches_append, quiet, Nat.add_zero]
  have before (j : Nat) (dispatching : (after.calls j).phase = .dispatching) :
      (world.calls j).phase = .dispatching := by
    by_cases mine : j = i
    · exact absurd (mine ▸ dispatching) phase
    · exact steps.others j mine ▸ dispatching
  refine ⟨?_, ?_, same ▸ exclusive.once, ?_, ?_⟩
  · intro queued
    obtain ⟨none, idle⟩ := exclusive.free (steps.queued queued)
    exact ⟨same.trans none, fun j dispatching => idle j (before j dispatching)⟩
  · intro j dispatching
    obtain ⟨none, alone⟩ := exclusive.unique j (before j dispatching)
    exact ⟨same.trans none, fun k other => alone k (before k other)⟩
  · intro j dispatched
    rw [steps.log]
    apply List.mem_append_left
    by_cases mine : j = i
    · subst mine
      exact exclusive.dispatched j (kept dispatched)
    · exact exclusive.dispatched j (steps.others j mine ▸ dispatched)
  · intro j member
    rw [steps.log] at member ⊢
    apply List.mem_append_left
    rcases List.mem_append.mp member with old | new
    · exact exclusive.ended j old
    · exact ended j new

section

variable {world : World} (exclusive : world.Exclusive)
include exclusive

/-- A call moves to another phase. -/
theorem World.Exclusive.moves (i : Nat) (call : Call) (phase : call.phase ≠ .dispatching)
    (kept : call.phase.isDispatched → (world.calls i).phase.isDispatched) :
    (world.setCall i call).Exclusive :=
  exclusive.steps (world.steps_setCall i call) rfl (by simpa using phase) (by simpa using kept)
    (by simp)

/-- A call or a request appends an event of the runner or the accounting store. -/
theorem World.Exclusive.emits (i : Nat) (event : ExecutionEvent) (call : Call)
    (own : event.owner = some i ∨ event.owner = none) (quiet : event.isDispatch = false)
    (unended : ∀ j before, event ≠ .ended j before) (phase : call.phase ≠ .dispatching)
    (kept : call.phase.isDispatched → (world.calls i).phase.isDispatched) :
    ((world.emit [event]).setCall i call).Exclusive := by
  refine exclusive.steps (world.steps_emit i [event] call ?_) (by simp [dispatches, quiet])
    (by simpa using phase) (by simpa using kept) ?_
  · intro other member j owner
    obtain rfl := List.mem_singleton.mp member
    rcases own with mine | free
    · exact Option.some.inj (owner.symm.trans mine)
    · simp [free] at owner
  · intro j member
    exact absurd (List.mem_singleton.mp member).symm (unended j .running)

/-- A call that has dispatched, or that finds no running row, ends the row. -/
theorem World.Exclusive.terminates (i : Nat) (terminal : CodeRunStatus) (call : Call)
    (ends : terminal ≠ .queued) (allowed : world.status ≠ .running ∨ .dispatched i ∈ world.log)
    (phase : call.phase ≠ .dispatching)
    (kept : call.phase.isDispatched → (world.calls i).phase.isDispatched) :
    ((world.terminate i terminal).setCall i call).Exclusive := by
  refine exclusive.steps (world.steps_terminate i terminal call ends) (world.dispatches_ending i)
    (by simpa using phase) (by simpa using kept) ?_
  intro j member
  obtain ⟨rfl, running⟩ := ExecutionEvent.ended.inj (World.mem_ending member)
  rcases allowed with idle | dispatched
  · exact absurd running.symm idle
  · exact dispatched

/-- The lease, the requests and a status that is not queued again do not matter. -/
theorem World.Exclusive.reframe (status : CodeRunStatus) (lease : Option Nat)
    (requests : Nat → RequestPhase) (queued : status = .queued → world.status = .queued) :
    (World.mk status lease world.calls requests world.log).Exclusive :=
  ⟨fun free => exclusive.free (queued free), exclusive.unique, exclusive.once, exclusive.dispatched,
    exclusive.ended⟩

/-- A kill by a request keeps the invariant. -/
theorem World.Exclusive.kills : (world.emit [.killed]).Exclusive := by
  have same : dispatches (world.log ++ [.killed]) = dispatches world.log := by
    rw [dispatches_append]
    rfl
  refine ⟨?_, ?_, Nat.le_trans (Nat.le_of_eq same) exclusive.once, ?_, ?_⟩
  · intro queued
    obtain ⟨none, idle⟩ := exclusive.free queued
    exact ⟨same.trans none, idle⟩
  · intro i dispatching
    obtain ⟨none, alone⟩ := exclusive.unique i dispatching
    exact ⟨same.trans none, alone⟩
  · intro i dispatched
    exact List.mem_append_left _ (exclusive.dispatched i dispatched)
  · intro i member
    rcases List.mem_append.mp member with old | new
    · exact List.mem_append_left _ (exclusive.ended i old)
    · simp at new

/-- A call that finds the row queued or ended marks it. -/
theorem World.Exclusive.marks (i : Nat) (marking : (world.calls i).phase = .marking)
    (idle : world.status ≠ .running) :
    ((world.start i).goto i
      (if markRunning world.status = .running then .dispatching else .closing)).Exclusive := by
  by_cases queued : world.status = .queued
  · obtain ⟨none, unmarked⟩ := exclusive.free queued
    have log : (world.start i).log = world.log ++ [.started i] := by simp [World.start, queued]
    have started : dispatches (world.log ++ [.started i]) = 0 := by
      rw [dispatches_append, none]
      rfl
    have running : markRunning world.status = .running := by simp [markRunning, queued]
    rw [if_pos running]
    refine ⟨?_, ?_, ?_, ?_, ?_⟩
    · intro again
      exact absurd again (markRunning_ne_queued world.status)
    · intro j dispatching
      refine ⟨log ▸ started, ?_⟩
      have alone (k : Nat) (there : (((world.start i).goto i .dispatching).calls k).phase = .dispatching) :
          k = i := by
        by_contra other
        rw [World.goto, World.setCall_other _ i k _ other] at there
        exact unmarked k there
      intro k there
      exact (alone k there).trans (alone j dispatching).symm
    · change dispatches (world.start i).log ≤ 1
      rw [log, started]
      omega
    · intro j dispatched
      by_cases mine : j = i
      · subst mine
        simp [World.goto, CallPhase.isDispatched] at dispatched
      · rw [World.goto, World.setCall_other _ i j _ mine] at dispatched
        exact log ▸ List.mem_append_left _ (exclusive.dispatched j dispatched)
    · intro j member
      change _ ∈ (world.start i).log at member
      change _ ∈ (world.start i).log
      rw [log] at member ⊢
      rcases List.mem_append.mp member with old | new
      · exact List.mem_append_left _ (exclusive.ended j old)
      · simp at new
  · have same : world.start i = world := by simp [World.start, markRunning, queued]
    have lost : markRunning world.status ≠ .running := by simpa [markRunning, queued] using idle
    rw [same, if_neg lost]
    exact exclusive.moves i _ (by simp) (by simp [CallPhase.isDispatched])

end

/-- The marking call dispatches. -/
theorem World.Exclusive.dispatches {world : World} (exclusive : world.Exclusive) (i : Nat)
    (dispatching : (world.calls i).phase = .dispatching) :
    ((world.emit [.dispatched i]).goto i .executing).Exclusive := by
  obtain ⟨none, alone⟩ := exclusive.unique i dispatching
  have idle (j : Nat) : (((world.emit [.dispatched i]).goto i .executing).calls j).phase ≠
      .dispatching := by
    by_cases mine : j = i
    · subst mine
      simp [World.goto]
    · rw [World.goto, World.setCall_other _ i j _ mine]
      exact fun there => mine (alone j there)
  refine ⟨?_, ?_, ?_, ?_, ?_⟩
  · intro queued
    exact absurd dispatching ((exclusive.free queued).2 i)
  · intro j there
    exact absurd there (idle j)
  · change Sandbox.dispatches (world.log ++ [.dispatched i]) ≤ 1
    rw [dispatches_append, none]
    simp [Sandbox.dispatches, ExecutionEvent.isDispatch]
  · intro j dispatched
    by_cases mine : j = i
    · subst mine
      exact List.mem_append_right _ (List.mem_singleton_self _)
    · rw [World.goto, World.setCall_other _ i j _ mine] at dispatched
      exact List.mem_append_left _ (exclusive.dispatched j dispatched)
  · intro j member
    rcases List.mem_append.mp member with old | new
    · exact List.mem_append_left _ (exclusive.ended j old)
    · simp at new

/-- An interrupted call neither dispatches nor takes up an execution. -/
theorem CallPhase.afterCancel_kept {callback : Bool} {before after : CallPhase}
    (interrupted : before.afterCancel callback = some after) :
    after ≠ .dispatching ∧ (after.isDispatched → before.isDispatched) := by
  unfold CallPhase.afterCancel at interrupted
  split at interrupted <;> cases interrupted <;> try simp [CallPhase.isDispatched]
  split <;> simp

theorem CallPhase.afterRaise_kept {before after : CallPhase} (raised : before.afterRaise = some after) :
    after ≠ .dispatching ∧ (after.isDispatched → before.isDispatched) := by
  unfold CallPhase.afterRaise at raised
  split at raised <;> cases raised <;> simp [CallPhase.isDispatched]

/-- What an interrupted await did keeps the invariant. -/
theorem World.Exclusive.applied {world : World} (exclusive : world.Exclusive) (i : Nat)
    (call : Call) (phase : call.phase ≠ .dispatching)
    (kept : call.phase.isDispatched → (world.calls i).phase.isDispatched) :
    ((world.applied i).setCall i call).Exclusive := by
  unfold World.applied
  split
  · split
    · exact (exclusive.reframe world.status (some i) world.requests id).moves i call phase kept
    · exact exclusive.moves i call phase kept
  · exact exclusive.steps (world.steps_start i call) (world.dispatches_starting i)
      (by simpa using phase) (by simpa using kept) fun j member => by
        simp [World.starting] at member
  · next recording =>
      exact exclusive.terminates i .killed call (by simp)
        (Or.inr (exclusive.dispatched i (by simp [recording, CallPhase.isDispatched]))) phase kept
  · next recording =>
      exact exclusive.terminates i .killed call (by simp)
        (Or.inr (exclusive.dispatched i (by simp [recording, CallPhase.isDispatched]))) phase kept
  · split
    · exact exclusive.emits i (.settled i) call (Or.inl rfl) rfl (by simp) phase kept
    · exact exclusive.moves i call phase kept
  · split
    · exact exclusive.moves i call phase kept
    · exact (exclusive.reframe world.status _ world.requests id).emits i (.released i) call
        (Or.inl rfl) rfl (by simp) phase kept
  · exact exclusive.moves i call phase kept

/-- Every step that keeps the dispatch keeps the invariant. -/
theorem executionStep_exclusive (world after : World) (action : ExecutionAction)
    (exclusive : world.Exclusive) (kept : action.keepsDispatch world = true)
    (steps : executionStep world action = some after) : after.Exclusive := by
  cases executionStep_takes steps with
  | start i callback idle => exact exclusive.moves i _ (by simp) (by simp [CallPhase.isDispatched])
  | read i reading =>
      exact exclusive.moves i _ (by dsimp only; split <;> simp)
        (by dsimp only; split <;> simp [CallPhase.isDispatched])
  | decide i denied deciding =>
      exact exclusive.moves i _ (by dsimp only; split <;> simp)
        (by dsimp only; split <;> simp [CallPhase.isDispatched])
  | refuse i grant leasing => exact exclusive.moves i _ (by simp) (by simp [CallPhase.isDispatched])
  | duplicate i grant leasing =>
      exact exclusive.moves i _ (by simp) (by simp [CallPhase.isDispatched])
  | acquire i leasing =>
      exact (exclusive.reframe world.status (some i) world.requests id).moves i _ (by simp)
        (by simp [CallPhase.isDispatched])
  | reserve i reserving => exact exclusive.moves i _ (by simp) (by simp [CallPhase.isDispatched])
  | exceed i grant reserving =>
      exact exclusive.moves i _ (by simp) (by simp [CallPhase.isDispatched])
  | ensure i grant phase ensuring answers =>
      rcases answers with rfl | rfl | rfl <;>
        exact exclusive.moves i _ (by simp) (by simp [CallPhase.isDispatched])
  | mark i marking =>
      exact exclusive.marks i marking (by simpa [ExecutionAction.keepsDispatch] using kept)
  | dispatch i dispatching => exact exclusive.dispatches i dispatching
  | returns i result executing =>
      exact exclusive.emits i (.returned i) _ (Or.inl rfl) rfl (by simp) (by simp)
        (by simp [executing, CallPhase.isDispatched])
  | fails i executing => exact exclusive.moves i _ (by simp) (by simp [CallPhase.isDispatched])
  | stops i accountingLoss executing =>
      exact exclusive.moves i _ (by dsimp only; split <;> simp)
        (by simp [executing, CallPhase.isDispatched])
  | finish i result finishing ends =>
      have dispatched : (world.calls i).phase.isDispatched = true := by
        simp [finishing, CallPhase.isDispatched]
      refine exclusive.terminates i result _ ?_ (Or.inr (exclusive.dispatched i dispatched)) (by simp)
        (by simp [CallPhase.isDispatched])
      rintro rfl
      simp [CodeRunStatus.isActive] at ends
  | deny i admitted denying =>
      exact exclusive.terminates i .denied _ (by simp)
        (by simpa [ExecutionAction.keepsDispatch] using kept) (by dsimp only; split <;> simp)
        (by dsimp only; split <;> simp [CallPhase.isDispatched])
  | fail i failing =>
      exact exclusive.terminates i .failed _ (by simp)
        (by simpa [ExecutionAction.keepsDispatch] using kept) (by simp)
        (by simp [CallPhase.isDispatched])
  | confirmRunning i deferred confirming runs =>
      exact exclusive.moves i _ (by simp) (by simp [confirming, CallPhase.isDispatched])
  | confirmQueued i deferred confirming waits =>
      exact exclusive.moves i _ (by simp) (by simp [confirming, CallPhase.isDispatched])
  | confirmEnded i deferred confirming ended =>
      exact exclusive.moves i _ (by dsimp only; split <;> simp)
        (by simp [confirming, CallPhase.isDispatched])
  | stop i deferred stopping =>
      exact exclusive.emits i .killed _ (Or.inr rfl) rfl (by simp) (by simp)
        (by simp [stopping, CallPhase.isDispatched])
  | record i deferred recording =>
      have dispatched : (world.calls i).phase.isDispatched = true := by
        simp [recording, CallPhase.isDispatched]
      exact exclusive.terminates i .killed _ (by simp) (Or.inr (exclusive.dispatched i dispatched))
        (by dsimp only; split <;> simp) fun _ => dispatched
  | kill i killing =>
      exact exclusive.emits i .killed _ (Or.inr rfl) rfl (by simp) (by simp)
        (by simp [killing, CallPhase.isDispatched])
  | recordKill i recording =>
      have dispatched : (world.calls i).phase.isDispatched = true := by
        simp [recording, CallPhase.isDispatched]
      exact exclusive.terminates i .killed _ (by simp) (Or.inr (exclusive.dispatched i dispatched))
        (by simp) fun _ => dispatched
  | retry i retrying =>
      exact exclusive.moves i _ (by simp) (by simp [retrying, CallPhase.isDispatched])
  | cleanup i deferred =>
      exact exclusive.moves i _ (by simp) (by simp [deferred, CallPhase.isDispatched])
  | close i closing =>
      exact exclusive.moves i _ (by dsimp only; split <;> simp)
        (by dsimp only; split <;> simp [CallPhase.isDispatched])
  | settle i shielded settling =>
      exact exclusive.emits i (.settled i) _ (Or.inl rfl) rfl (by simp) (by simp)
        (by simp [CallPhase.isDispatched])
  | skip i shielded settling => exact exclusive.moves i _ (by simp) (by simp [CallPhase.isDispatched])
  | release i shielded releasing =>
      exact (exclusive.reframe world.status _ world.requests id).emits i (.released i) _
        (Or.inl rfl) rfl (by simp) (by simp) (by simp [CallPhase.isDispatched])
  | released i shielded releasing =>
      exact exclusive.moves i _ (by simp) (by simp [CallPhase.isDispatched])
  | raise i phase raised =>
      obtain ⟨undispatched, keeps⟩ := CallPhase.afterRaise_kept raised
      exact exclusive.moves i _ undispatched keeps
  | cancel i applied phase interrupted =>
      obtain ⟨undispatched, keeps⟩ := CallPhase.afterCancel_kept interrupted
      cases applied with
      | true => exact exclusive.applied i _ undispatched keeps
      | false => exact exclusive.moves i _ undispatched keeps
  | request u idle => exact exclusive.reframe world.status world.lease _ id
  | stopRequest u observed => exact (exclusive.reframe world.status world.lease _ id).kills
  | recordRequest u observed =>
      exact exclusive.reframe _ world.lease _ (markTerminal_queued (by simp))
  | loseLease => exact exclusive.reframe world.status none world.requests id

/-- These are the awaits of a call up to its dispatch. -/
def dispatching (i : Nat) : List ExecutionAction :=
  [.decide i false, .acquire i .granted, .reserve i .reserved, .ensure i .ready, .mark i, .dispatch i]

/-- A duplicate is refused by the lease of the first call, and another one by its policy after the
run has finished. -/
def refusedDuplicates : List ExecutionAction :=
  [.start 0 true, .start 1 false, .start 2 false, .read 0, .read 1, .read 2] ++ dispatching 0 ++
    [.decide 1 false, .acquire 1 .granted, .returns 0 .succeeded, .finish 0, .close 0, .settle 0,
      .release 0, .decide 2 true, .deny 2]

/-- The first call runs when its lease is lost, so a duplicate dispatches again; the policy of a
third call refuses the running run. -/
def lostLease : List ExecutionAction :=
  [.start 0 true, .start 1 false, .start 2 false, .read 0, .read 1, .read 2] ++ dispatching 0 ++
    [.loseLease] ++ dispatching 1 ++ [.decide 2 true, .deny 2]

end LumenCopilot.Sandbox
