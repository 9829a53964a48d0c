import LumenCopilot.Proof.Sandbox.Dispatch
import Mathlib

namespace LumenCopilot.Sandbox

open Library

/-- After the dispatch of the call the runner returned a result to it or confirmed a cancel. -/
def resolved (i : Nat) (log : List ExecutionEvent) : Bool :=
  match log.dropWhile (· != .dispatched i) with
  | [] => true
  | _ :: back => back.contains (.returned i) || back.contains .killed

/-- These events refund the reservation or release the lease of the call. -/
def ExecutionEvent.frees (i : Nat) (event : ExecutionEvent) : Prop :=
  event = .settled i ∨ event = .released i

/-- The runner call of a dispatched execution ends with a result or a cancellation, and the callback
takes a terminal row for a kill only when the execution has ended. -/
def ExecutionAction.awaitsEnd (world : World) : ExecutionAction → Bool
  | .fails _ => false
  | .confirm i => world.status.isActive || resolved i world.log
  | _ => true

variable {i : Nat} {log : List ExecutionEvent}

theorem resolved_of_not_mem (absent : .dispatched i ∉ log) : resolved i log = true := by
  have none : log.dropWhile (· != .dispatched i) = [] := by
    rw [List.dropWhile_eq_nil_iff]
    intro event member
    rw [bne_iff_ne]
    rintro rfl
    exact absent member
  simp [resolved, none]

variable {event : ExecutionEvent}

/-- Another event keeps an execution resolved. -/
theorem resolved_append (ended : resolved i log = true) (other : event ≠ .dispatched i) :
    resolved i (log ++ [event]) = true := by
  unfold resolved at ended ⊢
  rw [List.dropWhile_append]
  cases later : log.dropWhile (· != .dispatched i) with
  | nil =>
      have passed : (event != .dispatched i) = true := bne_iff_ne.mpr other
      simp [List.dropWhile, passed]
  | cons first back =>
      rw [later] at ended
      simp only [List.isEmpty_cons, Bool.false_eq_true, if_false, List.cons_append]
      simp only [List.contains_eq_mem, Bool.or_eq_true, decide_eq_true_eq, List.mem_append] at ended ⊢
      rcases ended with returned | killed
      · exact Or.inl (Or.inl returned)
      · exact Or.inr (Or.inl killed)

/-- A result or a confirmed cancel resolves the execution. -/
theorem resolved_append_end (log : List ExecutionEvent)
    (ends : event = .returned i ∨ event = .killed) : resolved i (log ++ [event]) = true := by
  unfold resolved
  rw [List.dropWhile_append]
  cases later : log.dropWhile (· != .dispatched i) with
  | nil =>
      have passed : (event != .dispatched i) = true := by
        rw [bne_iff_ne]
        rcases ends with rfl | rfl <;> simp
      simp [List.dropWhile, passed]
  | cons first back => rcases ends with rfl | rfl <;> simp

/-- The phases of a call have nine stages. -/
inductive Stage where
  | early
  | running
  | returned
  | pending
  | stopped
  | closing
  | settling
  | releasing
  | done
  deriving DecidableEq

def CallPhase.stage : CallPhase → Stage
  | .idle | .reading | .deciding | .leasing | .reserving | .ensuring | .marking | .dispatching
  | .denying _ | .failing => .early
  | .executing => .running
  | .finishing _ => .returned
  | .confirming _ | .stopping _ | .killing | .retrying | .deferred => .pending
  | .recording _ | .recordingKill => .stopped
  | .closing => .closing
  | .settling _ => .settling
  | .releasing _ => .releasing
  | .done => .done

/-- The admission of the call is neither settled nor released. -/
def Untouched (i : Nat) (log : List ExecutionEvent) : Prop :=
  log.count (.settled i) = 0 ∧ log.count (.released i) = 0

def Call.unlatched (call : Call) : Prop := call.pending = false ∧ call.confirmed = false

def Call.latched (call : Call) : Prop := call.pending = true ∧ call.confirmed = false

/-- The invariant of the admission of one call in each stage. -/
def Stage.Secures (i : Nat) (log : List ExecutionEvent) (call : Call) : Stage → Prop
  | .early => .dispatched i ∉ log ∧ call.unlatched ∧ Untouched i log
  | .running => .dispatched i ∈ log ∧ call.unlatched ∧ Untouched i log
  | .returned => resolved i log = true ∧ call.unlatched ∧ Untouched i log
  | .pending => .dispatched i ∈ log ∧ call.latched ∧ Untouched i log
  | .stopped => .dispatched i ∈ log ∧ resolved i log = true ∧ call.latched ∧ Untouched i log
  | .closing =>
      (call.pending = false ∨ call.confirmed = true → resolved i log = true) ∧ Untouched i log
  | .settling => resolved i log = true ∧ Untouched i log
  | .releasing =>
      resolved i log = true ∧ log.count (.settled i) ≤ 1 ∧ log.count (.released i) = 0
  | .done => log.count (.settled i) ≤ 1 ∧ log.count (.released i) ≤ 1

def Call.Secure (i : Nat) (log : List ExecutionEvent) (call : Call) : Prop :=
  call.phase.stage.Secures i log call

/-- The invariant of all admissions. -/
structure World.Secure (world : World) : Prop where
  calls : ∀ i, (world.calls i).Secure i world.log
  safe : ∀ i front event, front ++ [event] <+: world.log → event.frees i → resolved i front = true
  marked : ∀ i, .dispatched i ∈ world.log ∨ (world.calls i).phase = .dispatching →
    world.status ≠ .queued

theorem World.initial_secure : World.initial.Secure := by
  refine ⟨?_, ?_, ?_⟩
  · intro i
    simp [World.initial, Call.Secure, CallPhase.stage, Stage.Secures, Call.unlatched, Untouched]
  · intro i front event earlier
    simp [World.initial] at earlier
  · simp [World.initial]

theorem Untouched.append (untouched : Untouched i log) (unsettled : event ≠ .settled i)
    (unreleased : event ≠ .released i) : Untouched i (log ++ [event]) := by
  simpa [Untouched, List.count_append, List.count_cons, unsettled, unreleased] using untouched

variable {call : Call}

/-- An event that neither dispatches nor frees the execution keeps the invariant of the call. -/
theorem Call.Secure.append (secure : call.Secure i log) (undispatched : event ≠ .dispatched i)
    (unsettled : event ≠ .settled i) (unreleased : event ≠ .released i) :
    call.Secure i (log ++ [event]) := by
  have settles : (log ++ [event]).count (.settled i) = log.count (.settled i) := by
    simp [List.count_append, unsettled]
  have releases : (log ++ [event]).count (.released i) = log.count (.released i) := by
    simp [List.count_append, unreleased]
  unfold Call.Secure at secure ⊢
  generalize call.phase.stage = stage at secure ⊢
  cases stage with
  | early =>
      obtain ⟨absent, latches, untouched⟩ := secure
      exact ⟨by simpa [undispatched.symm] using absent, latches,
        untouched.append unsettled unreleased⟩
  | running =>
      obtain ⟨present, latches, untouched⟩ := secure
      exact ⟨List.mem_append_left _ present, latches, untouched.append unsettled unreleased⟩
  | returned =>
      obtain ⟨ended, latches, untouched⟩ := secure
      exact ⟨resolved_append ended undispatched, latches, untouched.append unsettled unreleased⟩
  | pending =>
      obtain ⟨present, latches, untouched⟩ := secure
      exact ⟨List.mem_append_left _ present, latches, untouched.append unsettled unreleased⟩
  | stopped =>
      obtain ⟨present, ended, latches, untouched⟩ := secure
      exact ⟨List.mem_append_left _ present, resolved_append ended undispatched, latches,
        untouched.append unsettled unreleased⟩
  | closing =>
      obtain ⟨ended, untouched⟩ := secure
      exact ⟨fun free => resolved_append (ended free) undispatched,
        untouched.append unsettled unreleased⟩
  | settling =>
      obtain ⟨ended, untouched⟩ := secure
      exact ⟨resolved_append ended undispatched, untouched.append unsettled unreleased⟩
  | releasing =>
      obtain ⟨ended, settled, released⟩ := secure
      exact ⟨resolved_append ended undispatched, by rwa [settles], by rwa [releases]⟩
  | done =>
      obtain ⟨settled, released⟩ := secure
      exact ⟨by rwa [settles], by rwa [releases]⟩

theorem Untouched.atMostOnce (untouched : Untouched i log) :
    log.count (.settled i) ≤ 1 ∧ log.count (.released i) ≤ 1 := by
  obtain ⟨unsettled, unreleased⟩ := untouched
  omega

/-- The invariant allows one settlement and one release. -/
theorem Call.Secure.atMostOnce (secure : call.Secure i log) :
    log.count (.settled i) ≤ 1 ∧ log.count (.released i) ≤ 1 := by
  unfold Call.Secure at secure
  generalize call.phase.stage = stage at secure
  cases stage with
  | early | running | returned | pending => exact secure.2.2.atMostOnce
  | stopped => exact secure.2.2.2.atMostOnce
  | closing | settling => exact secure.2.atMostOnce
  | releasing => exact ⟨secure.2.1, secure.2.2.le.trans (Nat.zero_le 1)⟩
  | done => exact secure

/-- An event of another call keeps the invariant of a call. -/
theorem Call.Secure.frame (secure : call.Secure i log) (event : ExecutionEvent)
    (other : event.owner ≠ some i) : call.Secure i (log ++ [event]) := by
  refine secure.append ?_ ?_ ?_ <;>
    · rintro rfl
      exact other rfl

variable {world : World}

/-- A silent step of one call keeps the invariant when the call keeps its own. -/
theorem World.Secure.moves (secure : world.Secure) (i : Nat) (call : Call)
    (own : call.Secure i world.log)
    (dispatching : call.phase = .dispatching → world.status ≠ .queued) :
    (world.setCall i call).Secure := by
  refine ⟨?_, secure.safe, ?_⟩
  · intro j
    by_cases mine : j = i
    · subst mine
      rw [World.setCall_self]
      exact own
    · rw [World.setCall_other world i j call mine]
      exact secure.calls j
  · intro j there
    by_cases mine : j = i
    · subst mine
      rw [World.setCall_self] at there
      rcases there with dispatched | now
      · exact secure.marked j (Or.inl dispatched)
      · exact dispatching now
    · rw [World.setCall_other world i j call mine] at there
      exact secure.marked j there

/-- A step of one call appends an event. -/
theorem World.Secure.appends (secure : world.Secure) (i : Nat) (event : ExecutionEvent)
    (status : CodeRunStatus) (lease : Option Nat) (call : Call)
    (owner : ∀ j, event.owner = some j → j = i) (own : call.Secure i (world.log ++ [event]))
    (safe : event.frees i → resolved i world.log = true)
    (queued : status = .queued → world.status = .queued ∧ ∀ j, event ≠ .dispatched j)
    (undispatching : call.phase = .dispatching → status ≠ .queued) :
    (World.mk status lease (fun j => if j = i then call else world.calls j) world.requests
      (world.log ++ [event])).Secure := by
  refine ⟨?_, ?_, ?_⟩
  · intro j
    by_cases mine : j = i
    · subst mine
      simpa using own
    · simpa [mine] using (secure.calls j).frame event fun same => mine (owner j same)
  · intro j front other earlier frees
    rw [List.prefix_concat_iff] at earlier
    rcases earlier with whole | before
    · obtain ⟨rfl, same⟩ := List.append_inj' whole rfl
      obtain rfl := List.singleton_inj.mp same
      have mine : j = i := by
        rcases frees with rfl | rfl <;> exact owner j rfl
      exact mine ▸ safe (mine ▸ frees)
    · exact secure.safe j front other before frees
  · intro j there again
    obtain ⟨before, other⟩ := queued again
    refine secure.marked j ?_ before
    rcases there with dispatched | dispatching
    · left
      rcases List.mem_append.mp dispatched with old | new
      · exact old
      · exact absurd (List.mem_singleton.mp new).symm (other j)
    · right
      by_cases mine : j = i
      · subst mine
        exact absurd again (undispatching (by simpa using dispatching))
      · simpa [mine] using dispatching

theorem World.Secure.stage (secure : world.Secure) {stage : Stage}
    (known : (world.calls i).phase.stage = stage) : stage.Secures i world.log (world.calls i) :=
  known ▸ secure.calls i

/-- A terminal write of a call keeps the invariant when the call keeps its own. -/
theorem World.Secure.terminates (secure : world.Secure) (i : Nat) (terminal : CodeRunStatus)
    (call : Call) (ends : terminal ≠ .queued) (own : call.Secure i world.log)
    (undispatching : call.phase ≠ .dispatching) :
    ((world.terminate i terminal).setCall i call).Secure := by
  by_cases active : world.status.isActive
  · have written := secure.appends i (.ended i world.status) (markTerminal terminal world.status)
      world.lease call (by simp [ExecutionEvent.owner]) (own.append (by simp) (by simp) (by simp))
      (by simp [ExecutionEvent.frees]) (fun queued => ⟨markTerminal_queued ends queued, by simp⟩)
      (fun dispatching => absurd dispatching undispatching)
    simpa [World.terminate, World.setCall, active] using written
  · have same : world.terminate i terminal = world := by
      simp [World.terminate, markTerminal, active]
    rw [same]
    exact secure.moves i call own fun dispatching => absurd dispatching undispatching

/-- An event that neither dispatches nor frees the execution. -/
theorem World.Secure.emits (secure : world.Secure) (i : Nat) (event : ExecutionEvent) (call : Call)
    (owner : ∀ j, event.owner = some j → j = i) (own : call.Secure i (world.log ++ [event]))
    (unfreeing : ¬ event.frees i) (undispatched : ∀ j, event ≠ .dispatched j)
    (undispatching : call.phase ≠ .dispatching) : ((world.emit [event]).setCall i call).Secure :=
  secure.appends i event world.status world.lease call owner own (fun frees => absurd frees unfreeing)
    (fun queued => ⟨queued, undispatched⟩) (fun dispatching => absurd dispatching undispatching)

/-- A call that has not dispatched moves on, closes or ends. -/
theorem World.Secure.early (secure : world.Secure) (i : Nat) (call : Call)
    (known : (world.calls i).phase.stage = .early)
    (latches : call.pending = (world.calls i).pending ∧ call.confirmed = (world.calls i).confirmed)
    (next : call.phase.stage = .early ∨ call.phase.stage = .closing ∨ call.phase.stage = .done) :
    call.Secure i world.log := by
  obtain ⟨absent, ⟨unpending, unconfirmed⟩, untouched⟩ := secure.stage known
  have unlatched : call.unlatched := ⟨latches.1.trans unpending, latches.2.trans unconfirmed⟩
  unfold Call.Secure
  rcases next with early | closing | done
  · rw [early]
    exact ⟨absent, unlatched, untouched⟩
  · rw [closing]
    exact ⟨fun _ => resolved_of_not_mem absent, untouched⟩
  · rw [done]
    exact untouched.atMostOnce

/-- A pending call goes on waiting, or it is abandoned. -/
theorem World.Secure.waits (secure : world.Secure) (i : Nat) (call : Call)
    (known : (world.calls i).phase.stage = .pending ∨ (world.calls i).phase.stage = .stopped)
    (latches : call.pending = (world.calls i).pending ∧ call.confirmed = (world.calls i).confirmed)
    (next : call.phase.stage = .pending ∨ call.phase.stage = .closing ∨ call.phase.stage = .done) :
    call.Secure i world.log := by
  have facts : .dispatched i ∈ world.log ∧ (world.calls i).latched ∧ Untouched i world.log := by
    rcases known with pending | stopped
    · exact secure.stage pending
    · obtain ⟨present, -, latched, untouched⟩ := secure.stage stopped
      exact ⟨present, latched, untouched⟩
  obtain ⟨present, ⟨pending, unconfirmed⟩, untouched⟩ := facts
  unfold Call.Secure
  rcases next with waiting | closing | done
  · rw [waiting]
    exact ⟨present, ⟨latches.1.trans pending, latches.2.trans unconfirmed⟩, untouched⟩
  · rw [closing]
    refine ⟨?_, untouched⟩
    rintro (free | confirmed)
    · simp [latches.1.trans pending] at free
    · simp [latches.2.trans unconfirmed] at confirmed
  · rw [done]
    exact untouched.atMostOnce

/-- An execution that has ended is closed or settled. -/
theorem World.Secure.ends (ended : resolved i world.log = true) (untouched : Untouched i world.log)
    (next : call.phase.stage = .closing ∨ call.phase.stage = .settling) :
    call.Secure i world.log := by
  unfold Call.Secure
  rcases next with closing | settling
  · rw [closing]
    exact ⟨fun _ => ended, untouched⟩
  · rw [settling]
    exact ⟨ended, untouched⟩

/-- The lease, the requests and a status that is not queued again do not matter. -/
theorem World.Secure.reframe (secure : world.Secure) (status : CodeRunStatus) (lease : Option Nat)
    (requests : Nat → RequestPhase) (queued : status = .queued → world.status = .queued) :
    (World.mk status lease world.calls requests world.log).Secure :=
  ⟨secure.calls, secure.safe, fun i there again => secure.marked i there (queued again)⟩

/-- A kill by a request keeps the invariant. -/
theorem World.Secure.kills (secure : world.Secure) : (world.emit [.killed]).Secure := by
  refine ⟨?_, ?_, ?_⟩
  · intro i
    exact (secure.calls i).frame .killed (by simp [ExecutionEvent.owner])
  · intro i front event earlier frees
    change _ <+: world.log ++ [.killed] at earlier
    rw [List.prefix_concat_iff] at earlier
    rcases earlier with whole | before
    · obtain ⟨-, same⟩ := List.append_inj' whole rfl
      obtain rfl := List.singleton_inj.mp same
      simp [ExecutionEvent.frees] at frees
    · exact secure.safe i front event before frees
  · intro i there
    refine secure.marked i (there.imp ?_ id)
    intro dispatched
    simpa [World.emit] using dispatched

/-- The call marks the row, or it finds the row marked. -/
theorem World.Secure.marks (secure : world.Secure) (i : Nat) (call : Call)
    (own : call.Secure i world.log) : ((world.start i).setCall i call).Secure := by
  by_cases queued : world.status = .queued
  · have written := secure.appends i (.started i) .running world.lease call
      (by simp [ExecutionEvent.owner]) (own.append (by simp) (by simp) (by simp))
      (by simp [ExecutionEvent.frees]) (by simp) (by simp)
    simpa [World.start, World.setCall, markRunning, queued] using written
  · have same : world.start i = world := by simp [World.start, markRunning, queued]
    rw [same]
    exact secure.moves i call own fun _ => queued

/-- The settlement of an execution that has ended. -/
theorem World.Secure.settles (secure : world.Secure) (i : Nat) (call : Call)
    (known : (world.calls i).phase.stage = .settling) (next : call.phase.stage = .releasing) :
    ((world.emit [.settled i]).setCall i call).Secure := by
  obtain ⟨ended, unsettled, unreleased⟩ := secure.stage known
  refine secure.appends i (.settled i) world.status world.lease call (by simp [ExecutionEvent.owner]) ?_
    (fun _ => ended) (fun queued => ⟨queued, by simp⟩) ?_
  · unfold Call.Secure
    rw [next]
    exact ⟨resolved_append ended (by simp), by simp [List.count_append, unsettled],
      by simp [List.count_append, unreleased]⟩
  · intro dispatching
    simp [dispatching, CallPhase.stage] at next

/-- The release of an execution that has ended. -/
theorem World.Secure.releases (secure : world.Secure) (i : Nat) (call : Call)
    (known : (world.calls i).phase.stage = .releasing) (next : call.phase.stage = .done) :
    ((world.emit [.released i]).setCall i call).Secure := by
  obtain ⟨ended, settled, unreleased⟩ := secure.stage known
  refine secure.appends i (.released i) world.status world.lease call (by simp [ExecutionEvent.owner]) ?_
    (fun _ => ended) (fun queued => ⟨queued, by simp⟩) ?_
  · unfold Call.Secure
    rw [next]
    exact ⟨by simpa [List.count_append] using settled, by simp [List.count_append, unreleased]⟩
  · intro dispatching
    simp [dispatching, CallPhase.stage] at next

/-- A call that skips its settlement or its release goes on. -/
theorem World.Secure.skips (secure : world.Secure) (i : Nat) (call : Call)
    (next : (world.calls i).phase.stage = .settling ∧ call.phase.stage = .releasing ∨
      (world.calls i).phase.stage = .releasing ∧ call.phase.stage = .done) :
    call.Secure i world.log := by
  unfold Call.Secure
  rcases next with ⟨known, releasing⟩ | ⟨known, done⟩
  · obtain ⟨ended, unsettled, unreleased⟩ := secure.stage known
    rw [releasing]
    exact ⟨ended, unsettled.le.trans (Nat.zero_le 1), unreleased⟩
  · obtain ⟨-, settled, unreleased⟩ := secure.stage known
    rw [done]
    exact ⟨settled, unreleased.le.trans (Nat.zero_le 1)⟩

/-- An interrupted await leads to one of these stages. -/
inductive Stage.Interrupts : Stage → Stage → Prop where
  | early (next : Stage) (leaves : next = .closing ∨ next = .done) : Interrupts .early next
  | returned : Interrupts .returned .closing
  | pending (next : Stage) (leaves : next = .pending ∨ next = .closing ∨ next = .done) :
      Interrupts .pending next
  | stopped (next : Stage) (leaves : next = .pending ∨ next = .closing ∨ next = .done) :
      Interrupts .stopped next
  | closing : Interrupts .closing .done
  | settling : Interrupts .settling .releasing
  | releasing : Interrupts .releasing .done

theorem CallPhase.afterCancel_interrupts {callback : Bool} {before after : CallPhase}
    (interrupted : before.afterCancel callback = some after) : before.stage.Interrupts after.stage := by
  unfold CallPhase.afterCancel at interrupted
  cases callback <;> split at interrupted <;> cases interrupted <;> first
    | exact .early _ (by simp [CallPhase.stage])
    | exact .pending _ (by simp [CallPhase.stage])
    | exact .stopped _ (by simp [CallPhase.stage])
    | exact .returned
    | exact .closing
    | exact .settling
    | exact .releasing

theorem CallPhase.afterRaise_interrupts {before after : CallPhase}
    (raised : before.afterRaise = some after) : before.stage.Interrupts after.stage := by
  unfold CallPhase.afterRaise at raised
  split at raised <;> cases raised <;> first
    | exact .early _ (by simp [CallPhase.stage])
    | exact .pending _ (by simp [CallPhase.stage])
    | exact .stopped _ (by simp [CallPhase.stage])
    | exact .returned

/-- An interrupted call keeps its own invariant. -/
theorem World.Secure.interrupted (secure : world.Secure) (i : Nat) (phase : CallPhase)
    (interrupts : (world.calls i).phase.stage.Interrupts phase.stage) :
    ({ world.calls i with phase := phase } : Call).Secure i world.log := by
  generalize before : (world.calls i).phase.stage = stage at interrupts
  generalize after : phase.stage = next at interrupts
  cases interrupts with
  | early next leaves =>
      exact secure.early i _ before ⟨rfl, rfl⟩ (Or.inr (after ▸ leaves))
  | returned =>
      obtain ⟨ended, -, untouched⟩ := secure.stage before
      exact World.Secure.ends ended untouched (Or.inl after)
  | pending next leaves => exact secure.waits i _ (Or.inl before) ⟨rfl, rfl⟩ (after ▸ leaves)
  | stopped next leaves => exact secure.waits i _ (Or.inr before) ⟨rfl, rfl⟩ (after ▸ leaves)
  | closing =>
      obtain ⟨-, untouched⟩ := secure.stage before
      unfold Call.Secure
      rw [after]
      exact untouched.atMostOnce
  | settling => exact secure.skips i _ (Or.inl ⟨before, after⟩)
  | releasing => exact secure.skips i _ (Or.inr ⟨before, after⟩)

theorem World.applied_calls (world : World) (i : Nat) : (world.applied i).calls = world.calls := by
  unfold World.applied
  split
  · split <;> rfl
  · rfl
  · rfl
  · rfl
  · split <;> rfl
  · split <;> rfl
  · rfl

/-- What an interrupted await did keeps the invariant. -/
theorem World.Secure.applied (secure : world.Secure) (i : Nat) (phase : CallPhase)
    (interrupts : (world.calls i).phase.stage.Interrupts phase.stage)
    (undispatching : phase ≠ .dispatching) :
    ((world.applied i).setCall i { world.calls i with phase := phase }).Secure := by
  have own := secure.interrupted i phase interrupts
  have moved := secure.moves i _ own fun dispatching => absurd dispatching undispatching
  unfold World.applied
  split
  · split
    · exact (secure.reframe world.status (some i) world.requests id).moves i _ own
        fun dispatching => absurd dispatching undispatching
    · exact moved
  · exact secure.marks i _ own
  · exact secure.terminates i .killed _ (by simp) own undispatching
  · exact secure.terminates i .killed _ (by simp) own undispatching
  · next settling =>
      split
      · rw [settling] at interrupts
        generalize after : phase.stage = next at interrupts
        cases interrupts
        exact secure.settles i _ (by simp [settling, CallPhase.stage]) after
      · exact moved
  · next releasing =>
      split
      · exact moved
      · rw [releasing] at interrupts
        generalize after : phase.stage = next at interrupts
        cases interrupts
        exact (secure.reframe world.status _ world.requests id).releases i _
          (by simp [releasing, CallPhase.stage]) after
  · exact moved

/-- Every step that awaits the end of the execution keeps the invariant. -/
theorem executionStep_secure (world after : World) (action : ExecutionAction)
    (secure : world.Secure) (kept : action.awaitsEnd world = true)
    (steps : executionStep world action = some after) : after.Secure := by
  cases executionStep_takes steps with
  | start i callback idle =>
      have known : (world.calls i).phase.stage = .early := by simp [idle, CallPhase.stage]
      obtain ⟨-, ⟨unpending, unconfirmed⟩, -⟩ := secure.stage known
      exact secure.moves i _
        (secure.early i _ known ⟨unpending.symm, unconfirmed.symm⟩ (Or.inl rfl)) (by simp)
  | read i reading =>
      refine secure.moves i _ (secure.early i _ (by simp [reading, CallPhase.stage]) ⟨rfl, rfl⟩ ?_) ?_
      · dsimp only
        split <;> simp [CallPhase.stage]
      · dsimp only
        split <;> simp
  | decide i denied deciding =>
      refine secure.moves i _ (secure.early i _ (by simp [deciding, CallPhase.stage]) ⟨rfl, rfl⟩ ?_) ?_
      · dsimp only
        split <;> simp [CallPhase.stage]
      · dsimp only
        split <;> simp
  | refuse i grant leasing =>
      exact secure.moves i _ (secure.early i _ (by simp [leasing, CallPhase.stage]) ⟨rfl, rfl⟩
        (Or.inl rfl)) (by simp)
  | duplicate i grant leasing =>
      exact secure.moves i _ (secure.early i _ (by simp [leasing, CallPhase.stage]) ⟨rfl, rfl⟩
        (Or.inr (Or.inr rfl))) (by simp)
  | acquire i leasing =>
      exact (secure.reframe world.status (some i) world.requests id).moves i _
        (secure.early i _ (by simp [leasing, CallPhase.stage]) ⟨rfl, rfl⟩ (Or.inl rfl)) (by simp)
  | reserve i reserving =>
      exact secure.moves i _ (secure.early i _ (by simp [reserving, CallPhase.stage]) ⟨rfl, rfl⟩
        (Or.inl rfl)) (by simp)
  | exceed i grant reserving =>
      exact secure.moves i _ (secure.early i _ (by simp [reserving, CallPhase.stage]) ⟨rfl, rfl⟩
        (Or.inl rfl)) (by simp)
  | ensure i grant phase ensuring answers =>
      have known : (world.calls i).phase.stage = .early := by simp [ensuring, CallPhase.stage]
      rcases answers with rfl | rfl | rfl <;>
        exact secure.moves i _ (secure.early i _ known ⟨rfl, rfl⟩ (Or.inl rfl)) (by simp)
  | mark i marking =>
      refine secure.marks i _ (secure.early i _ (by simp [marking, CallPhase.stage]) ⟨rfl, rfl⟩ ?_)
      dsimp only
      split <;> simp [CallPhase.stage]
  | dispatch i dispatching =>
      obtain ⟨-, latches, untouched⟩ := secure.stage
        (show (world.calls i).phase.stage = .early by simp [dispatching, CallPhase.stage])
      refine secure.appends i (.dispatched i) world.status world.lease _
        (by simp [ExecutionEvent.owner]) ?_ (by simp [ExecutionEvent.frees]) ?_ (by simp)
      · exact ⟨List.mem_append_right _ (List.mem_singleton_self _), latches,
          untouched.append (by simp) (by simp)⟩
      · intro queued
        exact absurd queued (secure.marked i (Or.inr dispatching))
  | returns i result executing =>
      obtain ⟨-, latches, untouched⟩ := secure.stage
        (show (world.calls i).phase.stage = .running by simp [executing, CallPhase.stage])
      exact secure.emits i (.returned i) _ (by simp [ExecutionEvent.owner])
        ⟨resolved_append_end world.log (Or.inl rfl), latches, untouched.append (by simp) (by simp)⟩
        (by simp [ExecutionEvent.frees]) (by simp) (by simp)
  | fails i executing => simp [ExecutionAction.awaitsEnd] at kept
  | stops i accountingLoss executing =>
      obtain ⟨present, latches, untouched⟩ := secure.stage
        (show (world.calls i).phase.stage = .running by simp [executing, CallPhase.stage])
      refine secure.moves i _ ?_ (by dsimp only; split <;> simp)
      unfold Call.Secure
      dsimp only
      split <;> exact ⟨present, ⟨rfl, latches.2⟩, untouched⟩
  | finish i result finishing ends =>
      obtain ⟨ended, -, untouched⟩ := secure.stage
        (show (world.calls i).phase.stage = .returned by simp [finishing, CallPhase.stage])
      refine secure.terminates i result _ ?_ (World.Secure.ends ended untouched (Or.inl rfl)) (by simp)
      rintro rfl
      simp [CodeRunStatus.isActive] at ends
  | deny i admitted denying =>
      refine secure.terminates i .denied _ (by simp)
        (secure.early i _ (by simp [denying, CallPhase.stage]) ⟨rfl, rfl⟩ ?_) ?_
      · dsimp only
        split <;> simp [CallPhase.stage]
      · dsimp only
        split <;> simp
  | fail i failing =>
      exact secure.terminates i .failed _ (by simp)
        (secure.early i _ (by simp [failing, CallPhase.stage]) ⟨rfl, rfl⟩ (Or.inr (Or.inl rfl)))
        (by simp)
  | confirmRunning i deferred confirming runs =>
      exact secure.moves i _ (secure.waits i _ (Or.inl (by simp [confirming, CallPhase.stage]))
        ⟨rfl, rfl⟩ (Or.inl rfl)) (by simp)
  | confirmQueued i deferred confirming waits =>
      obtain ⟨present, -, -⟩ := secure.stage
        (show (world.calls i).phase.stage = .pending by simp [confirming, CallPhase.stage])
      exact absurd waits (secure.marked i (Or.inl present))
  | confirmEnded i deferred confirming inactive =>
      obtain ⟨-, -, untouched⟩ := secure.stage
        (show (world.calls i).phase.stage = .pending by simp [confirming, CallPhase.stage])
      have ended : resolved i world.log = true := by
        simpa [ExecutionAction.awaitsEnd, inactive, confirming] using kept
      refine secure.moves i _ (World.Secure.ends ended untouched ?_) ?_
      · dsimp only
        split <;> simp [CallPhase.stage]
      · dsimp only
        split <;> simp
  | stop i deferred stopping =>
      obtain ⟨present, latches, untouched⟩ := secure.stage
        (show (world.calls i).phase.stage = .pending by simp [stopping, CallPhase.stage])
      exact secure.emits i .killed _ (by simp [ExecutionEvent.owner])
        ⟨List.mem_append_left _ present, resolved_append_end world.log (Or.inr rfl), latches,
          untouched.append (by simp) (by simp)⟩
        (by simp [ExecutionEvent.frees]) (by simp) (by simp)
  | record i deferred recording =>
      obtain ⟨-, ended, -, untouched⟩ := secure.stage
        (show (world.calls i).phase.stage = .stopped by simp [recording, CallPhase.stage])
      refine secure.terminates i .killed _ (by simp) (World.Secure.ends ended untouched ?_) ?_
      · dsimp only
        split <;> simp [CallPhase.stage]
      · dsimp only
        split <;> simp
  | kill i killing =>
      obtain ⟨present, latches, untouched⟩ := secure.stage
        (show (world.calls i).phase.stage = .pending by simp [killing, CallPhase.stage])
      exact secure.emits i .killed _ (by simp [ExecutionEvent.owner])
        ⟨List.mem_append_left _ present, resolved_append_end world.log (Or.inr rfl), latches,
          untouched.append (by simp) (by simp)⟩
        (by simp [ExecutionEvent.frees]) (by simp) (by simp)
  | recordKill i recording =>
      obtain ⟨-, ended, -, untouched⟩ := secure.stage
        (show (world.calls i).phase.stage = .stopped by simp [recording, CallPhase.stage])
      exact secure.terminates i .killed _ (by simp)
        (World.Secure.ends ended untouched (Or.inl rfl)) (by simp)
  | retry i retrying =>
      exact secure.moves i _ (secure.waits i _ (Or.inl (by simp [retrying, CallPhase.stage]))
        ⟨rfl, rfl⟩ (Or.inl rfl)) (by simp)
  | cleanup i deferred =>
      exact secure.moves i _ (secure.waits i _ (Or.inl (by simp [deferred, CallPhase.stage]))
        ⟨rfl, rfl⟩ (Or.inl rfl)) (by simp)
  | close i closing =>
      obtain ⟨ended, untouched⟩ := secure.stage
        (show (world.calls i).phase.stage = .closing by simp [closing, CallPhase.stage])
      refine secure.moves i _ ?_ (by dsimp only; split <;> simp)
      split
      · next free =>
          exact World.Secure.ends (ended (by simpa using free)) untouched (Or.inr rfl)
      · exact untouched.atMostOnce
  | settle i shielded settling =>
      exact secure.settles i _ (by simp [settling, CallPhase.stage]) rfl
  | skip i shielded settling =>
      exact secure.moves i _
        (secure.skips i _ (Or.inl ⟨by simp [settling, CallPhase.stage], rfl⟩)) (by simp)
  | release i shielded releasing =>
      exact (secure.reframe world.status _ world.requests id).releases i _
        (by simp [releasing, CallPhase.stage]) rfl
  | released i shielded releasing =>
      exact secure.moves i _
        (secure.skips i _ (Or.inr ⟨by simp [releasing, CallPhase.stage], rfl⟩)) (by simp)
  | raise i phase raised =>
      exact secure.moves i _ (secure.interrupted i phase (CallPhase.afterRaise_interrupts raised))
        fun dispatching => absurd dispatching (CallPhase.afterRaise_kept raised).1
  | cancel i applied phase interrupted =>
      have interrupts := CallPhase.afterCancel_interrupts interrupted
      have undispatching := (CallPhase.afterCancel_kept interrupted).1
      cases applied with
      | true =>
          simp only [World.goto, World.applied_calls, if_true]
          exact secure.applied i phase interrupts undispatching
      | false =>
          exact secure.moves i _ (secure.interrupted i phase interrupts)
            fun dispatching => absurd dispatching undispatching
  | request u idle => exact secure.reframe world.status world.lease _ id
  | stopRequest u observed => exact (secure.reframe world.status world.lease _ id).kills
  | recordRequest u observed =>
      exact secure.reframe _ world.lease _ (markTerminal_queued (by simp))
  | loseLease => exact secure.reframe world.status none world.requests id

/-- When no runner call fails and the callback takes no terminal row for a kill, every admission is
settled and released at most once, and never before its dispatched execution has ended. -/
theorem admission_waits_for_the_end (actions : List ExecutionAction) (world : World)
    (runs : Runs executionStep (fun world action => action.awaitsEnd world = true)
      World.initial actions world) (i : Nat) :
    world.log.count (.settled i) ≤ 1 ∧ world.log.count (.released i) ≤ 1 ∧
      ∀ front event, front ++ [event] <+: world.log → event.frees i → resolved i front = true := by
  have secure := runs.invariant World.Secure
    (fun before action after secure kept steps =>
      executionStep_secure before after action secure kept steps)
    World.initial_secure
  obtain ⟨settled, released⟩ := (secure.calls i).atMostOnce
  exact ⟨settled, released, secure.safe i⟩

/-- The user stops a running answer, the first kill fails, and the deferred cleanup confirms it. -/
def deferredKill : List ExecutionAction :=
  [.start 0 true, .read 0] ++ dispatching 0 ++
    [.stops 0 false, .confirm 0, .raise 0, .cleanup 0, .confirm 0, .stop 0, .record 0, .settle 0,
      .release 0]

theorem admission_waits_for_the_end_deferredKill :
    ∃ world, Runs executionStep (fun world action => action.awaitsEnd world = true)
        World.initial deferredKill world ∧
      world.log = [.started 0, .dispatched 0, .killed, .ended 0 .running, .settled 0, .released 0] ∧
      world.log.count (.settled 0) ≤ 1 ∧ world.log.count (.released 0) ≤ 1 := by
  have executed : ((execute (guarded executionStep fun world action => action.awaitsEnd world)
      World.initial deferredKill).map World.log) =
      some [.started 0, .dispatched 0, .killed, .ended 0 .running, .settled 0, .released 0] := by decide
  obtain ⟨world, executes, log⟩ := Option.map_eq_some_iff.mp executed
  have runs := Runs.of_execute executes
  obtain ⟨settled, released, -⟩ := admission_waits_for_the_end deferredKill world runs 0
  exact ⟨world, runs, log, settled, released⟩

/-- The connection to the runner is lost after the dispatch. -/
def lostConnection : List ExecutionAction :=
  [.start 0 true, .read 0] ++ dispatching 0 ++ [.fails 0, .fail 0, .close 0, .settle 0, .release 0]

/-- The reservation is refunded and the lease released although the execution may still run. -/
theorem lostConnection_frees_the_admission :
    ∃ world, execute executionStep World.initial lostConnection = some world ∧
      ∃ front event, front ++ [event] <+: world.log ∧ event.frees 0 ∧ resolved 0 front = false := by
  have executed : ((execute executionStep World.initial lostConnection).map World.log) =
      some [.started 0, .dispatched 0, .ended 0 .running, .settled 0, .released 0] := by decide
  obtain ⟨world, executes, log⟩ := Option.map_eq_some_iff.mp executed
  refine ⟨world, executes, [.started 0, .dispatched 0, .ended 0 .running], .settled 0, ?_, Or.inl rfl,
    by decide⟩
  rw [log]
  exact ⟨[.released 0], rfl⟩

end LumenCopilot.Sandbox
