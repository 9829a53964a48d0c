import LumenCopilot.Proof.Tools.Calls

namespace LumenCopilot.Tools

open Python Library

variable {config : Config} {call : ToolCall} {trace : Trace}

/-- These are the committed `tool.invoked` events with their identities. -/
def invokedEvents (trace : Trace) : List (Nat × ToolEvent) :=
  trace.filterMap fun
    | ⟨.intent event, .ok id⟩ => some (id, event)
    | ⟨.emit event, .ok id⟩ => if event.action = .invoked then some (id, event) else none
    | _ => none

/-- These are the committed `tool.result` events. -/
def resultEvents (trace : Trace) : List ToolEvent :=
  trace.filterMap fun
    | ⟨.emit event, .ok _⟩ => if event.action = .result then some event else none
    | _ => none

/-- These are the arguments that were handed to a handler, in a task or not. -/
def received (trace : Trace) : List Json :=
  trace.filterMap fun
    | ⟨.starts _ arguments, _⟩ => some arguments
    | ⟨.join _ _ _ _, .ok joined⟩ => some joined.arguments
    | _ => none

/-- This is the end of an await by `CancelledError`. -/
def isCancelled {α : Type} : Except Interrupt α → Bool
  | .error .cancelled => true
  | _ => false

/-- This await of the execution was cancelled. -/
def interrupts : Event Ask Ask.Answer → Bool
  | ⟨.openScope, answer⟩ => isCancelled answer
  | ⟨.closeScope, answer⟩ => isCancelled answer
  | ⟨.finishes, finish⟩ => isCancelled finish.outcome
  | ⟨.join _ _ _ _, answer⟩ => isCancelled answer
  | ⟨.shielded _, answer⟩ => isCancelled answer
  | ⟨.forget _ _, answer⟩ => isCancelled answer
  | _ => false

/-- The drain has advanced past the call. -/
def advances : Event Ask Ask.Answer → Bool
  | ⟨.advance, _⟩ => true
  | _ => false

/-- This write was refused. -/
def refuses : Event Ask Ask.Answer → Bool
  | ⟨.intent _, .error _⟩ => true
  | ⟨.emit _, .error _⟩ => true
  | ⟨.record _, .error _⟩ => true
  | _ => false

/-- The call is settled: it had its turn to persist and its writes succeeded. -/
def Settled (trace : Trace) : Prop := trace.any advances = true ∧ trace.any refuses = false

/-- These are the records of the gate that the runner accepts for the definition. -/
def grants (definition : ToolDefinition) (trace : Trace) : List ApprovalRecord :=
  trace.filterMap fun
    | ⟨.gate request, .ok answer⟩ =>
        let approval := checkedApproval definition request.argumentsHash answer.asDecision
        if approval.approved then approval.approval else none
    | _ => none

/-- These are the arguments of the shared tasks that the call joined. -/
def joinedArguments (trace : Trace) : List Json :=
  trace.filterMap fun
    | ⟨.join _ _ _ _, .ok joined⟩ => some joined.arguments
    | _ => none

/-- Nothing of the ledger has changed. -/
structure Quiet (trace later : Trace) : Prop where
  invoked : invokedEvents later = invokedEvents trace
  results : resultEvents later = resultEvents trace
  advanced : later.any advances = trace.any advances
  refused : later.any refuses = trace.any refuses
  granted : ∀ definition, grants definition later = grants definition trace

theorem Quiet.refl (trace : Trace) : Quiet trace trace := ⟨rfl, rfl, rfl, rfl, fun _ => rfl⟩

variable {middle later : Trace}

theorem Quiet.trans (first : Quiet trace middle) (second : Quiet middle later) :
    Quiet trace later where
  invoked := second.invoked.trans first.invoked
  results := second.results.trans first.results
  advanced := second.advanced.trans first.advanced
  refused := second.refused.trans first.refused
  granted definition := (second.granted definition).trans (first.granted definition)

/-- A part of the execution writes nothing, forgets no interruption and hands over the arguments of
the call or of a shared task. -/
structure Carried (arguments : Json) (trace later : Trace) : Prop where
  quiet : Quiet trace later
  kept : trace.any interrupts = true → later.any interrupts = true
  joined : ∀ other ∈ joinedArguments trace, other ∈ joinedArguments later
  received : ∀ other ∈ received later,
    other ∈ received trace ∨ other = arguments ∨ other ∈ joinedArguments later

/-- A part of the execution tells an interruption from an end. -/
structure Steady {α : Type} (arguments : Json) (trace : Trace) (result : Except Interrupt α)
    (later : Trace) : Prop where
  carried : Carried arguments trace later
  finished : ∀ value, result = .ok value → later.any interrupts = trace.any interrupts
  cancelled : result = .error .cancelled → later.any interrupts = true

/-- Every question is permitted. -/
abbrev free : Contract Ask Ask.Answer Trace := tracing fun _ _ => True

/-- The program is a part of the execution from every trace. -/
def IsSteady {α : Type} (arguments : Json) (program : Op α) : Prop :=
  ∀ trace, program.Meets free (Steady arguments trace) trace

variable {arguments : Json} {α β : Type}

theorem Carried.refl (trace : Trace) : Carried arguments trace trace :=
  ⟨.refl trace, id, fun _ => id, fun _ => .inl⟩

theorem Carried.trans (first : Carried arguments trace middle)
    (second : Carried arguments middle later) : Carried arguments trace later where
  quiet := first.quiet.trans second.quiet
  kept interrupted := second.kept (first.kept interrupted)
  joined other member := second.joined other (first.joined other member)
  received other member := by
    rcases second.received other member with member | same | member
    · rcases first.received other member with member | same | member
      · exact .inl member
      · exact .inr (.inl same)
      · exact .inr (.inr (second.joined other member))
    · exact .inr (.inl same)
    · exact .inr (.inr member)

theorem isSteady_returns (value : α) : IsSteady arguments (.returns value) :=
  fun trace => ⟨.refl trace, fun _ _ => rfl, nofun⟩

variable {program : Op α}

theorem IsSteady.bind {next : α → Op β} (first : IsSteady arguments program)
    (second : ∀ value, IsSteady arguments (next value)) :
    IsSteady arguments (program >>= next) := by
  intro trace
  refine (first trace).then (fun error later steady => ?_) fun value middle steady => ?_
  · exact ⟨steady.carried, nofun, fun same => steady.cancelled (by simpa using same)⟩
  · refine (second value middle).mono fun result later last => ?_
    exact ⟨steady.carried.trans last.carried,
      fun value' same => (last.finished value' same).trans (steady.finished value rfl),
      last.cancelled⟩

/-- A part that runs whether or not the execution was interrupted hands its end on. -/
theorem IsSteady.finally {next : Op β} (first : IsSteady arguments program)
    (second : IsSteady arguments next) :
    IsSteady arguments (do
      let result ← program.attempt
      let _ ← next
      Program.ofExcept result) := by
  intro trace
  rw [meets_bind, meets_attempt]
  refine (first trace).mono fun result middle steady => ?_
  refine (second middle).then (fun error later last => ?_) fun value later last => ?_
  · exact ⟨steady.carried.trans last.carried, nofun,
      fun same => last.cancelled (by simpa using same)⟩
  · rw [meets_ofExcept]
    exact ⟨steady.carried.trans last.carried,
      fun value' same => (last.finished value rfl).trans (steady.finished value' same),
      fun same => last.carried.kept (steady.cancelled same)⟩

/-- One event of the execution is carried. -/
theorem carried_event (event : Event Ask Ask.Answer) (quiet : Quiet trace (trace ++ [event]))
    (handed : ∀ other ∈ received [event], other = arguments ∨ other ∈ joinedArguments [event]) :
    Carried arguments trace (trace ++ [event]) where
  quiet := quiet
  kept interrupted := by simp [interrupted]
  joined other member := by
    unfold joinedArguments at member ⊢
    rw [List.filterMap_append]
    exact List.mem_append_left _ member
  received other member := by
    have split : received (trace ++ [event]) = received trace ++ received [event] :=
      List.filterMap_append
    have joinedSplit : joinedArguments (trace ++ [event]) =
        joinedArguments trace ++ joinedArguments [event] := List.filterMap_append
    rw [split] at member
    rw [joinedSplit]
    rcases List.mem_append.mp member with member | member
    · exact .inl member
    · exact .inr ((handed other member).imp_right (List.mem_append_right _))

theorem quiet_event (event : Event Ask Ask.Answer) (invoked : invokedEvents [event] = [])
    (results : resultEvents [event] = []) (advanced : advances event = false)
    (refused : refuses event = false) (granted : ∀ definition, grants definition [event] = []) :
    Quiet trace (trace ++ [event]) where
  invoked := by
    have split : invokedEvents (trace ++ [event]) = _ := List.filterMap_append
    rw [split, ← invokedEvents, ← invokedEvents, invoked, List.append_nil]
  results := by
    have split : resultEvents (trace ++ [event]) = _ := List.filterMap_append
    rw [split, ← resultEvents, ← resultEvents, results, List.append_nil]
  advanced := by simp [advanced]
  refused := by simp [refused]
  granted definition := by
    have split : grants definition (trace ++ [event]) = _ := List.filterMap_append
    rw [split, ← grants, ← grants, granted, List.append_nil]

/-- An await of the execution raises just when it is interrupted. -/
theorem isSteady_await (question : Ask) (convert : question.Answer → Except Interrupt α)
    (quiet : ∀ trace answer, Quiet trace (trace ++ [⟨question, answer⟩]))
    (handed : ∀ answer, ∀ other ∈ received [⟨question, answer⟩],
      other = arguments ∨ other ∈ joinedArguments [⟨question, answer⟩])
    (raised : ∀ answer, interrupts ⟨question, answer⟩ = isCancelled (convert answer)) :
    IsSteady arguments (.asks question fun answer => Program.ofExcept (convert answer)) := by
  intro trace
  refine ⟨trivial, fun answer later moved => ?_⟩
  obtain rfl := moved
  rw [meets_ofExcept]
  refine ⟨carried_event _ (quiet trace answer) (handed answer), fun value same => ?_, fun same => ?_⟩
  · simp [raised, same, isCancelled]
  · simp [raised, same, isCancelled]

/-- An access to the state of the runner ends with its answer. -/
theorem isSteady_ask (question : Ask)
    (quiet : ∀ trace answer, Quiet trace (trace ++ [⟨question, answer⟩]))
    (handed : ∀ answer, ∀ other ∈ received [⟨question, answer⟩],
      other = arguments ∨ other ∈ joinedArguments [⟨question, answer⟩])
    (silent : ∀ answer, interrupts ⟨question, answer⟩ = false) :
    IsSteady arguments (ask question) :=
  isSteady_await question .ok quiet handed silent

theorem isSteady_openScope : IsSteady arguments openScope :=
  isSteady_await .openScope id (fun _ _ => quiet_event _ rfl rfl rfl rfl fun _ => rfl)
    (fun _ => nofun) fun _ => rfl

theorem isSteady_closeScope : IsSteady arguments closeScope :=
  isSteady_await .closeScope id (fun _ _ => quiet_event _ rfl rfl rfl rfl fun _ => rfl)
    (fun _ => nofun) fun _ => rfl

theorem isSteady_shielded (execution : Nat) : IsSteady arguments (shielded execution) :=
  isSteady_await (.shielded execution) id (fun _ _ => quiet_event _ rfl rfl rfl rfl fun _ => rfl)
    (fun _ => nofun) fun _ => rfl

theorem isSteady_forget (key : Text) (execution : Nat) :
    IsSteady arguments (forget key execution) :=
  isSteady_await (.forget key execution) id
    (fun _ _ => quiet_event _ rfl rfl rfl rfl fun _ => rfl) (fun _ => nofun) fun _ => rfl

theorem isSteady_join (key : Text) (definition : ToolDefinition) (stripped : Json) (callId : Text) :
    IsSteady arguments (join key definition stripped callId) := by
  refine isSteady_await (.join key definition stripped callId) id
    (fun _ _ => quiet_event _ rfl rfl rfl rfl fun _ => rfl) (fun answer other member => ?_)
    fun _ => rfl
  cases answer with
  | error error => simp [received] at member
  | ok joined => exact .inr member

theorem isSteady_execute (definition : ToolDefinition) :
    IsSteady arguments (execute definition arguments) := by
  have starts : IsSteady arguments (ask (.starts definition arguments)) := by
    refine isSteady_ask _ (fun _ _ => quiet_event _ rfl rfl rfl rfl fun _ => rfl) ?_ fun _ => rfl
    intro answer other member
    exact .inl (List.mem_singleton.mp member)
  have finishes : IsSteady arguments (.asks .finishes fun finish => .ofExcept finish.outcome) :=
    isSteady_await .finishes HandlerEnd.outcome
      (fun _ _ => quiet_event _ rfl rfl rfl rfl fun _ => rfl) (fun _ => nofun) fun _ => rfl
  exact starts.bind fun _ => finishes

/-- The cancellation of the task by its last waiter does not interrupt the call. -/
theorem isSteady_reapQuietly (execution : Nat) : IsSteady arguments (reapQuietly execution) := by
  intro trace
  refine ⟨trivial, fun answer later moved => ?_⟩
  obtain rfl := moved
  have carried : Carried arguments trace (trace ++ [⟨.reap execution, answer⟩]) :=
    carried_event _ (quiet_event _ rfl rfl rfl rfl fun _ => rfl) nofun
  have silent : (trace ++ [(⟨.reap execution, answer⟩ : Event Ask Ask.Answer)]).any interrupts =
      trace.any interrupts := by simp [interrupts]
  match answer with
  | .ok () => exact ⟨carried, fun _ _ => silent, nofun⟩
  | .error .cancelled => exact ⟨carried, fun _ _ => silent, nofun⟩
  | .error .pending => exact ⟨carried, nofun, nofun⟩
  | .error .failed => exact ⟨carried, nofun, nofun⟩

theorem isSteady_leaveExecution (key : Text) (execution : Nat) :
    IsSteady arguments (leaveExecution key execution) := by
  have leaves : IsSteady arguments (ask (.leave execution)) :=
    isSteady_ask _ (fun _ _ => quiet_event _ rfl rfl rfl rfl fun _ => rfl) (fun _ => nofun)
      fun _ => rfl
  refine leaves.bind fun last => ?_
  cases last with
  | false => exact isSteady_forget key execution
  | true => exact (isSteady_reapQuietly execution).bind fun _ => isSteady_forget key execution

theorem isSteady_executeShared (definition : ToolDefinition) (normal : ToolCall) :
    IsSteady normal.arguments (executeShared config definition normal) := by
  unfold executeShared
  split
  · refine (isSteady_join _ _ _ _).bind fun joined => ?_
    have shared := (@isSteady_shielded normal.arguments joined.execution).finally
      (isSteady_leaveExecution (config.shareKey (stripQuery normal.arguments)) joined.execution)
    have named := shared.bind fun result : ToolResult => isSteady_returns
      { result with
        summary := if joined.origin = normal.id then result.summary
          else "Reused identical web search: ".toList ++ result.summary }
    simp only [Program.bind_assoc] at named
    exact named
  · exact isSteady_execute definition

theorem isSteady_inScope {body : Op ToolResult} (isolated : Bool) (steady : IsSteady arguments body) :
    IsSteady arguments (inScope isolated body) := by
  unfold inScope
  split
  · exact isSteady_openScope.bind fun _ => steady.finally isSteady_closeScope
  · exact steady

/-- The call is finalised from the trace: nothing else has happened, and a settled call has written
what its finalisation says. -/
structure Finalised (final : Finalisation) (trace later : Trace) : Prop where
  received : received later = received trace
  joined : joinedArguments later = joinedArguments trace
  interrupted : later.any interrupts = trace.any interrupts
  granted : ∀ definition, grants definition later = grants definition trace
  written : Settled later → ∃ (origin : Option Text) (id : Nat),
    invokedEvents later = invokedEvents trace ++
      (if final.invokedEventId.isNone then [(id, final.event .invoked origin)] else []) ∧
    resultEvents later = resultEvents trace ++ [final.event .result origin] ∧
    trace.any refuses = false

variable {final : Finalisation}

/-- The events of a finalisation are those of its writes. -/
theorem finalised_append {events : Trace} (fresh : trace.any advances = false)
    (receives : received events = []) (joins : joinedArguments events = [])
    (interrupted : events.any interrupts = false)
    (granted : ∀ definition, grants definition events = [])
    (written : events.any advances = true → events.any refuses = false →
      ∃ (origin : Option Text) (id : Nat),
        invokedEvents events =
          (if final.invokedEventId.isNone then [(id, final.event .invoked origin)] else []) ∧
        resultEvents events = [final.event .result origin]) :
    Finalised final trace (trace ++ events) where
  received := by
    have split : received (trace ++ events) = received trace ++ received events :=
      List.filterMap_append
    rw [split, receives, List.append_nil]
  joined := by
    have split : joinedArguments (trace ++ events) =
        joinedArguments trace ++ joinedArguments events := List.filterMap_append
    rw [split, joins, List.append_nil]
  interrupted := by rw [List.any_append, interrupted, Bool.or_false]
  granted definition := by
    have split : grants definition (trace ++ events) =
        grants definition trace ++ grants definition events := List.filterMap_append
    rw [split, granted, List.append_nil]
  written settled := by
    have invokedSplit : invokedEvents (trace ++ events) =
        invokedEvents trace ++ invokedEvents events := List.filterMap_append
    have resultSplit : resultEvents (trace ++ events) =
        resultEvents trace ++ resultEvents events := List.filterMap_append
    obtain ⟨advanced, accepted⟩ := settled
    rw [List.any_append, fresh, Bool.false_or] at advanced
    rw [List.any_append, Bool.or_eq_false_iff] at accepted
    obtain ⟨origin, id, invoked, result⟩ := written advanced accepted.2
    exact ⟨origin, id, by rw [invokedSplit, invoked], by rw [resultSplit, result], accepted.1⟩

theorem finalised_refused {events : Trace} (fresh : trace.any advances = false)
    (receives : received events = []) (joins : joinedArguments events = [])
    (interrupted : events.any interrupts = false)
    (granted : ∀ definition, grants definition events = []) (refused : events.any refuses = true) :
    Finalised final trace (trace ++ events) :=
  finalised_append fresh receives joins interrupted granted fun _ accepted =>
    absurd (refused.symm.trans accepted) (by simp)

theorem finalise_finalised (final : Finalisation) (fresh : trace.any advances = false) :
    (finalise final).Meets free (fun _ later => Finalised final trace later) trace := by
  unfold finalise Finalisation.writes
  cases known : final.invokedEventId with
  | none =>
      simp only [ask, turn, Option.isNone_none, ↓reduceIte, emit, record, meets_bind, meets_pure,
        meets_ofExcept, meets_asks, tracing_permits, tracing_moves, meets_returns, forall_eq, true_and,
        meets_attempt, List.append_assoc, List.cons_append, List.nil_append]
      intro origin turned
      cases turned with
      | error error => exact finalised_append fresh rfl rfl rfl (fun _ => rfl) (by simp [advances])
      | ok _ =>
          intro invoked
          cases invoked with
          | error error =>
              intro _
              exact finalised_refused fresh rfl rfl rfl (fun _ => rfl) rfl
          | ok id =>
              intro result
              cases result with
              | error error =>
                  intro _
                  exact finalised_refused fresh rfl rfl rfl (fun _ => rfl) rfl
              | ok _ =>
                  intro recorded _
                  cases recorded with
                  | error error => exact finalised_refused fresh rfl rfl rfl (fun _ => rfl) rfl
                  | ok _ =>
                      refine finalised_append fresh rfl rfl rfl (fun _ => rfl) fun _ _ => ?_
                      exact ⟨origin, id, by rw [known]; rfl, rfl⟩
  | some id =>
      simp only [ask, turn, Option.isNone_some, Bool.false_eq_true, ↓reduceIte, emit, record,
        meets_bind, meets_pure, meets_ofExcept, meets_asks, tracing_permits, tracing_moves,
        meets_returns, forall_eq, true_and, meets_attempt, List.append_assoc, List.cons_append,
        List.nil_append]
      intro origin turned
      cases turned with
      | error error => exact finalised_append fresh rfl rfl rfl (fun _ => rfl) (by simp [advances])
      | ok _ =>
          intro result
          cases result with
          | error error =>
              intro _
              exact finalised_refused fresh rfl rfl rfl (fun _ => rfl) rfl
          | ok _ =>
              intro recorded _
              cases recorded with
              | error error => exact finalised_refused fresh rfl rfl rfl (fun _ => rfl) rfl
              | ok _ =>
                  refine finalised_append fresh rfl rfl rfl (fun _ => rfl) fun _ _ => ?_
                  exact ⟨origin, 0, by rw [known]; rfl, rfl⟩

/-- One `tool.invoked` and one `tool.result` are committed for the ordinal, both with the hash of
what the handler received; those of an approved call refer to its approval-bearing intent. -/
def AuditPair (config : Config) (call : ToolCall) (ordinal : Nat) (trace : Trace) : Prop :=
  ∃ (id : Nat) (invoked result : ToolEvent),
    invokedEvents trace = [(id, invoked)] ∧ resultEvents trace = [result] ∧
    invoked.ordinal = ordinal ∧ result.ordinal = ordinal ∧
    (∀ arguments ∈ received trace,
      invoked.argsHash = hashArgs arguments ∧ result.argsHash = hashArgs arguments) ∧
    ∀ definition record, config.resolve call.name = some definition →
      record ∈ grants definition trace →
      invoked.approval = some record.metadata ∧ result.invokedEventId = some id

/-- No approved execution was interrupted, and the shared task that was joined runs on arguments
with the hash of the normalised ones. -/
def Regular (config : Config) (call : ToolCall) (trace : Trace) : Prop :=
  ∀ definition, config.resolve call.name = some definition →
    (∀ record ∈ grants definition trace, trace.any interrupts = false) ∧
    ∀ arguments ∈ joinedArguments trace, hashArgs arguments =
      hashArgs (config.legacyArguments call.arguments definition.jsonSchema definition.readOnly)

/-- A settled call has its audit pair just when it is regular. -/
def Audited (config : Config) (call : ToolCall) (ordinal : Nat) (trace : Trace) : Prop :=
  Settled trace → (AuditPair config call ordinal trace ↔ Regular config call trace)

theorem joined_received {other : Json} (member : other ∈ joinedArguments trace) :
    other ∈ received trace := by
  unfold joinedArguments at member
  obtain ⟨event, occurs, taken⟩ := List.mem_filterMap.mp member
  refine List.mem_filterMap.mpr ⟨event, occurs, ?_⟩
  split at taken
  · exact taken
  · contradiction

/-- A call that was refused before any handler has its audit pair. -/
theorem denied_audited {ordinal : Nat} (named : final.ordinal = ordinal)
    (plain : final.invokedEventId = none) (invoked : invokedEvents trace = [])
    (results : resultEvents trace = []) (receives : received trace = [])
    (joins : joinedArguments trace = []) (fresh : trace.any advances = false)
    (granted : ∀ definition, config.resolve call.name = some definition →
      grants definition trace = []) :
    (finalise final).Meets free (fun _ later => Audited config call ordinal later) trace := by
  refine (finalise_finalised final fresh).mono fun _ later finalised settled => ?_
  obtain ⟨origin, id, written, result, _⟩ := finalised.written settled
  rw [invoked, plain] at written
  rw [results] at result
  constructor
  · intro _ definition resolved
    rw [finalised.granted, granted definition resolved, finalised.joined, joins]
    exact ⟨nofun, nofun⟩
  · intro _
    refine ⟨id, _, _, written, result, named, named, ?_, ?_⟩
    · rw [finalised.received, receives]
      nofun
    · intro definition record resolved member
      rw [finalised.granted, granted definition resolved] at member
      contradiction

/-- Nothing of the execution is in the trace yet. -/
structure Unexecuted (trace : Trace) : Prop where
  fresh : trace.any advances = false
  results : resultEvents trace = []
  receives : received trace = []
  joins : joinedArguments trace = []
  calm : trace.any interrupts = false

/-- The hashes of both events agree with what was received just when the shared task agrees. -/
theorem hashes_iff (unexecuted : Unexecuted trace) (carried : Carried arguments trace middle) :
    (∀ other ∈ received middle, hashArgs arguments = hashArgs other) ↔
      ∀ other ∈ joinedArguments middle, hashArgs other = hashArgs arguments := by
  constructor
  · intro agree other member
    exact (agree other (joined_received member)).symm
  · intro agree other member
    rcases carried.received other member with member | rfl | member
    · rw [unexecuted.receives] at member
      contradiction
    · rfl
    · exact (agree other member).symm

theorem Carried.not_settled (unexecuted : Unexecuted trace)
    (carried : Carried arguments trace middle) : ¬ Settled middle := by
  intro settled
  have advanced := settled.1
  rw [carried.quiet.advanced, unexecuted.fresh] at advanced
  contradiction

section

variable {definition : ToolDefinition} {normal : ToolCall} (ordinal : Nat) (isolated : Bool)
  (resolved : config.resolve call.name = some definition)
  (normalised : normal.arguments =
    config.legacyArguments call.arguments definition.jsonSchema definition.readOnly)
  (unexecuted : Unexecuted trace)
include resolved normalised unexecuted

/-- The execution of a call without an approval. -/
theorem executed_audited_plain (invoked : invokedEvents trace = [])
    (granted : grants definition trace = []) :
    (executed config definition normal (hashArgs normal.arguments) ordinal isolated none none).Meets
      free (fun _ later => Audited config call ordinal later) trace := by
  have finalised_audited (final : Finalisation) (middle : Trace)
      (carried : Carried normal.arguments trace middle) (named : final.ordinal = ordinal)
      (plain : final.invokedEventId = none) (hashed : final.argsHash = hashArgs normal.arguments) :
      (finalise final).Meets free (fun _ later => Audited config call ordinal later) middle := by
    have fresh : middle.any advances = false := carried.quiet.advanced.trans unexecuted.fresh
    refine (finalise_finalised final fresh).mono fun _ later finalised settled => ?_
    obtain ⟨origin, id, written, result, _⟩ := finalised.written settled
    rw [carried.quiet.invoked, invoked, plain] at written
    rw [carried.quiet.results, unexecuted.results] at result
    have none (other : ToolDefinition) (same : config.resolve call.name = some other) :
        grants other later = [] := by
      rw [resolved] at same
      obtain rfl := Option.some.inj same
      rw [finalised.granted, carried.quiet.granted, granted]
    constructor
    · rintro ⟨id', event, event', known, known', _, _, hashes, _⟩ other same
      rw [none other same]
      refine ⟨nofun, ?_⟩
      rw [resolved] at same
      obtain rfl := Option.some.inj same
      rw [← normalised, finalised.joined]
      refine (hashes_iff unexecuted carried).mp fun received member => ?_
      rw [written] at known
      obtain ⟨rfl, rfl⟩ := Prod.mk.inj (List.singleton_inj.mp known)
      rw [finalised.received] at hashes
      exact hashed.symm.trans (hashes received member).1
    · intro regular
      have agree := (regular definition resolved).2
      rw [← normalised, finalised.joined] at agree
      refine ⟨id, _, _, written, result, named, named, fun received member => ?_, ?_⟩
      · rw [finalised.received] at member
        have same := (hashes_iff unexecuted carried).mpr agree received member
        exact ⟨hashed.trans same, hashed.trans same⟩
      · intro other record same member
        rw [none other same] at member
        contradiction
  unfold executed
  rw [meets_bind, meets_attempt]
  refine (isSteady_inScope isolated (isSteady_executeShared definition normal) trace).mono
    fun result middle steady => ?_
  match result with
  | .ok result => exact finalised_audited _ middle steady.carried rfl rfl rfl
  | .error .cancelled =>
      exact (finalised_audited _ middle steady.carried rfl rfl rfl).then
        (fun _ _ audited => audited) fun _ _ audited => audited
  | .error .pending =>
      exact fun settled => (steady.carried.not_settled unexecuted settled).elim
  | .error .failed =>
      exact fun settled => (steady.carried.not_settled unexecuted settled).elim

/-- The execution of a call with a committed approval. -/
theorem executed_audited_granted {record : ApprovalRecord} {intent : Nat} {event : ToolEvent}
    (invoked : invokedEvents trace = [(intent, event)]) (named : event.ordinal = ordinal)
    (hashed : event.argsHash = hashArgs normal.arguments)
    (bearing : event.approval = some record.metadata) (granted : grants definition trace = [record])
    :
    (executed config definition normal (hashArgs normal.arguments) ordinal isolated (some record)
      (some intent)).Meets free (fun _ later => Audited config call ordinal later) trace := by
  unfold executed
  rw [meets_bind, meets_attempt]
  refine (isSteady_inScope isolated (isSteady_executeShared definition normal) trace).mono
    fun result middle steady => ?_
  have carried := steady.carried
  have fresh : middle.any advances = false := carried.quiet.advanced.trans unexecuted.fresh
  match result with
  | .ok result =>
      refine (finalise_finalised _ fresh).mono fun _ later finalised settled => ?_
      obtain ⟨origin, id, written, wrote, _⟩ := finalised.written settled
      rw [carried.quiet.invoked, invoked] at written
      rw [carried.quiet.results, unexecuted.results] at wrote
      have calm : later.any interrupts = false :=
        (finalised.interrupted.trans (steady.finished result rfl)).trans unexecuted.calm
      constructor
      · rintro ⟨id', event', result', known, known', _, _, hashes, _⟩ other same
        refine ⟨fun _ _ => calm, ?_⟩
        rw [resolved] at same
        obtain rfl := Option.some.inj same
        rw [← normalised, finalised.joined]
        refine (hashes_iff unexecuted carried).mp fun received member => ?_
        rw [wrote] at known'
        obtain rfl := List.singleton_inj.mp known'
        rw [finalised.received] at hashes
        exact (hashes received member).2
      · intro regular
        have agree := (regular definition resolved).2
        rw [← normalised, finalised.joined] at agree
        refine ⟨intent, event, _, written, wrote, named, rfl, fun received member => ?_, ?_⟩
        · rw [finalised.received] at member
          have same := (hashes_iff unexecuted carried).mpr agree received member
          exact ⟨hashed.trans same, same⟩
        · intro other record' same member
          rw [resolved] at same
          obtain rfl := Option.some.inj same
          rw [finalised.granted, carried.quiet.granted, granted] at member
          obtain rfl := List.mem_singleton.mp member
          exact ⟨bearing, rfl⟩
  | .error .cancelled =>
      apply Program.Meets.then ((finalise_finalised _ fresh).mono fun _ later finalised => ?_)
        (fun _ _ audited => audited) fun _ _ audited => audited
      intro settled
      obtain ⟨origin, id, written, _⟩ := finalised.written settled
      rw [carried.quiet.invoked, invoked] at written
      constructor
      · rintro ⟨id', event', result', known, _⟩
        rw [written] at known
        simp at known
      · intro regular
        have calm := (regular definition resolved).1 record
        rw [finalised.granted, carried.quiet.granted, granted] at calm
        have interrupted := finalised.interrupted.trans (steady.cancelled rfl)
        rw [calm List.mem_cons_self] at interrupted
        contradiction
  | .error .pending =>
      exact fun settled => (carried.not_settled unexecuted settled).elim
  | .error .failed =>
      exact fun settled => (carried.not_settled unexecuted settled).elim

end

/-- The call ends before any event of the execution. -/
theorem unsettled_audited (fresh : trace.any advances = false) {ordinal : Nat} :
    Audited config call ordinal trace := by
  intro settled
  have advanced := settled.1
  rw [fresh] at advanced
  contradiction

section

variable {definition : ToolDefinition} {normal : ToolCall} (ordinal : Nat) (isolated : Bool)
  (resolved : config.resolve call.name = some definition)
  (normalised : normal.arguments =
    config.legacyArguments call.arguments definition.jsonSchema definition.readOnly)
include resolved normalised

theorem dispatched_audited (unexecuted : Unexecuted trace) (invoked : invokedEvents trace = [])
    (approval : Option ApprovalRecord) (granted : grants definition trace = approval.toList) :
    (dispatched config definition normal (hashArgs normal.arguments) ordinal isolated
      approval).Meets free (fun _ later => Audited config call ordinal later) trace := by
  cases approval with
  | none =>
      exact executed_audited_plain ordinal isolated resolved normalised unexecuted invoked granted
  | some record =>
      refine ⟨trivial, fun answer later moved => ?_⟩
      obtain rfl := moved
      cases answer with
      | error error => exact unsettled_audited (by simp [unexecuted.fresh, advances])
      | ok id =>
          let event := intentEvent normal (hashArgs normal.arguments) ordinal record
          have split : invokedEvents (trace ++ [⟨.intent event, .ok id⟩]) =
              invokedEvents trace ++ [(id, event)] := List.filterMap_append
          have grantSplit : grants definition (trace ++ [⟨.intent event, .ok id⟩]) =
              grants definition trace ++ [] := List.filterMap_append
          rw [invoked, List.nil_append] at split
          rw [granted, List.append_nil] at grantSplit
          have later : Unexecuted (trace ++ [⟨.intent event, .ok id⟩]) := {
            fresh := by simp [unexecuted.fresh, advances]
            results := (List.filterMap_append).trans (by rw [← resultEvents, unexecuted.results]; rfl)
            receives := (List.filterMap_append).trans (by rw [← received, unexecuted.receives]; rfl)
            joins := (List.filterMap_append).trans
              (by rw [← joinedArguments, unexecuted.joins]; rfl)
            calm := by simp [unexecuted.calm, interrupts] }
          exact executed_audited_granted ordinal isolated resolved normalised later split rfl rfl rfl
            grantSplit

theorem approvedCall_audited :
    (approvedCall config definition normal (hashArgs normal.arguments) ordinal isolated).Meets free
      (fun _ later => Audited config call ordinal later) [] := by
  unfold approvedCall
  split
  · refine ⟨trivial, fun answer later moved => ?_⟩
    obtain rfl := moved
    cases answer with
    | error error => exact unsettled_audited rfl
    | ok answer =>
        show Program.Meets _ (ite _ _ _) _ _
        split
        · next approved =>
            refine dispatched_audited ordinal isolated resolved normalised ⟨rfl, rfl, rfl, rfl, rfl⟩
              rfl _ ?_
            simp only [grants, List.nil_append, List.filterMap_cons, List.filterMap_nil, if_pos approved]
            cases (checkedApproval definition (hashArgs normal.arguments) answer.asDecision).approval <;>
              rfl
        · next refused =>
            refine denied_audited rfl rfl rfl rfl rfl rfl rfl fun other same => ?_
            rw [resolved] at same
            obtain rfl := Option.some.inj same
            simp [grants, refused]
  · exact dispatched_audited ordinal isolated resolved normalised ⟨rfl, rfl, rfl, rfl, rfl⟩ rfl none
      rfl

end

/-- The whole path of a call leaves its audit pair as stated. -/
theorem runGoverned_audited (call : ToolCall) (ordinal : Nat) (isolated : Bool) :
    (runGoverned config call ordinal isolated).Meets free
      (fun _ later => Audited config call ordinal later) [] := by
  have denied (final : Finalisation) (named : final.ordinal = ordinal)
      (plain : final.invokedEventId = none) : (finalise final).Meets free
      (fun _ later => Audited config call ordinal later) [] :=
    denied_audited named plain rfl rfl rfl rfl rfl fun _ _ => rfl
  unfold runGoverned
  split
  · exact denied _ rfl rfl
  · next definition resolved =>
      split
      · exact denied _ rfl rfl
      · dsimp only
        split
        · exact denied _ rfl rfl
        · unfold autonomousCall
          split
          · exact denied _ rfl rfl
          · exact approvedCall_audited ordinal isolated resolved rfl

/-- The call has returned or raised. -/
def Job.ended (job : Job) : Bool :=
  match job.program with
  | .asks _ _ => false
  | _ => true

/-- In every run, a settled call has one audit pair just when it is regular. -/
theorem calls_audited {actions : List RunnerAction} {state : RunnerState}
    (runs : Runs (runnerStep config) (fun _ _ => True) .initial actions state) :
    ∀ (place : Nat) (job : Job), state.jobs[place]? = some job → job.ended = true →
      Settled job.trace →
      (AuditPair config job.call job.ordinal job.trace ↔ Regular config job.call job.trace) := by
  intro place job found ended
  have followed := runs_followed runs job (List.mem_of_getElem? found)
  have meets := @runGoverned_audited config job.call job.ordinal job.isolated
  unfold Job.Followed at followed
  unfold Job.ended at ended
  generalize job.program = program at followed ended
  cases program with
  | returns result => exact meets.returned followed
  | raises error => exact meets.raised followed
  | asks question next => contradiction

/-- This is one approved call with these choices, from its claim to its end. -/
def pythonRun (finish : HandlerEnd) (awaits : Nat) : List RunnerAction :=
  .run pythonCall none false :: List.replicate awaits (.advance 0 fun question =>
    match question with
    | .finishes => finish
    | other => preapproved other)

/-- These facts of a call can be computed. -/
def Job.facts (job : Job) : Bool × Bool × Bool × Nat × Nat :=
  (job.ended, job.trace.any advances, job.trace.any refuses, (invokedEvents job.trace).length,
    (resultEvents job.trace).length)

/-- A pre-approved call that returns is settled with one event of each kind. -/
theorem calls_audited_returned : ∃ (state : RunnerState) (job : Job),
    state.jobs = [job] ∧ job.facts = (true, true, false, 1, 1) ∧
    (AuditPair pythonConfig job.call job.ordinal job.trace ↔
      Regular pythonConfig job.call job.trace) := by
  have computed : (Library.execute (runnerStep pythonConfig) .initial
      (pythonRun (.returned ⟨true, none, [], none⟩) 9)).map (fun state => state.jobs.map Job.facts) =
      some [(true, true, false, 1, 1)] := by
    decide +kernel
  obtain ⟨state, executes, facts⟩ := Option.map_eq_some_iff.mp computed
  obtain ⟨job, rest, same, fact, last⟩ := List.map_eq_cons_iff.mp facts
  have last : rest = [] := List.map_eq_nil_iff.mp last
  have found : state.jobs[0]? = some job := by rw [same]; rfl
  have ended : job.ended = true := congrArg Prod.fst fact
  have settled : Settled job.trace :=
    ⟨congrArg (fun fact => fact.2.1) fact, congrArg (fun fact => fact.2.2.1) fact⟩
  have audited := calls_audited (Runs.of_unchecked executes) 0 job found ended settled
  exact ⟨state, job, by rw [same, last], fact, audited⟩

/-- A pre-approved call that is cancelled during its execution is settled with two `tool.invoked`
events. -/
theorem cancelled_call_unpaired : ∃ (actions : List RunnerAction) (state : RunnerState) (job : Job),
    Runs (runnerStep pythonConfig) (fun _ _ => True) .initial actions state ∧
    state.jobs[0]? = some job ∧ job.ended = true ∧ Settled job.trace ∧
    ¬ AuditPair pythonConfig job.call job.ordinal job.trace := by
  have computed : (Library.execute (runnerStep pythonConfig) .initial
      (pythonRun .cancelled 10)).map (fun state => state.jobs.map Job.facts) =
      some [(true, true, false, 2, 1)] := by
    decide +kernel
  obtain ⟨state, executes, facts⟩ := Option.map_eq_some_iff.mp computed
  obtain ⟨job, rest, same, fact, last⟩ := List.map_eq_cons_iff.mp facts
  have found : state.jobs[0]? = some job := by rw [same]; rfl
  have settled : Settled job.trace :=
    ⟨congrArg (fun fact => fact.2.1) fact, congrArg (fun fact => fact.2.2.1) fact⟩
  refine ⟨_, state, job, Runs.of_unchecked executes, found, congrArg Prod.fst fact, settled, ?_⟩
  rintro ⟨id, invoked, result, single, _⟩
  have two : (invokedEvents job.trace).length = 2 := congrArg (fun fact => fact.2.2.2.1) fact
  rw [single, List.length_singleton] at two
  omega

end LumenCopilot.Tools
