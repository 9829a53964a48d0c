import LumenCopilot.Construction.Tools.Batch
import LumenCopilot.Proof.Library.Program
import LumenCopilot.Proof.Tools.Within
import LumenCopilot.Proof.Tools.Audit

namespace LumenCopilot.Tools

open Python Library

variable {config : Config} {call : ToolCall} {ordinal : Nat} {trace : Trace}

/-- The call has had its turn at the persist gate. -/
def turns : Event Ask Ask.Answer → Bool
  | ⟨.turn _, .ok _⟩ => true
  | _ => false

/-- The call holds the persist gate. -/
def holding (trace : Trace) : Bool := trace.any turns && !trace.any advances

/-- This is the record of the set that an event writes under the persist gate. -/
def drainKind : Event Ask Ask.Answer → Option RecordKind
  | ⟨.emit event, .ok _⟩ => some event.kind
  | ⟨.record _, .ok _⟩ => some .row
  | _ => none

/-- These are the records that the call has written under the persist gate. -/
def drained (trace : Trace) : List RecordKind := trace.filterMap drainKind

/-- This is the set of one call. -/
def fullSet : List RecordKind := [.invoked, .result, .row]

/-- The call has not come to the persist gate. -/
structure Undrained (trace : Trace) : Prop where
  unturned : trace.any turns = false
  fresh : trace.any advances = false
  unwritten : drained trace = []

/-- The gate has answered with a record for the definition of the call. -/
def Granting (config : Config) (call : ToolCall) (trace : Trace) : Prop :=
  ∃ (request : ApprovalRequest) (answer : GateAnswer) (record : ApprovalRecord)
    (definition : ToolDefinition), (⟨.gate request, .ok answer⟩ : Event Ask Ask.Answer) ∈ trace ∧
    answer.asDecision.approval = some record ∧ config.resolve call.name = some definition ∧
    request.riskTier = definition.riskTier

/-- A call asks for its turn once, writes its set in order under the gate and leaves the gate. -/
def Drains (config : Config) (call : ToolCall) (ordinal : Nat) (trace : Trace) : Ask → Prop
  | .intent event => event.ordinal = ordinal ∧ Undrained trace ∧ Granting config call trace
  | .turn asked => asked = ordinal ∧ Undrained trace
  | .emit event => event.ordinal = ordinal ∧ holding trace = true ∧
      (drained trace ++ [event.kind]).Sublist fullSet
  | .record row => row.ordinal = ordinal ∧ holding trace = true ∧
      (drained trace ++ [RecordKind.row]).Sublist fullSet
  | .advance => holding trace = true
  | _ => True

/-- A call that returns has left the gate. -/
def Drained {α : Type} (result : Except Interrupt α) (later : Trace) : Prop :=
  ∀ value, result = .ok value → later.any advances = true

theorem Undrained.snoc (undrained : Undrained trace) (event : Event Ask Ask.Answer)
    (turnless : turns event = false) (stays : advances event = false)
    (kindless : drainKind event = none) : Undrained (trace ++ [event]) where
  unturned := by simp [undrained.unturned, turnless]
  fresh := by simp [undrained.fresh, stays]
  unwritten := by
    have written := undrained.unwritten
    unfold drained at written ⊢
    simp [written, kindless]

theorem Undrained.executing (undrained : Undrained trace) (question : Ask) (answer : question.Answer)
    (executing : question.executing) : Undrained (trace ++ [⟨question, answer⟩]) := by
  apply undrained.snoc
  all_goals cases question <;> first | exact executing.elim | rfl

theorem executing_drains {α : Type} {program : Op α} (within : program.Within Ask.executing)
    (undrained : Undrained trace) :
    program.Meets (tracing (Drains config call ordinal)) (fun _ later => Undrained later) trace := by
  apply within.keeps
  · intro earlier question _ executing
    cases question <;> first | exact executing.elim | trivial
  · intro earlier question answer later kept executing moved
    obtain rfl := moved
    exact kept.executing question answer executing
  · exact undrained

/-- The call holds the gate and has written these records of its set. -/
structure Held (kinds : List RecordKind) (trace : Trace) : Prop where
  held : holding trace = true
  written : drained trace = kinds

variable {kinds : List RecordKind}

theorem Held.snoc (held : Held kinds trace) (event : Event Ask Ask.Answer)
    (stays : advances event = false) :
    Held (kinds ++ (drainKind event).toList) (trace ++ [event]) where
  held := by
    have both := held.held
    unfold holding at both ⊢
    simp only [Bool.and_eq_true, Bool.not_eq_true'] at both ⊢
    simp [both.1, both.2, stays]
  written := by
    have written := held.written
    unfold drained at written ⊢
    rw [List.filterMap_append, written, List.filterMap_cons]
    cases drainKind event <;> rfl

/-- A write adds its record when it succeeds. -/
theorem emit_drains (event : ToolEvent) (named : event.ordinal = ordinal) (held : Held kinds trace)
    (next : (kinds ++ [event.kind]).Sublist fullSet) :
    (emit event).Meets (tracing (Drains config call ordinal)) (fun result later =>
      Held (match result with | .ok _ => kinds ++ [event.kind] | .error _ => kinds) later) trace := by
  refine ⟨⟨named, held.held, by rw [held.written]; exact next⟩, fun answer later moved => ?_⟩
  obtain rfl := moved
  have snoc := held.snoc (⟨.emit event, answer⟩ : Event Ask Ask.Answer) rfl
  cases answer with
  | ok id => exact snoc
  | error error =>
      rw [show kinds ++ (drainKind ⟨.emit event, .error error⟩).toList = kinds from
        List.append_nil kinds] at snoc
      exact snoc

theorem record_drains (row : ToolInvocation) (named : row.ordinal = ordinal)
    (held : Held kinds trace) (next : (kinds ++ [RecordKind.row]).Sublist fullSet) :
    (record row).Meets (tracing (Drains config call ordinal)) (fun _ later => holding later = true) trace := by
  refine ⟨⟨named, held.held, by rw [held.written]; exact next⟩, fun answer later moved => ?_⟩
  obtain rfl := moved
  have snoc := held.snoc (⟨.record row, answer⟩ : Event Ask Ask.Answer) rfl
  cases answer with
  | ok id => exact snoc.held
  | error error => exact snoc.held

theorem writes_drains (final : Finalisation) (origin : Option Text) (named : final.ordinal = ordinal)
    (held : Held [] trace) :
    (final.writes origin).Meets (tracing (Drains config call ordinal)) (fun _ later => holding later = true)
      trace := by
  have rest (kinds : List RecordKind) (later : Trace) (held : Held kinds later)
      (next : (kinds ++ [RecordKind.result, .row]).Sublist fullSet) :
      (do emit (final.event .result origin); record final.row : Op Unit).Meets
        (tracing (Drains config call ordinal)) (fun _ later => holding later = true) later := by
    have split : (kinds ++ [RecordKind.result]) ++ [.row] = kinds ++ [.result, .row] := by simp
    refine (emit_drains _ named held ?_).then (fun _ _ held => held.held) fun _ _ held => ?_
    · exact ((List.sublist_append_left _ [RecordKind.row]).trans (split ▸ List.Sublist.refl _)).trans next
    · exact record_drains _ named held (split ▸ next)
  unfold Finalisation.writes
  cases final.invokedEventId with
  | none =>
      have first : ([] ++ [RecordKind.invoked]).Sublist fullSet := by decide
      have last : ([RecordKind.invoked] ++ [RecordKind.result, RecordKind.row]).Sublist fullSet := by decide
      refine (emit_drains (final.event .invoked origin) named held first).then (fun _ _ held => held.held) fun _ _ held => ?_
      exact rest _ _ held last
  | some id =>
      have last : ([] ++ [RecordKind.result, RecordKind.row]).Sublist fullSet := by decide
      exact rest _ _ held last

/-- The turn gives the gate to the call. -/
theorem Undrained.turned (undrained : Undrained trace) (ordinal : Nat) :
    Held [] (trace ++ [⟨.turn ordinal, .ok ()⟩]) where
  held := by simp [holding, undrained.unturned, undrained.fresh, turns, advances]
  written := by
    have written := undrained.unwritten
    unfold drained at written ⊢
    simp [written, drainKind]

theorem finalise_drains (final : Finalisation) (named : final.ordinal = ordinal)
    (undrained : Undrained trace) :
    (finalise final).Meets (tracing (Drains config call ordinal)) Drained trace := by
  refine ⟨trivial, fun origin middle moved => ?_⟩
  obtain rfl := moved
  have ready := undrained.snoc (⟨.webOrigin final.call.id, origin⟩ : Event Ask Ask.Answer) rfl rfl rfl
  refine ⟨⟨named, ready⟩, fun turned later moved => ?_⟩
  obtain rfl := moved
  cases turned with
  | error error => exact nofun
  | ok _ =>
      have writes := @writes_drains config call _ _ final origin named (ready.turned final.ordinal)
      show Program.Meets _ ((final.writes origin).attempt >>= _) _ _
      rw [meets_bind, meets_attempt]
      refine writes.mono fun written last held => ?_
      refine ⟨held, fun _ after moved => ?_⟩
      obtain rfl := moved
      have advanced : (last ++ [(⟨.advance, ()⟩ : Event Ask Ask.Answer)]).any advances = true := by
        simp [advances]
      cases written with
      | ok _ => exact fun _ _ => advanced
      | error _ => exact nofun

theorem executed_drains (definition : ToolDefinition) (normal : ToolCall) (argsHash : Text)
    (isolated : Bool) (granted : Option ApprovalRecord) (intent : Option Nat)
    (undrained : Undrained trace) :
    (executed config definition normal argsHash ordinal isolated granted intent).Meets
      (tracing (Drains config call ordinal)) Drained trace := by
  unfold executed
  have within := inScope_executing isolated (executeShared_executing config definition normal)
  rw [meets_bind, meets_attempt]
  refine (executing_drains within undrained).mono fun result later undrained => ?_
  match result with
  | .ok result => exact finalise_drains _ rfl undrained
  | .error .cancelled =>
      exact (finalise_drains _ rfl undrained).then (fun _ _ _ => nofun) fun _ _ _ => nofun
  | .error .pending => exact nofun
  | .error .failed => exact nofun

theorem dispatched_drains (definition : ToolDefinition) (normal : ToolCall) (argsHash : Text)
    (isolated : Bool) (granted : Option ApprovalRecord) (undrained : Undrained trace)
    (granting : granted.isSome = true → Granting config call trace) :
    (dispatched config definition normal argsHash ordinal isolated granted).Meets
      (tracing (Drains config call ordinal)) Drained trace := by
  cases granted with
  | none => exact executed_drains definition normal argsHash isolated none none undrained
  | some record =>
      refine ⟨⟨rfl, undrained, granting rfl⟩, fun answer later moved => ?_⟩
      obtain rfl := moved
      cases answer with
      | error error => exact nofun
      | ok id =>
          exact executed_drains definition normal argsHash isolated _ _
            (undrained.snoc _ rfl rfl rfl)

theorem approvedCall_drains {definition : ToolDefinition} (normal : ToolCall) (argsHash : Text)
    (isolated : Bool) (resolved : config.resolve call.name = some definition)
    (undrained : Undrained trace) :
    (approvedCall config definition normal argsHash ordinal isolated).Meets
      (tracing (Drains config call ordinal)) Drained trace := by
  unfold approvedCall
  split
  · refine ⟨trivial, fun answer later moved => ?_⟩
    obtain rfl := moved
    cases answer with
    | error error => exact nofun
    | ok answer =>
        show Program.Meets _ (ite _ _ _) _ _
        split
        · next approved =>
            apply dispatched_drains definition normal argsHash isolated _
              (undrained.snoc _ rfl rfl rfl)
            intro recorded
            have same : checkedApproval definition argsHash answer.asDecision = answer.asDecision := by
              unfold checkedApproval at approved ⊢
              split at approved
              · contradiction
              · next stands => rw [if_neg stands]
            rw [same] at recorded
            obtain ⟨record, found⟩ := Option.isSome_iff_exists.mp recorded
            exact ⟨_, answer, record, definition, List.mem_append_right _ List.mem_cons_self, found,
              resolved, rfl⟩
        · exact finalise_drains _ rfl (undrained.snoc _ rfl rfl rfl)
  · exact dispatched_drains definition normal argsHash isolated none undrained nofun

/-- The whole path of a call keeps to the persist gate. -/
theorem runGoverned_drains (call : ToolCall) (ordinal : Nat) (isolated : Bool) :
    (runGoverned config call ordinal isolated).Meets (tracing (Drains config call ordinal)) Drained
      [] := by
  have undrained : Undrained [] := ⟨rfl, rfl, rfl⟩
  unfold runGoverned
  split
  · exact finalise_drains _ rfl undrained
  · next definition resolved =>
      split
      · exact finalise_drains _ rfl undrained
      · dsimp only
        split
        · exact finalise_drains _ rfl undrained
        · unfold autonomousCall
          split
          · exact finalise_drains _ rfl undrained
          · exact approvedCall_drains _ _ isolated resolved undrained

/-- The policy gate records only the row of the tenant, for a write tool and for these arguments. -/
theorem policyDecision_recorded {registry : Text → Option ToolDefinition}
    {policy : Option (Option TenantToolPolicy)} {request : ApprovalRequest} {record : ApprovalRecord}
    (found : (policyDecision registry policy request).approval = some record) :
    request.riskTier.isWriteTier = true ∧ ∃ row : TenantToolPolicy, record =
      ⟨approvalScopeTenantPreapproval, some row.id, row.updatedBy, some request.argumentsHash⟩ := by
  match policy with
  | none => contradiction
  | some none =>
      simp only [policyDecision] at found
      split at found <;> split at found <;> contradiction
  | some (some row) =>
      cases enabled : row.enabled <;> cases required : row.requiresApproval <;>
        cases write : request.riskTier.isWriteTier <;>
        simp [policyDecision, effectiveToolDecision, enabled, required, write, ApprovalDecision.deny,
          ApprovalDecision.allow] at found
      exact ⟨rfl, row, found.symm⟩

end LumenCopilot.Tools
