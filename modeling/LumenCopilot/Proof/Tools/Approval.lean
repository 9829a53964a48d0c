import LumenCopilot.Construction.Tools.System
import LumenCopilot.Proof.Library.Program
import LumenCopilot.Proof.Library.Transition
import LumenCopilot.Proof.Tools.Within

namespace LumenCopilot.Tools

open Python Library

variable {config : Config} {call : ToolCall} {trace : Trace}

/-- The call hands its arguments to a handler or to a shared task. -/
def hands : Event Ask Ask.Answer → Bool
  | ⟨.starts _ _, _⟩ => true
  | ⟨.join _ _ _ _, _⟩ => true
  | _ => false

/-- The gate has approved this definition with a recorded pre-approval for these arguments. -/
def Approved (trace : Trace) (arguments : Json) : Prop :=
  ∃ (request : ApprovalRequest) (answer : GateAnswer) (record : ApprovalRecord),
    (⟨.gate request, .ok answer⟩ : Event Ask Ask.Answer) ∈ trace ∧
    request.arguments = arguments ∧ request.argumentsHash = hashArgs arguments ∧
    answer.asDecision.approved = true ∧ answer.asDecision.approval = some record ∧
    record.scope = approvalScopeTenantPreapproval ∧ record.policyId.isSome = true ∧
    record.argumentsHash = some (hashArgs arguments)

/-- A durable `tool.invoked` event with the hash of these arguments is committed. -/
def Intended (trace : Trace) (arguments : Json) : Prop :=
  ∃ (event : ToolEvent) (id : Nat), (⟨.intent event, .ok id⟩ : Event Ask Ask.Answer) ∈ trace ∧
    event.action = .invoked ∧ event.durable = true ∧ event.argsHash = hashArgs arguments

/-- Every gate of the runner lets the write pass. -/
structure Authorised (config : Config) (call : ToolCall) (trace : Trace)
    (definition : ToolDefinition) (arguments : Json) : Prop where
  allowed : call.name ∈ config.allowed
  resolved : config.resolve call.name = some definition
  normalised : arguments =
    config.legacyArguments call.arguments definition.jsonSchema definition.readOnly
  valid : config.validateArguments arguments definition.jsonSchema = none
  tier : definition.riskTier = .t2
  approved : Approved trace arguments
  intended : Intended trace arguments

/-- A handler starts once, and the handler of a write tool starts with authority only. -/
def Permitted (config : Config) (call : ToolCall) (trace : Trace) : Ask → Prop
  | .starts definition arguments => trace.countP hands = 0 ∧
      (definition.riskTier.isWriteTier = true → Authorised config call trace definition arguments)
  | .join _ definition _ _ => trace.countP hands = 0 ∧ definition.readOnly = true
  | _ => True

/-- An idle question is always permitted. -/
theorem Ask.idle_permitted (question : Ask) (idle : question.idle) :
    Permitted config call trace question := by
  cases question <;> first | exact idle.elim | trivial

/-- An idle question starts no handler. -/
theorem Ask.idle_hands (question : Ask) (answer : question.Answer) (idle : question.idle) :
    hands ⟨question, answer⟩ = false := by
  cases question <;> first | exact idle.elim | rfl

/-- The later trace has the events of the earlier one and has started no further handler. -/
def Extends (trace later : Trace) : Prop :=
  later.countP hands = trace.countP hands ∧ ∀ event ∈ trace, event ∈ later

variable {α : Type} {program : Op α}

/-- A program of idle questions meets the permission and starts no handler. -/
theorem idle_meets (idle : program.Within Ask.idle) :
    program.Meets (tracing (Permitted config call)) (fun _ later => Extends trace later) trace := by
  apply idle.keeps
  · intro earlier question _ idle
    exact question.idle_permitted idle
  · intro earlier question answer later extended idle moved
    obtain rfl := moved
    refine ⟨?_, fun event member => List.mem_append_left _ (extended.2 event member)⟩
    simp [List.countP_append, question.idle_hands answer idle, extended.1]
  · exact ⟨rfl, fun _ member => member⟩

variable {β : Type} {next : α → Op β}

/-- A program may go on idly after its permitted part. -/
theorem meets_then_idle
    (meets : program.Meets (tracing (Permitted config call)) (fun _ _ => True) trace)
    (idle : ∀ value, (next value).Within Ask.idle) :
    (program >>= next).Meets (tracing (Permitted config call)) (fun _ _ => True) trace :=
  meets.then (fun _ _ _ => trivial) fun value _ _ =>
    (idle_meets (idle value)).mono fun _ _ _ => trivial

theorem ask_meets (question : Ask) (permitted : Permitted config call trace question) :
    (ask question).Meets (tracing (Permitted config call)) (fun _ _ => True) trace :=
  ⟨permitted, fun _ _ _ => trivial⟩

/-- A program may go on with what it needs after its idle part. -/
theorem idle_then_meets (idle : program.Within Ask.idle)
    (meets : ∀ value later, Extends trace later →
      (next value).Meets (tracing (Permitted config call)) (fun _ _ => True) later) :
    (program >>= next).Meets (tracing (Permitted config call)) (fun _ _ => True) trace :=
  (idle_meets idle).then (fun _ _ _ => trivial) meets

variable {definition : ToolDefinition}

theorem Authorised.extends {arguments : Json} {later : Trace}
    (authorised : Authorised config call trace definition arguments)
    (extended : Extends trace later) : Authorised config call later definition arguments where
  allowed := authorised.allowed
  resolved := authorised.resolved
  normalised := authorised.normalised
  valid := authorised.valid
  tier := authorised.tier
  approved := by
    obtain ⟨request, answer, record, member, granted⟩ := authorised.approved
    exact ⟨request, answer, record, extended.2 _ member, granted⟩
  intended := by
    obtain ⟨event, id, member, written⟩ := authorised.intended
    exact ⟨event, id, extended.2 _ member, written⟩

/-- The execution is permitted by a trace without a handler that has the authority it needs. -/
theorem executeShared_meets (definition : ToolDefinition) (normal : ToolCall)
    (fresh : trace.countP hands = 0)
    (authorised : definition.riskTier.isWriteTier = true →
      Authorised config call trace definition normal.arguments) :
    (executeShared config definition normal).Meets (tracing (Permitted config call))
      (fun _ _ => True) trace := by
  unfold executeShared
  split
  · next shares =>
      have readOnly : definition.readOnly = true := by
        simp only [Config.shares, Bool.and_eq_true] at shares
        exact shares.1.2
      apply meets_then_idle
      · apply meets_then_idle (ask_meets (.join _ definition _ _) ⟨fresh, readOnly⟩)
        intro answer
        exact within_ofExcept answer
      · intro joined
        refine (shielded_within _ trivial).attempt.bind fun result => ?_
        refine (leaveExecution_within _ _ trivial trivial trivial).bind fun _ => ?_
        exact (within_ofExcept result).bind fun _ => trivial
  · apply meets_then_idle (ask_meets (.starts definition _) ⟨fresh, authorised⟩)
    intro _
    exact (ask_within _ trivial).bind fun finished => within_ofExcept finished.outcome

/-- A scope changes nothing about the permission. -/
theorem inScope_meets (definition : ToolDefinition) (normal : ToolCall) (isolated : Bool)
    (fresh : trace.countP hands = 0)
    (authorised : definition.riskTier.isWriteTier = true →
      Authorised config call trace definition normal.arguments) :
    (inScope isolated (executeShared config definition normal)).Meets
      (tracing (Permitted config call)) (fun _ _ => True) trace := by
  unfold inScope
  split
  · refine idle_then_meets (openScope_within trivial) fun _ later extended => ?_
    apply meets_then_idle
    · rw [meets_attempt]
      exact executeShared_meets definition normal (extended.1.trans fresh) fun write =>
        (authorised write).extends extended
    · intro result
      exact (closeScope_within trivial).bind fun _ => within_ofExcept result
  · exact executeShared_meets definition normal fresh authorised

theorem executed_meets (definition : ToolDefinition) (normal : ToolCall) (argsHash : Text)
    (ordinal : Nat) (isolated : Bool) (granted : Option ApprovalRecord) (intent : Option Nat)
    (fresh : trace.countP hands = 0)
    (authorised : definition.riskTier.isWriteTier = true →
      Authorised config call trace definition normal.arguments) :
    (executed config definition normal argsHash ordinal isolated granted intent).Meets
      (tracing (Permitted config call)) (fun _ _ => True) trace := by
  unfold executed
  apply meets_then_idle
  · rw [meets_attempt]
    exact inScope_meets definition normal isolated fresh authorised
  · intro result
    match result with
    | .ok result => exact finalise_idle _
    | .error .cancelled => exact (finalise_idle _).bind fun _ => trivial
    | .error .pending => trivial
    | .error .failed => trivial

/-- These are the gates before the approval seam. -/
structure Admitted (config : Config) (call : ToolCall) (definition : ToolDefinition)
    (normal : ToolCall) : Prop where
  name : normal.name = call.name
  allowed : call.name ∈ config.allowed
  resolved : config.resolve call.name = some definition
  normalised : normal.arguments =
    config.legacyArguments call.arguments definition.jsonSchema definition.readOnly
  valid : config.validateArguments normal.arguments definition.jsonSchema = none

variable {normal : ToolCall}

/-- An approved call of a write tool commits its intent and gains its authority. -/
theorem dispatched_meets (ordinal : Nat) (isolated : Bool) (granted : Option ApprovalRecord)
    (admitted : Admitted config call definition normal) (fresh : trace.countP hands = 0)
    (approved : definition.riskTier.isWriteTier = true → granted.isSome = true ∧
      definition.riskTier = .t2 ∧ Approved trace normal.arguments) :
    (dispatched config definition normal (hashArgs normal.arguments) ordinal isolated granted).Meets
      (tracing (Permitted config call)) (fun _ _ => True) trace := by
  cases granted with
  | none =>
      apply executed_meets _ _ _ _ _ _ _ fresh
      intro write
      exact absurd (approved write).1 Bool.false_ne_true
  | some record =>
      refine ⟨trivial, fun answer later moved => ?_⟩
      obtain rfl := moved
      cases answer with
      | error error => trivial
      | ok id =>
          apply executed_meets
          · simp [List.countP_append, fresh, hands]
          · intro write
            obtain ⟨_, tier, request, answer, grant, member, facts⟩ := approved write
            exact {
              allowed := admitted.allowed
              resolved := admitted.resolved
              normalised := admitted.normalised
              valid := admitted.valid
              tier := tier
              approved := ⟨request, answer, grant, List.mem_append_left _ member, facts⟩
              intended := ⟨_, id, List.mem_append_right _ List.mem_cons_self, rfl, rfl, rfl⟩ }

variable {argsHash : Text}

/-- An approval that stands for a write tool has the record of this call. -/
theorem checkedApproval_write {decision : ApprovalDecision}
    (approved : (checkedApproval definition argsHash decision).approved = true)
    (write : definition.riskTier.isWriteTier = true) :
    decision.approved = true ∧ admits definition argsHash decision.approval = true ∧
      checkedApproval definition argsHash decision = decision := by
  unfold checkedApproval at approved ⊢
  split at approved
  · contradiction
  · next stands =>
      rw [if_neg stands]
      simp only [write, approved, Bool.true_and, Bool.not_eq_true, Bool.not_eq_false'] at stands
      exact ⟨approved, by simpa using stands, rfl⟩

/-- An admitted record is the pre-approval of the tenant for this call. -/
theorem admits_record {granted : Option ApprovalRecord}
    (admitted : admits definition argsHash granted = true) :
    definition.riskTier = .t2 ∧ ∃ record, granted = some record ∧
      record.scope = approvalScopeTenantPreapproval ∧ record.policyId.isSome = true ∧
      record.argumentsHash = some argsHash := by
  cases granted with
  | none => simp [admits] at admitted
  | some record =>
      simp only [admits, Bool.and_eq_true, decide_eq_true_eq] at admitted
      exact ⟨admitted.1, record, rfl, admitted.2.1.1, admitted.2.1.2, admitted.2.2⟩

theorem approvedCall_meets (ordinal : Nat) (isolated : Bool)
    (admitted : Admitted config call definition normal) (fresh : trace.countP hands = 0) :
    (approvedCall config definition normal (hashArgs normal.arguments) ordinal isolated).Meets
      (tracing (Permitted config call)) (fun _ _ => True) trace := by
  unfold approvedCall
  split
  · refine ⟨trivial, fun answer later moved => ?_⟩
    obtain rfl := moved
    cases answer with
    | error error => trivial
    | ok answer =>
        show Program.Meets _ (ite _ _ _) _ _
        split
        · next approved =>
            apply dispatched_meets ordinal isolated _ admitted
            · simp [List.countP_append, fresh, hands]
            · intro write
              obtain ⟨granted, admits, same⟩ := checkedApproval_write approved write
              obtain ⟨tier, record, found, scope, policy, hash⟩ := admits_record admits
              refine ⟨by simp [same, found], tier, _, answer, record,
                List.mem_append_right _ List.mem_cons_self, rfl, rfl, granted, found, scope, policy,
                hash⟩
        · exact (idle_meets (finalise_idle _)).mono fun _ _ _ => trivial
  · next open' =>
      apply dispatched_meets ordinal isolated none admitted fresh
      intro write
      have gated : config.gated definition normal.name = true := by
        simp [Config.gated, definition.writeGated write]
      exact absurd gated open'

/-- The whole path of a call keeps the permission. -/
theorem runGoverned_meets (call : ToolCall) (ordinal : Nat) (isolated : Bool) :
    (runGoverned config call ordinal isolated).Meets (tracing (Permitted config call))
      (fun _ _ => True) [] := by
  have denied (final : Finalisation) : (finalise final).Meets (tracing (Permitted config call))
      (fun _ _ => True) [] := (idle_meets (finalise_idle final)).mono fun _ _ _ => trivial
  unfold runGoverned
  split
  · exact denied _
  · next definition resolved =>
      split
      · exact denied _
      · next allowed =>
          dsimp only
          split
          · exact denied _
          · next valid =>
              unfold autonomousCall
              split
              · exact denied _
              · apply approvedCall_meets ordinal isolated _ rfl
                exact ⟨rfl, not_not.mp allowed, resolved, rfl, valid⟩

end LumenCopilot.Tools
