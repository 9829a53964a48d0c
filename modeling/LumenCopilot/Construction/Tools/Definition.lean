import LumenCopilot.Construction.Python.Json
import LumenCopilot.Construction.Python.Bytes

namespace LumenCopilot.Tools

open Python

/-- This is `RiskTier`. -/
inductive RiskTier where
  | t0
  | t1
  | t2
  | t3
  deriving DecidableEq

def RiskTier.level : RiskTier → Nat
  | .t0 => 0
  | .t1 => 1
  | .t2 => 2
  | .t3 => 3

/-- This is `RiskTier.is_write_tier`. -/
def RiskTier.isWriteTier (tier : RiskTier) : Bool := RiskTier.t2.level ≤ tier.level

/-- This is `ToolDefinition` with the checks of its `__post_init__`. -/
structure ToolDefinition where
  name : Text
  jsonSchema : Json
  riskTier : RiskTier
  requiresApproval : Bool
  readOnly : Bool
  named : isBlank name = false
  readOnlyTier : readOnly = true → riskTier = .t0
  readOnlyFree : readOnly = true → requiresApproval = false
  writeGated : riskTier.isWriteTier = true → requiresApproval = true

/-- This is `AutonomyLevel`. -/
inductive AutonomyLevel where
  | suggest
  | draft
  | actWithApproval
  | actAuto
  deriving DecidableEq

/-- This is a registered MCP server and one tool of its snapshot. -/
structure RawTool where
  name : Text
  readOnly : Bool
  inputSchema : Json

def mcpToolPrefix : Text := "mcp:".toList

/-- This is `slug_for_server`. -/
def slugForServer (server : Uuid) : Text := "srv-".toList ++ (hexDigits 32 server.int).take 12

/-- This is `namespaced_tool_name`. -/
def namespacedToolName (slug rawName : Text) : Text := mcpToolPrefix ++ slug ++ ':' :: rawName

theorem namespacedToolName_named (slug rawName : Text) :
    isBlank (namespacedToolName slug rawName) = false := rfl

theorem RiskTier.t0_free : RiskTier.t0.isWriteTier = true → false = true := nofun

theorem RiskTier.t2_writes : false = true → RiskTier.t2 = .t0 := nofun

theorem RiskTier.t2_gated : false = true → true = false := nofun

/-- This is `_definition_for`. -/
def definitionFor (server : Uuid) (raw : RawTool) : Option ToolDefinition :=
  let rawName := lstrip (rstrip raw.name)
  if rawName = [] then none
  else
    let inputSchema := match raw.inputSchema with
      | .dict fields => .dict fields
      | _ => .dict []
    let name := namespacedToolName (slugForServer server) rawName
    if raw.readOnly then
      some ⟨name, inputSchema, .t0, false, true, namespacedToolName_named _ _, fun _ => rfl,
        fun _ => rfl, RiskTier.t0_free⟩
    else
      some ⟨name, inputSchema, .t2, true, false, namespacedToolName_named _ _,
        RiskTier.t2_writes, RiskTier.t2_gated, fun _ => rfl⟩

/-- This is `hash_args`. -/
def hashArgs (arguments : Json) : Text :=
  Sha256.hexdigest (utf8 arguments.sortKeys.dumpsUnicode)

/-- This is `ToolCall`, with the object of its arguments. -/
structure ToolCall where
  id : Text
  name : Text
  arguments : Json

/-- This is `ApprovalRequest`. -/
structure ApprovalRequest where
  callId : Text
  toolName : Text
  riskTier : RiskTier
  arguments : Json
  argumentsHash : Text

/-- This is `ApprovalRecord`. -/
structure ApprovalRecord where
  scope : Text
  policyId : Option Uuid
  approvedBy : Option Uuid
  argumentsHash : Option Text
  deriving DecidableEq

/-- This is `ApprovalDecision`. -/
structure ApprovalDecision where
  approved : Bool
  reason : Option Text
  approval : Option ApprovalRecord
  deriving DecidableEq

def ApprovalDecision.allow (approval : Option ApprovalRecord) : ApprovalDecision :=
  ⟨true, none, approval⟩

def ApprovalDecision.deny (reason : Text) : ApprovalDecision := ⟨false, some reason, none⟩

/-- A gate answers with a plain Boolean or with a decision. -/
inductive GateAnswer where
  | bare (value : Bool)
  | decision (value : ApprovalDecision)

/-- This is `_as_decision`. -/
def GateAnswer.asDecision : GateAnswer → ApprovalDecision
  | .bare value => ⟨value, none, none⟩
  | .decision value => value

def approvalScopeTenantPreapproval : Text := "tenant_preapproval".toList

def approvalReasonRecordInvalid : Text := "approval_record_invalid".toList

/-- This is the row of `tenant_tool_policy`. -/
structure TenantToolPolicy where
  id : Uuid
  enabled : Bool
  requiresApproval : Bool
  updatedBy : Option Uuid

/-- This is `effective_tool_decision`: whether the tool is enabled and whether it needs approval. -/
def effectiveToolDecision (override : Option TenantToolPolicy) (registryRequiresApproval : Bool) :
    Bool × Bool :=
  match override with
  | none => (true, registryRequiresApproval)
  | some policy => (policy.enabled, policy.requiresApproval)

/-- This is `PolicyApprovalGate.request` on the policy that it read. -/
def policyDecision (registry : Text → Option ToolDefinition)
    (policy : Option (Option TenantToolPolicy)) (request : ApprovalRequest) : ApprovalDecision :=
  match policy with
  | none => .deny "tool_policy_unreadable".toList
  | some override =>
      let registryRequiresApproval := match registry request.toolName with
        | some definition => definition.requiresApproval
        | none => request.riskTier.isWriteTier
      let decision := effectiveToolDecision override registryRequiresApproval
      match override with
      | none =>
          if ¬ decision.2 then .allow none else .deny "tool_policy_absent".toList
      | some row =>
          if ¬ decision.1 then .deny "tool_policy_disabled".toList
          else if decision.2 then .deny "approval_required_unavailable".toList
          else if ¬ request.riskTier.isWriteTier then .allow none
          else .allow (some
            ⟨approvalScopeTenantPreapproval, some row.id, row.updatedBy, some request.argumentsHash⟩)

/-- This is `AuditOutcome`. -/
inductive AuditOutcome where
  | allowed
  | denied
  | error
  deriving DecidableEq

/-- This is what `ToolHandlerResult` says about the end of a handler. -/
structure ToolHandlerResult where
  ok : Bool
  error : Option Text
  summary : Text
  deniedReason : Option Text
  deriving DecidableEq

/-- This is what the trace and the audit keep of `ToolResult`. -/
structure ToolResult where
  ok : Bool
  error : Option Text
  summary : Text
  deniedReason : Option Text
  deriving DecidableEq

/-- This is `ToolResult.failure`. -/
def ToolResult.failure (error summary : Text) : ToolResult := ⟨false, some error, summary, none⟩

def errorNotFound : Text := "tool_not_found".toList
def errorNotPermitted : Text := "tool_not_permitted".toList
def errorApprovalDenied : Text := "approval_denied".toList
def errorAutonomyDenied : Text := "autonomy_denied".toList
def errorToolError : Text := "tool_error".toList
def errorToolTimeout : Text := "tool_timeout".toList
def errorBadArgs : Text := "tool_bad_args".toList

/-- This is `_complete`. -/
def complete (body : ToolHandlerResult) : ToolResult :=
  if ¬ body.ok then
    let error := match body.error with
      | some (c :: rest) => c :: rest
      | _ => errorToolError
    ⟨false, some error, body.summary, body.deniedReason⟩
  else ⟨true, none, body.summary, none⟩

/-- These are `tool.invoked` and `tool.result`. -/
inductive ToolAction where
  | invoked
  | result
  deriving DecidableEq

/-- This is `_approval_metadata`. -/
structure ApprovalMetadata where
  approvalScope : Text
  approvedBy : Option Uuid
  approvalPolicyId : Option Uuid
  deriving DecidableEq

def ApprovalRecord.metadata (record : ApprovalRecord) : ApprovalMetadata :=
  ⟨record.scope, record.approvedBy, record.policyId⟩

/-- This is an audit event of the runner with its metadata. -/
structure ToolEvent where
  action : ToolAction
  outcome : AuditOutcome
  tool : Text
  callId : Text
  argsHash : Text
  ok : Option Bool
  ordinal : Nat
  approval : Option ApprovalMetadata
  invokedEventId : Option Nat
  error : Option Text
  deniedReason : Option Text
  execution : Option (Text × Bool)
  durable : Bool
  deriving DecidableEq

/-- This is the row of `tool_invocations`. -/
structure ToolInvocation where
  toolName : Text
  argsHash : Text
  ok : Bool
  error : Option Text
  resultSummary : Text
  ordinal : Nat
  deriving DecidableEq

end LumenCopilot.Tools
