import LumenCopilot.Construction.Library.Program
import LumenCopilot.Construction.Tools.Definition

namespace LumenCopilot.Tools

open Python Library

/-- These are the exceptions that leave a call: `CancelledError`, `ToolCancellationPending` and all
others. -/
inductive Interrupt where
  | cancelled
  | pending
  | failed
  deriving DecidableEq

/-- This is how the coroutine of a handler ends. -/
inductive HandlerEnd where
  | returned (body : ToolHandlerResult)
  | timedOut
  | raised
  | pending
  | cancelled
  deriving DecidableEq

/-- This is the `_WebExecution` that a call waits for, with the arguments of its task. -/
structure Joined where
  execution : Nat
  origin : Text
  arguments : Json

/-- These are the awaits of a call and its accesses to the state of the runner. -/
inductive Ask where
  | gate (request : ApprovalRequest)
  | intent (event : ToolEvent)
  | openScope
  | closeScope
  | starts (definition : ToolDefinition) (arguments : Json)
  | finishes
  | join (key : Text) (definition : ToolDefinition) (arguments : Json) (callId : Text)
  | shielded (execution : Nat)
  | leave (execution : Nat)
  | reap (execution : Nat)
  | forget (key : Text) (execution : Nat)
  | webOrigin (callId : Text)
  | turn (ordinal : Nat)
  | emit (event : ToolEvent)
  | record (row : ToolInvocation)
  | advance

/-- An await may raise instead. -/
abbrev Ask.Answer : Ask → Type
  | .gate _ => Except Interrupt GateAnswer
  | .intent _ => Except Interrupt Nat
  | .openScope => Except Interrupt Unit
  | .closeScope => Except Interrupt Unit
  | .starts _ _ => Unit
  | .finishes => HandlerEnd
  | .join _ _ _ _ => Except Interrupt Joined
  | .shielded _ => Except Interrupt ToolResult
  | .leave _ => Bool
  | .reap _ => Except Interrupt Unit
  | .forget _ _ => Except Interrupt Unit
  | .webOrigin _ => Option Text
  | .turn _ => Except Interrupt Unit
  | .emit _ => Except Interrupt Nat
  | .record _ => Except Interrupt Unit
  | .advance => Unit

abbrev Op : Type → Type := Program Ask Ask.Answer Interrupt

def ask (question : Ask) : Op question.Answer := .asks question .returns

/-- An await that raises ends the call unless something catches it. -/
def askGate (request : ApprovalRequest) : Op GateAnswer := do
  let answer ← ask (.gate request)
  Program.ofExcept answer

def askIntent (event : ToolEvent) : Op Nat := do
  let answer ← ask (.intent event)
  Program.ofExcept answer

def openScope : Op Unit := do
  let answer ← ask .openScope
  Program.ofExcept answer

def closeScope : Op Unit := do
  let answer ← ask .closeScope
  Program.ofExcept answer

def join (key : Text) (definition : ToolDefinition) (arguments : Json) (callId : Text) :
    Op Joined := do
  let answer ← ask (.join key definition arguments callId)
  Program.ofExcept answer

def shielded (execution : Nat) : Op ToolResult := do
  let answer ← ask (.shielded execution)
  Program.ofExcept answer

def reap (execution : Nat) : Op Unit := do
  let answer ← ask (.reap execution)
  Program.ofExcept answer

def forget (key : Text) (execution : Nat) : Op Unit := do
  let answer ← ask (.forget key execution)
  Program.ofExcept answer

def turn (ordinal : Nat) : Op Unit := do
  let answer ← ask (.turn ordinal)
  Program.ofExcept answer

def emit (event : ToolEvent) : Op Unit := do
  let answer ← ask (.emit event)
  Program.ofExcept (answer.map fun _ => ())

def record (row : ToolInvocation) : Op Unit := do
  let answer ← ask (.record row)
  Program.ofExcept answer

/-- This is what a `ToolRunner` is built with. -/
structure Config where
  allowed : List Text
  extraTools : List (Text × ToolDefinition)
  registry : Text → Option ToolDefinition
  autonomy : AutonomyLevel
  approvalRequiredTools : List Text
  legacyArguments : Json → Json → Bool → Json
  validateArguments : Json → Json → Option Text
  tenant : Text
  user : Text

variable (config : Config)

/-- This is `ToolRunner._resolve`. -/
def Config.resolve (name : Text) : Option ToolDefinition :=
  match config.extraTools.lookup name with
  | some dynamic => some dynamic
  | none => config.registry name

/-- This is `ToolRunner.is_concurrency_safe`. -/
def Config.isConcurrencySafe (name : Text) : Bool :=
  if (config.extraTools.lookup name).isSome then false
  else match config.resolve name with
    | none => true
    | some definition => definition.readOnly

/-- This is `ToolRunner.requires_call_scope`. -/
def Config.requiresCallScope (name : Text) : Bool :=
  if (config.extraTools.lookup name).isSome then false
  else match config.resolve name with
    | none => false
    | some definition => definition.readOnly && config.allowed.contains name

/-- This is `_AutonomyDecision`. -/
inductive AutonomyDecision where
  | allow
  | approve
  | deny
  deriving DecidableEq

/-- This is `_requires_autonomy_approval`. -/
def requiresAutonomyApproval (definition : ToolDefinition) : Bool :=
  definition.riskTier = .t1 && !definition.requiresApproval

/-- This is `ToolRunner._autonomy_decision`. -/
def autonomyDecision : AutonomyLevel → AutonomyDecision
  | .actAuto => .allow
  | .actWithApproval => .approve
  | _ => .deny

/-- This is what `_finalise` is called with. -/
structure Finalisation where
  call : ToolCall
  argsHash : Text
  ordinal : Nat
  result : ToolResult
  outcome : AuditOutcome
  deniedReason : Option Text := none
  approval : Option ApprovalRecord := none
  invokedEventId : Option Nat := none

/-- An empty text counts as absent. -/
def present (text : Option Text) : Option Text := text.filter fun text => text ≠ []

/-- These are the metadata of both events. -/
def Finalisation.event (final : Finalisation) (action : ToolAction) (origin : Option Text) :
    ToolEvent where
  action := action
  outcome := final.outcome
  tool := final.call.name
  callId := final.call.id
  argsHash := final.argsHash
  ok := some final.result.ok
  ordinal := final.ordinal
  approval := final.approval.map ApprovalRecord.metadata
  invokedEventId := final.invokedEventId
  error := present final.result.error
  deniedReason := present final.deniedReason <|> present final.result.deniedReason
  execution := origin.map fun call => (call, call ≠ final.call.id)
  durable := action = .result && final.invokedEventId.isSome

def Finalisation.row (final : Finalisation) : ToolInvocation where
  toolName := final.call.name
  argsHash := final.argsHash
  ok := final.result.ok
  error := final.result.error
  resultSummary := final.result.summary
  ordinal := final.ordinal

/-- These are the writes of `_finalise` under the persist gate. -/
def Finalisation.writes (final : Finalisation) (origin : Option Text) : Op Unit := do
  if final.invokedEventId.isNone then emit (final.event .invoked origin)
  emit (final.event .result origin)
  record final.row

/-- This is `ToolRunner._finalise`; the answer of `advance` is its `finally`. -/
def finalise (final : Finalisation) : Op ToolResult := do
  let origin ← ask (.webOrigin final.call.id)
  turn final.ordinal
  let written ← (final.writes origin).attempt
  ask .advance
  Program.ofExcept written
  pure final.result

/-- The end of a handler is a result, save for the exceptions that pass. -/
def HandlerEnd.outcome : HandlerEnd → Except Interrupt ToolResult
  | .returned body => .ok (complete body)
  | .timedOut => .ok (.failure errorToolTimeout "timed out".toList)
  | .raised => .ok (.failure errorToolError "tool error".toList)
  | .pending => .error .pending
  | .cancelled => .error .cancelled

/-- This is `ToolRunner._execute`. -/
def execute (definition : ToolDefinition) (arguments : Json) : Op ToolResult := do
  ask (.starts definition arguments)
  let finished ← ask .finishes
  Program.ofExcept finished.outcome

def stripField (field : Text × Json) : Text × Json :=
  match field with
  | (name, .str text) =>
      if name = "query".toList then (name, .str (lstrip (rstrip text))) else (name, .str text)
  | other => other

/-- This strips the text of the query. -/
def stripQuery : Json → Json
  | .dict fields => .dict (fields.map stripField)
  | other => other

/-- This is the key under which identical searches share a task. -/
def Config.shareKey (arguments : Json) : Text :=
  hashArgs (.dict [("tenant".toList, .str config.tenant), ("user".toList, .str config.user),
    ("args".toList, arguments)])

/-- Only a static read-only search shares its task. -/
def Config.shares (definition : ToolDefinition) (name : Text) : Bool :=
  name = "web_search".toList && (config.extraTools.lookup name).isNone && definition.readOnly &&
    !definition.requiresApproval

/-- This is the cancellation of the task by its last waiter. -/
def reapQuietly (execution : Nat) : Op Unit :=
  (reap execution).catching fun error => if error = .cancelled then some (pure ()) else none

/-- This is the `finally` of `_execute_shared`. -/
def leaveExecution (key : Text) (execution : Nat) : Op Unit := do
  let last ← ask (.leave execution)
  if last then reapQuietly execution
  forget key execution

/-- This is `ToolRunner._execute_shared`. -/
def executeShared (definition : ToolDefinition) (call : ToolCall) : Op ToolResult := do
  if config.shares definition call.name then
    let arguments := stripQuery call.arguments
    let key := config.shareKey arguments
    let joined ← join key definition arguments call.id
    let result ← (shielded joined.execution).attempt
    leaveExecution key joined.execution
    let result ← Program.ofExcept result
    pure { result with
      summary := if joined.origin = call.id then result.summary
        else "Reused identical web search: ".toList ++ result.summary }
  else execute definition call.arguments

/-- This is `async with scope()`, when the call has one. -/
def inScope (isolated : Bool) (body : Op ToolResult) : Op ToolResult :=
  if isolated then do
    openScope
    let result ← body.attempt
    closeScope
    Program.ofExcept result
  else body

/-- The amendment admits only recorded pre-approvals of the tenant for this call. -/
def admits (definition : ToolDefinition) (argsHash : Text) (granted : Option ApprovalRecord) : Bool :=
  definition.riskTier = .t2 && match granted with
    | some record => record.scope = approvalScopeTenantPreapproval && record.policyId.isSome &&
        record.argumentsHash = some argsHash
    | none => false

/-- An approval of a write tool without an applicable record becomes a denial. -/
def checkedApproval (definition : ToolDefinition) (argsHash : Text) (decision : ApprovalDecision) :
    ApprovalDecision :=
  if decision.approved && definition.riskTier.isWriteTier &&
      !admits definition argsHash decision.approval then
    .deny approvalReasonRecordInvalid
  else decision

def denialSummary : Option Text → Text
  | some (c :: reason) => "approval denied: ".toList ++ c :: reason
  | _ => "approval denied".toList

/-- This is the audit event that commits an approval before the handler. -/
def intentEvent (call : ToolCall) (argsHash : Text) (ordinal : Nat) (granted : ApprovalRecord) :
    ToolEvent where
  action := .invoked
  outcome := .allowed
  tool := call.name
  callId := call.id
  argsHash := argsHash
  ok := none
  ordinal := ordinal
  approval := some granted.metadata
  invokedEventId := none
  error := none
  deniedReason := none
  execution := none
  durable := true

/-- This is step 5: the bounded execution, its cancellation and its record. -/
def executed (definition : ToolDefinition) (call : ToolCall) (argsHash : Text) (ordinal : Nat)
    (isolated : Bool) (granted : Option ApprovalRecord) (invokedEventId : Option Nat) :
    Op ToolResult := do
  let result ← (inScope isolated (executeShared config definition call)).attempt
  match result with
  | .error .cancelled => do
      let _ ← finalise {
        call, argsHash, ordinal
        result := .failure "tool_cancelled".toList "cancelled".toList, outcome := .error }
      .raises .cancelled
  | .error error => .raises error
  | .ok result =>
      finalise {
        call, argsHash, ordinal, result
        outcome := if result.ok then .allowed else .error
        approval := granted, invokedEventId }

/-- This is step 4 for an approved call: the intent is committed before the execution. -/
def dispatched (definition : ToolDefinition) (call : ToolCall) (argsHash : Text) (ordinal : Nat)
    (isolated : Bool) : Option ApprovalRecord → Op ToolResult
  | none => executed config definition call argsHash ordinal isolated none none
  | some granted => do
      let intent ← askIntent (intentEvent call argsHash ordinal granted)
      executed config definition call argsHash ordinal isolated (some granted) (some intent)

/-- These calls pass the approval gate. -/
def Config.gated (definition : ToolDefinition) (name : Text) : Bool :=
  definition.requiresApproval || definition.riskTier = .t1 ||
    (requiresAutonomyApproval definition && autonomyDecision config.autonomy = .approve) ||
    config.approvalRequiredTools.contains name

/-- This is step 4, the approval seam. -/
def approvedCall (definition : ToolDefinition) (call : ToolCall) (argsHash : Text) (ordinal : Nat)
    (isolated : Bool) : Op ToolResult := do
  if config.gated definition call.name then
    let answer ← askGate
      { callId := call.id, toolName := call.name, riskTier := definition.riskTier
        arguments := call.arguments, argumentsHash := argsHash }
    let approval := checkedApproval definition argsHash answer.asDecision
    if approval.approved then
      dispatched config definition call argsHash ordinal isolated approval.approval
    else
      finalise {
        call, argsHash, ordinal
        result := .failure errorApprovalDenied (denialSummary approval.reason), outcome := .denied
        deniedReason := approval.reason }
  else dispatched config definition call argsHash ordinal isolated none

/-- This is step 3, the autonomy gate. -/
def autonomousCall (definition : ToolDefinition) (call : ToolCall) (argsHash : Text)
    (ordinal : Nat) (isolated : Bool) : Op ToolResult :=
  if requiresAutonomyApproval definition && autonomyDecision config.autonomy = .deny then
    finalise {
      call, argsHash, ordinal
      result := .failure errorAutonomyDenied "autonomy denied".toList, outcome := .denied }
  else approvedCall config definition call argsHash ordinal isolated

/-- This is `ToolRunner._run_governed`. -/
def runGoverned (call : ToolCall) (ordinal : Nat) (isolated : Bool) : Op ToolResult :=
  let argsHash := hashArgs call.arguments
  match config.resolve call.name with
  | none =>
      finalise {
        call, argsHash, ordinal
        result := .failure errorNotFound "unknown tool".toList, outcome := .denied }
  | some definition =>
      if call.name ∉ config.allowed then
        finalise {
          call, argsHash, ordinal
          result := .failure errorNotPermitted "not permitted".toList, outcome := .denied }
      else
        let arguments :=
          config.legacyArguments call.arguments definition.jsonSchema definition.readOnly
        match config.validateArguments arguments definition.jsonSchema with
        | some _ =>
            finalise {
              call, argsHash, ordinal
              result := .failure errorBadArgs
                "invalid arguments; correct the advertised fields".toList
              outcome := .denied }
        | none =>
            let call := { call with arguments }
            autonomousCall config definition call (hashArgs arguments) ordinal isolated

end LumenCopilot.Tools
