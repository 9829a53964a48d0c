import LumenCopilot.Construction.Tools.System
import LumenCopilot.Proof.Library.Program

namespace LumenCopilot.Tools

open Python Library

theorem ask_within {allowed : Ask → Prop} (question : Ask) (holds : allowed question) :
    (ask question).Within allowed :=
  ⟨holds, fun _ => trivial⟩

variable {allowed : Ask → Prop}

theorem openScope_within (holds : allowed .openScope) : openScope.Within allowed :=
  ⟨holds, within_ofExcept⟩

theorem closeScope_within (holds : allowed .closeScope) : closeScope.Within allowed :=
  ⟨holds, within_ofExcept⟩

theorem join_within (key : Text) (definition : ToolDefinition) (arguments : Json) (callId : Text)
    (holds : allowed (.join key definition arguments callId)) :
    (join key definition arguments callId).Within allowed :=
  ⟨holds, within_ofExcept⟩

theorem shielded_within (execution : Nat) (holds : allowed (.shielded execution)) :
    (shielded execution).Within allowed :=
  ⟨holds, within_ofExcept⟩

theorem turn_within (ordinal : Nat) (holds : allowed (.turn ordinal)) :
    (turn ordinal).Within allowed :=
  ⟨holds, within_ofExcept⟩

theorem emit_within (event : ToolEvent) (holds : allowed (.emit event)) :
    (emit event).Within allowed :=
  ⟨holds, fun answer => within_ofExcept (answer.map fun _ => ())⟩

theorem record_within (row : ToolInvocation) (holds : allowed (.record row)) :
    (record row).Within allowed :=
  ⟨holds, within_ofExcept⟩

theorem forget_within (key : Text) (execution : Nat) (holds : allowed (.forget key execution)) :
    (forget key execution).Within allowed :=
  ⟨holds, within_ofExcept⟩

theorem reapQuietly_within (execution : Nat) (holds : allowed (.reap execution)) :
    (reapQuietly execution).Within allowed := by
  have reaps : (reap execution).Within allowed := ⟨holds, within_ofExcept⟩
  refine reaps.catching fun error answer answers => ?_
  split at answers
  · obtain rfl := Option.some.inj answers
    trivial
  · contradiction

theorem leaveExecution_within (key : Text) (execution : Nat) (leaves : allowed (.leave execution))
    (reaps : allowed (.reap execution)) (forgets : allowed (.forget key execution)) :
    (leaveExecution key execution).Within allowed := by
  refine (ask_within _ leaves).bind fun last => ?_
  cases last with
  | false => exact forget_within key execution forgets
  | true =>
      exact (reapQuietly_within execution reaps).bind fun _ => forget_within key execution forgets

/-- This question neither starts a handler nor joins a shared task. -/
def Ask.idle : Ask → Prop
  | .starts _ _ => False
  | .join _ _ _ _ => False
  | _ => True

theorem Finalisation.writes_idle (final : Finalisation) (origin : Option Text) :
    (final.writes origin).Within Ask.idle := by
  have rest : (do emit (final.event .result origin); record final.row : Op Unit).Within Ask.idle :=
    (emit_within _ trivial).bind fun _ => record_within _ trivial
  unfold Finalisation.writes
  cases final.invokedEventId with
  | none => exact (emit_within _ trivial).bind fun _ => rest
  | some id => exact rest

theorem finalise_idle (final : Finalisation) : (finalise final).Within Ask.idle := by
  refine (ask_within _ trivial).bind fun origin => ?_
  refine (turn_within _ trivial).bind fun _ => ?_
  refine (final.writes_idle origin).attempt.bind fun written => ?_
  refine (ask_within _ trivial).bind fun _ => ?_
  exact (within_ofExcept written).bind fun _ => trivial

/-- This question belongs to the execution of a call. -/
def Ask.executing : Ask → Prop
  | .gate _ => False
  | .intent _ => False
  | .webOrigin _ => False
  | .turn _ => False
  | .emit _ => False
  | .record _ => False
  | .advance => False
  | _ => True

theorem executeShared_executing (config : Config) (definition : ToolDefinition) (call : ToolCall) :
    (executeShared config definition call).Within Ask.executing := by
  unfold executeShared
  split
  · refine (join_within _ _ _ _ trivial).bind fun joined => ?_
    refine (shielded_within _ trivial).attempt.bind fun result => ?_
    refine (leaveExecution_within _ _ trivial trivial trivial).bind fun _ => ?_
    exact (within_ofExcept result).bind fun _ => trivial
  · refine (ask_within _ trivial).bind fun _ => ?_
    exact (ask_within _ trivial).bind fun finished => within_ofExcept finished.outcome

theorem inScope_executing {body : Op ToolResult} (isolated : Bool)
    (within : body.Within Ask.executing) : (inScope isolated body).Within Ask.executing := by
  unfold inScope
  split
  · refine (openScope_within trivial).bind fun _ => within.attempt.bind fun result => ?_
    exact (closeScope_within trivial).bind fun _ => within_ofExcept result
  · exact within

end LumenCopilot.Tools
