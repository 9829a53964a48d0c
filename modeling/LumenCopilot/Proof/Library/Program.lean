import LumenCopilot.Construction.Library.Program
import Mathlib

namespace LumenCopilot.Library

variable {Ask : Type} {Answer : Ask → Type} {ε α β σ : Type}

/-- A contract says which questions are permitted and how an answer may move the view. -/
structure Contract (Ask : Type) (Answer : Ask → Type) (σ : Type) where
  permits : σ → Ask → Prop
  moves : σ → (question : Ask) → Answer question → σ → Prop

variable {contract : Contract Ask Answer σ}

/-- From this view the program asks permitted questions only and ends as stated. -/
def Program.Meets (contract : Contract Ask Answer σ) :
    Program Ask Answer ε α → (Except ε α → σ → Prop) → σ → Prop
  | .returns value, ends, s => ends (.ok value) s
  | .raises error, ends, s => ends (.error error) s
  | .asks question next, ends, s => contract.permits s question ∧
      ∀ answer t, contract.moves s question answer t → (next answer).Meets contract ends t

variable {ends : Except ε α → σ → Prop} {s : σ}

@[simp]
theorem meets_returns (value : α) :
    (Program.returns value : Program Ask Answer ε α).Meets contract ends s ↔
      ends (.ok value) s :=
  Iff.rfl

@[simp]
theorem meets_pure (value : α) :
    (pure value : Program Ask Answer ε α).Meets contract ends s ↔ ends (.ok value) s :=
  Iff.rfl

@[simp]
theorem meets_raises (error : ε) :
    (Program.raises error : Program Ask Answer ε α).Meets contract ends s ↔
      ends (.error error) s :=
  Iff.rfl

@[simp]
theorem meets_asks (question : Ask) (next : Answer question → Program Ask Answer ε α) :
    (Program.asks question next).Meets contract ends s ↔ contract.permits s question ∧
      ∀ answer t, contract.moves s question answer t → (next answer).Meets contract ends t :=
  Iff.rfl

@[simp]
theorem meets_ofExcept (result : Except ε α) :
    (Program.ofExcept result : Program Ask Answer ε α).Meets contract ends s ↔ ends result s := by
  cases result <;> rfl

@[simp]
theorem meets_ite (condition : Prop) [Decidable condition] (first second : Program Ask Answer ε α) :
    (if condition then first else second).Meets contract ends s ↔
      if condition then first.Meets contract ends s else second.Meets contract ends s := by
  by_cases holds : condition <;> simp [holds]

/-- The rule of consequence. -/
theorem Program.Meets.mono {program : Program Ask Answer ε α} {ends' : Except ε α → σ → Prop}
    (meets : program.Meets contract ends s) (weaker : ∀ result t, ends result t → ends' result t) :
    program.Meets contract ends' s := by
  induction program generalizing s with
  | returns value => exact weaker _ _ meets
  | raises error => exact weaker _ _ meets
  | asks question next ih =>
      obtain ⟨permitted, later⟩ := meets
      exact ⟨permitted, fun answer t moved => ih answer (later answer t moved)⟩

/-- Sequences nest to the right. -/
theorem Program.bind_assoc {γ : Type} (program : Program Ask Answer ε α)
    (next : α → Program Ask Answer ε β) (last : β → Program Ask Answer ε γ) :
    (program >>= next) >>= last = program >>= fun value => next value >>= last := by
  induction program with
  | returns value => rfl
  | raises error => rfl
  | asks question rest ih => exact congrArg (Program.asks question) (funext ih)

/-- A sequence ends like its second program after its first. -/
theorem meets_bind (program : Program Ask Answer ε β) (next : β → Program Ask Answer ε α) :
    (program >>= next).Meets contract ends s ↔
      program.Meets contract (fun result t =>
        match result with
        | .ok value => (next value).Meets contract ends t
        | .error error => ends (.error error) t) s := by
  induction program generalizing s with
  | returns value => rfl
  | raises error => rfl
  | asks question rest ih =>
      apply and_congr_right
      intro permitted
      exact forall_congr' fun answer => forall_congr' fun t => forall_congr' fun moved => ih answer

/-- A handler answers the errors that it knows. -/
theorem meets_catching (program : Program Ask Answer ε α)
    (handler : ε → Option (Program Ask Answer ε α)) :
    (program.catching handler).Meets contract ends s ↔
      program.Meets contract (fun result t =>
        match result with
        | .ok value => ends (.ok value) t
        | .error error =>
            match handler error with
            | some answer => answer.Meets contract ends t
            | none => ends (.error error) t) s := by
  induction program generalizing s with
  | returns value => rfl
  | raises error =>
      simp only [Program.catching, meets_raises]
      cases handler error <;> rfl
  | asks question rest ih =>
      apply and_congr_right
      intro permitted
      exact forall_congr' fun answer => forall_congr' fun t => forall_congr' fun moved => ih answer

/-- An attempt returns both ends. -/
@[simp]
theorem meets_attempt (program : Program Ask Answer ε α) {ends : Except ε (Except ε α) → σ → Prop} :
    program.attempt.Meets contract ends s ↔
      program.Meets contract (fun result => ends (.ok result)) s := by
  induction program generalizing s with
  | returns value => rfl
  | raises error => rfl
  | asks question rest ih =>
      apply and_congr_right
      intro permitted
      exact forall_congr' fun answer => forall_congr' fun t => forall_congr' fun moved => ih answer

/-- A specification of the first program hands its ends to the second one. -/
theorem Program.Meets.then {program : Program Ask Answer ε β}
    {next : β → Program Ask Answer ε α} {middle : Except ε β → σ → Prop}
    (meets : program.Meets contract middle s)
    (raised : ∀ error t, middle (.error error) t → ends (.error error) t)
    (returned : ∀ value t, middle (.ok value) t → (next value).Meets contract ends t) :
    (program >>= next).Meets contract ends s := by
  rw [meets_bind]
  refine meets.mono fun result t reached => ?_
  cases result with
  | ok value => exact returned value t reached
  | error error => exact raised error t reached

end LumenCopilot.Library

namespace LumenCopilot.Library

variable {Ask : Type} {Answer : Ask → Type} {ε α : Type}

/-- The contract of traces permits a question by what was asked and answered before it. -/
def tracing (permits : List (Event Ask Answer) → Ask → Prop) :
    Contract Ask Answer (List (Event Ask Answer)) where
  permits := permits
  moves trace question answer after := after = trace ++ [⟨question, answer⟩]

variable {permits : List (Event Ask Answer) → Ask → Prop}
  {ends : Except ε α → List (Event Ask Answer) → Prop} {program rest : Program Ask Answer ε α}
  {trace : List (Event Ask Answer)}

@[simp]
theorem tracing_permits (question : Ask) :
    (@tracing _ Answer permits).permits trace question ↔ permits trace question :=
  Iff.rfl

@[simp]
theorem tracing_moves (question : Ask) (answer : Answer question)
    (after : List (Event Ask Answer)) :
    (tracing permits).moves trace question answer after ↔
      after = trace ++ [⟨question, answer⟩] :=
  Iff.rfl

/-- A followed program keeps its contract from the trace that it has made. -/
theorem Program.Meets.follows (meets : program.Meets (tracing permits) ends [])
    (follows : program.Follows trace rest) : rest.Meets (tracing permits) ends trace := by
  induction follows with
  | start => exact meets
  | answered follows answer ih => exact ih.2 answer _ rfl

/-- Every question of the trace was permitted by the trace before it. -/
theorem Program.Meets.asked (meets : program.Meets (tracing permits) ends [])
    (follows : program.Follows trace rest) (earlier later : List (Event Ask Answer))
    (event : Event Ask Answer) (splits : trace = earlier ++ event :: later) :
    permits earlier event.1 := by
  induction follows generalizing later with
  | start => simp at splits
  | @answered earlierTrace question next follows answer ih =>
      rcases List.eq_nil_or_concat later with rfl | ⟨body, last, rfl⟩
      · obtain ⟨rfl, same⟩ := List.append_inj' splits rfl
        obtain rfl := List.singleton_inj.mp same
        exact (meets.follows follows).1
      · rw [List.concat_eq_append, ← List.cons_append, ← List.append_assoc] at splits
        exact ih _ (List.append_inj' splits rfl).1

/-- A program that has ended meets its ends. -/
theorem Program.Meets.returned {value : α} (meets : program.Meets (tracing permits) ends [])
    (follows : program.Follows trace (.returns value)) : ends (.ok value) trace :=
  meets.follows follows

theorem Program.Meets.raised {error : ε} (meets : program.Meets (tracing permits) ends [])
    (follows : program.Follows trace (.raises error)) : ends (.error error) trace :=
  meets.follows follows

end LumenCopilot.Library

namespace LumenCopilot.Library

variable {Ask : Type} {Answer : Ask → Type} {ε α β σ : Type} {allowed : Ask → Prop}

/-- The program asks allowed questions only, whatever the answers are. -/
def Program.Within (allowed : Ask → Prop) : Program Ask Answer ε α → Prop
  | .returns _ => True
  | .raises _ => True
  | .asks question next => allowed question ∧ ∀ answer, (next answer).Within allowed

@[simp]
theorem within_returns (value : α) :
    (Program.returns value : Program Ask Answer ε α).Within allowed :=
  trivial

@[simp]
theorem within_pure (value : α) : (pure value : Program Ask Answer ε α).Within allowed :=
  trivial

@[simp]
theorem within_raises (error : ε) :
    (Program.raises error : Program Ask Answer ε α).Within allowed :=
  trivial

@[simp]
theorem within_asks (question : Ask) (next : Answer question → Program Ask Answer ε α) :
    (Program.asks question next).Within allowed ↔
      allowed question ∧ ∀ answer, (next answer).Within allowed :=
  Iff.rfl

@[simp]
theorem within_ofExcept (result : Except ε α) :
    (Program.ofExcept result : Program Ask Answer ε α).Within allowed := by
  cases result <;> trivial

variable {program : Program Ask Answer ε α}

/-- A sequence of allowed programs is allowed. -/
theorem Program.Within.bind {next : α → Program Ask Answer ε β} (first : program.Within allowed)
    (second : ∀ value, (next value).Within allowed) : (program >>= next).Within allowed := by
  induction program with
  | returns value => exact second value
  | raises error => trivial
  | asks question rest ih => exact ⟨first.1, fun answer => ih answer (first.2 answer)⟩

theorem Program.Within.attempt (within : program.Within allowed) :
    program.attempt.Within allowed := by
  induction program with
  | returns value => trivial
  | raises error => trivial
  | asks question rest ih => exact ⟨within.1, fun answer => ih answer (within.2 answer)⟩

theorem Program.Within.catching {handler : ε → Option (Program Ask Answer ε α)}
    (within : program.Within allowed)
    (answered : ∀ error answer, handler error = some answer → answer.Within allowed) :
    (program.catching handler).Within allowed := by
  induction program with
  | returns value => trivial
  | raises error =>
      unfold Program.catching
      cases found : handler error with
      | none => trivial
      | some answer => exact answered error answer found
  | asks question rest ih => exact ⟨within.1, fun answer => ih answer (within.2 answer)⟩

/-- A program keeps what every permitted and allowed question keeps. -/
theorem Program.Within.keeps {contract : Contract Ask Answer σ} (within : program.Within allowed)
    (holds : σ → Prop)
    (permitted : ∀ s question, holds s → allowed question → contract.permits s question)
    (kept : ∀ s question answer t, holds s → allowed question →
      contract.moves s question answer t → holds t) {s : σ} (initially : holds s) :
    program.Meets contract (fun _ t => holds t) s := by
  induction program generalizing s with
  | returns value => exact initially
  | raises error => exact initially
  | asks question rest ih =>
      refine ⟨permitted s question initially within.1, fun answer t moved => ?_⟩
      exact ih answer (within.2 answer) (kept s question answer t initially within.1 moved)

end LumenCopilot.Library
