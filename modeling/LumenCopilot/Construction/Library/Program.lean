import Mathlib

namespace LumenCopilot.Library

variable {ρ : Type}

/-- These are the rows after the writes of a transaction, each of which replaces the row at a place. -/
def applyWrites (rows : List ρ) (writes : List (Nat × ρ)) : List ρ :=
  writes.foldl (fun rows write => rows.set write.1 write.2) rows

/-- A transaction has written the row at the place. -/
def writesAt (place : Nat) (writes : List (Nat × ρ)) : Bool := writes.any fun write => write.1 = place

end LumenCopilot.Library

namespace LumenCopilot.Library

variable {Ask : Type} {Answer : Ask → Type} {ε α β : Type}

/-- A program returns, raises an error, or asks its environment and goes on with the answer. -/
inductive Program (Ask : Type) (Answer : Ask → Type) (ε α : Type) : Type where
  | returns (value : α)
  | raises (error : ε)
  | asks (question : Ask) (next : Answer question → Program Ask Answer ε α)

def Program.bind : Program Ask Answer ε α → (α → Program Ask Answer ε β) →
    Program Ask Answer ε β
  | .returns value, next => next value
  | .raises error, _ => .raises error
  | .asks question rest, next => .asks question fun answer => (rest answer).bind next

instance : Monad (Program Ask Answer ε) where
  pure := .returns
  bind := .bind

/-- The handler answers an error that it knows; another error passes. -/
def Program.catching : Program Ask Answer ε α → (ε → Option (Program Ask Answer ε α)) →
    Program Ask Answer ε α
  | .returns value, _ => .returns value
  | .raises error, handler => (handler error).getD (.raises error)
  | .asks question rest, handler => .asks question fun answer => (rest answer).catching handler

/-- The program returns its error as a value. -/
def Program.attempt : Program Ask Answer ε α → Program Ask Answer ε (Except ε α)
  | .returns value => .returns (.ok value)
  | .raises error => .returns (.error error)
  | .asks question rest => .asks question fun answer => (rest answer).attempt

/-- A result is returned or raised. -/
def Program.ofExcept : Except ε α → Program Ask Answer ε α
  | .ok value => .returns value
  | .error error => .raises error

end LumenCopilot.Library

namespace LumenCopilot.Library

variable {Ask : Type} {Answer : Ask → Type} {ε α : Type}

/-- An event is a question with its answer. -/
abbrev Event (Ask : Type) (Answer : Ask → Type) : Type := Σ question : Ask, Answer question

/-- The program has asked the questions of the trace, got these answers and goes on as stated. -/
inductive Program.Follows (program : Program Ask Answer ε α) :
    List (Event Ask Answer) → Program Ask Answer ε α → Prop where
  | start : program.Follows [] program
  | answered {trace : List (Event Ask Answer)} {question : Ask}
      {next : Answer question → Program Ask Answer ε α}
      (follows : program.Follows trace (.asks question next)) (answer : Answer question) :
      program.Follows (trace ++ [⟨question, answer⟩]) (next answer)

end LumenCopilot.Library

namespace LumenCopilot.Library

/-- A program changes a state and either returns a value or raises an error. -/
abbrev Effect (σ ε : Type) : Type → Type := ExceptT ε (StateM σ)

variable {σ ε α : Type}

/-- This function runs a program from a state. -/
def Effect.perform (program : Effect σ ε α) (s : σ) : Except ε α × σ := program.run.run s

/-- This program is one transition of the state. -/
def transition (move : σ → Except ε α × σ) : Effect σ ε α := ExceptT.mk move

/-- This program returns a view of the state. -/
def observe (view : σ → α) : Effect σ ε α := transition fun s => (.ok (view s), s)

/-- This program changes the state. -/
def update (change : σ → σ) : Effect σ ε Unit := transition fun s => (.ok (), change s)

def raise (error : ε) : Effect σ ε α := transition fun s => (.error error, s)

/-- The program runs only under the condition. -/
def doWhen (condition : Bool) (program : Effect σ ε Unit) : Effect σ ε Unit :=
  if condition then program else pure ()

/-- The handler answers an error that it knows; another error passes. -/
def catching (program : Effect σ ε α) (handler : ε → Option (Effect σ ε α)) : Effect σ ε α :=
  tryCatch program fun error => (handler error).getD (raise error)

/-- The cleanup runs after the program on both exits, and its own error replaces the exit. -/
def ensuring (program : Effect σ ε α) (cleanup : Effect σ ε Unit) : Effect σ ε α := do
  let value ← tryCatch program fun error => do
    cleanup
    raise error
  cleanup
  return value

end LumenCopilot.Library
