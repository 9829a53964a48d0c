import Mathlib

namespace LumenCopilot.Library

/-- A reader that follows continuations ends with its pages, with an error or without fuel. -/
inductive Followed (ε π : Type) where
  | finished (pages : List π)
  | failed (error : ε)
  | unfinished
  deriving DecidableEq

variable {κ ε π : Type}

/-- This function fetches a page and follows its continuation; each page takes one unit of fuel. -/
def follow (fetch : κ → Except ε (π × Option κ)) : Nat → κ → Followed ε π
  | 0, _ => .unfinished
  | fuel + 1, place =>
      match fetch place with
      | .error error => .failed error
      | .ok (page, none) => .finished [page]
      | .ok (page, some next) =>
          match follow fetch fuel next with
          | .finished pages => .finished (page :: pages)
          | other => other

end LumenCopilot.Library

namespace LumenCopilot.Library

variable {κ ι : Type} [LinearOrder κ] [LinearOrder ι]

/-- Rows are ordered by their key in one direction, those without a key last, and then by their
identifier. -/
def Ahead (descending : Bool) (first second : Option κ × ι) : Prop :=
  match first.1, second.1 with
  | some a, some b => (if descending then b < a else a < b) ∨ a = b ∧ first.2 < second.2
  | some _, none => True
  | none, some _ => False
  | none, none => first.2 < second.2

instance (descending : Bool) (first second : Option κ × ι) : Decidable (Ahead descending first second) := by
  unfold Ahead
  split <;> infer_instance

/-- This is the condition of a statement that resumes behind a position; a comparison with a null
does not hold. -/
def resumes (descending : Bool) (position : Option κ) (id : ι) (row : Option κ × ι) : Bool :=
  match position with
  | none => row.1.isNone && id < row.2
  | some position =>
      row.1.any (fun key => if descending then key < position else position < key) ||
        (row.1 == some position && id < row.2) || row.1.isNone

end LumenCopilot.Library
