import Mathlib

namespace LumenCopilot.Library

variable {α β γ : Type} [AddCommMonoid γ] [LinearOrder γ]

/-- A cell holds the best score of the items before it and the step that reaches the score. -/
abbrev Cell (γ : Type) : Type := γ ×ₗ Nat

def Cell.score (cell : Cell γ) : γ := (ofLex cell).1

def Cell.step (cell : Cell γ) : Nat := (ofLex cell).2

/-- The step 0 leaves out the item of the row, the step 1 that of the column, and the step 2 pairs
them. The greatest choice wins, and a tie goes to the later step. -/
def bestChoice (up left : γ) (paired : Option γ) : Cell γ :=
  let skipped := max (toLex (up, 0)) (toLex (left, 1))
  match paired with
  | none => skipped
  | some score => max skipped (toLex (score, 2))

/-- These are the cells of a row behind the cell on the left. -/
def fillRow (gain : β → Option γ) : γ → γ → List γ → List β → List (Cell γ)
  | diagonal, left, up :: above, item :: items =>
      let cell := bestChoice up left ((gain item).map (diagonal + ·))
      cell :: fillRow gain up cell.score above items
  | _, _, _, _ => []

/-- This is the row below a row of the table. -/
def nextRow (gain : β → Option γ) (second : List β) (above : List (Cell γ)) : List (Cell γ) :=
  match above.map Cell.score with
  | [] => []
  | diagonal :: scores => toLex (0, 0) :: fillRow gain diagonal 0 scores second

/-- These are the rows of the table from a row on. -/
def rowsFrom (gain : α → β → Option γ) (second : List β) :
    List (Cell γ) → List α → List (List (Cell γ))
  | above, [] => [above]
  | above, item :: items => above :: rowsFrom gain second (nextRow (gain item) second above) items

/-- The table has a row and a column more than the lists have items. -/
def alignmentTable (gain : α → β → Option γ) (first : List α) (second : List β) :
    List (List (Cell γ)) :=
  rowsFrom gain second (List.replicate (second.length + 1) (toLex (0, 0))) first

def stepAt (table : List (List (Cell γ))) (row column : Nat) : Nat :=
  ((table[row]?.bind fun cells => cells[column]?).map Cell.step).getD 0

/-- This function follows the steps from a cell; the items before the cell are in reverse, and each
step takes one unit of fuel. -/
def traceback (table : List (List (Cell γ))) : Nat → List α → List β → List (α × β)
  | fuel + 1, x :: xs, y :: ys =>
      match stepAt table (xs.length + 1) (ys.length + 1) with
      | 2 => traceback table fuel xs ys ++ [(x, y)]
      | 1 => traceback table fuel (x :: xs) ys
      | _ => traceback table fuel xs (y :: ys)
  | _, _, _ => []

/-- This is the alignment of two lists whose pairs have the greatest sum of gains. -/
def alignItems (gain : α → β → Option γ) (first : List α) (second : List β) : List (α × β) :=
  traceback (alignmentTable gain first second) (first.length + second.length) first.reverse
    second.reverse

end LumenCopilot.Library
