import Mathlib

namespace LumenCopilot.Library

variable {α : Type} (parent : α → Option α)

/-- This is the node some steps above a node. -/
def ascend : Nat → α → Option α
  | 0, node => some node
  | steps + 1, node => (parent node).bind (ascend steps)

/-- A node is above another when some steps lead up to it. -/
def Above (node upper : α) : Prop := ∃ steps, ascend parent (steps + 1) node = some upper

/-- The chain holds the nodes above a node, nearest first. -/
def Climbs (node : α) (chain : List α) : Prop :=
  ∀ steps < chain.length, ascend parent (steps + 1) node = chain[steps]?

variable {parent}

theorem ascend_add (first second : Nat) (node : α) :
    ascend parent (first + second) node = (ascend parent first node).bind (ascend parent second) := by
  induction first generalizing node with
  | zero => rw [Nat.zero_add, ascend, Option.bind_some]
  | succ first ih =>
      rw [Nat.succ_add, ascend, ascend, Option.bind_assoc]
      exact congrArg _ (funext ih)

theorem ascend_succ (steps : Nat) (node : α) :
    ascend parent (steps + 1) node = (ascend parent steps node).bind parent := by
  rw [ascend_add]
  apply congrArg
  funext upper
  simp [ascend]

variable {node upper : α} {low high : Nat}

/-- A node that is reached again is above itself. -/
theorem above_self_of_again (before : low < high) (first : ascend parent low node = some upper)
    (again : ascend parent high node = some upper) : Above parent upper upper := by
  refine ⟨high - low - 1, ?_⟩
  rw [show high = low + (high - low - 1 + 1) by omega, ascend_add, first] at again
  exact again

theorem climbs_nil (node : α) : Climbs parent node [] := by
  intro steps short
  exact absurd short (Nat.not_lt_zero steps)

variable {last : α} {chain : List α}

/-- A chain grows by the parent of its last node. -/
theorem Climbs.concat {next : α} (climbs : Climbs parent node chain)
    (reached : ascend parent chain.length node = some last) (up : parent last = some next) :
    Climbs parent node (chain ++ [next]) ∧
      ascend parent (chain ++ [next]).length node = some next := by
  have top : ascend parent (chain.length + 1) node = some next := by
    rw [ascend_succ, reached]
    exact up
  constructor
  · intro steps short
    rw [List.length_append, List.length_singleton] at short
    by_cases inside : steps < chain.length
    · rw [List.getElem?_append_left inside]
      exact climbs steps inside
    · obtain rfl : steps = chain.length := by omega
      rw [List.getElem?_concat_length]
      exact top
  · rw [List.length_append, List.length_singleton]
    exact top

theorem Climbs.above (climbs : Climbs parent node chain) (member : upper ∈ chain) :
    Above parent node upper := by
  obtain ⟨steps, short, found⟩ := List.mem_iff_getElem.mp member
  refine ⟨steps, ?_⟩
  rw [climbs steps short, ← found]
  exact List.getElem?_eq_getElem short

/-- Beyond a node without a parent there is nothing. -/
theorem ascend_none (beyond : ascend parent low node = none) (within : low ≤ high) :
    ascend parent high node = none := by
  rw [show high = low + (high - low) by omega, ascend_add, beyond]
  rfl

/-- A chain that ends at a root holds every node above its start. -/
theorem Climbs.mem_iff (climbs : Climbs parent node chain)
    (reached : ascend parent chain.length node = some last) (root : parent last = none) :
    upper ∈ chain ↔ Above parent node upper := by
  constructor
  · exact climbs.above
  · intro ⟨steps, found⟩
    have beyond : ascend parent (chain.length + 1) node = none := by
      rw [ascend_succ, reached]
      exact root
    have short : steps < chain.length := by
      by_contra long
      rw [ascend_none beyond (by omega)] at found
      contradiction
    rw [climbs steps short] at found
    exact List.mem_of_getElem? found

end LumenCopilot.Library
