import Mathlib

namespace LumenCopilot.Library

variable {σ α : Type}

/-- A run takes steps one after the other, each of them allowed in the state where it is taken. -/
inductive Runs (step : σ → α → Option σ) (allowed : σ → α → Prop) : σ → List α → σ → Prop where
  | nil (s : σ) : Runs step allowed s [] s
  | cons {s middle t : σ} {a : α} {rest : List α} (permitted : allowed s a)
      (steps : step s a = some middle) (continues : Runs step allowed middle rest t) :
      Runs step allowed s (a :: rest) t

variable {step : σ → α → Option σ} {allowed : σ → α → Prop}

variable {s t : σ} {actions : List α}

/-- A property that every allowed step keeps holds at the end of every run. -/
theorem Runs.invariant (runs : Runs step allowed s actions t) (holds : σ → Prop)
    (preserved : ∀ s a t, holds s → allowed s a → step s a = some t → holds t) (initially : holds s)
    : holds t := by
  induction runs with
  | nil s => exact initially
  | cons permitted steps continues ih => exact ih (preserved _ _ _ initially permitted steps)

/-- A step is allowed more narrowly when every taken step is. -/
theorem Runs.narrow {narrower : σ → α → Prop} (runs : Runs step allowed s actions t)
    (narrows : ∀ a ∈ actions, ∀ s, allowed s a → narrower s a) :
    Runs step narrower s actions t := by
  induction runs with
  | nil s => exact Runs.nil s
  | cons permitted steps continues ih =>
      exact Runs.cons (narrows _ List.mem_cons_self _ permitted) steps
        (ih fun a member => narrows a (.tail _ member))

/-- This function computes the end of a run that allows every step. -/
def execute (step : σ → α → Option σ) : σ → List α → Option σ
  | s, [] => some s
  | s, a :: rest => (step s a).bind fun middle => execute step middle rest

/-- This step refuses what the check does not allow. -/
def guarded (step : σ → α → Option σ) (check : σ → α → Bool) (s : σ) (a : α) : Option σ :=
  if check s a then step s a else none

/-- A computed run of checked steps is a run. -/
theorem Runs.of_execute {check : σ → α → Bool}
    (executes : execute (guarded step check) s actions = some t) :
    Runs step (fun s a => check s a = true) s actions t := by
  induction actions generalizing s with
  | nil =>
      obtain rfl := Option.some.inj executes
      exact Runs.nil s
  | cons a rest ih =>
      obtain ⟨middle, steps, continues⟩ := Option.bind_eq_some_iff.mp executes
      unfold guarded at steps
      split at steps
      · next permitted => exact Runs.cons permitted steps (ih continues)
      · contradiction

/-- A computed run of unchecked steps is a run. -/
theorem Runs.of_unchecked (executes : execute step s actions = some t) :
    Runs step (fun _ _ => True) s actions t := by
  induction actions generalizing s with
  | nil =>
      obtain rfl := Option.some.inj executes
      exact Runs.nil s
  | cons a rest ih =>
      obtain ⟨middle, steps, continues⟩ := Option.bind_eq_some_iff.mp executes
      exact Runs.cons trivial steps (ih continues)

end LumenCopilot.Library

namespace LumenCopilot.Library

variable {σ α : Type} {step : σ → α → Option σ}

/-- A state where no step is left. -/
def Stuck (step : σ → α → Option σ) (s : σ) : Prop := ∀ a, step s a = none

theorem Runs.append {allowed : σ → α → Prop} {s middle t : σ} {first second : List α}
    (runs : Runs step allowed s first middle) (continues : Runs step allowed middle second t) :
    Runs step allowed s (first ++ second) t := by
  induction runs with
  | nil s => exact continues
  | cons permitted steps rest ih => exact Runs.cons permitted steps (ih continues)

/-- Every step uses up some work, so that a run is no longer than the work of its first state. -/
theorem Runs.length_le {allowed : σ → α → Prop} {s t : σ} {actions : List α}
    (runs : Runs step allowed s actions t) (work : σ → Nat)
    (decreases : ∀ s a t, step s a = some t → work t < work s) :
    actions.length + work t ≤ work s := by
  induction runs with
  | nil s => simp
  | cons permitted steps continues ih =>
      have less := decreases _ _ _ steps
      simp only [List.length_cons]
      omega

/-- A system that uses up some work with every step reaches a state where no step is left. -/
theorem exists_stuck (work : σ → Nat) (decreases : ∀ s a t, step s a = some t → work t < work s)
    (s : σ) : ∃ actions t, Runs step (fun _ _ => True) s actions t ∧ Stuck step t := by
  induction bound : work s using Nat.strong_induction_on generalizing s with
  | _ bound' ih =>
      by_cases stuck : Stuck step s
      · exact ⟨[], s, Runs.nil s, stuck⟩
      · obtain ⟨a, enabled⟩ := not_forall.mp stuck
        obtain ⟨middle, steps⟩ := Option.ne_none_iff_exists'.mp enabled
        obtain ⟨actions, t, continues, ends⟩ :=
          ih (work middle) (bound ▸ decreases s a middle steps) middle rfl
        exact ⟨a :: actions, t, Runs.cons trivial steps continues, ends⟩

end LumenCopilot.Library
