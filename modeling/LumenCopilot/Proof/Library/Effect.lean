import LumenCopilot.Construction.Library.Program
import Mathlib

namespace LumenCopilot.Library

variable {ρ : Type} {rows : List ρ} {writes : List (Nat × ρ)} {place : Nat} {row : ρ}

theorem mem_of_writesAt (written : writesAt place writes = true) : ∃ row, (place, row) ∈ writes := by
  obtain ⟨write, member, same⟩ := List.any_eq_true.mp written
  obtain rfl := of_decide_eq_true same
  exact ⟨write.2, member⟩

theorem writesAt_of_mem (member : (place, row) ∈ writes) : writesAt place writes = true :=
  List.any_eq_true.mpr ⟨_, member, decide_eq_true rfl⟩

/-- A row that is not written stays. -/
theorem applyWrites_other (unwritten : writesAt place writes = false) :
    (applyWrites rows writes)[place]? = rows[place]? := by
  induction writes generalizing rows with
  | nil => rfl
  | cons write rest ih =>
      unfold writesAt at unwritten
      rw [List.any_cons, Bool.or_eq_false_iff, decide_eq_false_iff_not] at unwritten
      refine (ih unwritten.2).trans ?_
      exact List.getElem?_set_ne unwritten.1

/-- A row afterwards is an old one that is not written or one of the writes at its place. -/
theorem applyWrites_cases (found : (applyWrites rows writes)[place]? = some row) :
    writesAt place writes = false ∧ rows[place]? = some row ∨ (place, row) ∈ writes := by
  induction writes generalizing rows with
  | nil => exact Or.inl ⟨rfl, found⟩
  | cons write rest ih =>
      rcases ih found with ⟨unwritten, held⟩ | member
      · by_cases same : write.1 = place
        · subst same
          have within : write.1 < rows.length := by
            have bound := (List.getElem?_eq_some_iff.mp held).1
            rwa [List.length_set] at bound
          rw [List.getElem?_set_self within] at held
          obtain rfl := Option.some.inj held
          exact Or.inr List.mem_cons_self
        · rw [List.getElem?_set_ne same] at held
          refine Or.inl ⟨?_, held⟩
          unfold writesAt at unwritten ⊢
          rw [List.any_cons, unwritten, decide_eq_false same, Bool.or_false]
      · exact Or.inr (.tail _ member)

end LumenCopilot.Library

namespace LumenCopilot.Library

variable {σ ε α β : Type}

/-- From this state the program returns with the one property or raises with the other. -/
def Ends (program : Effect σ ε α) (returned : α → σ → Prop) (raised : ε → σ → Prop) (s : σ) : Prop :=
  match program.perform s with
  | (.ok value, t) => returned value t
  | (.error error, t) => raised error t

variable {returned : α → σ → Prop} {raised : ε → σ → Prop} {s : σ}

@[simp]
theorem ends_transition (move : σ → Except ε α × σ) :
    Ends (transition move) returned raised s ↔
      match move s with
      | (.ok value, t) => returned value t
      | (.error error, t) => raised error t :=
  Iff.rfl

@[simp]
theorem ends_pure (value : α) : Ends (pure value : Effect σ ε α) returned raised s ↔ returned value s :=
  Iff.rfl

@[simp]
theorem ends_raise (error : ε) : Ends (raise error : Effect σ ε α) returned raised s ↔ raised error s :=
  Iff.rfl

@[simp]
theorem ends_observe (view : σ → α) :
    Ends (observe view : Effect σ ε α) returned raised s ↔ returned (view s) s :=
  Iff.rfl

variable {done : Unit → σ → Prop}

@[simp]
theorem ends_update (change : σ → σ) :
    Ends (update change : Effect σ ε Unit) done raised s ↔ done () (change s) :=
  Iff.rfl

theorem perform_bind (program : Effect σ ε β) (next : β → Effect σ ε α) (s : σ) :
    (program >>= next).perform s =
      match program.perform s with
      | (.ok value, t) => (next value).perform t
      | (.error error, t) => (.error error, t) := by
  simp only [Effect.perform, bind, ExceptT.bind, ExceptT.mk, ExceptT.run, StateT.bind, StateT.run]
  cases program s with
  | mk result t => cases result <;> rfl

theorem perform_tryCatch (program : Effect σ ε α) (handler : ε → Effect σ ε α) (s : σ) :
    (tryCatch program handler).perform s =
      match program.perform s with
      | (.ok value, t) => (.ok value, t)
      | (.error error, t) => (handler error).perform t := by
  simp only [Effect.perform, tryCatch, tryCatchThe, MonadExceptOf.tryCatch, ExceptT.tryCatch,
    ExceptT.mk, ExceptT.run, bind, StateT.bind, StateT.run]
  cases program s with
  | mk result t => cases result <;> rfl

/-- A sequence ends like its second program after its first. -/
@[simp]
theorem ends_bind (program : Effect σ ε β) (next : β → Effect σ ε α) :
    Ends (program >>= next) returned raised s ↔
      Ends program (fun value t => Ends (next value) returned raised t) raised s := by
  unfold Ends
  rw [perform_bind]
  cases program.perform s with
  | mk result t => cases result <;> rfl

theorem ends_tryCatch (program : Effect σ ε α) (handler : ε → Effect σ ε α) :
    Ends (tryCatch program handler) returned raised s ↔
      Ends program returned (fun error t => Ends (handler error) returned raised t) s := by
  unfold Ends
  rw [perform_tryCatch]
  cases program.perform s with
  | mk result t => cases result <;> rfl

variable {returned' : α → σ → Prop} {raised' : ε → σ → Prop}

/-- The rule of consequence. -/
theorem Ends.mono {program : Effect σ ε α} (ends : Ends program returned raised s)
    (returns : ∀ value t, returned value t → returned' value t)
    (raises : ∀ error t, raised error t → raised' error t) : Ends program returned' raised' s := by
  unfold Ends at ends ⊢
  cases performed : program.perform s with
  | mk result t =>
      rw [performed] at ends
      cases result with
      | ok value => exact returns value t ends
      | error error => exact raises error t ends

theorem Ends.trivial (program : Effect σ ε α) (s : σ) :
    Ends program (fun _ _ => True) (fun _ _ => True) s := by
  unfold Ends
  split <;> exact True.intro

/-- Two specifications of one program hold together. -/
theorem Ends.and {program : Effect σ ε α} (first : Ends program returned raised s)
    (second : Ends program returned' raised' s) :
    Ends program (fun value t => returned value t ∧ returned' value t)
      (fun error t => raised error t ∧ raised' error t) s := by
  unfold Ends at first second ⊢
  cases performed : program.perform s with
  | mk result t =>
      rw [performed] at first second
      cases result with
      | ok value => exact ⟨first, second⟩
      | error error => exact ⟨first, second⟩

@[simp]
theorem ends_doWhen (condition : Bool) (program : Effect σ ε Unit) :
    Ends (doWhen condition program) done raised s ↔
      (if condition then Ends program done raised s else done () s) := by
  unfold doWhen
  cases condition <;> rfl

@[simp]
theorem ends_ite (condition : Prop) [Decidable condition] (first second : Effect σ ε α) :
    Ends (if condition then first else second) returned raised s ↔
      if condition then Ends first returned raised s else Ends second returned raised s := by
  by_cases holds : condition <;> simp [holds]

/-- A handler answers the errors that it knows. -/
theorem ends_catching (program : Effect σ ε α) (handler : ε → Option (Effect σ ε α)) :
    Ends (catching program handler) returned raised s ↔
      Ends program returned (fun error t =>
        match handler error with
        | some answer => Ends answer returned raised t
        | none => raised error t) s := by
  unfold catching
  rw [ends_tryCatch]
  have same : (fun error t => Ends ((handler error).getD (raise error)) returned raised t) =
      fun error t =>
        match handler error with
        | some answer => Ends answer returned raised t
        | none => raised error t := by
    funext error t
    cases handler error <;> rfl
  rw [same]

/-- A cleanup runs on both exits. -/
theorem ends_ensuring (program : Effect σ ε α) (cleanup : Effect σ ε Unit) :
    Ends (ensuring program cleanup) returned raised s ↔
      Ends program (fun value t => Ends cleanup (fun _ u => returned value u) raised t)
        (fun error t => Ends cleanup (fun _ u => raised error u) raised t) s := by
  unfold ensuring
  simp only [ends_bind, ends_tryCatch, ends_pure, ends_raise]

/-- The program keeps the property on both exits. -/
def Keeps (holds : σ → Prop) (program : Effect σ ε α) : Prop :=
  ∀ s, holds s → Ends program (fun _ => holds) (fun _ => holds) s

variable {holds : σ → Prop}

theorem Keeps.pure (value : α) : Keeps holds (pure value : Effect σ ε α) := fun _ now => now

theorem Keeps.raise (error : ε) : Keeps holds (raise error : Effect σ ε α) := fun _ now => now

theorem Keeps.observe (view : σ → α) : Keeps holds (observe view : Effect σ ε α) := fun _ now => now

theorem Keeps.update {change : σ → σ} (kept : ∀ s, holds s → holds (change s)) :
    Keeps holds (update change : Effect σ ε Unit) :=
  fun s now => kept s now

theorem Keeps.transition {move : σ → Except ε α × σ} (kept : ∀ s, holds s → holds (move s).2) :
    Keeps holds (transition move) := by
  intro s now
  have later := kept s now
  rw [ends_transition]
  cases moved : move s with
  | mk result t =>
      rw [moved] at later
      cases result <;> exact later

variable {next : β → Effect σ ε α}

/-- A program that keeps a property hands it to its continuation. -/
theorem Keeps.then_ends {program : Effect σ ε β} (kept : Keeps holds program)
    (raises : ∀ error t, holds t → raised error t) (now : holds s)
    (later : ∀ value t, holds t → Ends (next value) returned raised t) :
    Ends (program >>= next) returned raised s :=
  (ends_bind program next).mpr (Ends.mono (kept s now) later raises)

theorem Keeps.bind {program : Effect σ ε β} (first : Keeps holds program)
    (second : ∀ value, Keeps holds (next value)) : Keeps holds (program >>= next) :=
  fun _ now => first.then_ends (fun _ _ later => later) now second

theorem Keeps.ite {condition : Prop} [Decidable condition] {first second : Effect σ ε α}
    (left : Keeps holds first) (right : Keeps holds second) :
    Keeps holds (if condition then first else second) := by
  split
  · exact left
  · exact right

theorem Keeps.doWhen {condition : Bool} {program : Effect σ ε Unit} (kept : Keeps holds program) :
    Keeps holds (doWhen condition program) :=
  Keeps.ite kept (Keeps.pure ())

theorem Keeps.catching {program : Effect σ ε α} {handler : ε → Option (Effect σ ε α)}
    (kept : Keeps holds program) (answers : ∀ error answer, handler error = some answer → Keeps holds answer) :
    Keeps holds (catching program handler) := by
  intro s now
  rw [ends_catching]
  refine Ends.mono (kept s now) (fun _ _ later => later) ?_
  intro error t later
  cases known : handler error with
  | none => exact later
  | some answer => exact answers error answer known t later

theorem Keeps.ensuring {program : Effect σ ε α} {cleanup : Effect σ ε Unit} (kept : Keeps holds program)
    (cleans : Keeps holds cleanup) : Keeps holds (ensuring program cleanup) := by
  intro s now
  rw [ends_ensuring]
  exact Ends.mono (kept s now) (fun _ t later => cleans t later) (fun _ t later => cleans t later)

end LumenCopilot.Library
