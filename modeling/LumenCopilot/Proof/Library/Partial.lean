import Mathlib

namespace LumenCopilot.Library

variable {ε α β σ : Type}

@[simp]
theorem ok_bind (a : α) (next : α → Except ε β) : (Except.ok a >>= next) = next a := rfl

@[simp]
theorem error_bind (raised : ε) (next : α → Except ε β) :
    (Except.error raised >>= next) = Except.error raised := rfl

@[simp]
theorem pure_eq_ok (a : α) : (pure a : Except ε α) = Except.ok a := rfl

/-- A successful sequence has a successful first part. -/
theorem bind_eq_ok {first : Except ε α} {next : α → Except ε β} {b : β}
    (succeeds : (first >>= next) = .ok b) : ∃ a, first = .ok a ∧ next a = .ok b := by
  cases first with
  | error raised => simp at succeeds
  | ok a => exact ⟨a, rfl, succeeds⟩

theorem map_eq_ok_iff (f : α → β) (result : Except ε α) (b : β) :
    result.map f = .ok b ↔ ∃ a, result = .ok a ∧ f a = b := by
  cases result with
  | error raised => simp [Except.map]
  | ok a => simp [Except.map]

theorem map_eq_error_iff (f : α → β) (result : Except ε α) (raised : ε) :
    result.map f = .error raised ↔ result = .error raised := by
  cases result with
  | error other => simp [Except.map]
  | ok a => simp [Except.map]

/-- A fallible map succeeds exactly when it succeeds on every element. -/
theorem mapM_eq_ok_iff (f : α → Except ε β) (items : List α) (results : List β) :
    items.mapM f = .ok results ↔ List.Forall₂ (fun a b => f a = .ok b) items results := by
  induction items generalizing results with
  | nil =>
      rw [List.mapM_nil, List.forall₂_nil_left_iff, pure_eq_ok, Except.ok.injEq]
      exact eq_comm
  | cons a rest ih =>
      rw [List.mapM_cons, List.forall₂_cons_left_iff]
      constructor
      · intro mapped
        cases first : f a with
        | error raised => simp [first] at mapped
        | ok b =>
            cases others : rest.mapM f with
            | error raised => simp only [first, others, ok_bind, error_bind, reduceCtorEq] at mapped
            | ok bs =>
                simp only [first, others, ok_bind, pure_eq_ok, Except.ok.injEq] at mapped
                exact ⟨b, bs, rfl, (ih bs).mp others, mapped.symm⟩
      · rintro ⟨b, bs, first, others, rfl⟩
        rw [first, (ih bs).mpr others]
        rfl

/-- A fallible map fails with the failure of one of its elements. -/
theorem mapM_eq_error (f : α → Except ε β) (items : List α) (raised : ε)
    (failed : items.mapM f = .error raised) : ∃ a ∈ items, f a = .error raised := by
  induction items with
  | nil => simp at failed
  | cons a rest ih =>
      rw [List.mapM_cons] at failed
      cases first : f a with
      | error other =>
          have same : other = raised := by simpa [first] using failed
          exact ⟨a, List.mem_cons_self, same ▸ first⟩
      | ok b =>
          cases others : rest.mapM f with
          | error other =>
              simp only [first, others, ok_bind, error_bind, Except.error.injEq] at failed
              obtain ⟨item, member, fails⟩ := ih (failed ▸ others)
              exact ⟨item, List.mem_cons_of_mem a member, fails⟩
          | ok bs => simp only [first, others, ok_bind, pure_eq_ok, reduceCtorEq] at failed

/-- A fallible map over two joined lists joins the two results. -/
theorem mapM_append_eq_ok (f : α → Except ε β) (first second : List α) (results : List β)
    (mapped : (first ++ second).mapM f = .ok results) :
    ∃ firsts seconds, first.mapM f = .ok firsts ∧ second.mapM f = .ok seconds ∧
      results = firsts ++ seconds := by
  rw [List.mapM_append] at mapped
  cases early : first.mapM f with
  | error raised => simp [early] at mapped
  | ok firsts =>
      cases late : second.mapM f with
      | error raised => simp [early, late] at mapped
      | ok seconds =>
          simp only [early, late, ok_bind, pure_eq_ok, Except.ok.injEq] at mapped
          exact ⟨firsts, seconds, rfl, rfl, mapped.symm⟩

/-- A fallible loop whose every step succeeds and keeps a property succeeds and keeps it.
The property may speak of the items that the loop has done. -/
theorem foldlM_reaches (f : σ → α → Except ε σ) (holds : List α → σ → Prop)
    (step : ∀ done s a, holds done s → ∃ t, f s a = .ok t ∧ holds (done ++ [a]) t)
    (items done : List α) (s : σ) (initially : holds done s) :
    ∃ t, items.foldlM f s = .ok t ∧ holds (done ++ items) t := by
  induction items generalizing done s with
  | nil => exact ⟨s, rfl, by rwa [List.append_nil]⟩
  | cons a rest ih =>
      obtain ⟨next, steps, kept⟩ := step done s a initially
      obtain ⟨last, runs, finally'⟩ := ih (done ++ [a]) next kept
      refine ⟨last, ?_, by simpa using finally'⟩
      rw [List.foldlM_cons, steps]
      exact runs

/-- A fallible loop succeeds and keeps a property, when every step on its items does. -/
theorem foldlM_still (f : σ → α → Except ε σ) (holds : σ → Prop) (items : List α)
    (step : ∀ a ∈ items, ∀ s, holds s → ∃ t, f s a = .ok t ∧ holds t) (s : σ)
    (initially : holds s) : ∃ t, items.foldlM f s = .ok t ∧ holds t := by
  induction items generalizing s with
  | nil => exact ⟨s, rfl, initially⟩
  | cons a rest ih =>
      obtain ⟨next, steps, kept⟩ := step a List.mem_cons_self s initially
      obtain ⟨last, runs, finally'⟩ :=
        ih (fun b member => step b (List.mem_cons_of_mem a member)) next kept
      refine ⟨last, ?_, finally'⟩
      rw [List.foldlM_cons, steps]
      exact runs

/-- A fallible loop that succeeds keeps what its successful steps keep. -/
theorem foldlM_keeps (f : σ → α → Except ε σ) (holds : σ → Prop) (items : List α)
    (step : ∀ s a t, a ∈ items → holds s → f s a = .ok t → holds t) (s t : σ) (initially : holds s)
    (runs : items.foldlM f s = .ok t) : holds t := by
  induction items generalizing s with
  | nil => exact Except.ok.inj runs ▸ initially
  | cons a rest ih =>
      rw [List.foldlM_cons] at runs
      obtain ⟨next, steps, later⟩ := bind_eq_ok runs
      exact ih (fun s b t member => step s b t (List.mem_cons_of_mem a member)) next
        (step s a next List.mem_cons_self initially steps) later

/-- A fallible loop that succeeds keeps a property of the items that it has done. -/
theorem foldlM_history (f : σ → α → Except ε σ) (holds : List α → σ → Prop)
    (step : ∀ done s a t, holds done s → f s a = .ok t → holds (done ++ [a]) t)
    (items done : List α) (s t : σ) (initially : holds done s) (runs : items.foldlM f s = .ok t) :
    holds (done ++ items) t := by
  induction items generalizing done s with
  | nil =>
      obtain rfl := Except.ok.inj runs
      rwa [List.append_nil]
  | cons a rest ih =>
      rw [List.foldlM_cons] at runs
      obtain ⟨next, steps, later⟩ := bind_eq_ok runs
      have last := ih (done ++ [a]) next (step done s a next initially steps) later
      rwa [List.append_assoc, List.singleton_append] at last

/-- An optional loop that returns keeps what its returning steps keep. -/
theorem foldlM_some_keeps (f : σ → α → Option σ) (holds : σ → Prop) (items : List α)
    (step : ∀ s a t, a ∈ items → holds s → f s a = some t → holds t) (s t : σ)
    (initially : holds s) (runs : items.foldlM f s = some t) : holds t := by
  induction items generalizing s with
  | nil => exact Option.some.inj runs ▸ initially
  | cons a rest ih =>
      rw [List.foldlM_cons] at runs
      obtain ⟨next, steps, later⟩ := Option.bind_eq_some_iff.mp runs
      exact ih (fun s b t member => step s b t (List.mem_cons_of_mem a member)) next
        (step s a next List.mem_cons_self initially steps) later

/-- A cut removes its own sum. -/
theorem sum_cut (values : List Int) (start stop : Nat) (ordered : start ≤ stop) :
    (values.take start ++ values.drop stop).sum =
      values.sum - ((values.take stop).drop start).sum := by
  have whole : values = values.take start ++ (values.take stop).drop start ++ values.drop stop := by
    have early : values.take start = (values.take stop).take start := by
      rw [List.take_take, Nat.min_eq_left ordered]
    rw [early, List.take_append_drop, List.take_append_drop]
  have added := congrArg List.sum whole
  simp only [List.sum_append] at added ⊢
  omega

/-- An update changes the sum by the difference of the two values. -/
theorem sum_set (values : List Int) (i : Nat) (before after : Int)
    (there : values[i]? = some before) :
    (values.set i after).sum = values.sum + (after - before) := by
  induction values generalizing i with
  | nil => simp at there
  | cons value rest ih =>
      cases i with
      | zero =>
          have same : value = before := by simpa using there
          simp only [List.set_cons_zero, List.sum_cons]
          omega
      | succ i =>
          have later := ih i (by simpa using there)
          simp only [List.set_cons_succ, List.sum_cons]
          omega

end LumenCopilot.Library
