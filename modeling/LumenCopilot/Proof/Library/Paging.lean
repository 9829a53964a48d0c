import LumenCopilot.Construction.Library.Paging

namespace LumenCopilot.Library

variable {κ ε π α : Type} {fetch : κ → Except ε (π × Option κ)}

/-- Every page shows the next of what remains at its place: the last page all of it, and another one
a part that is not empty. -/
structure Pages (fetch : κ → Except ε (π × Option κ)) (good : κ → Prop) (remaining : κ → List α)
    (shows : π → List α) : Prop where
  last : ∀ place page, good place → fetch place = .ok (page, none) → shows page = remaining place
  more : ∀ place page next, good place → fetch place = .ok (page, some next) →
    good next ∧ remaining place = shows page ++ remaining next ∧ shows page ≠ []

variable {good : κ → Prop} {remaining : κ → List α} {shows : π → List α}

variable {fuel : Nat} {place : κ}

/-- A reader with enough fuel shows everything that remains once and in order, or a page fails. -/
theorem Pages.follow_cases (pages : Pages fetch good remaining shows) (starts : good place)
    (enough : (remaining place).length < fuel) :
    (∃ read, follow fetch fuel place = .finished read ∧ read.flatMap shows = remaining place) ∨
      ∃ error at_, good at_ ∧ follow fetch fuel place = .failed error ∧ fetch at_ = .error error := by
  induction fuel generalizing place with
  | zero => omega
  | succ fuel ih =>
      unfold follow
      cases fetched : fetch place with
      | error error => exact Or.inr ⟨error, place, starts, rfl, fetched⟩
      | ok answer =>
          obtain ⟨page, continuation⟩ := answer
          cases continuation with
          | none =>
              have all := pages.last place page starts fetched
              exact Or.inl ⟨[page], rfl, by rw [List.flatMap_singleton, all]⟩
          | some next =>
              obtain ⟨goes, splits, filled⟩ := pages.more place page next starts fetched
              have positive := List.length_pos_iff.mpr filled
              have lengths := congrArg List.length splits
              rw [List.length_append] at lengths
              rcases ih goes (by omega) with ⟨read, followed, shown⟩ | ⟨error, at_, reached, followed, fails⟩
              · refine Or.inl ⟨page :: read, by simp only [followed], ?_⟩
                rw [List.flatMap_cons, shown, splits]
              · exact Or.inr ⟨error, at_, reached, by simp only [followed], fails⟩

variable {read : List π}

/-- The marks of the pages go up from the start when every continuation goes up. -/
theorem follow_ascends {mark : π → Option κ} {ahead : κ → κ → Prop}
    (marks : ∀ place page next, fetch place = .ok (page, next) → mark page = next)
    (goesUp : ∀ place page next, fetch place = .ok (page, some next) → ahead place next)
    (followed : follow fetch fuel place = .finished read) :
    (place :: read.filterMap mark).IsChain ahead := by
  induction fuel generalizing place read with
  | zero => contradiction
  | succ fuel ih =>
      unfold follow at followed
      cases fetched : fetch place with
      | error error => simp [fetched] at followed
      | ok answer =>
          obtain ⟨page, continuation⟩ := answer
          have marked := marks place page continuation fetched
          simp only [fetched] at followed
          cases continuation with
          | none =>
              obtain rfl := Followed.finished.inj followed
              simp [marked]
          | some next =>
              simp only at followed
              cases rest : follow fetch fuel next with
              | failed error => simp [rest] at followed
              | unfinished => simp [rest] at followed
              | finished pages =>
                  simp only [rest] at followed
                  obtain rfl := Followed.finished.inj followed
                  rw [List.filterMap_cons, marked]
                  exact List.IsChain.cons_cons (goesUp place page next fetched) (ih rest)

/-- A reader that finishes has read every page that it comes to. -/
theorem follow_continues {next : κ} {page : π} (followed : follow fetch fuel place = .finished read)
    (fetched : fetch place = .ok (page, some next)) :
    ∃ fuel read, follow fetch fuel next = .finished read := by
  cases fuel with
  | zero => contradiction
  | succ fuel =>
      unfold follow at followed
      simp only [fetched] at followed
      cases rest : follow fetch fuel next with
      | finished pages => exact ⟨fuel, pages, rest⟩
      | failed error => simp [rest] at followed
      | unfinished => simp [rest] at followed

theorem follow_succeeds (followed : follow fetch fuel place = .finished read) :
    ∃ answer, fetch place = .ok answer := by
  cases fuel with
  | zero => contradiction
  | succ fuel =>
      unfold follow at followed
      cases fetched : fetch place with
      | ok answer => exact ⟨answer, rfl⟩
      | error error => simp [fetched] at followed

end LumenCopilot.Library

namespace LumenCopilot.Library

variable {κ ι : Type} [LinearOrder κ] [LinearOrder ι] {descending : Bool}

theorem ahead_irrefl (row : Option κ × ι) : ¬ Ahead descending row row := by
  obtain ⟨key, id⟩ := row
  cases key <;> cases descending <;> simp [Ahead]

variable {first second third : Option κ × ι}

theorem ahead_trans (here : Ahead descending first second) (there : Ahead descending second third) :
    Ahead descending first third := by
  obtain ⟨a, i⟩ := first
  obtain ⟨b, j⟩ := second
  obtain ⟨c, k⟩ := third
  cases a <;> cases b <;> cases c <;> cases descending <;> simp [Ahead] at here there ⊢ <;> grind

theorem ahead_asymm (here : Ahead descending first second) : ¬ Ahead descending second first :=
  fun there => ahead_irrefl first (ahead_trans here there)

/-- Two rows are ordered or have the same place. -/
theorem ahead_trichotomy (first second : Option κ × ι) :
    Ahead descending first second ∨ first = second ∨ Ahead descending second first := by
  obtain ⟨a, i⟩ := first
  obtain ⟨b, j⟩ := second
  cases a with
  | none =>
      cases b with
      | none =>
          rcases lt_trichotomy i j with below | rfl | above
          · exact Or.inl below
          · exact Or.inr (Or.inl rfl)
          · exact Or.inr (Or.inr above)
      | some b => exact Or.inr (Or.inr trivial)
  | some a =>
      cases b with
      | none => exact Or.inl trivial
      | some b =>
          rcases lt_trichotomy a b with below | rfl | above
          · cases descending
            · exact Or.inl (Or.inl below)
            · exact Or.inr (Or.inr (Or.inl below))
          · rcases lt_trichotomy i j with less | rfl | more
            · exact Or.inl (Or.inr ⟨rfl, less⟩)
            · exact Or.inr (Or.inl rfl)
            · exact Or.inr (Or.inr (Or.inr ⟨rfl, more⟩))
          · cases descending
            · exact Or.inr (Or.inr (Or.inl above))
            · exact Or.inl (Or.inl above)

/-- A row that is not ahead stays so behind a row that is not. -/
theorem ahead_negTrans (here : ¬ Ahead descending second first)
    (there : ¬ Ahead descending third second) : ¬ Ahead descending third first := by
  intro ahead
  rcases ahead_trichotomy first second with before | rfl | behind
  · exact there (ahead_trans ahead before)
  · exact there ahead
  · exact here behind

/-- A statement resumes with the rows that the position is ahead of. -/
theorem resumes_iff {position : Option κ} {id : ι} {row : Option κ × ι} :
    resumes descending position id row = true ↔ Ahead descending (position, id) row := by
  obtain ⟨key, other⟩ := row
  cases position with
  | none => cases key <;> simp [resumes, Ahead]
  | some position =>
      cases key with
      | none => simp [resumes, Ahead]
      | some key => cases descending <;> simp [resumes, Ahead, @eq_comm κ position]

/-- A statement that resumes behind a row of an ordered list reads the rest of it. -/
theorem filter_ahead {α : Type} {place : α → Option κ × ι} {rows : List α} {index : Nat} {row : α}
    (ordered : rows.Pairwise fun first second => Ahead descending (place first) (place second))
    (found : rows[index]? = some row) :
    rows.filter (fun other => Ahead descending (place row) (place other)) = rows.drop (index + 1) := by
  obtain ⟨bound, here⟩ := List.getElem?_eq_some_iff.mp found
  have split := List.take_append_drop index rows
  rw [List.drop_eq_getElem_cons bound, here] at split
  rw [← split] at ordered
  obtain ⟨_, later, crosses⟩ := List.pairwise_append.mp ordered
  have before : (rows.take index).filter (fun other => Ahead descending (place row) (place other)) =
      [] := by
    refine List.filter_eq_nil_iff.mpr fun other member => ?_
    rw [decide_eq_true_eq]
    exact ahead_asymm (crosses other member row List.mem_cons_self)
  have after : (rows.drop (index + 1)).filter
      (fun other => Ahead descending (place row) (place other)) = rows.drop (index + 1) := by
    refine List.filter_eq_self.mpr fun other member => ?_
    exact decide_eq_true ((List.pairwise_cons.mp later).1 other member)
  have self : decide (Ahead descending (place row) (place row)) = false :=
    decide_eq_false (ahead_irrefl _)
  conv_lhs => rw [← split]
  rw [List.filter_append, before, List.nil_append, List.filter_cons, self, after]
  rfl

end LumenCopilot.Library
