import LumenCopilot.Construction.Library.Alignment

namespace LumenCopilot.Library

variable {α β γ : Type}

/-- The pairs keep the order of both lists, use each item at most once, and have a gain each. -/
structure Aligns (gain : α → β → Option γ) (first : List α) (second : List β)
    (pairs : List (α × β)) : Prop where
  left : (pairs.map Prod.fst).Sublist first
  right : (pairs.map Prod.snd).Sublist second
  gains : ∀ pair ∈ pairs, (gain pair.1 pair.2).isSome

variable {gain : α → β → Option γ} {xs : List α} {ys : List β} {x : α} {y : β}
  {pairs : List (α × β)} {amount score diagonal up left : γ}

theorem Aligns.nil : Aligns gain xs ys [] where
  left := List.nil_sublist xs
  right := List.nil_sublist ys
  gains := nofun

/-- An alignment with an empty list has no pairs. -/
theorem Aligns.of_nil_left (aligned : Aligns gain [] ys pairs) : pairs = [] :=
  List.map_eq_nil_iff.mp (List.sublist_nil.mp aligned.left)

theorem Aligns.of_nil_right (aligned : Aligns gain xs [] pairs) : pairs = [] :=
  List.map_eq_nil_iff.mp (List.sublist_nil.mp aligned.right)

/-- An alignment stays one of longer lists. -/
theorem Aligns.weaken (aligned : Aligns gain xs ys pairs) {first : List α} {second : List β}
    (longer : xs.Sublist first) (wider : ys.Sublist second) : Aligns gain first second pairs where
  left := aligned.left.trans longer
  right := aligned.right.trans wider
  gains := aligned.gains

/-- The last items may form the last pair. -/
theorem Aligns.snoc (aligned : Aligns gain xs ys pairs) (gains : gain x y = some amount) :
    Aligns gain (xs ++ [x]) (ys ++ [y]) (pairs ++ [(x, y)]) where
  left := by
    rw [List.map_append]
    exact aligned.left.append (List.Sublist.refl _)
  right := by
    rw [List.map_append]
    exact aligned.right.append (List.Sublist.refl _)
  gains := by
    intro pair member
    rcases List.mem_append.mp member with earlier | last
    · exact aligned.gains pair earlier
    · obtain rfl := List.mem_singleton.mp last
      exact Option.isSome_iff_exists.mpr ⟨amount, gains⟩

/-- A part of a longer list leaves the last item out or ends with it. -/
theorem sublist_snoc {items : List α} (part : items.Sublist (xs ++ [x])) :
    items.Sublist xs ∨ ∃ rest, items = rest ++ [x] ∧ rest.Sublist xs := by
  obtain ⟨early, late, rfl, inside, last⟩ := List.sublist_append_iff.mp part
  rcases List.sublist_singleton.mp last with rfl | rfl
  · left
    rw [List.append_nil]
    exact inside
  · exact .inr ⟨early, rfl, inside⟩

/-- An alignment leaves out the last item of a list or pairs the two. -/
theorem Aligns.snoc_cases (aligned : Aligns gain (xs ++ [x]) (ys ++ [y]) pairs) :
    Aligns gain xs (ys ++ [y]) pairs ∨ Aligns gain (xs ++ [x]) ys pairs ∨
      ∃ rest amount, pairs = rest ++ [(x, y)] ∧ gain x y = some amount ∧ Aligns gain xs ys rest := by
  rcases sublist_snoc aligned.left with left | ⟨early, firsts, before⟩
  · exact .inl ⟨left, aligned.right, aligned.gains⟩
  rcases sublist_snoc aligned.right with right | ⟨others, seconds, behind⟩
  · exact .inr (.inl ⟨aligned.left, right, aligned.gains⟩)
  obtain ⟨rest, lastPair, rfl, rfl, one⟩ := List.map_eq_append_iff.mp firsts
  obtain ⟨last, rfl, rfl⟩ := List.map_eq_singleton_iff.mp one
  rw [List.map_append] at seconds
  obtain ⟨rfl, same⟩ := List.append_inj' seconds rfl
  have ends : last = (last.1, y) := Prod.ext rfl (List.cons.inj same).1
  obtain ⟨amount, gains⟩ := Option.isSome_iff_exists.mp
    (aligned.gains last (List.mem_append_right rest List.mem_cons_self))
  rw [ends] at gains
  refine .inr (.inr ⟨rest, amount, ?_, gains, before, behind, ?_⟩)
  · rw [← ends]
  · intro pair member
    exact aligned.gains pair (List.mem_append_left _ member)

section Choices

variable [LinearOrder γ]

/-- The best choice is one of the choices. -/
theorem bestChoice_cases (up left : γ) (paired : Option γ) :
    bestChoice up left paired = toLex (up, 0) ∨ bestChoice up left paired = toLex (left, 1) ∨
      ∃ score, paired = some score ∧ bestChoice up left paired = toLex (score, 2) := by
  unfold bestChoice
  cases paired with
  | none =>
      rcases max_choice (toLex (up, 0)) (toLex (left, 1)) with first | second
      · exact .inl first
      · exact .inr (.inl second)
  | some score =>
      dsimp only
      rcases max_choice (max (toLex (up, 0)) (toLex (left, 1))) (toLex (score, 2)) with skip | pair
      · rw [skip]
        rcases max_choice (toLex (up, 0)) (toLex (left, 1)) with first | second
        · exact .inl first
        · exact .inr (.inl second)
      · exact .inr (.inr ⟨score, rfl, pair⟩)

/-- A greater cell has no smaller score. -/
theorem Cell.score_mono {cell other : Cell γ} (below : cell ≤ other) : cell.score ≤ other.score :=
  Prod.Lex.monotone_fst_ofLex below

theorem bestChoice_skips (up left : γ) (paired : Option γ) :
    max (toLex (up, 0)) (toLex (left, 1)) ≤ bestChoice up left paired := by
  unfold bestChoice
  cases paired with
  | none => exact le_refl _
  | some score => exact le_max_left _ _

theorem up_le_bestChoice (up left : γ) (paired : Option γ) :
    up ≤ (bestChoice up left paired).score :=
  Cell.score_mono ((le_max_left _ _).trans (bestChoice_skips up left paired))

theorem left_le_bestChoice (up left : γ) (paired : Option γ) :
    left ≤ (bestChoice up left paired).score :=
  Cell.score_mono ((le_max_right _ _).trans (bestChoice_skips up left paired))

theorem paired_le_bestChoice (up left score : γ) :
    score ≤ (bestChoice up left (some score)).score :=
  Cell.score_mono (le_max_right (max (toLex (up, 0)) (toLex (left, 1))) (toLex (score, 2)))

end Choices

section Optima

variable [AddCommMonoid γ]

/-- The worth of the pairs is the sum of their gains. -/
def worth (gain : α → β → Option γ) (pairs : List (α × β)) : γ :=
  (pairs.map fun pair => (gain pair.1 pair.2).getD 0).sum

theorem worth_snoc (gains : gain x y = some amount) (pairs : List (α × β)) :
    worth gain (pairs ++ [(x, y)]) = worth gain pairs + amount := by
  simp [worth, gains]

variable [LinearOrder γ]

/-- The score is the greatest worth of an alignment. -/
structure Optimum (gain : α → β → Option γ) (first : List α) (second : List β) (score : γ) :
    Prop where
  reached : ∃ pairs, Aligns gain first second pairs ∧ worth gain pairs = score
  highest : ∀ pairs, Aligns gain first second pairs → worth gain pairs ≤ score

theorem Optimum.nil_left : Optimum gain [] ys 0 where
  reached := ⟨[], Aligns.nil, rfl⟩
  highest := by
    intro pairs aligned
    rw [aligned.of_nil_left]
    exact le_refl _

theorem Optimum.nil_right : Optimum gain xs [] 0 where
  reached := ⟨[], Aligns.nil, rfl⟩
  highest := by
    intro pairs aligned
    rw [aligned.of_nil_right]
    exact le_refl _

theorem Optimum.unique (one : Optimum gain xs ys score) (other : Optimum gain xs ys amount) :
    score = amount := by
  obtain ⟨first, firstAligned, rfl⟩ := one.reached
  obtain ⟨second, secondAligned, rfl⟩ := other.reached
  exact le_antisymm (other.highest first firstAligned) (one.highest second secondAligned)

/-- The step of a cell says how its score comes about. -/
structure Choice (gain : α → β → Option γ) (xs : List α) (x : α) (ys : List β) (y : β)
    (cell : Cell γ) : Prop where
  optimum : Optimum gain (xs ++ [x]) (ys ++ [y]) cell.score
  paired : cell.step = 2 → ∃ diagonal amount, gain x y = some amount ∧
    Optimum gain xs ys diagonal ∧ cell.score = diagonal + amount
  left : cell.step = 1 → Optimum gain (xs ++ [x]) ys cell.score
  up : cell.step ≠ 2 → cell.step ≠ 1 → Optimum gain xs (ys ++ [y]) cell.score

variable {second : List β} {above : List (Cell γ)}

/-- The cells of a row have the optima of the items before them. -/
def RowHolds (gain : α → β → Option γ) (second : List β) (xs : List α) (cells : List (Cell γ)) :
    Prop :=
  ∀ ys rest, second = ys ++ rest →
    ∃ cell, cells[ys.length]? = some cell ∧ Optimum gain xs ys cell.score

theorem RowHolds.start (gain : α → β → Option γ) (second : List β) :
    RowHolds gain second [] (List.replicate (second.length + 1) (toLex (0, 0))) := by
  intro ys rest place
  have within : ys.length < second.length + 1 := by
    rw [place, List.length_append]
    omega
  exact ⟨toLex (0, 0), by rw [List.getElem?_replicate, if_pos within], Optimum.nil_left⟩

variable [IsOrderedAddMonoid γ]

/-- The best choice between the three neighbours is the optimum of the cell. -/
theorem bestChoice_choice (above : Optimum gain xs (ys ++ [y]) up)
    (before : Optimum gain (xs ++ [x]) ys left) (corner : Optimum gain xs ys diagonal) :
    Choice gain xs x ys y (bestChoice up left ((gain x y).map (diagonal + ·))) := by
  have highest (pairs : List (α × β)) (aligned : Aligns gain (xs ++ [x]) (ys ++ [y]) pairs) :
      worth gain pairs ≤ (bestChoice up left ((gain x y).map (diagonal + ·))).score := by
    rcases aligned.snoc_cases with skipped | skipped | ⟨rest, amount, rfl, gains, shorter⟩
    · exact (above.highest pairs skipped).trans (up_le_bestChoice _ _ _)
    · exact (before.highest pairs skipped).trans (left_le_bestChoice _ _ _)
    · rw [worth_snoc gains, gains]
      exact (add_le_add_left (corner.highest rest shorter) amount).trans (paired_le_bestChoice _ _ _)
  rcases bestChoice_cases up left ((gain x y).map (diagonal + ·)) with choice | choice | choice
  · obtain ⟨pairs, aligned, reached⟩ := above.reached
    rw [choice] at highest ⊢
    constructor
    · exact ⟨⟨pairs, aligned.weaken (List.sublist_append_left xs [x]) (List.Sublist.refl _), reached⟩,
        highest⟩
    · nofun
    · nofun
    · intro _ _
      exact above
  · obtain ⟨pairs, aligned, reached⟩ := before.reached
    rw [choice] at highest ⊢
    constructor
    · exact ⟨⟨pairs, aligned.weaken (List.Sublist.refl _) (List.sublist_append_left ys [y]), reached⟩,
        highest⟩
    · nofun
    · intro _
      exact before
    · intro _ second
      exact absurd rfl second
  · obtain ⟨score, paired, choice⟩ := choice
    obtain ⟨amount, gains, rfl⟩ := Option.map_eq_some_iff.mp paired
    obtain ⟨pairs, aligned, reached⟩ := corner.reached
    rw [choice] at highest ⊢
    constructor
    · refine ⟨⟨pairs ++ [(x, y)], aligned.snoc gains, ?_⟩, highest⟩
      rw [worth_snoc gains, reached]
      rfl
    · intro _
      exact ⟨diagonal, amount, gains, corner, rfl⟩
    · nofun
    · intro first _
      exact absurd rfl first

/-- The cells of a row are choices between their neighbours. -/
theorem fillRow_choice (passed : List β) (items : List β) (above : List γ)
    (corner : Optimum gain xs passed diagonal) (before : Optimum gain (xs ++ [x]) passed left)
    (scores : ∀ ys y rest, items = ys ++ y :: rest →
      ∃ score, above[ys.length]? = some score ∧ Optimum gain xs (passed ++ ys ++ [y]) score)
    (ys : List β) (y : β) (rest : List β) (place : items = ys ++ y :: rest) :
    ∃ cell, (fillRow (gain x) diagonal left above items)[ys.length]? = some cell ∧
      Choice gain xs x (passed ++ ys) y cell := by
  induction items generalizing passed above diagonal left ys with
  | nil => exact absurd place.symm (List.append_ne_nil_of_right_ne_nil ys (List.cons_ne_nil y rest))
  | cons item items ih =>
      obtain ⟨up, first, optimum⟩ := scores [] item items rfl
      rw [List.append_nil] at optimum
      cases above with
      | nil => contradiction
      | cons head above =>
          obtain rfl := Option.some.inj first
          have choice := bestChoice_choice optimum before corner
          cases ys with
          | nil =>
              obtain ⟨rfl, rfl⟩ := List.cons.inj place
              rw [List.append_nil]
              exact ⟨_, rfl, choice⟩
          | cons next ys =>
              obtain ⟨rfl, remaining⟩ := List.cons.inj place
              have later (ys : List β) (y : β) (rest : List β) (place : items = ys ++ y :: rest) :
                  ∃ score, above[ys.length]? = some score ∧
                    Optimum gain xs (passed ++ [item] ++ ys ++ [y]) score := by
                obtain ⟨score, found, known⟩ := scores (item :: ys) y rest (by rw [place]; rfl)
                rw [List.append_cons passed item ys] at known
                exact ⟨score, found, known⟩
              obtain ⟨cell, found, known⟩ := ih (passed ++ [item]) above optimum
                choice.optimum later ys remaining
              rw [← List.append_cons] at known
              exact ⟨cell, found, known⟩

/-- The cells of a row are choices at the item of the row. -/
def RowChooses (gain : α → β → Option γ) (second : List β) (xs : List α) (x : α)
    (cells : List (Cell γ)) : Prop :=
  ∀ ys y rest, second = ys ++ y :: rest →
    ∃ cell, cells[ys.length + 1]? = some cell ∧ Choice gain xs x ys y cell

theorem nextRow_chooses (holds : RowHolds gain second xs above) (x : α) :
    RowChooses gain second xs x (nextRow (gain x) second above) := by
  obtain ⟨first, found, corner⟩ := holds [] second rfl
  cases above with
  | nil => contradiction
  | cons head above =>
      obtain rfl := Option.some.inj found
      intro ys y rest place
      have scores (ys : List β) (y : β) (rest : List β) (place : second = ys ++ y :: rest) :
          ∃ score, (above.map Cell.score)[ys.length]? = some score ∧
            Optimum gain xs ([] ++ ys ++ [y]) score := by
        obtain ⟨cell, found, known⟩ := holds (ys ++ [y]) rest (by rw [place, List.append_assoc]; rfl)
        rw [List.length_append, List.length_singleton, List.getElem?_cons_succ] at found
        exact ⟨cell.score, by rw [List.getElem?_map, found]; rfl, known⟩
      exact fillRow_choice [] second _ corner Optimum.nil_right scores ys y rest place

/-- The row below has the optima with one more item. -/
theorem nextRow_holds (holds : RowHolds gain second xs above) (x : α) :
    RowHolds gain second (xs ++ [x]) (nextRow (gain x) second above) := by
  intro ys rest place
  cases ys using List.reverseRecOn with
  | nil =>
      obtain ⟨first, found, _⟩ := holds [] second rfl
      cases above with
      | nil => contradiction
      | cons head above => exact ⟨toLex (0, 0), rfl, Optimum.nil_right⟩
  | append_singleton ys y _ =>
      rw [List.append_assoc] at place
      obtain ⟨cell, found, choice⟩ := nextRow_chooses holds x ys y rest place
      rw [List.length_append, List.length_singleton]
      exact ⟨cell, found, choice.optimum⟩

/-- Each later row of the table chooses at its item. -/
theorem rowsFrom_chooses {done : List α} (holds : RowHolds gain second done above) (xs : List α) (x : α)
    (rest : List α) : ∃ cells, (rowsFrom gain second above (xs ++ x :: rest))[xs.length + 1]? =
      some cells ∧ RowChooses gain second (done ++ xs) x cells := by
  induction xs generalizing done above with
  | nil =>
      have chooses := nextRow_chooses holds x
      rw [List.append_nil]
      refine ⟨nextRow (gain x) second above, ?_, chooses⟩
      cases rest <;> rfl
  | cons next xs ih =>
      obtain ⟨cells, found, chooses⟩ := ih (nextRow_holds holds next)
      rw [List.append_assoc] at chooses
      exact ⟨cells, found, chooses⟩

/-- The step of a cell of the table is the one of its choice. -/
theorem alignmentTable_choice (gain : α → β → Option γ) (xs : List α) (x : α) (first : List α)
    (ys : List β) (y : β) (second : List β) : ∃ cell, stepAt (alignmentTable gain (xs ++ x :: first) (ys ++ y :: second))
      (xs.length + 1) (ys.length + 1) = cell.step ∧ Choice gain xs x ys y cell := by
  obtain ⟨cells, row, chooses⟩ := rowsFrom_chooses
    (RowHolds.start gain (ys ++ y :: second)) xs x first
  obtain ⟨cell, column, choice⟩ := chooses ys y second rfl
  refine ⟨cell, ?_, choice⟩
  unfold stepAt alignmentTable
  rw [row, Option.bind_some, column]
  rfl

/-- The pairs of the traceback are an alignment with the greatest worth. -/
structure Best (gain : α → β → Option γ) (xs : List α) (ys : List β) (pairs : List (α × β)) :
    Prop where
  aligned : Aligns gain xs ys pairs
  optimum : Optimum gain xs ys (worth gain pairs)

theorem traceback_best (gain : α → β → Option γ) (first : List α) (second : List β) (fuel : Nat)
    (xs : List α) (ys : List β)
    (firsts : xs.reverse <+: first) (seconds : ys.reverse <+: second)
    (enough : xs.length + ys.length ≤ fuel) :
    Best gain xs.reverse ys.reverse (traceback (alignmentTable gain first second) fuel xs ys) := by
  induction fuel generalizing xs ys with
  | zero =>
      obtain rfl : xs = [] := List.length_eq_zero_iff.mp (by omega)
      exact ⟨Aligns.nil, Optimum.nil_left⟩
  | succ fuel ih =>
      cases xs with
      | nil => exact ⟨Aligns.nil, Optimum.nil_left⟩
      | cons x xs =>
          cases ys with
          | nil => exact ⟨Aligns.nil, Optimum.nil_right⟩
          | cons y ys =>
              rw [List.reverse_cons] at firsts seconds ⊢
              rw [List.reverse_cons]
              have shorter := (List.prefix_append xs.reverse [x]).trans firsts
              have narrower := (List.prefix_append ys.reverse [y]).trans seconds
              rw [List.length_cons, List.length_cons] at enough
              obtain ⟨after, places⟩ := firsts
              obtain ⟨behind, others⟩ := seconds
              rw [List.append_assoc] at places others
              obtain ⟨cell, step, choice⟩ := alignmentTable_choice gain xs.reverse x after
                ys.reverse y behind
              rw [List.length_reverse, List.length_reverse] at step
              rw [List.singleton_append] at places others
              rw [places, others] at step
              unfold traceback
              rw [step]
              split
              · next pairs =>
                  obtain ⟨diagonal, amount, gains, corner, sum⟩ := choice.paired pairs
                  have best := ih xs ys shorter narrower (by omega)
                  refine ⟨best.aligned.snoc gains, ?_⟩
                  rw [worth_snoc gains, best.optimum.unique corner, ← sum]
                  exact choice.optimum
              · next skips =>
                  have best := ih (x :: xs) ys
                    (by rw [List.reverse_cons]; exact ⟨after, by simpa using places⟩) narrower
                    (by rw [List.length_cons]; omega)
                  rw [List.reverse_cons] at best
                  refine ⟨best.aligned.weaken (List.Sublist.refl _) (List.sublist_append_left _ _), ?_⟩
                  rw [best.optimum.unique (choice.left skips)]
                  exact choice.optimum
              · next unpaired unskipped =>
                  have best := ih xs (y :: ys) shorter
                    (by rw [List.reverse_cons]; exact ⟨behind, by simpa using others⟩)
                    (by rw [List.length_cons]; omega)
                  rw [List.reverse_cons] at best
                  refine ⟨best.aligned.weaken (List.sublist_append_left _ _) (List.Sublist.refl _), ?_⟩
                  rw [best.optimum.unique (choice.up unpaired unskipped)]
                  exact choice.optimum

/-- The alignment of two lists has the greatest worth. -/
theorem alignItems_best (gain : α → β → Option γ) (first : List α) (second : List β) :
    Best gain first second (alignItems gain first second) := by
  have best := traceback_best gain first second (first.length + second.length) first.reverse
    second.reverse (by rw [List.reverse_reverse]) (by rw [List.reverse_reverse])
    (by rw [List.length_reverse, List.length_reverse])
  rw [List.reverse_reverse, List.reverse_reverse] at best
  exact best

end Optima

end LumenCopilot.Library
