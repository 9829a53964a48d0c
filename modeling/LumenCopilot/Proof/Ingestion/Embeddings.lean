import LumenCopilot.Construction.Ingestion.Embeddings
import LumenCopilot.Proof.Library.Partial

namespace LumenCopilot.Ingestion.Embeddings

open Python Library

/-- The index and the vector of an item, when the loop can place it. -/
def Value.placed (expectedCount : Nat) (item : Value) : Option (Nat × List Value) :=
  match item.read "index".toList, item.read "embedding".toList with
  | .int rawIndex, .sequence rawVector =>
      if rawIndex < 0 ∨ expectedCount ≤ rawIndex then Option.none else some (rawIndex.toNat, rawVector)
  | _, _ => Option.none

variable {expectedCount : Nat} {vector : List Value}

theorem Value.placed_eq_some {place : Nat} {item : Value} :
    item.placed expectedCount = some (place, vector) ↔
      item.read "index".toList = .int place ∧ item.read "embedding".toList = .sequence vector ∧
        place < expectedCount := by
  unfold Value.placed
  split
  · next rawIndex rawVector index embedding =>
      rw [index, embedding, Value.int.injEq, Value.sequence.injEq]
      split
      · next outside =>
          constructor
          · intro equal
            cases equal
          · intro known
            omega
      · next inside =>
          rw [Option.some.injEq, Prod.mk.injEq]
          constructor
          · intro known
            exact ⟨by omega, known.2, by omega⟩
          · intro known
            exact ⟨by omega, known.2.1⟩
  · next other =>
      constructor
      · intro equal
        cases equal
      · intro known
        exact absurd known.2.1 (other place vector known.1)

variable {ordered : List (Option (List Value))}

/-- An item is placed in an empty slot. -/
theorem placeItem_eq_ok {result : List (Option (List Value))} {item : Value} :
    placeItem expectedCount ordered item = .ok result ↔
      ∃ place vector, item.placed expectedCount = some (place, vector) ∧
        (ordered[place]?).join = none ∧ result = ordered.set place (some vector) := by
  unfold placeItem
  split
  · next rawIndex rawVector index embedding =>
      split
      · next refused =>
          constructor
          · intro equal
            cases equal
          · rintro ⟨place, vector, placed, empty, _⟩
            obtain ⟨named, _, below⟩ := Value.placed_eq_some.mp placed
            rw [index, Value.int.injEq] at named
            subst named
            rw [Int.toNat_natCast, empty] at refused
            simp only [Option.isSome_none, Bool.false_eq_true, or_false] at refused
            omega
      · next accepted =>
          simp only [not_or, Bool.not_eq_true, Option.isSome_eq_false_iff, Option.isNone_iff_eq_none]
            at accepted
          obtain ⟨lower, upper, empty⟩ := accepted
          constructor
          · intro equal
            refine ⟨rawIndex.toNat, rawVector, ?_, empty, (Except.ok.inj equal).symm⟩
            apply Value.placed_eq_some.mpr
            rw [index, embedding, Int.toNat_of_nonneg (by omega)]
            exact ⟨rfl, rfl, by omega⟩
          · rintro ⟨place, vector, placed, _, rfl⟩
            obtain ⟨named, held, _⟩ := Value.placed_eq_some.mp placed
            rw [index, Value.int.injEq] at named
            rw [embedding, Value.sequence.injEq] at held
            rw [named, held, Int.toNat_natCast]
  · next other =>
      constructor
      · intro equal
        cases equal
      · rintro ⟨place, vector, placed, _⟩
        obtain ⟨named, held, _⟩ := Value.placed_eq_some.mp placed
        exact absurd held (other place vector named)

/-- These are the slots after these placements. -/
structure Slots (expectedCount : Nat) (placements : List (Nat × List Value))
    (ordered : List (Option (List Value))) : Prop where
  length : ordered.length = expectedCount
  distinct : (placements.map Prod.fst).Nodup
  within : ∀ placement ∈ placements, placement.1 < expectedCount
  held : ∀ place vector, ordered[place]? = some (some vector) ↔ (place, vector) ∈ placements

theorem Slots.start (expectedCount : Nat) :
    Slots expectedCount [] (List.replicate expectedCount none) := by
  constructor
  · exact List.length_replicate
  · exact List.nodup_nil
  · nofun
  · intro place vector
    simp [List.getElem?_replicate]

variable {placements : List (Nat × List Value)}

theorem Slots.place {place : Nat} (slots : Slots expectedCount placements ordered)
    (below : place < expectedCount) (empty : (ordered[place]?).join = none) (vector : List Value) :
    Slots expectedCount (placements ++ [(place, vector)]) (ordered.set place (some vector)) := by
  have apart {other : Nat} {held : List Value} (member : (other, held) ∈ placements) :
      other ≠ place := by
    intro same
    rw [← same, (slots.held other held).mpr member] at empty
    cases empty
  constructor
  · rw [List.length_set, slots.length]
  · rw [List.map_append, List.map_singleton, List.nodup_append]
    refine ⟨slots.distinct, List.nodup_singleton _, ?_⟩
    intro other listed same single
    obtain ⟨⟨_, held⟩, member, rfl⟩ := List.mem_map.mp listed
    rw [List.mem_singleton.mp single]
    exact apart member
  · intro placement member
    rcases List.mem_append.mp member with known | last
    · exact slots.within placement known
    · rw [List.mem_singleton.mp last]
      exact below
  · intro other held
    rw [List.getElem?_set, List.mem_append, List.mem_singleton, Prod.mk.injEq]
    by_cases same : place = other
    · subst same
      rw [if_pos rfl, if_pos (by rw [slots.length]; exact below)]
      constructor
      · intro equal
        exact Or.inr ⟨rfl, (Option.some.inj (Option.some.inj equal)).symm⟩
      · rintro (known | ⟨_, rfl⟩)
        · exact absurd rfl (apart known)
        · rfl
    · rw [if_neg same, slots.held]
      constructor
      · exact Or.inl
      · rintro (known | ⟨equal, _⟩)
        · exact known
        · exact absurd equal.symm same

/-- The loop places every item in a slot of its own. -/
theorem foldlM_placeItem (slots : Slots expectedCount placements ordered) (items : List Value) :
    (∀ result, items.foldlM (placeItem expectedCount) ordered = .ok result →
      ∃ more, items.map (Value.placed expectedCount) = more.map some ∧
        Slots expectedCount (placements ++ more) result) ∧
    (∀ more, items.map (Value.placed expectedCount) = more.map some →
      ((placements ++ more).map Prod.fst).Nodup →
        ∃ result, items.foldlM (placeItem expectedCount) ordered = .ok result) := by
  induction items generalizing placements ordered with
  | nil =>
      constructor
      · intro result equal
        obtain rfl := Except.ok.inj equal
        exact ⟨[], rfl, by rw [List.append_nil]; exact slots⟩
      · intro more _ _
        exact ⟨ordered, rfl⟩
  | cons item items ih =>
      rw [List.foldlM_cons]
      constructor
      · intro result equal
        obtain ⟨next, first, later⟩ := bind_eq_ok equal
        obtain ⟨place, vector, placed, empty, rfl⟩ := placeItem_eq_ok.mp first
        have below := (Value.placed_eq_some.mp placed).2.2
        obtain ⟨more, mapped, filled⟩ :=
          (ih (slots.place below empty vector)).1 result later
        refine ⟨(place, vector) :: more, ?_, ?_⟩
        · rw [List.map_cons, List.map_cons, placed, mapped]
        · rw [List.append_cons]
          exact filled
      · intro more mapped distinct
        cases more with
        | nil => contradiction
        | cons placement more =>
            rw [List.map_cons, List.map_cons, List.cons.injEq] at mapped
            obtain ⟨placed, mapped⟩ := mapped
            have below := (Value.placed_eq_some.mp placed).2.2
            have empty : (ordered[placement.1]?).join = none := by
              apply Option.eq_none_iff_forall_ne_some.mpr
              intro held equal
              have known := (slots.held placement.1 held).mp (Option.join_eq_some_iff.mp equal)
              rw [List.map_append, List.nodup_append] at distinct
              exact distinct.2.2 _ (List.mem_map_of_mem known) placement.1 List.mem_cons_self rfl
            have first : placeItem expectedCount ordered item =
                .ok (ordered.set placement.1 (some placement.2)) :=
              placeItem_eq_ok.mpr ⟨placement.1, placement.2, placed, empty, rfl⟩
            rw [List.append_cons] at distinct
            obtain ⟨result, later⟩ :=
              (ih (slots.place below empty placement.2)).2 more mapped distinct
            exact ⟨result, by rw [first]; exact later⟩

theorem Slots.perm (slots : Slots expectedCount placements ordered)
    (full : placements.length = expectedCount) :
    (placements.map Prod.fst).Perm (List.range expectedCount) := by
  have inside : placements.map Prod.fst ⊆ List.range expectedCount := by
    intro place listed
    obtain ⟨placement, member, rfl⟩ := List.mem_map.mp listed
    exact List.mem_range.mpr (slots.within placement member)
  apply (List.subperm_of_subset slots.distinct inside).perm_of_length_le
  rw [List.length_range, List.length_map, full]

/-- As many placements as slots leave no slot empty. -/
theorem Slots.full (slots : Slots expectedCount placements ordered)
    (full : placements.length = expectedCount) : ordered.any Option.isNone = false := by
  apply List.any_eq_false.mpr
  intro slot member empty
  obtain ⟨place, within, rfl⟩ := List.getElem_of_mem member
  have listed : place ∈ placements.map Prod.fst := by
    rw [(slots.perm full).mem_iff, List.mem_range, ← slots.length]
    exact within
  obtain ⟨⟨_, vector⟩, known, rfl⟩ := List.mem_map.mp listed
  have held := (slots.held _ vector).mpr known
  rw [List.getElem?_eq_getElem within] at held
  rw [Option.some.inj held] at empty
  cases empty

theorem filterMap_full {α : Type} {slots : List (Option α)} (full : slots.any Option.isNone = false) :
    slots = (slots.filterMap id).map some := by
  induction slots with
  | nil => rfl
  | cons slot slots ih =>
      rw [List.any_cons, Bool.or_eq_false_iff] at full
      cases slot with
      | none => cases full.1
      | some value =>
          rw [List.filterMap_cons_some (f := id) rfl, List.map_cons, ← ih full.2]

/-- A vector has this many coordinates, all of them finite numbers. -/
def Numeric (expectedDimensions : Nat) (vector : List Value) (converted : List ℚ) : Prop :=
  vector.length = expectedDimensions ∧ vector.map coordinate = converted.map some

theorem normalize_eq (normalized : List ℚ) (vector : List Value) :
    (∃ converted, vector.map coordinate = converted.map some ∧
      normalize normalized vector = normalized ++ converted) ∨
    vector ≠ [] ∧ (∀ converted : List ℚ, vector.map coordinate ≠ converted.map some) ∧
      normalize normalized vector = [] := by
  induction vector generalizing normalized with
  | nil => exact Or.inl ⟨[], rfl, (List.append_nil _).symm⟩
  | cons value vector ih =>
      unfold normalize
      cases finite : coordinate value with
      | none =>
          refine Or.inr ⟨List.cons_ne_nil _ _, ?_, rfl⟩
          intro converted equal
          cases converted with
          | nil => contradiction
          | cons number converted =>
              rw [List.map_cons, finite, List.map_cons, List.cons.injEq] at equal
              cases equal.1
      | some number =>
          rcases ih (normalized ++ [number]) with
            ⟨converted, mapped, equal⟩ | ⟨filled, bad, equal⟩
          · refine Or.inl ⟨number :: converted, ?_, ?_⟩
            · rw [List.map_cons, List.map_cons, finite, mapped]
            · rw [List.append_cons]
              exact equal
          · refine Or.inr ⟨List.cons_ne_nil _ _, ?_, equal⟩
            intro converted mapped
            cases converted with
            | nil => contradiction
            | cons other converted =>
                rw [List.map_cons, List.map_cons, List.cons.injEq] at mapped
                exact bad converted mapped.2

variable {expectedDimensions : Nat}

/-- The check of a vector accepts finite numbers. -/
theorem validateVector_eq_ok {converted : List ℚ} :
    validateVector expectedDimensions vector = .ok converted ↔
      Numeric expectedDimensions vector converted := by
  unfold validateVector Numeric
  split
  · next other =>
      constructor
      · intro equal
        cases equal
      · intro numeric
        exact absurd numeric.1 other
  · next sized =>
      rw [ne_eq, not_not] at sized
      rcases normalize_eq [] vector with ⟨found, mapped, equal⟩ | ⟨filled, bad, equal⟩
      · rw [List.nil_append] at equal
        have lengths := congrArg List.length mapped
        rw [List.length_map, List.length_map] at lengths
        rw [equal, if_neg (by omega), Except.ok.injEq, mapped]
        constructor
        · intro same
          exact ⟨sized, by rw [same]⟩
        · intro numeric
          exact List.map_injective_iff.mpr (Option.some_injective _) numeric.2
      · have long := List.length_pos_iff.mpr filled
        rw [equal, if_pos (by rw [List.length_nil]; omega)]
        constructor
        · intro same
          cases same
        · intro numeric
          exact absurd numeric.2 (bad converted)

/-- An item has this index and carries the numbers of this vector. -/
def Carries (expectedDimensions : Nat) (item : Value) (place : Nat) (converted : List ℚ) : Prop :=
  ∃ vector, item.read "index".toList = .int place ∧
    item.read "embedding".toList = .sequence vector ∧ Numeric expectedDimensions vector converted

/-- This is the index of a place. -/
def indexAt (place : Nat) : Value := .int place

theorem indexAt_injective : Function.Injective indexAt := by
  intro first second equal
  exact Nat.cast_injective (Value.int.inj equal)

/-- The items are well formed and their indexes are a permutation of the input's places. -/
def WellFormed (data : Value) (expectedCount expectedDimensions : Nat) : Prop :=
  ∃ items, data = .sequence items ∧
    (∀ item ∈ items, ∃ place converted, Carries expectedDimensions item place converted) ∧
    ∃ places : List Nat, items.map (Value.read "index".toList) = places.map indexAt ∧
      places.Perm (List.range expectedCount)

variable {data : Value}

/-- What a successful call did. -/
theorem orderedEmbeddingVectors_ok {vectors : List (List ℚ)}
    (succeeds : orderedEmbeddingVectors data expectedCount expectedDimensions = .ok vectors) :
    ∃ items placements ordered, data = .sequence items ∧ items.length = expectedCount ∧
      items.map (Value.placed expectedCount) = placements.map some ∧
      Slots expectedCount placements ordered ∧
      List.Forall₂ (fun slot converted => ∃ vector, slot = some vector ∧
        Numeric expectedDimensions vector converted) ordered vectors := by
  unfold orderedEmbeddingVectors at succeeds
  split at succeeds
  · next items =>
      split at succeeds
      · cases succeeds
      · next counted =>
          obtain ⟨ordered, filled, succeeds⟩ := bind_eq_ok succeeds
          split at succeeds
          · cases succeeds
          · next full =>
              have whole := filterMap_full (Bool.eq_false_of_not_eq_true full)
              obtain ⟨placements, mapped, slots⟩ :=
                (foldlM_placeItem (Slots.start expectedCount) items).1 ordered filled
              rw [List.nil_append] at slots
              unfold validateEmbeddingVectors at succeeds
              split at succeeds
              · cases succeeds
              · rw [mapM_eq_ok_iff] at succeeds
                refine ⟨items, placements, ordered, rfl, not_not.mp counted, mapped, slots, ?_⟩
                rw [whole, List.forall₂_map_left_iff]
                apply succeeds.imp
                intro vector converted valid
                exact ⟨vector, rfl, validateVector_eq_ok.mp valid⟩
  · cases succeeds

theorem map_filterMap {α β : Type} {f : α → Option β} {items : List α}
    (each : ∀ item ∈ items, ∃ result, f item = some result) :
    items.map f = (items.filterMap f).map some := by
  induction items with
  | nil => rfl
  | cons item items ih =>
      obtain ⟨result, found⟩ := each item List.mem_cons_self
      rw [List.map_cons, List.filterMap_cons_some found, List.map_cons, found,
        ih fun other member => each other (List.mem_cons_of_mem _ member)]

/-- The indexes of placed items are those of their placements. -/
theorem placed_indexes {items : List Value}
    (mapped : items.map (Value.placed expectedCount) = placements.map some) :
    items.map (Value.read "index".toList) = (placements.map Prod.fst).map indexAt := by
  induction items generalizing placements with
  | nil =>
      cases placements with
      | nil => rfl
      | cons placement placements => contradiction
  | cons item items ih =>
      cases placements with
      | nil => contradiction
      | cons placement placements =>
          rw [List.map_cons, List.map_cons, List.cons.injEq] at mapped
          rw [List.map_cons, List.map_cons, List.map_cons, ih mapped.2,
            (Value.placed_eq_some.mp mapped.1).1]
          rfl

/-- A payload of well formed items is accepted. -/
theorem orderedEmbeddingVectors_accepts (formed : WellFormed data expectedCount expectedDimensions)
    :
    ∃ vectors, orderedEmbeddingVectors data expectedCount expectedDimensions = .ok vectors := by
  obtain ⟨items, rfl, carried, places, indexes, permuted⟩ := formed
  have counted : items.length = expectedCount := by
    have lengths := congrArg List.length indexes
    rw [List.length_map, List.length_map, permuted.length_eq, List.length_range] at lengths
    exact lengths
  have each : ∀ item ∈ items, ∃ result, item.placed expectedCount = some result := by
    intro item member
    obtain ⟨place, converted, vector, index, embedding, numeric⟩ := carried item member
    have listed : Value.int place ∈ places.map indexAt := by
      rw [← indexes, ← index]
      exact List.mem_map_of_mem member
    obtain ⟨other, known, same⟩ := List.mem_map.mp listed
    obtain rfl := indexAt_injective same
    exact ⟨(other, vector), Value.placed_eq_some.mpr
      ⟨index, embedding, List.mem_range.mp (permuted.mem_iff.mp known)⟩⟩
  have mapped := map_filterMap each
  have same : (items.filterMap (Value.placed expectedCount)).map Prod.fst = places :=
    List.map_injective_iff.mpr indexAt_injective ((placed_indexes mapped).symm.trans indexes)
  have distinct : ((items.filterMap (Value.placed expectedCount)).map Prod.fst).Nodup := by
    rw [same]
    exact permuted.nodup_iff.mpr List.nodup_range
  have fill := foldlM_placeItem (Slots.start expectedCount) items
  obtain ⟨ordered, filled⟩ := fill.2 _ mapped distinct
  obtain ⟨placements, equal, slots⟩ := fill.1 ordered filled
  rw [List.nil_append] at slots
  have full : placements.length = expectedCount := by
    have lengths := congrArg List.length equal
    rw [List.length_map, List.length_map] at lengths
    omega
  have present := slots.full full
  have whole := filterMap_full present
  have sized : (ordered.filterMap id).length = expectedCount := by
    have lengths := congrArg List.length whole
    rw [List.length_map] at lengths
    rw [← lengths, slots.length]
  have valid : ∃ vectors, (ordered.filterMap id).mapM (validateVector expectedDimensions) =
      .ok vectors := by
    cases checked : (ordered.filterMap id).mapM (validateVector expectedDimensions) with
    | ok vectors => exact ⟨vectors, rfl⟩
    | error raised =>
        obtain ⟨vector, member, failed⟩ := mapM_eq_error _ _ _ checked
        have held : some vector ∈ ordered := by
          rw [whole]
          exact List.mem_map_of_mem member
        obtain ⟨place, found⟩ := List.mem_iff_getElem?.mp held
        have listed : some (place, vector) ∈ items.map (Value.placed expectedCount) := by
          rw [equal]
          exact List.mem_map_of_mem ((slots.held place vector).mp found)
        obtain ⟨item, known, placed⟩ := List.mem_map.mp listed
        obtain ⟨_, converted, other, _, embedding, numeric⟩ := carried item known
        have same := (Value.placed_eq_some.mp placed).2.1
        rw [embedding, Value.sequence.injEq] at same
        rw [same] at numeric
        rw [validateVector_eq_ok.mpr numeric] at failed
        cases failed
  obtain ⟨vectors, checked⟩ := valid
  refine ⟨vectors, ?_⟩
  unfold orderedEmbeddingVectors validateEmbeddingVectors
  dsimp only
  rw [if_neg (not_not.mpr counted), filled]
  show (if ordered.any Option.isNone = true then _ else _) = _
  rw [present, if_neg Bool.false_ne_true, if_neg (not_not.mpr sized), checked]

/-- Every place has the vector of the one item with its index. -/
structure Matched (items : List Value) (expectedCount expectedDimensions : Nat)
    (vectors : List (List ℚ)) : Prop where
  length : vectors.length = expectedCount
  bound : ∀ place < expectedCount, ∃ position item converted, items[position]? = some item ∧
    Carries expectedDimensions item place converted ∧ vectors[place]? = some converted ∧
    ∀ (other : Nat) (another : Value), items[other]? = some another →
      another.read "index".toList = .int place → other = position

theorem orderedEmbeddingVectors_matched {items : List Value} {vectors : List (List ℚ)}
    (succeeds : orderedEmbeddingVectors (.sequence items) expectedCount expectedDimensions =
      .ok vectors) : Matched items expectedCount expectedDimensions vectors := by
  obtain ⟨_, placements, ordered, same, counted, mapped, slots, checked⟩ :=
    orderedEmbeddingVectors_ok succeeds
  obtain rfl := Value.sequence.inj same
  have full : placements.length = expectedCount := by
    have lengths := congrArg List.length mapped
    rw [List.length_map, List.length_map] at lengths
    omega
  constructor
  · rw [← checked.length_eq, slots.length]
  · intro place below
    have listed : place ∈ placements.map Prod.fst := by
      rw [(slots.perm full).mem_iff]
      exact List.mem_range.mpr below
    obtain ⟨position, within, named⟩ := List.getElem_of_mem listed
    rw [List.length_map] at within
    rw [List.getElem_map] at named
    have inside : position < items.length := by omega
    have placed : items[position].placed expectedCount = some placements[position] := by
      have equal := congrArg (fun entries => entries[position]?) mapped
      simpa [List.getElem?_eq_getElem inside, List.getElem?_eq_getElem within] using equal
    have held := (slots.held placements[position].1 placements[position].2).mpr
      (List.getElem_mem within)
    rw [named] at held
    obtain ⟨index, embedding, _⟩ := Value.placed_eq_some.mp placed
    have early : place < ordered.length := by rw [slots.length]; exact below
    have late : place < vectors.length := by rw [← checked.length_eq]; exact early
    have numeric := checked.get early late
    obtain ⟨vector, stored, numeric⟩ := numeric
    rw [List.getElem?_eq_getElem early, Option.some.injEq] at held
    rw [List.get_eq_getElem, held, Option.some.injEq] at stored
    refine ⟨position, items[position], vectors[place], List.getElem?_eq_getElem inside, ?_,
      List.getElem?_eq_getElem late, ?_⟩
    · refine ⟨placements[position].2, ?_, embedding, ?_⟩
      · rw [index, List.get_eq_getElem, named]
      · rw [stored]
        exact numeric
    · intro other another found other_index
      have indexes := placed_indexes mapped
      have equal := congrArg (fun entries => entries[other]?) indexes
      rw [List.getElem?_map, found, Option.map_some, other_index, List.getElem?_map] at equal
      obtain ⟨first, known, same⟩ := Option.map_eq_some_iff.mp equal.symm
      obtain rfl : first = place := indexAt_injective same
      obtain ⟨bound, value⟩ := List.getElem?_eq_some_iff.mp known
      have listed : position < (placements.map Prod.fst).length := by
        rw [List.length_map]
        exact within
      have again : (placements.map Prod.fst)[position] = first := by
        rw [List.getElem_map, named]
      exact (slots.distinct.getElem_inj_iff).mp (value.trans again.symm)

/-- These are the errors that the adapter raises. -/
def adapterErrors : List DependencyError :=
  [malformedResponse, countMismatch, dimensionMismatch, malformedVector]

variable {raised : DependencyError}

theorem foldlM_placeItem_error {items : List Value}
    (failed : items.foldlM (placeItem expectedCount) ordered = .error raised) :
    raised = malformedResponse := by
  induction items generalizing ordered with
  | nil => cases failed
  | cons item items ih =>
      rw [List.foldlM_cons] at failed
      cases first : placeItem expectedCount ordered item with
      | ok next =>
          rw [first] at failed
          exact ih failed
      | error early =>
          rw [first, error_bind, Except.error.injEq] at failed
          rw [← failed]
          unfold placeItem at first
          split at first
          · split at first
            · exact (Except.error.inj first).symm
            · cases first
          · exact (Except.error.inj first).symm

theorem validateVector_error (failed : validateVector expectedDimensions vector = .error raised) :
    raised ∈ adapterErrors := by
  unfold validateVector at failed
  split at failed
  · rw [← Except.error.inj failed]
    decide
  · split at failed
    · rw [← Except.error.inj failed]
      decide
    · cases failed

theorem orderedEmbeddingVectors_error
    (failed : orderedEmbeddingVectors data expectedCount expectedDimensions = .error raised) :
    raised ∈ adapterErrors := by
  unfold orderedEmbeddingVectors at failed
  split at failed
  · next items =>
      split at failed
      · rw [← Except.error.inj failed]
        decide
      · cases filled : items.foldlM (placeItem expectedCount) (List.replicate expectedCount none) with
        | error early =>
            rw [filled] at failed
            rw [← Except.error.inj failed, foldlM_placeItem_error filled]
            decide
        | ok ordered =>
            rw [filled] at failed
            change (if ordered.any Option.isNone = true then _ else _) = _ at failed
            split at failed
            · rw [← Except.error.inj failed]
              decide
            · unfold validateEmbeddingVectors at failed
              split at failed
              · rw [← Except.error.inj failed]
                decide
              · obtain ⟨vector, _, refused⟩ := mapM_eq_error _ _ _ failed
                exact validateVector_error refused
  · rw [← Except.error.inj failed]
    decide

/-- A provider payload is refused with an error of the adapter, or every input gets the vector of the
item with its index. -/
theorem orderedEmbeddingVectors_matches (data : Value) (expectedCount expectedDimensions : Nat) :
    (∀ raised, orderedEmbeddingVectors data expectedCount expectedDimensions = .error raised →
      raised ∈ adapterErrors) ∧
    ((∃ vectors, orderedEmbeddingVectors data expectedCount expectedDimensions = .ok vectors) ↔
      WellFormed data expectedCount expectedDimensions) ∧
    (∀ items vectors, data = .sequence items →
      orderedEmbeddingVectors data expectedCount expectedDimensions = .ok vectors →
        Matched items expectedCount expectedDimensions vectors) ∧
    (∀ (items : List Value) ordered, items.length = expectedCount →
      items.foldlM (placeItem expectedCount) (List.replicate expectedCount none) = .ok ordered →
        ordered.any Option.isNone = false) := by
  refine ⟨fun raised => orderedEmbeddingVectors_error, ⟨?_, orderedEmbeddingVectors_accepts⟩, ?_, ?_⟩
  · rintro ⟨vectors, succeeds⟩
    obtain ⟨items, placements, ordered, rfl, counted, mapped, slots, checked⟩ :=
      orderedEmbeddingVectors_ok succeeds
    have matched := orderedEmbeddingVectors_matched succeeds
    have full : placements.length = expectedCount := by
      have lengths := congrArg List.length mapped
      rw [List.length_map, List.length_map] at lengths
      omega
    refine ⟨items, rfl, ?_, placements.map Prod.fst, placed_indexes mapped, slots.perm full⟩
    intro item member
    have listed : item.placed expectedCount ∈ placements.map some := by
      rw [← mapped]
      exact List.mem_map_of_mem member
    obtain ⟨⟨place, vector⟩, known, equal⟩ := List.mem_map.mp listed
    obtain ⟨index, _, below⟩ := Value.placed_eq_some.mp equal.symm
    obtain ⟨position, found, converted, held, carries, _, unique⟩ := matched.bound place below
    obtain ⟨other, itemPlace⟩ := List.mem_iff_getElem?.mp member
    have same := unique other item itemPlace index
    rw [same, held, Option.some.injEq] at itemPlace
    rw [← itemPlace]
    exact ⟨place, converted, carries⟩
  · rintro items vectors rfl succeeds
    exact orderedEmbeddingVectors_matched succeeds
  · intro items ordered counted filled
    obtain ⟨placements, mapped, slots⟩ :=
      (foldlM_placeItem (Slots.start expectedCount) items).1 ordered filled
    rw [List.nil_append] at slots
    apply slots.full
    have lengths := congrArg List.length mapped
    rw [List.length_map, List.length_map] at lengths
    omega

end LumenCopilot.Ingestion.Embeddings
