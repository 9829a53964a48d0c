import LumenCopilot.Construction.Retrieval.Search
import LumenCopilot.Proof.Library.Dict
import LumenCopilot.Proof.Library.Lists

namespace LumenCopilot.Retrieval.Fusion

open Library

variable {α : Type} [DecidableEq α] {k : Int} {fused : Fused α}

/-- What is known after these ids with their ranks. -/
structure Records (k : Int) (entries : List (α × Nat)) (fused : Fused α) : Prop where
  scored : ∀ chunkId, fused.scores.lookup chunkId =
    if chunkId ∈ entries.map Prod.fst then
      some (tally (entries.map fun entry => (entry.1, contribution k entry.2)) chunkId)
    else none
  seen : ∀ chunkId, chunkId ∈ fused.firstSeen ↔ chunkId ∈ entries.map Prod.fst
  early : ∀ chunkId place, fused.firstSeen.lookup chunkId = some place → place < fused.order
  ascending : ∀ first second place other, fused.firstSeen.lookup first = some place →
    fused.firstSeen.lookup second = some other →
    (place < other ↔ (entries.map Prod.fst).idxOf first < (entries.map Prod.fst).idxOf second)

theorem Records.start (k : Int) : Records k [] (Fused.start : Fused α) := by
  constructor
  · intro chunkId
    rfl
  · intro chunkId
    constructor
    · intro known
      exact absurd known (AList.notMem_empty chunkId)
    · intro known
      contradiction
  · intro chunkId place found
    cases found
  · intro first second place other found
    cases found

variable {entries : List (α × Nat)}

/-- An id without entries has no score. -/
theorem tally_unrecorded {chunkId : α} (absent : chunkId ∉ entries.map Prod.fst) :
    tally (entries.map fun entry => (entry.1, contribution k entry.2)) chunkId = 0 := by
  have unlisted : (entries.map fun entry => (entry.1, contribution k entry.2)).filter
      (fun listed => listed.1 = chunkId) = [] := by
    apply List.filter_eq_nil_iff.mpr
    intro listed member same
    obtain ⟨source, known, rfl⟩ := List.mem_map.mp member
    have named : source.1 = chunkId := of_decide_eq_true same
    apply absent
    rw [← named]
    exact List.mem_map_of_mem known
  rw [tally, unlisted]
  rfl

/-- The score of a new entry is added to the old one. -/
theorem Records.record_scored (records : Records k entries fused) (entry : α × Nat) (chunkId : α) :
    (fused.record k entry).scores.lookup chunkId =
      if chunkId ∈ (entries ++ [entry]).map Prod.fst then
        some (tally ((entries ++ [entry]).map fun entry => (entry.1, contribution k entry.2)) chunkId)
      else none := by
  have scores : (fused.record k entry).scores = fused.scores.assign entry.1
      ((fused.scores.lookup entry.1).getD 0 + contribution k entry.2) := by
    unfold Fused.record
    dsimp only
    split <;> rfl
  have before : (fused.scores.lookup entry.1).getD 0 =
      tally (entries.map fun entry => (entry.1, contribution k entry.2)) entry.1 := by
    rw [records.scored]
    split
    · rfl
    · next absent =>
        exact (tally_unrecorded absent).symm
  rw [scores, Dict.lookup_assigned, before, List.map_append, List.map_append, tally_append,
    List.map_singleton, List.map_singleton, tally_singleton, records.scored]
  by_cases same : chunkId = entry.1
  · subst same
    simp
  · have other : ¬ entry.1 = chunkId := fun equal => same equal.symm
    simp only [if_neg other, List.mem_append, List.mem_singleton, same, or_false, add_zero,
      ↓reduceIte]

/-- A further entry. -/
theorem Records.record (records : Records k entries fused) (entry : α × Nat) :
    Records k (entries ++ [entry]) (fused.record k entry) := by
  have names : (entries ++ [entry]).map Prod.fst = entries.map Prod.fst ++ [entry.1] := by
    rw [List.map_append, List.map_singleton]
  have listed {chunkId : α} {place : Nat} (found : fused.firstSeen.lookup chunkId = some place) :
      chunkId ∈ entries.map Prod.fst := by
    apply (records.seen chunkId).mp
    rw [← AList.lookup_isSome, found]
    rfl
  by_cases known : entry.1 ∈ fused.firstSeen
  · have stays : (fused.record k entry).firstSeen = fused.firstSeen ∧
        (fused.record k entry).order = fused.order := by
      unfold Fused.record
      dsimp only
      rw [if_pos known]
      exact ⟨rfl, rfl⟩
    constructor
    · exact records.record_scored entry
    · intro chunkId
      rw [stays.1, records.seen, names, List.mem_append, List.mem_singleton]
      constructor
      · exact Or.inl
      · intro member
        cases member with
        | inl member => exact member
        | inr same =>
            rw [same]
            exact (records.seen entry.1).mp known
    · rw [stays.1, stays.2]
      exact records.early
    · rw [stays.1, names]
      intro first second place other found held
      rw [List.idxOf_append_of_mem (listed found), List.idxOf_append_of_mem (listed held)]
      exact records.ascending first second place other found held
  · have grows : (fused.record k entry).firstSeen = fused.firstSeen.assign entry.1 fused.order ∧
        (fused.record k entry).order = fused.order + 1 := by
      unfold Fused.record
      dsimp only
      rw [if_neg known]
      exact ⟨rfl, rfl⟩
    have absent : entry.1 ∉ entries.map Prod.fst := fun member => known ((records.seen _).mpr member)
    have last : (entries.map Prod.fst ++ [entry.1]).idxOf entry.1 = (entries.map Prod.fst).length := by
      rw [List.idxOf_append_of_notMem absent, List.idxOf_cons_self, Nat.add_zero]
    constructor
    · exact records.record_scored entry
    · intro chunkId
      rw [grows.1, Dict.mem_assign known, records.seen, names, List.mem_append, List.mem_singleton]
      exact Or.comm
    · intro chunkId place found
      rw [grows.1, Dict.lookup_assign known] at found
      rw [grows.2]
      split at found
      · obtain rfl := Option.some.inj found
        omega
      · have below := records.early chunkId place found
        omega
    · intro first second place other found held
      rw [grows.1, Dict.lookup_assign known] at found held
      rw [names]
      split at found
      · next same =>
          obtain rfl := Option.some.inj found
          split at held
          · next alike =>
              obtain rfl := Option.some.inj held
              simp only [same, alike, Nat.lt_irrefl]
          · have below := records.early second other held
            have inside := List.idxOf_lt_length_of_mem (listed held)
            rw [same, last, List.idxOf_append_of_mem (listed held)]
            omega
      · have below := records.early first place found
        have inside := List.idxOf_lt_length_of_mem (listed found)
        split at held
        · next alike =>
            obtain rfl := Option.some.inj held
            rw [alike, last, List.idxOf_append_of_mem (listed found)]
            omega
        · rw [List.idxOf_append_of_mem (listed found), List.idxOf_append_of_mem (listed held)]
          exact records.ascending first second place other found held

/-- These are all ids with their ranks, list after list. -/
def entriesOf (rankedLists : List (List α)) : List (α × Nat) := rankedLists.flatMap List.zipIdx

theorem records_foldl (records : Records k entries fused) (more : List (α × Nat)) :
    Records k (entries ++ more) (more.foldl (Fused.record k) fused) := by
  induction more generalizing entries fused with
  | nil =>
      rw [List.append_nil]
      exact records
  | cons entry more ih =>
      rw [List.append_cons]
      exact ih (records.record entry)

/-- The two loops record every entry. -/
theorem fuse_records (k : Int) (rankedLists : List (List α)) :
    Records k (entriesOf rankedLists) (fuse k rankedLists) := by
  have records := records_foldl (Records.start k) (entriesOf rankedLists)
  rw [List.nil_append, entriesOf, List.foldl_flatMap] at records
  exact records

omit [DecidableEq α] in
theorem entriesOf_names (rankedLists : List (List α)) :
    (entriesOf rankedLists).map Prod.fst = rankedLists.flatten := by
  simp [entriesOf, List.map_flatMap, List.zipIdx_map_fst, List.flatMap_id']

/-- A list gives an id the contribution of its rank, and an id that it does not hold nothing. -/
def listScore (k : Int) (ranked : List α) (chunkId : α) : ℚ :=
  if chunkId ∈ ranked then contribution k (ranked.idxOf chunkId) else 0

/-- The fused score is the sum over all lists. -/
def rrf (k : Int) (rankedLists : List (List α)) (chunkId : α) : ℚ :=
  (rankedLists.map fun ranked => listScore k ranked chunkId).sum

/-- Every list in which the second id is ranked ranks the first one at least as well. -/
def RanksAtLeast (rankedLists : List (List α)) (first second : α) : Prop :=
  ∀ ranked ∈ rankedLists, second ∈ ranked →
    first ∈ ranked ∧ ranked.idxOf first ≤ ranked.idxOf second

variable {ranked : List α}

theorem tally_zipIdx (distinct : ranked.Nodup) (start : Nat) (chunkId : α) :
    tally ((ranked.zipIdx start).map fun entry => (entry.1, contribution k entry.2)) chunkId =
      if chunkId ∈ ranked then contribution k (start + ranked.idxOf chunkId) else 0 := by
  induction ranked generalizing start with
  | nil => rfl
  | cons head rest ih =>
      obtain ⟨apart, distinct⟩ := List.nodup_cons.mp distinct
      rw [List.zipIdx_cons, List.map_cons, tally_cons, ih distinct]
      by_cases same : head = chunkId
      · rw [← same, if_pos rfl, if_neg apart, if_pos List.mem_cons_self, List.idxOf_cons_self,
          add_zero, Nat.add_zero]
      · have other : chunkId ≠ head := fun equal => same equal.symm
        rw [if_neg same, zero_add, List.idxOf_cons_ne rest same]
        simp only [List.mem_cons, other, false_or]
        rw [show start + 1 + rest.idxOf chunkId = start + (rest.idxOf chunkId + 1) by omega]

variable {rankedLists : List (List α)}

/-- The score of the loops is the sum over all lists. -/
theorem fuse_score (k : Int) (distinct : ∀ ranked ∈ rankedLists, ranked.Nodup) (chunkId : α) :
    (fuse k rankedLists).score chunkId = rrf k rankedLists chunkId := by
  have sums : tally ((entriesOf rankedLists).map fun entry => (entry.1, contribution k entry.2))
      chunkId = rrf k rankedLists chunkId := by
    unfold entriesOf rrf
    induction rankedLists with
    | nil => rfl
    | cons ranked rest ih =>
        have later := ih fun other member => distinct other (List.mem_cons_of_mem _ member)
        rw [List.flatMap_cons, List.map_append, tally_append, later, List.map_cons, List.sum_cons,
          tally_zipIdx (distinct ranked List.mem_cons_self), Nat.zero_add]
        rfl
  have records := (fuse_records k rankedLists).scored chunkId
  unfold Fused.score
  rw [records, ← sums]
  split
  · rfl
  · next absent =>
      exact (tally_unrecorded absent).symm

/-- The order of the result: a higher score comes first, and of equal scores the id seen first. -/
def Before (k : Int) (rankedLists : List (List α)) (first second : α) : Prop :=
  rrf k rankedLists second < rrf k rankedLists first ∨
    rrf k rankedLists first = rrf k rankedLists second ∧
      rankedLists.flatten.idxOf first < rankedLists.flatten.idxOf second

/-- This is the fusion of ranked lists. -/
structure FusedRanking (k : Int) (rankedLists : List (List α)) (result : List α) : Prop where
  distinct : result.Nodup
  union : ∀ chunkId, chunkId ∈ result ↔ ∃ ranked ∈ rankedLists, chunkId ∈ ranked
  scores : ∀ chunkId, (fuse k rankedLists).score chunkId = rrf k rankedLists chunkId
  ordered : result.Pairwise (Before k rankedLists)
  single : ∀ ranked, rankedLists = [ranked] → result = ranked
  dominance : ∀ first ∈ result, ∀ second ∈ result, first ≠ second →
    RanksAtLeast rankedLists first second → result.idxOf first < result.idxOf second
  permuted : ∀ other, other.Perm rankedLists → ∀ chunkId,
    (fuse k other).score chunkId = (fuse k rankedLists).score chunkId

theorem contribution_pos (positive : 0 < k) (rank : Nat) : 0 < contribution k rank := by
  have above : (0 : ℚ) < k := by exact_mod_cast positive
  unfold contribution
  positivity

theorem contribution_le (positive : 0 < k) {rank later : Nat} (below : rank ≤ later) :
    contribution k later ≤ contribution k rank := by
  have above : (0 : ℚ) < k := by exact_mod_cast positive
  have ranks : (rank : ℚ) ≤ later := by exact_mod_cast below
  unfold contribution
  apply one_div_le_one_div_of_le
  · positivity
  · linarith

theorem contribution_lt (positive : 0 < k) {rank later : Nat} (below : rank < later) :
    contribution k later < contribution k rank := by
  have above : (0 : ℚ) < k := by exact_mod_cast positive
  have ranks : (rank : ℚ) < later := by exact_mod_cast below
  unfold contribution
  apply one_div_lt_one_div_of_lt
  · positivity
  · linarith

variable {first second : α}

/-- A list scores an id that it ranks at least as well at least as high. -/
theorem listScore_le (positive : 0 < k)
    (better : second ∈ ranked → first ∈ ranked ∧ ranked.idxOf first ≤ ranked.idxOf second) :
    listScore k ranked second ≤ listScore k ranked first := by
  unfold listScore
  by_cases member : second ∈ ranked
  · obtain ⟨known, below⟩ := better member
    rw [if_pos member, if_pos known]
    exact contribution_le positive below
  · rw [if_neg member]
    split
    · exact le_of_lt (contribution_pos positive _)
    · exact le_refl _

theorem listScore_lt (positive : 0 < k) (known : first ∈ ranked) (member : second ∈ ranked)
    (below : ranked.idxOf first < ranked.idxOf second) :
    listScore k ranked second < listScore k ranked first := by
  unfold listScore
  rw [if_pos member, if_pos known]
  exact contribution_lt positive below

/-- An id that is ranked at least as well everywhere has the higher score. -/
theorem rrf_lt (positive : 0 < k) (better : RanksAtLeast rankedLists first second)
    (apart : first ≠ second) (listed : ∃ ranked ∈ rankedLists, second ∈ ranked) :
    rrf k rankedLists second < rrf k rankedLists first := by
  obtain ⟨ranked, held, member⟩ := listed
  apply List.sum_lt_sum
  · intro other known
    exact listScore_le positive (better other known)
  · have ⟨known, below⟩ := better ranked held member
    have places : ranked.idxOf first ≠ ranked.idxOf second := fun same =>
      apart ((List.idxOf_inj known).mp same)
    exact ⟨ranked, held, listScore_lt positive known member (by omega)⟩

theorem Before.asymm (before : Before k rankedLists first second) :
    ¬ Before k rankedLists second first := by
  intro after
  rcases before with higher | ⟨equal, earlier⟩
  · rcases after with lower | ⟨same, _⟩
    · exact lt_asymm higher lower
    · exact absurd same (ne_of_lt higher)
  · rcases after with lower | ⟨_, later⟩
    · exact absurd equal.symm (ne_of_lt lower).symm
    · omega

/-- A single list is in its own order. -/
theorem before_single (positive : 0 < k) (distinct : ranked.Nodup) :
    ranked.Pairwise (Before k [ranked]) := by
  apply List.pairwise_iff_getElem.mpr
  intro place other within inside below
  apply Or.inl
  unfold rrf
  rw [List.map_singleton, List.map_singleton, List.sum_singleton, List.sum_singleton]
  apply listScore_lt positive (List.getElem_mem within) (List.getElem_mem inside)
  rw [distinct.idxOf_getElem, distinct.idxOf_getElem]
  exact below

/-- The ids of the scores are those of the lists. -/
theorem mem_fuse (k : Int) (rankedLists : List (List α)) (chunkId : α) :
    chunkId ∈ (fuse k rankedLists).scores ↔ chunkId ∈ rankedLists.flatten := by
  rw [← AList.lookup_isSome, (fuse_records k rankedLists).scored chunkId, entriesOf_names]
  split
  · next member => simp [member]
  · next absent => simp [absent]

/-- The keys of two ids are in the order of the result. -/
theorem before_of_key (distinct : ∀ ranked ∈ rankedLists, ranked.Nodup) (apart : first ≠ second)
    (known : first ∈ rankedLists.flatten) (member : second ∈ rankedLists.flatten)
    (below : (fuse k rankedLists).key first ≤ (fuse k rankedLists).key second) :
    Before k rankedLists first second := by
  have records := fuse_records k rankedLists
  have found {chunkId : α} (listed : chunkId ∈ rankedLists.flatten) :
      ∃ place, (fuse k rankedLists).firstSeen.lookup chunkId = some place := by
    apply Option.isSome_iff_exists.mp
    apply AList.lookup_isSome.mpr
    apply (records.seen chunkId).mpr
    rw [entriesOf_names]
    exact listed
  obtain ⟨place, seen⟩ := found known
  obtain ⟨other, noted⟩ := found member
  have order := records.ascending first second place other seen noted
  have back := records.ascending second first other place noted seen
  rw [entriesOf_names] at order back
  unfold Fused.key at below
  rw [fuse_score k distinct, fuse_score k distinct, seen, noted, Option.getD_some, Option.getD_some,
    Prod.Lex.toLex_le_toLex] at below
  rcases below with higher | ⟨equal, earlier⟩
  · exact Or.inl (neg_lt_neg_iff.mp higher)
  · have places : rankedLists.flatten.idxOf first ≠ rankedLists.flatten.idxOf second := fun same =>
      apart ((List.idxOf_inj known).mp same)
    exact Or.inr ⟨neg_injective equal, by dsimp only at earlier; omega⟩

/-- The fusion of lists without repetition is the ids of all lists, best score first. -/
theorem reciprocalRankFusion_fuses (k : Int) (positive : 0 < k) (rankedLists : List (List α))
    (distinct : ∀ ranked ∈ rankedLists, ranked.Nodup) :
    ∃ result, reciprocalRankFusion rankedLists k = .ok result ∧ FusedRanking k rankedLists result := by
  have sorted := sortedBy_perm (fuse k rankedLists).key (fuse k rankedLists).scores.keys
  have once : (sortedBy (fuse k rankedLists).key (fuse k rankedLists).scores.keys).Nodup :=
    sorted.nodup_iff.mpr (AList.keys_nodup _)
  have members (chunkId : α) :
      chunkId ∈ sortedBy (fuse k rankedLists).key (fuse k rankedLists).scores.keys ↔
        chunkId ∈ rankedLists.flatten := by
    rw [sorted.mem_iff, ← AList.mem_keys, mem_fuse]
  have ordered : (sortedBy (fuse k rankedLists).key (fuse k rankedLists).scores.keys).Pairwise
      (Before k rankedLists) := by
    have pairs := (sortedBy_pairwise (fuse k rankedLists).key
      (fuse k rankedLists).scores.keys).and once
    apply pairs.imp_of_mem
    intro first second known member both
    exact before_of_key distinct both.2 ((members first).mp known) ((members second).mp member) both.1
  refine ⟨_, if_neg (by omega), ?_⟩
  constructor
  · exact once
  · intro chunkId
    rw [members, List.mem_flatten]
  · exact fuse_score k distinct
  · exact ordered
  · intro ranked only
    subst only
    have single : ranked.Nodup := distinct ranked List.mem_cons_self
    apply List.Perm.eq_of_pairwise _ ordered (before_single positive single)
    · apply (List.perm_ext_iff_of_nodup once single).mpr
      intro chunkId
      rw [members, List.flatten_singleton]
    · intro first second _ _ before after
      exact absurd after before.asymm
  · intro first known second member apart better
    by_contra late
    have places : List.idxOf first _ ≠ List.idxOf second _ := fun same =>
      apart ((List.idxOf_inj known).mp same)
    have after := List.pairwise_iff_getElem.mp ordered _ _ (List.idxOf_lt_length_of_mem member)
      (List.idxOf_lt_length_of_mem known) (by omega)
    rw [List.getElem_idxOf, List.getElem_idxOf] at after
    have higher := rrf_lt positive better apart (List.mem_flatten.mp ((members second).mp member))
    exact after.asymm (Or.inl higher)
  · intro other permuted chunkId
    rw [fuse_score k distinct, fuse_score k fun ranked member =>
      distinct ranked (permuted.mem_iff.mp member)]
    exact (permuted.map _).sum_eq

/-- Two signals that share a chunk are fused. -/
theorem reciprocalRankFusion_fuses_signals :
    ∃ result, reciprocalRankFusion [[1, 2], [3, 1]] 60 = .ok result ∧
      FusedRanking 60 [[1, 2], [3, 1]] result :=
  reciprocalRankFusion_fuses 60 (by decide) [[1, 2], [3, 1]] (by decide)

end LumenCopilot.Retrieval.Fusion
