import LumenCopilot.Construction.Library.Dict

namespace LumenCopilot.Library

variable {κ ν : Type}

/-- The kept keys are distinct. -/
theorem Dict.keys_length (dict : Dict κ ν) : dict.keys.length = dict.size := by
  simp [AList.keys, Dict.size, List.keys]

variable {dict : Dict κ ν}

theorem Dict.eq_empty_of_size (vanishes : dict.size = 0) : dict = ∅ := by
  apply AList.ext
  exact List.length_eq_zero_iff.mp vanishes

theorem Dict.eq_empty_of_forall (vacant : ∀ key, key ∉ dict) : dict = ∅ := by
  apply AList.ext
  apply List.eq_nil_iff_forall_not_mem.mpr
  intro entry member
  exact vacant entry.1 (List.mem_keys_of_mem member)

theorem Dict.size_filter_le (keep : κ → ν → Bool) (dict : Dict κ ν) :
    (dict.filter keep).size ≤ dict.size :=
  List.length_filter_le _ _

variable {μ : Type}

/-- A change of the values keeps the keys. -/
@[simp] theorem Dict.keys_mapValues (change : ν → μ) (dict : Dict κ ν) :
    (dict.mapValues change).keys = dict.keys := by
  simp [AList.keys, Dict.mapValues, List.keys, Function.comp_def]

variable {change : ν → μ}

@[simp] theorem Dict.mem_mapValues {key : κ} : key ∈ dict.mapValues change ↔ key ∈ dict := by
  show key ∈ (dict.mapValues change).keys ↔ key ∈ dict.keys
  rw [Dict.keys_mapValues]

variable [DecidableEq κ]

/-- A filtered dictionary has the entries that pass the test. -/
@[simp] theorem Dict.lookup_filter (keep : κ → ν → Bool) (dict : Dict κ ν) (key : κ) :
    (dict.filter keep).lookup key = (dict.lookup key).filter (keep key) := by
  apply Option.ext
  intro value
  rw [← Option.mem_def, AList.mem_lookup_iff, ← Option.mem_def, Option.mem_filter_iff,
    AList.mem_lookup_iff]
  simp [Dict.filter]

/-- An entry is added to a dictionary that does not have its key. -/
theorem Dict.size_insert {key : κ} (fresh : dict.lookup key = none) (value : ν) :
    Dict.size (dict.insert key value) = dict.size + 1 := by
  have absent : key ∉ dict := AList.lookup_eq_none.mp fresh
  rw [Dict.size, AList.entries_insert_of_notMem absent, List.length_cons, Dict.size]

/-- The kept keys are those whose value passes the test. -/
theorem Dict.mem_keys_filter {keep : κ → ν → Bool} {key : κ} :
    key ∈ (dict.filter keep).keys ↔ ∃ value, dict.lookup key = some value ∧ keep key value = true := by
  rw [← AList.mem_keys, ← AList.lookup_isSome, Dict.lookup_filter]
  simp [Option.isSome_filter, Option.any_eq_true]

/-- A new key comes last. -/
theorem Dict.entries_assign {key : κ} (fresh : key ∉ dict) (value : ν) :
    (dict.assign key value).entries = dict.entries ++ [⟨key, value⟩] := by
  simp [Dict.assign, fresh]

theorem Dict.size_assign {key : κ} (fresh : key ∉ dict) (value : ν) :
    (dict.assign key value).size = dict.size + 1 := by
  simp [Dict.size, Dict.entries_assign fresh]

variable {value : ν}

theorem Dict.lookup_eq_some_iff {key : κ} :
    dict.lookup key = some value ↔ ⟨key, value⟩ ∈ dict.entries :=
  AList.mem_lookup_iff

/-- The entries of an extended dictionary are the old ones and the new one. -/
theorem Dict.lookup_assign {key : κ} (fresh : key ∉ dict) (value : ν) (other : κ) :
    (dict.assign key value).lookup other = if other = key then some value else dict.lookup other := by
  apply Option.ext
  intro found
  rw [Dict.lookup_eq_some_iff, Dict.entries_assign fresh, List.mem_append, List.mem_singleton]
  by_cases same : other = key
  · subst same
    have absent : (⟨other, found⟩ : Sigma fun _ : κ => ν) ∉ dict.entries := by
      intro member
      exact fresh (List.mem_keys_of_mem member)
    simp [absent, eq_comm]
  · simp [same, ← Dict.lookup_eq_some_iff]

variable {rows : List (Sigma fun _ : κ => ν)}

theorem dlookup_kreplace {key : κ} (value : ν) (other : κ) (known : key ∈ rows.keys) :
    (rows.kreplace key value).dlookup other =
      if other = key then some value else rows.dlookup other := by
  induction rows with
  | nil => contradiction
  | cons row rest ih =>
      by_cases here : key = row.1
      · have replaced : (row :: rest).kreplace key value = ⟨key, value⟩ :: rest :=
          List.lookmap_cons_some _ _ (if_pos here)
        rw [replaced]
        by_cases same : other = key
        · rw [same, List.dlookup_cons_eq, if_pos rfl]
        · rw [List.dlookup_cons_ne rest (⟨key, value⟩ : Sigma fun _ : κ => ν) same, if_neg same,
            List.dlookup_cons_ne _ row (by rw [← here]; exact same)]
      · have later : key ∈ rest.keys := by
          simpa [here] using known
        have kept : (row :: rest).kreplace key value = row :: rest.kreplace key value :=
          List.lookmap_cons_none _ _ (if_neg here)
        rw [kept]
        by_cases same : other = row.1
        · cases row
          subst same
          simp [Ne.symm here]
        · rw [List.dlookup_cons_ne _ row same, List.dlookup_cons_ne _ row same,
            ih later]

/-- An assignment gives its key the value and keeps every other key's. -/
theorem Dict.lookup_assigned (dict : Dict κ ν) (key : κ) (value : ν) (other : κ) :
    (dict.assign key value).lookup other = if other = key then some value else dict.lookup other := by
  by_cases fresh : key ∉ dict
  · exact Dict.lookup_assign fresh value other
  · rw [Dict.assign, dif_neg fresh]
    exact dlookup_kreplace value other (not_not.mp fresh)
theorem Dict.mem_assign {dict : Dict κ ν} {key : κ} (fresh : key ∉ dict) (value : ν) (other : κ) :
    other ∈ dict.assign key value ↔ other = key ∨ other ∈ dict := by
  rw [← AList.lookup_isSome, Dict.lookup_assign fresh, ← AList.lookup_isSome]
  by_cases same : other = key <;> simp [same]

/-- The assignment of the value that a key has changes nothing. -/
theorem Dict.assign_same {key : κ} (known : dict.lookup key = some value) :
    dict.assign key value = dict := by
  have member : key ∈ dict := by
    rw [← AList.lookup_isSome, known]
    rfl
  rw [Dict.assign, dif_neg (not_not.mpr member)]
  apply AList.ext
  exact List.kreplace_self dict.nodupKeys (Dict.lookup_eq_some_iff.mp known)

theorem Dict.mapValues_assign {key : κ} (fresh : key ∉ dict) (value : ν) :
    (dict.assign key value).mapValues change = (dict.mapValues change).assign key (change value) := by
  have absent : key ∉ dict.mapValues change := fun found => fresh (Dict.mem_mapValues.mp found)
  apply AList.ext
  rw [Dict.entries_assign absent]
  simp [Dict.mapValues, Dict.entries_assign fresh]

/-- The first entry is erased by its key. -/
theorem Dict.entries_erase_head {oldest : Sigma fun _ : κ => ν} {rest : List (Sigma fun _ : κ => ν)}
    (starts : dict.entries = oldest :: rest) : (dict.erase oldest.1).entries = rest := by
  show dict.entries.kerase oldest.1 = rest
  rw [starts]
  exact List.kerase_cons_eq rfl

/-- Rows with new and distinct keys are added to the dictionary. -/
theorem Dict.lookup_foldl_assign (distinct : rows.NodupKeys) (fresh : ∀ item ∈ rows, item.1 ∉ dict)
    (key : κ) :
    (rows.foldl (fun dict item => dict.assign item.1 item.2) dict).lookup key =
      (rows.dlookup key).or (dict.lookup key) := by
  induction rows generalizing dict with
  | nil => simp
  | cons item rest ih =>
      obtain ⟨apart, others⟩ := List.nodupKeys_cons.mp distinct
      have absent := fresh item List.mem_cons_self
      have later : ∀ other ∈ rest, other.1 ∉ dict.assign item.1 item.2 := by
        intro other member found
        rcases (Dict.mem_assign absent item.2 other.1).mp found with same | known
        · exact apart (same ▸ List.mem_keys_of_mem member)
        · exact fresh other (.tail _ member) known
      rw [List.foldl_cons, ih others later, Dict.lookup_assign absent]
      obtain ⟨first, value⟩ := item
      by_cases same : key = first
      · subst same
        have missing : rest.dlookup key = none := List.dlookup_eq_none.mpr apart
        simp [missing]
      · rw [List.dlookup_cons_ne rest ⟨first, value⟩ same]
        simp [same]

section Sorting

variable {α κ : Type} [LinearOrder κ] (key : α → κ) {items other : List α}

/-- Sorting permutes the items. -/
theorem sortedBy_perm (items : List α) : (sortedBy key items).Perm items :=
  List.perm_insertionSort _ items

theorem mem_sortedBy {item : α} : item ∈ sortedBy key items ↔ item ∈ items :=
  (sortedBy_perm key items).mem_iff

/-- The keys of the sorted items go up. -/
theorem sortedBy_pairwise (items : List α) :
    (sortedBy key items).Pairwise fun first second => key first ≤ key second := by
  have trans : IsTrans α fun first second => key first ≤ key second :=
    ⟨fun _ _ _ below above => below.trans above⟩
  have total : Std.Total fun first second : α => key first ≤ key second :=
    ⟨fun first second => le_total (key first) (key second)⟩
  exact List.pairwise_insertionSort _ items

/-- Sorted items stay as they are. -/
theorem sortedBy_of_pairwise (sorted : items.Pairwise fun first second => key first ≤ key second) :
    sortedBy key items = items :=
  sorted.insertionSort_eq

/-- The order of items with distinct keys does not matter. -/
theorem sortedBy_eq_of_perm (permuted : items.Perm other) (distinct : (items.map key).Nodup) :
    sortedBy key items = sortedBy key other := by
  have same : (sortedBy key items).Perm (sortedBy key other) :=
    ((sortedBy_perm key items).trans permuted).trans (sortedBy_perm key other).symm
  apply List.Perm.eq_of_pairwise _ (sortedBy_pairwise key items) (sortedBy_pairwise key other) same
  intro first second member known below above
  exact List.inj_on_of_nodup_map distinct ((mem_sortedBy key).mp member)
    (permuted.mem_iff.mpr ((mem_sortedBy key).mp known)) (le_antisymm below above)

end Sorting

section Groups

variable {κ α : Type} [DecidableEq κ] [DecidableEq α]

theorem mem_mostCommon {values : List α} {entry : α × Nat} :
    entry ∈ mostCommon values ↔ entry.1 ∈ values ∧ entry.2 = values.count entry.1 := by
  rw [mostCommon, mem_sortedBy, List.mem_map]
  constructor
  · rintro ⟨value, listed, rfl⟩
    exact ⟨List.mem_eraseDups.mp listed, rfl⟩
  · rintro ⟨listed, counted⟩
    exact ⟨entry.1, List.mem_eraseDups.mpr listed, Prod.ext rfl counted.symm⟩

omit [DecidableEq α] in
/-- A key's values are those of its entries. -/
theorem mem_grouped {entries : List (κ × α)} {group : κ × List α} :
    group ∈ grouped entries ↔ group.1 ∈ entries.map Prod.fst ∧
      group.2 = (entries.filter fun entry => entry.1 = group.1).map Prod.snd := by
  rw [grouped, List.mem_map]
  constructor
  · rintro ⟨key, listed, rfl⟩
    exact ⟨List.mem_eraseDups.mp listed, rfl⟩
  · rintro ⟨listed, values⟩
    exact ⟨group.1, List.mem_eraseDups.mpr listed, Prod.ext rfl values.symm⟩

end Groups

end LumenCopilot.Library
