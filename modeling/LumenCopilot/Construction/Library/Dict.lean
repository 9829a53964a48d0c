import Mathlib

namespace LumenCopilot.Library

/-- A dictionary keeps at most one value for a key. -/
abbrev Dict (κ ν : Type) : Type := AList fun _ : κ => ν

variable {κ ν : Type}

/-- This function keeps the entries that pass the test. -/
def Dict.filter (keep : κ → ν → Bool) (dict : Dict κ ν) : Dict κ ν where
  entries := dict.entries.filter fun entry => keep entry.1 entry.2
  nodupKeys := dict.nodupKeys.sublist List.filter_sublist

/-- This is the number of entries. -/
def Dict.size (dict : Dict κ ν) : Nat := dict.entries.length

/-- This is the assignment of a value: a known key keeps its place, a new one comes last. -/
def Dict.assign [DecidableEq κ] (dict : Dict κ ν) (key : κ) (value : ν) : Dict κ ν :=
  if absent : key ∉ dict then
    { entries := dict.entries ++ [⟨key, value⟩]
      nodupKeys := by
        have ordered := List.perm_append_singleton (⟨key, value⟩ : Sigma fun _ : κ => ν) dict.entries
        refine (List.perm_nodupKeys ordered).mpr ?_
        exact List.nodupKeys_cons.mpr ⟨absent, dict.nodupKeys⟩ }
  else dict.replace key value

/-- This function keeps the first entries. -/
def Dict.take (count : Nat) (dict : Dict κ ν) : Dict κ ν where
  entries := dict.entries.take count
  nodupKeys := dict.nodupKeys.sublist (List.take_sublist count dict.entries)

/-- This function changes every value. -/
def Dict.mapValues {μ : Type} (change : ν → μ) (dict : Dict κ ν) : Dict κ μ where
  entries := dict.entries.map fun entry => ⟨entry.1, change entry.2⟩
  nodupKeys := by
    have keys : (dict.entries.map fun entry => (⟨entry.1, change entry.2⟩ : Sigma fun _ : κ => μ)).keys =
        dict.entries.keys := by
      simp [List.keys, Function.comp_def]
    show List.Nodup _
    rw [keys]
    exact dict.nodupKeys

/-- This is the sum of the values. -/
def Dict.total (dict : Dict κ Nat) : Nat := (dict.entries.map Sigma.snd).sum

/-- This is `sorted(items, key=key)`, which keeps the order of items with equal keys. -/
def sortedBy {α κ : Type} [LinearOrder κ] (key : α → κ) (items : List α) : List α :=
  items.insertionSort fun first second => key first ≤ key second

/-- These are the items of a `defaultdict(list)` that got each value under its key. -/
def grouped {κ α : Type} [DecidableEq κ] (entries : List (κ × α)) : List (κ × List α) :=
  (entries.map Prod.fst).eraseDups.map fun key =>
    (key, (entries.filter fun entry => entry.1 = key).map Prod.snd)

/-- This is `Counter(values).most_common()`. -/
def mostCommon {α : Type} [DecidableEq α] (values : List α) : List (α × Nat) :=
  sortedBy (fun entry => OrderDual.toDual entry.2)
    (values.eraseDups.map fun value => (value, values.count value))

end LumenCopilot.Library
