import Mathlib

namespace LumenCopilot.Library

variable {κ τ : Type}

/-- A lease table gives a key the token and the expiry of its lease. -/
abbrev LeaseTable (κ τ : Type) : Type := κ → Option (τ × Nat)

/-- No unexpired lease of the key is in the table. -/
def LeaseTable.Free (now : Nat) (table : LeaseTable κ τ) (key : κ) : Prop :=
  ∀ token expiry, table key = some (token, expiry) → expiry ≤ now

/-- The second table has lost only leases that are expired. -/
def LeaseTable.Prunes (now : Nat) (before after : LeaseTable κ τ) : Prop :=
  ∀ key, after key = before key ∨ after key = none ∧ before.Free now key

/-- The second table has lost some leases. -/
def LeaseTable.Shrinks (before after : LeaseTable κ τ) : Prop :=
  ∀ key, after key = before key ∨ after key = none

/-- An event grants, extends or drops one lease, or does nothing to the leases that are unexpired. -/
inductive LeaseEvent (κ τ : Type) where
  | grant (key : κ) (token : τ) (expiry : Nat)
  | extend (key : κ) (token : τ) (expiry : Nat)
  | drop (key : κ) (token : τ)
  | idle

/-- An event moves the table only under its guard. -/
inductive LeaseTable.Moves [DecidableEq κ] (now : Nat) :
    LeaseEvent κ τ → LeaseTable κ τ → LeaseTable κ τ → Prop where
  | grant {before pruned after : LeaseTable κ τ} {key : κ} {token : τ} {expiry : Nat}
      (prunes : before.Prunes now pruned) (free : before.Free now key)
      (granted : after = Function.update pruned key (some (token, expiry))) :
      Moves now (.grant key token expiry) before after
  | extend {before after : LeaseTable κ τ} {key : κ} {token : τ} {expiry current : Nat}
      (holds : before key = some (token, current)) (live : now < current)
      (extended : after = Function.update before key (some (token, expiry))) :
      Moves now (.extend key token expiry) before after
  | drop {before after : LeaseTable κ τ} {key : κ} {token : τ}
      (holds : ∀ holder expiry, before key = some (holder, expiry) → holder = token)
      (dropped : after = Function.update before key none) :
      Moves now (.drop key token) before after
  | idle {before after : LeaseTable κ τ} (prunes : before.Prunes now after) :
      Moves now .idle before after

theorem LeaseTable.Prunes.refl (now : Nat) (table : LeaseTable κ τ) : table.Prunes now table :=
  fun _ => .inl rfl

variable {now expiry : Nat} {before after : LeaseTable κ τ} {key : κ} {token : τ}

/-- An unexpired lease survives the pruning. -/
theorem LeaseTable.Prunes.keeps (prunes : before.Prunes now after)
    (holds : before key = some (token, expiry)) (live : now < expiry) :
    after key = some (token, expiry) := by
  rcases prunes key with same | ⟨-, free⟩
  · rw [same, holds]
  · have expired := free token expiry holds
    omega

variable [DecidableEq κ]

variable {event : LeaseEvent κ τ}

/-- Only an event with the token of an unexpired lease extends or drops it. -/
theorem LeaseTable.Moves.guarded (moves : Moves now event before after)
    (holds : before key = some (token, expiry)) (live : now < expiry) :
    after key = some (token, expiry) ∨
      (∃ later, event = .extend key token later ∧ after key = some (token, later)) ∨
      (event = .drop key token ∧ after key = none) := by
  cases moves with
  | @grant _ pruned _ granted _ _ prunes free moved =>
      have other : key ≠ granted := by
        rintro rfl
        have expired := free token expiry holds
        omega
      left
      rw [moved, Function.update_of_ne other, prunes.keeps holds live]
  | @extend _ _ extended holder later current owns _ moved =>
      by_cases same : key = extended
      · subst same
        rw [holds] at owns
        obtain ⟨rfl, -⟩ := Prod.mk.inj (Option.some.inj owns)
        exact .inr (.inl ⟨later, rfl, by rw [moved, Function.update_self]⟩)
      · left
        rw [moved, Function.update_of_ne same, holds]
  | @drop _ _ dropped holder owns moved =>
      by_cases same : key = dropped
      · subst same
        obtain rfl := owns token expiry holds
        exact .inr (.inr ⟨rfl, by rw [moved, Function.update_self]⟩)
      · left
        rw [moved, Function.update_of_ne same, holds]
  | idle prunes => exact .inl (prunes.keeps holds live)

/-- The token of a lease was there before the event, or the event granted it. -/
theorem LeaseTable.Moves.token_source (moves : Moves now event before after)
    (holds : after key = some (token, expiry)) :
    (∃ current, before key = some (token, current)) ∨ ∃ term, event = .grant key token term := by
  cases moves with
  | @grant _ pruned _ granted holder term prunes _ moved =>
      by_cases same : key = granted
      · subst same
        rw [moved, Function.update_self] at holds
        obtain ⟨rfl, -⟩ := Prod.mk.inj (Option.some.inj holds)
        exact .inr ⟨term, rfl⟩
      · rw [moved, Function.update_of_ne same] at holds
        rcases prunes key with kept | ⟨gone, -⟩
        · exact .inl ⟨expiry, kept ▸ holds⟩
        · rw [gone] at holds
          contradiction
  | @extend _ _ extended holder later current owns live moved =>
      by_cases same : key = extended
      · subst same
        rw [moved, Function.update_self] at holds
        obtain ⟨rfl, -⟩ := Prod.mk.inj (Option.some.inj holds)
        exact .inl ⟨current, owns⟩
      · rw [moved, Function.update_of_ne same] at holds
        exact .inl ⟨expiry, holds⟩
  | @drop _ _ dropped holder owns moved =>
      by_cases same : key = dropped
      · subst same
        rw [moved, Function.update_self] at holds
        contradiction
      · rw [moved, Function.update_of_ne same] at holds
        exact .inl ⟨expiry, holds⟩
  | idle prunes =>
      rcases prunes key with kept | ⟨gone, -⟩
      · exact .inl ⟨expiry, kept ▸ holds⟩
      · rw [gone] at holds
        contradiction

/-- The token holds no unexpired lease of the key. -/
def LeaseTable.Spent (now : Nat) (table : LeaseTable κ τ) (key : κ) (token : τ) : Prop :=
  ∀ expiry, table key = some (token, expiry) → expiry ≤ now

omit [DecidableEq κ] in
theorem LeaseTable.Spent.mono {later : Nat} {table : LeaseTable κ τ}
    (spent : table.Spent now key token) (passes : now ≤ later) : table.Spent later key token :=
  fun expiry holds => Nat.le_trans (spent expiry holds) passes

omit [DecidableEq κ] in
theorem LeaseTable.Spent.shrinks (spent : before.Spent now key token)
    (shrinks : before.Shrinks after) : after.Spent now key token := by
  intro expiry holds
  rcases shrinks key with same | gone
  · exact spent expiry (same ▸ holds)
  · rw [gone] at holds
    contradiction

/-- A token that has lost its lease gets it back only by a new grant. -/
theorem LeaseTable.Moves.spent (moves : Moves now event before after)
    (ungranted : ∀ expiry, event ≠ .grant key token expiry) (spent : before.Spent now key token) :
    after.Spent now key token := by
  intro expiry holds
  cases moves with
  | @grant _ pruned _ granted holder term prunes _ moved =>
      by_cases same : key = granted
      · subst same
        rw [moved, Function.update_self] at holds
        obtain ⟨rfl, -⟩ := Prod.mk.inj (Option.some.inj holds)
        exact absurd rfl (ungranted term)
      · rw [moved, Function.update_of_ne same] at holds
        rcases prunes key with kept | ⟨gone, -⟩
        · exact spent expiry (kept ▸ holds)
        · rw [gone] at holds
          contradiction
  | @extend _ _ extended holder later current owns live moved =>
      by_cases same : key = extended
      · subst same
        rw [moved, Function.update_self] at holds
        obtain ⟨rfl, -⟩ := Prod.mk.inj (Option.some.inj holds)
        have expired := spent current owns
        omega
      · rw [moved, Function.update_of_ne same] at holds
        exact spent expiry holds
  | @drop _ _ dropped holder owns moved =>
      by_cases same : key = dropped
      · subst same
        rw [moved, Function.update_self] at holds
        contradiction
      · rw [moved, Function.update_of_ne same] at holds
        exact spent expiry holds
  | idle prunes =>
      rcases prunes key with kept | ⟨gone, -⟩
      · exact spent expiry (kept ▸ holds)
      · rw [gone] at holds
        contradiction

/-- This function renames the key of an event. -/
def LeaseEvent.map {κ' : Type} (rename : κ → κ') : LeaseEvent κ τ → LeaseEvent κ' τ
  | .grant key token expiry => .grant (rename key) token expiry
  | .extend key token expiry => .extend (rename key) token expiry
  | .drop key token => .drop (rename key) token
  | .idle => .idle

section Parts

variable {ι : Type} [DecidableEq ι]

/-- This function replaces one part of a table. -/
def LeaseTable.replace (table : LeaseTable (ι × κ) τ) (index : ι) (part : LeaseTable κ τ) :
    LeaseTable (ι × κ) τ :=
  fun key => if key.1 = index then part key.2 else table key

theorem LeaseTable.replace_update (table : LeaseTable (ι × κ) τ) (index : ι)
    (part : LeaseTable κ τ) (key : κ) (lease : Option (τ × Nat)) :
    table.replace index (Function.update part key lease) =
      Function.update (table.replace index part) (index, key) lease := by
  funext ⟨other, place⟩
  by_cases inside : other = index
  · subst inside
    by_cases same : place = key
    · subst same
      simp [LeaseTable.replace]
    · simp [LeaseTable.replace, Function.update, same]
  · simp [LeaseTable.replace, Function.update, inside]

omit [DecidableEq κ] in
theorem LeaseTable.replace_self (table : LeaseTable (ι × κ) τ) (index : ι) :
    table.replace index (fun key => table (index, key)) = table := by
  funext ⟨other, place⟩
  by_cases inside : other = index
  · subst inside
    simp [LeaseTable.replace]
  · simp [LeaseTable.replace, inside]

omit [DecidableEq κ] in
theorem LeaseTable.Prunes.replace {table : LeaseTable (ι × κ) τ} {index : ι} {part : LeaseTable κ τ}
    (prunes : LeaseTable.Prunes now (fun key => table (index, key)) part) :
    table.Prunes now (table.replace index part) := by
  rintro ⟨other, place⟩
  by_cases inside : other = index
  · subst inside
    simpa [LeaseTable.replace, LeaseTable.Free] using prunes place
  · left
    simp [LeaseTable.replace, inside]

/-- A move of one part is a move of the table. -/
theorem LeaseTable.Moves.replace {table : LeaseTable (ι × κ) τ} {index : ι} {part : LeaseTable κ τ}
    (moves : Moves now event (fun key => table (index, key)) part) :
    Moves now (event.map (Prod.mk index)) table (table.replace index part) := by
  cases moves with
  | grant prunes free granted =>
      refine .grant prunes.replace free ?_
      rw [granted, LeaseTable.replace_update]
  | extend holds live extended =>
      refine .extend holds live ?_
      rw [extended, LeaseTable.replace_update, LeaseTable.replace_self]
  | drop holds dropped =>
      refine .drop holds ?_
      rw [dropped, LeaseTable.replace_update, LeaseTable.replace_self]
  | idle prunes => exact .idle prunes.replace

end Parts

end LumenCopilot.Library
