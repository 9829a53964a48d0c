import LumenCopilot.Construction.Sandbox.Packages
import LumenCopilot.Proof.Library.Partial

namespace LumenCopilot.Sandbox

open Python Library

/-- A distribution name begins with a letter or digit and does not end in a dot or hyphen. -/
structure IsIdentifier (name : Text) : Prop where
  spelled : ∀ c ∈ name, isDistributionChar c = true
  begins : ∃ c ∈ name.head?, c.isAlphanum = true
  ends : ∃ c ∈ name.getLast?, c.isAlphanum = true ∨ c = '_'

/-- The text does not go on with a character of a distribution name. -/
def Breaks (tail : Text) : Prop := ∀ c ∈ tail.head?, isDistributionChar c = false

/-- This is the documented behaviour of `packaging`: a requirement begins with the longest run
of name characters, which has no influence on the rest, and a canonical name only replaces
separators by hyphens. -/
structure Lawful {Version : Type} (packaging : Packaging Version) : Prop where
  spelled : ∀ (value : Text) (requirement : Requirement),
    packaging.requirement value = some requirement →
      ∃ lead tail, value = lead ++ (requirement.name ++ tail) ∧ (∀ c ∈ lead, isSpace c = true) ∧
        IsIdentifier requirement.name ∧ Breaks tail
  renamed : ∀ (name other tail : Text) (requirement : Requirement), IsIdentifier name →
    IsIdentifier other → Breaks tail → packaging.requirement (name ++ tail) = some requirement →
      packaging.requirement (other ++ tail) = some { requirement with name := other }
  canonicalAgain : ∀ name : Text, IsIdentifier name →
    packaging.canonicalizeName (packaging.canonicalizeName name) = packaging.canonicalizeName name
  canonicalSpelled : ∀ name : Text, IsIdentifier name →
    packaging.canonicalizeName name ≠ [] ∧
      ∀ c ∈ packaging.canonicalizeName name, isDistributionChar c = true
  canonicalName : ∀ name : Text, IsIdentifier name → name.getLast? ≠ some '_' →
    IsIdentifier (packaging.canonicalizeName name)
  canonicalHyphen : ∀ name : Text, IsIdentifier name → name.getLast? = some '_' →
    (packaging.canonicalizeName name).getLast? = some '-'

variable {Version : Type}

/-- The image does not ship a version that satisfies the requirement of the text. -/
structure NeedsInstall (packaging : Packaging Version) (preinstalled : List Text) (raw : Text)
    (requirement : Requirement) : Prop where
  parsed : packaging.requirement (strip raw) = some requirement
  missing : satisfiedByImage packaging requirement ((preinstalledIndex packaging
    preinstalled).lookup (packaging.canonicalizeName requirement.name)) = false

variable {done : List Text} {state : Admission} {picks : List (Text × Requirement)}

section
variable (packaging : Packaging Version) (allowed denied preinstalled : List Text)

/-- The accepted texts come from one requirement for each name seen. -/
structure Picked (done : List Text) (state : Admission) (picks : List (Text × Requirement)) :
    Prop where
  accepted : state.accepted = picks.map fun pick =>
    renameLeading (packaging.canonicalizeName pick.2.name) (strip pick.1)
  seen : ∀ name, name ∈ state.seen ↔
    ∃ pick ∈ picks, packaging.canonicalizeName pick.2.name = name
  distinct : (picks.map fun pick => packaging.canonicalizeName pick.2.name).Nodup
  needed : ∀ pick ∈ picks, pick.1 ∈ done ∧ NeedsInstall packaging preinstalled pick.1 pick.2 ∧
    (packaging.canonicalizeName pick.2.name ∈ policyNames packaging allowed ∨
      ['*'] ∈ policyNames packaging allowed)
  clean : ∀ raw ∈ done, ∃ requirement,
    packaging.requirement (strip raw) = some requirement ∧ requirement.url = none ∧
      packaging.canonicalizeName requirement.name ∉ policyNames packaging denied ∧
      (NeedsInstall packaging preinstalled raw requirement →
        packaging.canonicalizeName requirement.name ∈ state.seen)

variable {packaging allowed denied preinstalled}

/-- A request that leaves the state as it is was satisfied or seen. -/
theorem Picked.pass (picked : Picked packaging allowed denied preinstalled done state picks)
    (raw : Text) (requirement : Requirement)
    (parsed : packaging.requirement (strip raw) = some requirement)
    (local' : requirement.url = none)
    (undenied : packaging.canonicalizeName requirement.name ∉ policyNames packaging denied)
    (covered : NeedsInstall packaging preinstalled raw requirement →
      packaging.canonicalizeName requirement.name ∈ state.seen) :
    Picked packaging allowed denied preinstalled (done ++ [raw]) state picks := by
  refine ⟨picked.accepted, picked.seen, picked.distinct, ?_, ?_⟩
  · intro pick member
    obtain ⟨before, rest⟩ := picked.needed pick member
    exact ⟨List.mem_append_left _ before, rest⟩
  · intro other member
    rcases List.mem_append.mp member with before | last
    · exact picked.clean other before
    · obtain rfl := List.mem_singleton.mp last
      exact ⟨requirement, parsed, local', undenied, covered⟩

/-- A request for a new name is a new pick. -/
theorem Picked.pick (picked : Picked packaging allowed denied preinstalled done state picks)
    (raw : Text) (requirement : Requirement)
    (needs : NeedsInstall packaging preinstalled raw requirement) (local' : requirement.url = none)
    (undenied : packaging.canonicalizeName requirement.name ∉ policyNames packaging denied)
    (granted : packaging.canonicalizeName requirement.name ∈ policyNames packaging allowed ∨
      ['*'] ∈ policyNames packaging allowed)
    (fresh : packaging.canonicalizeName requirement.name ∉ state.seen) :
    Picked packaging allowed denied preinstalled (done ++ [raw])
      ⟨state.accepted ++ [renameLeading (packaging.canonicalizeName requirement.name) (strip raw)],
        packaging.canonicalizeName requirement.name :: state.seen⟩
      (picks ++ [(raw, requirement)]) := by
  refine ⟨?_, ?_, ?_, ?_, ?_⟩
  · rw [List.map_append, picked.accepted]
    rfl
  · intro name
    rw [List.mem_cons, picked.seen]
    simp only [List.mem_append, List.mem_singleton, or_and_right, exists_or, exists_eq_left]
    rw [or_comm, eq_comm]
  · rw [List.map_append, List.map_singleton, List.nodup_append]
    refine ⟨picked.distinct, List.nodup_singleton _, ?_⟩
    intro name member other last same
    rw [List.mem_singleton.mp last] at same
    obtain ⟨pick, inside, rfl⟩ := List.mem_map.mp member
    exact fresh ((picked.seen _).mpr ⟨pick, inside, same⟩)
  · intro pick member
    rcases List.mem_append.mp member with before | last
    · obtain ⟨earlier, rest⟩ := picked.needed pick before
      exact ⟨List.mem_append_left _ earlier, rest⟩
    · obtain rfl := List.mem_singleton.mp last
      exact ⟨List.mem_append_right _ List.mem_cons_self, needs, granted⟩
  · intro other member
    rcases List.mem_append.mp member with before | last
    · obtain ⟨found, parsed, url, denial, covered⟩ := picked.clean other before
      exact ⟨found, parsed, url, denial, fun missing => List.mem_cons_of_mem _ (covered missing)⟩
    · obtain rfl := List.mem_singleton.mp last
      exact ⟨requirement, needs.parsed, local', undenied, fun _ => List.mem_cons_self⟩

/-- A request that goes through is a new pick, or the state stays as it is. -/
theorem Picked.step {next : Admission}
    (picked : Picked packaging allowed denied preinstalled done state picks) (raw : Text)
    (admits : admitPackage packaging (policyNames packaging allowed)
      (policyNames packaging denied) (preinstalledIndex packaging preinstalled) state raw =
        .ok next) :
    ∃ after, Picked packaging allowed denied preinstalled (done ++ [raw]) next after := by
  unfold admitPackage at admits
  dsimp only at admits
  split at admits
  · contradiction
  · next requirement parsed =>
      split at admits
      · contradiction
      · next url =>
          have local' : requirement.url = none := by simpa using url
          split at admits
          · contradiction
          · next undenied =>
              split at admits
              · next satisfied =>
                  obtain rfl := Except.ok.inj admits
                  refine ⟨picks, picked.pass raw requirement parsed local' undenied ?_⟩
                  intro needs
                  exact absurd (needs.missing.symm.trans satisfied) Bool.false_ne_true
              · next missing =>
                  split at admits
                  · contradiction
                  · next granted =>
                      split at admits
                      · next before =>
                          obtain rfl := Except.ok.inj admits
                          exact ⟨picks, picked.pass raw requirement parsed local' undenied
                            fun _ => before⟩
                      · next fresh =>
                          obtain rfl := Except.ok.inj admits
                          refine ⟨picks ++ [(raw, requirement)], picked.pick raw requirement
                            ⟨parsed, by simpa using missing⟩ local' undenied ?_ fresh⟩
                          by_contra neither
                          push Not at neither
                          exact granted ⟨neither.2, neither.1⟩

/-- The loop ends with picks for the whole request list. -/
theorem validateRequestedPackages_picked (requested accepted : List Text)
    (validated : validateRequestedPackages packaging requested allowed denied preinstalled =
      .ok accepted) :
    ∃ state picks, Picked packaging allowed denied preinstalled requested state picks ∧
      state.accepted = accepted := by
  obtain ⟨state, runs, same⟩ := (map_eq_ok_iff _ _ _).mp validated
  have reached := foldlM_history _
    (fun done state => ∃ picks, Picked packaging allowed denied preinstalled done state picks)
    (by
      intro done current raw next held admits
      obtain ⟨picks, picked⟩ := held
      exact picked.step raw admits)
    requested [] {} state ⟨[], rfl, by simp, List.nodup_nil, by simp, by simp⟩ runs
  obtain ⟨picks, picked⟩ := reached
  exact ⟨state, picks, picked, same⟩

end

theorem strip_begins (raw : Text) (c : Char) (rest : Text) (begins : strip raw = c :: rest) :
    isSpace c = false := by
  unfold strip lstrip at begins
  have stops := List.head?_dropWhile_not isSpace (rstrip raw)
  rw [begins] at stops
  simpa using stops

theorem isDistributionChar_plain {c : Char} (legal : isDistributionChar c = true) :
    isSpace c = false := by
  by_contra spaced
  rw [Bool.not_eq_false] at spaced
  simp only [isDistributionChar, isSpace, Char.isAlphanum, Char.isAlpha, Char.isUpper, Char.isLower,
    Char.isDigit, Bool.or_eq_true, Bool.and_eq_true, decide_eq_true_eq, beq_iff_eq] at legal spaced
  have ranges : c.toNat = 45 ∨ c.toNat = 46 ∨ c.toNat = 95 ∨ (48 ≤ c.toNat ∧ c.toNat ≤ 57) ∨
      (65 ≤ c.toNat ∧ c.toNat ≤ 90) ∨ (97 ≤ c.toNat ∧ c.toNat ≤ 122) := by
    rcases legal with ((((upper | lower) | digit) | rfl) | rfl) | rfl
    · exact Or.inr (Or.inr (Or.inr (Or.inr (Or.inl ⟨upper.1, upper.2⟩))))
    · exact Or.inr (Or.inr (Or.inr (Or.inr (Or.inr ⟨lower.1, lower.2⟩))))
    · exact Or.inr (Or.inr (Or.inr (Or.inl ⟨digit.1, digit.2⟩)))
    · decide
    · decide
    · decide
  omega

variable {tail : Text}

/-- A text begins with one longest run of name characters. -/
theorem longest_run {name : Text} (spelled : ∀ c ∈ name, isDistributionChar c = true)
    (breaks : Breaks tail) : (name ++ tail).takeWhile isDistributionChar = name ∧
      (name ++ tail).dropWhile isDistributionChar = tail := by
  have stops : tail.takeWhile isDistributionChar = [] ∧ tail.dropWhile isDistributionChar = tail := by
    cases tail with
    | nil => exact ⟨rfl, rfl⟩
    | cons c rest =>
        have breaksHere := breaks c rfl
        exact ⟨by rw [List.takeWhile_cons_of_neg (by simp [breaksHere])],
          by rw [List.dropWhile_cons_of_neg (by simp [breaksHere])]⟩
  constructor
  · rw [List.takeWhile_append_of_pos spelled, stops.1, List.append_nil]
  · rw [List.dropWhile_append_of_pos spelled, stops.2]

theorem names_unique {first second other : Text} (same : first ++ tail = second ++ other)
    (spelledFirst : ∀ c ∈ first, isDistributionChar c = true)
    (spelledSecond : ∀ c ∈ second, isDistributionChar c = true) (breaks : Breaks tail)
    (breaksOther : Breaks other) : first = second := by
  rw [← (longest_run spelledFirst breaks).1, same, (longest_run spelledSecond breaksOther).1]

theorem renameLeading_split {name : Text} (canonical : Text) (identifier : IsIdentifier name)
    (breaks : Breaks tail) : renameLeading canonical (name ++ tail) = canonical ++ tail := by
  obtain ⟨taken, rest⟩ := longest_run identifier.spelled breaks
  obtain ⟨c, begins, -⟩ := identifier.begins
  have nonempty : name.isEmpty = false := by
    cases name with
    | nil => contradiction
    | cons first others => rfl
  unfold renameLeading
  rw [taken, rest, nonempty]
  rfl

section
variable {packaging : Packaging Version} (lawful : Lawful packaging)
include lawful

/-- A requirement without leading whitespace begins with its name. -/
theorem Lawful.split (value : Text) (requirement : Requirement)
    (plain : ∀ c rest, value = c :: rest → isSpace c = false)
    (parsed : packaging.requirement value = some requirement) :
    ∃ tail, value = requirement.name ++ tail ∧ IsIdentifier requirement.name ∧ Breaks tail := by
  obtain ⟨lead, tail, rfl, blank, name, breaks⟩ := lawful.spelled value requirement parsed
  cases lead with
  | nil => exact ⟨tail, rfl, name, breaks⟩
  | cons c rest =>
      have spaced := blank c List.mem_cons_self
      exact absurd (spaced.symm.trans (plain c _ rfl)) (by decide)

/-- The canonical request is a requirement exactly when its name does not end in an underscore,
and then it differs in the name only. -/
theorem Lawful.renameLeading_iff (raw : Text) (requirement other : Requirement)
    (parsed : packaging.requirement (strip raw) = some requirement) :
    packaging.requirement
        (renameLeading (packaging.canonicalizeName requirement.name) (strip raw)) = some other ↔
      requirement.name.getLast? ≠ some '_' ∧
        other = { requirement with name := packaging.canonicalizeName requirement.name } := by
  obtain ⟨tail, text, name, breaks⟩ :=
    lawful.split (strip raw) requirement (strip_begins raw) parsed
  obtain ⟨nonempty, spelled⟩ := lawful.canonicalSpelled requirement.name name
  rw [text, renameLeading_split _ name breaks]
  constructor
  · intro reparsed
    have plain (c : Char) (rest : Text)
        (begins : packaging.canonicalizeName requirement.name ++ tail = c :: rest) :
        isSpace c = false := by
      cases canonical : packaging.canonicalizeName requirement.name with
      | nil => exact absurd canonical nonempty
      | cons first others =>
          rw [canonical, List.cons_append] at begins
          rw [← (List.cons.inj begins).1]
          exact isDistributionChar_plain (spelled first (canonical ▸ List.mem_cons_self))
    obtain ⟨others, same, identifier, breaksOther⟩ := lawful.split _ other plain reparsed
    have sameName := names_unique same spelled identifier.spelled breaks breaksOther
    have unended : requirement.name.getLast? ≠ some '_' := by
      intro ended
      have hyphen := lawful.canonicalHyphen requirement.name name ended
      obtain ⟨c, last, legal⟩ := identifier.ends
      rw [← sameName, hyphen] at last
      obtain rfl := Option.some.inj last
      exact absurd legal (by decide)
    refine ⟨unended, ?_⟩
    have renamed := lawful.renamed requirement.name _ tail requirement name
      (lawful.canonicalName requirement.name name unended) breaks (text ▸ parsed)
    exact Option.some.inj (reparsed.symm.trans renamed)
  · intro ⟨unended, same⟩
    rw [same]
    exact lawful.renamed requirement.name _ tail requirement name
      (lawful.canonicalName requirement.name name unended) breaks (text ▸ parsed)

theorem Lawful.identifier (raw : Text) (requirement : Requirement)
    (parsed : packaging.requirement (strip raw) = some requirement) :
    IsIdentifier requirement.name := by
  obtain ⟨-, -, name, -⟩ := lawful.split (strip raw) requirement (strip_begins raw) parsed
  exact name

end

end LumenCopilot.Sandbox
