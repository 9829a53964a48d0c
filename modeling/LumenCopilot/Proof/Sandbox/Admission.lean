import LumenCopilot.Proof.Sandbox.Packages

namespace LumenCopilot.Sandbox

open Python

def isSeparator (c : Char) : Bool := c == '_' || c == '.' || c == '-'

/-- A canonical name has one hyphen for each run of separators and no capital letters. -/
def collapse : Bool → Text → Text
  | _, [] => []
  | after, c :: rest =>
      if isSeparator c then if after then collapse true rest else '-' :: collapse true rest
      else c.toLower :: collapse false rest

def isIdentifier (name : Text) : Bool :=
  name.head?.any (·.isAlphanum) && name.getLast?.any fun c => c.isAlphanum || c == '_'

/-- The tail of a plain requirement is empty or one clause. -/
def plainClauses (tail : Text) : Option (List VersionClause) :=
  if tail.isEmpty then some []
  else if startsWith tail "==".toList then some [⟨"==".toList, tail.drop 2⟩]
  else if startsWith tail ">=".toList then some [⟨">=".toList, tail.drop 2⟩]
  else none

def plainRequirement (value : Text) : Option Requirement :=
  if isIdentifier (value.takeWhile isDistributionChar) then
    (plainClauses (value.dropWhile isDistributionChar)).map fun clauses =>
      { name := value.takeWhile isDistributionChar, specifier := clauses }
  else none

/-- This is `packaging` on requirements with at most one plain clause. -/
def plainPackaging : Packaging Text where
  requirement value := plainRequirement (value.dropWhile fun c => c == ' ' || c == '\t')
  canonicalizeName := collapse false
  version := some
  contains clauses version := clauses.all fun clause =>
    clause.operator = "==".toList && clause.version = version
  versionText := id

theorem toLower_separator (c : Char) (letter : isSeparator c = false) :
    isSeparator c.toLower = false := by
  by_cases upper : c.isUpper = true
  · have alpha : c.toLower.isAlpha = true := by simp [Char.isAlpha, upper]
    by_contra separates
    simp only [isSeparator, Bool.not_eq_false, Bool.or_eq_true, beq_iff_eq] at separates
    rcases separates with (same | same) | same
    all_goals
      rw [same] at alpha
      exact absurd alpha (by decide)
  · rw [Char.toLower_eq_of_not_isUpper upper]
    exact letter

theorem collapse_again (after : Bool) (name : Text) :
    collapse after (collapse after name) = collapse after name := by
  induction name generalizing after with
  | nil => rfl
  | cons c rest ih =>
      rw [collapse]
      split
      · cases after with
        | true => exact ih true
        | false =>
            change '-' :: collapse true (collapse true rest) = '-' :: collapse true rest
            rw [ih true]
      · next letter =>
          have lowered := toLower_separator c (by simpa using letter)
          rw [collapse, lowered, Char.toLower_toLower_eq_toLower, ih false]
          rfl

theorem toLower_alphanum (c : Char) (legal : c.isAlphanum = true) :
    c.toLower.isAlphanum = true := by
  by_cases upper : c.isUpper = true
  · simp [Char.isAlphanum, Char.isAlpha, upper]
  · rw [Char.toLower_eq_of_not_isUpper upper]
    exact legal

theorem alphanum_letter (c : Char) (legal : c.isAlphanum = true) : isSeparator c = false := by
  by_contra separates
  simp only [isSeparator, Bool.not_eq_false, Bool.or_eq_true, beq_iff_eq] at separates
  rcases separates with (rfl | rfl) | rfl
  all_goals exact absurd legal (by decide)

theorem collapse_spelled (after : Bool) (name : Text)
    (spelled : ∀ c ∈ name, isDistributionChar c = true) :
    ∀ c ∈ collapse after name, isDistributionChar c = true := by
  induction name generalizing after with
  | nil => simp [collapse]
  | cons first rest ih =>
      have later (after : Bool) := ih after fun c member =>
        spelled c (List.mem_cons_of_mem first member)
      intro c member
      rw [collapse] at member
      split at member
      · split at member
        · exact later true c member
        · rcases List.mem_cons.mp member with rfl | inRest
          · decide
          · exact later true c inRest
      · next letter =>
          rcases List.mem_cons.mp member with rfl | inRest
          · have legal : first.isAlphanum = true := by
              have here := spelled first List.mem_cons_self
              simp only [isDistributionChar, Bool.or_eq_true] at here
              simp only [isSeparator, Bool.or_eq_true, not_or] at letter
              rcases here with ((legal | low) | dot) | hyphen
              · exact legal
              · exact absurd low letter.1.1
              · exact absurd dot letter.1.2
              · exact absurd hyphen letter.2
            simp [isDistributionChar, toLower_alphanum first legal]
          · exact later false c inRest

/-- A name that ends in a separator collapses to one that ends in a hyphen. -/
theorem collapse_hyphen (after : Bool) (name : Text) (separator last : Char)
    (separates : isSeparator separator = true) (ended : after = true → last = '-') :
    (last :: collapse after (name ++ [separator])).getLast? = some '-' := by
  induction name generalizing after last with
  | nil =>
      cases after with
      | true => simp [collapse, separates, ended rfl]
      | false => simp [collapse, separates]
  | cons c rest ih =>
      rw [List.cons_append, collapse]
      split
      · split
        · next same => exact ih true last fun _ => ended same
        · exact ih true '-' fun _ => rfl
      · exact ih false c.toLower (by simp)

/-- A name that ends in a letter or digit collapses to one that does. -/
theorem collapse_ends (after : Bool) (name : Text) (letter last : Char)
    (legal : letter.isAlphanum = true) :
    (last :: collapse after (name ++ [letter])).getLast? = some letter.toLower := by
  induction name generalizing after last with
  | nil => simp [collapse, alphanum_letter letter legal]
  | cons c rest ih =>
      rw [List.cons_append, collapse]
      split
      · split
        · exact ih true last
        · exact ih true '-'
      · exact ih false c.toLower

/-- An identifier is a letter or digit, or ends in its last character. -/
theorem IsIdentifier.parts {name : Text} (identifier : IsIdentifier name) :
    ∃ first rest, name = first :: rest ∧ first.isAlphanum = true ∧
      (rest = [] ∨ ∃ middle last, rest = middle ++ [last] ∧ (last.isAlphanum = true ∨ last = '_')) := by
  obtain ⟨first, begins, legal⟩ := identifier.begins
  obtain ⟨last, ends, legalLast⟩ := identifier.ends
  cases name with
  | nil => contradiction
  | cons c rest =>
      obtain rfl := Option.some.inj begins
      refine ⟨c, rest, rfl, legal, ?_⟩
      rcases List.eq_nil_or_concat rest with empty | ⟨middle, other, rfl⟩
      · exact Or.inl empty
      · refine Or.inr ⟨middle, other, by simp, ?_⟩
        rw [List.concat_eq_append, ← List.cons_append, List.getLast?_append] at ends
        obtain rfl := Option.some.inj ends
        exact legalLast

theorem isIdentifier_iff (name : Text) (spelled : ∀ c ∈ name, isDistributionChar c = true) :
    isIdentifier name = true ↔ IsIdentifier name := by
  simp only [isIdentifier, Bool.and_eq_true, Option.any_eq_true, Bool.or_eq_true, beq_iff_eq]
  constructor
  · intro ⟨begins, ends⟩
    exact ⟨spelled, begins, ends⟩
  · intro identifier
    exact ⟨identifier.begins, identifier.ends⟩

/-- A plain requirement is read at its longest run of name characters. -/
theorem plainRequirement_split {name tail : Text} (identifier : IsIdentifier name)
    (breaks : Breaks tail) : plainRequirement (name ++ tail) =
      (plainClauses tail).map fun clauses => { name := name, specifier := clauses } := by
  obtain ⟨taken, rest⟩ := longest_run identifier.spelled breaks
  unfold plainRequirement
  rw [taken, rest, if_pos ((isIdentifier_iff name identifier.spelled).mpr identifier)]

theorem plainPackaging_requirement {name tail : Text} (identifier : IsIdentifier name)
    (breaks : Breaks tail) : plainPackaging.requirement (name ++ tail) =
      (plainClauses tail).map fun clauses => { name := name, specifier := clauses } := by
  obtain ⟨first, rest, rfl, legal, -⟩ := identifier.parts
  rw [← plainRequirement_split identifier breaks]
  have plain : (first == ' ' || first == '\t') = false := by
    by_contra blank
    simp only [Bool.not_eq_false, Bool.or_eq_true, beq_iff_eq] at blank
    rcases blank with rfl | rfl
    all_goals exact absurd legal (by decide)
  change plainRequirement (List.dropWhile _ (first :: (rest ++ tail))) = _
  rw [List.dropWhile_cons_of_neg (by simp [plain])]
  rfl

theorem plainPackaging_lawful : Lawful plainPackaging := by
  refine ⟨?_, ?_, ?_, ?_, ?_, ?_⟩
  · intro value requirement parsed
    change plainRequirement (value.dropWhile fun c => c == ' ' || c == '\t') = some requirement at parsed
    refine ⟨value.takeWhile fun c => c == ' ' || c == '\t',
      (value.dropWhile fun c => c == ' ' || c == '\t').dropWhile isDistributionChar, ?_⟩
    have whole := List.takeWhile_append_dropWhile (p := fun c : Char => c == ' ' || c == '\t')
      (l := value)
    generalize value.dropWhile (fun c => c == ' ' || c == '\t') = text at parsed whole ⊢
    unfold plainRequirement at parsed
    split at parsed
    · next named =>
        obtain ⟨clauses, -, rfl⟩ := Option.map_eq_some_iff.mp parsed
        refine ⟨?_, ?_, ?_, ?_⟩
        · rw [List.takeWhile_append_dropWhile, whole]
        · intro c member
          have blank := List.mem_takeWhile_imp member
          simp only [Bool.or_eq_true, beq_iff_eq] at blank
          rcases blank with rfl | rfl
          · decide
          · decide
        · exact (isIdentifier_iff _ fun c member => List.mem_takeWhile_imp member).mp named
        · intro c begins
          have stops := List.head?_dropWhile_not isDistributionChar text
          rw [begins] at stops
          simpa using stops
    · contradiction
  · intro name other tail requirement identifier identifierOther breaks parsed
    rw [plainPackaging_requirement identifier breaks] at parsed
    rw [plainPackaging_requirement identifierOther breaks]
    obtain ⟨clauses, known, rfl⟩ := Option.map_eq_some_iff.mp parsed
    rw [known]
    rfl
  · intro name _
    exact collapse_again false name
  · intro name identifier
    refine ⟨?_, collapse_spelled false name identifier.spelled⟩
    obtain ⟨first, rest, rfl, legal, -⟩ := identifier.parts
    change collapse false (first :: rest) ≠ []
    rw [collapse, alphanum_letter first legal]
    exact List.cons_ne_nil _ _
  · intro name identifier plain
    have spelled := collapse_spelled false name identifier.spelled
    obtain ⟨first, rest, rfl, legal, shape⟩ := identifier.parts
    have begins : collapse false (first :: rest) = first.toLower :: collapse false rest := by
      rw [collapse, alphanum_letter first legal]
      rfl
    refine ⟨spelled, ⟨first.toLower, ?_, toLower_alphanum first legal⟩, ?_⟩
    · change first.toLower ∈ (collapse false (first :: rest)).head?
      rw [begins]
      rfl
    · change ∃ c ∈ (collapse false (first :: rest)).getLast?, _
      rw [begins]
      rcases shape with rfl | ⟨middle, last, rfl, ends⟩
      · exact ⟨first.toLower, rfl, Or.inl (toLower_alphanum first legal)⟩
      · rcases ends with legalLast | rfl
        · exact ⟨last.toLower, collapse_ends false middle last first.toLower legalLast,
            Or.inl (toLower_alphanum last legalLast)⟩
        · exact absurd (by rw [← List.cons_append, List.getLast?_append]; rfl) plain
  · intro name identifier ended
    obtain ⟨first, rest, rfl, legal, shape⟩ := identifier.parts
    change (collapse false (first :: rest)).getLast? = some '-'
    rw [collapse, alphanum_letter first legal]
    rcases shape with rfl | ⟨middle, last, rfl, -⟩
    · obtain rfl := Option.some.inj ended
      exact absurd legal (by decide)
    · rw [← List.cons_append, List.getLast?_append] at ended
      obtain rfl := Option.some.inj ended
      exact collapse_hyphen false middle '_' first.toLower (by decide) (by simp)

end LumenCopilot.Sandbox

namespace LumenCopilot.Sandbox

open Python Library

variable {Version : Type}

/-- The two requirements are equal but for the spelling of the name. -/
structure SameConstraints (packaging : Packaging Version) (first second : Requirement) : Prop where
  name : packaging.canonicalizeName first.name = packaging.canonicalizeName second.name
  specifier : first.specifier = second.specifier
  extras : first.extras = second.extras
  marker : first.marker = second.marker

/-- The admission is sound and complete on a request list. -/
structure Admits (packaging : Packaging Version)
    (requested allowed denied preinstalled accepted : List Text) : Prop where
  clean : ∀ raw ∈ requested, ∃ requirement,
    packaging.requirement (strip raw) = some requirement ∧ requirement.url = none ∧
      packaging.canonicalizeName requirement.name ∉ policyNames packaging denied
  granted : ∀ text ∈ accepted, ∃ requirement, packaging.requirement text = some requirement ∧
    (packaging.canonicalizeName requirement.name ∈ policyNames packaging allowed ∨
      ['*'] ∈ policyNames packaging allowed)
  kept : ∀ raw ∈ requested, ∀ requirement, NeedsInstall packaging preinstalled raw requirement →
    ∃ text ∈ accepted, ∃ other, packaging.requirement text = some other ∧
      SameConstraints packaging other requirement

/-- The requirements that need an install agree under each name, and no such name ends in an
underscore. -/
structure Agreeing (packaging : Packaging Version) (requested preinstalled : List Text) : Prop where
  same : ∀ raw ∈ requested, ∀ other ∈ requested, ∀ first second,
    NeedsInstall packaging preinstalled raw first →
      NeedsInstall packaging preinstalled other second →
        packaging.canonicalizeName first.name = packaging.canonicalizeName second.name →
          SameConstraints packaging first second
  plain : ∀ raw ∈ requested, ∀ requirement, NeedsInstall packaging preinstalled raw requirement →
    requirement.name.getLast? ≠ some '_'

/-- An admission is sound and complete exactly when the requirements that need an install agree
under each canonical name and no such name ends in an underscore. -/
theorem validateRequestedPackages_admits (packaging : Packaging Version)
    (lawful : Lawful packaging) (requested allowed denied preinstalled accepted : List Text)
    (validated : validateRequestedPackages packaging requested allowed denied preinstalled =
      .ok accepted) :
    Admits packaging requested allowed denied preinstalled accepted ↔
      Agreeing packaging requested preinstalled := by
  obtain ⟨state, picks, picked, rfl⟩ := validateRequestedPackages_picked requested accepted validated
  have covers (raw : Text) (member : raw ∈ requested) (requirement : Requirement)
      (needs : NeedsInstall packaging preinstalled raw requirement) :
      ∃ pick ∈ picks, packaging.canonicalizeName pick.2.name =
        packaging.canonicalizeName requirement.name := by
    obtain ⟨found, parsed, -, -, covered⟩ := picked.clean raw member
    obtain rfl := Option.some.inj (parsed.symm.trans needs.parsed)
    exact (picked.seen _).mp (covered needs)
  constructor
  · intro admits
    have accepts (raw : Text) (member : raw ∈ requested) (requirement : Requirement)
        (needs : NeedsInstall packaging preinstalled raw requirement) :
        ∃ pick ∈ picks, pick.2.name.getLast? ≠ some '_' ∧
          SameConstraints packaging pick.2 requirement := by
      obtain ⟨text, inside, other, reparsed, same⟩ := admits.kept raw member requirement needs
      rw [picked.accepted] at inside
      obtain ⟨pick, chosen, rfl⟩ := List.mem_map.mp inside
      obtain ⟨-, needed, -⟩ := picked.needed pick chosen
      obtain ⟨unended, rfl⟩ :=
        (lawful.renameLeading_iff pick.1 pick.2 other needed.parsed).mp reparsed
      have again := lawful.canonicalAgain pick.2.name (lawful.identifier _ _ needed.parsed)
      exact ⟨pick, chosen, unended, again.symm.trans same.name, same.specifier, same.extras,
        same.marker⟩
    constructor
    · intro raw member other memberOther first second needsFirst needsSecond sameName
      obtain ⟨pick, chosen, -, early⟩ := accepts raw member first needsFirst
      obtain ⟨pickOther, chosenOther, -, late⟩ := accepts other memberOther second needsSecond
      have name := (early.name.trans sameName).trans late.name.symm
      obtain rfl := List.inj_on_of_nodup_map picked.distinct chosen chosenOther name
      exact ⟨sameName, early.specifier.symm.trans late.specifier,
        early.extras.symm.trans late.extras, early.marker.symm.trans late.marker⟩
    · intro raw member requirement needs ended
      obtain ⟨pick, chosen, unended, same⟩ := accepts raw member requirement needs
      obtain ⟨-, needed, -⟩ := picked.needed pick chosen
      have hyphen := lawful.canonicalHyphen _ (lawful.identifier _ _ needs.parsed) ended
      have name := lawful.canonicalName _ (lawful.identifier _ _ needed.parsed) unended
      obtain ⟨c, last, legal⟩ := name.ends
      rw [same.name, hyphen] at last
      obtain rfl := Option.some.inj last
      exact absurd legal (by decide)
  · intro agreeing
    have accepts (pick : Text × Requirement) (chosen : pick ∈ picks) :
        packaging.requirement
            (renameLeading (packaging.canonicalizeName pick.2.name) (strip pick.1)) =
          some { pick.2 with name := packaging.canonicalizeName pick.2.name } ∧
        packaging.canonicalizeName (packaging.canonicalizeName pick.2.name) =
          packaging.canonicalizeName pick.2.name := by
      obtain ⟨member, needed, -⟩ := picked.needed pick chosen
      refine ⟨?_, lawful.canonicalAgain _ (lawful.identifier _ _ needed.parsed)⟩
      exact (lawful.renameLeading_iff pick.1 pick.2 _ needed.parsed).mpr
        ⟨agreeing.plain pick.1 member pick.2 needed, rfl⟩
    constructor
    · intro raw member
      obtain ⟨requirement, parsed, url, denial, -⟩ := picked.clean raw member
      exact ⟨requirement, parsed, url, denial⟩
    · intro text inside
      rw [picked.accepted] at inside
      obtain ⟨pick, chosen, rfl⟩ := List.mem_map.mp inside
      obtain ⟨reparsed, again⟩ := accepts pick chosen
      obtain ⟨-, -, granted⟩ := picked.needed pick chosen
      exact ⟨_, reparsed, by rw [again]; exact granted⟩
    · intro raw member requirement needs
      obtain ⟨pick, chosen, name⟩ := covers raw member requirement needs
      obtain ⟨reparsed, again⟩ := accepts pick chosen
      obtain ⟨earlier, needed, -⟩ := picked.needed pick chosen
      have same := agreeing.same pick.1 earlier raw member pick.2 requirement needed needs name
      refine ⟨_, picked.accepted ▸ List.mem_map_of_mem chosen, _, reparsed, ?_⟩
      exact ⟨again.trans name, same.specifier, same.extras, same.marker⟩

/-- The image satisfies the second of these requests, and only the first is installed. -/
theorem validateRequestedPackages_admits_numpy :
    validateRequestedPackages plainPackaging ["NumPy==2.1.0".toList, "pandas".toList]
        ["numpy".toList] [] ["pandas==3.0.5".toList] = .ok ["numpy==2.1.0".toList] ∧
      (Admits plainPackaging ["NumPy==2.1.0".toList, "pandas".toList] ["numpy".toList] []
          ["pandas==3.0.5".toList] ["numpy==2.1.0".toList] ↔
        Agreeing plainPackaging ["NumPy==2.1.0".toList, "pandas".toList]
          ["pandas==3.0.5".toList]) := by
  have validated : validateRequestedPackages plainPackaging
      ["NumPy==2.1.0".toList, "pandas".toList] ["numpy".toList] [] ["pandas==3.0.5".toList] =
        .ok ["numpy==2.1.0".toList] := by
    decide
  exact ⟨validated, validateRequestedPackages_admits plainPackaging plainPackaging_lawful _ _ _ _ _
    validated⟩

/-- The second constraint on the same distribution is dropped without a refusal. -/
theorem validateRequestedPackages_drops :
    ¬∀ packaging : Packaging Text, Lawful packaging →
      ∀ requested allowed denied preinstalled accepted : List Text,
        validateRequestedPackages packaging requested allowed denied preinstalled = .ok accepted →
          Admits packaging requested allowed denied preinstalled accepted := by
  intro admitted
  have validated : validateRequestedPackages plainPackaging
      ["requests==2.0".toList, "requests>=2.31".toList] ["requests".toList] [] [] =
        .ok ["requests==2.0".toList] := by
    decide
  have admits := admitted plainPackaging plainPackaging_lawful _ _ _ _ _ validated
  have parsed : plainPackaging.requirement (strip "requests>=2.31".toList) =
      some ⟨"requests".toList, none, [], [⟨">=".toList, "2.31".toList⟩], none⟩ := by
    decide
  obtain ⟨text, inside, other, reparsed, same⟩ :=
    admits.kept "requests>=2.31".toList (by simp) _ ⟨parsed, rfl⟩
  rw [List.mem_singleton.mp inside] at reparsed
  have first : plainPackaging.requirement "requests==2.0".toList =
      some ⟨"requests".toList, none, [], [⟨"==".toList, "2.0".toList⟩], none⟩ := by
    decide
  obtain rfl := Option.some.inj (reparsed.symm.trans first)
  exact absurd same.specifier (by decide)

end LumenCopilot.Sandbox
