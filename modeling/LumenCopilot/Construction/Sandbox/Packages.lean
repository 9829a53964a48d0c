import LumenCopilot.Construction.Python.Numerals

namespace LumenCopilot.Sandbox

open Python

/-- This is one clause of a version specifier. -/
structure VersionClause where
  operator : Text
  version : Text
  deriving DecidableEq

/-- This is a parsed PEP-508 requirement; equal sets of extras or clauses are equal lists. -/
structure Requirement where
  name : Text
  url : Option Text := none
  extras : List Text := []
  specifier : List VersionClause := []
  marker : Option Text := none
  deriving DecidableEq

/-- These are the functions of the `packaging` library that the admission calls. -/
structure Packaging (Version : Type) where
  requirement : Text → Option Requirement
  canonicalizeName : Text → Text
  version : Text → Option Version
  contains : List VersionClause → Version → Bool
  versionText : Version → Text

variable {Version : Type}

/-- This is `_policy_names`. -/
def policyNames (packaging : Packaging Version) (values : List Text) : List Text :=
  (values.filter fun value => !(strip value).isEmpty).map fun value =>
    if strip value = ['*'] then ['*'] else packaging.canonicalizeName (strip value)

/-- This is one iteration of the loop of `_preinstalled_index`; only a single pin counts. -/
def indexPin (packaging : Packaging Version) (index : List (Text × Version)) (raw : Text) :
    List (Text × Version) :=
  if (strip raw).isEmpty then index
  else
    match packaging.requirement (strip raw) with
    | none => index
    | some requirement =>
        match requirement.specifier.filter (·.operator = "==".toList) with
        | [pin] =>
            match packaging.version pin.version with
            | some version => (packaging.canonicalizeName requirement.name, version) :: index
            | none => index
        | _ => index

/-- This is `_preinstalled_index`. -/
def preinstalledIndex (packaging : Packaging Version) (values : List Text) :
    List (Text × Version) :=
  values.foldl (indexPin packaging) []

/-- This is `_satisfied_by_image`. -/
def satisfiedByImage (packaging : Packaging Version) (requirement : Requirement)
    (shipped : Option Version) : Bool :=
  match shipped with
  | none => false
  | some version =>
      if !requirement.extras.isEmpty || requirement.marker.isSome then false
      else packaging.contains requirement.specifier version

/-- This is `_install_refusal`. -/
def installRefusal (packaging : Packaging Version) (name value : Text)
    (shipped : Option Version) : Text :=
  match shipped with
  | some version =>
      "Package '".toList ++ name ++ "' is available in the code sandbox image as version ".toList ++
        packaging.versionText version ++ ", which does not satisfy '".toList ++ value ++
        "'. Installing a different version needs '".toList ++ name ++
        ("' on this workspace's allowed-packages list (Admin → Code execution).").toList
  | none =>
      "Package '".toList ++ name ++
        ("' is not installed in the code sandbox image and is not on " ++
          "this workspace's allowed-packages list. An admin can add it under " ++
          "Admin → Code execution.").toList

/-- This is the class `[A-Za-z0-9_.-]`. -/
def isDistributionChar (c : Char) : Bool := c.isAlphanum || c == '_' || c == '.' || c == '-'

/-- This is `re.sub` of the leading distribution name. -/
def renameLeading (name value : Text) : Text :=
  if (value.takeWhile isDistributionChar).isEmpty then value
  else name ++ value.dropWhile isDistributionChar

/-- The loop collects the accepted requirements and the names that it has seen. -/
structure Admission where
  accepted : List Text := []
  seen : List Text := []

def invalidRequirement (value : Text) : Text :=
  "Package requirement '".toList ++ value ++ "' is invalid.".toList

def directUrl (value : Text) : Text :=
  "Package requirement '".toList ++ value ++ "' uses a direct URL, which is not permitted.".toList

def deniedPackage (name : Text) : Text :=
  "Package '".toList ++ name ++ "' is not allowed for this tenant.".toList

/-- This is one iteration of the loop; the error is the detail of a `PackagePolicyError`. -/
def admitPackage (packaging : Packaging Version) (allowedNames deniedNames : List Text)
    (shipped : List (Text × Version)) (state : Admission) (raw : Text) :
    Except Text Admission :=
  let value := strip raw
  match packaging.requirement value with
  | none => .error (invalidRequirement value)
  | some requirement =>
      let name := packaging.canonicalizeName requirement.name
      if requirement.url.isSome then .error (directUrl value)
      else if name ∈ deniedNames then .error (deniedPackage name)
      else if satisfiedByImage packaging requirement (shipped.lookup name) then .ok state
      else if ['*'] ∉ allowedNames ∧ name ∉ allowedNames then
        .error (installRefusal packaging name value (shipped.lookup name))
      else if name ∈ state.seen then .ok state
      else .ok ⟨state.accepted ++ [renameLeading name value], name :: state.seen⟩

/-- This is `validate_requested_packages`. -/
def validateRequestedPackages (packaging : Packaging Version)
    (requested allowed denied preinstalled : List Text) : Except Text (List Text) :=
  (requested.foldlM (admitPackage packaging (policyNames packaging allowed)
    (policyNames packaging denied) (preinstalledIndex packaging preinstalled)) {}).map
      Admission.accepted

end LumenCopilot.Sandbox
