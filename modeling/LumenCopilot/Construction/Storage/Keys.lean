import LumenCopilot.Construction.Python.Bytes
import LumenCopilot.Construction.Python.Numerals

namespace LumenCopilot.Storage

open Python

/-- This class is `[A-Za-z0-9._-]` of `_SAFE_FILENAME_RE`. -/
def isSafeChar (c : Char) : Bool := c.isAlphanum || c == '.' || c == '_' || c == '-'

/-- This is `_TENANT_ID_RE.match`; the end `$` also stands before a last line feed. -/
def tenantIdMatch : Text → Bool
  | [] => false
  | c :: rest =>
      c.isAlphanum &&
        (rest.dropWhile isSafeChar == [] || rest.dropWhile isSafeChar == ['\n'])

/-- This is `_MAX_FILENAME_LEN`. -/
def maxFilenameLen : Nat := 200

/-- This is `_FALLBACK_FILENAME`. -/
def fallbackFilename : Text := "file".toList

/-- A key function raises a `ValidationError` or a `ForbiddenError`. -/
inductive KeyError where
  | validation (message code : String)
  | forbidden (message code : String)
  deriving DecidableEq

def invalidTenantId : KeyError :=
  .validation "tenant_id must be a single safe path segment (letters, digits, '.', '_', '-')"
    "invalid_tenant_id"

/-- This is `validate_tenant_id`. -/
def validateTenantId (tenantId : Text) : Except KeyError Text :=
  if tenantIdMatch tenantId then .ok tenantId else .error invalidTenantId

/-- This is `posixpath.basename`. -/
def basename (path : Text) : Text := (path.reverse.takeWhile (· != '/')).reverse

/-- This is `_SAFE_FILENAME_RE.sub("_", text)`, inside or outside an unsafe run. -/
def collapseUnsafe : Bool → Text → Text
  | _, [] => []
  | inside, c :: rest =>
      if isSafeChar c then c :: collapseUnsafe false rest
      else if inside then collapseUnsafe true rest
      else '_' :: collapseUnsafe true rest

/-- This is `safe_filename` over a function for `unicodedata.normalize("NFKC", text)`. -/
def safeFilename (nfkc : Text → Text) (filename : Text) : Text :=
  let base := strip (basename (replace ['\\'] ['/'] filename))
  let base := (nfkc base).filter isAscii
  let cleaned := (lstripChar '.' (collapseUnsafe false base)).take maxFilenameLen
  if cleaned.isEmpty then fallbackFilename else cleaned

section Builders

variable (nfkc : Text → Text)

/-- This is `build_key`. -/
def buildKey (tenantId : Text) (data : List Nat) (filename : Text) : Except KeyError Text := do
  let tenant ← validateTenantId tenantId
  return join ['/'] [tenant, Sha256.hexdigest data, safeFilename nfkc filename]

/-- This is `build_quarantine_key`. -/
def buildQuarantineKey (tenantId documentId filename : Text) : Except KeyError Text := do
  let tenant ← validateTenantId tenantId
  let document ← validateTenantId documentId
  return join ['/'] [tenant, "quarantine".toList, document, safeFilename nfkc filename]

/-- This is `_ARTIFACT_PREFIX`. -/
def artifactPrefix : Text := "artifacts".toList

/-- This is `build_artifact_key`. -/
def buildArtifactKey (tenantId : Text) (data : List Nat) (filename : Text)
    (objectId : Option Text) : Except KeyError Text := do
  let scope ← match objectId with
    | some objectId => (validateTenantId objectId).map fun id => [id]
    | none => .ok []
  let tenant ← validateTenantId tenantId
  return join ['/'] ([artifactPrefix, tenant] ++ scope ++
    [Sha256.hexdigest data, safeFilename nfkc filename])

/-- This is `build_avatar_key`. -/
def buildAvatarKey (tenantId userId : Text) (data : List Nat) (filename : Text) :
    Except KeyError Text := do
  let tenant ← validateTenantId tenantId
  let user ← validateTenantId userId
  return join ['/'] [tenant, user, Sha256.hexdigest data, safeFilename nfkc filename]

end Builders

/-- This is `assert_key_owned_by`. -/
def assertKeyOwnedBy (key tenantId : Text) : Except KeyError Unit := do
  let tenant ← validateTenantId tenantId
  if startsWith key (tenant ++ ['/']) then .ok ()
  else .error (.forbidden "object key is outside the caller's tenant prefix" "cross_tenant_denied")

/-- This is `assert_artifact_key_owned_by`. -/
def assertArtifactKeyOwnedBy (key tenantId : Text) : Except KeyError Unit := do
  let tenant ← validateTenantId tenantId
  if startsWith key (artifactPrefix ++ '/' :: tenant ++ ['/']) then .ok ()
  else .error (.forbidden "artifact key is outside the caller's tenant prefix" "cross_tenant_denied")

/-- A caller asks one of the four builders for a key. -/
inductive KeyRequest where
  | document (data : List Nat) (filename : Text)
  | quarantine (documentId filename : Text)
  | avatar (userId : Text) (data : List Nat) (filename : Text)
  | artifact (objectId : Option Text) (data : List Nat) (filename : Text)
  deriving DecidableEq

def KeyRequest.build (nfkc : Text → Text) (tenantId : Text) : KeyRequest → Except KeyError Text
  | .document data filename => buildKey nfkc tenantId data filename
  | .quarantine documentId filename => buildQuarantineKey nfkc tenantId documentId filename
  | .avatar userId data filename => buildAvatarKey nfkc tenantId userId data filename
  | .artifact objectId data filename => buildArtifactKey nfkc tenantId data filename objectId

def KeyRequest.isArtifact : KeyRequest → Bool
  | .artifact .. => true
  | _ => false

end LumenCopilot.Storage
