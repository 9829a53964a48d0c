import LumenCopilot.Construction.Python.Json
import LumenCopilot.Construction.Python.Bytes

namespace LumenCopilot.Retrieval

open Python

/-- A mirrored principal is one user or the whole tenant. -/
inductive AclPrincipal where
  | user (id : Uuid)
  | tenant
  deriving DecidableEq

/-- This is the string of a mirrored principal. -/
def AclPrincipal.text : AclPrincipal → Text
  | .user id => "user:".toList ++ id.str
  | .tenant => "tenant".toList

/-- This is the identity from `auth/`. -/
structure Principal where
  tenantId : Uuid
  userId : Uuid
  deriving DecidableEq

/-- This is `AllowSet`, whose sets are lists without regard to their order. -/
structure AllowSet where
  tenantId : Uuid
  ownerIds : List Uuid
  grantPrincipalId : Uuid
  aclPrincipals : List AclPrincipal := []
  groupIds : List Uuid := []
  deriving DecidableEq

/-- This is `AllowSet.for_user`. -/
def AllowSet.forUser (tenantId userId : Uuid) (groupIds : List Uuid) : AllowSet where
  tenantId := tenantId
  ownerIds := [userId]
  grantPrincipalId := userId
  aclPrincipals := [.user userId, .tenant]
  groupIds := groupIds

/-- This is `AllowSet.for_principal`. -/
def AllowSet.forPrincipal (principal : Principal) (groupIds : List Uuid) : AllowSet :=
  AllowSet.forUser principal.tenantId principal.userId groupIds

inductive GrantPrincipalType where
  | user
  | group
  deriving DecidableEq

inductive GrantResourceType where
  | document
  | collection
  deriving DecidableEq

/-- This is a row of `grants`. -/
structure Grant where
  tenantId : Uuid
  principalType : GrantPrincipalType
  principalId : Uuid
  resourceType : GrantResourceType
  resourceId : Uuid
  deriving DecidableEq

/-- This is a row of `group_members`. -/
structure GroupMember where
  tenantId : Uuid
  groupId : Uuid
  userId : Uuid
  deriving DecidableEq

inductive GroupKind where
  | user
  | system
  deriving DecidableEq

/-- This is a row of `groups`. -/
structure Group where
  id : Uuid
  tenantId : Uuid
  kind : GroupKind
  deriving DecidableEq

inductive DocumentKind where
  | document
  | audio
  | video
  deriving DecidableEq

inductive DocumentStatus where
  | pending
  | processing
  | ready
  | failed
  deriving DecidableEq

/-- This is a row of `documents`; a time is a number of microseconds. -/
structure Document where
  id : Uuid
  tenantId : Uuid
  ownerId : Uuid
  collectionId : Uuid
  sourceId : Option Uuid
  filename : Text
  kind : DocumentKind
  durationMs : Option Int
  status : DocumentStatus
  ingestionAttempts : Nat
  aclEnforced : Bool
  aclPrincipals : Option (List AclPrincipal)
  aclSyncedAt : Option Int
  aclScopeIds : Option (List Text)
  deriving DecidableEq

inductive LocationKind where
  | page
  | slide
  | sheet
  deriving DecidableEq

/-- This is `SourceLocation` with the checks of its `__post_init__`. -/
structure SourceLocation where
  kind : LocationKind
  name : Text
  number : Int
  charStart : Int
  charEnd : Int
  numbered : 1 ≤ number
  ordered : 0 ≤ charStart ∧ charStart ≤ charEnd
  deriving DecidableEq

/-- This is a row of `chunks`. -/
structure Chunk where
  id : Uuid
  tenantId : Uuid
  documentId : Uuid
  ord : Nat
  text : Text
  embeddingFingerprint : Option Text
  charStart : Nat
  charEnd : Nat
  sourceLocations : Option (List SourceLocation)
  timeStartMs : Option Int
  timeEndMs : Option Int
  transcriptSegmentId : Option Uuid
  speakerId : Option Text
  speakerName : Option Text
  deriving DecidableEq

/-- This is a row of `transcript_segments`. -/
structure TranscriptSegment where
  id : Uuid
  tenantId : Uuid
  documentId : Uuid
  deriving DecidableEq

/-- This is what one statement reads of the database, whose keys are unique. -/
structure Database where
  groups : List Group
  groupMembers : List GroupMember
  grants : List Grant
  documents : List Document
  chunks : List Chunk
  segments : List TranscriptSegment
  documentKeys : (documents.map Document.id).Nodup
  chunkKeys : (chunks.map Chunk.id).Nodup
  segmentKeys : (segments.map TranscriptSegment.id).Nodup
  systemGroups : ((groups.filter fun group => group.kind = .system).map Group.tenantId).Nodup

/-- This is `GroupRepository.group_ids_for_user`. -/
def groupIdsForUser (database : Database) (tenantId userId : Uuid) : List Uuid :=
  let explicit := (database.groupMembers.filter fun member =>
    member.tenantId = tenantId ∧ member.userId = userId).map GroupMember.groupId
  let system := database.groups.find? fun group => group.tenantId = tenantId ∧ group.kind = .system
  match system with
  | some group => explicit ++ [group.id]
  | none => explicit

/-- A grant is to the user or to one of their groups. -/
def principalMatch (principalId : Uuid) (groupIds : List Uuid) (grant : Grant) : Bool :=
  match grant.principalType with
  | .user => grant.principalId == principalId
  | .group => groupIds.contains grant.principalId

/-- This is `_grant_exists`. -/
def grantExists (grants : List Grant) (allowSet : AllowSet) (document : Document) : Bool :=
  grants.any fun grant =>
    grant.tenantId == allowSet.tenantId &&
      principalMatch allowSet.grantPrincipalId allowSet.groupIds grant &&
        match grant.resourceType with
        | .document => grant.resourceId == document.id
        | .collection => grant.resourceId == document.collectionId

/-- This is the JSON text of the column `acl_principals`. -/
def renderPrincipals (principals : List AclPrincipal) : Text :=
  (Json.list (principals.map fun principal => .str principal.text)).dumps

/-- The SQL `contains` of a string is a substring test. -/
def containsText (text part : Text) : Bool := text.tails.any fun rest => part.isPrefixOf rest

/-- This is `_acl_principal_overlap`. -/
def aclPrincipalOverlap (allowSet : AllowSet) (document : Document) : Bool :=
  match document.aclPrincipals with
  | some principals =>
      allowSet.aclPrincipals.any fun principal =>
        containsText (renderPrincipals principals) ('"' :: principal.text ++ ['"'])
  | none => false

/-- This is `acl_freshness_floor`. -/
def aclFreshnessFloor (maxAgeHours : Nat) (now : Int) : Int :=
  now - (maxAgeHours : Int) * 3600000000

/-- This is the comparison of the column `acl_synced_at` with the floor. -/
def aclFresh (maxAgeHours : Nat) (now : Int) (document : Document) : Bool :=
  match document.aclSyncedAt with
  | some syncedAt => decide (aclFreshnessFloor maxAgeHours now ≤ syncedAt)
  | none => false

/-- This is `_document_permitted`. -/
def documentPermitted (grants : List Grant) (maxAgeHours : Nat) (now : Int) (allowSet : AllowSet)
    (document : Document) : Bool :=
  (!document.aclEnforced &&
      (allowSet.ownerIds.contains document.ownerId || grantExists grants allowSet document)) ||
    (document.aclEnforced && aclPrincipalOverlap allowSet document && aclFresh maxAgeHours now document)

/-- This is a nullable `IN` filter of `_document_scope`. -/
def inScope (ids : Option (List Uuid)) (value : Option Uuid) : Bool :=
  match ids, value with
  | none, _ => true
  | some ids, some value => ids.contains value
  | some _, none => false

/-- This is `_document_scope`. -/
def documentScope (collectionIds sourceIds documentIds : Option (List Uuid)) (document : Document) :
    Bool :=
  inScope collectionIds (some document.collectionId) && inScope sourceIds document.sourceId &&
    inScope documentIds (some document.id)

end LumenCopilot.Retrieval
