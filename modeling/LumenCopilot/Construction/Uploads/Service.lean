import LumenCopilot.Construction.Library.Dict
import LumenCopilot.Construction.Library.Program
import LumenCopilot.Construction.Python.Bytes

namespace LumenCopilot.Uploads

open Python Library

/-- This is `DocumentUploadState`. -/
inductive DocumentUploadState where
  | initiated
  | completing
  | completed
  | aborted
  | expired
  | failed
  deriving DecidableEq

/-- These are the columns of an upload session that never change. -/
structure Session where
  id : Uuid
  documentId : Uuid
  filename : Text
  mimeType : Text
  sizeBytes : Nat
  storageKey : Text
  partSizeBytes : Nat
  partCount : Nat
  expiresAt : Nat
  deriving DecidableEq

/-- These are the columns that `set_state` writes. -/
structure UploadRow where
  state : DocumentUploadState
  error : Option Text
  deriving DecidableEq

/-- This is the document row of a completed upload. -/
structure DocumentRow where
  id : Uuid
  filename : Text
  mimeType : Text
  sizeBytes : Nat
  storageKey : Text
  deriving DecidableEq

/-- This is `UploadedPart`, a part that storage holds. -/
structure UploadedPart where
  partNumber : Nat
  etag : Text
  sizeBytes : Int
  deriving DecidableEq

/-- This is `CompletePartInput`, a part that the client submits. -/
structure CompletePartInput where
  partNumber : Nat
  etag : Text
  deriving DecidableEq

/-- This is `StoredObjectMetadata`, the answer of a HEAD. -/
structure StoredObjectMetadata where
  sizeBytes : Nat
  contentType : Text
  metadata : Dict Text Text

/-- These are the errors of the control plane; `value` is a `ValueError` that nothing catches. -/
inductive UploadError where
  | dependency
  | notFound
  | providerNotFound
  | validation (code : Text)
  | conflict (code : Text)
  | rejected (code : Text) (status : Nat)
  | value
  deriving DecidableEq

/-- This is `normalize_content_type`. -/
def normalizeContentType (table : UnicodeTable) (contentType : Text) : Text :=
  lower table (rstrip (lstrip (contentType.takeWhile (· ≠ ';'))))

/-- This is `_is_valid_etag`. -/
def isValidEtag (etag : Text) : Bool :=
  1 ≤ etag.length && etag.length ≤ 512 && etag.all fun c => 0x20 ≤ c.toNat && c.toNat ≠ 0x7F

/-- This is `_validate_completion_manifest`. -/
def validateCompletionManifest (session : Session) (parts : List CompletePartInput) :
    Except UploadError Unit :=
  if parts.map CompletePartInput.partNumber ≠ List.range' 1 session.partCount then
    .error (.validation "invalid_part_manifest".toList)
  else if parts.any fun part => !isValidEtag part.etag then
    .error (.validation "invalid_part_etag".toList)
  else .ok ()

/-- This is the check of one part in `_validate_provider_part_layout`. -/
def validateProviderPart (session : Session) (index : Nat) (part : UploadedPart) :
    Except UploadError Unit :=
  let expectedLastSize : Int :=
    session.sizeBytes - session.partSizeBytes * ((session.partCount : Int) - 1)
  let expectedSize : Int := if (index : Int) = (session.partCount : Int) - 1 then expectedLastSize
    else session.partSizeBytes
  if part.partNumber ≠ index + 1 ∨ part.sizeBytes ≠ expectedSize then
    .error (.validation "invalid_provider_part_layout".toList)
  else if !isValidEtag part.etag then
    .error (.validation "invalid_provider_part_etag".toList)
  else .ok ()

/-- This is `_validate_provider_part_layout`. -/
def validateProviderPartLayout (session : Session) (provider : List UploadedPart) :
    Except UploadError Unit :=
  if provider.length ≠ session.partCount then
    .error (.validation "incomplete_provider_parts".toList)
  else (provider.zipIdx.forM fun entry => validateProviderPart session entry.2 entry.1)

/-- This is the strict zip of `_validate_provider_parts`. -/
def validateEtags : List CompletePartInput → List UploadedPart → Except UploadError Unit
  | [], [] => .ok ()
  | client :: submitted, stored :: provider =>
      if stored.etag ≠ client.etag then .error (.validation "part_etag_mismatch".toList)
      else validateEtags submitted provider
  | _, _ => .error .value

/-- This is `_validate_provider_parts`. -/
def validateProviderParts (session : Session) (submitted : List CompletePartInput)
    (provider : List UploadedPart) : Except UploadError Unit := do
  validateProviderPartLayout session provider
  validateEtags submitted provider

/-- These are the metadata checks of `_finalize_verified`. -/
def metadataMatches (table : UnicodeTable) (session : Session) (stored : StoredObjectMetadata) :
    Bool :=
  normalizeContentType table stored.contentType = session.mimeType &&
    stored.metadata.lookup "lumen-upload-id".toList = some session.id.str &&
    stored.metadata.lookup "lumen-document-id".toList = some session.documentId.str

/-- This is the document that `_finalize_verified` creates. -/
def Session.document (session : Session) (stored : StoredObjectMetadata) : DocumentRow :=
  ⟨session.documentId, session.filename, session.mimeType, stored.sizeBytes, session.storageKey⟩

/-- These are the awaits of the control plane: database statements, storage calls and the clock. -/
inductive Call where
  | lock
  | now
  | document
  | createDocument (document : DocumentRow)
  | setState (state : DocumentUploadState) (error : Option Text)
  | deleteRows
  | commit
  | rollback
  | abortMultipart
  | deleteObject
  | head
  | listParts
  | completeMultipart (parts : List (Nat × Text))
  | presign (partNumber : Nat)
  deriving DecidableEq

/-- A storage call may fail. -/
abbrev Call.Answer : Call → Type
  | .lock => Option UploadRow
  | .now => Nat
  | .document => Option DocumentRow
  | .createDocument _ => Unit
  | .setState _ _ => UploadRow
  | .deleteRows => Bool
  | .commit => Unit
  | .rollback => Unit
  | .abortMultipart => Except UploadError Unit
  | .deleteObject => Except UploadError Unit
  | .head => Except UploadError StoredObjectMetadata
  | .listParts => Except UploadError (List UploadedPart)
  | .completeMultipart _ => Except UploadError Unit
  | .presign _ => Except UploadError Unit

abbrev Op : Type → Type := Program Call Call.Answer UploadError

def ask (call : Call) : Op call.Answer := .asks call .returns

/-- This is the row of `get_for_owner` with its lock. -/
def getForOwner : Op (Option UploadRow) := ask .lock

/-- This is `ObjectStore.abort_multipart_upload`. -/
def abortMultipartUpload : Op Unit := do
  let result ← ask .abortMultipart
  Program.ofExcept result

/-- This is `ObjectStore.delete`. -/
def deleteObject : Op Unit := do
  let result ← ask .deleteObject
  Program.ofExcept result

/-- This is `ObjectStore.head`. -/
def head : Op StoredObjectMetadata := do
  let result ← ask .head
  Program.ofExcept result

/-- This is `ObjectStore.list_multipart_parts`. -/
def listMultipartParts : Op (List UploadedPart) := do
  let result ← ask .listParts
  Program.ofExcept result

/-- This is `ObjectStore.complete_multipart_upload`, which ends with a HEAD. -/
def completeMultipartUpload (parts : List (Nat × Text)) : Op StoredObjectMetadata := do
  let result ← ask (.completeMultipart parts)
  Program.ofExcept result
  head

/-- This is `_storage_operation`. -/
def storageOperation {α : Type} (operation : Op α) : Op α :=
  operation.catching fun error =>
    match error with
    | .notFound => some (.raises .providerNotFound)
    | _ => none

variable (table : UnicodeTable) (session : Session)

/-- This is `_is_expired`. -/
def isExpired (row : UploadRow) : Op Bool := do
  let now ← ask .now
  return session.expiresAt ≤ now && (row.state = .initiated || row.state = .completing)

/-- This is `_expire_if_needed`. -/
def expireIfNeeded (row : UploadRow) : Op UploadRow := do
  let expired ← isExpired session row
  if expired then do
    abortMultipartUpload
    deleteObject
    ask (.setState .expired (some "upload_session_expired".toList))
  else return row

/-- This is `_fail_completion`. -/
def failCompletion (code : Text) : Op Unit := do
  let _ ← ask (.setState .failed (some code))
  deleteObject

/-- This is `_finalize_verified`. -/
def finalizeVerified (stored : StoredObjectMetadata) : Op DocumentRow :=
  if stored.sizeBytes ≠ session.sizeBytes then do
    failCompletion "stored_size_mismatch".toList
    .raises (.rejected "stored_size_mismatch".toList 413)
  else if metadataMatches table session stored = false then do
    failCompletion "stored_metadata_mismatch".toList
    .raises (.rejected "stored_metadata_mismatch".toList 422)
  else do
    let existing ← ask .document
    match existing with
    | some document => do
        let _ ← ask (.setState .completed none)
        return document
    | none => do
        ask (.createDocument (session.document stored))
        let _ ← ask (.setState .completed none)
        return session.document stored

/-- This is `_complete_from_completing`. -/
def completeFromCompleting (parts : List CompletePartInput) : Op DocumentRow := do
  let found ← head.attempt
  match found with
  | .ok stored => finalizeVerified table session stored
  | .error .notFound => do
      let provider ← storageOperation listMultipartParts
      Program.ofExcept (validateProviderParts session parts provider)
      let stored ← storageOperation
        (completeMultipartUpload (parts.map fun part => (part.partNumber, part.etag)))
      finalizeVerified table session stored
  | .error error => .raises error

/-- This is `_recover_completing_upload`. -/
def recoverCompletingUpload : Op DocumentRow := do
  let found ← head.attempt
  match found with
  | .ok stored => finalizeVerified table session stored
  | .error .notFound => do
      let provider ← storageOperation listMultipartParts
      Program.ofExcept (validateProviderPartLayout session provider)
      let stored ← storageOperation
        (completeMultipartUpload (provider.map fun part => (part.partNumber, part.etag)))
      finalizeVerified table session stored
  | .error error => .raises error

/-- This is `recover_completing`. -/
def recoverCompleting : Op (Option DocumentRow) := do
  let locked ← getForOwner
  match locked with
  | none => return none
  | some row =>
      if row.state = .completed then ask .document
      else if row.state ≠ .completing then .raises (.conflict "upload_state_conflict".toList)
      else do
        let document ← recoverCompletingUpload table session
        return some document

/-- This is `_prepare`; the refreshed row is read without a lock by the same transaction. -/
def prepare : Op (Option UploadRow) := do
  let locked ← getForOwner
  match locked with
  | none => return none
  | some row =>
      if row.state = .completing then do
        let _ ← recoverCompletingUpload table session
        getForOwner
      else do
        let row ← expireIfNeeded session row
        return some row

/-- This is `_view`. -/
def view (row : UploadRow) : Op UploadRow :=
  if row.state = .completed then do
    let _ ← ask .document
    return row
  else if row.state = .initiated then do
    let _ ← storageOperation listMultipartParts
    return row
  else return row

/-- This is `get`. -/
def get : Op (Option UploadRow) := do
  let locked ← getForOwner
  match locked with
  | none => return none
  | some row =>
      if row.state = .completing then do
        let _ ← recoverCompletingUpload table session
        getForOwner
      else do
        let row ← expireIfNeeded session row
        let row ← view row
        return some row

/-- This is the list of `presign_upload_part` calls in `sign_parts`. -/
def presignParts : List Nat → Op Unit
  | [] => return ()
  | partNumber :: partNumbers => do
      let result ← ask (.presign partNumber)
      Program.ofExcept result
      presignParts partNumbers

/-- This is `sign_parts`. -/
def signParts (batchSize : Nat) (partNumbers : List Int) : Op (Option Unit) := do
  let locked ← getForOwner
  match locked with
  | none => return none
  | some row => do
      let expired ← isExpired session row
      if expired then .raises (.conflict "upload_session_expired".toList)
      else if row.state ≠ .initiated then .raises (.conflict "upload_state_conflict".toList)
      else if partNumbers = [] ∨ batchSize < partNumbers.length ∨ ¬ partNumbers.Nodup then
        .raises (.validation "invalid_part_batch".toList)
      else if partNumbers.any fun part => part < 1 || (session.partCount : Int) < part then
        .raises (.validation "part_number_out_of_range".toList)
      else do
        presignParts (partNumbers.map Int.toNat)
        return some ()

/-- This is `abort`. -/
def abort : Op (Option Unit) := do
  let locked ← getForOwner
  match locked with
  | none => return none
  | some row =>
      if row.state = .completed then .raises (.conflict "upload_state_conflict".toList)
      else if row.state = .aborted ∨ row.state = .expired then return some ()
      else do
        abortMultipartUpload
        deleteObject
        let _ ← ask (.setState .aborted none)
        return some ()

/-- This is `complete`; its commit releases the row lock. -/
def complete (parts : List CompletePartInput) : Op (Option DocumentRow) := do
  let locked ← getForOwner
  match locked with
  | none => return none
  | some row =>
      if row.state = .completed then ask .document
      else do
        let expired ← isExpired session row
        if expired then .raises (.conflict "upload_session_expired".toList)
        else do
          Program.ofExcept (validateCompletionManifest session parts)
          if row.state = .completing then do
            let document ← completeFromCompleting table session parts
            return some document
          else if row.state ≠ .initiated then
            .raises (.conflict "upload_state_conflict".toList)
          else do
            let provider ← storageOperation listMultipartParts
            Program.ofExcept (validateProviderParts session parts provider)
            let _ ← ask (.setState .completing none)
            ask .commit
            let relocked ← getForOwner
            match relocked with
            | none => return none
            | some row =>
                if row.state = .completed then ask .document
                else if row.state ≠ .completing then
                  .raises (.conflict "upload_state_conflict".toList)
                else do
                  let document ← completeFromCompleting table session parts
                  return some document

/-- A terminal rejection is committed and every other error rolls back. -/
def settleError : UploadError → Op Unit
  | .rejected _ _ => ask .commit
  | _ => ask .rollback

/-- This is the route `get_upload`. -/
def getUpload : Op Unit := do
  let result ← (get table session).attempt
  match result with
  | .error error => settleError error
  | .ok none => ask .rollback
  | .ok (some _) => ask .commit

/-- This is the route `sign_parts`, which ends without a commit after a success. -/
def signUploadParts (batchSize : Nat) (partNumbers : List Int) : Op Unit := do
  let prepared ← (prepare table session).attempt
  match prepared with
  | .error error => settleError error
  | .ok none => ask .rollback
  | .ok (some row) =>
      if row.state = .expired ∨ row.state = .completed then ask .commit
      else do
        let _ ← (signParts session batchSize partNumbers).attempt
        ask .rollback

/-- This is the route `abort_upload`. -/
def abortUpload : Op Unit := do
  let prepared ← (prepare table session).attempt
  match prepared with
  | .error error => settleError error
  | .ok none => ask .rollback
  | .ok (some row) =>
      if row.state = .expired ∨ row.state = .completed then ask .commit
      else do
        let result ← abort.attempt
        match result with
        | .ok (some _) => ask .commit
        | _ => ask .rollback

/-- This is the route `complete_upload`. -/
def completeUpload (parts : List CompletePartInput) : Op Unit := do
  let prepared ← (prepare table session).attempt
  match prepared with
  | .error error => settleError error
  | .ok none => ask .rollback
  | .ok (some row) =>
      if row.state = .expired then ask .commit
      else do
        let result ← (complete table session parts).attempt
        match result with
        | .error error => settleError error
        | .ok none => ask .rollback
        | .ok (some _) => ask .commit

/-- This is the clean-up of `sweep_expired_uploads_async` with the end of its transaction. -/
def expireCandidate (reason : Text) : Op Unit := do
  let result ← Program.attempt do
    abortMultipartUpload
    deleteObject
    let _ ← ask (.setState .expired (some reason))
  match result with
  | .ok _ => ask .commit
  | .error _ => ask .rollback

/-- These are the layout errors that the janitor treats as permanent. -/
def isLayoutError (code : Text) : Bool :=
  code = "incomplete_provider_parts".toList || code = "invalid_provider_part_layout".toList ||
    code = "invalid_provider_part_etag".toList

/-- This is `sweep_expired_uploads_async` for one candidate. -/
def sweepExpired (moment : Nat) : Op Unit := do
  let locked ← getForOwner
  match locked with
  | none => ask .commit
  | some row =>
      if row.state ≠ .initiated ∧ row.state ≠ .completing ∨ moment < session.expiresAt then
        ask .commit
      else if row.state = .completing then do
        let recovered ← (recoverCompleting table session).attempt
        match recovered with
        | .ok _ => ask .commit
        | .error .notFound => expireCandidate "upload_session_expired".toList
        | .error .providerNotFound => expireCandidate "upload_session_expired".toList
        | .error (.validation code) =>
            if isLayoutError code then expireCandidate code else ask .rollback
        | .error error => settleError error
      else expireCandidate "upload_session_expired".toList

/-- This is `DocumentService.delete` of the owned document with the end of its transaction. -/
def deleteDocument : Op Unit := do
  let owned ← ask .document
  match owned with
  | none => ask .rollback
  | some _ => do
      let deleted ← ask .deleteRows
      if deleted then do
        let result ← deleteObject.attempt
        match result with
        | .ok _ => ask .commit
        | .error _ => ask .rollback
      else ask .rollback

end LumenCopilot.Uploads
