import LumenCopilot.Construction.Uploads.Service

namespace LumenCopilot.Uploads

open Python Library

/-- This is the multipart upload of the session and the object under its key. -/
structure Store where
  multipart : Option (List UploadedPart)
  object : Option StoredObjectMetadata

/-- These are the rows of the session; the last field counts the documents that it created. -/
structure Tables where
  upload : Option UploadRow
  document : Option DocumentRow
  created : Nat
  deriving DecidableEq

/-- The holder of the row lock sees the draft of its transaction, all others the tables. -/
structure State where
  tables : Tables
  draft : Tables
  lock : Option Nat
  store : Store
  clock : Nat
  jobs : List (Op Unit)

/-- This resolves one await: whether it fails, whether it takes effect then, and the object that
storage assembles. -/
structure Choice where
  fails : Bool := false
  taken : Bool := true
  assembled : StoredObjectMetadata := ⟨0, [], ∅⟩

/-- These are the control-plane requests of one session. -/
inductive Request where
  | get
  | signParts (batchSize : Nat) (partNumbers : List Int)
  | abort
  | complete (parts : List CompletePartInput)
  | sweep (moment : Nat)
  | deleteDocument
  deriving DecidableEq

def Request.program (table : UnicodeTable) (session : Session) : Request → Op Unit
  | .get => getUpload table session
  | .signParts batchSize partNumbers => signUploadParts table session batchSize partNumbers
  | .abort => abortUpload table session
  | .complete parts => completeUpload table session parts
  | .sweep moment => sweepExpired table session moment
  | .deleteDocument => Uploads.deleteDocument

/-- Clients send parts to storage, and the control plane starts, goes on or crashes. -/
inductive UploadAction where
  | start (request : Request)
  | putPart (part : UploadedPart)
  | tick (clock : Nat)
  | advance (place : Nat) (choice : Choice)
  | crash (place : Nat)

def State.holds (state : State) (place : Nat) : Bool := state.lock = some place

/-- These are the rows that a job sees. -/
def State.rows (state : State) (place : Nat) : Tables :=
  if state.holds place then state.draft else state.tables

/-- The holder changes its draft. -/
def State.write (state : State) (place : Nat) (change : Tables → Tables) : Option State :=
  if state.holds place then some { state with draft := change state.draft } else none

/-- A free lock is taken with a fresh draft and a held one is kept. -/
def State.acquire (state : State) (place : Nat) : Option State :=
  match state.lock with
  | none => some { state with lock := some place, draft := state.tables }
  | some holder => if holder = place then some state else none

/-- A storage call fails, before or after its effect, or it takes effect. -/
def State.storage {α : Type} (state : State) (choice : Choice) (effect : Store → Store)
    (value : Except UploadError α) : Except UploadError α × State :=
  if choice.fails then
    (.error .dependency,
      if choice.taken then { state with store := effect state.store } else state)
  else (value, { state with store := effect state.store })

/-- Storage answers only while the upload or the object is there. -/
def orNotFound {α : Type} : Option α → Except UploadError α
  | some value => .ok value
  | none => .error .notFound

/-- Storage replaces the parts by the assembled object. -/
def Store.assemble (object : StoredObjectMetadata) (store : Store) : Store :=
  match store.multipart with
  | none => store
  | some _ => ⟨none, some object⟩

/-- This answers one await of a job; a locked row gives no answer. -/
def State.answer (state : State) (place : Nat) (choice : Choice) :
    (call : Call) → Option (call.Answer × State)
  | .lock =>
      match (state.rows place).upload with
      | none => some (none, state)
      | some row => (state.acquire place).map fun locked => (some row, locked)
  | .now => some (state.clock, state)
  | .document => some ((state.rows place).document, state)
  | .createDocument document =>
      (state.write place fun draft =>
        { draft with document := some document, created := draft.created + 1 }).map fun next =>
          ((), next)
  | .setState upload error =>
      (state.write place fun draft => { draft with upload := some ⟨upload, error⟩ }).map fun next =>
        (⟨upload, error⟩, next)
  | .deleteRows =>
      match (state.rows place).document with
      | none => some (false, state)
      | some _ => (state.acquire place).map fun locked =>
          (true, { locked with draft := { locked.draft with upload := none, document := none } })
  | .commit =>
      if state.holds place then some ((), { state with tables := state.draft, lock := none })
      else some ((), state)
  | .rollback =>
      if state.holds place then some ((), { state with lock := none }) else some ((), state)
  | .abortMultipart =>
      some (state.storage choice (fun store => { store with multipart := none }) (.ok ()))
  | .deleteObject =>
      some (state.storage choice (fun store => { store with object := none }) (.ok ()))
  | .head => some (state.storage choice id (orNotFound state.store.object))
  | .listParts => some (state.storage choice id (orNotFound state.store.multipart))
  | .completeMultipart _ =>
      some (state.storage choice (Store.assemble choice.assembled)
        ((orNotFound state.store.multipart).map fun _ => ()))
  | .presign _ => some (state.storage choice id (.ok ()))

/-- A new part replaces the one with its number. -/
def putPart (part : UploadedPart) (parts : List UploadedPart) : List UploadedPart :=
  let others := parts.filter fun other => other.partNumber ≠ part.partNumber
  others.takeWhile (fun other => other.partNumber < part.partNumber) ++
    part :: others.dropWhile (fun other => other.partNumber < part.partNumber)

/-- This is one step of the clients and the control plane of one session. -/
def uploadStep (table : UnicodeTable) (session : Session) (state : State) :
    UploadAction → Option State
  | .start request => some { state with jobs := state.jobs ++ [request.program table session] }
  | .putPart part => state.store.multipart.map fun parts =>
      { state with store := { state.store with multipart := some (putPart part parts) } }
  | .tick clock => some { state with clock := clock }
  | .advance place choice =>
      match state.jobs[place]? with
      | some (.asks call next) => (state.answer place choice call).map fun result =>
          { result.2 with jobs := result.2.jobs.set place (next result.1) }
      | _ => none
  | .crash place => some { state with
      lock := if state.holds place then none else state.lock
      jobs := state.jobs.set place (.returns ()) }

/-- A new session has its multipart upload, no object and no document. -/
def State.initial (clock : Nat) : State :=
  ⟨⟨some ⟨.initiated, none⟩, none, 0⟩, ⟨none, none, 0⟩, none, ⟨some [], none⟩, clock, []⟩

end LumenCopilot.Uploads
