import Mathlib

namespace LumenCopilot.Sources

/-- A key is the content address of the bytes, or reserved for the document of a direct upload. -/
inductive StorageKey where
  | content (hash : Nat)
  | quarantine (document : Nat)
  deriving DecidableEq

/-- These are the columns of a document row that a deletion reads; an upload has no source. -/
structure Document where
  id : Nat
  collection : Nat
  source : Option Nat
  storageKey : StorageKey
  deriving DecidableEq

/-- These are `SourcesService.delete` with the backing collection of the source,
`DocumentService.delete` and `CollectionsService.delete`. -/
inductive Target where
  | source (id : Nat) (backing : Option Nat)
  | document (id : Nat)
  | collection (id : Nat)
  deriving DecidableEq

/-- A deletion reads, deletes rows, cleans up objects, and commits or fails at its end. -/
inductive Phase where
  | started
  | listed
  | deleting (rest : List Document)
  | reclaiming
  | flushing (collection : Option Nat)
  | cleaning (keys : List StorageKey)
  | dropping (key : StorageKey) (rest : List StorageKey)
  | committed
  | failed
  deriving DecidableEq

/-- This is the transaction of a deletion: the documents that it read, the rows and the collection
that it has deleted but not committed, and the objects that it has deleted. -/
structure Deletion where
  target : Target
  phase : Phase := .started
  listed : List Document := []
  held : List Document := []
  removed : List Document := []
  cascaded : List Document := []
  locked : Option Nat := none
  collection : Option Nat := none
  dropped : List StorageKey := []
  deriving DecidableEq

def Deletion.isOpen (deletion : Deletion) : Bool :=
  deletion.phase ≠ .committed && deletion.phase ≠ .failed

/-- The database has its committed rows, the store its objects; the history is kept beside. -/
structure State where
  documents : List Document
  collections : List Nat
  objects : List StorageKey
  deletions : List Deletion
  history : List Document
  deriving DecidableEq

/-- An open transaction has deleted the row of the document. -/
def State.isRowLocked (state : State) (document : Document) : Bool :=
  state.deletions.any fun deletion => deletion.isOpen && document ∈ deletion.removed

/-- An open transaction has locked or deleted the row of the collection. -/
def State.isCollectionLocked (state : State) (collection : Nat) : Bool :=
  state.deletions.any fun deletion => deletion.isOpen &&
    (deletion.locked = some collection || deletion.collection = some collection)

/-- The backing collection has documents that the source does not list. -/
def Deletion.hasUnrelatedDocuments (deletion : Deletion) : Bool :=
  deletion.held.any fun document => document.id ∉ deletion.listed.map Document.id

/-- These are the keys of the set comprehension over the listed documents. -/
def Deletion.storageKeys (deletion : Deletion) : List StorageKey :=
  (deletion.listed.map Document.storageKey).eraseDups

/-- The first statements of a deletion. -/
def Deletion.begins (state : State) (deletion : Deletion) : Option Deletion :=
  match deletion.target with
  | .source id _ =>
      some { deletion with
        listed := state.documents.filter (·.source = some id)
        phase := .listed }
  | .document id =>
      let rows := state.documents.filter (·.id = id)
      some { deletion with listed := rows, phase := .deleting rows }
  | .collection id =>
      if id ∈ state.collections && !state.isCollectionLocked id then
        some { deletion with
          locked := some id
          listed := state.documents.filter (·.collection = id)
          phase := .flushing (some id) }
      else none

/-- This is `list_in_collection` of the backing collection. -/
def Deletion.reads (state : State) (deletion : Deletion) : Deletion :=
  match deletion.target with
  | .source _ (some backing) =>
      { deletion with
        held := state.documents.filter (·.collection = backing)
        phase := .deleting deletion.listed }
  | _ => { deletion with phase := .deleting deletion.listed }

/-- This is `delete` of one document with the flush of its audit row; another transaction that
deleted the row makes it wait. -/
def Deletion.deletes (state : State) (deletion : Deletion) (document : Document)
    (rest : List Document) : Option Deletion :=
  if state.isRowLocked document then none
  else if document ∈ state.documents then
    some { deletion with removed := deletion.removed ++ [document], phase := .deleting rest }
  else some { deletion with phase := .deleting rest }

/-- The backing collection is deleted when it held nothing but the listed documents. -/
def Deletion.reclaims (state : State) (deletion : Deletion) : Deletion :=
  match deletion.target with
  | .source _ (some backing) =>
      if deletion.hasUnrelatedDocuments || backing ∉ state.collections then
        { deletion with phase := .flushing none }
      else { deletion with phase := .flushing (some backing) }
  | _ => { deletion with phase := .flushing none }

/-- The flush of a deleted collection deletes the documents that it holds by then. -/
def Deletion.flushes (state : State) (deletion : Deletion) : Option Nat → Option Deletion
  | none => some { deletion with phase := .cleaning deletion.storageKeys }
  | some collection =>
      let cascade := state.documents.filter fun document =>
        document.collection = collection && document ∉ deletion.removed
      if cascade.any state.isRowLocked ||
          (deletion.locked ≠ some collection && state.isCollectionLocked collection) then none
      else
        some { deletion with
          removed := deletion.removed ++ cascade
          cascaded := cascade
          collection := some collection
          phase := .cleaning deletion.storageKeys }

/-- This is `count_by_storage_key` in the view of the transaction. -/
def Deletion.countByStorageKey (state : State) (deletion : Deletion) (key : StorageKey) : Nat :=
  (state.documents.filter fun document =>
    document.storageKey = key && document ∉ deletion.removed).length

def State.put (state : State) (i : Nat) (deletion : Deletion) : State :=
  { state with deletions := state.deletions.set i deletion }

/-- This is the next repository call, store call or commit of a deletion. -/
def State.advance (state : State) (i : Nat) (deletion : Deletion) : Option State :=
  match deletion.phase with
  | .started => (deletion.begins state).map (state.put i)
  | .listed => some (state.put i (deletion.reads state))
  | .deleting [] => some (state.put i { deletion with phase := .reclaiming })
  | .deleting (document :: rest) => (deletion.deletes state document rest).map (state.put i)
  | .reclaiming => some (state.put i (deletion.reclaims state))
  | .flushing collection => (deletion.flushes state collection).map (state.put i)
  | .cleaning (key :: rest) =>
      if deletion.countByStorageKey state key = 0 then
        some (state.put i { deletion with phase := .dropping key rest })
      else some (state.put i { deletion with phase := .cleaning rest })
  | .dropping key rest =>
      some (State.put { state with objects := state.objects.filter (· ≠ key) } i
        { deletion with dropped := deletion.dropped ++ [key], phase := .cleaning rest })
  | .cleaning [] =>
      some (State.put { state with
          documents := state.documents.filter (· ∉ deletion.removed)
          collections := state.collections.filter (some · ≠ deletion.collection) } i
        { deletion with phase := .committed })
  | .committed => none
  | .failed => none

/-- An upload commits, a deletion begins, takes its next step, loses a store call or rolls back. -/
inductive Action where
  | upload (document : Document)
  | delete (target : Target)
  | advance (i : Nat)
  | storeFails (i : Nat)
  | fail (i : Nat)
  deriving DecidableEq

/-- A direct upload has a new id and its own key; its row waits for the row of the collection. -/
def State.accepts (state : State) (document : Document) : Bool :=
  document.source = none && document.storageKey = .quarantine document.id &&
    document.id ∉ state.history.map Document.id && document.collection ∈ state.collections &&
    !state.isCollectionLocked document.collection

def State.step (state : State) : Action → Option State
  | .upload document =>
      if state.accepts document then
        some { state with
          documents := state.documents ++ [document]
          objects := state.objects ++ [document.storageKey]
          history := state.history ++ [document] }
      else none
  | .delete target => some { state with deletions := state.deletions ++ [{ target := target }] }
  | .advance i => state.deletions[i]?.bind (state.advance i)
  | .storeFails i =>
      state.deletions[i]?.bind fun deletion =>
        match deletion.phase with
        | .dropping _ rest => some (state.put i { deletion with phase := .cleaning rest })
        | _ => none
  | .fail i =>
      state.deletions[i]?.bind fun deletion =>
        if deletion.isOpen then some (state.put i { deletion with phase := .failed }) else none

end LumenCopilot.Sources
