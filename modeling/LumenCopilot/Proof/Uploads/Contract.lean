import LumenCopilot.Construction.Uploads.System
import LumenCopilot.Proof.Library.Program

namespace LumenCopilot.Uploads

open Python Library

/-- The stored object is the one that the session declared. -/
structure Verified (table : UnicodeTable) (session : Session) (stored : StoredObjectMetadata) :
    Prop where
  size : stored.sizeBytes = session.sizeBytes
  declared : metadataMatches table session stored = true

/-- A completed, aborted or expired session is final and a failed one may be aborted. -/
def UploadRow.Follows (before after : UploadRow) : Prop :=
  match before.state with
  | .initiated | .completing => True
  | .failed => after.state = .failed ∨ after.state = .aborted
  | .completed | .aborted | .expired => after.state = before.state

/-- The rows follow the earlier ones; only a completed session is removed. -/
structure Tables.Follows (before after : Tables) : Prop where
  kept : ∀ row, before.upload = some row →
    (∃ next, after.upload = some next ∧ row.Follows next) ∨
      after.upload = none ∧ row.state = .completed
  gone : before.upload = none → after.upload = none

/-- The committed rows agree with each other and with the object in storage. -/
structure Settled (session : Session) (tables : Tables) (object : Option StoredObjectMetadata) :
    Prop where
  document : ∀ document, tables.document = some document → document.id = session.documentId ∧
    ∃ row, tables.upload = some row ∧ row.state = .completed
  created : tables.created ≤ 1
  fresh : ∀ row, tables.upload = some row → row.state ≠ .completed → tables.created = 0
  cleaned : ∀ row, tables.upload = some row → row.state = .aborted ∨ row.state = .expired →
    object = none

/-- The holder of the row lock sees the committed rows, its draft and the object. -/
structure View where
  committed : Tables
  draft : Tables
  object : Option StoredObjectMetadata

/-- The transaction has written nothing since it read this row. -/
structure Unchanged (session : Session) (row : UploadRow) (view : View) : Prop where
  draft : view.draft = view.committed
  upload : view.committed.upload = some row
  settled : Settled session view.committed view.object

/-- The draft may be committed. -/
structure Commits (table : UnicodeTable) (session : Session) (view : View) : Prop where
  settled : Settled session view.draft view.object
  follows : view.committed.Follows view.draft
  verified : ∀ row, view.draft.upload = some row → row.state = .completed →
    (∀ old, view.committed.upload = some old → old.state ≠ .completed) →
      ∃ stored, view.object = some stored ∧ Verified table session stored

/-- An operation writes under the row lock only, and commits only what it may. -/
def permits (table : UnicodeTable) (session : Session) : Option View → Call → Prop
  | some view, .commit => Commits table session view
  | some view, .completeMultipart _ => ∀ object, Settled session view.committed object
  | some _, _ => True
  | none, .lock | none, .now | none, .document | none, .deleteRows => True
  | none, .commit | none, .rollback => True
  | none, _ => False

/-- The answers that an operation relies on. -/
def moves (session : Session) : Option View → (call : Call) → call.Answer → Option View → Prop
  | none, .lock, answer, t => answer = none ∧ t = none ∨
      ∃ view row, answer = some row ∧ t = some view ∧ Unchanged session row view
  | none, .deleteRows, answer, t => answer = false ∧ t = none ∨
      ∃ view row document, answer = true ∧ Unchanged session row view ∧
        view.committed.document = some document ∧
        t = some { view with draft := { view.draft with upload := none, document := none } }
  | none, _, _, t => t = none
  | some view, .lock, answer, t => answer = view.draft.upload ∧ t = some view
  | some view, .now, _, t => t = some view
  | some view, .document, answer, t => answer = view.draft.document ∧ t = some view
  | some view, .createDocument document, _, t => t = some { view with
      draft := { view.draft with document := some document, created := view.draft.created + 1 } }
  | some view, .setState state error, answer, t => answer = ⟨state, error⟩ ∧
      t = some { view with draft := { view.draft with upload := some ⟨state, error⟩ } }
  | some view, .deleteRows, _, t => t = some view ∨
      t = some { view with draft := { view.draft with upload := none, document := none } }
  | some _, .commit, _, t => t = none
  | some _, .rollback, _, t => t = none
  | some view, .abortMultipart, answer, t => t = some view ∧
      (answer = .ok () ∨ answer = .error .dependency)
  | some view, .deleteObject, answer, t =>
      answer = .ok () ∧ t = some { view with object := none } ∨
        answer = .error .dependency ∧ (t = some view ∨ t = some { view with object := none })
  | some view, .head, answer, t => t = some view ∧
      (answer = orNotFound view.object ∨ answer = .error .dependency)
  | some view, .listParts, answer, t => t = some view ∧
      ((∃ parts, answer = .ok parts) ∨ answer = .error .notFound ∨ answer = .error .dependency)
  | some view, .completeMultipart _, answer, t => (∃ object, t = some { view with object := object }) ∧
      (answer = .ok () ∨ answer = .error .notFound ∨ answer = .error .dependency)
  | some view, .presign _, answer, t => t = some view ∧
      (answer = .ok () ∨ answer = .error .dependency)

def contract (table : UnicodeTable) (session : Session) : Contract Call Call.Answer (Option View) :=
  ⟨permits table session, moves session⟩

variable {table : UnicodeTable} {session : Session}

/-- An operation ends without the row lock. -/
def Releases (table : UnicodeTable) (session : Session) (program : Op Unit) (s : Option View) :
    Prop :=
  program.Meets (contract table session) (fun _ t => t = none) s

theorem UploadRow.Follows.refl (row : UploadRow) : row.Follows row := by
  unfold UploadRow.Follows
  cases row.state <;> simp

variable {row : UploadRow}

theorem Unchanged.commits {view : View} (unchanged : Unchanged session row view) :
    Commits table session view := by
  obtain ⟨draft, upload, settled⟩ := unchanged
  refine ⟨draft ▸ settled, ⟨?_, ?_⟩, ?_⟩
  · rw [draft]
    exact fun found held => Or.inl ⟨found, held, .refl found⟩
  · rw [draft]
    exact id
  · rw [draft]
    exact fun found held completed other => absurd completed (other found held)

/-- The open transaction holds the row lock and may be committed. -/
def Ready (table : UnicodeTable) (session : Session) (s : Option View) : Prop :=
  ∃ view, s = some view ∧ Commits table session view

/-- The open transaction has written nothing. -/
def Idle (session : Session) (row : UploadRow) (s : Option View) : Prop :=
  ∃ view, s = some view ∧ Unchanged session row view

/-- The open transaction has written the row and may be committed. -/
def Wrote (table : UnicodeTable) (session : Session) (row : UploadRow) (s : Option View) : Prop :=
  ∃ view, s = some view ∧ Commits table session view ∧ view.draft.upload = some row

variable {s : Option View}

theorem Wrote.ready (wrote : Wrote table session row s) : Ready table session s := by
  obtain ⟨view, rfl, commits, -⟩ := wrote
  exact ⟨view, rfl, commits⟩

theorem Idle.ready (idle : Idle session row s) : Ready table session s := by
  obtain ⟨view, rfl, unchanged⟩ := idle
  exact ⟨view, rfl, unchanged.commits⟩

/-- A rollback needs nothing. -/
theorem rollback_releases (s : Option View) :
    Releases table session (ask .rollback) s := by
  unfold Releases ask
  cases s with
  | none => exact ⟨trivial, fun _ _ moved => moved⟩
  | some view => exact ⟨trivial, fun _ _ moved => moved⟩

theorem commit_releases (ready : Ready table session s) :
    Releases table session (ask .commit) s := by
  obtain ⟨view, rfl, commits⟩ := ready
  exact ⟨commits, fun _ _ moved => moved⟩

end LumenCopilot.Uploads
