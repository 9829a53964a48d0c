import LumenCopilot.Proof.Uploads.Contract

namespace LumenCopilot.Uploads

open Python Library

variable {table : UnicodeTable} {session : Session} {α : Type}

variable {call : Call} {s : Option View}

theorem meets_ask {ends : Except UploadError call.Answer → Option View → Prop} :
    (ask call).Meets (contract table session) ends s ↔
      permits table session s call ∧
        ∀ answer t, moves session s call answer t → ends (.ok answer) t :=
  Iff.rfl

/-- An await hands its answer to the rest of the program. -/
theorem meets_ask_bind {next : call.Answer → Op α}
    {ends : Except UploadError α → Option View → Prop} :
    (ask call >>= next).Meets (contract table session) ends s ↔
      permits table session s call ∧ ∀ answer t, moves session s call answer t →
        (next answer).Meets (contract table session) ends t :=
  Iff.rfl

theorem abortMultipartUpload_meets (view : View) :
    abortMultipartUpload.Meets (contract table session) (fun result t => t = some view ∧
      (result = .ok () ∨ result = .error .dependency)) (some view) := by
  refine meets_ask_bind.mpr ⟨trivial, ?_⟩
  rintro answer t ⟨rfl, same⟩
  rw [meets_ofExcept]
  exact ⟨rfl, same⟩

theorem deleteObject_meets (view : View) :
    deleteObject.Meets (contract table session) (fun result t =>
      result = .ok () ∧ t = some { view with object := none } ∨ result = .error .dependency)
      (some view) := by
  refine meets_ask_bind.mpr ⟨trivial, ?_⟩
  intro answer t moved
  rw [meets_ofExcept]
  rcases moved with ⟨rfl, rfl⟩ | ⟨rfl, -⟩
  · exact Or.inl ⟨rfl, rfl⟩
  · exact Or.inr rfl

theorem head_meets (view : View) :
    head.Meets (contract table session) (fun result t => t = some view ∧
      ((∃ stored, result = .ok stored ∧ view.object = some stored) ∨
        result = .error .notFound ∨ result = .error .dependency)) (some view) := by
  refine meets_ask_bind.mpr ⟨trivial, ?_⟩
  rintro answer t ⟨rfl, same⟩
  rw [meets_ofExcept]
  refine ⟨rfl, ?_⟩
  rcases same with rfl | rfl
  · cases view.object with
    | none => exact Or.inr (Or.inl rfl)
    | some stored => exact Or.inl ⟨stored, rfl, rfl⟩
  · exact Or.inr (Or.inr rfl)

/-- A storage operation raises no plain absence. -/
theorem storageOperation_meets {operation : Op α} {ends : Except UploadError α → Option View → Prop}
    (meets : operation.Meets (contract table session) (fun result t =>
      match result with
      | .error .notFound => ends (.error .providerNotFound) t
      | result => ends result t) s) :
    (storageOperation operation).Meets (contract table session) ends s := by
  unfold storageOperation
  rw [meets_catching]
  refine meets.mono fun result t reached => ?_
  cases result with
  | ok value => exact reached
  | error error => cases error <;> exact reached

theorem listMultipartParts_meets (view : View) :
    (storageOperation listMultipartParts).Meets (contract table session) (fun result t =>
      t = some view ∧ ((∃ parts, result = .ok parts) ∨
        result = .error .providerNotFound ∨ result = .error .dependency)) (some view) := by
  apply storageOperation_meets
  refine meets_ask_bind.mpr ⟨trivial, ?_⟩
  rintro answer t ⟨rfl, same⟩
  rw [meets_ofExcept]
  rcases same with ⟨parts, rfl⟩ | rfl | rfl
  · exact ⟨rfl, Or.inl ⟨parts, rfl⟩⟩
  · exact ⟨rfl, Or.inr (Or.inl rfl)⟩
  · exact ⟨rfl, Or.inr (Or.inr rfl)⟩

/-- A completing session may find any object. -/
theorem Settled.completing {tables : Tables} {object : Option StoredObjectMetadata}
    (settled : Settled session tables object) {row : UploadRow} (upload : tables.upload = some row)
    (completing : row.state = .completing) (other : Option StoredObjectMetadata) :
    Settled session tables other := by
  refine ⟨settled.document, settled.created, settled.fresh, ?_⟩
  intro found held final
  obtain rfl := Option.some.inj (held.symm.trans upload)
  rw [completing] at final
  simp at final

theorem Unchanged.completing {row : UploadRow} {view : View}
    (unchanged : Unchanged session row view) (completing : row.state = .completing)
    (object : Option StoredObjectMetadata) :
    Unchanged session row { view with object := object } :=
  ⟨unchanged.draft, unchanged.upload, unchanged.settled.completing unchanged.upload completing _⟩

/-- The completion call shows the object that storage then holds. -/
theorem completeMultipartUpload_meets {view : View} {row : UploadRow}
    (unchanged : Unchanged session row view) (completing : row.state = .completing)
    (parts : List (Nat × Text)) :
    (storageOperation (completeMultipartUpload parts)).Meets (contract table session)
      (fun result t => ∃ object, t = some { view with object := object } ∧
        ((∃ stored, result = .ok stored ∧ object = some stored) ∨
          result = .error .providerNotFound ∨ result = .error .dependency)) (some view) := by
  apply storageOperation_meets
  refine meets_ask_bind.mpr ⟨?_, ?_⟩
  · exact unchanged.settled.completing unchanged.upload completing
  · rintro answer t ⟨⟨object, rfl⟩, same⟩
    rcases same with rfl | rfl | rfl
    · refine (head_meets { view with object := object }).mono ?_
      rintro result t ⟨rfl, ⟨stored, rfl, found⟩ | rfl | rfl⟩
      · exact ⟨object, rfl, Or.inl ⟨stored, rfl, found⟩⟩
      · exact ⟨object, rfl, Or.inr (Or.inl rfl)⟩
      · exact ⟨object, rfl, Or.inr (Or.inr rfl)⟩
    · exact ⟨object, rfl, Or.inr (Or.inl rfl)⟩
    · exact ⟨object, rfl, Or.inr (Or.inr rfl)⟩

variable {state : DocumentUploadState}

/-- A row that is not final may be aborted or expired when its object is gone. -/
theorem Unchanged.clears {row : UploadRow} {view : View} (unchanged : Unchanged session row view)
    {error : Option Text} (cleared : state = .aborted ∨ state = .expired ∧ row.state ≠ .failed)
    (lively : row.state ≠ .completed ∧ row.state ≠ .aborted ∧ row.state ≠ .expired) :
    Commits table session ⟨view.committed, { view.draft with upload := some ⟨state, error⟩ },
      none⟩ := by
  obtain ⟨draft, upload, settled⟩ := unchanged
  have fresh := settled.fresh row upload lively.1
  have none' : view.committed.document = none := by
    cases held : view.committed.document with
    | none => rfl
    | some document =>
        obtain ⟨-, found, known, completed⟩ := settled.document document held
        obtain rfl := Option.some.inj (known.symm.trans upload)
        exact absurd completed lively.1
  rw [draft]
  refine ⟨⟨?_, settled.created, ?_, fun _ _ _ => rfl⟩, ⟨?_, ?_⟩, ?_⟩
  · intro document held
    change view.committed.document = some document at held
    rw [none'] at held
    contradiction
  · exact fun _ _ _ => fresh
  · intro found held
    obtain rfl := Option.some.inj (held.symm.trans upload)
    refine Or.inl ⟨_, rfl, ?_⟩
    unfold UploadRow.Follows
    rcases cleared with rfl | ⟨rfl, lively⟩
    · cases state : found.state <;> simp_all
    · cases state : found.state <;> simp_all
  · intro gone
    rw [upload] at gone
    contradiction
  · intro found held completed
    obtain rfl := Option.some.inj held
    rcases cleared with rfl | ⟨rfl, -⟩ <;> simp at completed

/-- Only an initiated or completing session expires. -/
theorem isExpired_meets (view : View) (row : UploadRow) :
    (isExpired session row).Meets (contract table session) (fun result t => t = some view ∧
      (result = .ok false ∨
        result = .ok true ∧ (row.state = .initiated ∨ row.state = .completing))) (some view) := by
  refine meets_ask_bind.mpr ⟨trivial, ?_⟩
  rintro now t rfl
  rw [meets_pure]
  refine ⟨rfl, ?_⟩
  cases expired : (decide (session.expiresAt ≤ now) &&
      (decide (row.state = .initiated) || decide (row.state = .completing))) with
  | false => exact Or.inl rfl
  | true =>
      simp only [Bool.and_eq_true, Bool.or_eq_true, decide_eq_true_eq] at expired
      exact Or.inr ⟨rfl, expired.2⟩

/-- The clean-up of an open session ends it. -/
theorem clears_meets {view : View} {row : UploadRow} (unchanged : Unchanged session row view)
    {error : Option Text} (cleared : state = .aborted ∨ state = .expired ∧ row.state ≠ .failed)
    (lively : row.state ≠ .completed ∧ row.state ≠ .aborted ∧ row.state ≠ .expired) :
    (do
      abortMultipartUpload
      deleteObject
      ask (.setState state error) : Op UploadRow).Meets (contract table session)
      (fun result t => result = .ok ⟨state, error⟩ ∧ Wrote table session ⟨state, error⟩ t ∨
        result = .error .dependency) (some view) := by
  refine (abortMultipartUpload_meets view).then ?_ ?_
  · rintro raised t ⟨rfl, same | same⟩
    · simp at same
    · exact Or.inr (congrArg Except.error (Except.error.inj same))
  · rintro value t ⟨rfl, -⟩
    refine (deleteObject_meets view).then ?_ ?_
    · rintro raised t (⟨same, -⟩ | same)
      · simp at same
      · exact Or.inr (congrArg Except.error (Except.error.inj same))
    · rintro value t (⟨-, rfl⟩ | same)
      · refine meets_ask.mpr ⟨trivial, ?_⟩
        rintro answer t ⟨rfl, rfl⟩
        exact Or.inl ⟨rfl, _, rfl, unchanged.clears cleared lively, rfl⟩
      · simp at same

theorem expireIfNeeded_meets {view : View} {row : UploadRow}
    (unchanged : Unchanged session row view) :
    (expireIfNeeded session row).Meets (contract table session) (fun result t =>
      result = .ok row ∧ t = some view ∨
        (∃ error, result = .ok ⟨.expired, error⟩ ∧ Wrote table session ⟨.expired, error⟩ t) ∨
        result = .error .dependency) (some view) := by
  unfold expireIfNeeded
  refine (isExpired_meets view row).then ?_ ?_
  · rintro raised t ⟨rfl, same | ⟨same, -⟩⟩ <;> simp at same
  · rintro expired t ⟨rfl, same | ⟨same, pending⟩⟩
    · obtain rfl := Except.ok.inj same
      exact Or.inl ⟨rfl, rfl⟩
    · obtain rfl := Except.ok.inj same
      have lively : row.state ≠ .completed ∧ row.state ≠ .aborted ∧ row.state ≠ .expired ∧
          row.state ≠ .failed := by
        rcases pending with same | same <;> simp [same]
      refine (clears_meets unchanged (Or.inr ⟨rfl, lively.2.2.2⟩)
        ⟨lively.1, lively.2.1, lively.2.2.1⟩).mono ?_
      rintro result t (⟨rfl, ready⟩ | rfl)
      · exact Or.inr (Or.inl ⟨_, rfl, ready⟩)
      · exact Or.inr (Or.inr rfl)

/-- A completing session has no document. -/
theorem Unchanged.fresh {row : UploadRow} {view : View} (unchanged : Unchanged session row view)
    (completing : row.state = .completing) :
    view.committed.document = none ∧ view.committed.created = 0 := by
  constructor
  · cases held : view.committed.document with
    | none => rfl
    | some document =>
        obtain ⟨-, found, known, completed⟩ := unchanged.settled.document document held
        obtain rfl := Option.some.inj (known.symm.trans unchanged.upload)
        rw [completing] at completed
        contradiction
  · exact unchanged.settled.fresh row unchanged.upload (by simp [completing])

variable {stored : StoredObjectMetadata}

section

variable {row : UploadRow} {view : View} (unchanged : Unchanged session row view)
  (completing : row.state = .completing)
include unchanged completing

/-- A completing row is followed by every row. -/
theorem Unchanged.follows {after : Tables} {next : UploadRow} (upload : after.upload = some next) :
    view.committed.Follows after := by
  refine ⟨fun found held => Or.inl ⟨next, upload, ?_⟩, fun gone => ?_⟩
  · obtain rfl := Option.some.inj (held.symm.trans unchanged.upload)
    simp [UploadRow.Follows, completing]
  · rw [unchanged.upload] at gone
    contradiction

/-- A failed completion may be committed. -/
theorem Unchanged.fails (error : Option Text) (object : Option StoredObjectMetadata) :
    Commits table session ⟨view.committed,
      { view.draft with upload := some ⟨.failed, error⟩ }, object⟩ := by
  obtain ⟨absent, fresh⟩ := unchanged.fresh completing
  rw [unchanged.draft]
  refine ⟨⟨?_, unchanged.settled.created, fun _ _ _ => fresh, ?_⟩,
    unchanged.follows completing rfl, ?_⟩
  · intro document held
    change view.committed.document = some document at held
    rw [absent] at held
    contradiction
  · intro found held final
    obtain rfl := Option.some.inj held
    simp at final
  · intro found held completed
    obtain rfl := Option.some.inj held
    simp at completed

/-- A verified completion may be committed. -/
theorem Unchanged.completes (found : view.object = some stored)
    (verified : Verified table session stored) :
    Commits table session ⟨view.committed, ⟨some ⟨.completed, none⟩,
      some (session.document stored), view.draft.created + 1⟩, view.object⟩ := by
  obtain ⟨absent, fresh⟩ := unchanged.fresh completing
  rw [unchanged.draft, fresh]
  refine ⟨⟨?_, le_rfl, ?_, ?_⟩, unchanged.follows completing rfl, ?_⟩
  · intro document held
    obtain rfl := Option.some.inj held
    exact ⟨rfl, _, rfl, rfl⟩
  · intro next held other
    obtain rfl := Option.some.inj held
    exact absurd rfl other
  · intro next held final
    obtain rfl := Option.some.inj held
    simp at final
  · exact fun _ _ _ _ => ⟨stored, found, verified⟩

theorem failCompletion_meets (code reason : Text) (status : Nat) :
    (do
      failCompletion code
      Program.raises (.rejected reason status) : Op DocumentRow).Meets (contract table session)
      (fun result t => result = .error (.rejected reason status) ∧ Ready table session t ∨
        result = .error .dependency) (some view) := by
  have fails : (failCompletion code).Meets (contract table session)
      (fun result t => result = .ok () ∧ Ready table session t ∨ result = .error .dependency)
      (some view) := by
    refine meets_ask_bind.mpr ⟨trivial, ?_⟩
    rintro answer t ⟨-, rfl⟩
    refine (deleteObject_meets _).mono ?_
    rintro result t (⟨rfl, rfl⟩ | rfl)
    · exact Or.inl ⟨rfl, _, rfl, unchanged.fails completing _ _⟩
    · exact Or.inr rfl
  refine fails.then ?_ ?_
  · rintro error t (⟨same, -⟩ | same)
    · simp at same
    · exact Or.inr (congrArg Except.error (Except.error.inj same))
  · rintro value t (⟨-, ready⟩ | same)
    · exact Or.inl ⟨rfl, ready⟩
    · simp at same

end

/-- The ends of a finalisation: a completed session, a committed rejection or an outage. -/
def Finalizes (table : UnicodeTable) (session : Session) {β : Type} (result : Except UploadError β)
    (t : Option View) : Prop :=
  match result with
  | .ok _ => Wrote table session ⟨.completed, none⟩ t
  | .error (.rejected _ _) => Ready table session t
  | .error error => error = .dependency

theorem finalizeVerified_meets {view : View} {row : UploadRow}
    (unchanged : Unchanged session row view) (completing : row.state = .completing)
    (found : view.object = some stored) :
    (finalizeVerified table session stored).Meets (contract table session)
      (Finalizes table session) (some view) := by
  have rejects {reason : Text} {status : Nat} {result : Except UploadError DocumentRow}
      {t : Option View} (fails : result = .error (.rejected reason status) ∧ Ready table session t ∨
        result = .error .dependency) : Finalizes table session result t := by
    rcases fails with ⟨rfl, ready⟩ | rfl
    · exact ready
    · rfl
  unfold finalizeVerified
  split
  · exact (failCompletion_meets unchanged completing _ _ _).mono fun _ _ fails => rejects fails
  · rename_i size
    split
    · exact (failCompletion_meets unchanged completing _ _ _).mono fun _ _ fails => rejects fails
    · rename_i declared
      have verified : Verified table session stored :=
        ⟨not_not.mp size, by simpa using declared⟩
      refine meets_ask_bind.mpr ⟨trivial, ?_⟩
      rintro answer t ⟨rfl, rfl⟩
      rw [unchanged.draft, (unchanged.fresh completing).1]
      refine meets_ask_bind.mpr ⟨trivial, ?_⟩
      rintro answer t rfl
      refine meets_ask_bind.mpr ⟨trivial, ?_⟩
      rintro answer t ⟨-, rfl⟩
      exact ⟨_, rfl, unchanged.completes completing found verified, rfl⟩

/-- The ends of a recovery: those of a finalisation, or an error before any write. -/
def Recovers (table : UnicodeTable) (session : Session) (row : UploadRow) {β : Type}
    (result : Except UploadError β) (t : Option View) : Prop :=
  match result with
  | .ok _ => Wrote table session ⟨.completed, none⟩ t
  | .error (.rejected _ _) => Ready table session t
  | .error .providerNotFound | .error (.validation _) => Idle session row t
  | .error .notFound | .error (.conflict _) => False
  | .error _ => True

theorem Finalizes.recovers {β : Type} {result : Except UploadError β} {t : Option View}
    (finalizes : Finalizes table session result t) (row : UploadRow) :
    Recovers table session row result t := by
  cases result with
  | ok value => exact finalizes
  | error error => cases error <;> simp_all [Finalizes, Recovers]

variable {provider : List UploadedPart}

/-- The layout check fails with a validation error only. -/
theorem validateProviderPartLayout_error {error : UploadError}
    (failed : validateProviderPartLayout session provider = .error error) :
    ∃ code, error = .validation code := by
  have part {index : Nat} {stored : UploadedPart} {error : UploadError}
      (failed : validateProviderPart session index stored = .error error) :
      ∃ code, error = .validation code := by
    unfold validateProviderPart at failed
    simp only at failed
    split_ifs at failed <;> exact ⟨_, (Except.error.inj failed).symm⟩
  have parts {entries : List (UploadedPart × Nat)} {error : UploadError}
      (failed : (entries.forM fun entry => validateProviderPart session entry.2 entry.1) =
        .error error) : ∃ code, error = .validation code := by
    induction entries with
    | nil => simp [pure, Except.pure] at failed
    | cons entry rest ih =>
        change (validateProviderPart session entry.2 entry.1 >>= fun _ =>
          rest.forM fun entry => validateProviderPart session entry.2 entry.1) = _ at failed
        cases first : validateProviderPart session entry.2 entry.1 with
        | error raised =>
            rw [first] at failed
            obtain rfl := Except.error.inj failed
            exact part first
        | ok done =>
            rw [first] at failed
            exact ih failed
  unfold validateProviderPartLayout at failed
  split at failed
  · exact ⟨_, (Except.error.inj failed).symm⟩
  · exact parts failed

/-- The end of an operation that completes the provider upload from a checked part list. -/
theorem completeThenFinalize_meets {view : View} {row : UploadRow}
    (unchanged : Unchanged session row view) (completing : row.state = .completing)
    (check : List UploadedPart → Except UploadError Unit)
    (checked : ∀ provider error, check provider = .error error →
      (∃ code, error = .validation code) ∨ error = .value)
    (parts : List UploadedPart → List (Nat × Text)) :
    (do
      let provider ← storageOperation listMultipartParts
      Program.ofExcept (check provider)
      let stored ← storageOperation (completeMultipartUpload (parts provider))
      finalizeVerified table session stored : Op DocumentRow).Meets (contract table session)
      (Recovers table session row) (some view) := by
  refine (listMultipartParts_meets view).then ?_ ?_
  · rintro error t ⟨rfl, ⟨found, same⟩ | same | same⟩
    · simp at same
    · obtain rfl := Except.error.inj same
      exact ⟨view, rfl, unchanged⟩
    · obtain rfl := Except.error.inj same
      trivial
  · rintro provider t ⟨rfl, -⟩
    rw [meets_bind, meets_ofExcept]
    cases result : check provider with
    | error error =>
        rcases checked provider error result with ⟨code, rfl⟩ | rfl
        · exact ⟨view, rfl, unchanged⟩
        · trivial
    | ok done =>
        refine (completeMultipartUpload_meets unchanged completing _).then ?_ ?_
        · rintro error t ⟨object, rfl, ⟨stored, same, -⟩ | same | same⟩
          · simp at same
          · obtain rfl := Except.error.inj same
            exact ⟨_, rfl, unchanged.completing completing object⟩
          · obtain rfl := Except.error.inj same
            trivial
        · rintro stored t ⟨object, rfl, ⟨found, same, held⟩ | same | same⟩
          · obtain rfl := Except.ok.inj same
            exact (finalizeVerified_meets (unchanged.completing completing object) completing
              held).mono fun _ _ finalizes => finalizes.recovers row
          · simp at same
          · simp at same

theorem recoverCompletingUpload_meets {view : View} {row : UploadRow}
    (unchanged : Unchanged session row view) (completing : row.state = .completing) :
    (recoverCompletingUpload table session).Meets (contract table session)
      (Recovers table session row) (some view) := by
  unfold recoverCompletingUpload
  rw [meets_bind, meets_attempt]
  refine (head_meets view).mono ?_
  rintro result t ⟨rfl, ⟨stored, rfl, found⟩ | rfl | rfl⟩
  · exact (finalizeVerified_meets unchanged completing found).mono
      fun _ _ finalizes => finalizes.recovers row
  · exact completeThenFinalize_meets unchanged completing _
      (fun _ _ failed => Or.inl (validateProviderPartLayout_error failed)) _
  · trivial

/-- The manifest check of the provider's parts. -/
theorem validateProviderParts_error {submitted : List CompletePartInput} {error : UploadError}
    (failed : validateProviderParts session submitted provider = .error error) :
    (∃ code, error = .validation code) ∨ error = .value := by
  have etags {submitted : List CompletePartInput} {provider : List UploadedPart}
      {error : UploadError} (failed : validateEtags submitted provider = .error error) :
      (∃ code, error = .validation code) ∨ error = .value := by
    induction submitted generalizing provider with
    | nil =>
        cases provider with
        | nil => simp [validateEtags] at failed
        | cons stored rest => exact Or.inr (Except.error.inj failed).symm
    | cons client rest ih =>
        cases provider with
        | nil => exact Or.inr (Except.error.inj failed).symm
        | cons stored others =>
            unfold validateEtags at failed
            split at failed
            · exact Or.inl ⟨_, (Except.error.inj failed).symm⟩
            · exact ih failed
  unfold validateProviderParts at failed
  cases layout : validateProviderPartLayout session provider with
  | error raised =>
      rw [layout] at failed
      obtain rfl := Except.error.inj failed
      exact Or.inl (validateProviderPartLayout_error layout)
  | ok done =>
      rw [layout] at failed
      exact etags failed

theorem completeFromCompleting_meets {view : View} {row : UploadRow}
    (unchanged : Unchanged session row view) (completing : row.state = .completing)
    (parts : List CompletePartInput) :
    (completeFromCompleting table session parts).Meets (contract table session)
      (Recovers table session row) (some view) := by
  unfold completeFromCompleting
  rw [meets_bind, meets_attempt]
  refine (head_meets view).mono ?_
  rintro result t ⟨rfl, ⟨stored, rfl, found⟩ | rfl | rfl⟩
  · exact (finalizeVerified_meets unchanged completing found).mono
      fun _ _ finalizes => finalizes.recovers row
  · exact completeThenFinalize_meets unchanged completing _
      (fun _ _ failed => validateProviderParts_error failed)
      (fun _ => parts.map fun part => (part.partNumber, part.etag))
  · trivial

end LumenCopilot.Uploads
