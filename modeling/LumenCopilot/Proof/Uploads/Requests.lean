import LumenCopilot.Proof.Uploads.Operations

namespace LumenCopilot.Uploads

open Python Library

variable {table : UnicodeTable} {session : Session} {β : Type}

/-- The ends of an operation whose result and rejection the route commits. -/
def Settles (table : UnicodeTable) (session : Session) (result : Except UploadError (Option β))
    (t : Option View) : Prop :=
  match result with
  | .ok (some _) => Ready table session t
  | .error (.rejected _ _) => Ready table session t
  | _ => True

/-- A prepared session is unchanged, or the transaction has completed or expired it. -/
def Prepares (table : UnicodeTable) (session : Session) (row : UploadRow) (t : Option View) :
    Prop :=
  Idle session row t ∨
    Wrote table session row t ∧ (row.state = .completed ∨ row.state = .expired)

/-- The ends of a preparation. -/
def Prepared (table : UnicodeTable) (session : Session) (result : Except UploadError (Option UploadRow))
    (t : Option View) : Prop :=
  match result with
  | .ok (some row) => Prepares table session row t
  | .error (.rejected _ _) => Ready table session t
  | _ => True

variable {row : UploadRow} {t : Option View}

theorem Prepares.ready (prepares : Prepares table session row t) : Ready table session t := by
  rcases prepares with idle | ⟨wrote, -⟩
  · exact idle.ready
  · exact wrote.ready

theorem Prepared.settles {result : Except UploadError (Option UploadRow)}
    (prepared : Prepared table session result t) : Settles table session result t := by
  cases result with
  | ok value =>
      cases value with
      | none => trivial
      | some row => exact prepared.ready
  | error error => cases error <;> exact prepared

theorem settleError_releases {error : UploadError}
    (settles : Settles table session (.error error : Except UploadError (Option β)) t) :
    Releases table session (settleError error) t := by
  cases error with
  | rejected code status => exact commit_releases settles
  | _ => exact rollback_releases t

/-- An error of a recovery leaves the route to commit a rejection only. -/
theorem Recovers.settles {γ : Type} {error : UploadError}
    (recovers : Recovers table session row (.error error : Except UploadError γ) t) :
    Settles table session (.error error : Except UploadError (Option β)) t := by
  cases error <;> first | exact recovers | trivial

/-- The lock shows no row, or a row that the transaction has not changed. -/
theorem getForOwner_meets {ends : Except UploadError (Option β) → Option View → Prop}
    {next : Option UploadRow → Op (Option β)}
    (absent : (next none).Meets (contract table session) ends none)
    (present : ∀ view row, Unchanged session row view →
      (next (some row)).Meets (contract table session) ends (some view)) :
    (getForOwner >>= next).Meets (contract table session) ends none := by
  refine meets_ask_bind.mpr ⟨trivial, ?_⟩
  rintro answer t (⟨rfl, rfl⟩ | ⟨view, row, rfl, rfl, unchanged⟩)
  · exact absent
  · exact present view row unchanged

variable {view : View}

/-- A recovered session is read back by the same transaction. -/
theorem recoverThenRead_meets (unchanged : Unchanged session row view)
    (completing : row.state = .completing) :
    (do
      let _ ← recoverCompletingUpload table session
      getForOwner : Op (Option UploadRow)).Meets (contract table session)
      (Prepared table session) (some view) := by
  refine (recoverCompletingUpload_meets unchanged completing).then ?_ ?_
  · intro error t recovers
    cases error <;> first | exact recovers | trivial
  · rintro document t ⟨after, rfl, commits, upload⟩
    refine meets_ask.mpr ⟨trivial, ?_⟩
    rintro answer t ⟨rfl, rfl⟩
    rw [upload]
    exact Or.inr ⟨⟨after, rfl, commits, upload⟩, Or.inl rfl⟩

theorem expireIfNeeded_prepares (unchanged : Unchanged session row view) :
    (expireIfNeeded session row).Meets (contract table session) (fun result t =>
      match result with
      | .ok next => Prepares table session next t
      | .error error => error = .dependency) (some view) := by
  refine (expireIfNeeded_meets unchanged).mono ?_
  rintro result t (⟨rfl, rfl⟩ | ⟨error, rfl, wrote⟩ | rfl)
  · exact Or.inl ⟨view, rfl, unchanged⟩
  · exact Or.inr ⟨wrote, Or.inr rfl⟩
  · rfl

theorem prepare_meets :
    (prepare table session).Meets (contract table session) (Prepared table session) none := by
  unfold prepare
  refine getForOwner_meets trivial fun view row unchanged => ?_
  simp only
  split
  · rename_i completing
    exact recoverThenRead_meets unchanged completing
  · refine (expireIfNeeded_prepares unchanged).then ?_ ?_
    · rintro error t rfl
      trivial
    · exact fun next t prepares => prepares

/-- The view of a session reads only. -/
theorem view_meets (view : View) (row : UploadRow) :
    (Uploads.view row).Meets (contract table session) (fun result t => t = some view ∧
      (result = .ok row ∨ result = .error .providerNotFound ∨ result = .error .dependency))
      (some view) := by
  unfold Uploads.view
  split
  · refine meets_ask_bind.mpr ⟨trivial, ?_⟩
    rintro answer t ⟨-, rfl⟩
    exact ⟨rfl, Or.inl rfl⟩
  · split
    · refine (listMultipartParts_meets view).then ?_ ?_
      · rintro error t ⟨rfl, ⟨parts, same⟩ | same | same⟩
        · simp at same
        · exact ⟨rfl, Or.inr (Or.inl (congrArg Except.error (Except.error.inj same)))⟩
        · exact ⟨rfl, Or.inr (Or.inr (congrArg Except.error (Except.error.inj same)))⟩
      · rintro parts t ⟨rfl, -⟩
        exact ⟨rfl, Or.inl rfl⟩
    · exact ⟨rfl, Or.inl rfl⟩

theorem get_meets :
    (get table session).Meets (contract table session) (Prepared table session) none := by
  unfold get
  refine getForOwner_meets trivial fun view row unchanged => ?_
  simp only
  split
  · rename_i completing
    exact recoverThenRead_meets unchanged completing
  · refine (expireIfNeeded_prepares unchanged).then ?_ ?_
    · rintro error t rfl
      trivial
    · intro next t prepares
      obtain ⟨after, rfl⟩ : ∃ after, t = some after := by
        obtain ⟨after, rfl, -⟩ := prepares.ready
        exact ⟨after, rfl⟩
      refine (view_meets after next).then ?_ ?_
      · rintro error t ⟨-, same | same | same⟩
        · simp at same
        · obtain rfl := Except.error.inj same
          trivial
        · obtain rfl := Except.error.inj same
          trivial
      · rintro shown t ⟨rfl, same | same | same⟩
        · obtain rfl := Except.ok.inj same
          exact prepares
        · simp at same
        · simp at same

theorem getUpload_releases : Releases table session (getUpload table session) none := by
  unfold Releases getUpload
  rw [meets_bind, meets_attempt]
  refine get_meets.mono fun result t prepared => ?_
  cases result with
  | error error => exact @settleError_releases _ _ UploadRow _ _ prepared.settles
  | ok value =>
      cases value with
      | none => exact rollback_releases t
      | some row => exact commit_releases prepared.ready

/-- Signed parts need no write. -/
theorem presignParts_meets (partNumbers : List Nat) (view : View) :
    (presignParts partNumbers).Meets (contract table session) (fun _ _ => True) (some view) := by
  induction partNumbers with
  | nil => trivial
  | cons partNumber rest ih =>
      refine meets_ask_bind.mpr ⟨trivial, ?_⟩
      rintro answer t ⟨rfl, rfl | rfl⟩
      · exact ih
      · trivial

theorem signParts_meets (batchSize : Nat) (partNumbers : List Int) (view : View) :
    (signParts session batchSize partNumbers).Meets (contract table session) (fun _ _ => True)
      (some view) := by
  refine meets_ask_bind.mpr ⟨trivial, ?_⟩
  rintro answer t ⟨rfl, rfl⟩
  cases view.draft.upload with
  | none => trivial
  | some row =>
      refine (isExpired_meets view row).then (fun _ _ _ => trivial) ?_
      rintro expired t ⟨rfl, -⟩
      split_ifs
      · trivial
      · trivial
      · trivial
      · trivial
      · exact (presignParts_meets _ view).then (fun _ _ _ => trivial) fun _ _ _ => trivial

/-- A route first prepares the session. -/
theorem prepared_releases {next : Except UploadError (Option UploadRow) → Op Unit}
    (failed : ∀ error, next (.error error) = settleError error)
    (absent : next (.ok none) = ask .rollback)
    (present : ∀ row t, Prepares table session row t →
      Releases table session (next (.ok (some row))) t) :
    Releases table session ((prepare table session).attempt >>= next) none := by
  unfold Releases
  rw [meets_bind, meets_attempt]
  refine prepare_meets.mono fun result t prepared => ?_
  cases result with
  | error error =>
      simp only [failed]
      exact @settleError_releases _ _ UploadRow _ _ prepared.settles
  | ok value =>
      cases value with
      | none =>
          simp only [absent]
          exact rollback_releases t
      | some row => exact present row t prepared

theorem signUploadParts_releases (batchSize : Nat) (partNumbers : List Int) :
    Releases table session (signUploadParts table session batchSize partNumbers) none := by
  refine prepared_releases (fun _ => rfl) rfl fun row t prepares => ?_
  simp only
  split
  · exact commit_releases prepares.ready
  · obtain ⟨view, rfl, -⟩ := prepares.ready
    unfold Releases
    rw [meets_bind, meets_attempt]
    exact (signParts_meets batchSize partNumbers view).mono fun _ t _ => rollback_releases t

theorem abort_meets (unchanged : Unchanged session row view)
    (lively : row.state ≠ .completed ∧ row.state ≠ .expired) :
    abort.Meets (contract table session) (Settles table session) (some view) := by
  refine meets_ask_bind.mpr ⟨trivial, ?_⟩
  rintro answer t ⟨rfl, rfl⟩
  rw [unchanged.draft, unchanged.upload]
  simp only
  split_ifs with completed final
  · trivial
  · exact Idle.ready ⟨view, rfl, unchanged⟩
  · have other : row.state ≠ .aborted := fun same => final (Or.inl same)
    have clears : (do
        abortMultipartUpload
        deleteObject
        ask (.setState .aborted none) : Op UploadRow).Meets (contract table session) _
          (some view) := clears_meets unchanged (Or.inl rfl) ⟨lively.1, other, lively.2⟩
    have ends : Program.Meets (contract table session)
        (_ >>= fun _ => (return some () : Op (Option Unit))) (Settles table session) (some view) := clears.then ?_ ?_
    · simpa only [Program.bind_assoc] using ends
    · rintro error t (⟨same, -⟩ | same)
      · simp at same
      · obtain rfl := Except.error.inj same
        trivial
    · rintro value t (⟨-, wrote⟩ | same)
      · exact wrote.ready
      · simp at same

theorem abortUpload_releases : Releases table session (abortUpload table session) none := by
  refine prepared_releases (fun _ => rfl) rfl fun row t prepares => ?_
  simp only
  split
  · exact commit_releases prepares.ready
  · rename_i lively
    rcases prepares with ⟨view, rfl, unchanged⟩ | ⟨-, completed | expired⟩
    · unfold Releases
      rw [meets_bind, meets_attempt]
      refine (abort_meets unchanged ⟨fun same => lively (Or.inr same),
        fun same => lively (Or.inl same)⟩).mono fun result t settles => ?_
      rcases result with error | _ | value
      · exact rollback_releases t
      · exact rollback_releases t
      · exact commit_releases settles
    · exact absurd (Or.inr completed) lively
    · exact absurd (Or.inl expired) lively

/-- An operation that finishes a completing session settles. -/
theorem completeFromCompleting_settles (unchanged : Unchanged session row view)
    (completing : row.state = .completing) (parts : List CompletePartInput) :
    (do
      let document ← completeFromCompleting table session parts
      return some document : Op (Option DocumentRow)).Meets (contract table session)
      (Settles table session) (some view) := by
  refine (completeFromCompleting_meets unchanged completing parts).then ?_ ?_
  · exact fun error t recovers => recovers.settles
  · exact fun document t wrote => wrote.ready

/-- A session moves to its durable boundary. -/
theorem Unchanged.moves_on (unchanged : Unchanged session row view)
    (initiated : row.state = .initiated) : Commits table session ⟨view.committed,
      { view.draft with upload := some ⟨.completing, none⟩ }, view.object⟩ := by
  obtain ⟨draft, upload, settled⟩ := unchanged
  rw [draft]
  refine ⟨⟨?_, settled.created, fun _ _ _ => ?_, ?_⟩, ⟨?_, ?_⟩, ?_⟩
  · intro document held
    obtain ⟨-, found, known, completed⟩ := settled.document document held
    obtain rfl := Option.some.inj (known.symm.trans upload)
    rw [initiated] at completed
    contradiction
  · exact settled.fresh row upload (by simp [initiated])
  · intro found held final
    obtain rfl := Option.some.inj held
    simp at final
  · intro found held
    obtain rfl := Option.some.inj (held.symm.trans upload)
    exact Or.inl ⟨_, rfl, by simp [UploadRow.Follows, initiated]⟩
  · intro gone
    rw [upload] at gone
    contradiction
  · intro found held completed
    obtain rfl := Option.some.inj held
    simp at completed

/-- After its commit the completer enters the state machine again. -/
theorem relock_settles (parts : List CompletePartInput) :
    (do
      let relocked ← getForOwner
      match relocked with
      | none => return none
      | some row =>
          if row.state = .completed then ask .document
          else if row.state ≠ .completing then .raises (.conflict "upload_state_conflict".toList)
          else do
            let document ← completeFromCompleting table session parts
            return some document : Op (Option DocumentRow)).Meets (contract table session)
      (Settles table session) none := by
  refine getForOwner_meets trivial fun view row unchanged => ?_
  simp only
  split_ifs with completed other
  · refine meets_ask.mpr ⟨trivial, ?_⟩
    rintro answer t ⟨-, rfl⟩
    cases answer with
    | none => trivial
    | some document => exact Idle.ready ⟨view, rfl, unchanged⟩
  · trivial
  · exact completeFromCompleting_settles unchanged (not_not.mp other) parts

theorem complete_meets (prepares : Prepares table session row t) (unexpired : row.state ≠ .expired)
    (parts : List CompletePartInput) :
    (complete table session parts).Meets (contract table session) (Settles table session) t := by
  obtain ⟨view, rfl, commits, upload, open'⟩ : ∃ view, t = some view ∧
      Commits table session view ∧ view.draft.upload = some row ∧
        (row.state = .completed ∨ Unchanged session row view) := by
    rcases prepares with ⟨view, rfl, unchanged⟩ | ⟨⟨view, rfl, commits, upload⟩, final⟩
    · exact ⟨view, rfl, unchanged.commits, unchanged.draft ▸ unchanged.upload, Or.inr unchanged⟩
    · rcases final with completed | expired
      · exact ⟨view, rfl, commits, upload, Or.inl completed⟩
      · exact absurd expired unexpired
  refine meets_ask_bind.mpr ⟨trivial, ?_⟩
  rintro answer t ⟨rfl, rfl⟩
  rw [upload]
  simp only
  split
  · refine meets_ask.mpr ⟨trivial, ?_⟩
    rintro answer t ⟨-, rfl⟩
    cases answer with
    | none => trivial
    | some document => exact ⟨view, rfl, commits⟩
  · rename_i incomplete
    have unchanged := open'.resolve_left incomplete
    refine (isExpired_meets view row).then ?_ ?_
    · rintro error t ⟨-, same | ⟨same, -⟩⟩ <;> simp at same
    · rintro expired t ⟨rfl, -⟩
      split
      · trivial
      · rw [meets_bind, meets_ofExcept]
        have manifest {error : UploadError}
            (failed : validateCompletionManifest session parts = .error error) :
            ∃ code, error = .validation code := by
          unfold validateCompletionManifest at failed
          split_ifs at failed <;> exact ⟨_, (Except.error.inj failed).symm⟩
        cases checked : validateCompletionManifest session parts with
        | error error =>
            obtain ⟨code, rfl⟩ := manifest checked
            trivial
        | ok done =>
            simp only
            split
            · rename_i completing
              exact completeFromCompleting_settles unchanged completing parts
            · split
              · trivial
              · rename_i initiated
                refine (listMultipartParts_meets view).then ?_ ?_
                · rintro error t ⟨-, ⟨found, same⟩ | same | same⟩
                  · simp at same
                  · obtain rfl := Except.error.inj same
                    trivial
                  · obtain rfl := Except.error.inj same
                    trivial
                · rintro provider t ⟨rfl, -⟩
                  rw [meets_bind, meets_ofExcept]
                  cases result : validateProviderParts session parts provider with
                  | error error =>
                      rcases validateProviderParts_error result with ⟨code, rfl⟩ | rfl <;> trivial
                  | ok done =>
                      refine meets_ask_bind.mpr ⟨trivial, ?_⟩
                      rintro answer t ⟨-, rfl⟩
                      refine meets_ask_bind.mpr ⟨unchanged.moves_on (not_not.mp initiated), ?_⟩
                      rintro answer t rfl
                      exact relock_settles parts

theorem completeUpload_releases (parts : List CompletePartInput) :
    Releases table session (completeUpload table session parts) none := by
  refine prepared_releases (fun _ => rfl) rfl fun row t prepares => ?_
  simp only
  split
  · exact commit_releases prepares.ready
  · rename_i unexpired
    unfold Releases
    rw [meets_bind, meets_attempt]
    refine (complete_meets prepares unexpired parts).mono fun result t settles => ?_
    rcases result with error | _ | value
    · exact @settleError_releases _ _ DocumentRow _ _ settles
    · exact rollback_releases t
    · exact commit_releases settles

/-- The janitor's clean-up commits the expiry or rolls back. -/
theorem expireCandidate_releases (unchanged : Unchanged session row view)
    (pending : row.state = .initiated ∨ row.state = .completing) (reason : Text) :
    Releases table session (expireCandidate reason) (some view) := by
  have lively : row.state ≠ .completed ∧ row.state ≠ .aborted ∧ row.state ≠ .expired ∧
      row.state ≠ .failed := by
    rcases pending with same | same <;> simp [same]
  have clears : (do
      abortMultipartUpload
      deleteObject
      ask (.setState .expired (some reason)) : Op UploadRow).Meets (contract table session) _
        (some view) := clears_meets unchanged (Or.inr ⟨rfl, lively.2.2.2⟩)
          ⟨lively.1, lively.2.1, lively.2.2.1⟩
  let expires (result : Except UploadError Unit) (t : Option View) : Prop :=
    result = .ok () ∧ Ready table session t ∨ result = .error .dependency
  have ends : Program.Meets (contract table session) (_ >>= fun _ => (return () : Op Unit)) expires
      (some view) := clears.then ?_ ?_
  · unfold Releases expireCandidate
    rw [meets_bind, meets_attempt]
    have same : (do
        abortMultipartUpload
        deleteObject
        let _ ← ask (.setState .expired (some reason))
        return () : Op Unit).Meets (contract table session) expires (some view) := by
      simpa only [Program.bind_assoc] using ends
    refine Program.Meets.mono same ?_
    rintro result t (⟨rfl, ready⟩ | rfl)
    · exact commit_releases ready
    · exact rollback_releases t
  · rintro error t (⟨same, -⟩ | same)
    · simp at same
    · exact Or.inr (congrArg Except.error (Except.error.inj same))
  · rintro value t (⟨-, wrote⟩ | same)
    · exact Or.inl ⟨rfl, wrote.ready⟩
    · simp at same

/-- The recovery under a lock that its transaction holds already. -/
theorem recoverCompleting_meets (unchanged : Unchanged session row view)
    (completing : row.state = .completing) :
    (recoverCompleting table session).Meets (contract table session)
      (fun result t =>
        match result with
        | .ok _ => Ready table session t
        | result => Recovers table session row result t) (some view) := by
  refine meets_ask_bind.mpr ⟨trivial, ?_⟩
  rintro answer t ⟨rfl, rfl⟩
  rw [unchanged.draft, unchanged.upload]
  simp only [completing, reduceCtorEq, ↓reduceIte, ne_eq, not_true_eq_false]
  refine (recoverCompletingUpload_meets unchanged completing).then ?_ ?_
  · intro error t recovers
    cases error <;> exact recovers
  · exact fun document t wrote => wrote.ready

theorem sweepExpired_releases (moment : Nat) :
    Releases table session (sweepExpired table session moment) none := by
  refine meets_ask_bind.mpr ⟨trivial, ?_⟩
  rintro answer t (⟨rfl, rfl⟩ | ⟨view, row, rfl, rfl, unchanged⟩)
  · exact ⟨trivial, fun _ _ moved => moved⟩
  · simp only
    split
    · exact commit_releases (Idle.ready ⟨view, rfl, unchanged⟩)
    · split
      · rename_i completing
        rw [meets_bind, meets_attempt]
        refine (recoverCompleting_meets unchanged completing).mono fun result t recovers => ?_
        cases result with
        | ok value => exact commit_releases recovers
        | error error =>
            cases error with
            | dependency => exact rollback_releases t
            | notFound => exact absurd recovers id
            | providerNotFound =>
                obtain ⟨after, rfl, still⟩ := recovers
                exact expireCandidate_releases still (Or.inr completing) _
            | validation code =>
                obtain ⟨after, rfl, still⟩ := recovers
                simp only
                split
                · exact expireCandidate_releases still (Or.inr completing) _
                · exact rollback_releases _
            | conflict code => exact absurd recovers id
            | rejected code status => exact commit_releases recovers
            | value => exact rollback_releases t
      · rename_i due other
        have initiated : row.state = .initiated := by
          by_contra different
          exact due (Or.inl ⟨different, other⟩)
        exact expireCandidate_releases unchanged (Or.inl initiated) _

/-- A removed completed session may be committed. -/
theorem Unchanged.removes (unchanged : Unchanged session row view) {document : DocumentRow}
    (held : view.committed.document = some document) (object : Option StoredObjectMetadata) :
    Commits table session ⟨view.committed,
      { view.draft with upload := none, document := none }, object⟩ := by
  obtain ⟨draft, upload, settled⟩ := unchanged
  obtain ⟨-, found, known, completed⟩ := settled.document document held
  rw [draft]
  refine ⟨⟨?_, settled.created, ?_, ?_⟩, ⟨?_, fun _ => rfl⟩, ?_⟩
  · exact fun other impossible => by simp at impossible
  · exact fun other impossible => by simp at impossible
  · exact fun other impossible => by simp at impossible
  · intro other still
    obtain rfl := Option.some.inj (still.symm.trans known)
    exact Or.inr ⟨rfl, completed⟩
  · exact fun other impossible => by simp at impossible

theorem deleteDocument_releases : Releases table session Uploads.deleteDocument none := by
  refine meets_ask_bind.mpr ⟨trivial, ?_⟩
  rintro answer t rfl
  cases answer with
  | none => exact rollback_releases none
  | some document =>
      refine meets_ask_bind.mpr ⟨trivial, ?_⟩
      rintro answer t (⟨rfl, rfl⟩ | ⟨view, row, document, rfl, unchanged, held, rfl⟩)
      · exact rollback_releases none
      · simp only [↓reduceIte]
        rw [meets_bind, meets_attempt]
        refine (deleteObject_meets _).mono ?_
        rintro result t (⟨rfl, rfl⟩ | rfl)
        · exact commit_releases ⟨_, rfl, unchanged.removes held _⟩
        · exact rollback_releases t

/-- Every request keeps the contract. -/
theorem Request.releases (request : Request) :
    Releases table session (request.program table session) none := by
  cases request with
  | get => exact getUpload_releases
  | signParts batchSize partNumbers => exact signUploadParts_releases batchSize partNumbers
  | abort => exact abortUpload_releases
  | complete parts => exact completeUpload_releases parts
  | sweep moment => exact sweepExpired_releases moment
  | deleteDocument => exact deleteDocument_releases

end LumenCopilot.Uploads
