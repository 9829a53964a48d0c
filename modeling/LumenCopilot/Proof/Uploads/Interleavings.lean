import LumenCopilot.Proof.Library.Transition
import LumenCopilot.Proof.Uploads.Requests

namespace LumenCopilot.Uploads

open Python Library

variable {table : UnicodeTable} {session : Session}

/-- This is what a job sees under the row lock. -/
def State.viewOf (state : State) (place : Nat) : Option View :=
  if state.lock = some place then some ⟨state.tables, state.draft, state.store.object⟩ else none

/-- The rows are settled and every job keeps its contract. -/
structure Guarded (table : UnicodeTable) (session : Session) (state : State) : Prop where
  settled : Settled session state.tables state.store.object
  holder : ∀ place, state.lock = some place → place < state.jobs.length
  jobs : ∀ (place : Nat) (job : Op Unit), state.jobs[place]? = some job →
    Releases table session job (state.viewOf place)

/-- A step ends a session at most once, and completes it with a verified object only. -/
structure EndsOnce (table : UnicodeTable) (session : Session) (before after : State) : Prop where
  follows : before.tables.Follows after.tables
  verified : ∀ row, after.tables.upload = some row → row.state = .completed →
    (∀ old, before.tables.upload = some old → old.state ≠ .completed) →
      ∃ stored, after.store.object = some stored ∧ Verified table session stored

variable {after : State}

/-- A step that leaves the committed rows ends nothing. -/
theorem EndsOnce.kept {before : State} (same : after.tables = before.tables) :
    EndsOnce table session before after := by
  refine ⟨⟨?_, ?_⟩, ?_⟩
  · rw [same]
    exact fun row held => Or.inl ⟨row, held, .refl row⟩
  · rw [same]
    exact id
  · rw [same]
    exact fun row held completed other => absurd completed (other row held)

/-- What the answer to one await does to the state. -/
structure Answered (table : UnicodeTable) (session : Session) (state : State) (place : Nat)
    (call : Call) (answer : call.Answer) (after : State) : Prop where
  moved : moves session (state.viewOf place) call answer (after.viewOf place)
  others : ∀ other ≠ place, after.viewOf other = state.viewOf other
  settled : Settled session after.tables after.store.object
  ends : EndsOnce table session state after
  jobs : after.jobs = state.jobs
  holder : ∀ other, after.lock = some other → other = place ∨ state.lock = some other

/-- An object that nothing relies on may change or disappear. -/
theorem Settled.cleared {tables : Tables} {object : Option StoredObjectMetadata}
    (settled : Settled session tables object) : Settled session tables none :=
  ⟨settled.document, settled.created, settled.fresh, fun _ _ _ => rfl⟩

variable {state : State} {place : Nat}

theorem State.viewOf_holder (held : state.lock = some place) :
    state.viewOf place = some ⟨state.tables, state.draft, state.store.object⟩ :=
  if_pos held

theorem State.viewOf_other (other : state.lock ≠ some place) : state.viewOf place = none :=
  if_neg other

variable {call : Call} {answer : call.Answer}

/-- An answer that changes nothing. -/
theorem Answered.same (settled : Settled session state.tables state.store.object)
    (moved : moves session (state.viewOf place) call answer (state.viewOf place)) :
    Answered table session state place call answer state :=
  ⟨moved, fun _ _ => rfl, settled, .kept rfl, rfl, fun _ held => Or.inr held⟩

/-- An answer that changes the draft of the holder, or the object under its lock. -/
theorem Answered.held (held : state.lock = some place) (lock : after.lock = state.lock)
    (tables : after.tables = state.tables) (jobs : after.jobs = state.jobs)
    (settled : Settled session after.tables after.store.object)
    (moved : moves session (some ⟨state.tables, state.draft, state.store.object⟩) call answer
      (some ⟨after.tables, after.draft, after.store.object⟩)) :
    Answered table session state place call answer after := by
  have still : after.lock = some place := lock.trans held
  refine ⟨?_, ?_, settled, .kept tables, jobs, fun other found => Or.inr (lock ▸ found)⟩
  · rw [State.viewOf_holder held, State.viewOf_holder still]
    exact moved
  · intro other apart
    have elsewhere : some place ≠ some other := fun same => apart (Option.some.inj same).symm
    rw [State.viewOf_other (still ▸ elsewhere), State.viewOf_other (held ▸ elsewhere)]

/-- A free lock is taken by the job. -/
theorem Answered.taken (free : state.lock = none) (lock : after.lock = some place)
    (tables : after.tables = state.tables) (jobs : after.jobs = state.jobs)
    (store : after.store = state.store) (settled : Settled session state.tables state.store.object)
    (moved : moves session none call answer
      (some ⟨after.tables, after.draft, after.store.object⟩)) :
    Answered table session state place call answer after := by
  refine ⟨?_, ?_, ?_, .kept tables, jobs, ?_⟩
  · rw [State.viewOf_holder lock, State.viewOf_other (by simp [free])]
    exact moved
  · intro other apart
    have elsewhere : some place ≠ some other := fun same => apart (Option.some.inj same).symm
    rw [State.viewOf_other (lock ▸ elsewhere), State.viewOf_other (by simp [free])]
  · rw [tables, store]
    exact settled
  · intro other found
    exact Or.inl (Option.some.inj (found.symm.trans lock))

/-- The holder ends its transaction. -/
theorem Answered.released (held : state.lock = some place) (lock : after.lock = none)
    (jobs : after.jobs = state.jobs) (settled : Settled session after.tables after.store.object)
    (ends : EndsOnce table session state after)
    (moved : moves session (state.viewOf place) call answer none) :
    Answered table session state place call answer after := by
  refine ⟨?_, ?_, settled, ends, jobs, ?_⟩
  · rw [@State.viewOf_other after _ (by simp [lock])]
    exact moved
  · intro other apart
    have elsewhere : some place ≠ some other := fun same => apart (Option.some.inj same).symm
    rw [@State.viewOf_other after _ (by simp [lock]), State.viewOf_other (held ▸ elsewhere)]
  · intro other found
    rw [lock] at found
    contradiction

variable {choice : Choice}

/-- A job without the lock reads, waits or takes the free lock. -/
theorem State.answer_outside (settled : Settled session state.tables state.store.object)
    (outside : state.lock ≠ some place)
    (permitted : permits table session (state.viewOf place) call)
    (answered : state.answer place choice call = some (answer, after)) :
    Answered table session state place call answer after := by
  have view : state.viewOf place = none := State.viewOf_other outside
  have holds : state.holds place = false := by simpa [State.holds] using outside
  have rows : state.rows place = state.tables := by simp [State.rows, holds]
  rw [view] at permitted
  cases call with
  | lock =>
      simp only [State.answer, rows] at answered
      split at answered
      · obtain ⟨rfl, rfl⟩ := Prod.mk.inj (Option.some.inj answered)
        exact .same settled (view ▸ Or.inl ⟨rfl, rfl⟩)
      · rename_i row upload
        obtain ⟨locked, acquired, same⟩ := Option.map_eq_some_iff.mp answered
        obtain ⟨rfl, rfl⟩ := Prod.mk.inj same
        unfold State.acquire at acquired
        split at acquired
        · rename_i free
          obtain rfl := Option.some.inj acquired
          exact .taken free rfl rfl rfl rfl settled
            (Or.inr ⟨_, row, rfl, rfl, rfl, upload, settled⟩)
        · rename_i holder lock
          split at acquired
          · rename_i same
            exact absurd (same ▸ lock) outside
          · contradiction
  | now =>
      obtain ⟨rfl, rfl⟩ := Prod.mk.inj (Option.some.inj answered)
      exact .same settled (by rw [view]; rfl)
  | document =>
      obtain ⟨rfl, rfl⟩ := Prod.mk.inj (Option.some.inj answered)
      exact .same settled (by rw [view]; rfl)
  | deleteRows =>
      simp only [State.answer, rows] at answered
      split at answered
      · obtain ⟨rfl, rfl⟩ := Prod.mk.inj (Option.some.inj answered)
        exact .same settled (view ▸ Or.inl ⟨rfl, rfl⟩)
      · rename_i document held
        obtain ⟨locked, acquired, same⟩ := Option.map_eq_some_iff.mp answered
        obtain ⟨rfl, rfl⟩ := Prod.mk.inj same
        obtain ⟨-, row, upload, -⟩ := settled.document document held
        unfold State.acquire at acquired
        split at acquired
        · rename_i free
          obtain rfl := Option.some.inj acquired
          exact .taken free rfl rfl rfl rfl settled (Or.inr ⟨⟨state.tables, state.tables,
            state.store.object⟩, row, document, rfl, ⟨rfl, upload, settled⟩, held, rfl⟩)
        · rename_i holder lock
          split at acquired
          · rename_i same
            exact absurd (same ▸ lock) outside
          · contradiction
  | commit =>
      simp only [State.answer, holds, Bool.false_eq_true, ↓reduceIte] at answered
      obtain ⟨rfl, rfl⟩ := Prod.mk.inj (Option.some.inj answered)
      exact .same settled (by rw [view]; rfl)
  | rollback =>
      simp only [State.answer, holds, Bool.false_eq_true, ↓reduceIte] at answered
      obtain ⟨rfl, rfl⟩ := Prod.mk.inj (Option.some.inj answered)
      exact .same settled (by rw [view]; rfl)
  | _ => exact absurd permitted id

/-- A storage call under the lock. -/
theorem Answered.storage {α : Type} (held : state.lock = some place) {effect : Store → Store}
    {value result : Except UploadError α}
    (answered : state.storage choice effect value = (result, after))
    (settled : ∀ store, store = state.store ∨ store = effect state.store →
      Settled session state.tables store.object)
    (moved : ∀ store, result = value ∧ store = effect state.store ∨
      result = .error .dependency ∧ (store = state.store ∨ store = effect state.store) →
        moves session (some ⟨state.tables, state.draft, state.store.object⟩) call answer
          (some ⟨state.tables, state.draft, store.object⟩)) :
    Answered table session state place call answer after := by
  unfold State.storage at answered
  split at answered
  · obtain ⟨rfl, rfl⟩ := Prod.mk.inj answered
    cases choice.taken with
    | false =>
        exact .held held rfl rfl rfl (settled _ (Or.inl rfl))
          (moved state.store (Or.inr ⟨rfl, Or.inl rfl⟩))
    | true =>
        exact .held held rfl rfl rfl (settled _ (Or.inr rfl))
          (moved (effect state.store) (Or.inr ⟨rfl, Or.inr rfl⟩))
  · obtain ⟨rfl, rfl⟩ := Prod.mk.inj answered
    exact .held held rfl rfl rfl (settled _ (Or.inr rfl))
      (moved (effect state.store) (Or.inl ⟨rfl, rfl⟩))

/-- The holder writes its draft, calls storage or ends its transaction. -/
theorem State.answer_inside (settled : Settled session state.tables state.store.object)
    (held : state.lock = some place) (permitted : permits table session (state.viewOf place) call)
    (answered : state.answer place choice call = some (answer, after)) :
    Answered table session state place call answer after := by
  have view := State.viewOf_holder held
  have holds : state.holds place = true := by simpa [State.holds] using held
  have rows : state.rows place = state.draft := by simp [State.rows, holds]
  have acquired : state.acquire place = some state := by simp [State.acquire, held]
  rw [view] at permitted
  cases call with
  | lock =>
      simp only [State.answer, rows, acquired, Option.map_some] at answered
      split at answered
      · rename_i absent
        obtain ⟨rfl, rfl⟩ := Prod.mk.inj (Option.some.inj answered)
        exact .same settled (view ▸ ⟨absent.symm, rfl⟩)
      · rename_i row upload
        obtain ⟨rfl, rfl⟩ := Prod.mk.inj (Option.some.inj answered)
        exact .same settled (view ▸ ⟨upload.symm, rfl⟩)
  | now =>
      obtain ⟨rfl, rfl⟩ := Prod.mk.inj (Option.some.inj answered)
      exact .same settled (by rw [view]; rfl)
  | document =>
      simp only [State.answer, rows] at answered
      obtain ⟨rfl, rfl⟩ := Prod.mk.inj (Option.some.inj answered)
      exact .same settled (view ▸ ⟨rfl, rfl⟩)
  | createDocument document =>
      simp only [State.answer, State.write, holds, ↓reduceIte, Option.map_some] at answered
      obtain ⟨rfl, rfl⟩ := Prod.mk.inj (Option.some.inj answered)
      exact .held held rfl rfl rfl settled rfl
  | setState upload error =>
      simp only [State.answer, State.write, holds, ↓reduceIte, Option.map_some] at answered
      obtain ⟨rfl, rfl⟩ := Prod.mk.inj (Option.some.inj answered)
      exact .held held rfl rfl rfl settled ⟨rfl, rfl⟩
  | deleteRows =>
      simp only [State.answer, rows, acquired, Option.map_some] at answered
      split at answered
      · obtain ⟨rfl, rfl⟩ := Prod.mk.inj (Option.some.inj answered)
        exact .same settled (view ▸ Or.inl rfl)
      · obtain ⟨rfl, rfl⟩ := Prod.mk.inj (Option.some.inj answered)
        exact .held held rfl rfl rfl settled (Or.inr rfl)
  | commit =>
      simp only [State.answer, holds, ↓reduceIte] at answered
      obtain ⟨rfl, rfl⟩ := Prod.mk.inj (Option.some.inj answered)
      exact .released held rfl rfl permitted.settled ⟨permitted.follows, permitted.verified⟩
        (by rw [view]; rfl)
  | rollback =>
      simp only [State.answer, holds, ↓reduceIte] at answered
      obtain ⟨rfl, rfl⟩ := Prod.mk.inj (Option.some.inj answered)
      exact .released held rfl rfl settled (.kept rfl) (by rw [view]; rfl)
  | abortMultipart =>
      refine .storage held (Option.some.inj answered) ?_ ?_
      · rintro store (rfl | rfl) <;> exact settled
      · rintro store (⟨rfl, rfl⟩ | ⟨rfl, rfl | rfl⟩)
        · exact ⟨rfl, Or.inl rfl⟩
        · exact ⟨rfl, Or.inr rfl⟩
        · exact ⟨rfl, Or.inr rfl⟩
  | deleteObject =>
      refine .storage held (Option.some.inj answered) ?_ ?_
      · rintro store (rfl | rfl)
        · exact settled
        · exact settled.cleared
      · rintro store (⟨rfl, rfl⟩ | ⟨rfl, rfl | rfl⟩)
        · exact Or.inl ⟨rfl, rfl⟩
        · exact Or.inr ⟨rfl, Or.inl rfl⟩
        · exact Or.inr ⟨rfl, Or.inr rfl⟩
  | head =>
      refine .storage held (Option.some.inj answered) ?_ ?_
      · rintro store (rfl | rfl) <;> exact settled
      · rintro store (⟨rfl, rfl⟩ | ⟨rfl, rfl | rfl⟩)
        · exact ⟨rfl, Or.inl rfl⟩
        · exact ⟨rfl, Or.inr rfl⟩
        · exact ⟨rfl, Or.inr rfl⟩
  | listParts =>
      refine .storage held (Option.some.inj answered) ?_ ?_
      · rintro store (rfl | rfl) <;> exact settled
      · rintro store (⟨rfl, rfl⟩ | ⟨rfl, rfl | rfl⟩)
        · refine ⟨rfl, ?_⟩
          cases state.store.multipart with
          | none => exact Or.inr (Or.inl rfl)
          | some parts => exact Or.inl ⟨parts, rfl⟩
        · exact ⟨rfl, Or.inr (Or.inr rfl)⟩
        · exact ⟨rfl, Or.inr (Or.inr rfl)⟩
  | completeMultipart parts =>
      refine .storage held (Option.some.inj answered) (fun store _ => permitted store.object) ?_
      rintro store (⟨rfl, rfl⟩ | ⟨rfl, rfl | rfl⟩)
      · refine ⟨⟨_, rfl⟩, ?_⟩
        cases state.store.multipart with
        | none => exact Or.inr (Or.inl rfl)
        | some parts => exact Or.inl rfl
      · exact ⟨⟨_, rfl⟩, Or.inr (Or.inr rfl)⟩
      · exact ⟨⟨_, rfl⟩, Or.inr (Or.inr rfl)⟩
  | presign partNumber =>
      refine .storage held (Option.some.inj answered) ?_ ?_
      · rintro store (rfl | rfl) <;> exact settled
      · rintro store (⟨rfl, rfl⟩ | ⟨rfl, rfl | rfl⟩)
        · exact ⟨rfl, Or.inl rfl⟩
        · exact ⟨rfl, Or.inr rfl⟩
        · exact ⟨rfl, Or.inr rfl⟩

/-- An answered await keeps the guard. -/
theorem Guarded.advance (guarded : Guarded table session state) {next : call.Answer → Op Unit}
    (held : state.jobs[place]? = some (.asks call next))
    (answered : state.answer place choice call = some (answer, after)) :
    Guarded table session { after with jobs := after.jobs.set place (next answer) } ∧
      EndsOnce table session state { after with jobs := after.jobs.set place (next answer) } := by
  obtain ⟨permitted, later⟩ := guarded.jobs place _ held
  have answers : Answered table session state place call answer after := by
    by_cases inside : state.lock = some place
    · exact State.answer_inside guarded.settled inside permitted answered
    · exact State.answer_outside guarded.settled inside permitted answered
  have within : place < state.jobs.length := (List.getElem?_eq_some_iff.mp held).1
  refine ⟨⟨answers.settled, ?_, ?_⟩, ⟨answers.ends.follows, answers.ends.verified⟩⟩
  · intro other found
    show other < (after.jobs.set place (next answer)).length
    rw [List.length_set, answers.jobs]
    rcases answers.holder other found with rfl | earlier
    · exact within
    · exact guarded.holder other earlier
  · intro other job found
    change (after.jobs.set place (next answer))[other]? = some job at found
    show Releases table session job (after.viewOf other)
    rw [answers.jobs, List.getElem?_set] at found
    by_cases same : place = other
    · subst same
      simp only [↓reduceIte, within] at found
      obtain rfl := Option.some.inj found
      exact later answer _ answers.moved
    · rw [if_neg same] at found
      rw [answers.others other (Ne.symm same)]
      exact guarded.jobs other job found

/-- Every step of the clients and the control plane keeps the guard. -/
theorem Guarded.step (guarded : Guarded table session state) {action : UploadAction}
    (stepped : uploadStep table session state action = some after) :
    Guarded table session after ∧ EndsOnce table session state after := by
  cases action with
  | start request =>
      obtain rfl := Option.some.inj stepped
      refine ⟨⟨guarded.settled, ?_, ?_⟩, .kept rfl⟩
      · intro place held
        show place < (state.jobs ++ [request.program table session]).length
        rw [List.length_append]
        exact Nat.lt_add_right 1 (guarded.holder place held)
      · intro place job found
        change (state.jobs ++ [request.program table session])[place]? = some job at found
        show Releases table session job (state.viewOf place)
        rw [List.getElem?_append] at found
        split at found
        · exact guarded.jobs place job found
        · rename_i beyond
          obtain rfl : request.program table session = job := by
            rw [List.getElem?_singleton] at found
            split at found
            · exact Option.some.inj found
            · contradiction
          have outside : state.lock ≠ some place :=
            fun held => beyond (guarded.holder place held)
          rw [State.viewOf_other outside]
          exact request.releases
  | putPart part =>
      obtain ⟨parts, -, rfl⟩ := Option.map_eq_some_iff.mp stepped
      exact ⟨⟨guarded.settled, guarded.holder, guarded.jobs⟩, .kept rfl⟩
  | tick clock =>
      obtain rfl := Option.some.inj stepped
      exact ⟨⟨guarded.settled, guarded.holder, guarded.jobs⟩, .kept rfl⟩
  | advance place choice =>
      simp only [uploadStep] at stepped
      split at stepped
      · rename_i call next held
        obtain ⟨⟨answer, reached⟩, answered, rfl⟩ := Option.map_eq_some_iff.mp stepped
        exact guarded.advance held answered
      · contradiction
  | crash place =>
      obtain rfl := Option.some.inj stepped
      have lock (other : Nat) (found : (if state.holds place then none else state.lock) =
          some other) : other ≠ place ∧ state.lock = some other := by
        split at found
        · contradiction
        · rename_i holds
          refine ⟨?_, found⟩
          rintro rfl
          exact holds (by simp [State.holds, found])
      refine ⟨⟨guarded.settled, ?_, ?_⟩, .kept rfl⟩
      · intro other found
        show other < (state.jobs.set place (.returns ())).length
        rw [List.length_set]
        exact guarded.holder other (lock other found).2
      · intro other job found
        change (state.jobs.set place (.returns ()))[other]? = some job at found
        rw [List.getElem?_set] at found
        by_cases same : place = other
        · subst same
          rw [State.viewOf_other fun found => (lock place found).1 rfl]
          rw [if_pos rfl] at found
          split at found
          · obtain rfl := Option.some.inj found
            exact rfl
          · contradiction
        · rw [if_neg same] at found
          have kept : ({ state with
              lock := if state.holds place then none else state.lock
              jobs := state.jobs.set place (.returns ()) } : State).viewOf other =
                state.viewOf other := by
            unfold State.viewOf
            cases holds : state.holds place with
            | false => rfl
            | true =>
                have held : state.lock = some place := by simpa [State.holds] using holds
                simp [held, same]
          rw [kept]
          exact guarded.jobs other job found

/-- A new session is guarded. -/
theorem Guarded.initial (clock : Nat) : Guarded table session (.initial clock) := by
  refine ⟨⟨?_, Nat.zero_le 1, fun _ _ _ => rfl, ?_⟩, ?_, ?_⟩
  · exact fun document held => by simp [State.initial] at held
  · exact fun _ _ _ => rfl
  · exact fun place held => by simp [State.initial] at held
  · exact fun place job held => by simp [State.initial] at held

/-- An upload session ends once over every interleaving of its requests. -/
theorem uploads_end_once {clock : Nat} {final : State} {actions : List UploadAction}
    (runs : Runs (uploadStep table session) (fun _ _ => True) (.initial clock) actions final) :
    (∀ action after, uploadStep table session final action = some after →
      final.tables.Follows after.tables ∧
      ∀ row, after.tables.upload = some row → row.state = .completed →
        (∀ old, final.tables.upload = some old → old.state ≠ .completed) →
          ∃ stored, after.store.object = some stored ∧
            stored.sizeBytes = session.sizeBytes ∧
            normalizeContentType table stored.contentType = session.mimeType ∧
            stored.metadata.lookup "lumen-upload-id".toList = some session.id.str ∧
            stored.metadata.lookup "lumen-document-id".toList = some session.documentId.str) ∧
    final.tables.created ≤ 1 ∧
    (∀ document, final.tables.document = some document → document.id = session.documentId ∧
      ∃ row, final.tables.upload = some row ∧ row.state = .completed) ∧
    ∀ row, final.tables.upload = some row → row.state = .aborted ∨ row.state = .expired →
      final.store.object = none := by
  have guarded := runs.invariant (Guarded table session)
    (fun _ _ _ guarded _ stepped => (guarded.step stepped).1) (.initial clock)
  refine ⟨?_, guarded.settled.created, guarded.settled.document, guarded.settled.cleaned⟩
  intro action after stepped
  have ends := (guarded.step stepped).2
  refine ⟨ends.follows, fun row held completed other => ?_⟩
  obtain ⟨stored, found, size, declared⟩ := ends.verified row held completed other
  simp only [metadataMatches, Bool.and_eq_true, decide_eq_true_eq] at declared
  exact ⟨stored, found, size, declared.1.1, declared.1.2, declared.2⟩

/-- A completed upload of one part stays completed. -/
theorem uploads_end_once_completed :
    let session : Session :=
      ⟨⟨1, by decide⟩, ⟨2, by decide⟩, ['f'], ['t'], 3, ['k'], 5, 1, 100⟩
    let stored : StoredObjectMetadata := ⟨3, ['T', ';'], (AList.insert "lumen-upload-id".toList
      session.id.str (AList.insert "lumen-document-id".toList session.documentId.str ∅))⟩
    ∃ final : State, final.tables.upload = some ⟨.completed, none⟩ ∧
      final.tables.document = some (session.document stored) ∧
      ∀ action after, uploadStep .symbols session final action = some after →
        final.tables.Follows after.tables := by
  intro session stored
  let await : UploadAction := .advance 0 {}
  have executes : (execute (uploadStep .symbols session) (.initial 7)
        ([.putPart ⟨1, ['e'], 3⟩, .start (.complete [⟨1, ['e']⟩])] ++ List.replicate 10 await ++
          [.advance 0 { assembled := stored }] ++ List.replicate 5 await)).map (fun final =>
            (final.tables.upload, final.tables.document)) =
      some (some ⟨.completed, none⟩, some (session.document stored)) := by decide
  obtain ⟨final, executed, rows⟩ := Option.map_eq_some_iff.mp executes
  obtain ⟨upload, document⟩ := Prod.mk.inj rows
  refine ⟨final, upload, document, fun action after stepped => ?_⟩
  exact ((uploads_end_once (Runs.of_unchecked executed)).1 action after stepped).1

end LumenCopilot.Uploads
