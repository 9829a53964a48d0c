import LumenCopilot.Construction.Memory.Summary
import LumenCopilot.Proof.Library.Lists
import LumenCopilot.Proof.Library.Transition

namespace LumenCopilot.Memory

open Library Python

variable {row : SummaryRow} {write : SummaryWrite} {state after : SummaryState}

/-- The two parts of the cursor are null together. -/
def SummaryRow.Paired (row : SummaryRow) : Prop :=
  row.coversThroughCreatedAt.isSome = row.coversThroughMessageId.isSome

@[simp]
theorem SummaryWrite.updated_cursor : (write.updated row).cursor = some write.cursor := rfl

@[simp]
theorem SummaryWrite.updated_evidence : (write.updated row).evidence = row.evidence := rfl

@[simp]
theorem SummaryWrite.updated_version : (write.updated row).version = row.version + 1 := rfl

theorem SummaryWrite.updated_paired : (write.updated row).Paired := rfl

/-- An ordinary write is admitted exactly where its cursor is beyond the stored one. -/
theorem SummaryRow.admits_iff (paired : row.Paired) :
    row.admits write none = true ↔ ∀ cursor, row.cursor = some cursor → cursor < write.cursor := by
  obtain ⟨_, messageId, createdAt, _, _, _⟩ := row
  cases createdAt with
  | none => simp [SummaryRow.admits, SummaryRow.cursor]
  | some createdAt =>
      cases messageId with
      | none => simp [SummaryRow.Paired] at paired
      | some messageId =>
          simp [SummaryRow.admits, SummaryRow.cursor, SummaryWrite.cursor, Prod.Lex.toLex_lt_toLex]

theorem SummaryRow.admits_replacement {version : Nat} :
    row.admits write (some version) = true ↔ row.version = version := by
  simp [SummaryRow.admits]

/-- The write of this guard took effect between two rows. -/
structure TakesEffect (before after : Option SummaryRow) (write : SummaryWrite)
    (replaceInvalidVersion : Option Nat) : Prop where
  ordinary : replaceInvalidVersion = none →
    ∀ cursor, (before.getD .empty).cursor = some cursor → cursor < write.cursor
  replacement : ∀ version, replaceInvalidVersion = some version →
    ∃ row, before = some row ∧ row.version = version
  written : after = some (write.updated (before.getD .empty))

/-- The statement takes effect and counts one row, or it leaves the row and counts none. -/
theorem upsertSummary_cases {before : Option SummaryRow} {replaceInvalidVersion : Option Nat}
    (paired : ∀ row, before = some row → row.Paired)
    (observed : before = none → replaceInvalidVersion = none) :
    (upsertSummary before write replaceInvalidVersion).2 = 1 ∧
        TakesEffect before (some (upsertSummary before write replaceInvalidVersion).1) write
          replaceInvalidVersion ∨
      (upsertSummary before write replaceInvalidVersion).2 = 0 ∧
        some (upsertSummary before write replaceInvalidVersion).1 = before := by
  cases before with
  | none =>
      obtain rfl := observed rfl
      exact Or.inl ⟨rfl, ⟨fun _ _ stored => by contradiction, nofun, rfl⟩⟩
  | some row =>
      cases admits : row.admits write replaceInvalidVersion with
      | false => exact Or.inr ⟨by simp [upsertSummary, admits], by simp [upsertSummary, admits]⟩
      | true =>
          refine Or.inl ⟨by simp [upsertSummary, admits], ?_, ?_, by simp [upsertSummary, admits]⟩
          · intro ordinary
            subst ordinary
            exact (SummaryRow.admits_iff (paired row rfl)).mp admits
          · intro version replaces
            subst replaces
            exact ⟨row, rfl, SummaryRow.admits_replacement.mp admits⟩

theorem upsertEvidence_eq (before : Option SummaryRow) (evidence : List (Nat × Nat)) :
    upsertEvidence before evidence =
      { before.getD .empty with evidence := some (evidence.take evidenceMaxPairs) } := by
  cases before <;> rfl

/-- A step of a call of `upsert_summary` observes the row, executes the statement or returns. -/
inductive SummaryMove (state : SummaryState) (call : SummaryCall) :
    Option SummaryRow → SummaryPhase → Prop where
  | observes {row : SummaryRow} (observing : call.phase = .observing) (found : state.row = some row) :
      SummaryMove state call state.row (.ready (some row.version))
  | executes {replaceInvalidVersion : Option Nat} (ready : call.phase = .ready replaceInvalidVersion) :
      SummaryMove state call (some (upsertSummary state.row call.write replaceInvalidVersion).1)
        (.executed (upsertSummary state.row call.write replaceInvalidVersion).2)
  | returns {rowcount : Nat} (executed : call.phase = .executed rowcount) :
      SummaryMove state call state.row (.returned rowcount (accepts call.write rowcount state.row))

variable {call : SummaryCall}

theorem SummaryCall.advance_move {next : Option SummaryRow × SummaryPhase}
    (advances : call.advance state.row = some next) : SummaryMove state call next.1 next.2 := by
  obtain ⟨write, phase⟩ := call
  cases phase with
  | observing =>
      obtain ⟨row, found, rfl⟩ := Option.map_eq_some_iff.mp advances
      exact .observes rfl found
  | ready replaceInvalidVersion =>
      obtain rfl := Option.some.inj advances
      exact .executes rfl
  | executed rowcount =>
      obtain rfl := Option.some.inj advances
      exact .returns rfl
  | returned rowcount accepted => contradiction

variable {place : Nat}

theorem summaryStep_summary (steps : summaryStep state (.summary place) = some after) :
    ∃ call row phase, state.summaries[place]? = some call ∧ SummaryMove state call row phase ∧
      after = { state with row, summaries := state.summaries.set place { call with phase } } := by
  simp only [summaryStep] at steps
  cases found : state.summaries[place]? with
  | none => simp [found] at steps
  | some call =>
      rw [found] at steps
      obtain ⟨next, advances, rfl⟩ := Option.map_eq_some_iff.mp steps
      exact ⟨call, next.1, next.2, rfl, SummaryCall.advance_move advances, rfl⟩

theorem summaryStep_evidence (steps : summaryStep state (.evidence place) = some after) :
    after.summaries = state.summaries ∧
      (after.row = state.row ∨ ∃ evidence, after.row = some (upsertEvidence state.row evidence)) := by
  simp only [summaryStep] at steps
  cases found : state.evidences[place]? with
  | none => simp [found] at steps
  | some call =>
      rw [found] at steps
      obtain ⟨next, advances, rfl⟩ := Option.map_eq_some_iff.mp steps
      refine ⟨rfl, ?_⟩
      obtain ⟨evidence, phase⟩ := call
      cases phase with
      | ready =>
          obtain rfl := Option.some.inj advances
          exact Or.inr ⟨evidence, rfl⟩
      | executed =>
          obtain rfl := Option.some.inj advances
          exact Or.inl rfl
      | returned => contradiction

/-- What every run from a fresh row keeps. -/
structure SoundCalls (state : SummaryState) : Prop where
  paired : ∀ row, state.row = some row → row.Paired
  counted : state.stored.version = state.effectiveWrites
  observed : ∀ call ∈ state.summaries, ∀ version, call.phase = .ready (some version) →
    state.row ≠ none
  accepted : ∀ call ∈ state.summaries, ∀ rowcount, call.phase = .returned rowcount true →
    call.effective = true

/-- A call that read no row waits for no version. -/
theorem SoundCalls.unversioned {state : SummaryState} (sound : SoundCalls state)
    {version : Option Nat} (member : call ∈ state.summaries) (ready : call.phase = .ready version)
    (absent : state.row = none) : version = none := by
  cases version with
  | none => rfl
  | some number => exact absurd absent (sound.observed call member number ready)

variable {start : Option SummaryRow}

theorem Fresh.paired (fresh : Fresh start) : ∀ row, start = some row → row.Paired := by
  intro row found
  rcases fresh with rfl | ⟨evidence, rfl⟩
  · contradiction
  · obtain rfl := Option.some.inj found
    rfl

theorem Fresh.version (fresh : Fresh start) : (start.getD .empty).version = 0 := by
  rcases fresh with rfl | ⟨evidence, rfl⟩ <;> rfl

theorem SoundCalls.initial (fresh : Fresh start) : SoundCalls (.initial start) :=
  ⟨fresh.paired, fresh.version, nofun, nofun⟩

/-- A call that comes is not effective. -/
theorem SoundCalls.called (sound : SoundCalls state)
    (fresh : call.phase = .observing ∨ call.phase = .ready none) :
    SoundCalls { state with summaries := state.summaries ++ [call] } := by
  have idle : call.effective = false := by
    rcases fresh with phase | phase <;> simp [SummaryCall.effective, phase]
  refine ⟨sound.paired, ?_, ?_, ?_⟩
  · show state.stored.version = (state.summaries ++ [call]).countP SummaryCall.effective
    rw [List.countP_append, List.countP_singleton, idle]
    exact sound.counted
  · intro other member version ready
    rcases List.mem_append.mp member with old | new
    · exact sound.observed other old version ready
    · obtain rfl := List.mem_singleton.mp new
      rcases fresh with phase | phase <;> simp [phase] at ready
  · intro other member rowcount returned
    rcases List.mem_append.mp member with old | new
    · exact sound.accepted other old rowcount returned
    · obtain rfl := List.mem_singleton.mp new
      rcases fresh with phase | phase <;> simp [phase] at returned

/-- A call that moves keeps the invariant when the version grows with the effective calls. -/
theorem SoundCalls.moved (sound : SoundCalls state) {row : Option SummaryRow} {phase : SummaryPhase}
    (found : state.summaries[place]? = some call)
    (paired : ∀ stored, row = some stored → stored.Paired) (present : state.row ≠ none → row ≠ none)
    (grows : (row.getD .empty).version + (if call.effective then 1 else 0) =
      state.stored.version + (if SummaryCall.effective { call with phase } then 1 else 0))
    (observed : ∀ version, phase = .ready (some version) → row ≠ none)
    (accepted : ∀ rowcount, phase = .returned rowcount true → 0 < rowcount) :
    SoundCalls { state with row, summaries := state.summaries.set place { call with phase } } := by
  refine ⟨paired, ?_, ?_, ?_⟩
  · have counts := countP_set_eq found { call with phase } SummaryCall.effective
    have counted := sound.counted
    unfold SummaryState.effectiveWrites at counted
    show (row.getD .empty).version = (state.summaries.set place { call with phase }).countP _
    omega
  · intro other member version ready
    rcases List.mem_or_eq_of_mem_set member with old | rfl
    · exact present (sound.observed other old version ready)
    · exact observed version ready
  · intro other member rowcount returned
    rcases List.mem_or_eq_of_mem_set member with old | rfl
    · exact sound.accepted other old rowcount returned
    · have positive := accepted rowcount returned
      simpa [SummaryCall.effective, show phase = _ from returned] using positive

theorem SoundCalls.step (sound : SoundCalls state) {action : SummaryAction}
    (steps : summaryStep state action = some after) : SoundCalls after := by
  cases action with
  | callSummary write =>
      obtain rfl := Option.some.inj steps
      exact sound.called (.inr rfl)
  | callReplacement write =>
      obtain rfl := Option.some.inj steps
      exact sound.called (.inl rfl)
  | callEvidence evidence =>
      obtain rfl := Option.some.inj steps
      exact ⟨sound.paired, sound.counted, sound.observed, sound.accepted⟩
  | summary place =>
      obtain ⟨call, row, phase, found, moves, rfl⟩ := summaryStep_summary steps
      have member := List.mem_of_getElem? found
      cases moves with
      | observes observing present =>
          refine sound.moved found sound.paired id ?_ (fun _ _ => by simp [present]) nofun
          simp [SummaryCall.effective, observing, SummaryState.stored]
      | @executes replaceInvalidVersion ready =>
          have observed := sound.unversioned member ready
          rcases @upsertSummary_cases call.write _ _ sound.paired observed with
            ⟨one, takes⟩ | ⟨zero, same⟩
          · have written := Option.some.inj takes.written
            rw [written, one]
            refine sound.moved found ?_ (fun _ => nofun) ?_ nofun nofun
            · intro stored same
              obtain rfl := Option.some.inj same
              exact SummaryWrite.updated_paired
            · simp [SummaryCall.effective, ready, SummaryState.stored]
          · rw [same, zero]
            refine sound.moved found sound.paired id ?_ nofun nofun
            simp [SummaryCall.effective, ready, SummaryState.stored]
      | @returns rowcount executed =>
          refine sound.moved found sound.paired id ?_ nofun ?_
          · simp [SummaryCall.effective, executed, SummaryState.stored]
          · intro count returned
            obtain ⟨rfl, accepted⟩ := SummaryPhase.returned.inj returned
            simp only [accepts, Bool.and_eq_true, decide_eq_true_eq] at accepted
            exact accepted.1
  | evidence place =>
      obtain ⟨summaries, same | ⟨evidence, written⟩⟩ := summaryStep_evidence steps
      · obtain ⟨row, calls, evidences⟩ := after
        obtain rfl : calls = state.summaries := summaries
        obtain rfl : row = state.row := same
        exact ⟨sound.paired, sound.counted, sound.observed, sound.accepted⟩
      · obtain ⟨row, calls, evidences⟩ := after
        obtain rfl : calls = state.summaries := summaries
        obtain rfl : row = _ := written
        rw [upsertEvidence_eq]
        refine ⟨?_, sound.counted, fun _ _ _ _ => nofun, sound.accepted⟩
        intro stored same
        obtain rfl := Option.some.inj same
        cases found : state.row with
        | none => rfl
        | some row => exact sound.paired row found

/-- What a step of a call of `upsert_summary` does to the row and to the call. -/
inductive SummaryObeys (state : SummaryState) (place : Nat) (call : SummaryCall)
    (after : SummaryState) : Prop where
  | observed {row : SummaryRow} (found : state.row = some row) (same : after.row = state.row)
      (call : after.summaries[place]? = some { call with phase := .ready (some row.version) })
  | effective {replaceInvalidVersion : Option Nat} (ready : call.phase = .ready replaceInvalidVersion)
      (takes : TakesEffect state.row after.row call.write replaceInvalidVersion)
      (version : after.stored.version = state.stored.version + 1)
      (evidence : after.stored.evidence = state.stored.evidence)
      (call : after.summaries[place]? = some { call with phase := .executed 1 })
  | ineffective {replaceInvalidVersion : Option Nat} (ready : call.phase = .ready replaceInvalidVersion)
      (same : after.row = state.row)
      (call : after.summaries[place]? = some { call with phase := .executed 0 })
  | returned {rowcount : Nat} {accepted : Bool} (executed : call.phase = .executed rowcount)
      (same : after.row = state.row) (effective : accepted = true → 0 < rowcount)
      (call : after.summaries[place]? = some { call with phase := .returned rowcount accepted })

/-- An evidence write leaves what the summary writes own. -/
structure SummaryUntouched (before after : SummaryRow) : Prop where
  summary : after.summary = before.summary
  messageId : after.coversThroughMessageId = before.coversThroughMessageId
  createdAt : after.coversThroughCreatedAt = before.coversThroughCreatedAt
  mentionedDocuments : after.mentionedDocuments = before.mentionedDocuments
  version : after.version = before.version

/-- What a step does. -/
def Obeys (state : SummaryState) (action : SummaryAction) (after : SummaryState) : Prop :=
  match action with
  | .summary place => ∃ call, state.summaries[place]? = some call ∧ SummaryObeys state place call after
  | .evidence _ => SummaryUntouched state.stored after.stored
  | _ => after.row = state.row

theorem upsertEvidence_untouched (before : Option SummaryRow) (evidence : List (Nat × Nat)) :
    SummaryUntouched (before.getD .empty) (upsertEvidence before evidence) := by
  rw [upsertEvidence_eq]
  exact ⟨rfl, rfl, rfl, rfl, rfl⟩

/-- Every step from a sound state obeys. -/
theorem SoundCalls.obeys (sound : SoundCalls state) {action : SummaryAction}
    (steps : summaryStep state action = some after) : Obeys state action after := by
  cases action with
  | callSummary write =>
      obtain rfl := Option.some.inj steps
      rfl
  | callReplacement write =>
      obtain rfl := Option.some.inj steps
      rfl
  | callEvidence evidence =>
      obtain rfl := Option.some.inj steps
      rfl
  | summary place =>
      obtain ⟨call, row, phase, found, moves, rfl⟩ := summaryStep_summary steps
      have member := List.mem_of_getElem? found
      refine ⟨call, found, ?_⟩
      have there (changed : SummaryCall) :
          (state.summaries.set place changed)[place]? = some changed :=
        (getElem?_set_iff found).mpr (.inl ⟨rfl, rfl⟩)
      cases moves with
      | observes observing present => exact .observed present rfl (there _)
      | @executes replaceInvalidVersion ready =>
          have observed := sound.unversioned member ready
          rcases @upsertSummary_cases call.write _ _ sound.paired observed with
            ⟨one, takes⟩ | ⟨zero, same⟩
          · rw [one]
            have written := takes.written
            refine .effective ready takes ?_ ?_ (there _)
            · rw [written]
              rfl
            · rw [written]
              rfl
          · rw [zero]
            exact .ineffective ready same (there _)
      | @returns rowcount executed =>
          refine .returned executed rfl ?_ (there _)
          intro accepted
          simp only [accepts, Bool.and_eq_true, decide_eq_true_eq] at accepted
          exact accepted.1
  | evidence place =>
      obtain ⟨_, same | ⟨evidence, written⟩⟩ := summaryStep_evidence steps
      · show SummaryUntouched (state.row.getD .empty) (after.row.getD .empty)
        rw [same]
        exact ⟨rfl, rfl, rfl, rfl, rfl⟩
      · show SummaryUntouched (state.row.getD .empty) (after.row.getD .empty)
        rw [written]
        exact upsertEvidence_untouched state.row evidence

/-- The summary row is only ever compared and set: its version counts the writes that took effect,
only those are accepted, and every next step obeys. -/
structure CompareAndSet (state : SummaryState) : Prop where
  version : state.stored.version = state.effectiveWrites
  accepted : ∀ call ∈ state.summaries, ∀ rowcount, call.phase = .returned rowcount true →
    call.effective = true
  obeys : ∀ action after, summaryStep state action = some after → Obeys state action after

/-- Every run of summary and evidence writes from a fresh row compares and sets. -/
theorem calls_compareAndSet {start : Option SummaryRow} (fresh : Fresh start)
    {actions : List SummaryAction}
    (runs : Runs summaryStep (fun _ _ => True) (.initial start) actions state) :
    CompareAndSet state := by
  have sound := runs.invariant SoundCalls (fun _ _ _ sound _ steps => sound.step steps) (.initial fresh)
  exact ⟨sound.counted, sound.accepted, fun action after steps => sound.obeys steps⟩

/-- A write with this cursor. -/
def sampleWrite (createdAt : Int) (messageId : Nat) : SummaryWrite :=
  ⟨['s'], messageId, createdAt, none⟩

/-- An evidence write creates the row, two summary writes race for it and a replacement follows. -/
def sampleCalls : List SummaryAction :=
  [.callEvidence [(1, 2)], .evidence 0, .callSummary (sampleWrite 5 3), .callSummary (sampleWrite 5 2),
    .summary 0, .summary 1, .summary 0, .summary 1, .callReplacement (sampleWrite 4 1), .summary 2,
    .summary 2, .summary 2]

theorem sampleCalls_phases : (execute summaryStep (.initial none) sampleCalls).map
    (fun state => state.summaries.map SummaryCall.phase) =
      some [.returned 1 true, .returned 0 false, .returned 1 true] := by
  decide

/-- The race is won by one write, and the replacement is accepted. -/
theorem calls_compareAndSet_race : ∃ state : SummaryState,
    state.summaries.map SummaryCall.phase =
      [.returned 1 true, .returned 0 false, .returned 1 true] ∧ CompareAndSet state := by
  obtain ⟨state, executes, phases⟩ := Option.map_eq_some_iff.mp sampleCalls_phases
  exact ⟨state, phases, calls_compareAndSet (.inl rfl) (Runs.of_unchecked executes)⟩

end LumenCopilot.Memory
