import LumenCopilot.Construction.Runs.Sink
import LumenCopilot.Proof.Chat.Wire

namespace LumenCopilot.Runs

open Python Chat

/-- The numbers of the captured envelopes increase. -/
def Increasing (stream : List Captured) : Prop :=
  stream.Pairwise fun earlier later => earlier.envelope.seq < later.envelope.seq

instance (stream : List Captured) : Decidable (Increasing stream) :=
  inferInstanceAs (Decidable (stream.Pairwise _))

/-- No text is published after a terminal. -/
def Settled (stream : List Captured) : Prop :=
  stream.Pairwise fun earlier later =>
    earlier.envelope.payload.isTerminal = true → later.envelope.payload.isText = false

instance (stream : List Captured) : Decidable (Settled stream) :=
  inferInstanceAs (Decidable (stream.Pairwise _))

variable {captured : Captured} {step : RunStep}

theorem Captured.step_eq_some (kept : captured.step = some step) :
    step.seq = captured.envelope.seq ∧ step.payload = captured.envelope.payload ∧
      stepKind captured.envelope.payload = some step.kind := by
  obtain ⟨kind, known, rfl⟩ := Option.map_eq_some_iff.mp kept
  exact ⟨rfl, rfl, known⟩

variable {stream : List Captured}

/-- The steps of an increasing stream have increasing numbers. -/
theorem transcriptSteps_increasing (increasing : Increasing stream) :
    (transcriptSteps stream).Pairwise fun earlier later => earlier.seq < later.seq := by
  unfold transcriptSteps
  rw [List.pairwise_filterMap]
  refine increasing.imp ?_
  intro first second less earlier kept later followed
  rw [(Captured.step_eq_some kept).1, (Captured.step_eq_some followed).1]
  exact less

variable {stored after : List RunStep}

/-- A step is added when its number is new. -/
theorem addStep_eq_some :
    addStep stored step = some after ↔
      (∀ earlier ∈ stored, earlier.seq ≠ step.seq) ∧ after = stored ++ [step] := by
  unfold addStep
  split
  · next taken =>
      obtain ⟨earlier, member, same⟩ := List.any_eq_true.mp taken
      simp only [reduceCtorEq, false_iff, not_and]
      intro fresh
      exact absurd (by simpa using same) (fresh earlier member)
  · next free =>
      have fresh : ∀ earlier ∈ stored, earlier.seq ≠ step.seq := by
        simpa using free
      constructor
      · intro added
        exact ⟨fresh, (Option.some.inj added).symm⟩
      · rintro ⟨-, rfl⟩
        rfl

/-- The steps are written exactly when their numbers are new and distinct. -/
theorem foldlM_addStep {steps : List RunStep}
    (increasing : steps.Pairwise fun earlier later => earlier.seq < later.seq) :
    (∃ after, steps.foldlM addStep stored = some after) ↔
      ∀ step ∈ steps, ∀ earlier ∈ stored, earlier.seq ≠ step.seq := by
  induction steps generalizing stored with
  | nil => simp
  | cons step rest ih =>
      obtain ⟨below, sorted⟩ := List.pairwise_cons.mp increasing
      rw [List.foldlM_cons]
      constructor
      · rintro ⟨after, writes⟩
        obtain ⟨middle, added, continues⟩ := Option.bind_eq_some_iff.mp writes
        obtain ⟨fresh, rfl⟩ := addStep_eq_some.mp added
        have others := (ih sorted).mp ⟨after, continues⟩
        intro other member earlier known
        rcases List.mem_cons.mp member with rfl | later
        · exact fresh earlier known
        · exact others other later earlier (List.mem_append_left _ known)
      · intro fresh
        have added := addStep_eq_some.mpr ⟨fresh step List.mem_cons_self, rfl⟩
        have later : ∀ other ∈ rest, ∀ earlier ∈ stored ++ [step], earlier.seq ≠ other.seq := by
          intro other member earlier known
          rcases List.mem_append.mp known with old | new
          · exact fresh other (.tail _ member) earlier old
          · obtain rfl := List.mem_singleton.mp new
            exact Nat.ne_of_lt (below other member)
        obtain ⟨after, continues⟩ := (@ih (stored ++ [step]) sorted).mpr later
        exact ⟨after, by rw [added]; exact continues⟩

/-- The written steps come after the stored ones. -/
theorem foldlM_addStep_eq {steps : List RunStep} (writes : steps.foldlM addStep stored = some after)
    : after = stored ++ steps := by
  induction steps generalizing stored with
  | nil =>
      obtain rfl := Option.some.inj writes
      simp
  | cons step rest ih =>
      rw [List.foldlM_cons] at writes
      obtain ⟨middle, added, continues⟩ := Option.bind_eq_some_iff.mp writes
      obtain ⟨-, rfl⟩ := addStep_eq_some.mp added
      simpa using ih continues

/-- `persist` succeeds exactly when no number of the new steps is stored. -/
theorem persist_isSome_iff (increasing : Increasing stream) :
    (persist stored stream).isSome ↔
      ∀ step ∈ transcriptSteps stream, ∀ earlier ∈ stored, earlier.seq ≠ step.seq := by
  rw [Option.isSome_iff_exists]
  exact foldlM_addStep (transcriptSteps_increasing increasing)

theorem persist_eq (writes : persist stored stream = some after) :
    after = stored ++ transcriptSteps stream :=
  foldlM_addStep_eq writes

/-- This is the answer text that a client folds from the published envelopes. -/
def publishedText (stream : List Captured) : Text :=
  ((stream.map (·.envelope)).foldl reduceStream {}).text

/-- This is the answer text that the same rules fold from the persisted steps. -/
def transcriptText (steps : List RunStep) : Text :=
  ((steps.map fun step => (⟨step.seq, step.payload⟩ : Envelope)).foldl reduceStream {}).text

/-- The text of increasing envelopes follows from their payloads. -/
theorem foldl_reduceStream_text {envelopes : List Envelope} {state : StreamState}
    (increasing : envelopes.Pairwise fun earlier later => earlier.seq < later.seq)
    (settled : envelopes.Pairwise fun earlier later =>
      earlier.payload.isTerminal = true → later.payload.isText = false)
    (newer : ∀ envelope ∈ envelopes, state.lastSeq < envelope.seq)
    (ended : state.phase.isTerminal = true → ∀ envelope ∈ envelopes, envelope.payload.isText = false) :
    (envelopes.foldl reduceStream state).text =
      envelopes.foldl (fun text envelope => envelope.payload.applyText text) state.text := by
  induction envelopes generalizing state with
  | nil => rfl
  | cons envelope rest ih =>
      obtain ⟨below, sorted⟩ := List.pairwise_cons.mp increasing
      obtain ⟨after, final⟩ := List.pairwise_cons.mp settled
      obtain ⟨numbered, phased, text⟩ := reduceStream_cases state envelope
      have first := newer envelope List.mem_cons_self
      have later : ∀ other ∈ rest, (reduceStream state envelope).lastSeq < other.seq := by
        intro other member
        have greater := below other member
        have known := newer other (.tail _ member)
        rcases numbered with same | same <;> omega
      have closed : (reduceStream state envelope).phase.isTerminal = true →
          ∀ other ∈ rest, other.payload.isText = false := by
        intro terminal other member
        rcases phased terminal with already | now
        · exact ended already other (.tail _ member)
        · exact after other member now
      rw [List.foldl_cons, List.foldl_cons, ih sorted final later closed, text]
      congr 1
      split
      · next stale =>
          rcases stale with already | old
          · exact (Payload.applyText_other _ _ (ended already envelope List.mem_cons_self)).symm
          · omega
      · rfl

/-- An envelope is newer than the fold that has seen none. -/
theorem lastSeq_lt (envelope : Envelope) : ({} : StreamState).lastSeq < envelope.seq := by
  show (-1 : Int) < envelope.seq
  omega

/-- The published text is folded from the payloads of the stream. -/
theorem publishedText_eq (increasing : Increasing stream) (settled : Settled stream) :
    publishedText stream =
      (stream.map (·.envelope.payload)).foldl (fun text payload => payload.applyText text) [] := by
  unfold publishedText
  rw [foldl_reduceStream_text (List.pairwise_map.mpr increasing) (List.pairwise_map.mpr settled)
    (fun envelope _ => lastSeq_lt envelope) (by simp [StreamPhase.isTerminal])]
  simp [List.foldl_map]

theorem deltaText_of_step (dropped : captured.step = none) :
    deltaText captured.envelope.payload = [] := by
  unfold Captured.step stepKind at dropped
  cases payload : captured.envelope.payload <;> simp_all [deltaText]

/-- A step never clears the text. -/
theorem applyText_of_step (kept : captured.step = some step) (text : Text) :
    step.payload.applyText text = text ++ deltaText captured.envelope.payload := by
  obtain ⟨-, same, known⟩ := Captured.step_eq_some kept
  rw [same]
  cases payload : captured.envelope.payload <;>
    simp_all [stepKind, Payload.applyText, deltaText]

/-- The steps fold to the text of all deltas. -/
theorem transcriptText_eq (increasing : Increasing stream) (settled : Settled stream) :
    transcriptText (transcriptSteps stream) =
      stream.flatMap fun captured => deltaText captured.envelope.payload := by
  have ordered := transcriptSteps_increasing increasing
  have final : (transcriptSteps stream).Pairwise fun earlier later =>
      earlier.payload.isTerminal = true → later.payload.isText = false := by
    unfold transcriptSteps
    rw [List.pairwise_filterMap]
    refine settled.imp ?_
    intro first second closes earlier kept later followed
    rw [(Captured.step_eq_some kept).2.1, (Captured.step_eq_some followed).2.1]
    exact closes
  unfold transcriptText
  rw [foldl_reduceStream_text (List.pairwise_map.mpr ordered) (List.pairwise_map.mpr final)
    (fun envelope _ => lastSeq_lt envelope) (by simp [StreamPhase.isTerminal])]
  rw [List.foldl_map]
  clear increasing settled ordered final
  suffices general : ∀ text, (transcriptSteps stream).foldl
      (fun text step => step.payload.applyText text) text =
        text ++ stream.flatMap fun captured => deltaText captured.envelope.payload by
    simpa using general []
  induction stream with
  | nil => simp [transcriptSteps]
  | cons captured rest ih =>
      intro text
      unfold transcriptSteps at ih ⊢
      cases kept : captured.step with
      | none => simp [kept, deltaText_of_step kept, ih]
      | some step => simp [kept, applyText_of_step kept, ih]

/-- This is the text of the deltas that an answer retraction follows. -/
def retractedText : List Payload → Text
  | [] => []
  | payload :: rest =>
      if rest.contains .answerRetract then deltaText payload ++ retractedText rest else []

theorem Payload.applyText_eq {payload : Payload} (kept : payload ≠ .answerRetract) (text : Text) :
    payload.applyText text = text ++ deltaText payload := by
  cases payload <;> simp_all [Payload.applyText, deltaText]

/-- A text before a retraction is lost, and another text stays in front. -/
theorem foldl_applyText (payloads : List Payload) (text : Text) :
    payloads.foldl (fun text payload => payload.applyText text) text =
      (if payloads.contains .answerRetract then [] else text) ++
        payloads.foldl (fun text payload => payload.applyText text) [] := by
  induction payloads generalizing text with
  | nil => simp
  | cons payload rest ih =>
      rw [List.foldl_cons, List.foldl_cons, ih (payload.applyText text), ih (payload.applyText [])]
      by_cases retract : payload = .answerRetract
      · simp [retract, Payload.applyText]
      · rw [Payload.applyText_eq retract, Payload.applyText_eq retract]
        have other : (payload :: rest).contains .answerRetract = rest.contains .answerRetract := by
          simp [Ne.symm retract]
        rw [other]
        split <;> simp

theorem retractedText_of_not_contains (payloads : List Payload)
    (kept : .answerRetract ∉ payloads) : retractedText payloads = [] := by
  cases payloads with
  | nil => rfl
  | cons payload rest =>
      have absent : .answerRetract ∉ rest := fun member => kept (.tail _ member)
      simp [retractedText, absent]

/-- All deltas are the retracted ones and then the answer. -/
theorem flatMap_deltaText (payloads : List Payload) :
    payloads.flatMap deltaText =
      retractedText payloads ++ payloads.foldl (fun text payload => payload.applyText text) [] := by
  induction payloads with
  | nil => rfl
  | cons payload rest ih =>
      rw [List.flatMap_cons, List.foldl_cons, foldl_applyText rest, ih]
      by_cases followed : rest.contains .answerRetract
      · simp only [retractedText, followed, if_true, List.append_assoc, List.nil_append]
      · have first : payload.applyText [] = deltaText payload := by
          cases payload <;> simp [Payload.applyText, deltaText]
        have absent : .answerRetract ∉ rest := by simpa using followed
        rw [retractedText_of_not_contains rest absent, first]
        simp [retractedText, absent]

/-- The stored steps fold to the published answer, and a succeeded run has its summary. -/
def reconstructs (table : UnicodeTable) (stream : List Captured) : Prop :=
  (persist [] stream).map (fun stored => transcriptText (listForRun stored)) =
      some (publishedText stream) ∧
    ((sinkOutcome table stream).status = .succeeded →
      (sinkOutcome table stream).summary = some (summaryOf (publishedText stream)))

/-- A fresh run stores all steps of its stream. -/
theorem persist_nil (increasing : Increasing stream) :
    persist [] stream = some (transcriptSteps stream) := by
  obtain ⟨after, writes⟩ := Option.isSome_iff_exists.mp
    ((@persist_isSome_iff stream [] increasing).mpr (by simp))
  rw [writes, persist_eq writes, List.nil_append]

theorem listForRun_eq (increasing : stored.Pairwise fun earlier later => earlier.seq < later.seq) :
    listForRun stored = stored := by
  apply List.mergeSort_of_pairwise
  exact increasing.imp fun less => by simpa using Nat.le_of_lt less

/-- A succeeded outcome has the summary of all deltas and no error. -/
theorem sinkOutcome_succeeded {table : UnicodeTable}
    (succeeded : (sinkOutcome table stream).status = .succeeded) :
    sinkOutcome table stream = ⟨.succeeded, some (summarize stream), none⟩ := by
  unfold sinkOutcome at succeeded ⊢
  split
  · next absent => simp [absent] at succeeded
  · next terminal found =>
      simp only [found] at succeeded
      split
      · next denied => simp [denied] at succeeded
      · next allowed =>
          rw [if_neg allowed] at succeeded
          split
          · next problem failed => simp [failed] at succeeded
          · rfl

/-- The transcript and the summary of a stream give its answer exactly when no text of the stream
is retracted. -/
theorem transcript_reconstructs_iff (table : UnicodeTable) {stream : List Captured}
    (increasing : Increasing stream) (settled : Settled stream) :
    reconstructs table stream ↔ retractedText (stream.map (·.envelope.payload)) = [] := by
  have published := publishedText_eq increasing settled
  have stored := transcriptText_eq increasing settled
  have deltas := flatMap_deltaText (stream.map (·.envelope.payload))
  rw [List.flatMap_map, ← published, ← stored] at deltas
  unfold reconstructs
  rw [persist_nil increasing, Option.map_some, Option.some_inj,
    listForRun_eq (transcriptSteps_increasing increasing), deltas]
  constructor
  · rintro ⟨same, -⟩
    exact List.append_left_eq_self.mp same
  · intro none
    refine ⟨by rw [none, List.nil_append], ?_⟩
    intro succeeded
    rw [sinkOutcome_succeeded succeeded, summarize, ← stored, deltas, none, List.nil_append]

def captures (payloads : List Payload) : List Captured :=
  payloads.mapIdx fun seq payload => { envelope := ⟨seq, payload⟩ }

/-- An answer in one turn loses nothing. -/
def directStream : List Captured :=
  captures [.start, .delta "Paris".toList, .event .citation, .delta " [1].".toList,
    .done "stop".toList false]

theorem transcript_reconstructs_iff_directStream : reconstructs .symbols directStream :=
  (transcript_reconstructs_iff .symbols (by decide) (by decide)).mpr (by decide)

/-- A draft before a tool call is retracted, and the answer follows. -/
def draftedStream : List Captured :=
  captures [.start, .delta "Let me search.".toList, .answerRetract,
    .narration "Let me search.".toList 0, .event .toolCall, .event .toolResult,
    .delta "Paris".toList, .done "stop".toList false]

/-- The transcript of a drafted answer begins with the retracted draft. -/
theorem transcript_keeps_draftedStream :
    Increasing draftedStream ∧ Settled draftedStream ∧
      publishedText draftedStream = "Paris".toList ∧
      (sinkOutcome .symbols draftedStream).summary = some "Let me search.Paris".toList ∧
      ¬ reconstructs .symbols draftedStream := by
  have increasing : Increasing draftedStream := by decide
  refine ⟨increasing, by decide, by decide, by decide, ?_⟩
  rintro ⟨stored, -⟩
  rw [persist_nil increasing, Option.map_some,
    listForRun_eq (transcriptSteps_increasing increasing)] at stored
  exact absurd stored (by decide)

end LumenCopilot.Runs
