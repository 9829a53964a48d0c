import LumenCopilot.Proof.Chat.Answering

namespace LumenCopilot.Chat

open Python Library

variable {world : World} {message : StoredMessage}

variable {after : World}

theorem World.Rests.drifts (rests : world.Rests after) : world.Drifts after :=
  ⟨rests.still, rests.passes⟩

theorem World.Halts.drifts {interrupt : Interrupt} (halts : world.Halts interrupt after) :
    world.Drifts after :=
  ⟨halts.still, halts.passes⟩

theorem World.Drifts.refl (world : World) : world.Drifts world :=
  ⟨World.Still.refl world, World.Passes.refl world⟩

theorem World.Drifts.trans {middle : World} (first : world.Drifts middle)
    (second : middle.Drifts after) : world.Drifts after :=
  ⟨first.1.trans second.1, first.2.trans second.2⟩

/-- A program only lets time pass, on both exits. -/
def World.Drifting {α : Type} (world : World) (program : Coroutine α) : Prop :=
  Ends program (fun _ after => world.Drifts after) (fun _ after => world.Drifts after) world

variable {α : Type}

theorem World.Waits.drifting {program : Coroutine α} (waits : world.Waits program) :
    world.Drifting program :=
  Ends.mono waits (fun _ _ rests => rests.drifts) (fun _ _ halts => halts.1.drifts)

theorem World.Drifting.bind {β : Type} {program : Coroutine β} {next : β → Coroutine α}
    (first : world.Drifting program)
    (second : ∀ value (middle : World), middle.Drifting (next value)) :
    world.Drifting (program >>= next) := by
  refine (ends_bind program next).mpr (Ends.mono first ?_ fun _ _ drifts => drifts)
  intro value middle drifts
  exact Ends.mono (second value middle) (fun _ _ last => drifts.trans last)
    (fun _ _ last => drifts.trans last)

/-- The salvage of the usage leaves the stream alone. -/
theorem salvageUsageAfterFailure_drifting (world : World) :
    world.Drifting salvageUsageAfterFailure := by
  have saves : ∀ (middle : World) (rows : List UsageRow), middle.Drifting
      (commitWith fun world => { world with rows := world.rows ++ rows }) := by
    intro middle rows
    have wrote : ∀ resumed : World, resumed.Rests { resumed with rows := resumed.rows ++ rows } :=
      fun resumed => World.Rests.of_eq rfl
    refine commitWith_ends _ ?_ ?_
    · exact fun resumed rests => rests.drifts.trans (wrote resumed).drifts
    · exact fun interrupt resumed halts =>
        ⟨halts.drifts, halts.drifts.trans (wrote resumed).drifts⟩
  unfold salvageUsageAfterFailure World.Drifting
  simp only [ends_bind, ends_observe, ends_ite, ends_pure]
  split
  · rw [ends_catching]
    refine Ends.mono ((awaits_waits world).drifting.bind fun _ middle => saves middle _)
      (fun _ _ drifts => drifts) ?_
    intro interrupt after drifts
    cases interrupt with
    | cancelled cause => exact drifts
    | _ => exact drifts
  · exact World.Drifts.refl world

/-- The run ended without a committed answer that it knows of. -/
structure World.Abandoned (world : World) : Prop where
  wire : Wire world.seq world.sent
  undone : ∀ entry ∈ world.sent, entry.isDone = false
  decided : world.locked = true ∨ world.cancelRequested = true
  accepted : true ∈ world.stops → world.cancelRequested = true
  honest : world.cancelRequested = true → ∀ message, world.stored = some message →
    message.kind = .cancelled
  partials : (∃ entry ∈ world.sent, entry.envelope.payload = .cancelled) →
    ∃ content, world.stored = some ⟨content, .cancelled⟩ ∧
      (answerText (world.sent.filter Sent.taken) = content ↔ Whole world.sent)

/-- An accepted Stop stays accepted, and a locked stream accepts no other. -/
theorem World.Passes.decided (passes : world.Passes after)
    (decided : world.locked = true ∨ world.cancelRequested = true) :
    after.cancelRequested = world.cancelRequested := by
  rcases decided with locked | stopped
  · exact (passes.refused locked).1
  · rw [passes.kept stopped, stopped]

theorem World.Abandoned.drifts (abandoned : world.Abandoned) (drifts : world.Drifts after) :
    after.Abandoned := by
  obtain ⟨still, passes⟩ := drifts
  have flag := passes.decided abandoned.decided
  refine ⟨?_, still.sent ▸ abandoned.undone, ?_, ?_, ?_, ?_⟩
  · rw [still.seq, still.sent]
    exact abandoned.wire
  · rw [passes.locked, flag]
    exact abandoned.decided
  · intro accepted
    exact (passes.accepted accepted).elim (fun earlier => passes.kept (abandoned.accepted earlier)) id
  · rw [flag, passes.stored]
    exact abandoned.honest
  · rw [still.sent, passes.stored]
    exact abandoned.partials

/-- The settlement of an answer that was not committed has begun, and no terminal is sent. -/
structure World.Failing (world : World) : Prop where
  streaming : world.Streaming
  flowing : world.Flowing
  uncommitted : world.answerCommitted = false
  unminted : world.terminalSeq = none
  decided : world.locked = true ∨ world.cancelRequested = true
  accepted : true ∈ world.stops → world.cancelRequested = true
  honest : world.cancelRequested = true → ∀ message, world.stored = some message →
    message.kind = .cancelled

theorem World.Failing.passes (failing : world.Failing) (passes : world.Passes after)
    (streaming : after.Streaming) : after.Failing := by
  have flag := passes.decided failing.decided
  refine ⟨streaming, ?_, passes.answerCommitted.trans failing.uncommitted,
    passes.terminalSeq.trans failing.unminted, ?_, ?_, ?_⟩
  · intro stopped
    rw [passes.finalisingCancel, passes.answerCommitted]
    exact failing.flowing (flag ▸ stopped)
  · rw [passes.locked, flag]
    exact failing.decided
  · intro accepted
    exact (passes.accepted accepted).elim (fun earlier => passes.kept (failing.accepted earlier)) id
  · rw [flag, passes.stored]
    exact failing.honest

theorem World.Failing.drifts (failing : world.Failing) (drifts : world.Drifts after) :
    after.Failing :=
  failing.passes drifts.2 (drifts.1.streaming failing.streaming)

theorem World.Failing.terminated (failing : world.Failing) : world.terminated.Failing :=
  ⟨{ failing.streaming with }, failing.flowing, failing.uncommitted, failing.unminted,
    Or.inl (by simp [World.locked, World.terminated]), failing.accepted, failing.honest⟩

/-- Without a terminal the run is abandoned as it stands. -/
theorem World.Failing.abandoned (failing : world.Failing) : world.Abandoned := by
  refine ⟨failing.streaming.wire, ?_, failing.decided, failing.accepted, failing.honest, ?_⟩
  · intro entry member
    by_contra done
    have unended := failing.streaming.unended entry member
    simp [Sent.isDone_isTerminal entry (by simpa using done)] at unended
  · rintro ⟨entry, member, is⟩
    have unended := failing.streaming.unended entry member
    simp [Sent.isTerminal, is, Payload.isTerminal] at unended

variable {seq : Nat}

/-- The error terminal abandons the run. -/
theorem World.Failing.posts {problem : Problem} {taken : Bool} (failing : world.Failing)
    (ending : world.Ending seq) (posts : world.Posts ⟨seq, .error problem⟩ taken after) :
    after.Abandoned := by
  have abandoned := failing.abandoned
  have passes := posts.passes
  have flag := passes.decided failing.decided
  refine ⟨(ending.posts posts rfl).wire, ?_, ?_, ?_, ?_, ?_⟩
  · rw [posts.sent]
    exact List.forall_mem_append.mpr ⟨abandoned.undone, List.forall_mem_singleton.mpr rfl⟩
  · rw [passes.locked, flag]
    exact failing.decided
  · intro accepted
    exact (passes.accepted accepted).elim (fun earlier => passes.kept (failing.accepted earlier)) id
  · rw [flag, passes.stored]
    exact failing.honest
  · rintro ⟨entry, member, is⟩
    rw [posts.sent] at member
    rcases List.mem_append.mp member with old | new
    · have unended := failing.streaming.unended entry old
      simp [Sent.isTerminal, is, Payload.isTerminal] at unended
    · rw [List.mem_singleton.mp new] at is
      cases is

theorem World.Failing.mint (failing : world.Failing) :
    World.Failing { world with seq := world.seq + 1 } :=
  ⟨⟨failing.streaming.wire.weaken (Nat.le_succ _), failing.streaming.unended,
    failing.streaming.spoken, failing.streaming.onWire, failing.streaming.texts,
    failing.streaming.closed, failing.streaming.chunks⟩, failing.flowing, failing.uncommitted,
    failing.unminted, failing.decided, failing.accepted, failing.honest⟩

theorem World.Failing.flows {program : Coroutine α} {returned : α → World → Prop}
    (failing : world.Failing) (flows : world.Flows (fun _ => True) program returned) :
    Ends program (fun value after => after.Failing ∧ returned value after)
      (fun _ after => after.Abandoned) world :=
  Ends.mono flows (fun _ _ last => ⟨failing.passes last.1.passes last.1.streaming, last.2⟩)
    (fun _ _ stops => (failing.passes stops.1.passes stops.1.streaming).abandoned)

/-- An uncommitted answer is retracted and ends with its error, or it raises. -/
theorem terminalError_failing (failing : world.Failing) (problem : Problem) :
    Ends (terminalError problem) (fun _ after => after.Abandoned) (fun _ after => after.Abandoned)
      world := by
  unfold terminalError
  simp only [ends_bind, ends_observe, ends_ite, ends_markTerminalSent, ends_pure]
  split
  · exact failing.abandoned
  · have retracts : ∀ condition : Bool, world.Flows (fun _ => True)
        (doWhen condition retractAnswer) fun _ _ => True :=
      fun condition => World.Flows.doWhen failing.streaming
        (fun _ => (retractAnswer_flows failing.streaming failing.flowing).mono fun _ _ _ _ => trivial)
        (fun _ => trivial)
    refine Ends.mono (failing.flows (retracts _)) ?_ (fun _ _ abandoned => abandoned)
    rintro _ retracted ⟨failing₁, -⟩
    have failing₂ := failing₁.terminated
    have unminted : retracted.terminated.terminalSeq = none := failing₂.unminted
    rw [unminted]
    unfold nextSeq
    simp only [ends_bind, ends_observe, ends_pure]
    refine Ends.mono (failing₂.flows (flushText_flows failing₂.streaming failing₂.flowing)) ?_
      (fun _ _ abandoned => abandoned)
    rintro _ flushed ⟨failing₃, -, closed⟩
    have empty := failing₃.streaming.closed.mp closed
    have ending : World.Ending flushed.seq { flushed with seq := flushed.seq + 1 } :=
      failing₃.streaming.ending empty rfl rfl rfl
    refine (ends_transition _).mpr (publishTerminal_posts failing₃.mint.flowing _ _ (.error problem) ?_)
    intro middle taken after rests posts
    exact (failing₃.mint.drifts rests.drifts).posts (ending.still rests.still) posts

/-- The partial answer is stored as the client may have seen it. -/
structure World.Kept (seq : Nat) (world : World) : Prop where
  ending : world.Ending seq
  undone : ∀ entry ∈ world.sent, entry.isDone = false
  stopped : world.cancelRequested = true
  flowing : world.Flowing
  content : ∃ content, world.stored = some ⟨content, .cancelled⟩ ∧
    (answerText (world.sent.filter Sent.taken) = content ↔ Whole world.sent)

theorem World.Kept.abandoned (kept : world.Kept seq) : world.Abandoned := by
  refine ⟨kept.ending.wire, kept.undone, Or.inr kept.stopped, fun _ => kept.stopped, ?_,
    fun _ => kept.content⟩
  intro _ message stored
  obtain ⟨content, is, -⟩ := kept.content
  obtain rfl := Option.some.inj (is.symm.trans stored)
  rfl

theorem World.Kept.drifts (kept : world.Kept seq) (drifts : world.Drifts after) :
    after.Kept seq := by
  obtain ⟨still, passes⟩ := drifts
  refine ⟨kept.ending.still still, still.sent ▸ kept.undone, passes.kept kept.stopped, ?_, ?_⟩
  · intro _
    rw [passes.finalisingCancel, passes.answerCommitted]
    exact kept.flowing kept.stopped
  · rw [still.sent, passes.stored]
    exact kept.content

/-- An envelope without text does not change what the client shows. -/
theorem shown_append (sent : List Sent) (entry : Sent) (other : entry.isText = false) :
    answerText ((sent ++ [entry]).filter Sent.taken) = answerText (sent.filter Sent.taken) ∧
      (Whole (sent ++ [entry]) ↔ Whole sent) := by
  constructor
  · rw [List.filter_append]
    by_cases taken : entry.taken = true
    · rw [List.filter_cons_of_pos taken, List.filter_nil, answerText_other _ _ other]
    · rw [List.filter_cons_of_neg taken, List.filter_nil, List.append_nil]
  · constructor
    · exact fun whole other member => whole other (List.mem_append_left _ member)
    · exact fun whole => whole_append sent entry whole fun text => by simp [other] at text

theorem World.Kept.posts {taken : Bool} (kept : world.Kept seq)
    (posts : world.Posts ⟨seq, .cancelled⟩ taken after) : after.Kept seq := by
  have passes := posts.passes
  refine ⟨kept.ending.posts posts rfl, ?_, passes.kept kept.stopped, ?_, ?_⟩
  · rw [posts.sent]
    exact List.forall_mem_append.mpr ⟨kept.undone, List.forall_mem_singleton.mpr rfl⟩
  · intro _
    rw [passes.finalisingCancel, passes.answerCommitted]
    exact kept.flowing kept.stopped
  · obtain ⟨shown, whole⟩ := shown_append world.sent ⟨⟨seq, .cancelled⟩, taken, world.buffer.parts⟩ rfl
    rw [posts.sent, passes.stored, shown, whole]
    exact kept.content

/-- The cancelled terminal is repeated under one number. -/
theorem publishCancelled_ends (seq attempts : Nat) :
    ∀ world : World, world.Kept seq →
      Ends (publishCancelled seq attempts) (fun _ after => after.Abandoned)
        (fun _ after => after.Abandoned) world := by
  induction attempts with
  | zero => exact fun world kept => kept.abandoned
  | succ attempts ih =>
      intro world kept
      have posts := publishTerminal_posts kept.flowing true seq .cancelled
        fun middle taken after rests posts => (kept.drifts rests.drifts).posts posts
      unfold publishCancelled
      rw [ends_bind, ends_catching]
      have again : ∀ (after : World) (confirmed : Bool), after.Kept seq →
          Ends (if confirmed then markTerminalSent else publishCancelled seq attempts)
            (fun _ after => after.Abandoned) (fun _ after => after.Abandoned) after := by
        intro after confirmed kept'
        cases confirmed with
        | false => exact ih after kept'
        | true =>
            obtain ⟨wire, undone, decided, accepted, honest, partials⟩ := kept'.abandoned
            exact ⟨wire, undone, Or.inr kept'.stopped, accepted, honest, partials⟩
      refine Ends.mono posts (fun confirmed after kept' => again after confirmed kept') ?_
      intro interrupt after kept'
      cases interrupt with
      | cancelled cause => exact kept'.abandoned
      | _ => exact again after false kept'

/-- The client shows the spoken text exactly when no text was lost. -/
theorem World.shown_iff (world : World) (whole : Whole world.sent ∨ world.LastLost) :
    answerText (world.sent.filter Sent.taken) = answerText world.sent ↔ Whole world.sent := by
  rcases whole with whole | ⟨-, rest, entry, is, whole, text, lost, changed⟩
  · exact ⟨fun _ => whole, fun _ => answerText_filter_taken world.sent whole⟩
  · have dropped : answerText (world.sent.filter Sent.taken) = answerText rest := by
      rw [is, List.filter_append, List.filter_cons_of_neg (by simp [lost]), List.filter_nil,
        List.append_nil, answerText_filter_taken rest whole]
    refine ⟨fun same => absurd (same.symm.trans dropped) changed, fun all => ?_⟩
    have taken := all entry (by rw [is]; exact List.mem_append_right _ List.mem_cons_self) text
    simp [lost] at taken

/-- The settlement of an accepted Stop. -/
structure World.Cancelling (world : World) : Prop where
  failing : world.Failing
  stopped : world.cancelRequested = true
  unsent : world.terminalSent = false
  whole : Whole world.sent ∨ world.LastLost

theorem World.Cancelling.drifts (cancelling : world.Cancelling) (drifts : world.Drifts after) :
    after.Cancelling := by
  refine ⟨cancelling.failing.drifts drifts, drifts.2.kept cancelling.stopped,
    drifts.2.terminalSent.trans cancelling.unsent, ?_⟩
  refine cancelling.whole.imp (fun whole => drifts.1.sent ▸ whole) ?_
  rintro ⟨empty, lost⟩
  exact ⟨drifts.1.buffer ▸ empty, drifts.1.sent ▸ lost⟩

theorem World.Cancelling.stores (cancelling : world.Cancelling) (content : Text) :
    World.Cancelling { world with stored := some ⟨content, .cancelled⟩ } := by
  obtain ⟨⟨streaming, flowing, uncommitted, unminted, decided, accepted, -⟩, stopped, unsent, whole⟩ :=
    cancelling
  refine ⟨⟨{ streaming with }, flowing, uncommitted, unminted, decided, accepted, ?_⟩,
    stopped, unsent, whole⟩
  intro _ message stored
  obtain rfl := Option.some.inj stored
  rfl

/-- A flush of the stopped stream loses no text unless it raises. -/
theorem flushText_cancelling (cancelling : world.Cancelling) :
    Ends flushText (fun _ after => after.Cancelling ∧ after.buffer.kind = none)
      (fun _ after => after.Abandoned) world := by
  by_cases empty : world.buffer.parts = []
  · have closed := cancelling.failing.streaming.closed.mpr empty
    rw [ends_flushText closed empty]
    exact ⟨cancelling, closed⟩
  · have whole : Whole world.sent := by
      refine cancelling.whole.resolve_right ?_
      rintro ⟨drained, -⟩
      exact empty drained
    have flows : world.Flows (fun _ => True) flushText _ :=
      flushText_flows cancelling.failing.streaming cancelling.failing.flowing
    refine Ends.mono flows ?_ ?_
    · rintro _ after ⟨goes, shows, closed⟩
      exact ⟨⟨cancelling.failing.passes goes.passes goes.streaming,
        goes.calm.trans cancelling.stopped, goes.passes.terminalSent.trans cancelling.unsent,
        Or.inl (goes.whole whole)⟩, closed⟩
    · rintro interrupt after ⟨stops, -⟩
      exact (cancelling.failing.passes stops.passes stops.streaming).abandoned

/-- The partial answer is stored, or its transaction fails. -/
theorem persistCancelled_ends (cancelling : world.Cancelling) (content : Text) :
    Ends (persistCancelled content)
      (fun stored after => after.Cancelling ∧ after.sent = world.sent ∧ after.buffer = world.buffer ∧
        (stored = true → after.stored = some ⟨content, .cancelled⟩))
      (fun _ after => after.Abandoned) world := by
  have held : ∀ after : World, world.Drifts after → ∀ stored : Option StoredMessage,
      (stored = after.stored ∨ stored = some ⟨content, .cancelled⟩) →
      World.Cancelling { after with stored := stored } ∧ after.sent = world.sent ∧
        after.buffer = world.buffer := by
    intro after drifts stored is
    refine ⟨?_, drifts.1.sent, drifts.1.buffer⟩
    rcases is with rfl | rfl
    · exact cancelling.drifts drifts
    · exact (cancelling.drifts drifts).stores content
  have stores : Ends (do
        awaits
        commitWith fun world => { world with stored := some ⟨content, .cancelled⟩ }
        return true)
      (fun stored after => after.Cancelling ∧ after.sent = world.sent ∧ after.buffer = world.buffer ∧
        (stored = true → after.stored = some ⟨content, .cancelled⟩))
      (fun _ after => after.Cancelling ∧ after.sent = world.sent ∧ after.buffer = world.buffer)
      world := by
    simp only [ends_bind, ends_pure]
    refine Ends.mono (awaits_waits world) ?_ ?_
    · intro _ opened rests
      refine commitWith_ends _ ?_ ?_
      · intro resumed rests'
        obtain ⟨cancelling', sent, buffer⟩ :=
          held resumed (rests.drifts.trans rests'.drifts) _ (Or.inr rfl)
        exact ⟨cancelling', sent, buffer, fun _ => rfl⟩
      · intro interrupt resumed halts
        have drifts := rests.drifts.trans halts.drifts
        exact ⟨held resumed drifts _ (Or.inl rfl), held resumed drifts _ (Or.inr rfl)⟩
    · rintro interrupt after ⟨halts, -⟩
      exact held after halts.drifts _ (Or.inl rfl)
  unfold persistCancelled
  rw [ends_catching]
  refine Ends.mono stores (fun _ _ saved => saved) ?_
  rintro interrupt after ⟨cancelling', sent, buffer⟩
  cases interrupt with
  | cancelled cause => exact cancelling'.failing.abandoned
  | _ => exact ⟨cancelling', sent, buffer, by simp⟩

/-- The settlement of a Stop stores what was spoken and ends the stream, or it fails. -/
theorem finaliseCancelled_ends (cancelling : world.Cancelling) :
    Ends finaliseCancelled (fun _ after => after.Abandoned) (fun _ after => after.Abandoned) world := by
  unfold finaliseCancelled
  simp only [ends_bind, ends_observe, ends_ite, ends_pure]
  rw [if_neg (by simp [cancelling.unsent])]
  refine Ends.mono (flushText_cancelling cancelling) ?_ (fun _ _ abandoned => abandoned)
  rintro _ flushed ⟨cancelling₁, closed⟩
  refine Ends.mono (persistCancelled_ends cancelling₁ _) ?_ (fun _ _ abandoned => abandoned)
  rintro saved after ⟨cancelling₂, sent, buffer, stored⟩
  cases saved with
  | false => exact terminalError_failing cancelling₂.failing _
  | true =>
      have streaming := cancelling₂.failing.streaming
      have empty := streaming.closed.mp (by rw [buffer, closed])
      have ending : after.terminalMinted.Ending after.seq := streaming.ending empty rfl rfl rfl
      have kept : after.terminalMinted.Kept after.seq := by
        refine ⟨ending, cancelling₂.failing.abandoned.undone, cancelling₂.stopped,
          cancelling₂.failing.flowing, _, stored rfl, ?_⟩
        rw [cancelling₁.failing.streaming.spoken, ← sent]
        exact after.shown_iff cancelling₂.whole
      simp only [↓reduceIte, terminalSeq, ends_bind, ends_observe, cancelling₂.failing.unminted]
      exact publishCancelled_ends after.seq 2 after.terminalMinted kept

/-- An error is settled from worlds of one kind: they last, and its terminal ends them. -/
theorem finishError_ends {ready final : World → Prop} (cleanup : Bool) (problem : Problem)
    (begun : ready { world with settlingError := true })
    (lasts : ∀ middle after : World, ready middle → middle.Drifts after → ready after)
    (extended : ∀ middle : World, ready middle → ready { middle with producerDeadline := true })
    (errors : ∀ middle : World, ready middle →
      Ends (terminalError problem) (fun _ after => final after) (fun _ after => final after) middle)
    (stays : ∀ middle : World, ready middle → final middle)
    (rests : ∀ middle after : World, final middle → middle.Drifts after → final after) :
    Ends (finishError cleanup problem) (fun _ after => final after) (fun _ after => final after)
      world := by
  have reaps : Ends (doWhen cleanup do awaits; extendDeadline) (fun _ after => ready after)
      (fun _ after => final after) { world with settlingError := true } := by
    rw [ends_doWhen]
    split
    · refine (ends_bind _ _).mpr (Ends.mono (awaits_waits _) ?_ ?_)
      · exact fun _ after waited => extended after (lasts _ after begun waited.drifts)
      · exact fun _ after halts => stays after (lasts _ after begun halts.1.drifts)
    · exact begun
  unfold finishError shielded
  simp only [ends_bind, ends_update]
  refine Ends.mono reaps ?_ (fun _ _ last => last)
  intro _ reaped ready₁
  refine Ends.mono (salvageUsageAfterFailure_drifting reaped) ?_
    (fun _ after drifts => stays after (lasts reaped after ready₁ drifts))
  intro _ salvaged drifts
  refine Ends.mono (errors salvaged (lasts reaped salvaged ready₁ drifts)) ?_ (fun _ _ last => last)
  intro _ ended final₁
  exact Ends.mono (awaits_waits ended).drifting (fun _ after last => rests ended after final₁ last)
    (fun _ after last => rests ended after final₁ last)

theorem World.Unsettled.failing (unsettled : world.Unsettled) (unstopped : world.cancelRequested = false) :
    World.Failing { world with settlingError := true } := by
  have streaming := unsettled.streaming
  refine ⟨{ streaming with }, ?_, unsettled.uncommitted, unsettled.unminted,
    Or.inl (by simp [World.locked]), unsettled.accepted, ?_⟩
  · intro stopped
    exact absurd (unstopped.symm.trans stopped) (by simp)
  · intro stopped
    exact absurd (unstopped.symm.trans stopped) (by simp)

theorem finishError_unsettled (unsettled : world.Unsettled) (unstopped : world.cancelRequested = false)
    (cleanup : Bool) (problem : Problem) :
    Ends (finishError cleanup problem) (fun _ after => after.Abandoned) (fun _ after => after.Abandoned)
      world := by
  refine finishError_ends cleanup problem (unsettled.failing unstopped)
    (fun _ _ failing drifts => failing.drifts drifts) ?_
    (fun _ failing => terminalError_failing failing problem) (fun _ failing => failing.abandoned)
    (fun _ _ abandoned drifts => abandoned.drifts drifts)
  rintro middle ⟨streaming, flowing, uncommitted, unminted, decided, accepted, honest⟩
  exact ⟨{ streaming with }, flowing, uncommitted, unminted, decided, accepted, honest⟩

theorem World.Sealed.settling (sealed : world.Sealed message) (settling : Bool) (deadline : Bool) :
    World.Sealed message { world with settlingError := settling, producerDeadline := deadline } :=
  ⟨sealed.wire, sealed.whole, sealed.told, sealed.closed, sealed.empty, sealed.committed,
    sealed.completing, sealed.unstopped, sealed.unaccepted, sealed.stored, sealed.terminals,
    fun seq cached => ⟨(sealed.minted seq cached).wire, (sealed.minted seq cached).minted,
      (sealed.minted seq cached).empty, (sealed.minted seq cached).alone⟩, sealed.admitted⟩

theorem finishError_sealed (sealed : world.Sealed message) (cleanup : Bool) (problem : Problem) :
    Ends (finishError cleanup problem) (fun _ after => after.Sealed message ∧ world.Undone after)
      (fun _ after => after.Sealed message ∧ world.Undone after) world := by
  have drifts : ∀ middle after : World, middle.Sealed message ∧ world.Undone middle →
      middle.Drifts after → after.Sealed message ∧ world.Undone after :=
    fun middle after kept drifts => ⟨kept.1.drifts drifts, kept.2.trans drifts.1.undone⟩
  refine finishError_ends cleanup problem ⟨sealed.settling _ _, fun _ member _ => member⟩ drifts ?_ ?_
    (fun _ kept => kept) drifts
  · exact fun middle kept => ⟨kept.1.settling _ _, kept.2⟩
  · rintro middle ⟨sealed', undone⟩
    exact Ends.mono (terminalError_sealed sealed' problem)
      (fun _ _ last => ⟨last.1, undone.trans last.2⟩) (fun _ _ last => ⟨last.1, undone.trans last.2⟩)

theorem World.Unsettled.cancelling (unsettled : world.Unsettled) (stopped : world.cancelRequested = true) :
    World.Cancelling { world with finalisingCancel := true } := by
  have streaming := unsettled.streaming
  have uncompleted : world.completing = false := by
    by_contra completing
    exact absurd ((unsettled.latched (by simpa using completing)).symm.trans stopped) (by simp)
  refine ⟨⟨{ streaming with }, fun _ => Or.inl rfl, unsettled.uncommitted, unsettled.unminted,
    Or.inr stopped, unsettled.accepted, ?_⟩, stopped, unsettled.unsent, unsettled.whole⟩
  intro _ message stored
  exact absurd ((unsettled.unstored uncompleted).symm.trans stored) (by simp)

theorem finishUserCancel_ends (unsettled : world.Unsettled) (stopped : world.cancelRequested = true)
    (cleanup : Bool) :
    Ends (finishUserCancel cleanup) (fun _ after => after.Abandoned) (fun _ after => after.Abandoned)
      world := by
  have cancelling := unsettled.cancelling stopped
  have reaps : World.Drifting { world with finalisingCancel := true } (doWhen cleanup awaits) := by
    unfold World.Drifting
    rw [ends_doWhen]
    split
    · exact (awaits_waits _).drifting
    · exact World.Drifts.refl _
  unfold finishUserCancel shielded
  simp only [ends_bind, ends_update, ends_pure]
  refine Ends.mono reaps ?_ (fun _ _ drifts => (cancelling.drifts drifts).failing.abandoned)
  intro _ reaped drifts
  have cancelling₁ := cancelling.drifts drifts
  refine Ends.mono (awaits_waits reaped).drifting ?_
    (fun _ _ drifts => (cancelling₁.drifts drifts).failing.abandoned)
  intro _ rolled drifts
  have cancelling₂ := cancelling₁.drifts drifts
  refine Ends.mono (salvageUsageAfterFailure_drifting rolled) ?_
    (fun _ _ drifts => (cancelling₂.drifts drifts).failing.abandoned)
  intro _ salvaged drifts
  refine Ends.mono (finaliseCancelled_ends (cancelling₂.drifts drifts)) ?_ (fun _ _ abandoned => abandoned)
  intro _ ended abandoned
  exact Ends.mono (awaits_waits ended).drifting (fun _ _ last => abandoned.drifts last)
    (fun _ _ last => abandoned.drifts last)

/-- The world when the settlement of an error starts. -/
def World.settledAt (world : World) (clock : List Int) (deadline : Bool) : World :=
  { world with clock := clock, producerDeadline := deadline }

/-- Without an accepted Stop every arm of `run` settles an error, and none returns true. -/
theorem settle_ends {final : World → Prop} (unstopped : world.cancelRequested = false)
    (config : Config) (interrupt : Interrupt)
    (errors : ∀ (clock : List Int) (deadline cleanup : Bool) (problem : Problem),
      Ends (finishError cleanup problem) (fun _ after => final after) (fun _ after => final after)
        (world.settledAt clock deadline)) :
    Ends (settle config interrupt) (fun value after => value = false ∧ final after)
      (fun _ after => final after) world := by
  have here := errors world.clock world.producerDeadline
  have extended := errors world.clock true
  have returns : ∀ (middle : World) (cleanup : Bool) (problem : Problem),
      Ends (finishError cleanup problem) (fun _ after => final after) (fun _ after => final after) middle →
      Ends (do finishError cleanup problem; return false)
        (fun value after => value = false ∧ final after) (fun _ after => final after) middle :=
    fun middle cleanup problem ends => (ends_bind _ _).mpr
      (Ends.mono ends (fun _ _ last => ⟨rfl, last⟩) (fun _ _ last => last))
  have raises : ∀ (middle : World) (cleanup : Bool) (problem : Problem) (again : Interrupt),
      Ends (finishError cleanup problem) (fun _ after => final after) (fun _ after => final after) middle →
      Ends (do finishError cleanup problem; raise again)
        (fun value after => value = false ∧ final after) (fun _ after => final after) middle :=
    fun middle cleanup problem again ends => (ends_bind _ _).mpr
      (Ends.mono ends (fun _ _ last => last) (fun _ _ last => last))
  have typed : ∀ problem : Problem, Ends (do
      doWhen (problem.code = "answer_budget_exhausted".toList) extendDeadline
      finishError false problem
      return false) (fun value after => value = false ∧ final after) (fun _ after => final after)
      world := by
    intro problem
    rw [ends_bind, ends_doWhen]
    split
    · exact returns _ false problem (extended false problem)
    · exact returns _ false problem (here false problem)
  unfold settle
  rw [ends_bind, ends_observe, unstopped]
  cases interrupt with
  | cleanup =>
      simp only [ends_bind, ends_observe, unstopped, Bool.false_eq_true, ↓reduceIte]
      have later := errors world.clock.tail world.producerDeadline
      refine (ends_transition _).mpr ((ends_ite _ _ _).mpr ?_)
      split
      · exact returns _ true _ (later true deadlineProblem)
      · exact raises _ true _ _ (later true shutdownProblem)
  | cancelled cause =>
      simp only [Bool.false_and, Bool.false_eq_true, ↓reduceIte]
      rw [ends_bind, ends_observe, unstopped]
      exact raises _ false _ _ (here false shutdownProblem)
  | timeout =>
      refine (ends_bind _ _).mpr ((ends_update _).mpr ?_)
      exact returns _ false _ (extended false deadlineProblem)
  | app problem => exact typed problem
  | provider problem retryable => exact typed problem
  | other => exact returns _ false _ (here false internalProblem)

theorem World.Unsettled.settledAt (unsettled : world.Unsettled) (clock : List Int) (deadline : Bool) :
    (world.settledAt clock deadline).Unsettled := by
  have streaming := unsettled.streaming
  exact ⟨{ streaming with }, unsettled.uncommitted, unsettled.unsettled,
    unsettled.unfinalised, unsettled.unsent, unsettled.unminted, unsettled.accepted, unsettled.latched,
    unsettled.unstored, unsettled.whole⟩

/-- The arms settle an answer that was not committed: a Stop keeps the partial, an error ends it. -/
theorem settle_unsettled (unsettled : world.Unsettled) (config : Config) (interrupt : Interrupt) :
    Ends (settle config interrupt) (fun _ after => after.Abandoned) (fun _ after => after.Abandoned)
      world := by
  have uncommitted := unsettled.uncommitted
  cases stopped : world.cancelRequested with
  | true =>
      have cancels := finishUserCancel_ends unsettled stopped
      unfold settle
      rw [ends_bind, ends_observe, stopped, uncommitted]
      cases interrupt with
      | cleanup =>
          rw [ends_bind, ends_observe, stopped]
          exact cancels true
      | _ => exact cancels false
  | false =>
      refine Ends.mono (settle_ends stopped config interrupt fun clock deadline cleanup problem => ?_)
        (fun _ _ last => last.2) (fun _ _ last => last)
      exact finishError_unsettled (unsettled.settledAt clock deadline) stopped cleanup problem

theorem settle_sealed (sealed : world.Sealed message) (config : Config) (interrupt : Interrupt) :
    Ends (settle config interrupt)
      (fun value after => value = false ∧ after.Sealed message ∧ world.Undone after)
      (fun _ after => after.Sealed message ∧ world.Undone after) world := by
  refine settle_ends sealed.unstopped config interrupt fun clock deadline cleanup problem => ?_
  have ticks : world.Rests { world with clock := clock } := World.Rests.of_eq rfl
  have sealed' : (world.settledAt clock deadline).Sealed message :=
    (sealed.still ticks.still ticks.passes).settling world.settlingError deadline
  exact finishError_sealed sealed' cleanup problem

end LumenCopilot.Chat
