import LumenCopilot.Proof.Chat.Delivery

namespace LumenCopilot.Chat

open Python Library

variable {world : World}

/-- An answer is in progress: nothing is stored, no terminal is minted and no text was lost. -/
structure World.Fresh (world : World) : Prop where
  ready : world.Ready
  unminted : world.terminalSeq = none
  unstored : world.stored = none
  unaccepted : true ∉ world.stops
  whole : Whole world.sent

/-- The answer raised before it was known to be committed. -/
structure World.Unsettled (world : World) : Prop where
  streaming : world.Streaming
  uncommitted : world.answerCommitted = false
  unsettled : world.settlingError = false
  unfinalised : world.finalisingCancel = false
  unsent : world.terminalSent = false
  unminted : world.terminalSeq = none
  accepted : true ∈ world.stops → world.cancelRequested = true
  latched : world.completing = true → world.cancelRequested = false
  unstored : world.completing = false → world.stored = none
  whole : Whole world.sent ∨ world.LastLost

/-- The answer text that a stored message stands for: a question is delivered by its own event. -/
def StoredMessage.shown (message : StoredMessage) : Text :=
  if message.kind = .answer then message.content else []

/-- The answer is committed, and every text of it is on the wire. -/
structure World.Committed (message : StoredMessage) (world : World) : Prop where
  streaming : world.Streaming
  whole : Whole world.sent
  told : answerText world.sent = message.shown
  closed : world.buffer.kind = none
  committed : world.answerCommitted = true
  completing : world.completing = true
  unfinalised : world.finalisingCancel = false
  unsettled : world.settlingError = false
  unsent : world.terminalSent = false
  unminted : world.terminalSeq = none
  unstopped : world.cancelRequested = false
  unaccepted : true ∉ world.stops
  stored : world.stored = some message

theorem World.Goes.fresh {after : World} (goes : world.Goes after) (fresh : world.Fresh) :
    after.Fresh := by
  refine ⟨goes.ready fresh.ready, goes.passes.terminalSeq.trans fresh.unminted,
    goes.passes.stored.trans fresh.unstored, fun accepted => ?_, goes.whole fresh.whole⟩
  rcases goes.passes.accepted accepted with earlier | stopped
  · exact fresh.unaccepted earlier
  · simp [(goes.ready fresh.ready).unstopped] at stopped

/-- An answer has not reached its latch; a Stop may have been accepted. -/
structure World.Opening (world : World) : Prop where
  unlocked : world.locked = false
  unfinalised : world.finalisingCancel = false
  unminted : world.terminalSeq = none
  unstored : world.stored = none
  accepted : true ∈ world.stops → world.cancelRequested = true
  whole : Whole world.sent

theorem World.Fresh.opening (fresh : world.Fresh) : world.Opening :=
  ⟨fresh.ready.unlocked, fresh.ready.unfinalised, fresh.unminted, fresh.unstored,
    fun accepted => absurd accepted fresh.unaccepted, fresh.whole⟩

theorem World.unlocked_parts (unlocked : world.locked = false) : world.completing = false ∧
    world.settlingError = false ∧ world.answerCommitted = false ∧ world.terminalSent = false := by
  unfold World.locked at unlocked
  simp only [Bool.or_eq_false_iff] at unlocked
  exact ⟨unlocked.1.1.1, unlocked.1.1.2, unlocked.1.2, unlocked.2⟩

theorem World.Stops.unsettled {after : World} (stops : world.Stops after) (opening : world.Opening) :
    after.Unsettled := by
  obtain ⟨uncompleted, unsettled, uncommitted, unsent⟩ := World.unlocked_parts opening.unlocked
  have passes := stops.passes
  refine ⟨stops.streaming, passes.answerCommitted.trans uncommitted,
    passes.settlingError.trans unsettled, passes.finalisingCancel.trans opening.unfinalised,
    passes.terminalSent.trans unsent, passes.terminalSeq.trans opening.unminted, ?_, ?_, ?_,
    stops.whole opening.whole⟩
  · exact fun accepted => (passes.accepted accepted).elim
      (fun earlier => passes.kept (opening.accepted earlier)) id
  · intro completing
    simp [passes.completing, uncompleted] at completing
  · exact fun _ => passes.stored.trans opening.unstored

/-- A program that flows keeps the answer in progress, or raises before the commit. -/
theorem World.Flows.fresh {α : Type} {program : Coroutine α} {returned : α → World → Prop}
    (flows : world.Flows (fun _ => True) program returned) (fresh : world.Fresh) :
    Ends program (fun value after => after.Fresh ∧ world.Goes after ∧ returned value after)
      (fun _ after => after.Unsettled) world :=
  Ends.mono flows (fun _ _ last => ⟨last.1.fresh fresh, last.1, last.2⟩)
    (fun _ _ stops => stops.1.unsettled fresh.opening)

/-- The draft is written into the open transaction. -/
theorem persist_ends (fresh : world.Fresh) (message : StoredMessage) :
    Ends (persist message)
      (fun _ after => after.Fresh ∧ after.live = world.live ∧ after.buffer = world.buffer ∧
        after.draft = some message ∧ after.producerDeadline = world.producerDeadline)
      (fun _ after => after.Unsettled) world := by
  unfold persist
  refine (ends_bind _ _).mpr (Ends.mono (((awaits_waits world).flows fresh.ready.streaming).fresh fresh)
    ?_ (fun _ _ unsettled => unsettled))
  rintro _ after ⟨⟨⟨streaming, unlocked, unfinalised, unstopped⟩, unminted, unstored, unaccepted, whole⟩,
    goes, still⟩
  exact ⟨⟨⟨{ streaming with }, unlocked, unfinalised, unstopped⟩, unminted, unstored,
    unaccepted, whole⟩, still.live, still.buffer, rfl, goes.passes.producerDeadline⟩

/-- A committed answer stays so while its stream goes on without text. -/
theorem World.Committed.goes {message : StoredMessage} {after : World}
    (committed : world.Committed message) (goes : world.Goes after) (holds : world.Holds after) :
    after.Committed message := by
  have passes := goes.passes
  have locked : world.locked = true := by simp [World.locked, committed.completing]
  refine ⟨goes.streaming, goes.whole committed.whole, ?_, holds.closed,
    passes.answerCommitted.trans committed.committed, passes.completing.trans committed.completing,
    passes.finalisingCancel.trans committed.unfinalised,
    passes.settlingError.trans committed.unsettled, passes.terminalSent.trans committed.unsent,
    passes.terminalSeq.trans committed.unminted, goes.calm.trans committed.unstopped,
    fun accepted => committed.unaccepted ((passes.refused locked).2 accepted),
    passes.stored.trans committed.stored⟩
  rw [← after.live_of_empty (goes.streaming.closed.mp holds.closed), holds.live,
    world.live_of_empty (committed.streaming.closed.mp committed.closed), committed.told]

theorem recordUsageScopes_waits (world : World) : world.Waits recordUsageScopes :=
  (awaits_waits world).bind fun _ _ => World.Rests.of_eq rfl

/-- The commit stores the draft, or raises behind the latch. -/
theorem completeAnswer_ends (fresh : world.Fresh) (config : Config) (message : StoredMessage)
    (drafted : world.draft = some message) (closed : world.buffer.kind = none)
    (told : world.live = message.shown) :
    Ends (completeAnswer config)
      (fun _ after => after.Committed message ∧ after.producerDeadline = world.producerDeadline)
      (fun _ after => after.Unsettled) world := by
  unfold completeAnswer
  simp only [ends_bind, ends_update]
  refine Ends.mono ((checkCancelled_flows fresh.ready config).fresh fresh) ?_
    (fun _ _ unsettled => unsettled)
  rintro _ checked ⟨fresh', goes, still⟩
  obtain ⟨uncompleted, unsettled, uncommitted, unsent⟩ := World.unlocked_parts fresh'.ready.unlocked
  have streaming := fresh'.ready.streaming
  have live : answerText checked.sent = message.shown := by
    rw [← checked.live_of_empty (streaming.closed.mp (by rw [still.buffer, closed])), still.live, told]
  have same : checked.draft = some message := goes.passes.draft.trans drafted
  let latched : World := { checked with completing := true }
  have latchedStreaming : latched.Streaming :=
    { streaming with }
  have refuses : ∀ resumed, latched.Passes resumed →
      resumed.cancelRequested = false ∧ true ∉ resumed.stops := by
    intro resumed passes
    obtain ⟨flag, stops⟩ := passes.refused rfl
    exact ⟨flag.trans fresh'.ready.unstopped, fun accepted => fresh'.unaccepted (stops accepted)⟩
  refine @commitWith_ends latched _ _ _ ?_ ?_
  · intro resumed rests
    have passes := rests.passes
    have streaming' := rests.still.streaming latchedStreaming
    have sent : resumed.sent = checked.sent := rests.still.sent
    obtain ⟨unstopped, unaccepted⟩ := refuses resumed passes
    refine ⟨⟨⟨streaming'.wire, streaming'.unended, streaming'.spoken, streaming'.onWire,
      streaming'.texts, streaming'.closed, streaming'.chunks⟩, ?_, ?_, ?_, rfl, passes.completing,
      passes.finalisingCancel.trans fresh'.ready.unfinalised, passes.settlingError.trans unsettled,
      passes.terminalSent.trans unsent, passes.terminalSeq.trans fresh'.unminted, unstopped, unaccepted,
      ?_⟩, ?_⟩
    · exact sent ▸ fresh'.whole
    · exact (congrArg answerText sent).trans live
    · exact (congrArg TextCoalescer.kind rests.still.buffer).trans
        ((congrArg TextCoalescer.kind still.buffer).trans closed)
    · exact passes.draft.trans same
    · exact passes.producerDeadline.trans goes.passes.producerDeadline
  · intro interrupt resumed halts
    have passes := halts.passes
    have streaming' := halts.still.streaming latchedStreaming
    obtain ⟨unstopped, unaccepted⟩ := refuses resumed passes
    have unlatched : resumed.completing = false → resumed.stored = none := by
      intro open'
      have completing : resumed.completing = true := passes.completing
      simp [completing] at open'
    have unsettled' : resumed.Unsettled :=
      ⟨streaming', passes.answerCommitted.trans uncommitted, passes.settlingError.trans unsettled,
        passes.finalisingCancel.trans fresh'.ready.unfinalised, passes.terminalSent.trans unsent,
        passes.terminalSeq.trans fresh'.unminted, fun accepted => absurd accepted unaccepted,
        fun _ => unstopped, unlatched, Or.inl (halts.still.sent ▸ fresh'.whole)⟩
    refine ⟨unsettled', ⟨streaming'.wire, streaming'.unended, streaming'.spoken, streaming'.onWire,
      streaming'.texts, streaming'.closed, streaming'.chunks⟩, unsettled'.uncommitted,
      unsettled'.unsettled, unsettled'.unfinalised, unsettled'.unsent, unsettled'.unminted,
      unsettled'.accepted, unsettled'.latched, ?_, unsettled'.whole⟩
    intro open'
    have completing : resumed.completing = true := passes.completing
    simp [completing] at open'

end LumenCopilot.Chat
