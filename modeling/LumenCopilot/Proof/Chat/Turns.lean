import LumenCopilot.Proof.Chat.Publishing

namespace LumenCopilot.Chat

open Python Library Guard

/-- Every announced tool call is reported by a later event. -/
def Announced : List StreamEvent → Prop
  | [] => True
  | event :: rest =>
      (event.toolCallStarted = true → ∃ later ∈ rest, later.toolCalls ≠ []) ∧ Announced rest

theorem Announced.append (first second : List StreamEvent) (last : Announced second)
    (reported : ∀ event ∈ first, event.toolCallStarted = true → ∃ later ∈ second, later.toolCalls ≠ []) :
    Announced (first ++ second) := by
  induction first with
  | nil => exact last
  | cons event rest ih =>
      refine ⟨fun started => ?_, ih fun other member => reported other (List.mem_cons_of_mem _ member)⟩
      obtain ⟨later, member, called⟩ := reported event List.mem_cons_self started
      exact ⟨later, List.mem_append_right _ member, called⟩

theorem accumulateToolCall_ne_nil (fragment : Fragment) (calls : List (Nat × ToolCall)) :
    accumulateToolCall fragment calls ≠ [] := by
  unfold accumulateToolCall
  split
  · simp
  · split
    · simp
    · split <;> simp

theorem foldl_accumulate_ne_nil (fragments : List Fragment) :
    ∀ calls : List (Nat × ToolCall), calls ≠ [] ∨ fragments ≠ [] →
      fragments.foldl (fun calls fragment => accumulateToolCall fragment calls) calls ≠ [] := by
  induction fragments with
  | nil => exact fun calls some' => some'.resolve_right (by simp)
  | cons fragment rest ih => exact fun calls _ => ih _ (Or.inl (accumulateToolCall_ne_nil fragment calls))

/-- A completion that has a tool call reports it at its end. -/
theorem GatewayStream.read_reports (table : UnicodeTable) (parts : List Part) :
    ∀ stream : GatewayStream, stream.toolCalls ≠ [] →
      ∃ event ∈ stream.read table false parts, event.toolCalls ≠ [] := by
  induction parts with
  | nil =>
      intro stream some'
      refine ⟨_, List.mem_append_right _ List.mem_cons_self, ?_⟩
      simpa using some'
  | cons part rest ih =>
      intro stream some'
      obtain ⟨event, member, called⟩ := ih (stream.feed table part).2
        (foldl_accumulate_ne_nil part.fragments _ (Or.inl some'))
      exact ⟨event, List.mem_append_right _ member, called⟩

/-- An announcement of the gateway is followed by the tool calls. -/
theorem GatewayStream.read_announced (table : UnicodeTable) (parts : List Part) :
    ∀ stream : GatewayStream, Announced (stream.read table false parts) := by
  induction parts with
  | nil =>
      intro stream
      have silent : ∀ event ∈ stream.finish table, event.toolCallStarted = false := by
        intro event member
        unfold GatewayStream.finish at member
        rcases List.mem_append.mp member with flushed | reported
        · simp only [List.mem_ite_nil_left, List.mem_singleton] at flushed
          rw [flushed.2]
        · rw [List.mem_singleton.mp reported]
      have announced := Announced.append (stream.finish table) [] trivial fun event member started => by
        simp [silent event member] at started
      simpa [GatewayStream.read] using announced
  | cons part rest ih =>
      intro stream
      refine Announced.append _ _ (ih (stream.feed table part).2) ?_
      intro event member started
      refine GatewayStream.read_reports table rest _ (foldl_accumulate_ne_nil part.fragments _ (Or.inr ?_))
      rcases List.mem_append.mp member with text | signal
      · simp only [List.mem_ite_nil_left, List.mem_singleton] at text
        simp [text.2] at started
      · split at signal
        · next signals =>
            simp only [Bool.and_eq_true, Bool.not_eq_true', List.isEmpty_eq_false_iff] at signals
            exact signals.1
        · simp at signal

/-- The stream is before its completion latch, and no Stop was accepted. -/
structure World.Ready (world : World) : Prop where
  streaming : world.Streaming
  unlocked : world.locked = false
  unfinalised : world.finalisingCancel = false
  unstopped : world.cancelRequested = false

variable {world base : World} {faulty : World → Prop}

theorem World.Ready.flowing (ready : world.Ready) : world.Flowing := by
  intro stopped
  simp [ready.unstopped] at stopped

variable {after : World}

theorem World.Goes.ready (goes : world.Goes after) (ready : world.Ready) : after.Ready :=
  ⟨goes.streaming, goes.passes.locked.trans ready.unlocked,
    goes.passes.finalisingCancel.trans ready.unfinalised, goes.calm.trans ready.unstopped⟩

theorem World.Rests.ready (rests : world.Rests after) (ready : world.Ready) : after.Ready :=
  (rests.goes ready.streaming).ready ready

theorem checkAnswerDeadline_waits (world : World) (config : Config) :
    world.Waits (checkAnswerDeadline config) := by
  unfold checkAnswerDeadline
  refine (ends_bind _ _).mpr ((ends_observe _).mpr ?_)
  split
  · refine World.Waits.bind (readClock_waits world) ?_
    intro now middle
    unfold World.Waits
    rw [ends_ite]
    split
    · exact ⟨(World.Rests.refl middle).halted _, rfl⟩
    · exact World.Rests.refl middle
  · exact World.Rests.refl world

/-- A program quits when it halts, or when a poll of the Stop raises. -/
def World.Quits (world : World) (interrupt : Interrupt) (after : World) : Prop :=
  world.Halts interrupt after ∨
    world.Still after ∧ world.Passes after ∧ interrupt = .cancelled .stop

variable {middle : World}

theorem World.Rests.quits {interrupt : Interrupt} (rests : world.Rests middle)
    (quits : middle.Quits interrupt after) : world.Quits interrupt after := by
  rcases quits with halts | ⟨still, passes, stop⟩
  · exact Or.inl (rests.halts halts)
  · exact Or.inr ⟨rests.still.trans still, rests.passes.trans passes, stop⟩

theorem World.Quits.stops {interrupt : Interrupt} (quits : world.Quits interrupt after)
    (streaming : world.Streaming) : world.Stops after := by
  rcases quits with halts | ⟨still, passes, -⟩
  · exact halts.stops streaming
  · exact ⟨still.streaming streaming, passes, fun whole => Or.inl (still.sent ▸ whole)⟩

/-- A check of the Stop rests only when no Stop was accepted. -/
theorem checkCancelled_ends (ready : world.Ready) (config : Config) :
    Ends (checkCancelled config) (fun _ after => world.Rests after)
      (fun interrupt after => world.Quits interrupt after ∧ interrupt.isProvider = false) world := by
  have unlocked := ready.unlocked
  unfold World.locked at unlocked
  simp only [Bool.or_eq_false_iff] at unlocked
  unfold checkCancelled
  simp only [ends_bind, ends_observe, ends_ite, ready.unfinalised, unlocked.1.2, ready.unstopped,
    Bool.or_self, Bool.false_eq_true, ↓reduceIte]
  refine Ends.mono (awaitCall_waits world) ?_ (fun _ _ halts => ⟨Or.inl halts.1, halts.2⟩)
  intro polled middle rests
  split
  · simp only [ends_update, ends_raise]
    refine ⟨Or.inr ⟨?_, ?_, rfl⟩, rfl⟩
    · have still := rests.still
      unfold World.Still at still ⊢
      rw [still]
    · have passes := rests.passes
      refine ⟨passes.completing, passes.settlingError, passes.finalisingCancel,
        passes.answerCommitted, passes.terminalSent, passes.terminalSeq, passes.producerDeadline,
        passes.stored, passes.draft, fun _ => rfl, passes.lasting, fun _ => Or.inr rfl, ?_⟩
      simp [ready.unlocked]
  · refine Ends.mono (checkAnswerDeadline_waits middle config) ?_ ?_
    · exact fun _ after last => rests.trans last
    · exact fun _ _ halts => ⟨Or.inl (rests.halts halts.1), halts.2⟩

theorem checkCancelled_flows (ready : world.Ready) (config : Config) :
    world.Flows faulty (checkCancelled config) fun _ after => world.Still after := by
  refine Ends.mono (checkCancelled_ends ready config) ?_ ?_
  · exact fun _ after rests => ⟨rests.goes ready.streaming, rests.still⟩
  · rintro interrupt after ⟨quits, internal⟩
    exact ⟨quits.stops ready.streaming, by simp [internal]⟩

theorem claimModelCall_waits (world : World) (config : Config) :
    world.Waits (claimModelCall config) := by
  unfold claimModelCall
  refine World.Waits.bind (checkAnswerDeadline_waits world config) ?_
  intro _ middle
  have claims : middle.Waits (update fun world => { world with modelCalls := world.modelCalls + 1 }) :=
    World.Rests.of_eq rfl
  unfold World.Waits
  simp only [ends_bind, ends_observe, ends_ite, ends_raise]
  split
  · exact ⟨(World.Rests.refl middle).halted _, rfl⟩
  · split
    · rw [ends_ite]
      split
      · exact ⟨(World.Rests.refl middle).halted _, rfl⟩
      · exact claims
    · exact claims

theorem checkEvent_waits (world : World) (config : Config) : world.Waits (checkEvent config) := by
  unfold checkEvent World.Waits
  simp only [ends_bind, ends_observe, ends_ite, ends_raise]
  split
  · exact ⟨(World.Rests.refl world).halted _, rfl⟩
  · exact checkAnswerDeadline_waits world config

/-- An await whose cancellation is suppressed leaves the stream alone on both exits. -/
theorem awaitSuppressed_ends (world : World) :
    Ends awaitSuppressed (fun _ after => world.Still after ∧ world.Passes after)
      (fun interrupt after => world.Halts interrupt after ∧ interrupt.isProvider = false) world := by
  unfold awaitSuppressed
  rw [ends_catching]
  refine (awaits_waits world).mono (fun _ _ rests => ⟨rests.still, rests.passes⟩) ?_
  rintro interrupt after ⟨halts, internal⟩
  cases interrupt with
  | cancelled cause => exact ⟨halts.still, halts.passes⟩
  | _ => exact ⟨halts, internal⟩

/-- The checks that the pending task makes before it waits for an event. -/
def pollEvent (config : Config) : Coroutine Unit := do
  if ← observe World.cancelRequested then raise (.cancelled .stop)
  else
    checkAnswerDeadline config
    awaits

theorem pollEvent_waits (world : World) (config : Config) : world.Waits (pollEvent config) := by
  unfold pollEvent World.Waits
  simp only [ends_bind, ends_observe, ends_ite, ends_raise]
  split
  · exact ⟨(World.Rests.refl world).halted _, rfl⟩
  · exact (ends_bind _ _).mp
      ((checkAnswerDeadline_waits world config).bind fun _ middle => awaits_waits middle)

/-- A Stop that the reaped timer suppressed is raised before the next event. -/
theorem awaitEvent_flows (ready : world.Ready) (config : Config) :
    world.Flows faulty (awaitEvent config) fun _ after => world.Shows world.live after := by
  have polls : ∀ middle : World, world.Goes middle → world.Shows world.live middle →
      Ends (pollEvent config)
        (fun _ after => world.Goes after ∧ world.Shows world.live after)
        (fun interrupt after => world.Stops after ∧ (interrupt.isProvider = true → faulty after))
        middle := by
    intro middle goes shows
    refine Ends.mono (pollEvent_waits middle config) ?_ ?_
    · intro _ after rests
      refine ⟨goes.trans (rests.goes goes.streaming), shows.trans ?_⟩
      rw [← shows.live]
      exact rests.still.shows
    · rintro interrupt after ⟨halts, internal⟩
      exact ⟨goes.stops (halts.stops goes.streaming), by simp [internal]⟩
  have flushes : ∀ middle : World, world.Goes middle → world.Shows world.live middle →
      Ends flushText
        (fun _ after => Ends (pollEvent config)
          (fun _ after => world.Goes after ∧ world.Shows world.live after)
          (fun interrupt after => world.Stops after ∧ (interrupt.isProvider = true → faulty after)) after)
        (fun interrupt after => world.Stops after ∧ (interrupt.isProvider = true → faulty after))
        middle := by
    intro middle goes shows
    have flows : middle.Flows faulty _ _ :=
      flushText_flows goes.streaming (goes.ready ready).flowing
    refine Ends.mono flows ?_ (fun _ _ stops => ⟨goes.stops stops.1, stops.2⟩)
    rintro _ after ⟨goes', shows', -⟩
    exact polls after (goes.trans goes') (shows.trans (shows.live ▸ shows'))
  have refl : world.Goes world := World.Goes.refl ready.streaming
  have same : world.Shows world.live world := ⟨rfl, rfl⟩
  change Ends (do drainOnDeadline config; pollEvent config) _ _ world
  unfold drainOnDeadline
  simp only [ends_bind, ends_observe]
  split
  · exact polls world refl same
  · simp only [ends_bind, ends_ite]
    refine Ends.mono (readClock_waits world) ?_ ?_
    · intro now middle rests
      have goes := rests.goes ready.streaming
      split
      · exact flushes middle goes rests.still.shows
      · refine Ends.mono (awaitCall_waits middle) ?_ ?_
        · intro timer woken rests'
          have goes' := goes.trans (rests'.goes goes.streaming)
          have still := rests.still.trans rests'.still
          split
          · exact flushes woken goes' still.shows
          · refine Ends.mono (awaitSuppressed_ends woken) ?_ ?_
            · rintro _ reaped ⟨reapedStill, reapedPasses⟩
              have streaming := reapedStill.streaming goes'.streaming
              cases stopped : reaped.cancelRequested with
              | true =>
                  unfold pollEvent
                  simp only [ends_bind, ends_observe, ends_ite, stopped, ↓reduceIte, ends_raise]
                  refine ⟨goes'.stops ⟨streaming, reapedPasses, fun whole => Or.inl ?_⟩, by simp [Interrupt.isProvider]⟩
                  rw [reapedStill.sent]
                  exact whole
              | false =>
                  have calm : reaped.cancelRequested = woken.cancelRequested := by
                    rw [stopped, (goes'.ready ready).unstopped]
                  have rests'' : woken.Rests reaped := ⟨reapedStill, reapedPasses, calm⟩
                  exact polls reaped (goes'.trans (rests''.goes goes'.streaming))
                    (still.trans reapedStill).shows
            · rintro interrupt after ⟨halts, internal⟩
              exact ⟨goes'.stops (halts.stops goes'.streaming), by simp [internal]⟩
        · rintro interrupt after ⟨halts, internal⟩
          exact ⟨goes.stops (halts.stops goes.streaming), by simp [internal]⟩
    · rintro interrupt after ⟨halts, internal⟩
      exact ⟨halts.stops ready.streaming, by simp [internal]⟩

/-- The turn remembers whether it spoke. -/
theorem World.Goes.emitting (streaming : world.Streaming) (value : Bool) :
    world.Goes { world with emittedAnswer := value } :=
  ⟨{ streaming with },
    ⟨rfl, rfl, rfl, rfl, rfl, rfl, rfl, rfl, rfl, id, id, Or.inl, fun _ => ⟨rfl, id⟩⟩, rfl, id⟩

variable {α : Type} {program : Coroutine α} {returned : α → World → Prop}

theorem World.Flows.goes (goes : world.Goes middle) (flows : middle.Flows faulty program returned) :
    Ends program (fun value after => world.Goes after ∧ returned value after)
      (fun interrupt after => world.Stops after ∧ (interrupt.isProvider = true → faulty after)) middle :=
  Ends.mono flows (fun _ _ last => ⟨goes.trans last.1, last.2⟩)
    (fun _ _ stops => ⟨goes.stops stops.1, stops.2⟩)

theorem speakAnswer_flows (ready : world.Ready) (config : Config) (text : Text) :
    world.Flows faulty (speakAnswer config text) fun _ after =>
      after.live = world.live ++ text ∧ after.emittedAnswer = true := by
  have goes := World.Goes.emitting ready.streaming true
  have flows : World.Flows _ faulty _ _ :=
    streamText_flows goes.streaming (goes.ready ready).flowing config .answer text
  refine (ends_bind _ _).mpr ((ends_update _).mpr (World.Flows.goes goes (flows.mono ?_)))
  exact fun _ after _ shows => ⟨shows.live, shows.emitted⟩

theorem retractSpeculativeAnswer_flows (ready : world.Ready) :
    world.Flows faulty retractSpeculativeAnswer fun _ after => after.live = [] := by
  refine World.Flows.bind (retractAnswer_flows ready.streaming ready.flowing) ?_
  rintro _ middle goes ⟨shows, -⟩
  exact ⟨World.Goes.emitting goes.streaming false, shows.live⟩

theorem narrateAndCloseWindow_flows (ready : world.Ready) (config : Config) (turn : Nat) (text : Text) :
    world.Flows faulty (narrateAndCloseWindow config turn text) fun _ after =>
      world.Shows world.live after := by
  have rests : world.Rests { world with emittedNarration := true } := World.Rests.of_eq rfl
  have goes := rests.goes ready.streaming
  have flows : World.Flows _ faulty _ _ :=
    streamText_flows goes.streaming (goes.ready ready).flowing config (.narration turn) text
  refine (ends_bind _ _).mpr ((ends_update _).mpr (World.Flows.goes goes (flows.mono ?_)))
  intro _ after _ shows
  refine ⟨?_, shows.emitted⟩
  rw [shows.live]
  exact List.append_nil _

/-- What a turn has streamed so far: its answer text is live, or a tool call made it narration. -/
structure Turn.Told (turn : Turn) (seams : Seams) (world : World) : Prop where
  live : world.live = if turn.narrating then [] else turn.chunks.flatten
  unspoken : world.emittedAnswer = false → world.live = []
  plain : seams.narrate = none → turn.narrating = false
  called : turn.toolCalls ≠ [] → seams.narrate = none ∨ turn.narrating = true

theorem Turn.Told.shows {turn : Turn} {seams : Seams} (told : turn.Told seams world)
    (shows : world.Shows world.live after) : turn.Told seams after :=
  ⟨shows.live.trans told.live, fun unspoken => shows.live.trans (told.unspoken (shows.emitted ▸ unspoken)),
    told.plain, told.called⟩

/-- An event with a tool call is never answer text of a turn that narrates. -/
theorem classify_flows (ready : world.Ready) (config : Config) (seams : Seams) (event : StreamEvent)
    (turn : Turn) (told : turn.Told seams world) :
    world.Flows faulty (classify config seams event turn) fun classified after =>
      classified.Told seams after ∧ classified.toolCalls = turn.toolCalls ∧
        classified.chunks = turn.chunks ∧
        (event.toolCalls ≠ [] → seams.narrate = none ∨ classified.narrating = true) ∧
        (classified.narrating = true → turn.narrating = true ∨
          (event.toolCallStarted = true ∨ event.toolCalls ≠ [])) := by
  unfold classify
  cases narrates : seams.narrate with
  | none => exact World.Flows.pure ready.streaming ⟨told, rfl, rfl, fun _ => Or.inl rfl, Or.inl⟩
  | some number =>
      refine World.Flows.ite ?_ ?_
      · intro starts
        refine World.Flows.bind (retractSpeculativeAnswer_flows ready) ?_
        intro _ middle goes cleared
        refine World.Flows.bind
          (narrateAndCloseWindow_flows (goes.ready ready) config number turn.chunks.flatten) ?_
        intro _ after goes' shows
        refine World.Flows.pure goes'.streaming ?_
        have silent : after.live = [] := shows.live.trans cleared
        refine ⟨⟨silent, fun _ => silent, ?_, fun _ => Or.inr rfl⟩, rfl, rfl, fun _ => Or.inr rfl,
          fun _ => Or.inr ?_⟩
        · simp [narrates]
        · simp only [Bool.and_eq_true, Bool.or_eq_true, Bool.not_eq_true',
            List.isEmpty_eq_false_iff] at starts
          exact starts.1
      · intro other
        refine World.Flows.pure ready.streaming ⟨told, rfl, rfl, fun called => Or.inr ?_, Or.inl⟩
        by_contra plain
        exact other (by simp [called, plain])

/-- The text of an event follows the answer text unless the turn narrates. -/
theorem forward_flows (ready : world.Ready) (config : Config) (seams : Seams) (narrating : Bool)
    (text : Text) (speaks : seams.speak = true) (plain : seams.narrate = none → narrating = false) :
    world.Flows faulty (forward config seams narrating text) fun _ after =>
      after.live = (if narrating then world.live else world.live ++ text) ∧
        (after.emittedAnswer = true ∨
          narrating = true ∧ after.emittedAnswer = world.emittedAnswer) := by
  have speaking : world.Flows faulty (doWhen seams.speak (speakAnswer config text)) fun _ after =>
      after.live = world.live ++ text ∧ after.emittedAnswer = true := by
    rw [speaks]
    exact speakAnswer_flows ready config text
  unfold forward
  cases narrating with
  | false => exact speaking.mono fun _ after _ spoken => ⟨spoken.1, Or.inl spoken.2⟩
  | true =>
      cases narrates : seams.narrate with
      | none => simp [narrates] at plain
      | some number =>
          exact (narrateAndCloseWindow_flows ready config number text).mono
            fun _ after _ shows => ⟨shows.live, Or.inr ⟨rfl, shows.emitted⟩⟩

theorem addUsage_waits (world : World) (reported : Option TokenUsage) :
    world.Waits (addUsage reported) := by
  cases reported with
  | none => exact World.Rests.refl world
  | some usage => exact World.Rests.of_eq rfl

theorem receive_waits (world : World) (config : Config) (reported : Option TokenUsage) :
    world.Waits (receive config reported) := by
  cases reported with
  | none => exact World.Rests.refl world
  | some usage => exact World.Rests.of_eq rfl

/-- One event keeps what its turn has streamed. -/
theorem handleEvent_flows (ready : world.Ready) (config : Config) (seams : Seams) (event : StreamEvent)
    (turn : Turn) (speaks : seams.speak = true) (told : turn.Told seams world) :
    world.Flows faulty (handleEvent config seams event turn) fun handled after =>
      handled.Told seams after ∧ (turn.toolCalls ≠ [] ∨ event.toolCalls ≠ [] → handled.toolCalls ≠ []) ∧
        (handled.narrating = true → turn.narrating = true ∨
          (event.toolCallStarted = true ∨ event.toolCalls ≠ [])) := by
  unfold handleEvent
  refine World.Flows.bind (classify_flows ready config seams event turn told) ?_
  rintro classified middle goes ⟨told', sameCalls, sameChunks, called, narrated⟩
  have forwarded : middle.Flows faulty
      (doWhen (!event.text.isEmpty) (forward config seams classified.narrating event.text))
      fun _ after => after.live = (if classified.narrating then [] else
          (if event.text.isEmpty then classified.chunks else classified.chunks ++ [event.text]).flatten) ∧
        (after.emittedAnswer = false → after.live = []) := by
    refine World.Flows.doWhen goes.streaming ?_ ?_
    · intro some'
      refine (forward_flows (goes.ready ready) config seams classified.narrating event.text speaks
        told'.plain).mono ?_
      rintro _ after - ⟨live, emitted⟩
      have some'' : event.text.isEmpty = false := by simpa using some'
      rw [live, told'.live]
      constructor
      · cases classified.narrating <;> simp [some'']
      · intro unspoken
        rcases emitted with spoken | ⟨narrating, -⟩
        · simp [unspoken] at spoken
        · simp [narrating]
    · intro none'
      have none'' : event.text.isEmpty = true := by simpa using none'
      rw [none'']
      exact ⟨told'.live, told'.unspoken⟩
  refine World.Flows.bind forwarded ?_
  rintro _ spoken goes' ⟨live, unspoken⟩
  refine (addUsage_waits spoken event.usage).then_flows goes'.streaming ?_
  intro _ counted rests
  refine World.Flows.pure (rests.goes goes'.streaming).streaming ⟨⟨?_, ?_, told'.plain, ?_⟩, ?_, narrated⟩
  · rw [rests.still.live]
    exact live
  · rw [rests.still.live, rests.still.emittedAnswer]
    exact unspoken
  · intro some'
    by_cases fresh : event.toolCalls = []
    · rw [fresh] at some'
      exact told'.called some'
    · exact called fresh
  · intro some'
    by_cases fresh : event.toolCalls = []
    · rw [fresh, sameCalls]
      exact some'.resolve_right fun other => other fresh
    · simp [fresh]

/-- A provider fault leaves a calm stream, and a turn that did not speak left no answer text. -/
def World.Breaks (base after : World) : Prop :=
  base.Goes after ∧ (after.emittedAnswer = false → after.live = [])

/-- The turn that has ended: only a turn with tool calls narrates. -/
def Turn.Complete (turn : Turn) (seams : Seams) (world : World) : Prop :=
  turn.Told seams world ∧ (turn.narrating = true → turn.toolCalls ≠ [])

/-- The loop over the events keeps what the turn has streamed. -/
theorem consume_flows (config : Config) (seams : Seams) (broken : Option (Problem × Bool))
    (speaks : seams.speak = true) (base : World) (events : List StreamEvent) :
    ∀ (world : World) (turn : Turn), base.Goes world → world.Ready → turn.Told seams world →
      (broken = none → Announced events ∧ (turn.narrating = true →
        turn.toolCalls ≠ [] ∨ ∃ event ∈ events, event.toolCalls ≠ [])) →
      world.Flows base.Breaks (consume config seams broken events turn) fun turn after =>
        turn.Complete seams after := by
  induction events with
  | nil =>
      intro world turn before ready told reported
      refine World.Flows.bind (awaitEvent_flows ready config) ?_
      intro _ middle goes shows
      have told' := told.shows shows
      cases broken with
      | some fault =>
          refine (ends_raise _).mpr ⟨(World.Goes.refl goes.streaming).stopped, fun _ => ?_⟩
          exact ⟨before.trans goes, told'.unspoken⟩
      | none =>
          refine (checkEvent_waits middle config).then_flows goes.streaming ?_
          intro _ after rests
          refine World.Flows.pure (rests.goes goes.streaming).streaming ⟨told'.shows rests.still.shows, ?_⟩
          intro narrating
          simpa using (reported rfl).2 narrating
  | cons event rest ih =>
      intro world turn before ready told reported
      refine World.Flows.bind (awaitEvent_flows ready config) ?_
      intro _ arrived goes shows
      refine (receive_waits arrived config event.usage).then_flows goes.streaming ?_
      intro _ received logged
      refine (checkEvent_waits received config).then_flows (logged.goes goes.streaming).streaming ?_
      intro _ checked passed
      have rests := logged.trans passed
      have come := goes.trans (rests.goes goes.streaming)
      have told' := (told.shows shows).shows rests.still.shows
      refine World.Flows.bind (handleEvent_flows (come.ready ready) config seams event turn speaks told') ?_
      rintro handled after more ⟨kept, called, narrated⟩
      have far := come.trans more
      refine ih after handled (before.trans far) (far.ready ready) kept ?_
      intro whole
      obtain ⟨⟨announced, others⟩, pending⟩ := reported whole
      refine ⟨others, fun narrating => ?_⟩
      rcases narrated narrating with earlier | started | reports
      · rcases pending earlier with calls | ⟨other, member, calls⟩
        · exact Or.inl (called (Or.inl calls))
        · rcases List.mem_cons.mp member with rfl | later
          · exact Or.inl (called (Or.inr calls))
          · exact Or.inr ⟨other, later, calls⟩
      · exact Or.inr (announced started)
      · exact Or.inl (called (Or.inr reports))

theorem World.Stops.still (stops : world.Stops middle) (still : middle.Still after)
    (passes : middle.Passes after) : world.Stops after := by
  refine ⟨still.streaming stops.streaming, stops.passes.trans passes, fun whole => ?_⟩
  refine (stops.whole whole).imp (fun kept => still.sent ▸ kept) ?_
  rintro ⟨empty, lost⟩
  exact ⟨still.buffer ▸ empty, still.sent ▸ lost⟩

/-- A cleanup that only waits keeps how its program ends. -/
theorem World.Flows.ensuring {cleanup : Coroutine Unit}
    (flows : world.Flows faulty program returned) (waits : ∀ middle : World, middle.Waits cleanup)
    (stable : ∀ value (middle after : World), middle.Streaming → middle.Rests after →
      returned value middle → returned value after)
    (stays : ∀ middle after : World, middle.Streaming → middle.Rests after →
      faulty middle → faulty after) : world.Flows faulty (ensuring program cleanup) returned := by
  unfold World.Flows
  rw [ends_ensuring]
  refine Ends.mono flows ?_ ?_
  · rintro value middle ⟨goes, holds⟩
    refine Ends.mono (waits middle) ?_ ?_
    · intro _ after rests
      exact ⟨goes.trans (rests.goes goes.streaming), stable value middle after goes.streaming rests holds⟩
    · rintro interrupt after ⟨halts, internal⟩
      exact ⟨goes.stops (halts.stops goes.streaming), by simp [internal]⟩
  · rintro error middle ⟨stops, fault⟩
    refine Ends.mono (waits middle) ?_ ?_
    · intro _ after rests
      exact ⟨stops.still rests.still rests.passes,
        fun provider => stays middle after stops.streaming rests (fault provider)⟩
    · rintro interrupt after ⟨halts, internal⟩
      exact ⟨stops.still halts.still halts.passes, by simp [internal]⟩

/-- A completion streams into a turn, and a broken one leaves a world that a retraction repairs. -/
theorem streamOneTurn_flows (ready : world.Ready) (config : Config) (seams : Seams)
    (speaks : seams.speak = true) (silent : world.live = []) :
    world.Flows world.Breaks (streamOneTurn config seams) fun turn after => turn.Complete seams after := by
  have rests : world.Rests { world with provider := world.provider.tail } := World.Rests.of_eq rfl
  have goes := rests.goes ready.streaming
  have told : Turn.Told {} seams { world with provider := world.provider.tail } :=
    ⟨silent, fun _ => silent, fun _ => rfl, fun called => absurd rfl called⟩
  unfold streamOneTurn openCompletion
  refine (ends_bind _ _).mpr ((ends_transition _).mpr (World.Flows.goes goes ?_))
  generalize world.provider.headD {} = completion
  refine World.Flows.ensuring (consume_flows config seams completion.broken speaks world _ _ {} goes
    (goes.ready ready) told ?_) awaitContained_waits ?_ ?_
  · intro whole
    refine ⟨?_, fun narrating => nomatch narrating⟩
    unfold streamTools
    rw [whole]
    exact GatewayStream.read_announced config.table completion.parts {}
  · rintro turn middle after - rests' ⟨told', called⟩
    exact ⟨told'.shows rests'.still.shows, called⟩
  · rintro middle after streaming rests' ⟨goes', unspoken⟩
    refine ⟨goes'.trans (rests'.goes streaming), ?_⟩
    rw [rests'.still.emittedAnswer, rests'.still.live]
    exact unspoken

/-- The outcome of an attempt: a turn, or no answer text at all. -/
def Recovered (seams : Seams) (result : Except Problem Turn) (world : World) : Prop :=
  match result with
  | .ok turn => turn.Complete seams world
  | .error _ => world.live = []

theorem recoverAttempt_flows (ready : world.Ready) (problem : Problem) (seams : Seams)
    (unspoken : world.emittedAnswer = false → world.live = []) :
    world.Flows faulty (recoverAttempt problem) (Recovered seams) := by
  unfold recoverAttempt
  have cleared : world.Flows faulty (doWhen world.emittedAnswer retractSpeculativeAnswer)
      fun _ after => after.live = [] :=
    World.Flows.doWhen ready.streaming (fun _ => retractSpeculativeAnswer_flows ready) unspoken
  refine World.Flows.observe (World.Flows.bind cleared ?_)
  intro _ after goes silent
  exact World.Flows.pure goes.streaming silent

/-- An attempt that fails and may be repeated leaves no answer text. -/
theorem attemptTurn_flows (ready : world.Ready) (config : Config) (seams : Seams)
    (speaks : seams.speak = true) (silent : world.live = []) :
    world.Flows (fun _ => True) (attemptTurn config seams) (Recovered seams) := by
  unfold attemptTurn
  refine World.Flows.bind (checkCancelled_flows ready config) ?_
  intro _ checked goes still
  refine (claimModelCall_waits checked config).then_flows goes.streaming ?_
  intro _ claimed rests
  have goes' := goes.trans (rests.goes goes.streaming)
  have silent' : claimed.live = [] := by rw [rests.still.live, still.live, silent]
  have flows := streamOneTurn_flows (goes'.ready ready) config seams speaks silent'
  unfold World.Flows
  rw [ends_catching]
  refine (ends_bind _ _).mpr (Ends.mono flows ?_ ?_)
  · rintro turn after ⟨came, complete⟩
    exact ⟨came, complete⟩
  · rintro interrupt after ⟨stops, breaks⟩
    cases interrupt with
    | provider problem retryable =>
        cases retryable with
        | false => exact ⟨stops, fun _ => trivial⟩
        | true =>
            obtain ⟨came, unspoken⟩ := breaks rfl
            have recovers : after.Flows (fun _ => True) _ _ :=
              recoverAttempt_flows (came.ready (goes'.ready ready)) problem seams unspoken
            simp only [ends_bind, ends_observe, ends_ite, ends_raise]
            split
            · exact ⟨stops, fun _ => trivial⟩
            · exact World.Flows.goes came recovers
    | _ => exact ⟨stops, fun _ => trivial⟩

/-- The attempts on one route end with a turn, or without answer text. -/
theorem attemptTurns_flows (config : Config) (seams : Seams) (speaks : seams.speak = true)
    (attempts : Nat) :
    ∀ (last : Option Problem) (world : World), world.Ready → world.live = [] →
      world.Flows (fun _ => True) (attemptTurns config seams attempts last) (Recovered seams) := by
  induction attempts with
  | zero =>
      intro last world ready silent
      cases last with
      | none => exact World.Flows.raise ready.streaming rfl
      | some problem => exact World.Flows.pure ready.streaming silent
  | succ attempts ih =>
      intro last world ready silent
      have pauses : world.Flows (fun _ => True) (doWhen last.isSome awaits) fun _ after =>
          after.live = [] :=
        World.Flows.doWhen ready.streaming
          (fun _ => ((awaits_waits world).flows ready.streaming).mono
            fun _ _ _ still => still.live.trans silent)
          (fun _ => silent)
      refine World.Flows.bind pauses ?_
      intro _ middle goes silent'
      refine World.Flows.bind (attemptTurn_flows (goes.ready ready) config seams speaks silent') ?_
      intro result after goes' recovered
      cases result with
      | ok turn => exact World.Flows.pure goes'.streaming recovered
      | error problem => exact ih (some problem) after (goes'.ready (goes.ready ready)) recovered

/-- A candidate that does not resolve is skipped without a trace on the stream. -/
theorem resolveCandidate_waits (world : World) : world.Waits resolveCandidate := by
  unfold resolveCandidate World.Waits
  rw [ends_catching]
  refine (ends_bind _ _).mpr (Ends.mono (awaitCall_waits world) (fun _ _ rests => rests) ?_)
  rintro interrupt after ⟨halts, internal⟩
  cases interrupt with
  | app problem => exact halts.uncancelled (by simp)
  | provider problem retryable => simp [Interrupt.isProvider] at internal
  | _ => exact ⟨halts, internal⟩

/-- Every route of the fallback list starts without answer text. -/
theorem failover_flows (config : Config) (seams : Seams) (speaks : seams.speak = true)
    (candidates : List Text) :
    ∀ (last : Problem) (world : World), world.Ready → world.live = [] →
      world.Flows (fun _ => True) (failover config seams candidates last) fun turn after =>
        turn.Complete seams after := by
  induction candidates with
  | nil =>
      intro last world ready silent
      exact (ends_raise _).mpr ⟨(World.Goes.refl ready.streaming).stopped, fun _ => trivial⟩
  | cons candidate rest ih =>
      intro last world ready silent
      have advances : world.Rests { world with route := { world.route with fallbacks := rest } } :=
        World.Rests.of_eq rfl
      have ready' := advances.ready ready
      refine (ends_bind _ _).mpr ((ends_update _).mpr (World.Flows.goes
        (advances.goes ready.streaming) ?_))
      refine (resolveCandidate_waits _).then_flows ready'.streaming ?_
      intro resolved middle rests
      have readyMiddle := rests.ready ready'
      have silentMiddle : middle.live = [] := rests.still.live.trans (advances.still.live.trans silent)
      refine World.Flows.ite ?_ (fun _ => ih last middle readyMiddle silentMiddle)
      intro _
      have binds : middle.Waits (rebindRoute candidate) := World.Rests.of_eq rfl
      refine binds.then_flows readyMiddle.streaming ?_
      intro _ bound rests'
      refine (mayRefuse_waits bound).then_flows (rests'.ready readyMiddle).streaming ?_
      intro _ admitted rests''
      have readyHere := rests''.ready (rests'.ready readyMiddle)
      have silentHere : admitted.live = [] :=
        rests''.still.live.trans (rests'.still.live.trans silentMiddle)
      refine World.Flows.bind
        (attemptTurns_flows config seams speaks config.turnAttempts none admitted readyHere silentHere) ?_
      intro result after goes recovered
      cases result with
      | ok turn => exact World.Flows.pure goes.streaming recovered
      | error problem => exact ih problem after (goes.ready readyHere) recovered

theorem runAttempts_flows (ready : world.Ready) (config : Config) (seams : Seams)
    (allowFailover : Bool) (speaks : seams.speak = true) (silent : world.live = []) :
    world.Flows (fun _ => True) (runAttempts config seams allowFailover) fun turn after =>
      turn.Complete seams after := by
  unfold runAttempts
  refine World.Flows.bind
    (attemptTurns_flows config seams speaks config.turnAttempts none world ready silent) ?_
  intro result after goes recovered
  cases result with
  | ok turn => exact World.Flows.pure goes.streaming recovered
  | error problem =>
      refine World.Flows.ite ?_ ?_
      · intro _
        exact World.Flows.observe (failover_flows config seams speaks _ problem after
          (goes.ready ready) recovered)
      · intro _
        exact (ends_raise _).mpr ⟨(World.Goes.refl goes.streaming).stopped, fun _ => trivial⟩

/-- A deadline only renames the error that leaves the program. -/
theorem World.Flows.expiring (flows : world.Flows (fun _ => True) program returned)
    (deadline : Cause) (expired : Interrupt) :
    world.Flows (fun _ => True) (expiring deadline expired program) returned := by
  unfold Chat.expiring World.Flows
  rw [ends_catching]
  refine Ends.mono flows (fun _ _ last => last) ?_
  rintro interrupt after ⟨stops, -⟩
  cases interrupt with
  | cancelled cause =>
      simp only [ends_bind, ends_observe, ends_ite, ends_raise]
      split <;> exact ⟨stops, fun _ => trivial⟩
  | _ => exact ⟨stops, fun _ => trivial⟩

/-- A turn starts before it has spoken or narrated. -/
def World.turnStarted (world : World) : World :=
  { world with emittedNarration := false, emittedAnswer := false }

theorem World.Goes.turnStarted (streaming : world.Streaming) : world.Goes world.turnStarted := by
  have resets : world.Rests { world with emittedNarration := false } := World.Rests.of_eq rfl
  exact (resets.goes streaming).trans (World.Goes.emitting (resets.goes streaming).streaming false)

/-- A turn that starts without answer text streams its own text, or narrates it. -/
theorem streamTurnResilient_flows (ready : world.Ready) (config : Config) (seams : Seams)
    (allowFailover : Bool) (speaks : seams.speak = true) (silent : world.live = []) :
    world.Flows (fun _ => True) (streamTurnResilient config seams allowFailover) fun turn after =>
      turn.Complete seams after := by
  have goes := World.Goes.turnStarted ready.streaming
  have runs := runAttempts_flows (goes.ready ready) config seams allowFailover speaks silent
  unfold streamTurnResilient
  refine (ends_bind _ _).mpr ((ends_update _).mpr (World.Flows.goes goes ?_))
  exact World.Flows.ite (fun _ => runs.expiring _ _) (fun _ => runs)

end LumenCopilot.Chat
