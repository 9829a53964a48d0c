import LumenCopilot.Proof.Chat.Suspension

namespace LumenCopilot.Chat

open Python Library

/-- The stream before its terminal: the partial answer is the answer text of the history, and the
wire flag tells whether there is any. -/
structure World.Streaming (world : World) : Prop where
  wire : Wire world.seq world.sent
  unended : ∀ entry ∈ world.sent, entry.isTerminal = false
  spoken : world.partialAnswer.flatten = answerText world.sent
  onWire : world.answerOnWire = true ↔ answerText world.sent ≠ []
  texts : ∀ entry ∈ world.sent, ∀ text, entry.envelope.payload = .delta text → text ≠ []
  closed : world.buffer.kind = none ↔ world.buffer.parts = []
  chunks : ∀ part ∈ world.buffer.parts, part ≠ []

/-- The answer text that is on the wire or still buffered. -/
def World.live (world : World) : Text :=
  answerText world.sent ++
    if world.buffer.kind = some .answer then world.buffer.parts.flatten else []

/-- An accepted Stop does not refuse a publication. -/
def World.Flowing (world : World) : Prop :=
  world.cancelRequested = true → world.finalisingCancel = true ∨ world.answerCommitted = true

/-- The last publication changed the text and was lost. -/
def World.LastLost (world : World) : Prop :=
  world.buffer.parts = [] ∧ ∃ rest entry, world.sent = rest ++ [entry] ∧ Whole rest ∧
    entry.isText = true ∧ entry.taken = false ∧ answerText world.sent ≠ answerText rest

/-- A program of the stream returns. -/
structure World.Goes (world after : World) : Prop where
  streaming : after.Streaming
  passes : world.Passes after
  calm : after.cancelRequested = world.cancelRequested
  whole : Whole world.sent → Whole after.sent

/-- A program of the stream raises; at most its last publication was lost. -/
structure World.Stops (world after : World) : Prop where
  streaming : after.Streaming
  passes : world.Passes after
  whole : Whole world.sent → Whole after.sent ∨ after.LastLost

theorem World.Goes.refl {world : World} (streaming : world.Streaming) : world.Goes world :=
  ⟨streaming, World.Passes.refl world, rfl, id⟩

variable {middle after : World}

theorem World.Goes.trans {world : World} (first : world.Goes middle) (second : middle.Goes after) :
    world.Goes after :=
  ⟨second.streaming, first.passes.trans second.passes, second.calm.trans first.calm,
    fun whole => second.whole (first.whole whole)⟩

theorem World.Goes.stops {world : World} (first : world.Goes middle) (second : middle.Stops after) :
    world.Stops after :=
  ⟨second.streaming, first.passes.trans second.passes, fun whole => second.whole (first.whole whole)⟩

theorem World.Goes.stopped {world : World} (goes : world.Goes after) : world.Stops after :=
  ⟨goes.streaming, goes.passes, fun whole => Or.inl (goes.whole whole)⟩

theorem World.Goes.flowing {world : World} (goes : world.Goes after) (flowing : world.Flowing) :
    after.Flowing := by
  intro stopped
  rw [goes.passes.finalisingCancel, goes.passes.answerCommitted]
  exact flowing (goes.calm ▸ stopped)

/-- A world that stands still keeps streaming. -/
theorem World.Still.streaming {world : World} (still : world.Still after)
    (streaming : world.Streaming) : after.Streaming := by
  unfold World.Still at still
  rw [still]
  exact { streaming with }

theorem World.Still.live {world : World} (still : world.Still after) : after.live = world.live := by
  unfold World.Still at still
  rw [still]
  rfl

theorem World.Still.sent {world : World} (still : world.Still after) : after.sent = world.sent :=
  (congrArg World.sent still).trans rfl

theorem World.Still.seq {world : World} (still : world.Still after) : after.seq = world.seq :=
  (congrArg World.seq still).trans rfl

theorem World.Still.partialAnswer {world : World} (still : world.Still after) :
    after.partialAnswer = world.partialAnswer :=
  (congrArg World.partialAnswer still).trans rfl

theorem World.Still.answerOnWire {world : World} (still : world.Still after) :
    after.answerOnWire = world.answerOnWire :=
  (congrArg World.answerOnWire still).trans rfl

theorem World.Still.buffer {world : World} (still : world.Still after) :
    after.buffer = world.buffer :=
  (congrArg World.buffer still).trans rfl

theorem World.Still.emittedAnswer {world : World} (still : world.Still after) :
    after.emittedAnswer = world.emittedAnswer :=
  (congrArg World.emittedAnswer still).trans rfl

/-- A program that leaves the stream alone returns. -/
structure World.Rests (world after : World) : Prop where
  still : world.Still after
  passes : world.Passes after
  calm : after.cancelRequested = world.cancelRequested

/-- A program that leaves the stream alone raises; a Stop cancels the task. -/
structure World.Halts (world : World) (interrupt : Interrupt) (after : World) : Prop where
  still : world.Still after
  passes : world.Passes after
  cause : after.cancelRequested = true → world.cancelRequested = true ∨
    after.cancelling = true ∧ ∃ cause, interrupt = .cancelled cause

theorem World.Rests.refl (world : World) : world.Rests world :=
  ⟨World.Still.refl world, World.Passes.refl world, rfl⟩

theorem World.Rests.trans {world : World} (first : world.Rests middle) (second : middle.Rests after)
    : world.Rests after :=
  ⟨first.still.trans second.still, first.passes.trans second.passes, second.calm.trans first.calm⟩

variable {interrupt : Interrupt}

theorem World.Rests.halts {world : World} (first : world.Rests middle)
    (second : middle.Halts interrupt after) : world.Halts interrupt after :=
  ⟨first.still.trans second.still, first.passes.trans second.passes,
    fun stopped => (second.cause stopped).imp (fun before => first.calm ▸ before) id⟩

theorem World.Rests.halted {world : World} (rests : world.Rests after) (interrupt : Interrupt) :
    world.Halts interrupt after :=
  ⟨rests.still, rests.passes, fun stopped => Or.inl (rests.calm ▸ stopped)⟩

theorem World.Rests.goes {world : World} (rests : world.Rests after) (streaming : world.Streaming) :
    world.Goes after :=
  ⟨rests.still.streaming streaming, rests.passes, rests.calm, fun whole => rests.still.sent ▸ whole⟩

theorem World.Halts.stops {world : World} (halts : world.Halts interrupt after)
    (streaming : world.Streaming) : world.Stops after :=
  ⟨halts.still.streaming streaming, halts.passes, fun whole => Or.inl (halts.still.sent ▸ whole)⟩

/-- A change that only the environment or the accounts see. -/
theorem World.Rests.of_eq {world : World} (same : after = { world with
      script := after.script, clock := after.clock, provider := after.provider, tools := after.tools
      modelCalls := after.modelCalls, emittedNarration := after.emittedNarration
      route := after.route, usage := after.usage, salvage := after.salvage, rows := after.rows
      draftRows := after.draftRows, reports := after.reports }) : world.Rests after := by
  rw [same]
  exact ⟨rfl, ⟨rfl, rfl, rfl, rfl, rfl, rfl, rfl, rfl, rfl, id, id, Or.inl, fun _ => ⟨rfl, id⟩⟩, rfl⟩

variable {α β : Type} {world : World} {faulty : World → Prop}

/-- A suspension rests or halts, and no provider fault leaves it. -/
theorem World.suspend_waits (world : World) (outcome : Await) :
    match world.suspend outcome with
    | (none, resumed) => world.Rests resumed
    | (some interrupt, resumed) => world.Halts interrupt resumed ∧ interrupt.isProvider = false := by
  obtain ⟨still, passes, stopped, internal, -⟩ := world.suspend_spec outcome
  cases suspended : world.suspend outcome with
  | mk raised resumed =>
      rw [suspended] at still passes stopped internal
      cases raised with
      | none =>
          refine ⟨still, passes, Bool.eq_iff_iff.mpr ⟨fun now => ?_, passes.kept⟩⟩
          exact (stopped now).resolve_right (by simp)
      | some interrupt =>
          refine ⟨⟨still, passes, fun now => (stopped now).imp id ?_⟩, internal interrupt rfl⟩
          rintro ⟨raises, cancelling⟩
          exact ⟨cancelling, .stop, Option.some.inj raises⟩

/-- A program waits when it rests or halts without a provider fault. -/
def World.Waits (world : World) (program : Coroutine α) : Prop :=
  Ends program (fun _ after => world.Rests after)
    (fun interrupt after => world.Halts interrupt after ∧ interrupt.isProvider = false) world

variable {next : β → Coroutine α}

theorem World.Waits.bind {program : Coroutine β} (first : world.Waits program)
    (second : ∀ value (middle : World), middle.Waits (next value)) :
    world.Waits (program >>= next) := by
  refine (ends_bind program next).mpr (Ends.mono first ?_ fun _ _ halts => halts)
  intro value middle rests
  exact Ends.mono (second value middle) (fun _ after last => rests.trans last)
    (fun _ _ halts => ⟨rests.halts halts.1, halts.2⟩)

theorem World.Waits.pure (world : World) (value : α) : world.Waits (pure value) :=
  World.Rests.refl world

variable {raised : Interrupt → World → Prop}

theorem ends_awaitOn {returned : Bool → World → Prop} (outcome : Await) :
    Ends (awaitOn outcome) returned raised world ↔
      match world.suspend outcome with
      | (none, resumed) => returned outcome.flag resumed
      | (some interrupt, resumed) => raised interrupt resumed := by
  unfold awaitOn
  rw [ends_transition]
  cases world.suspend outcome with
  | mk interrupt resumed => cases interrupt <;> rfl

theorem ends_backplanePublish {returned : Unit → World → Prop} (outcome : Await)
    (envelope : Envelope) :
    Ends (backplanePublish outcome envelope) returned raised world ↔
      match world.publishes outcome envelope with
      | (none, published) => returned () published
      | (some interrupt, published) => raised interrupt published := by
  unfold backplanePublish
  rw [ends_transition]
  cases world.publishes outcome envelope with
  | mk interrupt published => cases interrupt <;> rfl

theorem awaitOn_waits (world : World) (outcome : Await) : world.Waits (awaitOn outcome) := by
  unfold World.Waits
  rw [ends_awaitOn]
  exact world.suspend_waits outcome

theorem nextAwait_waits (world : World) : world.Waits nextAwait :=
  World.Rests.of_eq rfl

theorem readClock_waits (world : World) : world.Waits readClock :=
  World.Rests.of_eq rfl

theorem awaitCall_waits (world : World) : world.Waits awaitCall :=
  (nextAwait_waits world).bind fun outcome middle => awaitOn_waits middle outcome

theorem awaits_waits (world : World) : world.Waits awaits :=
  (awaitCall_waits world).bind fun _ middle => World.Waits.pure middle ()

theorem mayRefuse_waits (world : World) : world.Waits mayRefuse := by
  have rests : world.Rests { world with script := world.script.tail } := World.Rests.of_eq rfl
  unfold World.Waits mayRefuse
  rw [ends_transition]
  split
  · next raised =>
      split at raised
      · cases raised
      · obtain ⟨-, rfl⟩ := Prod.mk.inj raised
        exact rests
  · next error after raised =>
      split at raised
      · obtain ⟨same, rfl⟩ := Prod.mk.inj raised
        obtain rfl := Except.error.inj same
        exact ⟨rests.halted _, rfl⟩
      · cases raised

/-- A commit is durable when it returns, and it may be durable when it raises. -/
theorem commitWith_ends {returned : Unit → World → Prop} (durable : World → World)
    (commits : ∀ resumed, world.Rests resumed → returned () (durable resumed))
    (fails : ∀ interrupt resumed, world.Halts interrupt resumed →
      raised interrupt resumed ∧ raised interrupt (durable resumed)) :
    Ends (commitWith durable) returned raised world := by
  unfold commitWith nextAwait
  simp only [ends_bind, ends_transition]
  generalize world.script.headD {} = outcome
  have asks : world.Rests { world with script := world.script.tail } := World.Rests.of_eq rfl
  have waits := World.suspend_waits { world with script := world.script.tail } outcome
  cases suspended : World.suspend outcome { world with script := world.script.tail } with
  | mk interrupt resumed =>
      rw [suspended] at waits
      cases interrupt with
      | none => exact commits resumed (asks.trans waits)
      | some interrupt =>
          have both := fails interrupt resumed (asks.halts waits.1)
          cases taken : outcome.taken with
          | true => exact both.2
          | false => exact both.1

theorem World.Halts.uncancelled (halts : world.Halts interrupt after)
    (other : ¬∃ cause, interrupt = .cancelled cause) : world.Rests after :=
  ⟨halts.still, halts.passes, Bool.eq_iff_iff.mpr
    ⟨fun now => (halts.cause now).resolve_right fun stop => other stop.2, halts.passes.kept⟩⟩

/-- An await that contains its ordinary errors rests unless it is cancelled. -/
theorem awaitContained_ends (world : World) :
    Ends awaitContained (fun _ after => world.Rests after)
      (fun interrupt after => world.Halts interrupt after ∧ ∃ cause, interrupt = .cancelled cause)
      world := by
  unfold awaitContained
  rw [ends_catching]
  refine Ends.mono (awaits_waits world) (fun _ _ rests => rests) ?_
  rintro interrupt after ⟨halts, -⟩
  cases interrupt with
  | cancelled cause => exact ⟨halts, cause, rfl⟩
  | _ => exact halts.uncancelled (by simp)

theorem awaitContained_waits (world : World) : world.Waits awaitContained := by
  refine Ends.mono (awaitContained_ends world) (fun _ _ rests => rests) ?_
  rintro interrupt after ⟨halts, cause, rfl⟩
  exact ⟨halts, rfl⟩

/-- A program flows when it returns with the property or raises, in a streaming world; a provider
fault leaves a world of its own kind. -/
def World.Flows (world : World) (faulty : World → Prop) (program : Coroutine α)
    (returned : α → World → Prop) : Prop :=
  Ends program (fun value after => world.Goes after ∧ returned value after)
    (fun interrupt after => world.Stops after ∧ (interrupt.isProvider = true → faulty after)) world

theorem World.Flows.pure (streaming : world.Streaming) {returned : α → World → Prop} {value : α}
    (holds : returned value world) : world.Flows faulty (pure value) returned :=
  (ends_pure value).mpr ⟨World.Goes.refl streaming, holds⟩

theorem World.Flows.bind {program : Coroutine β} {between : β → World → Prop}
    {returned : α → World → Prop} (first : world.Flows faulty program between)
    (second : ∀ value middle, world.Goes middle → between value middle →
      middle.Flows faulty (next value) returned) :
    world.Flows faulty (program >>= next) returned := by
  refine (ends_bind program next).mpr (Ends.mono first ?_ fun _ _ stops => stops)
  rintro value middle ⟨goes, holds⟩
  exact Ends.mono (second value middle goes holds)
    (fun _ after last => ⟨goes.trans last.1, last.2⟩) (fun _ _ stops => ⟨goes.stops stops.1, stops.2⟩)

theorem World.Flows.mono {program : Coroutine α} {returned returned' : α → World → Prop}
    (flows : world.Flows faulty program returned)
    (weaker : ∀ value after, world.Goes after → returned value after → returned' value after) :
    world.Flows faulty program returned' :=
  Ends.mono flows (fun value after last => ⟨last.1, weaker value after last.1 last.2⟩)
    (fun _ _ stops => stops)

theorem World.Flows.ite {condition : Prop} [Decidable condition] {first second : Coroutine α}
    {returned : α → World → Prop} (yes : condition → world.Flows faulty first returned)
    (no : ¬condition → world.Flows faulty second returned) :
    world.Flows faulty (if condition then first else second) returned := by
  by_cases holds : condition
  · rw [if_pos holds]
    exact yes holds
  · rw [if_neg holds]
    exact no holds

theorem World.Flows.observe {view : World → β} {returned : α → World → Prop}
    (second : world.Flows faulty (next (view world)) returned) :
    world.Flows faulty (observe view >>= next) returned :=
  (ends_bind _ next).mpr ((ends_observe view).mpr second)

theorem World.Flows.raise (streaming : world.Streaming) (internal : interrupt.isProvider = false)
    {returned : α → World → Prop} : world.Flows faulty (raise interrupt) returned :=
  (ends_raise interrupt).mpr ⟨(World.Goes.refl streaming).stopped, by simp [internal]⟩

/-- A program that waits flows, and the stream stands still. -/
theorem World.Waits.flows {program : Coroutine α} (waits : world.Waits program)
    (streaming : world.Streaming) :
    world.Flows faulty program fun _ after => world.Still after := by
  refine Ends.mono waits (fun _ _ rests => ⟨rests.goes streaming, rests.still⟩) ?_
  rintro interrupt after ⟨halts, internal⟩
  exact ⟨halts.stops streaming, by simp [internal]⟩

/-- A sequence that waits first flows like its continuation. -/
theorem World.Waits.then_flows {program : Coroutine β} {returned : α → World → Prop}
    (waits : world.Waits program) (streaming : world.Streaming)
    (second : ∀ value middle, world.Rests middle → middle.Flows faulty (next value) returned) :
    world.Flows faulty (program >>= next) returned := by
  refine (ends_bind program next).mpr (Ends.mono waits ?_ ?_)
  · intro value middle rests
    exact Ends.mono (second value middle rests)
      (fun _ _ last => ⟨(rests.goes streaming).trans last.1, last.2⟩)
      (fun _ _ stops => ⟨(rests.goes streaming).stops stops.1, stops.2⟩)
  · rintro interrupt after ⟨halts, internal⟩
    exact ⟨halts.stops streaming, by simp [internal]⟩

end LumenCopilot.Chat
