import LumenCopilot.Proof.Chat.Continuation

namespace LumenCopilot.Chat

open Python Library

variable {world : World} {faulty : World → Prop}

/-- The answer text is as before, and no text is buffered. -/
structure World.Holds (world after : World) : Prop where
  live : after.live = world.live
  closed : after.buffer.kind = none

theorem World.Holds.trans {middle after : World} (first : world.Holds middle)
    (second : middle.Holds after) : world.Holds after :=
  ⟨second.live.trans first.live, second.closed⟩

theorem World.Still.holds {after : World} (still : world.Still after)
    (closed : world.buffer.kind = none) : world.Holds after :=
  ⟨still.live, by rw [still.buffer, closed]⟩

theorem emit_holds (ready : world.Ready) (payload : Payload) (unended : payload.isTerminal = false)
    (other : payload.isText = false) :
    world.Flows faulty (emit payload) fun _ after => world.Holds after :=
  (emit_flows ready.streaming ready.flowing payload unended other).mono
    fun _ _ _ emitted => ⟨emitted.1.live, emitted.2.1⟩

/-- A handler that only waits and raises again keeps how its program ends. -/
theorem World.Flows.reraising {α : Type} {program : Coroutine α}
    {handler : Interrupt → Option (Coroutine α)} {returned : α → World → Prop}
    (flows : world.Flows (fun _ => True) program returned)
    (answers : ∀ interrupt answer, handler interrupt = some answer → ∀ middle : World,
      Ends answer (fun _ _ => False) (fun _ after => middle.Still after ∧ middle.Passes after) middle) :
    world.Flows (fun _ => True) (catching program handler) returned := by
  unfold World.Flows
  rw [ends_catching]
  refine Ends.mono flows (fun _ _ last => last) ?_
  rintro interrupt middle ⟨stops, -⟩
  cases handles : handler interrupt with
  | none => exact ⟨stops, fun _ => trivial⟩
  | some answer =>
      exact Ends.mono (answers interrupt answer handles middle) (fun _ _ never => never.elim)
        (fun _ _ still => ⟨stops.still still.1 still.2, fun _ => trivial⟩)

theorem ends_raising {α : Type} (world : World) (interrupt : Interrupt) :
    Ends (raise interrupt : Coroutine α) (fun _ _ => False)
      (fun _ after => world.Still after ∧ world.Passes after) world :=
  ⟨World.Still.refl world, World.Passes.refl world⟩

theorem ends_awaitRaising {α : Type} (world : World) (interrupt : Interrupt) :
    Ends (do awaits; raise interrupt : Coroutine α) (fun _ _ => False)
      (fun _ after => world.Still after ∧ world.Passes after) world := by
  refine (ends_bind _ _).mpr (Ends.mono (awaits_waits world) ?_ ?_)
  · exact fun _ after rests => ⟨rests.still, rests.passes⟩
  · exact fun _ after halts => ⟨halts.1.still, halts.1.passes⟩

/-- The events of a sandbox leave the answer text, and their ordinary errors are contained. -/
theorem publishCodeEvents_flows (events : List EventName) :
    ∀ world : World, world.Ready → world.buffer.kind = none →
      world.Flows (fun _ => True) (publishCodeEvents events) fun _ after => world.Holds after := by
  induction events with
  | nil => exact fun world ready closed => World.Flows.pure ready.streaming ⟨rfl, closed⟩
  | cons event rest ih =>
      intro world ready closed
      have empty := ready.streaming.closed.mp closed
      have kept : ∀ after, world.Sends (.event event) after → world.Goes after ∧ world.Holds after := by
        intro after sends
        refine ⟨sends.goes, ?_, by rw [sends.buffer, closed]⟩
        rw [after.live_of_empty (by rw [sends.buffer, empty]), sends.told, world.live_of_empty empty]
        rfl
      refine World.Flows.bind
        (show world.Flows (fun _ => True) _ fun _ after => world.Holds after from ?_) ?_
      · unfold World.Flows
        rw [ends_catching]
        refine Ends.mono (mintSend_ends ready.streaming empty world.partialAnswer world.answerOnWire
          (.event event) rfl ready.streaming.spoken ready.streaming.onWire
          (by simp) (by simp [Payload.isText])) (fun _ after sent => kept after sent.1) ?_
        rintro interrupt after ⟨stops, -, calm⟩
        cases interrupt with
        | cancelled cause => exact ⟨stops, fun _ => trivial⟩
        | _ => exact kept after (calm rfl (by simp))
      · intro _ middle goes holds
        exact (ih middle (goes.ready ready) holds.closed).mono fun _ _ _ last => holds.trans last

theorem runTool_flows (ready : world.Ready) (closed : world.buffer.kind = none) :
    world.Flows (fun _ => True) runTool fun _ after => world.Holds after := by
  unfold runTool
  have takes : world.Waits (transition fun world =>
      (.ok (world.tools.headD {}), { world with tools := world.tools.tail })) := World.Rests.of_eq rfl
  refine takes.then_flows ready.streaming ?_
  intro outcome started rests
  have ready' := rests.ready ready
  refine World.Flows.bind
    (show started.Flows (fun _ => True) _ fun _ after => started.Still after from ?_) ?_
  · refine ((awaits_waits started).flows ready'.streaming).reraising ?_
    intro interrupt answer handles middle
    cases interrupt with
    | cancelled cause =>
        obtain rfl := Option.some.inj handles
        exact ends_raising middle _
    | _ => cases handles
  intro _ executed goes still
  have holds := (rests.still.trans still).holds closed
  refine World.Flows.bind (publishCodeEvents_flows outcome.codeEvents executed (goes.ready ready')
    holds.closed) ?_
  intro _ published goes' holds'
  refine (awaits_waits published).then_flows goes'.streaming ?_
  intro _ after rests'
  exact World.Flows.pure (rests'.goes goes'.streaming).streaming
    ((holds.trans holds').trans (rests'.still.holds holds'.closed))

/-- The serial calls publish their events around the tools. -/
theorem runSerial_flows (config : Config) (calls : List ToolCall) :
    ∀ world : World, world.Ready → world.Flows (fun _ => True) (runSerial config calls)
      fun _ after => after.live = world.live := by
  induction calls with
  | nil => exact fun world ready => World.Flows.pure ready.streaming rfl
  | cons call rest ih =>
      intro world ready
      refine World.Flows.bind (checkCancelled_flows ready config) ?_
      intro _ first goes still
      have ready₁ := goes.ready ready
      refine World.Flows.bind (emit_holds ready₁ (.event .toolCall) rfl rfl) ?_
      intro _ called goes holds
      have ready₂ := goes.ready ready₁
      refine World.Flows.bind (checkCancelled_flows ready₂ config) ?_
      intro _ second goes still'
      have ready₃ := goes.ready ready₂
      have holds₃ := holds.trans (still'.holds holds.closed)
      refine World.Flows.bind (runTool_flows ready₃ holds₃.closed) ?_
      intro outcome ran goes holds'
      have ready₄ := goes.ready ready₃
      refine World.Flows.bind (checkCancelled_flows ready₄ config) ?_
      intro _ third goes still''
      have ready₅ := goes.ready ready₄
      refine (awaits_waits third).then_flows ready₅.streaming ?_
      intro _ logged rests
      have ready₆ := rests.ready ready₅
      refine World.Flows.bind (emit_holds ready₆ (.event .toolResult) rfl rfl) ?_
      intro _ shown goes holds''
      refine World.Flows.bind (ih shown (goes.ready ready₆)) ?_
      intro outcomes after goes' live
      refine World.Flows.pure goes'.streaming ?_
      rw [live, holds''.live, rests.still.live, still''.live, holds'.live, holds₃.live, still.live]

theorem collectResults_flows (config : Config) (calls : List ToolCall) :
    ∀ world : World, world.Ready → world.Flows (fun _ => True) (collectResults config calls)
      fun _ after => after.live = world.live := by
  induction calls with
  | nil => exact fun world ready => World.Flows.pure ready.streaming rfl
  | cons call rest ih =>
      intro world ready
      refine World.Flows.bind (checkCancelled_flows ready config) ?_
      intro _ first goes still
      have ready₁ := goes.ready ready
      have takes : first.Waits (transition fun world =>
          (.ok (world.tools.headD {}), { world with tools := world.tools.tail })) :=
        World.Rests.of_eq rfl
      refine takes.then_flows ready₁.streaming ?_
      intro outcome taken rests
      have ready₂ := rests.ready ready₁
      refine (awaits_waits taken).then_flows ready₂.streaming ?_
      intro _ ran rests'
      have ready₃ := rests'.ready ready₂
      refine World.Flows.bind (checkCancelled_flows ready₃ config) ?_
      intro _ second goes still'
      have ready₄ := goes.ready ready₃
      refine World.Flows.bind (emit_holds ready₄ (.event .toolResult) rfl rfl) ?_
      intro _ shown goes holds
      refine World.Flows.bind (ih shown (goes.ready ready₄)) ?_
      intro outcomes after goes' live
      refine World.Flows.pure goes'.streaming ?_
      rw [live, holds.live, still'.live, rests'.still.live, rests.still.live, still.live]

theorem publishToolCalls_flows (calls : List ToolCall) :
    ∀ world : World, world.Ready → world.Flows (fun _ => True) (publishToolCalls calls)
      fun _ after => after.live = world.live := by
  induction calls with
  | nil => exact fun world ready => World.Flows.pure ready.streaming rfl
  | cons call rest ih =>
      intro world ready
      refine World.Flows.bind (emit_holds ready (.event .toolCall) rfl rfl) ?_
      intro _ middle goes holds
      exact (ih middle (goes.ready ready)).mono fun _ _ _ live => live.trans holds.live

theorem runFanOut_flows (ready : world.Ready) (config : Config) (calls : List ToolCall) :
    world.Flows (fun _ => True) (runFanOut config calls) fun _ after => after.live = world.live := by
  refine World.Flows.bind (publishToolCalls_flows calls world ready) ?_
  intro _ called goes live
  have collects : called.Flows (fun _ => True)
      (catching (collectResults config calls) fun interrupt => some do
        awaits
        raise interrupt) fun _ after => after.live = called.live := by
    refine (collectResults_flows config calls called (goes.ready ready)).reraising ?_
    intro interrupt answer handles middle
    obtain rfl := Option.some.inj handles
    exact ends_awaitRaising middle interrupt
  refine World.Flows.bind collects ?_
  intro outcomes collected goes' live'
  refine (awaits_waits collected).then_flows goes'.streaming ?_
  intro _ after rests
  refine World.Flows.pure (rests.goes goes'.streaming).streaming ?_
  rw [rests.still.live, live', live]

/-- The tools of a turn leave the answer text. -/
theorem runToolBatch_flows (ready : world.Ready) (config : Config) (calls : List ToolCall) :
    world.Flows (fun _ => True) (runToolBatch config calls) fun _ after => after.live = world.live := by
  unfold runToolBatch
  refine World.Flows.ite ?_ (fun _ => runSerial_flows config calls world ready)
  intro _
  refine World.Flows.bind (runFanOut_flows ready config _) ?_
  intro fanned middle goes live
  refine World.Flows.bind (runSerial_flows config _ middle (goes.ready ready)) ?_
  intro serial after goes' live'
  exact World.Flows.pure goes'.streaming (live'.trans live)

/-- What the tool loop leaves on the wire. -/
def LoopEnd.Shown (ended : LoopEnd) (world : World) : Prop :=
  match ended with
  | .answered turn => world.live = turn.chunks.flatten ∧ world.buffer.kind = none
  | .asked _ => world.live = [] ∧ world.buffer.kind = none
  | .exhausted => world.live = []

theorem Turn.Complete.answers {turn : Turn} {seams : Seams} (complete : turn.Complete seams world)
    (plain : turn.toolCalls = []) : world.live = turn.chunks.flatten := by
  rw [complete.1.live, if_neg]
  exact fun narrating => complete.2 narrating plain

theorem Turn.Complete.narrates {turn : Turn} {number : Nat}
    (complete : turn.Complete { narrate := some number } world) (called : turn.toolCalls ≠ []) :
    world.live = [] := by
  rw [complete.1.live, if_pos]
  exact (complete.1.called called).resolve_left nofun

/-- Every turn of the loop starts without answer text. -/
theorem toolLoop_flows (config : Config) (turns : Nat) :
    ∀ (number external : Nat) (evidence : Evidence) (world : World), world.Ready → world.live = [] →
      world.Flows (fun _ => True) (toolLoop config turns number external evidence) fun ended after =>
        ended.1.Shown after := by
  induction turns with
  | zero => exact fun _ _ _ world ready silent => World.Flows.pure ready.streaming silent
  | succ turns ih =>
      intro number external evidence world ready silent
      refine World.Flows.bind (checkCancelled_flows ready config) ?_
      intro _ checked goes still
      have ready₁ := goes.ready ready
      refine (mayRefuse_waits checked).then_flows ready₁.streaming ?_
      intro _ fitted rests
      have ready₂ := rests.ready ready₁
      refine World.Flows.bind (emit_holds ready₂ (.event .step) rfl rfl) ?_
      intro _ stepped goes holds
      have ready₃ := goes.ready ready₂
      have silent₃ : stepped.live = [] := by rw [holds.live, rests.still.live, still.live, silent]
      refine World.Flows.bind
        (streamTurnResilient_flows ready₃ config { narrate := some number } true rfl silent₃) ?_
      intro turn streamed goes complete
      have ready₄ := goes.ready ready₃
      refine World.Flows.bind (emit_holds ready₄ (.event .step) rfl rfl) ?_
      intro _ closed goes holds'
      have ready₅ := goes.ready ready₄
      refine World.Flows.ite ?_ ?_
      · intro plain
        refine World.Flows.pure ready₅.streaming ⟨?_, holds'.closed⟩
        rw [holds'.live]
        exact complete.answers (List.isEmpty_iff.mp plain)
      · intro called
        have silent₅ : closed.live = [] := by
          rw [holds'.live]
          exact complete.narrates (by simpa using called)
        split
        · exact World.Flows.pure ready₅.streaming ⟨silent₅, holds'.closed⟩
        · refine World.Flows.ite (fun _ => World.Flows.pure ready₅.streaming silent₅) ?_
          intro _
          refine World.Flows.bind (checkCancelled_flows ready₅ config) ?_
          intro _ open' goes still'
          have ready₆ := goes.ready ready₅
          refine World.Flows.bind (runToolBatch_flows ready₆ config turn.toolCalls) ?_
          intro outcomes ran goes live
          have ready₇ := goes.ready ready₆
          refine World.Flows.bind (checkCancelled_flows ready₇ config) ?_
          intro _ again goes still''
          have ready₈ := goes.ready ready₇
          refine (mayRefuse_waits again).then_flows ready₈.streaming ?_
          intro _ after rests'
          refine ih _ _ _ after (rests'.ready ready₈) ?_
          rw [rests'.still.live, still''.live, live, still'.live, silent₅]

theorem synthesise_flows (ready : world.Ready) (config : Config) (silent : world.live = []) :
    world.Flows (fun _ => True) (synthesise config) fun turn after =>
      after.live = turn.chunks.flatten ∧ after.buffer.kind = none := by
  unfold synthesise
  refine World.Flows.bind (checkCancelled_flows ready config) ?_
  intro _ checked goes still
  have ready₁ := goes.ready ready
  refine (mayRefuse_waits checked).then_flows ready₁.streaming ?_
  intro _ fitted rests
  have ready₂ := rests.ready ready₁
  refine World.Flows.bind (emit_holds ready₂ (.event .step) rfl rfl) ?_
  intro _ stepped goes holds
  have ready₃ := goes.ready ready₂
  have silent₃ : stepped.live = [] := by rw [holds.live, rests.still.live, still.live, silent]
  refine World.Flows.bind (streamTurnResilient_flows ready₃ config {} true rfl silent₃) ?_
  intro turn streamed goes complete
  refine World.Flows.bind (emit_holds (goes.ready ready₃) (.event .step) rfl rfl) ?_
  intro _ after goes' holds'
  refine World.Flows.pure goes'.streaming ⟨?_, holds'.closed⟩
  rw [holds'.live, complete.1.live, complete.1.plain rfl]
  rfl

theorem cleanAnswer_waits (world : World) (config : Config) (permitted : List Text)
    (evidence : Evidence) (answer : Text) :
    world.Waits (cleanAnswer config permitted evidence answer) := by
  have rereads (condition : Bool) : world.Waits (doWhen condition do awaits; awaits) := by
    unfold World.Waits
    rw [ends_doWhen]
    split
    · exact (awaits_waits world).bind fun _ middle => awaits_waits middle
    · exact World.Rests.refl world
  exact (rereads _).bind fun _ middle => World.Waits.pure middle _

/-- The clean answer is the answer text of the wire. -/
theorem replaceAnswer_flows (ready : world.Ready) (config : Config) (answer : Text) (cleaned : Cleaned)
    (told : world.live = answer) :
    world.Flows (fun _ => True) (replaceAnswer config answer cleaned) fun _ after =>
      after.live = cleaned.text := by
  have replaces : world.Flows (fun _ => True) (doWhen (cleaned.text ≠ answer) do
      retractAnswer
      publishText config [cleaned.text]) fun _ after => after.live = cleaned.text := by
    refine World.Flows.doWhen ready.streaming ?_ ?_
    · intro _
      refine World.Flows.bind (retractAnswer_flows ready.streaming ready.flowing) ?_
      rintro _ middle goes ⟨shows, -⟩
      refine (publishText_flows config [cleaned.text] middle goes.streaming (goes.ready ready).flowing).mono ?_
      intro _ after _ shows'
      rw [shows'.live, shows.live]
      simp
    · intro same
      rw [told]
      symm
      simpa using same
  refine World.Flows.bind replaces ?_
  intro _ after goes live
  exact World.Flows.doWhen goes.streaming (fun _ => World.Flows.raise goes.streaming rfl) (fun _ => live)

/-- A blank answer gives way to the fallback, on the wire too. -/
theorem fallBack_flows (ready : world.Ready) (config : Config) (cleaned : Cleaned)
    (told : world.live = cleaned.text) :
    world.Flows (fun _ => True) (fallBack config cleaned) fun final after =>
      after.live = final.text := by
  unfold fallBack
  generalize noSourcesFallback = fallback
  refine World.Flows.ite ?_ (fun _ => World.Flows.pure ready.streaming told)
  intro _
  have clears : world.Flows (fun _ => True)
      (doWhen (world.answerOnWire || world.buffer.kind = some .answer) retractAnswer)
      fun _ after => after.live = [] := by
    refine World.Flows.doWhen ready.streaming ?_ ?_
    · intro _
      exact (retractAnswer_flows ready.streaming ready.flowing).mono
        fun _ _ _ retracted => retracted.1.live
    · intro silent
      simp only [Bool.or_eq_false_iff, decide_eq_false_iff_not] at silent
      have nothing : answerText world.sent = [] := by
        by_contra some'
        simp [ready.streaming.onWire.mpr some'] at silent
      unfold World.live
      rw [nothing, if_neg silent.2, List.append_nil]
  refine World.Flows.observe (World.Flows.bind clears ?_)
  intro _ middle goes silent
  refine World.Flows.bind (streamText_flows goes.streaming (goes.ready ready).flowing config .answer
    fallback) ?_
  intro _ after goes' shows
  refine World.Flows.pure goes'.streaming ?_
  rw [shows.live, silent]
  rfl

theorem emitAll_flows (payloads : List Payload) (events : ∀ payload ∈ payloads, ∃ name, payload = .event name) :
    ∀ world : World, world.Ready → world.buffer.kind = none →
      world.Flows (fun _ => True) (emitAll payloads) fun _ after => world.Holds after := by
  induction payloads with
  | nil => exact fun world ready closed => World.Flows.pure ready.streaming ⟨rfl, closed⟩
  | cons payload rest ih =>
      intro world ready closed
      obtain ⟨name, rfl⟩ := events payload List.mem_cons_self
      refine World.Flows.bind (emit_holds ready (.event name) rfl rfl) ?_
      intro _ middle goes holds
      refine (ih (fun other member => events other (List.mem_cons_of_mem _ member)) middle
        (goes.ready ready) holds.closed).mono ?_
      exact fun _ _ _ last => holds.trans last

end LumenCopilot.Chat
