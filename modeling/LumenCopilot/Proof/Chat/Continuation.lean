import LumenCopilot.Proof.Chat.Turns

namespace LumenCopilot.Chat

open Python Library

variable {world : World}

/-- A program hushes when it leaves the stream alone, whatever it raises. -/
def World.Hushes {α : Type} (world : World) (program : Coroutine α) : Prop :=
  Ends program (fun _ after => world.Rests after) world.Halts world

theorem World.Waits.hushes {α : Type} {program : Coroutine α} (waits : world.Waits program) :
    world.Hushes program :=
  Ends.mono waits (fun _ _ rests => rests) (fun _ _ halts => halts.1)

theorem World.Hushes.bind {α β : Type} {program : Coroutine β} {next : β → Coroutine α}
    (first : world.Hushes program) (second : ∀ value middle, world.Rests middle →
      middle.Hushes (next value)) : world.Hushes (program >>= next) := by
  refine (ends_bind program next).mpr (Ends.mono first ?_ fun _ _ halts => halts)
  intro value middle rests
  exact Ends.mono (second value middle rests) (fun _ _ last => rests.trans last)
    (fun _ _ halts => rests.halts halts)

/-- These are the seams of the continuation: its text is kept and not streamed. -/
def hushed : Seams := { speak := false }

theorem awaitEvent_hushes (config : Config) (closed : world.buffer.kind = none) :
    world.Hushes (awaitEvent config) := by
  have drains : world.Hushes (drainOnDeadline config) := by
    unfold drainOnDeadline TextCoalescer.flushDeadline World.Hushes
    simp only [ends_bind, ends_observe, closed, Option.isNone_none, ↓reduceIte]
    exact World.Rests.refl world
  exact drains.bind fun _ middle _ => (pollEvent_waits middle config).hushes

theorem handleEvent_hushes (config : Config) (event : StreamEvent) (turn : Turn) :
    world.Hushes (handleEvent config hushed event turn) := by
  have forwards : world.Hushes (doWhen (!event.text.isEmpty)
      (forward config hushed turn.narrating event.text)) := by
    unfold World.Hushes forward
    rw [ends_doWhen]
    cases turn.narrating <;> simp [hushed, World.Rests.refl]
  exact forwards.bind fun _ middle _ => (addUsage_waits middle event.usage).hushes.bind
    fun _ after _ => World.Rests.refl after

/-- The loop over the events of the continuation leaves the stream alone. -/
theorem consume_hushes (config : Config) (broken : Option (Problem × Bool)) (events : List StreamEvent) :
    ∀ (world : World) (turn : Turn), world.buffer.kind = none →
      world.Hushes (consume config hushed broken events turn) := by
  induction events with
  | nil =>
      intro world turn closed
      refine (awaitEvent_hushes config closed).bind fun _ middle _ => ?_
      cases broken with
      | some fault => exact (World.Rests.refl middle).halted _
      | none =>
          exact (checkEvent_waits middle config).hushes.bind fun _ after _ => World.Rests.refl after
  | cons event rest ih =>
      intro world turn closed
      refine (awaitEvent_hushes config closed).bind fun _ arrived rests => ?_
      refine (receive_waits arrived config event.usage).hushes.bind fun _ received logged => ?_
      refine (checkEvent_waits received config).hushes.bind fun _ checked rests' => ?_
      refine (handleEvent_hushes config event turn).bind fun handled after rests'' => ?_
      refine ih after handled ?_
      rw [rests''.still.buffer, rests'.still.buffer, logged.still.buffer, rests.still.buffer, closed]

/-- The generator is closed; a cancellation of the closing comes after the Stop that it replaces. -/
theorem streamOneTurn_hushes (config : Config) (closed : world.buffer.kind = none) :
    world.Hushes (streamOneTurn config hushed) := by
  have opens : world.Hushes openCompletion := World.Rests.of_eq rfl
  refine opens.bind fun completion started rests => ?_
  unfold World.Hushes
  rw [ends_ensuring]
  refine Ends.mono (consume_hushes config completion.broken _ started {}
    (rests.still.buffer ▸ closed)) ?_ ?_
  · intro turn middle rests'
    exact Ends.mono (awaitContained_waits middle) (fun _ _ last => rests'.trans last)
      (fun _ _ halts => rests'.halts halts.1)
  · intro interrupt middle halts
    refine Ends.mono (awaitContained_ends middle) ?_ ?_
    · intro _ after rests'
      refine ⟨halts.still.trans rests'.still, halts.passes.trans rests'.passes, fun stopped => ?_⟩
      refine (halts.cause (rests'.calm ▸ stopped)).imp id fun cause => ?_
      exact ⟨rests'.passes.lasting cause.1, cause.2⟩
    · rintro later after ⟨halts', cause, rfl⟩
      refine ⟨halts.still.trans halts'.still, halts.passes.trans halts'.passes, fun stopped => ?_⟩
      rcases halts'.cause stopped with earlier | now
      · exact (halts.cause earlier).imp id fun first => ⟨halts'.passes.lasting first.1, cause, rfl⟩
      · exact Or.inr now

theorem attemptTurn_quits (ready : world.Ready) (config : Config) (closed : world.buffer.kind = none)
    (unspoken : world.emittedAnswer = false) :
    Ends (attemptTurn config hushed) (fun _ after => world.Rests after) world.Quits world := by
  unfold attemptTurn
  refine (ends_bind _ _).mpr (Ends.mono (checkCancelled_ends ready config) ?_
    (fun _ _ quits => quits.1))
  intro _ checked rests
  refine (ends_bind _ _).mpr (Ends.mono (claimModelCall_waits checked config).hushes ?_
    (fun _ _ halts => rests.quits (Or.inl halts)))
  intro _ claimed rests'
  have came := rests.trans rests'
  have silent : claimed.emittedAnswer = false := by rw [came.still.emittedAnswer, unspoken]
  have same : claimed.buffer.kind = none := by rw [came.still.buffer, closed]
  rw [ends_catching]
  refine (ends_bind _ _).mpr (Ends.mono (streamOneTurn_hushes config same)
    (fun _ _ last => came.trans last) ?_)
  intro interrupt after halts
  cases interrupt with
  | provider problem retryable =>
      cases retryable with
      | false => exact Or.inl (came.halts halts)
      | true =>
          have rests'' := halts.uncancelled (by simp)
          have spoken : after.emittedAnswer = false := rests''.still.emittedAnswer.trans silent
          simp only [ends_bind, ends_observe, ends_ite, ends_raise, recoverAttempt, ends_doWhen, spoken,
            ends_pure, Bool.false_eq_true, ↓reduceIte]
          split
          · exact Or.inl (came.halts halts)
          · exact came.trans rests''
  | _ => exact Or.inl (came.halts halts)

/-- The attempts of the continuation leave the stream alone. -/
theorem attemptTurns_quits (config : Config) (attempts : Nat) :
    ∀ (last : Option Problem) (world : World), world.Ready → world.buffer.kind = none →
      world.emittedAnswer = false →
      Ends (attemptTurns config hushed attempts last) (fun _ after => world.Rests after)
        world.Quits world := by
  induction attempts with
  | zero =>
      intro last world ready closed unspoken
      cases last with
      | none => exact Or.inl ((World.Rests.refl world).halted _)
      | some problem => exact World.Rests.refl world
  | succ attempts ih =>
      intro last world ready closed unspoken
      have pauses : world.Hushes (doWhen last.isSome awaits) := by
        unfold World.Hushes
        rw [ends_doWhen]
        split
        · exact (awaits_waits world).hushes
        · exact World.Rests.refl world
      unfold attemptTurns
      refine (ends_bind _ _).mpr (Ends.mono pauses ?_ (fun _ _ halts => Or.inl halts))
      intro _ middle rests
      have attempt := attemptTurn_quits (rests.ready ready) config
        (by rw [rests.still.buffer, closed]) (by rw [rests.still.emittedAnswer, unspoken])
      refine (ends_bind _ _).mpr (Ends.mono attempt ?_ (fun _ _ quits => rests.quits quits))
      intro result after rests'
      have far := rests.trans rests'
      cases result with
      | ok turn => exact far
      | error problem =>
          refine Ends.mono (ih (some problem) after (far.ready ready)
            (by rw [far.still.buffer, closed]) (by rw [far.still.emittedAnswer, unspoken]))
            (fun _ _ last => far.trans last) (fun _ _ quits => far.quits quits)

theorem runAttempts_quits (ready : world.Ready) (config : Config) (closed : world.buffer.kind = none)
    (unspoken : world.emittedAnswer = false) :
    Ends (runAttempts config hushed false) (fun _ after => world.Rests after) world.Quits world := by
  unfold runAttempts
  refine (ends_bind _ _).mpr (Ends.mono
    (attemptTurns_quits config config.turnAttempts none world ready closed unspoken) ?_
    (fun _ _ quits => quits))
  intro result after rests
  cases result with
  | ok turn => exact rests
  | error problem => exact Or.inl (rests.halted _)

/-- The deadline of the turn becomes a typed error only when no Stop cancels the task. -/
theorem expiring_quits {α : Type} {program : Coroutine α} (problem : Problem)
    (ends : Ends program (fun _ after => world.Rests after) world.Quits world) :
    Ends (expiring .turnDeadline (.app problem) program) (fun _ after => world.Rests after)
      world.Quits world := by
  unfold expiring
  rw [ends_catching]
  refine Ends.mono ends (fun _ _ rests => rests) ?_
  intro interrupt after quits
  cases interrupt with
  | cancelled cause =>
      simp only [ends_bind, ends_observe, ends_ite, ends_raise]
      split
      · exact quits
      · next expired =>
          simp only [ne_eq, Bool.or_eq_true, decide_eq_true_eq, not_or, Bool.not_eq_true,
            not_not] at expired
          rcases quits with halts | ⟨-, -, stop⟩
          · refine Or.inl ⟨halts.still, halts.passes, fun stopped => Or.inl ?_⟩
            refine (halts.cause stopped).resolve_right fun cancelled => ?_
            simp [expired.1] at cancelled
          · simp [expired.2] at stop
  | _ => exact quits

/-- A typed error of the continuation leaves a calm stream. -/
theorem World.Quits.typed {after : World} {interrupt : Interrupt} (quits : world.Quits interrupt after)
    (other : ¬∃ cause, interrupt = .cancelled cause) : world.Rests after := by
  rcases quits with halts | ⟨-, -, stop⟩
  · exact halts.uncancelled other
  · exact absurd ⟨.stop, stop⟩ other

/-- The continuation keeps its text; a typed error drops it. -/
theorem continuation_flows (ready : world.Ready) (config : Config) (closed : world.buffer.kind = none) :
    world.Flows (fun _ => True)
      (catching (do
          return some (← streamTurnResilient config hushed false)) fun
        | .app _ | .provider _ _ => some (return none)
        | _ => none)
      fun _ after => after.live = world.live := by
  have goes := World.Goes.turnStarted ready.streaming
  have runs := runAttempts_quits (goes.ready ready) config closed rfl
  have ends : Ends (if config.turnTimeout then
        expiring .turnDeadline (.app turnTimeoutProblem) (runAttempts config hushed false)
        else runAttempts config hushed false)
      (fun _ after => world.turnStarted.Rests after) world.turnStarted.Quits world.turnStarted := by
    rw [ends_ite]
    split
    · exact expiring_quits turnTimeoutProblem runs
    · exact runs
  have rested : ∀ after, world.turnStarted.Rests after →
      world.Goes after ∧ after.live = world.live :=
    fun after rests => ⟨goes.trans (rests.goes goes.streaming), rests.still.live⟩
  unfold World.Flows streamTurnResilient
  rw [ends_catching]
  simp only [ends_bind, ends_update, ends_pure]
  refine Ends.mono ends (fun _ after rests => rested after rests) ?_
  intro interrupt after quits
  cases interrupt with
  | app problem => exact rested after (quits.typed (by simp))
  | provider problem retryable => exact rested after (quits.typed (by simp))
  | _ => exact ⟨goes.stops (quits.stops goes.streaming), fun _ => trivial⟩

/-- The continued answer is on the wire as it is kept. -/
theorem continueAnswer_flows (ready : world.Ready) (config : Config) (turn : Turn)
    (closed : world.buffer.kind = none) (told : world.live = turn.chunks.flatten) :
    world.Flows (fun _ => True) (continueAnswer config turn) fun turn after =>
      after.live = turn.chunks.flatten := by
  unfold continueAnswer
  refine World.Flows.ite ?_ (fun _ => World.Flows.pure ready.streaming told)
  intro _
  refine (mayRefuse_waits world).then_flows ready.streaming ?_
  intro _ asked rests
  have closed' : asked.buffer.kind = none := by rw [rests.still.buffer, closed]
  refine World.Flows.bind (continuation_flows (rests.ready ready) config closed') ?_
  intro continued after goes live
  have told' : after.live = turn.chunks.flatten := by rw [live, rests.still.live, told]
  cases continued with
  | none => exact World.Flows.pure goes.streaming told'
  | some extra =>
      have ready' := goes.ready (rests.ready ready)
      refine World.Flows.bind (publishText_flows config extra.chunks after ready'.streaming
        ready'.flowing) ?_
      intro _ last goes' shows
      refine World.Flows.pure goes'.streaming ?_
      rw [shows.live, told']
      simp

end LumenCopilot.Chat
