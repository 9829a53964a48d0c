import LumenCopilot.Proof.Chat.Settling

namespace LumenCopilot.Chat

open Python Library

variable {world : World} {message : StoredMessage}

/-- A stream that starts; a Stop may have been accepted before. -/
structure World.Starting (config : Config) (world : World) : Prop where
  streaming : world.Streaming
  opening : world.Opening
  closed : world.buffer.kind = none
  silent : world.live = []
  bounded : world.producerDeadline = (config.turnTimeout && config.terminalPublishMargin)

theorem World.Starting.goes {config : Config} {after : World} (starting : world.Starting config)
    (goes : world.Goes after) (holds : world.Holds after) : after.Starting config := by
  obtain ⟨unlocked, unfinalised, unminted, unstored, accepted, whole⟩ := starting.opening
  have passes := goes.passes
  refine ⟨goes.streaming, ⟨passes.locked.trans unlocked, passes.finalisingCancel.trans unfinalised,
    passes.terminalSeq.trans unminted, passes.stored.trans unstored, ?_, goes.whole whole⟩,
    holds.closed, holds.live.trans starting.silent, passes.producerDeadline.trans starting.bounded⟩
  exact fun accepted' => (passes.accepted accepted').elim (fun earlier => passes.kept (accepted earlier)) id

theorem World.Starting.fresh {config : Config} (starting : world.Starting config)
    (unstopped : world.cancelRequested = false) : world.Fresh := by
  refine ⟨⟨starting.streaming, starting.opening.unlocked, starting.opening.unfinalised, unstopped⟩,
    starting.opening.unminted, starting.opening.unstored, fun accepted => ?_, starting.opening.whole⟩
  exact absurd (unstopped.symm.trans (starting.opening.accepted accepted)) (by simp)

/-- The `start` of a stream is published although a Stop was accepted. -/
theorem emitStart_ends {config : Config} (starting : world.Starting config) :
    Ends (emit .start) (fun _ after => after.Starting config) (fun _ after => after.Unsettled) world := by
  have streaming := starting.streaming
  have empty := streaming.closed.mp starting.closed
  have sends := mintSend_ends streaming empty world.partialAnswer world.answerOnWire .start rfl
    streaming.spoken streaming.onWire (fun _ other => nomatch other) (fun text => nomatch text)
  unfold emit publish publishOn
  rw [ends_bind, ends_nextSeq starting.closed empty]
  simp only [ends_bind, ends_observe, ends_ite, ne_eq, not_true_eq_false, decide_false, Bool.and_false,
    Bool.false_eq_true, ↓reduceIte]
  refine (ends_bind _ _).mp ((ends_transition _).mp ((ends_bind _ _).mp (Ends.mono sends ?_ ?_)))
  · rintro _ after ⟨⟨goes, buffer, -, told⟩, -⟩
    refine starting.goes goes ⟨?_, by rw [buffer, starting.closed]⟩
    rw [after.live_of_empty (by rw [buffer, empty]), told, world.live_of_empty empty]
    rfl
  · rintro interrupt after ⟨stops, -⟩
    exact stops.unsettled starting.opening

theorem checkStart_waits (world : World) (config : Config) : world.Waits (checkStart config) := by
  unfold checkStart
  cases config.answerDeadline with
  | none => exact World.Rests.refl world
  | some deadline =>
      refine (readClock_waits world).bind fun now middle => ?_
      unfold World.Waits
      rw [ends_doWhen]
      split
      · exact ⟨(World.Rests.refl middle).halted _, rfl⟩
      · exact World.Rests.refl middle

theorem World.Broken.drifts {quiet : StoredMessage → Bool} {after : World} (broken : world.Broken quiet)
    (drifts : world.Drifts after) : after.Broken quiet := by
  refine broken.imp (fun unsettled => unsettled.drifts drifts) ?_
  rintro ⟨message, answered, sealed, loud⟩
  refine ⟨message, answered, sealed.drifts drifts, ?_⟩
  rw [drifts.1.sent]
  exact loud

/-- A release that follows the answer must return too. -/
def releasing (quiet : StoredMessage → Bool) (release : Await) (message : StoredMessage) : Bool :=
  quiet message && release.ending = none

theorem World.Broken.releasing {quiet : StoredMessage → Bool} (broken : world.Broken quiet)
    (release : Await) : world.Broken (releasing quiet release) := by
  refine broken.imp id ?_
  rintro ⟨message, answered, sealed, loud⟩
  exact ⟨message, answered, sealed, fun done => by simp [Chat.releasing, loud done]⟩

/-- A release keeps how the answer ended, and its own error breaks it. -/
theorem awaitOn_answered {quiet : StoredMessage → Bool} (answered : world.Answered quiet)
    (release : Await) :
    Ends (awaitOn release) (fun _ after => after.Answered (releasing quiet release))
      (fun _ after => after.Broken (releasing quiet release)) world := by
  obtain ⟨message, kind, sealed, quietly⟩ := answered
  refine Ends.mono (awaitOn_sealed sealed release) ?_ ?_
  · rintro _ after ⟨sealed', resumes, -, -⟩
    exact ⟨message, kind, sealed', by simp [releasing, quietly, resumes]⟩
  · rintro interrupt after ⟨sealed', raises, -, -⟩
    obtain ⟨fault, is, -⟩ := Option.map_eq_some_iff.mp raises
    exact Or.inr ⟨message, kind, sealed', fun _ => by simp [releasing, is]⟩

theorem awaitOn_broken {quiet : StoredMessage → Bool} (broken : world.Broken quiet) (release : Await) :
    Ends (awaitOn release) (fun _ after => after.Broken (releasing quiet release))
      (fun _ after => after.Broken (releasing quiet release)) world :=
  Ends.mono (awaitOn_waits world release).drifting
    (fun _ _ drifts => (broken.drifts drifts).releasing release)
    (fun _ _ drifts => (broken.drifts drifts).releasing release)

/-- The guarded block of `run` ends with an answer, or it is broken. -/
theorem produce_ends {config : Config} (starting : world.Starting config) (permitted : List Text)
    (aftermath : Aftermath) :
    Ends (produce config permitted aftermath)
      (fun _ after => after.Answered (releasing (aftermath.concludes config) aftermath.sessionClose))
      (fun _ after => after.Broken (releasing (aftermath.concludes config) aftermath.sessionClose))
      world := by
  unfold produce
  rw [ends_bind]
  refine Ends.mono (ends_unsettled (emitStart_ends starting)) ?_ (fun _ _ broken => broken)
  intro _ started starting₁
  rw [ends_bind]
  cases stopped : started.cancelRequested with
  | true =>
      have unsettled := (World.Goes.refl starting₁.streaming).stopped.unsettled starting₁.opening
      unfold checkCancelled
      simp only [ends_bind, ends_observe, ends_ite, unsettled.unfinalised, unsettled.uncommitted, stopped,
        Bool.or_self, Bool.false_eq_true, ↓reduceIte, ends_raise]
      exact Or.inl unsettled
  | false =>
      have fresh₁ := starting₁.fresh stopped
      refine Ends.mono (ends_unsettled ((checkCancelled_flows fresh₁.ready config).fresh fresh₁)) ?_
        (fun _ _ broken => broken)
      rintro _ checked ⟨fresh₂, goes₂, still₂⟩
      have opens : checked.Flows (fun _ => True) (do checkStart config; awaits) fun _ after =>
          checked.Still after :=
        ((checkStart_waits checked config).bind fun _ middle => awaits_waits middle).flows
          fresh₂.ready.streaming
      rw [← bind_assoc, ends_bind]
      refine Ends.mono (ends_unsettled (opens.fresh fresh₂)) ?_ (fun _ _ broken => broken)
      rintro _ opened ⟨fresh₃, goes₃, still₃⟩
      have answers := answer_ends fresh₃ config permitted aftermath
        (by rw [still₃.live, still₂.live, starting₁.silent])
        (by rw [goes₃.passes.producerDeadline, goes₂.passes.producerDeadline, starting₁.bounded])
      have restores : Ends (restoringContext config (answer config permitted aftermath))
          (fun _ after => after.Answered (aftermath.concludes config))
          (fun _ after => after.Broken (aftermath.concludes config)) opened := by
        unfold restoringContext
        rw [ends_catching]
        refine Ends.mono answers (fun _ _ answered => answered) ?_
        intro interrupt after broken
        cases interrupt with
        | app problem =>
            have raises := Ends.mono (ends_awaitRaising after (.app problem))
              (fun (_ : Unit) last never => (never.elim : last.Answered (aftermath.concludes config)))
              (fun _ _ drifts => broken.drifts drifts)
            cases rejected : (config.restoresContext && problem.code = "context_too_large".toList) with
            | true => simpa only [rejected, ↓reduceIte] using raises
            | false => simpa only [rejected, Bool.false_eq_true, ↓reduceIte] using broken
        | _ => exact broken
      rw [ends_ensuring]
      refine Ends.mono restores ?_ ?_
      · intro _ after answered
        exact (ends_bind _ _).mpr (awaitOn_answered answered aftermath.sessionClose)
      · intro interrupt after broken
        exact (ends_bind _ _).mpr (awaitOn_broken broken aftermath.sessionClose)

/-- The run ended, and its success is the one that the suspensions behind the commit decide. -/
def World.Ended (quiet : StoredMessage → Bool) (success : Bool) (world : World) : Prop :=
  world.Abandoned ∨ ∃ message : StoredMessage, message.kind ≠ .cancelled ∧ world.Sealed message ∧
    ((∃ entry ∈ world.sent, entry.isDone = true) → success = quiet message)

theorem settle_broken {quiet : StoredMessage → Bool} (broken : world.Broken quiet) (config : Config)
    (interrupt : Interrupt) :
    Ends (settle config interrupt) (fun success after => after.Ended quiet success)
      (fun _ after => after.Ended quiet false) world := by
  rcases broken with unsettled | ⟨message, kind, sealed, loud⟩
  · exact Ends.mono (settle_unsettled unsettled config interrupt) (fun _ _ abandoned => Or.inl abandoned)
      (fun _ _ abandoned => Or.inl abandoned)
  · have ended : ∀ after : World, after.Sealed message → world.Undone after →
        after.Ended quiet false := by
      intro after sealed' undone
      refine Or.inr ⟨message, kind, sealed', ?_⟩
      rintro ⟨entry, member, done⟩
      exact (loud ⟨entry, undone entry member done, done⟩).symm
    refine Ends.mono (settle_sealed sealed config interrupt) ?_ (fun _ after last => ended after last.1 last.2)
    rintro success after ⟨rfl, sealed', undone⟩
    exact ended after sealed' undone

theorem awaitOn_ended {quiet : StoredMessage → Bool} {success : Bool}
    (ended : world.Ended quiet success) (release : Await) :
    Ends (awaitOn release) (fun _ after => after.Ended (releasing quiet release) success)
      (fun _ after => after.Ended (releasing quiet release) false) world := by
  rcases ended with abandoned | ⟨message, kind, sealed, succeeds⟩
  · exact Ends.mono (awaitOn_waits world release).drifting
      (fun _ _ drifts => Or.inl (abandoned.drifts drifts))
      (fun _ _ drifts => Or.inl (abandoned.drifts drifts))
  · refine Ends.mono (awaitOn_sealed sealed release) ?_ ?_
    · rintro _ after ⟨sealed', resumes, still, -⟩
      refine Or.inr ⟨message, kind, sealed', fun done => ?_⟩
      rw [succeeds (still.sent ▸ done)]
      simp [releasing, resumes]
    · rintro interrupt after ⟨sealed', raises, -, -⟩
      obtain ⟨fault, is, -⟩ := Option.map_eq_some_iff.mp raises
      exact Or.inr ⟨message, kind, sealed', fun _ => by simp [releasing, is]⟩

/-- The two releases at the end of `run`. -/
theorem releases_ended {quiet : StoredMessage → Bool} {success : Bool}
    (ended : world.Ended quiet success) (resources watcher : Await) :
    Ends (ensuring (do let _ ← awaitOn resources) do let _ ← awaitOn watcher)
      (fun _ after => after.Ended (releasing (releasing quiet resources) watcher) success)
      (fun _ after => after.Ended (releasing (releasing quiet resources) watcher) false) world := by
  rw [ends_ensuring, ends_bind]
  refine Ends.mono (awaitOn_ended ended resources) ?_ ?_
  · intro _ middle ended'
    exact (ends_bind _ _).mpr (awaitOn_ended ended' watcher)
  · intro interrupt middle ended'
    exact (ends_bind _ _).mpr (awaitOn_ended ended' watcher)

/-- The suspensions behind the commit of this message all return. -/
def Aftermath.quiet (aftermath : Aftermath) (config : Config) (message : StoredMessage) : Bool :=
  aftermath.concludes config message && aftermath.sessionClose.ending = none &&
    aftermath.resourcesClose.ending = none && aftermath.watcherClose.ending = none

/-- The world when the guarded block of `run` starts. -/
def World.begun (world : World) (config : Config) : World :=
  { world with modelCalls := 0, producerDeadline := config.turnTimeout && config.terminalPublishMargin }

/-- Every run ends without an answer, or with the answer that the client shows. -/
theorem run_ends {config : Config} (starting : (world.begun config).Starting config)
    (permitted : List Text) (aftermath : Aftermath) :
    Ends (run config permitted aftermath)
      (fun success after => after.Ended (aftermath.quiet config) success)
      (fun _ after => after.Ended (aftermath.quiet config) false) world := by
  have produces := produce_ends starting permitted aftermath
  have guarded : Ends (catching (do
        expiring .answerDeadline .timeout (produce config permitted aftermath)
        return true) fun interrupt => some (settle config interrupt))
      (fun success after => after.Ended
        (releasing (aftermath.concludes config) aftermath.sessionClose) success)
      (fun _ after => after.Ended
        (releasing (aftermath.concludes config) aftermath.sessionClose) false) (world.begun config) := by
    rw [ends_catching, ends_bind]
    unfold expiring
    rw [ends_catching]
    refine Ends.mono produces ?_ ?_
    · rintro _ after ⟨message, kind, sealed, quiet⟩
      exact Or.inr ⟨message, kind, sealed, fun _ => quiet.symm⟩
    · intro interrupt after broken
      cases interrupt with
      | cancelled cause =>
          simp only [ends_bind, ends_observe, ends_ite, ends_raise]
          split <;> exact settle_broken broken config _
      | _ => exact settle_broken broken config _
  unfold run
  rw [ends_bind, ends_update, ends_ensuring]
  refine Ends.mono guarded ?_ ?_
  · intro success after ended
    exact releases_ended ended aftermath.resourcesClose aftermath.watcherClose
  · intro interrupt after ended
    exact releases_ended ended aftermath.resourcesClose aftermath.watcherClose

theorem World.initial_starting (stopped : Bool) (script : List Await) (clock : List Int)
    (provider : List Completion) (tools : List ToolOutcome) (config : Config) :
    ((World.initial stopped script clock provider tools).begun config).Starting config := by
  refine ⟨⟨Wire.nil, nofun, rfl, ?_, nofun, ?_, nofun⟩, ⟨rfl, rfl, rfl, rfl, ?_, nofun⟩, rfl, rfl, rfl⟩
  · simp [World.begun, World.initial, answerText]
  · simp [World.begun, World.initial]
  · cases stopped <;> simp [World.begun, World.initial]

/-- This tells whether `run` returned true. -/
def succeeded : Except Interrupt Bool → Bool
  | .ok success => success
  | .error _ => false

theorem Session.ended (session : Session) :
    session.final.Ended (session.aftermath.quiet session.config) (succeeded session.result) := by
  have ends := run_ends (World.initial_starting session.stopped session.script session.clock
    session.provider session.tools session.config) session.permitted session.aftermath
  unfold Ends at ends
  unfold Session.final Session.result Session.ran World.ran
  cases performed : (run session.config session.permitted session.aftermath).perform
    (World.initial session.stopped session.script session.clock session.provider session.tools) with
  | mk result after =>
      rw [performed] at ends
      cases result <;> exact ends

theorem World.Ended.wire {quiet : StoredMessage → Bool} {success : Bool}
    (ended : world.Ended quiet success) : Wire world.seq world.sent := by
  rcases ended with abandoned | ⟨message, -, sealed, -⟩
  · exact abandoned.wire
  · exact sealed.wire

/-- The client of a run that announced `done` shows the stored answer; a stored question is shown by
its own event. In every run the numbers grow, and no buffered text is behind a published envelope. -/
theorem streamed_answer_is_stored (session : Session) :
    ((∃ entry ∈ session.final.sent, entry.isDone = true) →
      ∃ message, session.final.stored = some message ∧
        (message.kind = .answer ∧ (clientState session.final.sent).text = message.content ∨
          message.kind = .question ∧ (clientState session.final.sent).text = [] ∧
            ∃ entry ∈ session.final.sent,
              entry.envelope.payload = .askUser message.content ∧ entry.taken = true)) ∧
    Sequenced session.final.sent ∧ ∀ entry ∈ session.final.sent, entry.buffered = [] := by
  have ended := session.ended
  refine ⟨?_, ended.wire.sequenced, ended.wire.drained⟩
  rintro ⟨entry, member, done⟩
  rcases ended with abandoned | ⟨message, kind, sealed, -⟩
  · simp [abandoned.undone entry member] at done
  · refine ⟨message, sealed.stored, ?_⟩
    rw [sealed.wire.client_whole sealed.whole, sealed.told]
    cases is : message.kind with
    | answer => exact Or.inl ⟨rfl, by simp [StoredMessage.shown, is]⟩
    | question =>
        exact Or.inr ⟨rfl, by simp [StoredMessage.shown, is],
          (sealed.admitted entry member).asked is (entry.isDone_payload done)⟩
    | cancelled => exact absurd is kind

/-- In this run the model answers with one short text. -/
def greeting : Session := { provider := [{ parts := [{ content := "Hi".toList }] }] }

theorem greeting_ends : (∃ entry ∈ greeting.final.sent, entry.isDone = true) ∧
    greeting.final.stored = some ⟨"Hi".toList, .answer⟩ := by
  decide +kernel

theorem streamed_answer_is_stored_greeting :
    (∃ entry ∈ greeting.final.sent, entry.isDone = true) ∧
      greeting.final.stored = some ⟨"Hi".toList, .answer⟩ ∧
      (clientState greeting.final.sent).text = "Hi".toList := by
  obtain ⟨announced, stored⟩ := greeting_ends
  obtain ⟨message, is, shown⟩ := (streamed_answer_is_stored greeting).1 announced
  obtain rfl := Option.some.inj (stored.symm.trans is)
  refine ⟨announced, stored, ?_⟩
  rcases shown with ⟨-, text⟩ | ⟨question, -⟩
  · exact text
  · exact nomatch question

/-- A stopped run that published its terminal stored what the client shows, exactly when no envelope
that changes the answer text was lost. -/
theorem stopped_answer_is_stored (session : Session)
    (stopped : ∃ entry ∈ session.final.sent, entry.envelope.payload = .cancelled) :
    ∃ content, session.final.stored = some ⟨content, .cancelled⟩ ∧
      ((clientState session.final.sent).text = content ↔
        ∀ entry ∈ session.final.sent, entry.isText = true → entry.taken = true) := by
  have ended := session.ended
  rw [ended.wire.client.1]
  rcases ended with abandoned | ⟨message, kind, sealed, -⟩
  · exact abandoned.partials stopped
  · obtain ⟨entry, member, is⟩ := stopped
    exact absurd is (sealed.admitted entry member).uncancelled

/-- In this run a Stop arrives with the end of the text. -/
def stoppedGreeting : Session :=
  { greeting with script := List.replicate 14 {} ++ [{ stops := true }] }

theorem stoppedGreeting_ends :
    (∃ entry ∈ stoppedGreeting.final.sent, entry.envelope.payload = .cancelled) ∧
      (∀ entry ∈ stoppedGreeting.final.sent, entry.isText = true → entry.taken = true) ∧
      stoppedGreeting.final.stored = some ⟨"Hi".toList, .cancelled⟩ ∧
      true ∈ stoppedGreeting.final.stops := by
  decide +kernel

theorem stopped_answer_is_stored_greeting :
    stoppedGreeting.final.stored = some ⟨"Hi".toList, .cancelled⟩ ∧
      (clientState stoppedGreeting.final.sent).text = "Hi".toList := by
  obtain ⟨ended, whole, kept, -⟩ := stoppedGreeting_ends
  obtain ⟨content, stored, shown⟩ := stopped_answer_is_stored stoppedGreeting ended
  obtain ⟨rfl, -⟩ := StoredMessage.mk.inj (Option.some.inj (kept.symm.trans stored))
  exact ⟨kept, shown.mpr whole⟩

/-- In this run a Stop cancels the publication of the text, which is lost. -/
def lostGreeting : Session :=
  { greeting with script := List.replicate 20 {} ++ [{ stops := true, taken := false }] }

theorem lostGreeting_differs :
    (∃ entry ∈ lostGreeting.final.sent, entry.envelope.payload = .cancelled ∧ entry.taken = true) ∧
      lostGreeting.final.stored = some ⟨"Hi".toList, .cancelled⟩ ∧
      (clientState lostGreeting.final.sent).text = [] := by
  decide +kernel

/-- All terminals of a run carry one number, no text follows a terminal, and an accepted Stop excludes
a stored answer and a published `done`. -/
theorem stop_is_safe (session : Session) :
    (∀ first ∈ session.final.sent, ∀ second ∈ session.final.sent, first.isTerminal = true →
      second.isTerminal = true → first.seq = second.seq) ∧
    (session.final.sent.Pairwise fun earlier later => earlier.isTerminal = true → later.isText = false) ∧
    (true ∈ session.final.stops ∨ session.final.requestCancel.1 = true →
      (∀ message, session.final.stored = some message → message.kind = .cancelled) ∧
        ∀ entry ∈ session.final.sent, entry.isDone = false) := by
  have ended := session.ended
  refine ⟨ended.wire.together, ended.wire.final, fun accepted => ?_⟩
  rcases ended with abandoned | ⟨message, -, sealed, -⟩
  · refine ⟨abandoned.honest ?_, abandoned.undone⟩
    rcases accepted with earlier | now
    · exact abandoned.accepted earlier
    · exact abandoned.decided.resolve_left fun locked =>
        absurd ((session.final.requestCancel_locked locked).symm.trans now) (by simp)
  · rcases accepted with earlier | now
    · exact absurd earlier sealed.unaccepted
    · exact absurd ((session.final.requestCancel_locked sealed.locked).symm.trans now) (by simp)

theorem stop_is_safe_greeting :
    true ∈ stoppedGreeting.final.stops ∧ ∀ entry ∈ stoppedGreeting.final.sent, entry.isDone = false := by
  have accepted := stoppedGreeting_ends.2.2.2
  exact ⟨accepted, ((stop_is_safe stoppedGreeting).2.2 (Or.inl accepted)).2⟩

/-- A run whose answer was stored and announced returns true exactly when what follows is quiet. -/
theorem run_returns_outcome (session : Session) (message : StoredMessage)
    (stored : session.final.stored = some message)
    (announced : ∃ entry ∈ session.final.sent, entry.isDone = true) :
    session.result = .ok true ↔ session.aftermath.quiet session.config message = true := by
  have succeeds : session.result = .ok true ↔ succeeded session.result = true := by
    cases session.result <;> simp [succeeded]
  rw [succeeds]
  rcases session.ended with abandoned | ⟨kept, -, sealed, decides⟩
  · obtain ⟨entry, member, done⟩ := announced
    simp [abandoned.undone entry member] at done
  · obtain rfl := Option.some.inj (sealed.stored.symm.trans stored)
    rw [decides announced]

theorem run_returns_outcome_greeting : greeting.result = .ok true := by
  obtain ⟨announced, stored⟩ := greeting_ends
  exact (run_returns_outcome greeting _ stored announced).mpr rfl

/-- In this run the backplane fails when the suggestions are published. -/
def suggestingGreeting : Session :=
  { greeting with
    config := { suggestionsEnabled := true }
    aftermath := { suggestions := ["More?".toList], suggestPublish := { ending := some .other } } }

theorem suggestingGreeting_fails :
    suggestingGreeting.final.stored = some ⟨"Hi".toList, .answer⟩ ∧
      (∃ entry ∈ suggestingGreeting.final.sent, entry.isDone = true ∧ entry.taken = true) ∧
      suggestingGreeting.result = .ok false := by
  decide +kernel

end LumenCopilot.Chat
