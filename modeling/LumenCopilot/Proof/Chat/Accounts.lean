import LumenCopilot.Construction.Chat.Runtime
import LumenCopilot.Proof.Chat.Outcome
import LumenCopilot.Proof.Library.Effect

namespace LumenCopilot.Chat

open Python Library

/-- The accounts of an answer: its active model, the closed scopes, the open scope, the rows and
the reports. -/
structure Ledger where
  model : Text
  spent : List (Text × Usage)
  usage : Usage
  salvage : Bool
  draftRows : List UsageRow
  rows : List UsageRow
  reports : List Report
  committed : Bool

def World.ledger (world : World) : Ledger :=
  ⟨world.route.model, world.route.spent, world.usage, world.salvage, world.draftRows, world.rows,
    world.reports, world.answerCommitted⟩

/-- The accounts of the world have the property. -/
def World.Books (holds : Ledger → Prop) (world : World) : Prop := holds world.ledger

variable {holds : Ledger → Prop}

theorem World.requestCancel_ledger (world : World) : world.requestCancel.2.ledger = world.ledger := by
  unfold World.requestCancel
  split <;> rfl

/-- A suspension leaves the accounts alone. -/
theorem World.suspend_ledger (world : World) (outcome : Await) :
    (world.suspend outcome).2.ledger = world.ledger := by
  have same : (if outcome.stops then world.requestCancel.2 else world).ledger = world.ledger := by
    split
    · exact world.requestCancel_ledger
    · rfl
  unfold World.suspend
  generalize (if outcome.stops then world.requestCancel.2 else world) = stopped at same ⊢
  dsimp only
  split
  · exact same
  · exact same

theorem nextAwait_keeps : Keeps (World.Books holds) nextAwait := Keeps.transition fun _ => id

theorem readClock_keeps : Keeps (World.Books holds) readClock := Keeps.transition fun _ => id

theorem awaitOn_keeps (outcome : Await) : Keeps (World.Books holds) (awaitOn outcome) := by
  refine Keeps.transition fun world now => ?_
  have same := world.suspend_ledger outcome
  unfold World.Books at now ⊢
  split
  · next suspended =>
      rw [suspended] at same
      exact same ▸ now
  · next suspended =>
      rw [suspended] at same
      exact same ▸ now

theorem awaitCall_keeps : Keeps (World.Books holds) awaitCall :=
  nextAwait_keeps.bind awaitOn_keeps

theorem awaits_keeps : Keeps (World.Books holds) awaits :=
  awaitCall_keeps.bind fun _ => Keeps.pure ()

theorem awaitContained_keeps : Keeps (World.Books holds) awaitContained := by
  refine awaits_keeps.catching fun interrupt answer handles => ?_
  cases interrupt <;> cases handles <;> exact Keeps.pure ()

theorem awaitSuppressed_keeps : Keeps (World.Books holds) awaitSuppressed := by
  refine awaits_keeps.catching fun interrupt answer handles => ?_
  cases interrupt <;> cases handles
  exact Keeps.pure ()

theorem backplanePublish_keeps (outcome : Await) (envelope : Envelope) :
    Keeps (World.Books holds) (backplanePublish outcome envelope) := by
  refine Keeps.transition fun world now => ?_
  have same : (world.publishes outcome envelope).2.ledger = world.ledger := world.suspend_ledger outcome
  unfold World.Books at now ⊢
  split
  · next published =>
      rw [published] at same
      exact same ▸ now
  · next published =>
      rw [published] at same
      exact same ▸ now

theorem mayRefuse_keeps : Keeps (World.Books holds) mayRefuse := by
  refine Keeps.transition fun world now => ?_
  dsimp only
  split
  · exact now
  · exact now

/-- A commit that returns has landed, and one that raises may have landed. -/
theorem commitWith_lands {landed : Ledger → Prop} {durable : World → World} {world : World}
    (lands : ∀ world : World, world.Books holds → (durable world).Books landed)
    (now : world.Books holds) :
    Ends (commitWith durable) (fun _ after => after.Books landed)
      (fun _ after => after.Books holds ∨ after.Books landed) world := by
  unfold commitWith
  rw [ends_bind]
  refine Ends.mono (nextAwait_keeps world now) (fun outcome asked kept => ?_) (fun _ _ kept => Or.inl kept)
  have suspended := asked.suspend_ledger outcome
  rw [ends_transition]
  cases resumes : asked.suspend outcome with
  | mk raised resumed =>
      rw [resumes] at suspended
      have still : resumed.Books holds := by
        unfold World.Books
        rw [suspended]
        exact kept
      cases raised with
      | none => exact lands resumed still
      | some interrupt =>
          dsimp only
          split
          · exact Or.inr (lands resumed still)
          · exact Or.inl still

/-- A commit that writes no account leaves the accounts alone. -/
theorem commitWith_keeps {durable : World → World}
    (same : ∀ world, (durable world).ledger = world.ledger) :
    Keeps (World.Books holds) (commitWith durable) := by
  intro world now
  refine Ends.mono (commitWith_lands (fun before kept => ?_) now) (fun _ _ kept => kept)
    (fun _ _ kept => kept.elim id id)
  unfold World.Books
  rw [same before]
  exact kept

theorem checkAnswerDeadline_keeps (config : Config) :
    Keeps (World.Books holds) (checkAnswerDeadline config) := by
  refine (Keeps.observe _).bind fun finalising => ?_
  split
  · exact readClock_keeps.bind fun now => Keeps.ite (Keeps.raise _) (Keeps.pure ())
  · exact Keeps.pure ()

theorem checkCancelled_keeps (config : Config) : Keeps (World.Books holds) (checkCancelled config) := by
  refine (Keeps.observe _).bind fun settled => Keeps.ite (Keeps.pure ()) ?_
  refine (Keeps.observe _).bind fun requested => Keeps.ite (Keeps.raise _) ?_
  refine awaitCall_keeps.bind fun cancelled => Keeps.ite ?_ (checkAnswerDeadline_keeps config)
  exact Keeps.bind (Keeps.update fun _ => id) fun _ => Keeps.raise _

theorem claimModelCall_keeps (config : Config) : Keeps (World.Books holds) (claimModelCall config) := by
  refine (checkAnswerDeadline_keeps config).bind fun _ => ?_
  refine (Keeps.observe _).bind fun stopped => Keeps.ite (Keeps.raise _) ?_
  refine (Keeps.observe _).bind fun calls => ?_
  split
  · exact Keeps.ite (Keeps.raise _) (Keeps.update fun _ => id)
  · exact Keeps.update fun _ => id

theorem mintSeq_keeps : Keeps (World.Books holds) mintSeq := Keeps.transition fun _ => id

theorem publishOn_keeps {next : Coroutine Await} (nexts : Keeps (World.Books holds) next) (seq : Nat)
    (payload : Payload) : Keeps (World.Books holds) (publishOn next seq payload) := by
  refine (Keeps.observe _).bind fun refused => Keeps.ite (Keeps.raise _) ?_
  exact nexts.bind fun outcome => backplanePublish_keeps outcome _

theorem publish_keeps (seq : Nat) (payload : Payload) :
    Keeps (World.Books holds) (publish seq payload) :=
  publishOn_keeps nextAwait_keeps seq payload

theorem publishTextEnvelope_keeps (kind : TextKind) (text : Text) :
    Keeps (World.Books holds) (publishTextEnvelope kind text) := by
  cases kind with
  | narration turn => exact mintSeq_keeps.bind fun seq => publish_keeps seq _
  | answer =>
      refine Keeps.bind (Keeps.update fun _ => id) fun _ => ?_
      exact mintSeq_keeps.bind fun seq => publish_keeps seq _

theorem takeBuffer_keeps : Keeps (World.Books holds) takeBuffer := Keeps.transition fun _ => id

theorem flushText_keeps : Keeps (World.Books holds) flushText := by
  refine (Keeps.observe _).bind fun kind => takeBuffer_keeps.bind fun text => ?_
  split
  · exact publishTextEnvelope_keeps _ _
  · exact Keeps.pure ()

theorem nextSeq_keeps : Keeps (World.Books holds) nextSeq := flushText_keeps.bind fun _ => mintSeq_keeps

theorem emit_keeps (payload : Payload) : Keeps (World.Books holds) (emit payload) :=
  nextSeq_keeps.bind fun seq => publish_keeps seq payload

theorem addToBuffer_keeps (config : Config) (now : Int) (kind : TextKind) (chunk : Text) :
    Keeps (World.Books holds) (addToBuffer config now kind chunk) :=
  Keeps.transition fun _ => id

theorem streamText_keeps (config : Config) (kind : TextKind) (chunk : Text) :
    Keeps (World.Books holds) (streamText config kind chunk) := by
  refine Keeps.ite (Keeps.pure ()) ((Keeps.observe _).bind fun buffered => ?_)
  refine (Keeps.doWhen flushText_keeps).bind fun _ => readClock_keeps.bind fun now => ?_
  refine (addToBuffer_keeps config now kind chunk).bind fun ready => ?_
  cases ready with
  | none => exact Keeps.pure ()
  | some text => exact publishTextEnvelope_keeps kind text

theorem retractAnswer_keeps : Keeps (World.Books holds) retractAnswer := by
  have discards : Keeps (World.Books holds) discardBuffer :=
    (Keeps.observe _).bind fun kind =>
      Keeps.ite (takeBuffer_keeps.bind fun _ => Keeps.pure ()) flushText_keeps
  refine discards.bind fun _ => Keeps.bind (Keeps.update fun _ => id) fun _ => ?_
  refine (Keeps.observe _).bind fun onWire => Keeps.ite ?_ (Keeps.pure ())
  exact Keeps.bind (Keeps.update fun _ => id) fun _ => mintSeq_keeps.bind fun seq => publish_keeps seq _

theorem publishText_keeps (config : Config) (chunks : List Text) :
    Keeps (World.Books holds) (publishText config chunks) := by
  induction chunks with
  | nil => exact Keeps.pure ()
  | cons chunk rest ih => exact (streamText_keeps config .answer chunk).bind fun _ => ih

theorem awaitEvent_keeps (config : Config) : Keeps (World.Books holds) (awaitEvent config) := by
  have drains : Keeps (World.Books holds) (drainOnDeadline config) := by
    refine (Keeps.observe _).bind fun deadline => ?_
    cases deadline with
    | none => exact Keeps.pure ()
    | some deadline =>
        refine readClock_keeps.bind fun now => Keeps.ite flushText_keeps ?_
        exact awaitCall_keeps.bind fun elapsed => Keeps.ite flushText_keeps awaitSuppressed_keeps
  refine drains.bind fun _ => (Keeps.observe _).bind fun stopped => Keeps.ite (Keeps.raise _) ?_
  exact (checkAnswerDeadline_keeps config).bind fun _ => awaits_keeps

theorem checkEvent_keeps (config : Config) : Keeps (World.Books holds) (checkEvent config) :=
  (Keeps.observe _).bind fun _ => Keeps.ite (Keeps.raise _) (checkAnswerDeadline_keeps config)

theorem retractSpeculativeAnswer_keeps : Keeps (World.Books holds) retractSpeculativeAnswer :=
  retractAnswer_keeps.bind fun _ => Keeps.update fun _ => id

theorem narrateAndCloseWindow_keeps (config : Config) (turn : Nat) (text : Text) :
    Keeps (World.Books holds) (narrateAndCloseWindow config turn text) :=
  Keeps.bind (Keeps.update fun _ => id) fun _ => streamText_keeps config _ text

theorem classify_keeps (config : Config) (seams : Seams) (event : StreamEvent) (turn : Turn) :
    Keeps (World.Books holds) (classify config seams event turn) := by
  unfold classify
  split
  · refine Keeps.ite ?_ (Keeps.pure turn)
    refine retractSpeculativeAnswer_keeps.bind fun _ => ?_
    exact (narrateAndCloseWindow_keeps config _ _).bind fun _ => Keeps.pure _
  · exact Keeps.pure turn

theorem forward_keeps (config : Config) (seams : Seams) (narrating : Bool) (text : Text) :
    Keeps (World.Books holds) (forward config seams narrating text) := by
  unfold forward
  split
  · exact narrateAndCloseWindow_keeps config _ text
  · refine Keeps.doWhen (Keeps.bind (Keeps.update fun _ => id) fun _ => ?_)
    exact streamText_keeps config .answer text

theorem openCompletion_keeps : Keeps (World.Books holds) openCompletion := Keeps.transition fun _ => id

theorem recoverAttempt_keeps (problem : Problem) : Keeps (World.Books holds) (recoverAttempt problem) :=
  (Keeps.observe _).bind fun _ =>
    (Keeps.doWhen retractSpeculativeAnswer_keeps).bind fun _ => Keeps.pure _

theorem resolveCandidate_keeps : Keeps (World.Books holds) resolveCandidate := by
  refine Keeps.catching (awaitCall_keeps.bind fun _ => Keeps.pure _) fun interrupt answer handles => ?_
  cases interrupt <;> cases handles <;> exact Keeps.pure false

/-- A deadline that becomes an error of its own leaves the accounts alone. -/
theorem expiring_keeps {α : Type} {program : Coroutine α} (kept : Keeps (World.Books holds) program)
    (deadline : Cause) (expired : Interrupt) :
    Keeps (World.Books holds) (expiring deadline expired program) := by
  refine kept.catching fun interrupt answer handles => ?_
  cases interrupt <;> cases handles
  exact (Keeps.observe _).bind fun _ => Keeps.ite (Keeps.raise _) (Keeps.raise _)

theorem publishCodeEvents_keeps (events : List EventName) :
    Keeps (World.Books holds) (publishCodeEvents events) := by
  induction events with
  | nil => exact Keeps.pure ()
  | cons name rest ih =>
      refine Keeps.bind (Keeps.catching ?_ fun interrupt answer handles => ?_) fun _ => ih
      · refine mintSeq_keeps.bind fun seq => nextAwait_keeps.bind fun outcome => ?_
        exact backplanePublish_keeps outcome _
      · cases interrupt <;> cases handles <;> exact Keeps.pure ()

theorem runTool_keeps : Keeps (World.Books holds) runTool := by
  refine Keeps.bind (Keeps.transition fun _ => id) fun outcome => ?_
  refine Keeps.bind (awaits_keeps.catching fun interrupt answer handles => ?_) fun _ => ?_
  · cases interrupt <;> cases handles
    exact Keeps.raise _
  · exact (publishCodeEvents_keeps _).bind fun _ => awaits_keeps.bind fun _ => Keeps.pure outcome

theorem runSerial_keeps (config : Config) (calls : List ToolCall) :
    Keeps (World.Books holds) (runSerial config calls) := by
  induction calls with
  | nil => exact Keeps.pure []
  | cons call rest ih =>
      refine (checkCancelled_keeps config).bind fun _ => (emit_keeps _).bind fun _ => ?_
      refine (checkCancelled_keeps config).bind fun _ => runTool_keeps.bind fun outcome => ?_
      refine (checkCancelled_keeps config).bind fun _ => awaits_keeps.bind fun _ => ?_
      exact (emit_keeps _).bind fun _ => ih.bind fun others => Keeps.pure (outcome :: others)

theorem collectResults_keeps (config : Config) (calls : List ToolCall) :
    Keeps (World.Books holds) (collectResults config calls) := by
  induction calls with
  | nil => exact Keeps.pure []
  | cons call rest ih =>
      refine (checkCancelled_keeps config).bind fun _ => ?_
      refine Keeps.bind (Keeps.transition fun _ => id) fun _ => ?_
      refine awaits_keeps.bind fun _ => (checkCancelled_keeps config).bind fun _ => ?_
      exact (emit_keeps _).bind fun _ => ih.bind fun _ => Keeps.pure _

theorem publishToolCalls_keeps (calls : List ToolCall) :
    Keeps (World.Books holds) (publishToolCalls calls) := by
  induction calls with
  | nil => exact Keeps.pure ()
  | cons call rest ih => exact (emit_keeps _).bind fun _ => ih

theorem runFanOut_keeps (config : Config) (calls : List ToolCall) :
    Keeps (World.Books holds) (runFanOut config calls) := by
  refine (publishToolCalls_keeps calls).bind fun _ => Keeps.bind ?_ fun outcomes => ?_
  · refine (collectResults_keeps config calls).catching fun interrupt answer handles => ?_
    cases handles
    exact awaits_keeps.bind fun _ => Keeps.raise interrupt
  · exact awaits_keeps.bind fun _ => Keeps.pure outcomes

theorem runToolBatch_keeps (config : Config) (calls : List ToolCall) :
    Keeps (World.Books holds) (runToolBatch config calls) :=
  Keeps.ite
    ((runFanOut_keeps config _).bind fun _ => (runSerial_keeps config _).bind fun _ => Keeps.pure _)
    (runSerial_keeps config calls)

theorem cleanAnswer_keeps (config : Config) (permitted : List Text) (evidence : Evidence)
    (answer : Text) :
    Keeps (World.Books holds) (cleanAnswer config permitted evidence answer) :=
  (Keeps.doWhen (awaits_keeps.bind fun _ => awaits_keeps)).bind fun _ => Keeps.pure _

theorem replaceAnswer_keeps (config : Config) (answer : Text) (cleaned : Cleaned) :
    Keeps (World.Books holds) (replaceAnswer config answer cleaned) :=
  (Keeps.doWhen (retractAnswer_keeps.bind fun _ => publishText_keeps config _)).bind fun _ =>
    Keeps.doWhen (Keeps.raise _)

theorem fallBack_keeps (config : Config) (cleaned : Cleaned) :
    Keeps (World.Books holds) (fallBack config cleaned) := by
  unfold fallBack
  generalize noSourcesFallback = fallback
  refine Keeps.ite ?_ (Keeps.pure cleaned)
  refine (Keeps.observe _).bind fun _ => (Keeps.doWhen retractAnswer_keeps).bind fun _ => ?_
  exact (streamText_keeps config .answer fallback).bind fun _ => Keeps.pure _

theorem emitAll_keeps (payloads : List Payload) : Keeps (World.Books holds) (emitAll payloads) := by
  induction payloads with
  | nil => exact Keeps.pure ()
  | cons payload rest ih => exact (emit_keeps payload).bind fun _ => ih

theorem persist_keeps (message : StoredMessage) : Keeps (World.Books holds) (persist message) :=
  awaits_keeps.bind fun _ => Keeps.update fun _ => id

theorem checkStart_keeps (config : Config) : Keeps (World.Books holds) (checkStart config) := by
  unfold checkStart
  split
  · exact readClock_keeps.bind fun _ => Keeps.doWhen (Keeps.raise _)
  · exact Keeps.pure ()

theorem publishTerminal_keeps {next : Coroutine Await} (nexts : Keeps (World.Books holds) next)
    (deadline : Bool) (seq : Nat) (payload : Payload) :
    Keeps (World.Books holds) (publishTerminal next deadline seq payload) := by
  have confirms : Keeps (World.Books holds) (do publishOn next seq payload; return true) :=
    (publishOn_keeps nexts seq payload).bind fun _ => Keeps.pure true
  refine Keeps.ite (confirms.catching fun interrupt answer handles => ?_) confirms
  cases interrupt <;> cases handles
  exact Keeps.pure false

theorem terminalSeq_keeps {mint : Coroutine Nat} (mints : Keeps (World.Books holds) mint) :
    Keeps (World.Books holds) (terminalSeq mint) := by
  refine (Keeps.observe _).bind fun cached => ?_
  cases cached with
  | some seq => exact Keeps.pure seq
  | none => exact mints.bind fun seq => Keeps.bind (Keeps.update fun _ => id) fun _ => Keeps.pure seq

theorem markTerminalSent_keeps : Keeps (World.Books holds) markTerminalSent := Keeps.update fun _ => id

theorem publishTerminalDone_keeps (config : Config) (aftermath : Aftermath) (finishReason : Text)
    (pending : Bool) :
    Keeps (World.Books holds) (publishTerminalDone config aftermath finishReason pending) := by
  refine (Keeps.observe _).bind fun _ => Keeps.ite (Keeps.pure ()) ?_
  refine (terminalSeq_keeps nextSeq_keeps).bind fun seq => ?_
  refine (Keeps.observe _).bind fun _ => Keeps.ite ?_ ?_
  · refine (publishTerminal_keeps (Keeps.pure _) true seq _).bind fun _ =>
      Keeps.ite markTerminalSent_keeps ?_
    exact (publishTerminal_keeps (Keeps.pure _) true seq _).bind fun _ =>
      Keeps.ite markTerminalSent_keeps (Keeps.pure ())
  · exact (publishOn_keeps (Keeps.pure _) seq _).bind fun _ => markTerminalSent_keeps

theorem terminalError_keeps (problem : Problem) : Keeps (World.Books holds) (terminalError problem) := by
  refine (Keeps.observe _).bind fun _ => Keeps.ite (Keeps.pure ()) ?_
  refine (Keeps.observe _).bind fun _ => (Keeps.doWhen retractAnswer_keeps).bind fun _ => ?_
  refine markTerminalSent_keeps.bind fun _ => (Keeps.observe _).bind fun cached => ?_
  have publishes (seq : Nat) : Keeps (World.Books holds) (do
      let deadline ← observe World.producerDeadline
      let _ ← publishTerminal nextAwait deadline seq (.error problem)) :=
    (Keeps.observe _).bind fun deadline =>
      (publishTerminal_keeps nextAwait_keeps deadline seq _).bind fun _ => Keeps.pure ()
  cases cached with
  | some seq => exact (Keeps.pure seq).bind publishes
  | none => exact nextSeq_keeps.bind publishes

theorem persistCancelled_keeps (content : Text) :
    Keeps (World.Books holds) (persistCancelled content) := by
  refine Keeps.catching ?_ fun interrupt answer handles => ?_
  · exact awaits_keeps.bind fun _ => Keeps.bind (commitWith_keeps fun _ => rfl) fun _ => Keeps.pure true
  · cases interrupt <;> cases handles <;> exact Keeps.pure false

theorem publishCancelled_keeps (seq attempts : Nat) :
    Keeps (World.Books holds) (publishCancelled seq attempts) := by
  induction attempts with
  | zero => exact Keeps.pure ()
  | succ attempts ih =>
      refine Keeps.bind (Keeps.catching (publishTerminal_keeps nextAwait_keeps true seq _)
        fun interrupt answer handles => ?_) fun confirmed => Keeps.ite markTerminalSent_keeps ih
      cases interrupt <;> cases handles <;> exact Keeps.pure false

theorem finaliseCancelled_keeps : Keeps (World.Books holds) finaliseCancelled := by
  refine (Keeps.observe _).bind fun _ => Keeps.ite (Keeps.pure ()) ?_
  refine flushText_keeps.bind fun _ => (Keeps.observe _).bind fun content => ?_
  refine (persistCancelled_keeps content).bind fun _ => Keeps.ite ?_ (terminalError_keeps _)
  exact (terminalSeq_keeps mintSeq_keeps).bind fun seq => publishCancelled_keeps seq 2

theorem runFollowupSuggestions_keeps (aftermath : Aftermath) :
    Keeps (World.Books holds) (runFollowupSuggestions aftermath) := by
  refine Keeps.catching ((awaitOn_keeps _).bind fun _ => Keeps.pure _) fun interrupt answer handles => ?_
  cases interrupt <;> cases handles <;> exact Keeps.pure []

end LumenCopilot.Chat
