import LumenCopilot.Proof.Chat.Terminals

namespace LumenCopilot.Chat

open Python Library

variable {world : World} {message : StoredMessage}

/-- Only time passes over the stream. -/
def World.Drifts (world after : World) : Prop := world.Still after ∧ world.Passes after

/-- Time that passes keeps an unsettled answer, which may still accept a Stop. -/
theorem World.Unsettled.drifts {after : World} (unsettled : world.Unsettled)
    (drifts : world.Drifts after) : after.Unsettled := by
  obtain ⟨still, passes⟩ := drifts
  refine ⟨still.streaming unsettled.streaming, passes.answerCommitted.trans unsettled.uncommitted,
    passes.settlingError.trans unsettled.unsettled,
    passes.finalisingCancel.trans unsettled.unfinalised, passes.terminalSent.trans unsettled.unsent,
    passes.terminalSeq.trans unsettled.unminted, ?_, ?_, ?_, ?_⟩
  · exact fun accepted => (passes.accepted accepted).elim
      (fun earlier => passes.kept (unsettled.accepted earlier)) id
  · intro completing
    have latched : world.completing = true := passes.completing.symm.trans completing
    exact (passes.refused (by simp [World.locked, latched])).1.trans (unsettled.latched latched)
  · exact fun uncompleted =>
      passes.stored.trans (unsettled.unstored (passes.completing.symm.trans uncompleted))
  · refine unsettled.whole.imp (fun whole => still.sent ▸ whole) ?_
    rintro ⟨empty, lost⟩
    exact ⟨still.buffer ▸ empty, still.sent ▸ lost⟩

theorem World.Sealed.drifts {after : World} (sealed : world.Sealed message)
    (drifts : world.Drifts after) : after.Sealed message :=
  sealed.still drifts.1 drifts.2

/-- An answer declares suggestions for every text but the fallback. -/
def suggests (config : Config) (message : StoredMessage) : Bool :=
  config.suggestionsEnabled && message.kind = .answer && message.content ≠ noSourcesFallback

/-- The answer returns after these suspensions behind its commit. -/
def Aftermath.concludes (aftermath : Aftermath) (config : Config) (message : StoredMessage) : Bool :=
  aftermath.announces (config.turnTimeout && config.terminalPublishMargin) &&
    (!suggests config message || aftermath.follows)

/-- The answer ended with its commit, and what follows the commit is quiet. -/
def World.Answered (quiet : StoredMessage → Bool) (world : World) : Prop :=
  ∃ message : StoredMessage, message.kind ≠ .cancelled ∧ world.Sealed message ∧ quiet message = true

/-- The answer raised before its commit, or behind it when what follows is not quiet. -/
def World.Broken (quiet : StoredMessage → Bool) (world : World) : Prop :=
  world.Unsettled ∨ ∃ message : StoredMessage, message.kind ≠ .cancelled ∧ world.Sealed message ∧
    ((∃ entry ∈ world.sent, entry.isDone = true) → quiet message = false)

theorem ends_unsettled {α : Type} {program : Coroutine α} {returned : α → World → Prop}
    {quiet : StoredMessage → Bool} (ends : Ends program returned (fun _ after => after.Unsettled) world) :
    Ends program returned (fun _ after => after.Broken quiet) world :=
  Ends.mono ends (fun _ _ last => last) (fun _ _ unsettled => Or.inl unsettled)

/-- The question is committed, delivered and announced. -/
theorem askQuestion_ends (fresh : world.Fresh) (config : Config) (aftermath : Aftermath)
    (question : Text) (silent : world.live = []) (closed : world.buffer.kind = none)
    (bounded : world.producerDeadline = (config.turnTimeout && config.terminalPublishMargin)) :
    Ends (askQuestion config aftermath question) (fun _ after => after.Answered (aftermath.concludes config))
      (fun _ after => after.Broken (aftermath.concludes config)) world := by
  unfold askQuestion
  rw [ends_bind]
  refine Ends.mono (ends_unsettled
    (((awaits_waits world).flows fresh.ready.streaming).fresh fresh)) ?_ (fun _ _ broken => broken)
  rintro _ linked ⟨fresh₁, goes₁, still₁⟩
  rw [ends_bind]
  refine Ends.mono (ends_unsettled (persist_ends fresh₁ ⟨question, .question⟩)) ?_
    (fun _ _ broken => broken)
  rintro _ drafted ⟨fresh₂, live₂, buffer₂, draft₂, deadline₂⟩
  have tail : drafted.Flows (fun _ => True) (do recordUsageScopes; awaits) fun _ after =>
      drafted.Still after :=
    ((recordUsageScopes_waits drafted).bind fun _ middle => awaits_waits middle).flows
      fresh₂.ready.streaming
  rw [← bind_assoc, ends_bind]
  refine Ends.mono (ends_unsettled (tail.fresh fresh₂)) ?_ (fun _ _ broken => broken)
  rintro _ counted ⟨fresh₃, goes₃, still₃⟩
  have closed₃ : counted.buffer.kind = none := by
    rw [still₃.buffer, buffer₂, still₁.buffer, closed]
  have silent₃ : counted.live = StoredMessage.shown ⟨question, .question⟩ := by
    rw [still₃.live, live₂, still₁.live, silent]
    rfl
  rw [ends_bind]
  refine Ends.mono (ends_unsettled (completeAnswer_ends fresh₃ config ⟨question, .question⟩
    (goes₃.passes.draft.trans draft₂) closed₃ silent₃)) ?_ (fun _ _ broken => broken)
  rintro _ stored ⟨committed, deadline₄⟩
  have emits : stored.Flows (fun _ => True) (emit (.askUser question)) _ :=
    emit_flows committed.streaming committed.sealed.flowing (.askUser question) rfl rfl
  have loses := emit_sealed committed.sealed (.askUser question) committed.streaming.unended
    committed.unminted rfl rfl
  rw [ends_bind]
  refine Ends.mono (Ends.and emits loses) ?_ ?_
  · rintro _ shown ⟨⟨goes, shows, closed', entry, member, is, taken⟩, -⟩
    have committed' := committed.goes goes ⟨shows.live, closed'⟩
    have deadline : shown.producerDeadline = (config.turnTimeout && config.terminalPublishMargin) := by
      rw [goes.passes.producerDeadline, deadline₄, goes₃.passes.producerDeadline, deadline₂,
        goes₁.passes.producerDeadline, bounded]
    refine Ends.mono (publishTerminalDone_ends committed' config aftermath "ask_user".toList false
      ⟨nofun, fun _ _ => ⟨entry, member, is, taken⟩⟩) ?_ ?_
    · rintro _ after ⟨sealed, -, announces⟩
      rw [deadline, Bool.and_assoc, Bool.and_self] at announces
      exact ⟨_, by simp, sealed, by simp [Aftermath.concludes, suggests, announces]⟩
    · rintro interrupt after ⟨sealed, announces⟩
      rw [deadline, Bool.and_assoc, Bool.and_self] at announces
      exact Or.inr ⟨_, by simp, sealed, fun _ => by simp [Aftermath.concludes, announces]⟩
  · rintro interrupt after ⟨-, sealed, undone⟩
    refine Or.inr ⟨_, by simp, sealed, ?_⟩
    rintro ⟨entry, member, done⟩
    have unended := committed.streaming.unended entry (undone entry member done)
    simp [Sent.isDone_isTerminal entry done] at unended

/-- The events and accounts between the draft and the commit of an answer. -/
theorem settleDraft_flows (ready : world.Ready) (closed : world.buffer.kind = none) (cleaned : Cleaned) :
    world.Flows (fun _ => True) (do
        awaits
        emitAll ((cleaned.passages.map Prod.snd).dedup.map fun _ => .event .citation)
        emitAll (cleaned.web.map fun _ => .event .webCitation)
        awaits
        emit (.event .step)
        recordUsageScopes) fun _ after => world.Holds after := by
  refine (awaits_waits world).then_flows ready.streaming ?_
  intro _ audited rests
  have ready₁ := rests.ready ready
  have closed₁ : audited.buffer.kind = none := by rw [rests.still.buffer, closed]
  refine World.Flows.bind (emitAll_flows _ (by simp) audited ready₁ closed₁) ?_
  intro _ cited goes holds
  have ready₂ := goes.ready ready₁
  refine World.Flows.bind (emitAll_flows _ (by simp) cited ready₂ holds.closed) ?_
  intro _ linked goes holds'
  have ready₃ := goes.ready ready₂
  refine (awaits_waits linked).then_flows ready₃.streaming ?_
  intro _ saved rests'
  have ready₄ := rests'.ready ready₃
  refine World.Flows.bind (emit_holds ready₄ (.event .step) rfl rfl) ?_
  intro _ stepped goes holds''
  have ready₅ := goes.ready ready₄
  refine ((recordUsageScopes_waits stepped).flows ready₅.streaming).mono ?_
  intro _ after _ still
  refine ⟨?_, by rw [still.buffer, holds''.closed]⟩
  rw [still.live, holds''.live, rests'.still.live, holds'.live, holds.live, rests.still.live]

/-- The answer is committed and announced with the text of the wire. -/
theorem finishAnswer_ends (fresh : world.Fresh) (config : Config) (aftermath : Aftermath)
    (cleaned : Cleaned) (reason : Text) (told : world.live = cleaned.text)
    (bounded : world.producerDeadline = (config.turnTimeout && config.terminalPublishMargin)) :
    Ends (finishAnswer config aftermath cleaned reason) (fun _ after => after.Answered (aftermath.concludes config))
      (fun _ after => after.Broken (aftermath.concludes config)) world := by
  have starts : world.Flows (fun _ => True) (do checkCancelled config; emit (.event .step))
      fun _ after => world.Holds after := by
    refine World.Flows.bind (checkCancelled_flows fresh.ready config) ?_
    intro _ checked goes still
    exact (emit_holds (goes.ready fresh.ready) (.event .step) rfl rfl).mono
      fun _ _ _ holds => ⟨holds.live.trans still.live, holds.closed⟩
  unfold finishAnswer
  rw [← bind_assoc, ends_bind]
  refine Ends.mono (ends_unsettled (starts.fresh fresh)) ?_ (fun _ _ broken => broken)
  rintro _ begun ⟨fresh₁, goes₁, holds₁⟩
  rw [ends_bind]
  refine Ends.mono (ends_unsettled (persist_ends fresh₁ ⟨cleaned.text, .answer⟩)) ?_
    (fun _ _ broken => broken)
  rintro _ drafted ⟨fresh₂, live₂, buffer₂, draft₂, deadline₂⟩
  have middle := settleDraft_flows fresh₂.ready (by rw [buffer₂, holds₁.closed]) cleaned
  have grouped : ∀ next : Coroutine Unit, (do
        awaits
        emitAll ((cleaned.passages.map Prod.snd).dedup.map fun _ => .event .citation)
        emitAll (cleaned.web.map fun _ => .event .webCitation)
        awaits
        emit (.event .step)
        recordUsageScopes
        next : Coroutine Unit) = (do
          awaits
          emitAll ((cleaned.passages.map Prod.snd).dedup.map fun _ => .event .citation)
          emitAll (cleaned.web.map fun _ => .event .webCitation)
          awaits
          emit (.event .step)
          recordUsageScopes) >>= fun _ => next := by
    intro next
    simp only [bind_assoc]
  rw [grouped, ends_bind]
  refine Ends.mono (ends_unsettled (middle.fresh fresh₂)) ?_ (fun _ _ broken => broken)
  rintro _ counted ⟨fresh₃, goes₃, holds₃⟩
  have told₃ : counted.live = StoredMessage.shown ⟨cleaned.text, .answer⟩ := by
    rw [holds₃.live, live₂, holds₁.live, told]
    rfl
  rw [ends_bind]
  refine Ends.mono (ends_unsettled (completeAnswer_ends fresh₃ config ⟨cleaned.text, .answer⟩
    (goes₃.passes.draft.trans draft₂) holds₃.closed told₃)) ?_ (fun _ _ broken => broken)
  rintro _ stored ⟨committed, deadline₄⟩
  have deadline : stored.producerDeadline = (config.turnTimeout && config.terminalPublishMargin) := by
    rw [deadline₄, goes₃.passes.producerDeadline, deadline₂, goes₁.passes.producerDeadline, bounded]
  have declares : suggests config ⟨cleaned.text, .answer⟩ =
      (config.suggestionsEnabled && decide (cleaned.text ≠ noSourcesFallback)) := by
    simp [suggests]
  rw [ends_bind]
  refine Ends.mono (publishTerminalDone_ends committed config aftermath reason _ ?_) ?_ ?_
  · exact ⟨nofun, fun question => nomatch question⟩
  · rintro _ announced ⟨sealed, ended, announces⟩
    rw [deadline, Bool.and_assoc, Bool.and_self] at announces
    rw [ends_doWhen, ← declares]
    split
    · next suggesting =>
        refine Ends.mono (suggestFollowups_ends sealed aftermath ended) ?_ ?_
        · rintro _ after ⟨sealed', follows⟩
          exact ⟨_, by simp, sealed', by simp [Aftermath.concludes, announces, follows]⟩
        · rintro interrupt after ⟨sealed', follows⟩
          exact Or.inr ⟨_, by simp, sealed',
            fun _ => by simp [Aftermath.concludes, suggesting, follows]⟩
    · next quiet =>
        exact ⟨_, by simp, sealed, by simp [Aftermath.concludes, announces, quiet]⟩
  · rintro interrupt after ⟨sealed, announces⟩
    rw [deadline, Bool.and_assoc, Bool.and_self] at announces
    exact Or.inr ⟨_, by simp, sealed, fun _ => by simp [Aftermath.concludes, announces]⟩

/-- The text of a turn is continued, cleaned and delivered. -/
theorem deliver_ends (fresh : world.Fresh) (config : Config) (permitted : List Text)
    (aftermath : Aftermath) (turn : Turn) (evidence : Evidence)
    (told : world.live = turn.chunks.flatten) (closed : world.buffer.kind = none)
    (bounded : world.producerDeadline = (config.turnTimeout && config.terminalPublishMargin)) :
    Ends (answer.deliver config permitted aftermath turn evidence)
      (fun _ after => after.Answered (aftermath.concludes config)) (fun _ after => after.Broken (aftermath.concludes config))
      world := by
  unfold answer.deliver
  rw [ends_bind]
  refine Ends.mono (ends_unsettled ((continueAnswer_flows fresh.ready config turn closed told).fresh
    fresh)) ?_ (fun _ _ broken => broken)
  rintro continued spoken ⟨fresh₁, goes₁, live₁⟩
  rw [ends_bind]
  refine Ends.mono (ends_unsettled (((cleanAnswer_waits spoken config permitted evidence
    continued.chunks.flatten).flows fresh₁.ready.streaming).fresh fresh₁)) ?_ (fun _ _ broken => broken)
  rintro cleaned checked ⟨fresh₂, goes₂, still₂⟩
  rw [ends_bind]
  refine Ends.mono (ends_unsettled ((replaceAnswer_flows fresh₂.ready config _ cleaned
    (still₂.live.trans live₁)).fresh fresh₂)) ?_ (fun _ _ broken => broken)
  rintro _ replaced ⟨fresh₃, goes₃, live₃⟩
  rw [ends_bind]
  refine Ends.mono (ends_unsettled ((fallBack_flows fresh₃.ready config cleaned live₃).fresh fresh₃)) ?_
    (fun _ _ broken => broken)
  rintro final kept ⟨fresh₄, goes₄, live₄⟩
  refine finishAnswer_ends fresh₄ config aftermath final _ live₄ ?_
  rw [goes₄.passes.producerDeadline, goes₃.passes.producerDeadline, goes₂.passes.producerDeadline,
    goes₁.passes.producerDeadline, bounded]

theorem prepareAnswer_flows (ready : world.Ready) (config : Config) :
    world.Flows (fun _ => True) (prepareAnswer config) fun _ after => after.live = world.live := by
  unfold prepareAnswer
  refine World.Flows.bind (emit_holds ready (.event .step) rfl rfl) ?_
  intro _ stepped goes holds
  have ready₁ := goes.ready ready
  have resolves : stepped.Waits (do
      awaits
      update fun world => { world with route := ⟨config.model, config.fallbacks, []⟩ }
      awaits
      mayRefuse) :=
    (awaits_waits stepped).bind fun _ _ => World.Waits.bind (World.Rests.of_eq rfl) fun _ routed =>
      (awaits_waits routed).bind fun _ chosen => mayRefuse_waits chosen
  have prepared : stepped.Flows (fun _ => True) (do
      awaits
      update fun world => { world with route := ⟨config.model, config.fallbacks, []⟩ }
      awaits
      mayRefuse
      emit (.event .step)
      update fun world => { world with usage := {}, salvage := true })
      fun _ after => after.live = stepped.live := by
    have grouped : ∀ next : Coroutine Unit, (do
        awaits
        update fun world => { world with route := ⟨config.model, config.fallbacks, []⟩ }
        awaits
        mayRefuse
        next : Coroutine Unit) = (do
          awaits
          update fun world => { world with route := ⟨config.model, config.fallbacks, []⟩ }
          awaits
          mayRefuse) >>= fun _ => next := by
      intro next
      simp only [bind_assoc]
    rw [grouped]
    refine resolves.then_flows ready₁.streaming ?_
    intro _ fitted rests
    refine World.Flows.bind (emit_holds (rests.ready ready₁) (.event .step) rfl rfl) ?_
    intro _ shown goes' holds'
    have counts : shown.Waits (update fun world => { world with usage := {}, salvage := true }) :=
      World.Rests.of_eq rfl
    refine (counts.flows goes'.streaming).mono ?_
    intro _ after _ still
    rw [still.live, holds'.live, rests.still.live]
  exact prepared.mono fun _ _ _ live => live.trans holds.live

/-- The answer is committed with the text that the client shows, or it raises. -/
theorem answer_ends (fresh : world.Fresh) (config : Config) (permitted : List Text)
    (aftermath : Aftermath) (silent : world.live = [])
    (bounded : world.producerDeadline = (config.turnTimeout && config.terminalPublishMargin)) :
    Ends (answer config permitted aftermath) (fun _ after => after.Answered (aftermath.concludes config))
      (fun _ after => after.Broken (aftermath.concludes config)) world := by
  unfold answer
  rw [ends_bind]
  refine Ends.mono (ends_unsettled ((prepareAnswer_flows fresh.ready config).fresh fresh)) ?_
    (fun _ _ broken => broken)
  rintro _ prepared ⟨fresh₁, goes₁, live₁⟩
  rw [ends_bind]
  refine Ends.mono (ends_unsettled ((toolLoop_flows config config.maxToolTurns 1 0 {} prepared
    fresh₁.ready (live₁.trans silent)).fresh fresh₁)) ?_ (fun _ _ broken => broken)
  rintro ⟨ended, evidence⟩ looped ⟨fresh₂, goes₂, shown⟩
  have bounded₂ : looped.producerDeadline =
      (config.turnTimeout && config.terminalPublishMargin) := by
    rw [goes₂.passes.producerDeadline, goes₁.passes.producerDeadline, bounded]
  cases ended with
  | asked question => exact askQuestion_ends fresh₂ config aftermath question shown.1 shown.2 bounded₂
  | answered turn => exact deliver_ends fresh₂ config permitted aftermath turn evidence shown.1 shown.2 bounded₂
  | exhausted =>
      simp only [ends_bind]
      refine Ends.mono (ends_unsettled ((synthesise_flows fresh₂.ready config shown).fresh fresh₂)) ?_
        (fun _ _ broken => broken)
      rintro turn synthesised ⟨fresh₃, goes₃, told, closed⟩
      exact deliver_ends fresh₃ config permitted aftermath turn evidence told closed
        (goes₃.passes.producerDeadline.trans bounded₂)

end LumenCopilot.Chat
