import LumenCopilot.Proof.Chat.Commit

namespace LumenCopilot.Chat

open Python Library

variable {world : World} {message : StoredMessage}

/-- One more envelope is in the history, and nothing else of the stream changed. -/
structure World.Posts (world : World) (envelope : Envelope) (taken : Bool) (after : World) : Prop where
  sent : after.sent = world.sent ++ [⟨envelope, taken, world.buffer.parts⟩]
  seq : after.seq = world.seq
  buffer : after.buffer = world.buffer
  passes : world.Passes after

variable {after : World}

theorem World.Passes.resent (passes : world.Passes after) (sent : List Sent) :
    world.Passes { after with sent := sent } :=
  { passes with }

/-- A publication posts its envelope; in a locked world its error is the one of the backplane. -/
theorem backplanePublish_ends (world : World) (outcome : Await) (envelope : Envelope) :
    Ends (backplanePublish outcome envelope)
      (fun _ after => world.Posts envelope true after ∧ (world.locked = true → outcome.ending = none))
      (fun interrupt after => world.Posts envelope outcome.taken after ∧
        (world.locked = true → outcome.ending.map Fault.interrupt = some interrupt)) world := by
  rw [ends_backplanePublish]
  unfold World.publishes
  obtain ⟨still, passes, -, -, exactly⟩ := world.suspend_spec outcome
  cases suspended : world.suspend outcome with
  | mk raised resumed =>
      rw [suspended] at still passes exactly
      have sent : resumed.sent = world.sent := still.sent
      cases raised with
      | none =>
          refine ⟨⟨?_, still.seq, still.buffer, passes.resent _⟩, fun locked => ?_⟩
          · simp [sent]
          · simpa using (exactly locked).symm
      | some interrupt =>
          refine ⟨⟨?_, still.seq, still.buffer, passes.resent _⟩, fun locked => ?_⟩
          · simp [sent]
          · exact (exactly locked).symm

variable {raised : Interrupt → World → Prop}

/-- A publication that no Stop refuses. -/
theorem ends_publishOn {returned : Unit → World → Prop} (flowing : world.Flowing)
    (next : Coroutine Await) (seq : Nat) (payload : Payload) :
    Ends (publishOn next seq payload) returned raised world ↔
      Ends next (fun outcome middle =>
        Ends (backplanePublish outcome ⟨seq, payload⟩) returned raised middle) raised world := by
  unfold publishOn
  simp only [ends_bind, ends_observe, ends_ite]
  rw [if_neg]
  intro refused
  simp only [Bool.and_eq_true, Bool.not_eq_true'] at refused
  obtain ⟨⟨⟨stop, unfinalised⟩, uncommitted⟩, -⟩ := refused
  rcases flowing stop with finalises | committed
  · simp [finalises] at unfinalised
  · simp [committed] at uncommitted

/-- A terminal of this number may be published: it is the first, or it repeats an earlier one. -/
structure World.Ending (seq : Nat) (world : World) : Prop where
  wire : Wire world.seq world.sent
  minted : seq < world.seq
  empty : world.buffer.parts = []
  alone : (∃ terminal ∈ world.sent, terminal.isTerminal = true ∧ terminal.seq = seq) ∨
    ∀ entry ∈ world.sent, entry.isTerminal = false ∧ entry.seq < seq

theorem World.Ending.still {seq : Nat} (ending : world.Ending seq) (still : world.Still after) :
    after.Ending seq := by
  refine ⟨?_, ?_, ?_, ?_⟩
  · rw [still.seq, still.sent]
    exact ending.wire
  · rw [still.seq]
    exact ending.minted
  · rw [still.buffer]
    exact ending.empty
  · rw [still.sent]
    exact ending.alone

variable {taken : Bool}

/-- A posted terminal keeps one number for all terminals. -/
theorem World.Ending.posts {seq : Nat} {payload : Payload} (ending : world.Ending seq)
    (posts : world.Posts ⟨seq, payload⟩ taken after) (ends : payload.isTerminal = true) :
    after.Ending seq := by
  have sent := posts.sent
  rw [ending.empty] at sent
  refine ⟨?_, ?_, ?_, Or.inl ?_⟩
  · rw [posts.seq, sent]
    rcases ending.alone with first | below
    · exact ending.wire.resend _ ends rfl first
    · have lower : Wire seq world.sent :=
        ⟨fun entry member => (below entry member).2, ending.wire.sequenced, ending.wire.together,
          ending.wire.final, ending.wire.drained⟩
      exact (lower.fresh ⟨⟨seq, payload⟩, taken, []⟩ rfl rfl
        fun _ entry member => (below entry member).1).weaken ending.minted
  · rw [posts.seq]
    exact ending.minted
  · rw [posts.buffer]
    exact ending.empty
  · exact ⟨⟨⟨seq, payload⟩, taken, []⟩, by rw [sent]; simp, ends, rfl⟩

/-- A number that is minted from a stream without terminal may end it. -/
theorem World.Streaming.ending (streaming : world.Streaming) (empty : world.buffer.parts = [])
    (seq : after.seq = world.seq + 1) (sent : after.sent = world.sent)
    (buffer : after.buffer = world.buffer) : after.Ending world.seq := by
  refine ⟨?_, by omega, by rw [buffer, empty], Or.inr ?_⟩
  · rw [seq, sent]
    exact streaming.wire.weaken (Nat.le_succ _)
  · rw [sent]
    exact fun entry member => ⟨streaming.unended entry member, streaming.wire.below entry member⟩

theorem TextCoalescer.take_closed (buffer : TextCoalescer) (closed : buffer.kind = none)
    (empty : buffer.parts = []) : buffer.take = (none, buffer) := by
  obtain ⟨kind, parts, chars, openedAt⟩ := buffer
  obtain rfl : kind = none := closed
  obtain rfl : parts = [] := empty
  rfl

/-- A flush of a drained buffer does nothing. -/
theorem ends_flushText {returned : Unit → World → Prop} (closed : world.buffer.kind = none)
    (empty : world.buffer.parts = []) :
    Ends flushText returned raised world ↔ returned () world := by
  unfold flushText takeBuffer
  simp only [ends_bind, ends_observe, ends_transition, closed, ends_pure,
    world.buffer.take_closed closed empty]

theorem ends_nextSeq {returned : Nat → World → Prop} (closed : world.buffer.kind = none)
    (empty : world.buffer.parts = []) :
    Ends nextSeq returned raised world ↔ returned world.seq { world with seq := world.seq + 1 } := by
  unfold nextSeq
  rw [ends_bind, ends_flushText closed empty]
  rfl

/-- A committed message is not cancelled any more, and `done` follows the question that it announces. -/
structure StoredMessage.Admits (message : StoredMessage) (sent : List Sent) (payload : Payload) :
    Prop where
  uncancelled : payload ≠ .cancelled
  asked : message.kind = .question → (∃ reason pending, payload = .done reason pending) →
    ∃ entry ∈ sent, entry.envelope.payload = .askUser message.content ∧ entry.taken = true

theorem StoredMessage.Admits.mono {sent more : List Sent} {payload : Payload}
    (admits : message.Admits sent payload) (grown : ∀ entry ∈ sent, entry ∈ more) :
    message.Admits more payload := by
  refine ⟨admits.uncancelled, fun question done => ?_⟩
  obtain ⟨entry, member, is⟩ := admits.asked question done
  exact ⟨entry, grown entry member, is⟩

/-- The answer is committed; from here on only terminals and suggestions are published. -/
structure World.Sealed (message : StoredMessage) (world : World) : Prop where
  wire : Wire world.seq world.sent
  whole : Whole world.sent
  told : answerText world.sent = message.shown
  closed : world.buffer.kind = none
  empty : world.buffer.parts = []
  committed : world.answerCommitted = true
  completing : world.completing = true
  unstopped : world.cancelRequested = false
  unaccepted : true ∉ world.stops
  stored : world.stored = some message
  terminals : ∀ entry ∈ world.sent, entry.isTerminal = true →
    world.terminalSent = true ∨ world.terminalSeq = some entry.seq
  minted : ∀ seq, world.terminalSeq = some seq → world.Ending seq
  admitted : ∀ entry ∈ world.sent, message.Admits world.sent entry.envelope.payload

theorem World.Sealed.locked (sealed : world.Sealed message) : world.locked = true := by
  simp [World.locked, sealed.completing]

theorem World.Sealed.flowing (sealed : world.Sealed message) : world.Flowing := by
  intro _
  exact Or.inr sealed.committed

theorem World.Committed.sealed (committed : world.Committed message) : world.Sealed message := by
  have empty := committed.streaming.closed.mp committed.closed
  refine ⟨committed.streaming.wire, committed.whole, committed.told, committed.closed, empty,
    committed.committed, committed.completing, committed.unstopped, committed.unaccepted,
    committed.stored, ?_, ?_, ?_⟩
  · intro entry member ends
    simp [committed.streaming.unended entry member] at ends
  · intro seq minted
    simp [committed.unminted] at minted
  · intro entry member
    have unended := committed.streaming.unended entry member
    unfold Sent.isTerminal at unended
    refine ⟨?_, ?_⟩
    · intro is
      simp [is, Payload.isTerminal] at unended
    · rintro - ⟨reason, pending, is⟩
      simp [is, Payload.isTerminal] at unended

/-- Time that passes after the commit changes nothing that matters. -/
theorem World.Sealed.still (sealed : world.Sealed message) (still : world.Still after)
    (passes : world.Passes after) : after.Sealed message := by
  obtain ⟨flag, stops⟩ := passes.refused sealed.locked
  refine ⟨?_, still.sent ▸ sealed.whole, still.sent ▸ sealed.told, still.buffer ▸ sealed.closed,
    still.buffer ▸ sealed.empty, passes.answerCommitted.trans sealed.committed,
    passes.completing.trans sealed.completing, flag.trans sealed.unstopped,
    fun accepted => sealed.unaccepted (stops accepted), passes.stored.trans sealed.stored, ?_, ?_, ?_⟩
  · rw [still.seq, still.sent]
    exact sealed.wire
  · rw [still.sent, passes.terminalSent, passes.terminalSeq]
    exact sealed.terminals
  · intro seq minted
    exact (sealed.minted seq (passes.terminalSeq.symm.trans minted)).still still
  · rw [still.sent]
    exact sealed.admitted

theorem answerText_other (sent : List Sent) (entry : Sent) (other : entry.isText = false) :
    answerText (sent ++ [entry]) = answerText sent := by
  rw [answerText_append]
  exact Payload.applyText_other _ _ other

/-- An envelope without text keeps a sealed answer, when the terminals keep their number. -/
theorem World.Sealed.posts {envelope : Envelope} (sealed : world.Sealed message)
    (posts : world.Posts envelope taken after) (other : envelope.payload.isText = false)
    (wire : Wire after.seq after.sent) (terminals : envelope.payload.isTerminal = true →
      world.terminalSent = true ∨ world.terminalSeq = some envelope.seq)
    (minted : ∀ seq, world.terminalSeq = some seq → after.Ending seq)
    (admits : message.Admits world.sent envelope.payload) : after.Sealed message := by
  obtain ⟨flag, stops⟩ := posts.passes.refused sealed.locked
  have sent := posts.sent
  have passes := posts.passes
  refine ⟨wire, ?_, ?_, posts.buffer ▸ sealed.closed, posts.buffer ▸ sealed.empty,
    passes.answerCommitted.trans sealed.committed, passes.completing.trans sealed.completing,
    flag.trans sealed.unstopped, fun accepted => sealed.unaccepted (stops accepted),
    passes.stored.trans sealed.stored, ?_, ?_, ?_⟩
  · rw [sent]
    refine whole_append world.sent _ sealed.whole fun text => ?_
    simp [Sent.isText, other] at text
  · rw [sent, answerText_other world.sent ⟨envelope, taken, world.buffer.parts⟩ other]
    exact sealed.told
  · rw [sent, passes.terminalSent, passes.terminalSeq]
    exact List.forall_mem_append.mpr ⟨sealed.terminals, List.forall_mem_singleton.mpr terminals⟩
  · intro seq cached
    exact minted seq (passes.terminalSeq.symm.trans cached)
  · rw [sent]
    have grown : ∀ entry ∈ world.sent, entry ∈ world.sent ++ [⟨envelope, taken, world.buffer.parts⟩] :=
      fun entry member => List.mem_append_left _ member
    exact List.forall_mem_append.mpr ⟨fun entry member => (sealed.admitted entry member).mono grown,
      List.forall_mem_singleton.mpr (admits.mono grown)⟩

/-- The terminal of a sealed answer is published under its cached number. -/
structure World.Announced (message : StoredMessage) (seq : Nat) (world after : World) : Prop where
  sealed : after.Sealed message
  cached : after.terminalSeq = some seq
  passes : world.Passes after
  ended : ∃ entry ∈ after.sent, entry.isTerminal = true
  grown : ∀ entry ∈ world.sent, entry ∈ after.sent

section

variable {seq : Nat} {payload : Payload} (sealed : world.Sealed message)
  (cached : world.terminalSeq = some seq) (ends : payload.isTerminal = true)
  (admits : message.Admits world.sent payload)
include sealed cached ends admits

theorem World.Sealed.announced (posts : world.Posts ⟨seq, payload⟩ taken after) :
    world.Announced message seq after := by
  have ending := (sealed.minted seq cached).posts posts ends
  have other : payload.isText = false := by
    cases payload <;> first | rfl | contradiction
  refine ⟨sealed.posts posts other ending.wire (fun _ => Or.inr cached) ?_ admits,
    posts.passes.terminalSeq.trans cached, posts.passes, ?_, ?_⟩
  · intro number same
    obtain rfl := Option.some.inj (cached.symm.trans same)
    exact ending
  · refine ⟨⟨⟨seq, payload⟩, taken, world.buffer.parts⟩, ?_, ends⟩
    rw [posts.sent]
    exact List.mem_append_right _ List.mem_cons_self
  · rw [posts.sent]
    exact fun entry member => List.mem_append_left _ member

theorem backplanePublish_sealed (outcome : Await) :
    Ends (backplanePublish outcome ⟨seq, payload⟩)
      (fun _ after => world.Announced message seq after ∧ outcome.ending = none)
      (fun interrupt after => world.Announced message seq after ∧
        outcome.ending.map Fault.interrupt = some interrupt) world := by
  refine Ends.mono (backplanePublish_ends world outcome ⟨seq, payload⟩) ?_ ?_
  · rintro _ after ⟨posts, resumes⟩
    exact ⟨sealed.announced cached ends admits posts, resumes sealed.locked⟩
  · rintro interrupt after ⟨posts, raises⟩
    exact ⟨sealed.announced cached ends admits posts, raises sealed.locked⟩

/-- A publication of the terminal with a deadline tells whether it was confirmed. -/
theorem publishTerminal_sealed (outcome : Await) :
    Ends (publishTerminal (return outcome) true seq payload)
      (fun confirmed after => world.Announced message seq after ∧
        outcome.ending = if confirmed then none else some .timeout)
      (fun _ after => world.Announced message seq after ∧ outcome.ending ≠ none ∧
        outcome.ending ≠ some .timeout) world := by
  unfold publishTerminal
  simp only [↓reduceIte]
  rw [ends_catching, ends_bind, ends_publishOn sealed.flowing, ends_pure]
  refine Ends.mono (backplanePublish_sealed sealed cached ends admits outcome) ?_ ?_
  · rintro _ after ⟨announced, resumes⟩
    exact ⟨announced, resumes⟩
  · rintro interrupt after ⟨announced, raises⟩
    obtain ⟨fault, is, rfl⟩ := Option.map_eq_some_iff.mp raises
    cases fault with
    | timeout => exact ⟨announced, is⟩
    | _ => exact ⟨announced, by simp [is], by simp [is]⟩

end

/-- The publication of `done` returns after these suspensions. -/
def Aftermath.announces (aftermath : Aftermath) (bounded : Bool) : Bool :=
  match aftermath.doneFirst.ending with
  | none => true
  | some .timeout => bounded &&
      (aftermath.doneSecond.ending = none || aftermath.doneSecond.ending = some .timeout)
  | some _ => false

/-- The stream has sent its terminal. -/
def World.terminated (world : World) : World := { world with terminalSent := true }

theorem ends_markTerminalSent {returned : Unit → World → Prop} :
    Ends markTerminalSent returned raised world ↔ returned () world.terminated :=
  Iff.rfl

theorem World.Sealed.terminated (sealed : world.Sealed message) : world.terminated.Sealed message :=
  ⟨sealed.wire, sealed.whole, sealed.told, sealed.closed, sealed.empty, sealed.committed,
    sealed.completing, sealed.unstopped, sealed.unaccepted, sealed.stored, fun _ _ _ => Or.inl rfl,
    fun seq cached => ⟨(sealed.minted seq cached).wire, (sealed.minted seq cached).minted,
      (sealed.minted seq cached).empty, (sealed.minted seq cached).alone⟩, sealed.admitted⟩

/-- The next number is minted and cached for the terminal. -/
def World.terminalMinted (world : World) : World :=
  { world with seq := world.seq + 1, terminalSeq := some world.seq }

theorem ends_terminalSeq {returned : Nat → World → Prop} (unminted : world.terminalSeq = none)
    (closed : world.buffer.kind = none) (empty : world.buffer.parts = []) :
    Ends (terminalSeq nextSeq) returned raised world ↔ returned world.seq world.terminalMinted := by
  unfold terminalSeq
  rw [ends_bind, ends_observe, unminted]
  simp only [ends_bind, ends_nextSeq closed empty]
  rfl

/-- The first terminal number of a committed answer is minted and cached. -/
theorem World.Committed.minted (committed : world.Committed message) :
    world.terminalMinted.Sealed message := by
  have sealed := committed.sealed
  have ending : world.terminalMinted.Ending world.seq :=
    committed.streaming.ending sealed.empty rfl rfl rfl
  refine ⟨ending.wire, sealed.whole, sealed.told, sealed.closed, sealed.empty, sealed.committed,
    sealed.completing, sealed.unstopped, sealed.unaccepted, sealed.stored, ?_, ?_, sealed.admitted⟩
  · intro entry member ends
    simp [committed.streaming.unended entry member] at ends
  · intro seq cached
    obtain rfl := Option.some.inj cached
    exact ending

/-- The announcement of `done` keeps the sealed answer; whether it returns is known beforehand. -/
theorem publishTerminalDone_ends (committed : world.Committed message) (config : Config)
    (aftermath : Aftermath) (reason : Text) (pending : Bool)
    (admits : message.Admits world.sent (.done reason pending)) :
    Ends (publishTerminalDone config aftermath reason pending)
      (fun _ after => after.Sealed message ∧ (∃ entry ∈ after.sent, entry.isTerminal = true) ∧
        aftermath.announces (world.producerDeadline && config.terminalPublishMargin) = true)
      (fun _ after => after.Sealed message ∧
        aftermath.announces (world.producerDeadline && config.terminalPublishMargin) = false)
      world := by
  have sealed := committed.minted
  have closed := committed.closed
  have empty := committed.streaming.closed.mp closed
  unfold publishTerminalDone
  simp only [ends_bind, ends_observe, ends_ite, ends_markTerminalSent, ends_pure]
  rw [if_neg (by simp [committed.unsent]), ends_terminalSeq committed.unminted closed empty]
  split
  · next bounded =>
      change (world.producerDeadline && config.terminalPublishMargin) = true at bounded
      rw [bounded]
      refine Ends.mono (publishTerminal_sealed sealed rfl rfl admits aftermath.doneFirst) ?_ ?_
      · rintro confirmed first ⟨announced, ending⟩
        cases confirmed with
        | true =>
            simp only [↓reduceIte] at ending ⊢
            exact ⟨announced.sealed.terminated, announced.ended,
              by simp [Aftermath.announces, ending]⟩
        | false =>
            simp only [Bool.false_eq_true, ↓reduceIte] at ending ⊢
            refine Ends.mono (publishTerminal_sealed announced.sealed announced.cached rfl
              (admits.mono announced.grown) aftermath.doneSecond) ?_ ?_
            · rintro confirmed' second ⟨announced', ending'⟩
              cases confirmed' with
              | true =>
                  simp only [↓reduceIte] at ending' ⊢
                  exact ⟨announced'.sealed.terminated, announced'.ended,
                    by simp [Aftermath.announces, ending, ending']⟩
              | false =>
                  simp only [Bool.false_eq_true, ↓reduceIte] at ending' ⊢
                  exact ⟨announced'.sealed, announced'.ended,
                    by simp [Aftermath.announces, ending, ending']⟩
            · rintro interrupt second ⟨announced', raised, late⟩
              exact ⟨announced'.sealed, by simp [Aftermath.announces, ending, raised, late]⟩
      · rintro interrupt first ⟨announced, raised, late⟩
        refine ⟨announced.sealed, ?_⟩
        unfold Aftermath.announces
        split <;> simp_all
  · next unbounded =>
      change ¬(world.producerDeadline && config.terminalPublishMargin) = true at unbounded
      rw [Bool.eq_false_iff.mpr unbounded, ends_publishOn sealed.flowing, ends_pure]
      refine Ends.mono (backplanePublish_sealed sealed rfl rfl admits aftermath.doneFirst) ?_ ?_
      · rintro _ after ⟨announced, ending⟩
        exact ⟨announced.sealed.terminated, announced.ended,
          by simp [Aftermath.announces, ending]⟩
      · rintro interrupt after ⟨announced, raises⟩
        refine ⟨announced.sealed, ?_⟩
        unfold Aftermath.announces
        split <;> simp_all

/-- An await of a locked world raises exactly the error of its environment. -/
theorem awaitOn_ends (world : World) (outcome : Await) :
    Ends (awaitOn outcome)
      (fun _ after => world.Rests after ∧ (world.locked = true → outcome.ending = none))
      (fun interrupt after => world.Halts interrupt after ∧
        (world.locked = true → outcome.ending.map Fault.interrupt = some interrupt)) world := by
  rw [ends_awaitOn]
  have waits := world.suspend_waits outcome
  have exactly := (world.suspend_spec outcome).2.2.2.2
  cases suspended : world.suspend outcome with
  | mk raised resumed =>
      rw [suspended] at waits exactly
      cases raised with
      | none => exact ⟨waits, fun locked => by simpa using (exactly locked).symm⟩
      | some interrupt => exact ⟨waits.1, fun locked => (exactly locked).symm⟩

theorem awaitOn_sealed (sealed : world.Sealed message) (outcome : Await) :
    Ends (awaitOn outcome) (fun _ after => after.Sealed message ∧ outcome.ending = none ∧
        world.Still after ∧ world.Passes after)
      (fun interrupt after => after.Sealed message ∧
        outcome.ending.map Fault.interrupt = some interrupt ∧ world.Still after ∧ world.Passes after)
      world := by
  refine Ends.mono (awaitOn_ends world outcome) ?_ ?_
  · rintro _ after ⟨rests, resumes⟩
    exact ⟨sealed.still rests.still rests.passes, resumes sealed.locked, rests.still, rests.passes⟩
  · rintro interrupt after ⟨halts, raises⟩
    exact ⟨sealed.still halts.still halts.passes, raises sealed.locked, halts.still, halts.passes⟩

/-- A mint keeps a sealed answer. -/
theorem World.Sealed.mint (sealed : world.Sealed message) :
    World.Sealed message { world with seq := world.seq + 1 } :=
  ⟨sealed.wire.weaken (Nat.le_succ _), sealed.whole, sealed.told, sealed.closed, sealed.empty,
    sealed.committed, sealed.completing, sealed.unstopped, sealed.unaccepted, sealed.stored,
    sealed.terminals, fun seq cached =>
      ⟨(sealed.minted seq cached).wire.weaken (Nat.le_succ _),
        Nat.lt_succ_of_lt (sealed.minted seq cached).minted, (sealed.minted seq cached).empty,
        (sealed.minted seq cached).alone⟩, sealed.admitted⟩

/-- Suggestions follow the terminal under a number of their own. -/
theorem World.Sealed.suggests {items : List Text} (sealed : world.Sealed message)
    (ended : ∃ entry ∈ world.sent, entry.isTerminal = true)
    (posts : World.Posts { world with seq := world.seq + 1 } ⟨world.seq, .suggestions items⟩ taken after)
    :
    after.Sealed message := by
  have sent := posts.sent
  have wire : Wire after.seq after.sent := by
    rw [sent, posts.seq]
    refine sealed.wire.fresh _ rfl sealed.empty ?_
    rintro (ends | text) <;> contradiction
  refine sealed.mint.posts posts rfl wire (fun ends => nomatch ends) ?_ ?_
  · intro seq cached
    have ending := sealed.minted seq cached
    refine ⟨wire, ?_, posts.buffer ▸ sealed.empty, Or.inl ?_⟩
    · rw [posts.seq]
      exact Nat.lt_succ_of_lt ending.minted
    · rw [sent]
      rcases ending.alone with ⟨terminal, there, is⟩ | none'
      · exact ⟨terminal, List.mem_append_left _ there, is⟩
      · obtain ⟨entry, member, ends⟩ := ended
        simp [(none' entry member).1] at ends
  · exact ⟨nofun, fun _ ⟨_, _, is⟩ => nomatch is⟩

/-- The follow-up suggestions return after these suspensions. -/
def Aftermath.follows (aftermath : Aftermath) : Bool :=
  match aftermath.suggest.ending with
  | none => aftermath.suggestions.isEmpty || aftermath.suggestPublish.ending = none
  | some .timeout | some (.app _) | some .other => true
  | some .shutdown | some .answerDeadline | some .turnDeadline => false

theorem runFollowupSuggestions_ends (sealed : world.Sealed message) (aftermath : Aftermath) :
    Ends (runFollowupSuggestions aftermath)
      (fun suggestions after => after.Sealed message ∧ world.Still after ∧ aftermath.follows =
        (suggestions.isEmpty || aftermath.suggestPublish.ending = none))
      (fun _ after => after.Sealed message ∧ aftermath.follows = false) world := by
  unfold runFollowupSuggestions
  rw [ends_catching, ends_bind]
  refine Ends.mono (awaitOn_sealed sealed aftermath.suggest) ?_ ?_
  · rintro _ after ⟨sealed', resumes, still, -⟩
    exact ⟨sealed', still, by simp [Aftermath.follows, resumes]⟩
  · rintro interrupt after ⟨sealed', raises, still, -⟩
    obtain ⟨fault, is, rfl⟩ := Option.map_eq_some_iff.mp raises
    cases fault with
    | shutdown | answerDeadline | turnDeadline =>
        exact ⟨sealed', by simp [Aftermath.follows, is]⟩
    | timeout | app problem | other =>
        exact ⟨sealed', still, by simp [Aftermath.follows, is]⟩

/-- This is the end of an answer that declared suggestions. -/
def suggestFollowups (aftermath : Aftermath) : Coroutine Unit := do
  let suggestions ← runFollowupSuggestions aftermath
  doWhen (!suggestions.isEmpty) do
    let seq ← nextSeq
    publishOn (return aftermath.suggestPublish) seq (.suggestions suggestions)

theorem suggestFollowups_ends (sealed : world.Sealed message) (aftermath : Aftermath)
    (ended : ∃ entry ∈ world.sent, entry.isTerminal = true) :
    Ends (suggestFollowups aftermath)
      (fun _ after => after.Sealed message ∧ aftermath.follows = true)
      (fun _ after => after.Sealed message ∧ aftermath.follows = false) world := by
  unfold suggestFollowups
  rw [ends_bind]
  refine Ends.mono (runFollowupSuggestions_ends sealed aftermath) ?_ (fun _ _ raised => raised)
  rintro suggestions suggested ⟨sealed', still, follows⟩
  rw [ends_doWhen]
  split
  · next some' =>
      have some'' : suggestions.isEmpty = false := by simpa using some'
      have minted := sealed'.mint
      rw [ends_bind, ends_nextSeq sealed'.closed sealed'.empty, ends_publishOn minted.flowing, ends_pure]
      refine Ends.mono (backplanePublish_ends _ aftermath.suggestPublish _) ?_ ?_
      · rintro _ after ⟨posts, resumes⟩
        refine ⟨sealed'.suggests (still.sent ▸ ended) posts, ?_⟩
        simp [follows, resumes minted.locked]
      · rintro interrupt after ⟨posts, raises⟩
        refine ⟨sealed'.suggests (still.sent ▸ ended) posts, ?_⟩
        obtain ⟨fault, is, -⟩ := Option.map_eq_some_iff.mp (raises minted.locked)
        simp [follows, some'', is]
  · next none' =>
      refine ⟨sealed', ?_⟩
      rw [follows]
      simpa using Or.inl none'

/-- A terminal is posted from a world that has only waited, whether or not it is confirmed. -/
theorem publishTerminal_posts {holds : World → Prop} (flowing : world.Flowing) (deadline : Bool)
    (seq : Nat) (payload : Payload)
    (posts : ∀ middle taken after, world.Rests middle → middle.Posts ⟨seq, payload⟩ taken after →
      holds after) :
    Ends (publishTerminal nextAwait deadline seq payload) (fun _ after => holds after)
      (fun _ after => holds after) world := by
  have confirms : Ends (publishOn nextAwait seq payload) (fun _ after => holds after)
      (fun _ after => holds after) world := by
    rw [ends_publishOn flowing, nextAwait, ends_transition]
    have rests : world.Rests { world with script := world.script.tail } := World.Rests.of_eq rfl
    exact Ends.mono (backplanePublish_ends _ (world.script.headD {}) ⟨seq, payload⟩)
      (fun _ after posted => posts _ true after rests posted.1)
      (fun _ after posted => posts _ _ after rests posted.1)
  unfold publishTerminal
  cases deadline with
  | false => exact (ends_bind _ _).mpr confirms
  | true =>
      simp only [↓reduceIte]
      rw [ends_catching, ends_bind]
      refine Ends.mono confirms (fun _ _ held => held) ?_
      intro interrupt after held
      cases interrupt with
      | timeout => exact held
      | _ => exact held

/-- No `done` is published on the way. -/
def World.Undone (world after : World) : Prop :=
  ∀ entry ∈ after.sent, entry.isDone = true → entry ∈ world.sent

theorem World.Still.undone (still : world.Still after) : world.Undone after :=
  fun _ member _ => still.sent ▸ member

theorem World.Undone.trans {middle : World} (first : world.Undone middle)
    (second : middle.Undone after) : world.Undone after :=
  fun entry member done => first entry (second entry member done) done

theorem World.Posts.undone {envelope : Envelope} (posts : world.Posts envelope taken after)
    (other : ∀ reason pending, envelope.payload ≠ .done reason pending) : world.Undone after := by
  intro entry member done
  rw [posts.sent] at member
  rcases List.mem_append.mp member with old | new
  · exact old
  · rw [List.mem_singleton.mp new] at done
    obtain ⟨reason, pending, is⟩ := Sent.isDone_payload _ done
    exact absurd is (other reason pending)

/-- An event behind the commit is announced under its own number, or it is lost. -/
theorem emit_sealed (sealed : world.Sealed message) (payload : Payload)
    (unended : ∀ entry ∈ world.sent, entry.isTerminal = false) (unminted : world.terminalSeq = none)
    (other : payload.isText = false) (continues : payload.isTerminal = false) :
    Ends (emit payload) (fun _ after => after.Sealed message ∧ world.Undone after)
      (fun _ after => after.Sealed message ∧ world.Undone after) world := by
  have minted := sealed.mint
  unfold emit publish
  rw [ends_bind, ends_nextSeq sealed.closed sealed.empty, ends_publishOn minted.flowing, nextAwait,
    ends_transition]
  have rests : World.Rests { world with seq := world.seq + 1 }
      { world with seq := world.seq + 1, script := world.script.tail } := World.Rests.of_eq rfl
  have rested := minted.still rests.still rests.passes
  have posted : ∀ taken after, World.Posts
      { world with seq := world.seq + 1, script := world.script.tail } ⟨world.seq, payload⟩ taken after →
      after.Sealed message ∧ world.Undone after := by
    intro taken after posts
    refine ⟨rested.posts posts other ?_ ?_ ?_ ?_, posts.undone ?_⟩
    · rw [posts.sent, posts.seq]
      exact sealed.wire.fresh _ rfl sealed.empty fun _ => unended
    · simp [continues]
    · intro seq cached
      exact nomatch unminted.symm.trans cached
    · refine ⟨?_, ?_⟩
      · rintro rfl
        contradiction
      · rintro - ⟨reason, pending, rfl⟩
        contradiction
    · rintro reason pending rfl
      contradiction
  exact Ends.mono (backplanePublish_ends _ _ _) (fun _ after posts => posted _ after posts.1)
    (fun _ after posts => posted _ after posts.1)

/-- An error after the commit is announced under the number of the terminal, without text. -/
theorem terminalError_sealed (sealed : world.Sealed message) (problem : Problem) :
    Ends (terminalError problem) (fun _ after => after.Sealed message ∧ world.Undone after)
      (fun _ after => after.Sealed message ∧ world.Undone after) world := by
  have admits : ∀ sent, message.Admits sent (.error problem) :=
    fun _ => ⟨by simp, by simp⟩
  unfold terminalError
  simp only [ends_bind, ends_observe, ends_ite, ends_doWhen, ends_markTerminalSent, ends_pure,
    sealed.committed, Bool.not_true, Bool.false_and, Bool.false_eq_true, ↓reduceIte]
  split
  · exact ⟨sealed, fun _ member _ => member⟩
  · next unsent =>
      have terminated := sealed.terminated
      cases cached : world.terminated.terminalSeq with
      | some seq =>
          simp only [ends_bind, ends_observe, ends_pure]
          refine publishTerminal_posts terminated.flowing _ seq (.error problem) ?_
          intro middle taken after rests posts
          have rested := terminated.still rests.still rests.passes
          have same : world.Undone middle := fun _ member _ => rests.still.sent ▸ member
          exact ⟨(rested.announced (rests.passes.terminalSeq.trans cached) rfl (admits _) posts).sealed,
            same.trans (posts.undone (by simp))⟩
      | none =>
          have minted := terminated.mint
          simp only [ends_bind, ends_observe, ends_pure,
            ends_nextSeq terminated.closed terminated.empty]
          refine publishTerminal_posts minted.flowing _ _ (.error problem) ?_
          intro middle taken after rests posts
          have rested := minted.still rests.still rests.passes
          have same : world.Undone middle := fun _ member _ => rests.still.sent ▸ member
          have unended : ∀ entry ∈ world.sent, entry.isTerminal = false := by
            intro entry member
            by_contra ends
            rcases sealed.terminals entry member (by simpa using ends) with sent | same
            · exact unsent sent
            · exact absurd (cached.symm.trans same) (by simp)
          have ending : middle.Ending world.seq := by
            refine ⟨rested.wire, ?_, rested.empty, Or.inr ?_⟩
            · rw [rests.still.seq]
              exact Nat.lt_succ_self _
            · rw [rests.still.sent]
              exact fun entry member => ⟨unended entry member, sealed.wire.below entry member⟩
          refine ⟨rested.posts posts rfl (ending.posts posts rfl).wire ?_ ?_ (admits _),
            same.trans (posts.undone (by simp))⟩
          · exact fun _ => Or.inl rests.passes.terminalSent
          · intro seq cached'
            exact absurd ((rests.passes.terminalSeq.trans cached).symm.trans cached') (by simp)

end LumenCopilot.Chat
