import LumenCopilot.Proof.Chat.Streaming

namespace LumenCopilot.Chat

open Python Library

variable {world : World} {faulty : World → Prop}

/-- A stream that published one more envelope before its terminal. -/
theorem World.Streaming.publishes {after : World} {entry : Sent} (streaming : world.Streaming)
    (seq : after.seq = world.seq + 1) (sent : after.sent = world.sent ++ [entry])
    (buffer : after.buffer = world.buffer) (minted : entry.seq = world.seq)
    (drained : entry.buffered = []) (unended : entry.isTerminal = false)
    (spoken : after.partialAnswer.flatten =
      entry.envelope.payload.applyText (answerText world.sent))
    (onWire : after.answerOnWire = true ↔
      entry.envelope.payload.applyText (answerText world.sent) ≠ [])
    (texts : ∀ text, entry.envelope.payload = .delta text → text ≠ []) : after.Streaming := by
  refine ⟨?_, ?_, ?_, ?_, ?_, ?_, ?_⟩
  · rw [seq, sent]
    exact streaming.wire.fresh entry minted drained fun _ => streaming.unended
  · rw [sent]
    exact List.forall_mem_append.mpr ⟨streaming.unended, List.forall_mem_singleton.mpr unended⟩
  · rw [sent, answerText_append, spoken]
  · rw [sent, answerText_append, onWire]
  · rw [sent]
    exact List.forall_mem_append.mpr ⟨streaming.texts, List.forall_mem_singleton.mpr texts⟩
  · rw [buffer]
    exact streaming.closed
  · rw [buffer]
    exact streaming.chunks

theorem whole_append (sent : List Sent) (entry : Sent) (whole : Whole sent)
    (taken : entry.isText = true → entry.taken = true) : Whole (sent ++ [entry]) :=
  List.forall_mem_append.mpr ⟨whole, List.forall_mem_singleton.mpr taken⟩

/-- The stream afterwards, when one more payload was published from a drained buffer. -/
structure World.Sends (world : World) (payload : Payload) (after : World) : Prop where
  goes : world.Goes after
  buffer : after.buffer = world.buffer
  emitted : after.emittedAnswer = world.emittedAnswer
  told : answerText after.sent = payload.applyText (answerText world.sent)

/-- A payload that the text bookkeeping already counts is minted and sent; an ordinary error of a
lost side-band event leaves a calm stream. -/
theorem mintSend_ends (streaming : world.Streaming) (empty : world.buffer.parts = [])
    (spoken : List Text) (onWire : Bool) (payload : Payload) (unended : payload.isTerminal = false)
    (tells : spoken.flatten = payload.applyText (answerText world.sent))
    (wires : onWire = true ↔ payload.applyText (answerText world.sent) ≠ [])
    (texts : ∀ text, payload = .delta text → text ≠ [])
    (changes : payload.isText = true → payload.applyText (answerText world.sent) ≠ answerText world.sent) :
    Ends (do
        let seq ← mintSeq
        let outcome ← nextAwait
        backplanePublish outcome ⟨seq, payload⟩)
      (fun _ after => world.Sends payload after ∧ ∃ entry, after.sent = world.sent ++ [entry] ∧
        entry.envelope.payload = payload ∧ entry.taken = true)
      (fun interrupt after => world.Stops after ∧ interrupt.isProvider = false ∧
        (payload.isText = false → (¬∃ cause, interrupt = .cancelled cause) → world.Sends payload after))
      { world with partialAnswer := spoken, answerOnWire := onWire } := by
  unfold mintSeq nextAwait
  simp only [ends_bind, ends_transition, ends_backplanePublish]
  generalize world.script.headD {} = outcome
  let counted : World := { world with
    partialAnswer := spoken, answerOnWire := onWire, seq := world.seq + 1
    script := world.script.tail }
  have waits := counted.suspend_waits outcome
  have counts : world.Passes counted :=
    ⟨rfl, rfl, rfl, rfl, rfl, rfl, rfl, rfl, rfl, id, id, Or.inl, fun _ => ⟨rfl, id⟩⟩
  unfold World.publishes
  cases suspended : counted.suspend outcome with
  | mk raised resumed =>
      rw [suspended] at waits
      let entry : Sent := ⟨⟨world.seq, payload⟩, outcome.taken || raised.isNone, []⟩
      have sameEntry : (⟨⟨world.seq, payload⟩, outcome.taken || raised.isNone,
          counted.buffer.parts⟩ : Sent) = entry := by
        change (⟨_, _, world.buffer.parts⟩ : Sent) = _
        rw [empty]
      have still : counted.Still resumed := by
        cases raised with
        | none => exact waits.still
        | some interrupt => exact waits.1.still
      have passed : world.Passes resumed := by
        cases raised with
        | none => exact counts.trans waits.passes
        | some interrupt => exact counts.trans waits.1.passes
      have sameSent : resumed.sent = world.sent := still.sent
      have published : World.Streaming { resumed with sent := resumed.sent ++ [entry] } := by
        have sameSpoken : resumed.partialAnswer = spoken := still.partialAnswer
        have sameWire : resumed.answerOnWire = onWire := still.answerOnWire
        refine @World.Streaming.publishes world _ entry streaming still.seq (by rw [sameSent])
          still.buffer rfl rfl unended ?_ ?_ texts
        · rw [sameSpoken]
          exact tells
        · rw [sameWire]
          exact wires
      have passesSent : world.Passes { resumed with sent := resumed.sent ++ [entry] } :=
        { passed with }
      have sends (calm : resumed.cancelRequested = world.cancelRequested)
          (kept : entry.isText = true → entry.taken = true) :
          world.Sends payload { resumed with sent := resumed.sent ++ [entry] } := by
        refine ⟨⟨published, passesSent, calm, ?_⟩, still.buffer, still.emittedAnswer, ?_⟩
        · intro whole
          rw [sameSent]
          exact whole_append world.sent entry whole kept
        · rw [sameSent, answerText_append]
      dsimp only
      rw [sameEntry]
      cases raised with
      | none =>
          exact ⟨sends waits.calm fun _ => by simp [entry], entry, by rw [sameSent], rfl, by simp [entry]⟩
      | some interrupt =>
          refine ⟨⟨published, passesSent, ?_⟩, waits.2, ?_⟩
          · intro whole
            by_cases lost : entry.isText = true ∧ entry.taken = false
            · exact Or.inr ⟨(congrArg TextCoalescer.parts still.buffer).trans empty, world.sent,
                entry, by rw [sameSent], whole, lost.1, lost.2, by
                  rw [sameSent, answerText_append]
                  exact changes lost.1⟩
            · refine Or.inl ?_
              rw [sameSent]
              exact whole_append world.sent entry whole fun text => by
                simpa [text] using lost
          · intro other ordinary
            refine sends (waits.1.uncancelled ordinary).calm fun text => ?_
            have same : entry.isText = payload.isText := rfl
            simp [same, other] at text

/-- The publication of such a payload passes its own check of the Stop. -/
theorem mintPublish_ends (streaming : world.Streaming) (flowing : world.Flowing)
    (empty : world.buffer.parts = []) (spoken : List Text) (onWire : Bool) (payload : Payload)
    (unended : payload.isTerminal = false)
    (tells : spoken.flatten = payload.applyText (answerText world.sent))
    (wires : onWire = true ↔ payload.applyText (answerText world.sent) ≠ [])
    (texts : ∀ text, payload = .delta text → text ≠ [])
    (changes : payload.isText = true → payload.applyText (answerText world.sent) ≠ answerText world.sent) :
    Ends (do let seq ← mintSeq; publish seq payload)
      (fun _ after => world.Sends payload after ∧ ∃ entry, after.sent = world.sent ++ [entry] ∧
        entry.envelope.payload = payload ∧ entry.taken = true)
      (fun interrupt after => world.Stops after ∧ (interrupt.isProvider = true → faulty after))
      { world with partialAnswer := spoken, answerOnWire := onWire } := by
  have sends := Ends.mono (mintSend_ends streaming empty spoken onWire payload unended tells wires texts
      changes)
    (fun _ _ last => last)
    (fun interrupt after stops => (⟨stops.1, by simp [stops.2.1]⟩ :
      world.Stops after ∧ (interrupt.isProvider = true → faulty after)))
  unfold mintSeq publish publishOn
  unfold mintSeq at sends
  simp only [ends_bind, ends_transition, ends_observe, ends_ite, ends_raise] at sends ⊢
  rw [if_neg]
  · exact sends
  · intro refused
    simp only [Bool.and_eq_true, Bool.not_eq_true'] at refused
    obtain ⟨⟨⟨stop, unfinalised⟩, uncommitted⟩, -⟩ := refused
    rcases flowing stop with finalises | committed
    · simp [finalises] at unfinalised
    · simp [committed] at uncommitted

/-- The answer text afterwards; what the turn spoke is still known. -/
structure World.Shows (world : World) (text : Text) (after : World) : Prop where
  live : after.live = text
  emitted : after.emittedAnswer = world.emittedAnswer

theorem World.Still.shows {after : World} (still : world.Still after) : world.Shows world.live after :=
  ⟨still.live, still.emittedAnswer⟩

theorem World.Shows.trans {middle after : World} {text last : Text} (first : world.Shows text middle)
    (second : middle.Shows last after) : world.Shows last after :=
  ⟨second.live, second.emitted.trans first.emitted⟩

/-- The answer text that a text of this kind adds. -/
def TextKind.voiced (text : Text) : TextKind → Text
  | .answer => text
  | .narration _ => []

theorem World.live_of_empty (world : World) (empty : world.buffer.parts = []) :
    world.live = answerText world.sent := by
  unfold World.live
  rw [empty]
  simp

theorem World.live_of_kind (world : World) (kind : TextKind) (same : world.buffer.kind = some kind) :
    world.live = answerText world.sent ++ kind.voiced world.buffer.parts.flatten := by
  unfold World.live
  rw [same]
  cases kind <;> simp [TextKind.voiced]

/-- A well-formed buffer may replace the buffer. -/
theorem World.Goes.rebuffer (streaming : world.Streaming) (buffer : TextCoalescer)
    (closed : buffer.kind = none ↔ buffer.parts = []) (chunks : ∀ part ∈ buffer.parts, part ≠ []) :
    world.Goes { world with buffer := buffer } :=
  ⟨⟨streaming.wire, streaming.unended, streaming.spoken, streaming.onWire, streaming.texts, closed,
    chunks⟩, ⟨rfl, rfl, rfl, rfl, rfl, rfl, rfl, rfl, rfl, id, id, Or.inl, fun _ => ⟨rfl, id⟩⟩, rfl, id⟩

/-- A publication from a drained buffer adds its text when it is answer text. -/
theorem publishTextEnvelope_flows (streaming : world.Streaming) (flowing : world.Flowing)
    (empty : world.buffer.parts = []) (kind : TextKind) (text : Text) (some' : text ≠ []) :
    world.Flows faulty (publishTextEnvelope kind text) fun _ after =>
      world.Shows (world.live ++ kind.voiced text) after ∧ after.buffer = world.buffer := by
  have heard : ∀ after : World, after.buffer = world.buffer →
      after.live = answerText after.sent := by
    intro after same
    exact after.live_of_empty (same ▸ empty)
  rw [world.live_of_empty empty]
  cases kind with
  | narration turn =>
      refine Ends.mono (mintPublish_ends streaming flowing empty world.partialAnswer
        world.answerOnWire (.narration text turn) rfl streaming.spoken streaming.onWire
        (fun _ other => nomatch other) (fun text => nomatch text)) ?_ (fun _ _ stops => stops)
      rintro _ after ⟨⟨goes, buffer, emitted, told⟩, -⟩
      refine ⟨goes, ⟨?_, emitted⟩, buffer⟩
      rw [heard after buffer, told]
      simp [TextKind.voiced, Payload.applyText]
  | answer =>
      have tells : (world.partialAnswer ++ [text]).flatten =
          (Payload.delta text).applyText (answerText world.sent) := by
        simp [Payload.applyText, streaming.spoken]
      refine (ends_bind _ _).mpr ((ends_update _).mpr (Ends.mono (mintPublish_ends streaming flowing
        empty (world.partialAnswer ++ [text]) true (.delta text) rfl tells ?_ ?_ ?_) ?_
        (fun _ _ stops => stops)))
      · simp [Payload.applyText, some']
      · intro other same
        obtain rfl := Payload.delta.inj same
        exact some'
      · simp [Payload.applyText, some']
      · rintro _ after ⟨⟨goes, buffer, emitted, told⟩, -⟩
        refine ⟨goes, ⟨?_, emitted⟩, buffer⟩
        rw [heard after buffer, told]
        simp [TextKind.voiced, Payload.applyText]

theorem flatten_ne_nil (parts : List Text) (some' : parts ≠ []) (chunks : ∀ part ∈ parts, part ≠ []) :
    parts.flatten ≠ [] := by
  obtain ⟨first, rest, rfl⟩ := List.exists_cons_of_ne_nil some'
  simp [chunks first List.mem_cons_self]

/-- A flush publishes the buffered text and leaves no buffer. -/
theorem flushText_flows (streaming : world.Streaming) (flowing : world.Flowing) :
    world.Flows faulty flushText fun _ after =>
      world.Shows world.live after ∧ after.buffer.kind = none := by
  unfold flushText takeBuffer TextCoalescer.take
  refine World.Flows.observe ?_
  refine (ends_bind _ _).mpr ((ends_transition _).mpr ?_)
  by_cases empty : world.buffer.parts = []
  · have goes := World.Goes.rebuffer streaming { world.buffer with kind := none } (by simp [empty])
      streaming.chunks
    have none' := streaming.closed.mpr empty
    simp only [empty, List.isEmpty_nil, ↓reduceIte, none']
    refine (ends_pure ()).mpr ⟨by simpa [empty] using goes, ⟨?_, rfl⟩, rfl⟩
    rw [world.live_of_empty empty, World.live_of_empty _ rfl]
  · have goes := World.Goes.rebuffer streaming
      { world.buffer with kind := none, parts := [], chars := 0 } (by simp) (by simp)
    obtain ⟨kind, is⟩ := Option.ne_none_iff_exists'.mp (mt streaming.closed.mp empty)
    simp only [List.isEmpty_iff, empty, ↓reduceIte, is]
    have flows : World.Flows _ faulty _ _ := publishTextEnvelope_flows goes.streaming
      (goes.flowing flowing) rfl kind world.buffer.parts.flatten
      (flatten_ne_nil _ empty streaming.chunks)
    refine Ends.mono flows ?_ (fun _ _ stops => ⟨goes.stops stops.1, stops.2⟩)
    rintro _ after ⟨goes', shows, buffer⟩
    refine ⟨goes.trans goes', ⟨?_, shows.emitted⟩, by rw [buffer]⟩
    rw [shows.live, World.live_of_empty _ rfl, world.live_of_kind kind is]

/-- An envelope other than streamed text follows the buffered text. -/
theorem emit_flows (streaming : world.Streaming) (flowing : world.Flowing) (payload : Payload)
    (unended : payload.isTerminal = false) (other : payload.isText = false) :
    world.Flows faulty (emit payload) fun _ after =>
      world.Shows world.live after ∧ after.buffer.kind = none ∧
        ∃ entry ∈ after.sent, entry.envelope.payload = payload ∧ entry.taken = true := by
  unfold emit nextSeq
  rw [bind_assoc]
  refine World.Flows.bind (flushText_flows streaming flowing) ?_
  rintro _ middle goes ⟨shows, closed⟩
  have empty := goes.streaming.closed.mp closed
  have same := payload.applyText_other (answerText middle.sent) other
  refine Ends.mono (mintPublish_ends goes.streaming (goes.flowing flowing) empty
    middle.partialAnswer middle.answerOnWire payload unended ?_ ?_ ?_ ?_) ?_ (fun _ _ stops => stops)
  · rw [same, goes.streaming.spoken]
  · rw [same]
    exact goes.streaming.onWire
  · rintro text rfl
    contradiction
  · simp [other]
  · rintro _ after ⟨⟨goes', buffer, emitted, told⟩, entry, sent, is, taken⟩
    refine ⟨goes', ⟨?_, emitted.trans shows.emitted⟩, by rw [buffer, closed], entry, ?_, is, taken⟩
    · rw [after.live_of_empty (buffer ▸ empty), told, same, ← shows.live, middle.live_of_empty empty]
    · rw [sent]
      exact List.mem_append_right _ List.mem_cons_self

theorem World.Flows.doWhen {condition : Bool} {program : Coroutine Unit} {returned : World → Prop}
    (streaming : world.Streaming)
    (yes : condition = true → world.Flows faulty program fun _ after => returned after)
    (no : condition = false → returned world) :
    world.Flows faulty (doWhen condition program) fun _ after => returned after := by
  cases condition with
  | true => exact yes rfl
  | false => exact World.Flows.pure streaming (no rfl)

/-- The buffer takes a chunk of its own kind, or the chunk completes it. -/
theorem TextCoalescer.add_cases (buffer : TextCoalescer) (maxChars : Nat) (maxDelay now : Int)
    (kind : TextKind) (chunk : Text) (mine : buffer.kind = none ∨ buffer.kind = some kind) :
    (∃ drained, buffer.add maxChars maxDelay now kind chunk =
        (some (buffer.parts ++ [chunk]).flatten, drained) ∧ drained.kind = none ∧ drained.parts = []) ∨
      ∃ held, buffer.add maxChars maxDelay now kind chunk = (none, held) ∧ held.kind = some kind ∧
        held.parts = buffer.parts ++ [chunk] := by
  unfold TextCoalescer.add
  generalize openedIs : (if buffer.kind.isNone then
    { buffer with kind := some kind, openedAt := now } else buffer) = opened
  have openedKind : opened.kind = some kind := by
    rw [← openedIs]
    rcases mine with closed | same
    · simp [closed]
    · simp [same]
  have openedParts : opened.parts = buffer.parts := by
    rw [← openedIs]
    split <;> rfl
  dsimp only
  split
  · refine Or.inl ⟨{ opened with kind := none, parts := [], chars := 0 }, ?_, rfl, rfl⟩
    simp [TextCoalescer.take, openedParts]
  · exact Or.inr ⟨_, rfl, openedKind, by rw [openedParts]⟩

/-- A chunk joins the buffered text of its kind. -/
theorem addChunk_flows (streaming : world.Streaming) (flowing : world.Flowing) (config : Config)
    (now : Int) (kind : TextKind) (chunk : Text) (some' : chunk ≠ [])
    (mine : world.buffer.kind = none ∨ world.buffer.kind = some kind) :
    world.Flows faulty (do
        match ← addToBuffer config now kind chunk with
        | some ready => publishTextEnvelope kind ready
        | none => return ()) fun _ after => world.Shows (world.live ++ kind.voiced chunk) after := by
  have held : world.live = answerText world.sent ++ kind.voiced world.buffer.parts.flatten := by
    rcases mine with closed | same
    · rw [world.live_of_empty (streaming.closed.mp closed), streaming.closed.mp closed]
      cases kind <;> simp [TextKind.voiced]
    · exact world.live_of_kind kind same
  have grown : world.live ++ kind.voiced chunk =
      answerText world.sent ++ kind.voiced (world.buffer.parts ++ [chunk]).flatten := by
    rw [held]
    cases kind <;> simp [TextKind.voiced]
  have chunks : ∀ part ∈ world.buffer.parts ++ [chunk], part ≠ [] :=
    List.forall_mem_append.mpr ⟨streaming.chunks, List.forall_mem_singleton.mpr some'⟩
  rw [grown]
  unfold addToBuffer
  refine (ends_bind _ _).mpr ((ends_transition _).mpr ?_)
  rcases world.buffer.add_cases config.textCoalesceChars config.textCoalesceMillis now kind chunk mine
    with ⟨buffer, is, closed, empty⟩ | ⟨buffer, is, opened, parts⟩
  · have goes := World.Goes.rebuffer streaming buffer (by simp [closed, empty]) (by simp [empty])
    have flows : World.Flows _ faulty _ _ := publishTextEnvelope_flows goes.streaming
      (goes.flowing flowing) empty kind (world.buffer.parts ++ [chunk]).flatten
      (flatten_ne_nil _ (by simp) chunks)
    simp only [is]
    refine Ends.mono flows ?_ (fun _ _ stops => ⟨goes.stops stops.1, stops.2⟩)
    rintro _ after ⟨goes', shows, -⟩
    refine ⟨goes.trans goes', ⟨?_, shows.emitted⟩⟩
    rw [shows.live, World.live_of_empty _ empty]
  · have goes := World.Goes.rebuffer streaming buffer (by simp [opened, parts]) (parts ▸ chunks)
    simp only [is]
    refine (ends_pure ()).mpr ⟨goes, ⟨?_, rfl⟩⟩
    rw [World.live_of_kind _ kind opened, parts]

/-- A chunk of answer text follows the live text, and narration leaves it. -/
theorem streamText_flows (streaming : world.Streaming) (flowing : world.Flowing) (config : Config)
    (kind : TextKind) (chunk : Text) :
    world.Flows faulty (streamText config kind chunk) fun _ after =>
      world.Shows (world.live ++ kind.voiced chunk) after := by
  unfold streamText
  refine World.Flows.ite ?_ ?_
  · intro empty
    refine World.Flows.pure streaming ⟨?_, rfl⟩
    rw [List.isEmpty_iff.mp empty]
    cases kind <;> simp [TextKind.voiced]
  · intro some'
    have opened : world.Flows faulty
        (doWhen (world.buffer.kind.isSome && world.buffer.kind ≠ some kind) flushText) fun _ after =>
          world.Shows world.live after ∧
            (after.buffer.kind = none ∨ after.buffer.kind = some kind) := by
      refine World.Flows.doWhen streaming ?_ ?_
      · intro _
        exact (flushText_flows streaming flowing).mono
          fun _ after _ flushed => ⟨flushed.1, Or.inl flushed.2⟩
      · intro mine
        refine ⟨⟨rfl, rfl⟩, ?_⟩
        cases kindIs : world.buffer.kind <;> simp_all
    refine World.Flows.observe (World.Flows.bind opened ?_)
    rintro _ middle goes ⟨shows, mine⟩
    refine (readClock_waits middle).then_flows goes.streaming ?_
    intro now ticked rests
    have goes' := rests.goes goes.streaming
    refine (addChunk_flows goes'.streaming (goes'.flowing (goes.flowing flowing)) config now kind chunk
      (by simpa using some') (by rw [rests.still.buffer]; exact mine)).mono ?_
    intro _ after _ added
    refine ⟨?_, added.emitted.trans (rests.still.emittedAnswer.trans shows.emitted)⟩
    rw [added.live, rests.still.live, shows.live]

/-- Only narration survives a discarded buffer, and it is published. -/
theorem discardBuffer_flows (streaming : world.Streaming) (flowing : world.Flowing) :
    world.Flows faulty discardBuffer fun _ after =>
      after.buffer.kind = none ∧ after.emittedAnswer = world.emittedAnswer := by
  unfold discardBuffer
  refine World.Flows.observe (World.Flows.ite ?_ ?_)
  · intro _
    unfold takeBuffer
    refine (ends_bind _ _).mpr ((ends_transition _).mpr ((ends_pure _).mpr ?_))
    unfold TextCoalescer.take
    split
    · next empty =>
        exact ⟨World.Goes.rebuffer streaming _ (by simpa using empty) streaming.chunks, rfl, rfl⟩
    · exact ⟨World.Goes.rebuffer streaming _ (by simp) (by simp), rfl, rfl⟩
  · intro _
    exact (flushText_flows streaming flowing).mono
      fun _ after _ flushed => ⟨flushed.2, flushed.1.emitted⟩

/-- A retraction clears the answer text of the wire and of the buffer. -/
theorem retractAnswer_flows (streaming : world.Streaming) (flowing : world.Flowing) :
    world.Flows faulty retractAnswer fun _ after =>
      world.Shows [] after ∧ after.buffer.kind = none := by
  unfold retractAnswer
  refine World.Flows.bind (discardBuffer_flows streaming flowing) ?_
  rintro _ middle goes ⟨closed, emitted⟩
  have empty := goes.streaming.closed.mp closed
  simp only [World.Flows, ends_bind, ends_update, ends_observe, ends_ite]
  split
  · next wired =>
    refine (ends_bind _ _).mp (Ends.mono (mintPublish_ends goes.streaming (goes.flowing flowing) empty
      [] false .answerRetract rfl rfl (by simp [Payload.applyText]) (by simp)
      (fun _ => (goes.streaming.onWire.mp wired).symm)) ?_ (fun _ _ stops => stops))
    rintro _ after ⟨⟨goes', buffer, emitted', told⟩, -⟩
    refine ⟨goes', ⟨?_, emitted'.trans emitted⟩, by rw [buffer, closed]⟩
    rw [after.live_of_empty (buffer ▸ empty), told]
    rfl
  · next silent =>
      have nothing : answerText middle.sent = [] := by
        by_contra some'
        exact silent (goes.streaming.onWire.mpr some')
      refine (ends_pure ()).mpr ⟨⟨⟨goes.streaming.wire, goes.streaming.unended, ?_,
        goes.streaming.onWire, goes.streaming.texts, goes.streaming.closed, goes.streaming.chunks⟩,
        ⟨rfl, rfl, rfl, rfl, rfl, rfl, rfl, rfl, rfl, id, id, Or.inl, fun _ => ⟨rfl, id⟩⟩, rfl, id⟩,
        ⟨?_, emitted⟩, closed⟩
      · exact nothing.symm
      · exact (World.live_of_empty _ empty).trans nothing

/-- The chunks of a kept text follow the live text. -/
theorem publishText_flows (config : Config) (chunks : List Text) :
    ∀ world : World, world.Streaming → world.Flowing →
      world.Flows faulty (publishText config chunks) fun _ after =>
        world.Shows (world.live ++ chunks.flatten) after := by
  induction chunks with
  | nil =>
      intro world streaming flowing
      exact World.Flows.pure streaming ⟨by simp, rfl⟩
  | cons chunk rest ih =>
      intro world streaming flowing
      refine World.Flows.bind (streamText_flows streaming flowing config .answer chunk) ?_
      intro _ middle goes shows
      refine (ih middle goes.streaming (goes.flowing flowing)).mono ?_
      intro _ after _ last
      refine ⟨?_, last.emitted.trans shows.emitted⟩
      rw [last.live, shows.live]
      simp [TextKind.voiced]

end LumenCopilot.Chat
