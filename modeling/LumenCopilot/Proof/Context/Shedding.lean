import LumenCopilot.Proof.Context.Accounting
import LumenCopilot.Proof.Library.Partial

namespace LumenCopilot.Context

open Python Library

/-- The later message is the same tool result with a digested content, or the same message. -/
inductive Digests (digestChars : Int) (cited : CitedSnippets) (message : ChatMessage) :
    ChatMessage → Prop
  | same : Digests digestChars cited message message
  | digest {later : ChatMessage} (result : message.role = .tool)
      (earlier : Digests digestChars cited message later) :
      Digests digestChars cited message
        { later with
            content :=
              contextDigest later.content digestChars (snippetsOf cited message.toolCallId) }

/-- A digest changes nothing but the content of a tool result. -/
theorem Digests.fields {digestChars : Int} {cited : CitedSnippets} {message later : ChatMessage}
    (digests : Digests digestChars cited message later) :
    (∃ content, later = { message with content := content }) ∧
      (message.role ≠ .tool → later = message) := by
  induction digests with
  | same => exact ⟨⟨message.content, rfl⟩, fun _ => rfl⟩
  | digest result earlier ih =>
      obtain ⟨⟨content, rfl⟩, -⟩ := ih
      exact ⟨⟨_, rfl⟩, fun other => absurd result other⟩

theorem Digests.trans {digestChars : Int} {cited : CitedSnippets}
    {first second third : ChatMessage} (early : Digests digestChars cited first second)
    (late : Digests digestChars cited second third) : Digests digestChars cited first third := by
  obtain ⟨⟨content, fields⟩, -⟩ := early.fields
  have sameRole : second.role = first.role := by rw [fields]
  have sameCall : second.toolCallId = first.toolCallId := by rw [fields]
  induction late with
  | same => exact early
  | digest result earlier ih =>
      rw [sameCall]
      exact Digests.digest (sameRole ▸ result) ih

/-- The later list holds the same messages, with digested tool results from the tail on. -/
structure Retells (digestChars : Int) (cited : CitedSnippets) (tailStart : Nat)
    (before after : List ChatMessage) : Prop where
  length : after.length = before.length
  each : ∀ (i : Nat) (message : ChatMessage), before[i]? = some message →
    ∃ later, after[i]? = some later ∧ Digests digestChars cited message later ∧
      (i < tailStart → later = message)

variable {before after : List ChatMessage}

section
variable {digestChars : Int} {cited : CitedSnippets} {tailStart : Nat}

theorem Retells.refl (messages : List ChatMessage) :
    Retells digestChars cited tailStart messages messages :=
  ⟨rfl, fun _ message here => ⟨message, here, .same, fun _ => rfl⟩⟩

theorem Retells.trans {first second third : List ChatMessage}
    (early : Retells digestChars cited tailStart first second)
    (late : Retells digestChars cited tailStart second third) :
    Retells digestChars cited tailStart first third := by
  refine ⟨late.length.trans early.length, ?_⟩
  intro i message here
  obtain ⟨middle, there, digested, fixed⟩ := early.each i message here
  obtain ⟨later, last, redigested, fixedLater⟩ := late.each i middle there
  refine ⟨later, last, digested.trans redigested, ?_⟩
  intro inHistory
  rw [fixedLater inHistory, fixed inHistory]

/-- The message at a place comes from the message at the same place. -/
theorem Retells.back (retells : Retells digestChars cited tailStart before after) (i : Nat)
    (later : ChatMessage) (there : after[i]? = some later) :
    ∃ message, before[i]? = some message ∧ Digests digestChars cited message later := by
  have inside := (List.getElem?_eq_some_iff.mp there).1
  rw [retells.length] at inside
  obtain ⟨other, here, digested, -⟩ := retells.each i _ (List.getElem?_eq_getElem inside)
  rw [there] at here
  obtain rfl := Option.some.inj here
  exact ⟨_, List.getElem?_eq_getElem inside, digested⟩

theorem Retells.take (retells : Retells digestChars cited tailStart before after) :
    after.take tailStart = before.take tailStart := by
  apply List.ext_getElem?
  intro i
  rw [List.getElem?_take, List.getElem?_take]
  split
  · next inHistory =>
      cases here : before[i]? with
      | none =>
          rw [List.getElem?_eq_none_iff] at here ⊢
          rw [retells.length]
          exact here
      | some message =>
          obtain ⟨later, there, -, fixed⟩ := retells.each i message here
          rw [there, fixed inHistory]
  · rfl

/-- The tails match message by message. -/
theorem Retells.tails (retells : Retells digestChars cited tailStart before after) (start : Nat) :
    List.Forall₂ (Digests digestChars cited) (before.drop start) (after.drop start) := by
  rw [List.forall₂_iff_get]
  constructor
  · rw [List.length_drop, List.length_drop, retells.length]
  · intro i inside insideLater
    simp only [List.get_eq_getElem, List.getElem_drop]
    rw [List.length_drop] at inside
    obtain ⟨later, there, digested, -⟩ := retells.each (start + i) _
      (List.getElem?_eq_getElem (by omega))
    obtain ⟨_, same⟩ := List.getElem?_eq_some_iff.mp there
    exact same ▸ digested

end

variable {count : Text → Nat} {strictSchema : StrictSchema} {tools : List ToolSpec}

/-- One digest at a tool result of the tail retells the working list. -/
theorem FitState.digest_retells (digestChars : Int) (cited : CitedSnippets) (tailStart : Nat)
    (state after : FitState) (i : Nat) (inTail : tailStart ≤ i)
    (result : ∀ message, state.working[i]? = some message → message.role = .tool)
    (digested : state.digest count digestChars cited i = .ok after) :
    Retells digestChars cited tailStart state.working after.working := by
  unfold FitState.digest at digested
  split at digested
  · next message cost here there =>
      obtain ⟨newCost, -, decided⟩ := bind_eq_ok digested
      split at decided
      · obtain rfl := Except.ok.inj decided
        exact Retells.refl _
      · obtain rfl := Except.ok.inj decided
        refine ⟨by simp [FitState.mark], ?_⟩
        intro j other place
        by_cases same : i = j
        · subst same
          rw [here] at place
          obtain rfl := Option.some.inj place
          have inside := (List.getElem?_eq_some_iff.mp here).1
          refine ⟨_, List.getElem?_set_self inside, .digest (result message here) .same, ?_⟩
          intro early
          omega
        · exact ⟨other, (List.getElem?_set_ne same).trans place, .same, fun _ => rfl⟩
  · obtain rfl := Except.ok.inj digested
    exact Retells.refl _

theorem compactSupersededToolResults_retells (digestChars : Int) (cited : CitedSnippets)
    (tailStart : Nat) (state after : FitState)
    (compacted : compactSupersededToolResults count digestChars cited tailStart state = .ok after) :
    Retells digestChars cited tailStart state.working after.working := by
  refine foldlM_keeps _ (fun current => Retells digestChars cited tailStart state.working
    current.working) _ ?_ state after (Retells.refl _) compacted
  intro current i next member held step
  have inTail := (List.mem_range'_1.mp member).1
  split at step
  · next superseded =>
      apply held.trans
      apply current.digest_retells digestChars cited tailStart next i inTail _ step
      intro message here
      rw [here] at superseded
      simp only [Option.any_some, isSuperseded, Bool.and_eq_true, decide_eq_true_eq] at superseded
      exact superseded.1
  · obtain rfl := Except.ok.inj step
    exact held

theorem compactProactively_retells (config : ContextConfig) (cited : CitedSnippets)
    (state after : FitState) (compacted : compactProactively count config cited state = .ok after) :
    Retells config.compactionDigestChars cited (lastQuestionIndex state.working) state.working
      after.working := by
  unfold compactProactively at compacted
  split at compacted
  · exact compactSupersededToolResults_retells _ cited _ state after compacted
  · obtain rfl := Except.ok.inj compacted
    exact Retells.refl _

/-- The property survives every digest of a tool result of the tail and every offer. -/
structure KeptByDigests (count : Text → Nat) (digestChars : Int) (cited : CitedSnippets)
    (tailStart : Nat) (holds : FitState → Prop) : Prop where
  offer : ∀ (state : FitState) (i : Nat), holds state →
    holds { state with offered := state.offered ++ [i] }
  digest : ∀ (state after : FitState) (i : Nat), holds state → tailStart ≤ i →
    (∀ message, state.working[i]? = some message → message.role = .tool) →
      state.digest count digestChars cited i = .ok after → holds after

section

variable {digestChars : Int} {cited : CitedSnippets} {tailStart : Nat} {holds : FitState → Prop}
  (kept : KeptByDigests count digestChars cited tailStart holds) (budget : Int)
include kept

/-- The chunks of one tier retell the tail, when every candidate is a tool result of it. -/
theorem compactChunks_keeps (chunkSize fuel : Nat) (candidates : List Nat) (state after : FitState)
    (results : ∀ i ∈ candidates, tailStart ≤ i ∧
      ∀ message, state.working[i]? = some message → message.role = .tool) (initially : holds state)
    (compacted : compactChunks count digestChars cited budget chunkSize fuel candidates state =
      .ok after) :
    Retells digestChars cited tailStart state.working after.working ∧ holds after := by
  have later {current : FitState} (held : Retells digestChars cited tailStart state.working
      current.working) (i : Nat) (member : i ∈ candidates) : tailStart ≤ i ∧
        ∀ message, current.working[i]? = some message → message.role = .tool := by
    refine ⟨(results i member).1, ?_⟩
    intro message here
    obtain ⟨earlier, there, digested⟩ := held.back i message here
    obtain ⟨⟨content, fields⟩, -⟩ := digested.fields
    rw [fields]
    exact (results i member).2 earlier there
  induction fuel generalizing candidates state with
  | zero =>
      obtain rfl := Except.ok.inj compacted
      exact ⟨Retells.refl _, initially⟩
  | succ fuel ih =>
      unfold compactChunks at compacted
      split at compacted
      · obtain rfl := Except.ok.inj compacted
        exact ⟨Retells.refl _, initially⟩
      · obtain ⟨next, offered, rest⟩ := bind_eq_ok compacted
        have chunk : Retells digestChars cited tailStart state.working next.working ∧
            holds next := by
          refine foldlM_keeps _ (fun current => Retells digestChars cited tailStart state.working
            current.working ∧ holds current) _ ?_ state next ⟨Retells.refl _, initially⟩ offered
          intro current i following member held step
          obtain ⟨inTail, result⟩ := later held.1 i (List.mem_of_mem_take member)
          have offer := kept.offer current i held.2
          exact ⟨held.1.trans (FitState.digest_retells digestChars cited tailStart
              { current with offered := current.offered ++ [i] } following i inTail result step),
            kept.digest _ following i offer inTail result step⟩
        have last := ih (candidates.drop chunkSize) next
          (fun i member => later chunk.1 i (List.mem_of_mem_drop member)) chunk.2 rest
          (fun held i member => later (chunk.1.trans held) i (List.mem_of_mem_drop member))
        exact ⟨chunk.1.trans last.1, last.2⟩

theorem compactTier_keeps (chunkSize : Nat) (state after : FitState) (tierCited : Bool)
    (initially : holds state)
    (compacted : compactTier count digestChars cited budget chunkSize tailStart state tierCited =
      .ok after) :
    Retells digestChars cited tailStart state.working after.working ∧ holds after := by
  apply compactChunks_keeps kept budget chunkSize _ _ state after _ initially compacted
  intro i member
  unfold tierCandidates at member
  rw [List.mem_filter, List.mem_range'_1] at member
  refine ⟨member.1.1, ?_⟩
  intro message here
  have candidate := member.2
  rw [here] at candidate
  simp only [Option.any_some, Bool.and_eq_true, decide_eq_true_eq] at candidate
  exact candidate.1

theorem compactOldestToolResults_keeps (chunkSize : Nat) (state after : FitState)
    (initially : holds state)
    (compacted : compactOldestToolResults count digestChars cited budget chunkSize tailStart state =
      .ok after) :
    Retells digestChars cited tailStart state.working after.working ∧ holds after := by
  unfold compactOldestToolResults at compacted
  refine foldlM_keeps _ (fun current => Retells digestChars cited tailStart state.working
    current.working ∧ holds current) _ ?_ state after ⟨Retells.refl _, initially⟩ compacted
  intro current tierCited next member held step
  have tier := compactTier_keeps kept budget chunkSize current next tierCited held.2 step
  exact ⟨held.1.trans tier.1, tier.2⟩

end

/-- The current question depends only on the roles and calls of the messages. -/
theorem lastQuestionIndex_congr (before after : List ChatMessage)
    (same : after.map ChatMessage.isQuestion = before.map ChatMessage.isQuestion) :
    lastQuestionIndex after = lastQuestionIndex before := by
  have sameLength : after.length = before.length := by simpa using congrArg List.length same
  have found (messages : List ChatMessage) : messages.reverse.findIdx? ChatMessage.isQuestion =
      (messages.map ChatMessage.isQuestion).reverse.findIdx? id := by
    rw [← List.map_reverse, List.findIdx?_map]
    rfl
  unfold lastQuestionIndex
  rw [found, found, same, sameLength]

/-- What does not depend on the contents stays. -/
theorem Retells.map_eq {digestChars : Int} {cited : CitedSnippets} {tailStart : Nat}
    (retells : Retells digestChars cited tailStart before after) {γ : Type} (view : ChatMessage → γ)
    (blind : ∀ message content, view { message with content := content } = view message) :
    after.map view = before.map view := by
  apply List.ext_getElem?
  intro i
  rw [List.getElem?_map, List.getElem?_map]
  cases here : before[i]? with
  | none =>
      rw [List.getElem?_eq_none_iff, ← retells.length, ← List.getElem?_eq_none_iff] at here
      rw [here]
  | some message =>
      obtain ⟨later, there, digested, -⟩ := retells.each i message here
      obtain ⟨⟨content, rfl⟩, -⟩ := digested.fields
      rw [there]
      exact congrArg some (blind message content)

theorem Retells.question {digestChars : Int} {cited : CitedSnippets} {tailStart : Nat}
    (retells : Retells digestChars cited tailStart before after) :
    lastQuestionIndex after = lastQuestionIndex before := by
  apply lastQuestionIndex_congr
  exact retells.map_eq _ fun _ _ => rfl

/-- The message at the start of the tail is the current question. -/
theorem lastQuestionIndex_question (messages : List ChatMessage) (message : ChatMessage)
    (here : messages[lastQuestionIndex messages]? = some message) : message.isQuestion = true := by
  unfold lastQuestionIndex at here
  cases found : messages.reverse.findIdx? ChatMessage.isQuestion with
  | none => simp [found] at here
  | some back =>
      obtain ⟨inside, question, -⟩ := List.findIdx?_eq_some_iff_getElem.mp found
      rw [found] at here
      dsimp only at here
      rw [List.length_reverse] at inside
      rw [List.getElem_reverse] at question
      obtain ⟨_, same⟩ := List.getElem?_eq_some_iff.mp here
      rw [← same]
      exact question

theorem lastQuestionIndex_pos (head : ChatMessage) (rest : List ChatMessage)
    (system : head.role = .system) : 1 ≤ lastQuestionIndex (head :: rest) := by
  by_contra zero
  have first : lastQuestionIndex (head :: rest) = 0 := by omega
  have question := lastQuestionIndex_question (head :: rest) head (by rw [first]; rfl)
  simp [ChatMessage.isQuestion, system] at question

/-- The result answers a call that the assistant message requests. -/
def Owns (call result : ChatMessage) : Prop :=
  call.role = .assistant ∧ ∃ toolCall ∈ call.toolCalls, result.toolCallId = some toolCall.id

/-- Every tool result follows the call that owns it through other tool results only. -/
def Paired (isResult : ChatMessage → Bool) (messages : List ChatMessage) : Prop :=
  ∀ (i : Nat) (result : ChatMessage), messages[i]? = some result → isResult result = true →
    ∃ (j : Nat) (call : ChatMessage), j < i ∧ messages[j]? = some call ∧ Owns call result ∧
      ∀ (k : Nat) (between : ChatMessage), j < k → k < i → messages[k]? = some between →
        isResult between = true

/-- The test for a tool result reads its role or its call id, and not its content. -/
structure ResultKind (isResult : ChatMessage → Bool) : Prop where
  content : ∀ (message : ChatMessage) (content : Text),
    isResult { message with content := content } = isResult message
  known : ∀ message : ChatMessage, isResult message = true →
    message.role = .tool ∨ message.toolCallId.isSome = true

section
variable {isResult : ChatMessage → Bool}

/-- A digested result is still a result of the same call. -/
theorem Retells.paired (kind : ResultKind isResult) {digestChars : Int} {cited : CitedSnippets}
    {tailStart : Nat} (retells : Retells digestChars cited tailStart before after)
    (paired : Paired isResult before) : Paired isResult after := by
  intro i result here isOne
  obtain ⟨earlier, there, digested⟩ := retells.back i result here
  obtain ⟨⟨content, rfl⟩, -⟩ := digested.fields
  rw [kind.content] at isOne
  obtain ⟨j, call, before', place, owns, between⟩ := paired i earlier there isOne
  obtain ⟨later, placeLater, digestedCall, -⟩ := retells.each j call place
  obtain ⟨⟨callContent, rfl⟩, -⟩ := digestedCall.fields
  refine ⟨j, _, before', placeLater, owns, ?_⟩
  intro k middle after' before'' placeMiddle
  obtain ⟨source, placeSource, digestedMiddle⟩ := retells.back k middle placeMiddle
  obtain ⟨⟨middleContent, rfl⟩, -⟩ := digestedMiddle.fields
  rw [kind.content]
  exact between k source after' before'' placeSource

/-- A question is no tool result. -/
theorem ResultKind.question (kind : ResultKind isResult) (message : ChatMessage) (question : message.isQuestion = true) :
    isResult message = false := by
  simp only [ChatMessage.isQuestion, Bool.and_eq_true, decide_eq_true_eq,
    Option.isNone_iff_eq_none] at question
  by_contra result
  rcases kind.known message (by simpa using result) with tool | called
  · rw [tool] at question
    exact absurd question.1 (by decide)
  · simp [question.2] at called

theorem takeWhile_stops {α : Type} (keep : α → Bool) (items : List α) (item : α)
    (here : items[(items.takeWhile keep).length]? = some item) : keep item = false := by
  induction items with
  | nil => simp at here
  | cons first rest ih =>
      cases kept : keep first with
      | true =>
          rw [List.takeWhile_cons_of_pos kept] at here
          exact ih (by simpa using here)
      | false =>
          rw [List.takeWhile_cons_of_neg (by simp [kept])] at here
          have same : first = item := by simpa using here
          exact same ▸ kept

/-- A history unit is one plain message, or a call with the results behind it. -/
theorem oldestSheddableSpan_unit (messages : List ChatMessage) (tailStart start stop : Nat)
    (span : oldestSheddableSpan messages tailStart = some (start, stop)) :
    start = 1 ∧ 2 ≤ stop ∧ stop ≤ tailStart ∧
      ((stop = 2 ∧ ∃ unit, messages[1]? = some unit ∧ unit.toolCalls = []) ∨ stop = tailStart ∨
        ∀ message, messages[stop]? = some message → message.toolCallId = none) := by
  unfold oldestSheddableSpan at span
  split at span
  · simp at span
  · next history =>
      obtain ⟨unit, place, ends⟩ := Option.map_eq_some_iff.mp span
      split at ends
      · next plain =>
          simp only [Prod.mk.injEq] at ends
          obtain ⟨rfl, rfl⟩ := ends
          exact ⟨rfl, le_rfl, by omega, Or.inl ⟨rfl, unit, place, List.isEmpty_iff.mp plain⟩⟩
      · simp only [Prod.mk.injEq] at ends
        obtain ⟨rfl, rfl⟩ := ends
        have run := (List.takeWhile_prefix (fun message : ChatMessage => message.toolCallId.isSome)
          (l := (messages.take tailStart).drop 2)).length_le
        have stops := takeWhile_stops (fun message : ChatMessage => message.toolCallId.isSome)
          ((messages.take tailStart).drop 2)
        have size : ((messages.take tailStart).drop 2).length ≤ tailStart - 2 := by
          rw [List.length_drop, List.length_take]
          omega
        generalize (((messages.take tailStart).drop 2).takeWhile
          (·.toolCallId.isSome)).length = taken at run stops ⊢
        refine ⟨rfl, by omega, by omega, Or.inr ?_⟩
        rcases Nat.lt_or_ge (2 + taken) tailStart with inside | full
        · right
          intro message here
          have next' : ((messages.take tailStart).drop 2)[taken]? = some message := by
            rw [List.getElem?_drop, List.getElem?_take_of_lt inside]
            exact here
          simpa using stops message next'
        · left
          omega

/-- The first message after a history unit is no tool result. -/
theorem oldestSheddableSpan_boundary (messages : List ChatMessage) (tailStart start stop : Nat)
    (paired : Paired isResult messages)
    (head : ∀ message, messages[0]? = some message → message.role ≠ .assistant)
    (tail : ∀ message, messages[tailStart]? = some message → isResult message = false)
    (span : oldestSheddableSpan messages tailStart = some (start, stop)) (message : ChatMessage)
    (here : messages[stop]? = some message) : isResult message = false := by
  obtain ⟨-, -, -, unit⟩ := oldestSheddableSpan_unit messages tailStart start stop span
  rcases unit with ⟨rfl, unit, place, plain⟩ | rfl | uncalled
  · by_contra isOne
    obtain ⟨j, call, before, placeCall, owns, -⟩ := paired 2 message here (by simpa using isOne)
    rcases Nat.lt_succ_iff_lt_or_eq.mp before with first | rfl
    · have zero : j = 0 := by omega
      rw [zero] at placeCall
      exact head call placeCall owns.1
    · rw [place] at placeCall
      obtain rfl := Option.some.inj placeCall
      obtain ⟨toolCall, member, -⟩ := owns.2
      simp [plain] at member
  · exact tail message here
  · by_contra isOne
    obtain ⟨-, call, -, -, owns, -⟩ := paired stop message here (by simpa using isOne)
    obtain ⟨toolCall, -, same⟩ := owns.2
    simp [uncalled message here] at same

theorem shed_getElem? (head : ChatMessage) (rest : List ChatMessage) (skipped i : Nat) :
    ((head :: rest).take 1 ++ (head :: rest).drop (skipped + 1))[i + 1]? =
      (head :: rest)[skipped + i + 1]? := by
  simp

theorem shed_place (messages : List ChatMessage) (dropped question k : Nat)
    (bounded : dropped = 0 ∨ dropped + 1 ≤ question) :
    (messages.take 1 ++ messages.drop (dropped + 1))[question - dropped + k]? =
      messages[question + k]? := by
  rcases bounded with rfl | history
  · rw [Nat.zero_add, List.take_append_drop, Nat.sub_zero]
  · cases messages with
    | nil => simp
    | cons head rest =>
        obtain ⟨offset, rfl⟩ : ∃ offset, question = dropped + offset + 1 :=
          ⟨question - dropped - 1, by omega⟩
        have index : dropped + offset + 1 - dropped + k = offset + k + 1 := by omega
        rw [index, shed_getElem?]
        congr 1
        omega

/-- The history without its oldest unit is still paired. -/
theorem Paired.shed {messages : List ChatMessage} (stop : Nat) (positive : 1 ≤ stop)
    (paired : Paired isResult messages)
    (head : ∀ message, messages[0]? = some message → message.role ≠ .assistant)
    (first : ∀ message, messages[stop]? = some message → isResult message = false) :
    Paired isResult (messages.take 1 ++ messages.drop stop) := by
  cases messages with
  | nil =>
      intro i result here
      simp at here
  | cons system rest =>
      obtain ⟨skipped, rfl⟩ : ∃ skipped, stop = skipped + 1 := ⟨stop - 1, by omega⟩
      intro i result here isOne
      cases i with
      | zero =>
          obtain ⟨j, -, before, -⟩ := paired 0 result (by simpa using here) isOne
          omega
      | succ i =>
          rw [shed_getElem?] at here
          obtain ⟨j, call, before, place, owns, between⟩ := paired _ result here isOne
          have kept : skipped + 1 ≤ j := by
            by_contra dropped
            cases i with
            | zero => simp [first result here] at isOne
            | succ i =>
                have inside : skipped + 1 < (system :: rest).length :=
                  Nat.lt_trans (by omega) (List.getElem?_eq_some_iff.mp here).1
                have start := List.getElem?_eq_getElem inside
                have quiet := first _ start
                rw [between (skipped + 1) _ (by omega) (by omega) start] at quiet
                contradiction
          refine ⟨j - skipped, call, by omega, ?_, owns, ?_⟩
          · obtain ⟨offset, rfl⟩ : ∃ offset, j = skipped + offset + 1 :=
              ⟨j - skipped - 1, by omega⟩
            have index : skipped + offset + 1 - skipped = offset + 1 := by omega
            rw [index, shed_getElem?]
            exact place
          · intro k middle after before' placeMiddle
            obtain ⟨offset, rfl⟩ : ∃ offset, k = offset + 1 := ⟨k - 1, by omega⟩
            rw [shed_getElem?] at placeMiddle
            exact between _ middle (by omega) (by omega) placeMiddle

end

/-- The shed loop drops a start of the history, and pairing survives it. -/
theorem shedHistory_sheds (budget : Int) (fuel tailStart : Nat) (state : FitState) :
    ∃ dropped, (shedHistory budget fuel tailStart state).1 = tailStart - dropped ∧
      (dropped = 0 ∨ dropped + 1 ≤ tailStart) ∧
      (shedHistory budget fuel tailStart state).2.working =
        state.working.take 1 ++ state.working.drop (dropped + 1) ∧
      ∀ isResult, ResultKind isResult → Paired isResult state.working →
        (∀ message, state.working[0]? = some message → message.role ≠ .assistant) →
        (∀ message, state.working[tailStart]? = some message → isResult message = false) →
          Paired isResult (shedHistory budget fuel tailStart state).2.working := by
  have nothing (current : FitState) (start : Nat) : ∃ dropped, start = start - dropped ∧
      (dropped = 0 ∨ dropped + 1 ≤ start) ∧
      current.working = current.working.take 1 ++ current.working.drop (dropped + 1) ∧
      ∀ isResult, ResultKind isResult → Paired isResult current.working →
        (∀ message, current.working[0]? = some message → message.role ≠ .assistant) →
        (∀ message, current.working[start]? = some message → isResult message = false) →
          Paired isResult current.working :=
    ⟨0, rfl, Or.inl rfl, (List.take_append_drop 1 current.working).symm,
      fun _ _ paired _ _ => paired⟩
  induction fuel generalizing tailStart state with
  | zero => exact nothing state tailStart
  | succ fuel ih =>
      unfold shedHistory
      split
      · exact nothing state tailStart
      · split
        · exact nothing state tailStart
        · next start stop span =>
            obtain ⟨rfl, low, high, -⟩ := oldestSheddableSpan_unit _ _ _ _ span
            obtain ⟨skipped, rfl⟩ : ∃ skipped, stop = skipped + 1 := ⟨stop - 1, by omega⟩
            obtain ⟨dropped, ends, bounded, rest, keeps⟩ :=
              ih (tailStart - (skipped + 1 - 1)) (state.shed 1 (skipped + 1))
            have cut : (state.shed 1 (skipped + 1)).working =
                state.working.take 1 ++ state.working.drop (skipped + 1) := rfl
            refine ⟨skipped + dropped, ?_, by omega, ?_, ?_⟩
            · rw [ends]
              omega
            · rw [rest, cut]
              cases state.working with
              | nil => simp
              | cons first others => simp [Nat.add_comm skipped dropped]
            · intro isResult kind paired head tail
              have first := oldestSheddableSpan_boundary state.working tailStart 1 (skipped + 1)
                paired head tail span
              apply keeps isResult kind
              · exact paired.shed (skipped + 1) (by omega) head first
              · intro message here
                rw [cut] at here
                cases working : state.working with
                | nil => simp [working] at here
                | cons system others =>
                    rw [working] at here
                    exact head message (by simpa [working] using here)
              · intro message here
                rw [cut] at here
                cases working : state.working with
                | nil => simp [working] at here
                | cons system others =>
                    obtain ⟨offset, place⟩ : ∃ offset, tailStart - (skipped + 1 - 1) = offset + 1 :=
                      ⟨tailStart - skipped - 1, by omega⟩
                    rw [working, place, shed_getElem?] at here
                    apply tail message
                    have index : skipped + offset + 1 = tailStart := by omega
                    rw [working, ← index]
                    exact here

theorem FitState.start_working (messages : List ChatMessage) (started : FitState)
    (starts : FitState.start count strictSchema messages tools = .ok started) :
    started.working = messages := by
  unfold FitState.start at starts
  obtain ⟨costs, -, later⟩ := bind_eq_ok starts
  obtain ⟨fixed, -, last⟩ := bind_eq_ok later
  obtain rfl := Except.ok.inj last
  rfl

/-- A refit digests results of the tail, drops a start of the history and digests again. -/
theorem fitLoops_retells (config : ContextConfig) (resolved : Option Int) (cited : CitedSnippets)
    (messages : List ChatMessage) (ended : Nat × FitState)
    (fits : fitLoops count strictSchema config resolved cited messages tools = .ok ended) :
    ∃ compacted dropped,
      Retells config.compactionDigestChars cited (lastQuestionIndex messages) messages compacted ∧
      (dropped = 0 ∨ dropped + 1 ≤ lastQuestionIndex messages) ∧
      Retells config.compactionDigestChars cited (lastQuestionIndex messages - dropped)
        (compacted.take 1 ++ compacted.drop (dropped + 1)) ended.2.working ∧
      ∀ isResult, ResultKind isResult → Paired isResult compacted →
        (∀ message, compacted[0]? = some message → message.role ≠ .assistant) →
          Paired isResult (compacted.take 1 ++ compacted.drop (dropped + 1)) := by
  unfold fitLoops at fits
  obtain ⟨started, starts, afterStart⟩ := bind_eq_ok fits
  obtain ⟨state, compacts, rest⟩ := bind_eq_ok afterStart
  have early := compactProactively_retells config cited started state compacts
  rw [FitState.start_working messages started starts] at early
  have whole : state.working.take 1 ++ state.working.drop (0 + 1) = state.working :=
    List.take_append_drop 1 state.working
  split at rest
  · obtain rfl := Except.ok.inj rest
    refine ⟨state.working, 0, early, Or.inl rfl, ?_, fun _ _ paired _ => ?_⟩
    · rw [whole]
      exact Retells.refl _
    · rw [whole]
      exact paired
  · obtain ⟨dropped, ends, bounded, working, keeps⟩ := shedHistory_sheds
      (inputBudget config resolved) (lastQuestionIndex state.working)
      (lastQuestionIndex state.working) state
    rw [early.question] at bounded ends
    have pairs (isResult : ChatMessage → Bool) (kind : ResultKind isResult)
        (paired : Paired isResult state.working)
        (head : ∀ message, state.working[0]? = some message → message.role ≠ .assistant) :
        Paired isResult (state.working.take 1 ++ state.working.drop (dropped + 1)) := by
      rw [← working]
      apply keeps isResult kind paired head
      intro message here
      exact kind.question message (lastQuestionIndex_question state.working message here)
    dsimp only at rest
    split at rest
    · obtain rfl := Except.ok.inj rest
      refine ⟨state.working, dropped, early, bounded, ?_, pairs⟩
      rw [← working]
      exact Retells.refl _
    · obtain ⟨last, reactive, final⟩ := bind_eq_ok rest
      obtain rfl := Except.ok.inj final
      refine ⟨state.working, dropped, early, bounded, ?_, pairs⟩
      have always : KeptByDigests count config.compactionDigestChars cited
          (shedHistory (inputBudget config resolved) (lastQuestionIndex state.working)
            (lastQuestionIndex state.working) state).1 (fun _ => True) :=
        ⟨fun _ _ _ => trivial, fun _ _ _ _ _ _ _ => trivial⟩
      have late := (compactOldestToolResults_keeps always (inputBudget config resolved) _ _ last
        trivial reactive).1
      rw [working, early.question, ends] at late
      exact late

theorem fitTranscript_loops (config : ContextConfig) (resolver : Text → Option Int)
    (cited : CitedSnippets) (model : Text) (messages fitted : List ChatMessage)
    (fits : fitTranscript count strictSchema config resolver cited model messages tools =
      .ok fitted) :
    ∃ ended, fitLoops count strictSchema config (resolver model) cited messages tools = .ok ended ∧
      ended.2.working = fitted ∧ ended.2.total ≤ inputBudget config (resolver model) := by
  unfold fitTranscript at fits
  obtain ⟨ended, loops, rest⟩ := bind_eq_ok fits
  split at rest
  · simp [throw, throwThe, MonadExceptOf.throw] at rest
  · next within => exact ⟨ended, loops, Except.ok.inj rest, Int.not_lt.mp within⟩

theorem forall₂_trans {α : Type} {first second third : α → α → Prop}
    (joins : ∀ a b c, first a b → second b c → third a c) {left middle right : List α}
    (early : List.Forall₂ first left middle) (late : List.Forall₂ second middle right) :
    List.Forall₂ third left right := by
  induction early generalizing right with
  | nil =>
      cases late
      exact List.Forall₂.nil
  | cons head tail ih =>
      cases late with
      | cons headLate tailLate => exact List.Forall₂.cons (joins _ _ _ head headLate) (ih tailLate)

/-- The later message has another content at most, and only when it is a tool result. -/
def SameButContent (before after : ChatMessage) : Prop :=
  (∃ content, after = { before with content := content }) ∧ (before.role ≠ .tool → after = before)

/-- A refit drops a start of the history after the system head, keeps everything else in order
but for the contents of tool results after the question, and never separates a call from its
results. -/
theorem fitTranscript_sheds (count : Text → Nat) (strictSchema : StrictSchema)
    (config : ContextConfig) (resolver : Text → Option Int) (cited : CitedSnippets) (model : Text)
    (tools : List ToolSpec) (head : ChatMessage) (rest fitted : List ChatMessage)
    (system : head.role = .system)
    (fits : fitTranscript count strictSchema config resolver cited model (head :: rest) tools =
      .ok fitted) :
    (∃ dropped tail, dropped + 1 ≤ lastQuestionIndex (head :: rest) ∧
      fitted = head :: (((head :: rest).take (lastQuestionIndex (head :: rest))).drop (dropped + 1) ++
        tail) ∧
      List.Forall₂ SameButContent ((head :: rest).drop (lastQuestionIndex (head :: rest))) tail) ∧
    ∀ isResult, ResultKind isResult → Paired isResult (head :: rest) → Paired isResult fitted := by
  obtain ⟨ended, loops, rfl, -⟩ := fitTranscript_loops config resolver cited model _ fitted fits
  obtain ⟨compacted, dropped, early, bounded, late, pairs⟩ :=
    fitLoops_retells config (resolver model) cited _ ended loops
  have positive := lastQuestionIndex_pos head rest system
  generalize lastQuestionIndex (head :: rest) = question at early bounded late positive ⊢
  have history := early.take
  have first : compacted[0]? = some head := by
    have place := congrArg (fun messages => messages[0]?) history
    simpa [List.getElem?_take, show (0 : Nat) < question by omega] using place
  constructor
  · obtain ⟨others, rfl⟩ : ∃ others, compacted = head :: others := by
      cases compacted with
      | nil => simp at first
      | cons system others => exact ⟨others, by rw [show system = head by simpa using first]⟩
    have keptHead := late.take
    have keptTail := late.tails (question - dropped)
    obtain ⟨size, rfl⟩ : ∃ size, question = dropped + size + 1 :=
      ⟨question - dropped - 1, by omega⟩
    have index : dropped + size + 1 - dropped = size + 1 := by omega
    rw [index] at keptHead keptTail
    refine ⟨dropped, ended.2.working.drop (size + 1), by omega, ?_, ?_⟩
    · have whole := List.take_append_drop (size + 1) ended.2.working
      rw [keptHead] at whole
      rw [← history]
      refine whole.symm.trans ?_
      simp [List.drop_take, show dropped + size - dropped = size by omega]
    · have tails : ((head :: others).take 1 ++ (head :: others).drop (dropped + 1)).drop (size + 1) =
          (head :: others).drop (dropped + size + 1) := by
        simp
      rw [tails] at keptTail
      apply forall₂_trans _ (early.tails (dropped + size + 1)) keptTail
      intro before middle after digested redigested
      exact (digested.trans redigested).fields
  · intro isResult kind paired
    apply late.paired kind
    apply pairs isResult kind (early.paired kind paired)
    intro message here
    rw [first] at here
    obtain rfl := Option.some.inj here
    rw [system]
    decide

/-- This transcript has a tool group in its history and one in its tail. -/
def toolTranscript : List ChatMessage :=
  [{ role := .system, content := "be brief".toList },
    { role := .assistant, content := [], toolCalls := [⟨"c0".toList, "search".toList, []⟩] },
    { role := .tool, content := "an old result".toList, toolCallId := some "c0".toList },
    { role := .user, content := "the question".toList },
    { role := .assistant, content := [], toolCalls := [⟨"c1".toList, "search".toList, []⟩] },
    { role := .tool, content := "a long tool result".toList, toolCallId := some "c1".toList }]

theorem toolTranscript_paired :
    Paired (fun message => message.role = .tool) toolTranscript := by
  intro i result here isOne
  have inside : i < 6 := (List.getElem?_eq_some_iff.mp here).1
  interval_cases i
  all_goals
    simp only [toolTranscript, List.getElem?_cons_zero, List.getElem?_cons_succ,
      Option.some.injEq] at here
    subst here
  · exact absurd isOne (by decide)
  · exact absurd isOne (by decide)
  · exact ⟨1, _, by decide, rfl, ⟨rfl, _, List.mem_cons_self, rfl⟩, by omega⟩
  · exact absurd isOne (by decide)
  · exact absurd isOne (by decide)
  · exact ⟨4, _, by decide, rfl, ⟨rfl, _, List.mem_cons_self, rfl⟩, by omega⟩

/-- The window of 1480 characters drops the whole tool group of the history. -/
theorem fitTranscript_sheds_toolTranscript :
    ∃ fitted, fitTranscript List.length some { outputHeadroomTokens := 0 } (fun _ => some 1480) []
        "m".toList toolTranscript [] = .ok fitted ∧
      (∃ dropped tail, dropped + 1 ≤ lastQuestionIndex toolTranscript ∧
        fitted = toolTranscript[0] ::
          ((toolTranscript.take (lastQuestionIndex toolTranscript)).drop (dropped + 1) ++ tail) ∧
        List.Forall₂ SameButContent (toolTranscript.drop (lastQuestionIndex toolTranscript)) tail) ∧
      Paired (fun message => message.role = .tool) fitted := by
  have shortened : (fitTranscript List.length some { outputHeadroomTokens := 0 }
      (fun _ => some 1480) [] "m".toList toolTranscript []).map List.length = .ok 4 := by
    decide +kernel
  obtain ⟨fitted, fits, -⟩ := (map_eq_ok_iff _ _ _).mp shortened
  have sheds := fitTranscript_sheds List.length some { outputHeadroomTokens := 0 }
    (fun _ => some 1480) [] "m".toList [] toolTranscript[0] (toolTranscript.drop 1) fitted rfl fits
  have kind : ResultKind (fun message => message.role = .tool) :=
    ⟨fun _ _ => rfl, fun _ isOne => Or.inl (by simpa using isOne)⟩
  exact ⟨fitted, fits, sheds.1, sheds.2 _ kind toolTranscript_paired⟩

end LumenCopilot.Context
