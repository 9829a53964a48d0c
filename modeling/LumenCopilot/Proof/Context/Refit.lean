import LumenCopilot.Proof.Context.Evidence

namespace LumenCopilot.Context

open Python Library

/-- This is the message with the digest of its content. -/
def redigest (digestChars : Int) (cited : CitedSnippets) (message : ChatMessage) : ChatMessage :=
  { message with
      content := contextDigest message.content digestChars (snippetsOf cited message.toolCallId) }

/-- The digest of the message has a strictly lower cost. -/
def Shrinks (count : Text → Nat) (digestChars : Int) (cited : CitedSnippets)
    (message : ChatMessage) : Prop :=
  ∃ cost newCost, messageCost count message = .ok cost ∧
    messageCost count (redigest digestChars cited message) = .ok newCost ∧ newCost < cost

/-- The proactive pass offers the tool result for digestion. -/
def Superseded (cited : CitedSnippets) (messages : List ChatMessage) (tailStart i : Nat)
    (message : ChatMessage) : Prop :=
  tailStart ≤ i ∧ i < lastToolGroupStart messages tailStart ∧ messages[i]? = some message ∧
    isSuperseded cited message = true

variable {count : Text → Nat} {strictSchema : StrictSchema} {tools : List ToolSpec}

/-- A digest replaces exactly the messages that shrink. -/
theorem FitState.digest_shrinks (digestChars : Int) (cited : CitedSnippets) (state : FitState)
    (i : Nat) (message : ChatMessage) (accounts : state.Accounts count strictSchema tools)
    (here : state.working[i]? = some message) :
    ∃ after, state.digest count digestChars cited i = .ok after ∧
      after.Accounts count strictSchema tools ∧
      ((Shrinks count digestChars cited message ∧
          after.working = state.working.set i (redigest digestChars cited message)) ∨
        (¬Shrinks count digestChars cited message ∧ after.working = state.working ∧
          after.total = state.total)) := by
  obtain ⟨after, digested, kept, -⟩ := state.digest_accounts digestChars cited i accounts
  refine ⟨after, digested, kept, ?_⟩
  have inside := (List.getElem?_eq_some_iff.mp here).1
  rw [accounts.costed.length_eq] at inside
  have there := List.getElem?_eq_getElem inside
  have costed := forall₂_getElem? _ _ i message _ accounts.costed here there
  obtain ⟨newCost, recosted⟩ := messageCost_content count message
    (contextDigest message.content digestChars (snippetsOf cited message.toolCallId)) _ costed
  unfold FitState.digest at digested
  rw [here, there] at digested
  dsimp only at digested
  rw [recosted, ok_bind] at digested
  split at digested
  · next costly =>
      obtain rfl := Except.ok.inj digested
      refine Or.inr ⟨?_, rfl, rfl⟩
      intro shrinks
      obtain ⟨cost, other, same, sameNew, lower⟩ := shrinks
      obtain rfl := Except.ok.inj (costed.symm.trans same)
      obtain rfl := Except.ok.inj (recosted.symm.trans sameNew)
      omega
  · next cheaper =>
      obtain rfl := Except.ok.inj digested
      exact Or.inl ⟨⟨_, newCost, costed, recosted, Int.not_le.mp cheaper⟩, rfl⟩

/-- The newest tool group depends only on which messages start a tool group. -/
theorem lastToolGroupStart_congr (before after : List ChatMessage) (tailStart : Nat)
    (same : after.map ChatMessage.startsToolGroup = before.map ChatMessage.startsToolGroup) :
    lastToolGroupStart after tailStart = lastToolGroupStart before tailStart := by
  have sameLength : after.length = before.length := by simpa using congrArg List.length same
  have found (messages : List ChatMessage) :
      (messages.drop tailStart).reverse.findIdx? ChatMessage.startsToolGroup =
        ((messages.map ChatMessage.startsToolGroup).drop tailStart).reverse.findIdx? id := by
    rw [← List.map_drop, ← List.map_reverse, List.findIdx?_map]
    rfl
  unfold lastToolGroupStart
  rw [found, found, same, sameLength]

theorem lastToolGroupStart_set (messages : List ChatMessage) (tailStart i : Nat)
    (digestChars : Int) (cited : CitedSnippets) (message : ChatMessage)
    (here : messages[i]? = some message) :
    lastToolGroupStart (messages.set i (redigest digestChars cited message)) tailStart =
      lastToolGroupStart messages tailStart :=
  lastToolGroupStart_congr _ _ _ (map_set_same _ messages i message _ here rfl)

theorem lastToolGroupStart_shed (messages : List ChatMessage) (dropped tailStart : Nat)
    (bounded : dropped = 0 ∨ dropped + 1 ≤ tailStart) (inside : tailStart ≤ messages.length) :
    lastToolGroupStart (messages.take 1 ++ messages.drop (dropped + 1)) (tailStart - dropped) =
      lastToolGroupStart messages tailStart - dropped := by
  rcases bounded with rfl | history
  · rw [Nat.zero_add, List.take_append_drop, Nat.sub_zero, Nat.sub_zero]
  · cases messages with
    | nil =>
        simp at inside
        omega
    | cons head rest =>
        obtain ⟨size, rfl⟩ : ∃ size, tailStart = dropped + size + 1 :=
          ⟨tailStart - dropped - 1, by omega⟩
        have index : dropped + size + 1 - dropped = size + 1 := by omega
        have tails : ((head :: rest).take 1 ++ (head :: rest).drop (dropped + 1)).drop (size + 1) =
            (head :: rest).drop (dropped + size + 1) := by
          simp
        rw [List.length_cons] at inside
        unfold lastToolGroupStart
        rw [index, tails]
        cases found : ((head :: rest).drop (dropped + size + 1)).reverse.findIdx?
            ChatMessage.startsToolGroup with
        | none =>
            simp
            omega
        | some back =>
            simp
            omega

/-- Nothing that the proactive pass offers in the tail shrinks any more. -/
def Steady (count : Text → Nat) (digestChars : Int) (cited : CitedSnippets) (tailStart : Nat)
    (working : List ChatMessage) : Prop :=
  ∀ (i : Nat) (message : ChatMessage), Superseded cited working tailStart i message →
    ¬Shrinks count digestChars cited message

/-- No digest disturbs a steady tail. -/
theorem Steady.kept (digestChars : Int) (cited : CitedSnippets) (tailStart : Nat) :
    KeptByDigests count digestChars cited tailStart fun state =>
      state.Accounts count strictSchema tools ∧
        Steady count digestChars cited tailStart state.working := by
  constructor
  · intro state i held
    exact ⟨⟨held.1.costed, held.1.balanced, held.1.counted⟩, held.2⟩
  · intro state after i held inTail result digested
    obtain ⟨accounts, steady⟩ := held
    cases here : state.working[i]? with
    | none =>
        unfold FitState.digest at digested
        rw [here] at digested
        obtain rfl := Except.ok.inj digested
        exact ⟨accounts, steady⟩
    | some message =>
        obtain ⟨other, runs, kept, cases'⟩ :=
          state.digest_shrinks digestChars cited i message accounts here
        obtain rfl := Except.ok.inj (runs.symm.trans digested)
        refine ⟨kept, ?_⟩
        rcases cases' with ⟨shrinks, working⟩ | ⟨-, working, -⟩
        · rw [working]
          intro j later superseded
          obtain ⟨low, high, place, eligible⟩ := superseded
          rw [lastToolGroupStart_set state.working tailStart i digestChars cited message here] at high
          by_cases same : i = j
          · subst same
            have inside := (List.getElem?_eq_some_iff.mp here).1
            rw [List.getElem?_set_self inside] at place
            obtain rfl := Option.some.inj place
            exact absurd shrinks (steady i message ⟨low, high, here, eligible⟩)
          · rw [List.getElem?_set_ne same] at place
            exact steady j later ⟨low, high, place, eligible⟩
        · rw [working]
          exact steady

variable {digestChars : Int} {cited : CitedSnippets} {tailStart : Nat}

/-- The tail of a shed transcript is steady when it was. -/
theorem Steady.shed {working : List ChatMessage}
    (steady : Steady count digestChars cited tailStart working) (dropped : Nat)
    (bounded : dropped = 0 ∨ dropped + 1 ≤ tailStart) (inside : tailStart ≤ working.length) :
    Steady count digestChars cited (tailStart - dropped)
      (working.take 1 ++ working.drop (dropped + 1)) := by
  intro i message superseded
  obtain ⟨low, high, place, eligible⟩ := superseded
  rw [lastToolGroupStart_shed working dropped tailStart bounded inside] at high
  obtain ⟨k, rfl⟩ : ∃ k, i = tailStart - dropped + k := ⟨i - (tailStart - dropped), by omega⟩
  have index : (working.take 1 ++ working.drop (dropped + 1))[tailStart - dropped + k]? =
      working[tailStart + k]? := shed_place working dropped tailStart k bounded
  rw [index] at place
  exact steady (tailStart + k) message ⟨by omega, by omega, place, eligible⟩

/-- The proactive pass replaces a message exactly when it is an eligible one that shrinks. -/
structure Redigested (count : Text → Nat) (digestChars : Int) (cited : CitedSnippets)
    (eligible : Nat → Prop) (before after : List ChatMessage) : Prop where
  replaces : ∀ (i : Nat) (message : ChatMessage), before[i]? = some message → eligible i →
    isSuperseded cited message = true → Shrinks count digestChars cited message →
      after[i]? = some (redigest digestChars cited message)
  leaves : ∀ (i : Nat) (message : ChatMessage), before[i]? = some message →
    ¬(eligible i ∧ isSuperseded cited message = true ∧ Shrinks count digestChars cited message) →
      after[i]? = some message

theorem foldlM_redigests (digestChars : Int) (cited : CitedSnippets) (places : List Nat)
    (distinct : places.Nodup) (state after : FitState)
    (accounts : state.Accounts count strictSchema tools)
    (runs : places.foldlM (fun state i =>
      if state.working[i]?.any (isSuperseded cited) then state.digest count digestChars cited i
      else return state) state = .ok after) :
    Redigested count digestChars cited (· ∈ places) state.working after.working := by
  induction places generalizing state with
  | nil =>
      obtain rfl := Except.ok.inj runs
      exact ⟨fun _ _ _ member => absurd member List.not_mem_nil, fun _ _ here _ => here⟩
  | cons place rest ih =>
      rw [List.foldlM_cons] at runs
      obtain ⟨next, step, later⟩ := bind_eq_ok runs
      obtain ⟨fresh, distinctRest⟩ := List.nodup_cons.mp distinct
      have one : next.Accounts count strictSchema tools ∧
          Redigested count digestChars cited (· = place) state.working next.working := by
        cases here : state.working[place]? with
        | none =>
            rw [here] at step
            obtain rfl := Except.ok.inj step
            refine ⟨accounts, ?_, fun _ _ there _ => there⟩
            intro i message there same
            rw [same, here] at there
            contradiction
        | some message =>
            rw [here, Option.any_some] at step
            split at step
            · obtain ⟨other, digested, kept, changes⟩ :=
                state.digest_shrinks digestChars cited place message accounts here
              obtain rfl := Except.ok.inj (digested.symm.trans step)
              refine ⟨kept, ?_, ?_⟩
              · intro i later there same _ shrinks
                subst same
                rw [here] at there
                obtain rfl := Option.some.inj there
                rcases changes with ⟨-, working⟩ | ⟨stays, -, -⟩
                · rw [working]
                  exact List.getElem?_set_self (List.getElem?_eq_some_iff.mp here).1
                · exact absurd shrinks stays
              · intro i later there spared
                rcases changes with ⟨shrinks, working⟩ | ⟨-, working, -⟩
                · rw [working]
                  by_cases same : place = i
                  · subst same
                    rw [here] at there
                    obtain rfl := Option.some.inj there
                    exact absurd ⟨rfl, by assumption, shrinks⟩ spared
                  · rw [List.getElem?_set_ne same]
                    exact there
                · rw [working]
                  exact there
            · next ineligible =>
                obtain rfl := Except.ok.inj step
                refine ⟨accounts, ?_, fun _ _ there _ => there⟩
                intro i later there same superseded
                rw [same, here] at there
                obtain rfl := Option.some.inj there
                exact absurd superseded ineligible
      have others := ih distinctRest next one.1 later
      refine ⟨?_, ?_⟩
      · intro i message here member superseded shrinks
        rcases List.mem_cons.mp member with rfl | inRest
        · apply others.leaves _ _ (one.2.replaces i message here rfl superseded shrinks)
          exact fun again => fresh again.1
        · apply others.replaces _ _ _ inRest superseded shrinks
          apply one.2.leaves i message here
          intro again
          exact fresh (again.1 ▸ inRest)
      · intro i message here spared
        apply others.leaves
        · apply one.2.leaves i message here
          exact fun again => spared ⟨again.1 ▸ List.mem_cons_self, again.2⟩
        · exact fun again => spared ⟨List.mem_cons_of_mem place again.1, again.2⟩

theorem compactSupersededToolResults_redigests (digestChars : Int) (cited : CitedSnippets)
    (tailStart : Nat) (state after : FitState) (accounts : state.Accounts count strictSchema tools)
    (compacted : compactSupersededToolResults count digestChars cited tailStart state = .ok after) :
    Redigested count digestChars cited
      (fun i => tailStart ≤ i ∧ i < lastToolGroupStart state.working tailStart) state.working
      after.working := by
  unfold compactSupersededToolResults at compacted
  have pass := foldlM_redigests digestChars cited _ List.nodup_range' state after accounts compacted
  constructor
  · intro i message here inside superseded shrinks
    exact pass.replaces i message here (List.mem_range'_1.mpr (by omega)) superseded shrinks
  · intro i message here spared
    apply pass.leaves i message here
    intro again
    have member := List.mem_range'_1.mp again.1
    exact spared ⟨by omega, again.2⟩

theorem Retells.group {before after : List ChatMessage}
    (retells : Retells digestChars cited tailStart before after) (start : Nat) :
    lastToolGroupStart after start = lastToolGroupStart before start := by
  apply lastToolGroupStart_congr
  exact retells.map_eq _ fun _ _ => rfl

/-- No superseded result whose digest is cheaper has a digest that is cheaper once more. -/
def DigestsOnce (count : Text → Nat) (digestChars : Int) (cited : CitedSnippets)
    (messages : List ChatMessage) : Prop :=
  ∀ (i : Nat) (message : ChatMessage),
    Superseded cited messages (lastQuestionIndex messages) i message →
      Shrinks count digestChars cited message →
        ¬Shrinks count digestChars cited (redigest digestChars cited message)

/-- One proactive pass settles the tail, when no result shrinks twice. -/
theorem compactSupersededToolResults_steady (digestChars : Int) (cited : CitedSnippets)
    (state after : FitState) (accounts : state.Accounts count strictSchema tools)
    (once : DigestsOnce count digestChars cited state.working)
    (compacted : compactSupersededToolResults count digestChars cited
      (lastQuestionIndex state.working) state = .ok after) :
    Steady count digestChars cited (lastQuestionIndex state.working) after.working := by
  have pass := compactSupersededToolResults_redigests digestChars cited _ state after accounts
    compacted
  have retells := compactSupersededToolResults_retells digestChars cited _ state after compacted
  intro i later superseded shrinks
  obtain ⟨low, high, there, eligible⟩ := superseded
  rw [retells.group] at high
  obtain ⟨message, here, digested⟩ := retells.back i later there
  obtain ⟨⟨content, fields⟩, -⟩ := digested.fields
  have same : isSuperseded cited message = true := by
    rw [fields] at eligible
    exact eligible
  by_cases first : Shrinks count digestChars cited message
  · have replaced := pass.replaces i message here ⟨low, high⟩ same first
    obtain rfl := Option.some.inj (there.symm.trans replaced)
    exact once i message ⟨low, high, here, same⟩ first shrinks
  · have left := pass.leaves i message here fun again => first again.2.2
    obtain rfl := Option.some.inj (there.symm.trans left)
    exact first shrinks

/-- The proactive pass leaves a steady tail as it is. -/
theorem compactSupersededToolResults_still (digestChars : Int) (cited : CitedSnippets)
    (tailStart : Nat) (state : FitState) (accounts : state.Accounts count strictSchema tools)
    (steady : Steady count digestChars cited tailStart state.working) :
    ∃ after, compactSupersededToolResults count digestChars cited tailStart state = .ok after ∧
      after.working = state.working ∧ after.total = state.total := by
  have settles := foldlM_still
    (fun (current : FitState) i =>
      if current.working[i]?.any (isSuperseded cited) then
        current.digest count digestChars cited i
      else return current)
    (fun current => current.Accounts count strictSchema tools ∧
      current.working = state.working ∧ current.total = state.total)
    (List.range' tailStart (lastToolGroupStart state.working tailStart - tailStart)) ?_ state
    ⟨accounts, rfl, rfl⟩
  · obtain ⟨after, runs, -, same⟩ := settles
    exact ⟨after, runs, same⟩
  · intro i member current held
    obtain ⟨kept, working, total⟩ := held
    have inside := List.mem_range'_1.mp member
    cases here : current.working[i]? with
    | none => exact ⟨current, rfl, kept, working, total⟩
    | some message =>
        rw [Option.any_some]
        split
        · next superseded =>
            obtain ⟨after, digested, further, changes⟩ :=
              current.digest_shrinks digestChars cited i message kept here
            refine ⟨after, digested, further, ?_⟩
            rcases changes with ⟨shrinks, -⟩ | ⟨-, sameWorking, sameTotal⟩
            · rw [working] at here
              exact absurd shrinks (steady i message ⟨by omega, by omega, here, superseded⟩)
            · exact ⟨sameWorking.trans working, sameTotal.trans total⟩
        · exact ⟨current, rfl, kept, working, total⟩

end LumenCopilot.Context
