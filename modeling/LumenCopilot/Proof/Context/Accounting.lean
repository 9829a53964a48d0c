import LumenCopilot.Construction.Context.Fit
import LumenCopilot.Proof.Library.Partial

namespace LumenCopilot.Context

open Python Library

variable (count : Text → Nat) (strictSchema : StrictSchema) (tools : List ToolSpec)

theorem ToolNameMap.ofNames_raises (names : List Text) (raised : Raised)
    (failed : ToolNameMap.ofNames names = .error raised) : raised = toolNameCollision := by
  have folds (items : List Text) (map : ToolNameMap)
      (fails : items.foldlM ToolNameMap.add map = .error raised) : raised = toolNameCollision := by
    induction items generalizing map with
    | nil => simp at fails
    | cons name rest ih =>
        rw [List.foldlM_cons] at fails
        cases added : map.add name with
        | ok next => exact ih next (by simpa only [added, ok_bind] using fails)
        | error other =>
            simp only [added, error_bind, Except.error.injEq] at fails
            unfold add at added
            dsimp only at added
            split at added
            · split at added
              · rw [← fails]
                exact (Except.error.inj added).symm
              · simp at added
            · simp at added
  exact folds _ _ failed

theorem messageCost_raises (message : ChatMessage) (raised : Raised)
    (failed : messageCost count message = .error raised) : raised = toolNameCollision := by
  unfold messageCost messageWireText at failed
  cases named : ToolNameMap.ofNames message.toolNames with
  | ok map =>
      rw [named, ok_bind, pure_eq_ok, ok_bind, pure_eq_ok] at failed
      exact absurd failed (by simp only [reduceCtorEq, not_false_eq_true])
  | error other =>
      rw [named, error_bind, error_bind, Except.error.injEq] at failed
      exact failed ▸ ToolNameMap.ofNames_raises _ other named

theorem fixedCost_raises (raised : Raised)
    (failed : fixedCost count strictSchema tools = .error raised) : raised = toolNameCollision := by
  unfold fixedCost toolsWireText wireTools at failed
  cases named : ToolNameMap.ofNames (tools.map ToolSpec.name) with
  | ok map =>
      rw [named, ok_bind, pure_eq_ok, ok_bind, pure_eq_ok, ok_bind, pure_eq_ok] at failed
      exact absurd failed (by simp only [reduceCtorEq, not_false_eq_true])
  | error other =>
      rw [named, error_bind, error_bind, error_bind, Except.error.injEq] at failed
      exact failed ▸ ToolNameMap.ofNames_raises _ other named

/-- A new content keeps the names of a message, so its cost exists as well. -/
theorem messageCost_content (message : ChatMessage) (content : Text) (cost : Int)
    (costed : messageCost count message = .ok cost) :
    ∃ newCost, messageCost count { message with content := content } = .ok newCost := by
  unfold messageCost messageWireText at costed ⊢
  have same : ({ message with content := content } : ChatMessage).toolNames = message.toolNames := rfl
  rw [same]
  cases named : ToolNameMap.ofNames message.toolNames with
  | ok map => exact ⟨_, rfl⟩
  | error raised =>
      rw [named, error_bind, error_bind] at costed
      exact absurd costed (by simp only [reduceCtorEq, not_false_eq_true])

/-- The costs belong to the working list, and the total is their sum at every passed point. -/
structure FitState.Accounts (state : FitState) : Prop where
  costed : List.Forall₂ (fun message cost => messageCost count message = .ok cost)
    state.working state.costs
  balanced : ∃ fixed, fixedCost count strictSchema tools = .ok fixed ∧
    state.total = fixed + state.costs.sum
  counted : ∀ point ∈ state.points,
    estimateMessageTokens count strictSchema point.1 tools = .ok point.2

variable {count strictSchema tools}

variable {state : FitState}

/-- The running total of an accounted state is the estimate of its working list. -/
theorem FitState.Accounts.estimate (accounts : state.Accounts count strictSchema tools) :
    estimateMessageTokens count strictSchema state.working tools = .ok state.total := by
  obtain ⟨fixed, known, total⟩ := accounts.balanced
  unfold estimateMessageTokens
  rw [known, (mapM_eq_ok_iff _ _ _).mpr accounts.costed, total]
  rfl

theorem FitState.Accounts.mark (accounts : state.Accounts count strictSchema tools) :
    state.mark.Accounts count strictSchema tools := by
  refine ⟨accounts.costed, accounts.balanced, ?_⟩
  intro point member
  rcases List.mem_append.mp member with earlier | last
  · exact accounts.counted point earlier
  · rw [List.mem_singleton.mp last]
    exact accounts.estimate

/-- The start of the loops is accounted, or the estimate of the input fails as well. -/
theorem FitState.start_accounts (messages : List ChatMessage) :
    (∃ state, FitState.start count strictSchema messages tools = .ok state ∧
      state.Accounts count strictSchema tools) ∨
    (FitState.start count strictSchema messages tools = .error toolNameCollision ∧
      estimateMessageTokens count strictSchema messages tools = .error toolNameCollision) := by
  unfold FitState.start estimateMessageTokens
  cases costed : messages.mapM (messageCost count) with
  | error raised =>
      obtain ⟨message, -, failed⟩ := mapM_eq_error _ _ _ costed
      obtain rfl := messageCost_raises count message raised failed
      refine Or.inr ⟨rfl, ?_⟩
      cases known : fixedCost count strictSchema tools with
      | ok fixed => rfl
      | error other =>
          obtain rfl := fixedCost_raises count strictSchema tools other known
          rfl
  | ok costs =>
      cases known : fixedCost count strictSchema tools with
      | error other =>
          obtain rfl := fixedCost_raises count strictSchema tools other known
          exact Or.inr ⟨rfl, rfl⟩
      | ok fixed =>
          refine Or.inl ⟨_, rfl, FitState.Accounts.mark ⟨?_, ⟨fixed, known, rfl⟩, by simp⟩⟩
          exact (mapM_eq_ok_iff _ _ _).mp costed

/-- A compaction keeps the place, role and call of every message and never raises the total. -/
structure FitState.Compacts (before after : FitState) : Prop where
  sameRoles : after.working.map ChatMessage.role = before.working.map ChatMessage.role
  sameCalls : after.working.map ChatMessage.toolCallId = before.working.map ChatMessage.toolCallId
  lowers : after.total ≤ before.total
  remembers : ∀ i ∈ before.offered, i ∈ after.offered

theorem FitState.Compacts.refl (state : FitState) : state.Compacts state :=
  ⟨rfl, rfl, Int.le_refl _, fun _ member => member⟩

theorem FitState.Compacts.trans {first second third : FitState} (early : first.Compacts second)
    (late : second.Compacts third) : first.Compacts third :=
  ⟨late.sameRoles.trans early.sameRoles, late.sameCalls.trans early.sameCalls,
    Int.le_trans late.lowers early.lowers, fun i member => late.remembers i (early.remembers i member)⟩

variable {β : Type}

theorem map_set_same (field : ChatMessage → β) (messages : List ChatMessage) (i : Nat)
    (message changed : ChatMessage) (there : messages[i]? = some message)
    (same : field changed = field message) :
    (messages.set i changed).map field = messages.map field := by
  obtain ⟨inside, here⟩ := List.getElem?_eq_some_iff.mp there
  have insideMap : i < (messages.map field).length := by simpa using inside
  have unchanged : (messages.map field)[i] = field changed := by
    rw [List.getElem_map, here, same]
  rw [List.map_set, ← unchanged, List.set_getElem_self]

variable {α : Type} {related : α → β → Prop}

theorem forall₂_set (first : List α) (second : List β) (i : Nat) (a : α) (b : β)
    (all : List.Forall₂ related first second) (pair : related a b) :
    List.Forall₂ related (first.set i a) (second.set i b) := by
  induction all generalizing i with
  | nil => exact List.Forall₂.nil
  | cons head tail ih =>
      cases i with
      | zero => exact List.Forall₂.cons pair tail
      | succ i => exact List.Forall₂.cons head (ih i)

theorem forall₂_getElem? (first : List α) (second : List β) (i : Nat) (a : α) (b : β)
    (all : List.Forall₂ related first second) (here : first[i]? = some a)
    (there : second[i]? = some b) : related a b := by
  induction all generalizing i with
  | nil => simp at here
  | cons head tail ih =>
      cases i with
      | zero =>
          simp only [List.getElem?_cons_zero, Option.some.injEq] at here there
          exact here ▸ there ▸ head
      | succ i => exact ih i (by simpa using here) (by simpa using there)

/-- An accounted state digests any of its messages and stays accounted. -/
theorem FitState.digest_accounts (digestChars : Int) (cited : CitedSnippets) (state : FitState)
    (i : Nat) (accounts : state.Accounts count strictSchema tools) :
    ∃ after, state.digest count digestChars cited i = .ok after ∧
      after.Accounts count strictSchema tools ∧ state.Compacts after := by
  unfold FitState.digest
  split
  · next message cost here there =>
      have costed := forall₂_getElem? _ _ i message cost accounts.costed here there
      obtain ⟨newCost, recosted⟩ := messageCost_content count message
        (contextDigest message.content digestChars (snippetsOf cited message.toolCallId)) cost costed
      dsimp only
      rw [recosted, ok_bind]
      by_cases gain : cost ≤ newCost
      · rw [if_pos gain]
        exact ⟨_, rfl, accounts.mark, ⟨rfl, rfl, Int.le_refl _, fun _ member => member⟩⟩
      · rw [if_neg gain]
        obtain ⟨fixed, known, total⟩ := accounts.balanced
        refine ⟨_, rfl, FitState.Accounts.mark ⟨?_, ⟨fixed, known, ?_⟩, accounts.counted⟩, ?_⟩
        · exact forall₂_set _ _ i _ newCost accounts.costed recosted
        · rw [sum_set state.costs i cost newCost there, total]
          exact Int.add_assoc _ _ _
        · refine ⟨map_set_same _ _ i message _ here rfl, map_set_same _ _ i message _ here rfl, ?_,
            fun _ member => member⟩
          change state.total + (newCost - cost) ≤ state.total
          omega
  · exact ⟨state, rfl, accounts, FitState.Compacts.refl state⟩

theorem FitState.offer_accounts (digestChars : Int) (cited : CitedSnippets) (state : FitState)
    (i : Nat) (accounts : state.Accounts count strictSchema tools) :
    ∃ after, state.offer count digestChars cited i = .ok after ∧
      after.Accounts count strictSchema tools ∧ state.Compacts after ∧ i ∈ after.offered := by
  obtain ⟨after, digested, kept, compacts⟩ := FitState.digest_accounts digestChars cited
    { state with offered := state.offered ++ [i] } i
    ⟨accounts.costed, accounts.balanced, accounts.counted⟩
  refine ⟨after, digested, kept, ⟨compacts.sameRoles, compacts.sameCalls, compacts.lowers, ?_⟩, ?_⟩
  · intro j member
    exact compacts.remembers j (List.mem_append_left _ member)
  · exact compacts.remembers i (List.mem_append_right _ (List.mem_singleton.mpr rfl))

theorem compactSupersededToolResults_accounts (digestChars : Int) (cited : CitedSnippets)
    (tailStart : Nat) (state : FitState) (accounts : state.Accounts count strictSchema tools) :
    ∃ after, compactSupersededToolResults count digestChars cited tailStart state = .ok after ∧
      after.Accounts count strictSchema tools := by
  refine foldlM_reaches _ (fun _ after => after.Accounts count strictSchema tools) ?_ _ [] state
    accounts
  intro done current i held
  split
  · obtain ⟨after, digested, kept, -⟩ := current.digest_accounts digestChars cited i held
    exact ⟨after, digested, kept⟩
  · exact ⟨current, rfl, held⟩

theorem compactProactively_accounts (config : ContextConfig) (cited : CitedSnippets)
    (state : FitState) (accounts : state.Accounts count strictSchema tools) :
    ∃ after, compactProactively count config cited state = .ok after ∧
      after.Accounts count strictSchema tools := by
  unfold compactProactively
  split
  · exact compactSupersededToolResults_accounts _ cited _ state accounts
  · exact ⟨state, rfl, accounts⟩

/-- One chunk offers each of its candidates. -/
theorem offerChunk_accounts (digestChars : Int) (cited : CitedSnippets) (chunk : List Nat)
    (state : FitState) (accounts : state.Accounts count strictSchema tools) :
    ∃ after, chunk.foldlM (FitState.offer count digestChars cited) state = .ok after ∧
      after.Accounts count strictSchema tools ∧ state.Compacts after ∧
      ∀ i ∈ chunk, i ∈ after.offered := by
  have reached := foldlM_reaches (FitState.offer count digestChars cited)
    (fun done after => after.Accounts count strictSchema tools ∧ state.Compacts after ∧
      ∀ i ∈ done, i ∈ after.offered) ?_ chunk [] state
    ⟨accounts, FitState.Compacts.refl state, by simp⟩
  · simpa using reached
  · rintro done current i ⟨held, compacts, offered⟩
    obtain ⟨after, offers, kept, further, latest⟩ := current.offer_accounts digestChars cited i held
    refine ⟨after, offers, kept, compacts.trans further, ?_⟩
    intro j member
    rcases List.mem_append.mp member with earlier | last
    · exact further.remembers j (offered j earlier)
    · rw [List.mem_singleton.mp last]
      exact latest

/-- The chunk loop offers every candidate unless the total fits. -/
theorem compactChunks_accounts (digestChars : Int) (cited : CitedSnippets) (budget : Int)
    (chunkSize : Nat) (positive : 0 < chunkSize) (fuel : Nat) (candidates : List Nat)
    (enough : candidates.length ≤ fuel) (state : FitState)
    (accounts : state.Accounts count strictSchema tools) :
    ∃ after, compactChunks count digestChars cited budget chunkSize fuel candidates state =
        .ok after ∧ after.Accounts count strictSchema tools ∧ state.Compacts after ∧
      (budget < after.total → ∀ i ∈ candidates, i ∈ after.offered) := by
  induction fuel generalizing candidates state with
  | zero =>
      obtain rfl : candidates = [] := List.length_eq_zero_iff.mp (Nat.le_zero.mp enough)
      exact ⟨state, rfl, accounts, FitState.Compacts.refl state, by simp⟩
  | succ fuel ih =>
      unfold compactChunks
      split
      · next stops =>
          refine ⟨state, rfl, accounts, FitState.Compacts.refl state, ?_⟩
          intro exceeds i member
          simp only [Bool.or_eq_true, decide_eq_true_eq, List.isEmpty_iff] at stops
          rcases stops with fits | empty
          · omega
          · simp [empty] at member
      · next goes =>
          obtain ⟨next, offers, held, compacts, offered⟩ :=
            offerChunk_accounts digestChars cited (candidates.take chunkSize) state accounts
          have nonempty : candidates ≠ [] := by
            rintro rfl
            simp at goes
          have shorter : (candidates.drop chunkSize).length ≤ fuel := by
            have some' := List.length_pos_of_ne_nil nonempty
            rw [List.length_drop]
            omega
          obtain ⟨after, runs, kept, further, rest⟩ :=
            ih (candidates.drop chunkSize) shorter next held
          refine ⟨after, ?_, kept, compacts.trans further, ?_⟩
          · rw [offers, ok_bind]
            exact runs
          · intro exceeds i member
            rw [← List.take_append_drop chunkSize candidates] at member
            rcases List.mem_append.mp member with now | later
            · exact further.remembers i (offered i now)
            · exact rest exceeds i later

/-- A tool result of the live tail is a candidate of one of the two tiers. -/
theorem mem_tierCandidates (cited : CitedSnippets) (tailStart i : Nat) (working : List ChatMessage)
    (message : ChatMessage) (after : tailStart ≤ i) (here : working[i]? = some message)
    (result : message.role = .tool) :
    i ∈ tierCandidates cited tailStart (isCited cited message.toolCallId) working := by
  have inside := (List.getElem?_eq_some_iff.mp here).1
  unfold tierCandidates
  rw [List.mem_filter, List.mem_range'_1, here]
  exact ⟨by omega, by simp [result]⟩

/-- The candidates depend only on the roles and calls of the working list. -/
theorem FitState.Compacts.tierCandidates {before after : FitState} (compacts : before.Compacts after)
    (cited : CitedSnippets) (tailStart : Nat) (tierCited : Bool) :
    Context.tierCandidates cited tailStart tierCited after.working =
      Context.tierCandidates cited tailStart tierCited before.working := by
  have sameLength : after.working.length = before.working.length := by
    simpa using congrArg List.length compacts.sameRoles
  unfold Context.tierCandidates
  rw [sameLength]
  apply List.filter_congr
  intro i _
  have role := congrArg (fun roles => roles[i]?) compacts.sameRoles
  have call := congrArg (fun calls => calls[i]?) compacts.sameCalls
  simp only [List.getElem?_map] at role call
  cases now : after.working[i]? with
  | none =>
      cases then' : before.working[i]? with
      | none => rfl
      | some message => simp [now, then'] at role
  | some message =>
      cases then' : before.working[i]? with
      | none => simp [now, then'] at role
      | some earlier =>
          simp only [now, then', Option.map_some, Option.some.injEq] at role call
          simp [role, call]

theorem compactTier_accounts (digestChars : Int) (cited : CitedSnippets) (budget : Int)
    (chunkSize : Nat) (positive : 0 < chunkSize) (tailStart : Nat) (state : FitState)
    (tierCited : Bool) (accounts : state.Accounts count strictSchema tools) :
    ∃ after, compactTier count digestChars cited budget chunkSize tailStart state tierCited =
        .ok after ∧ after.Accounts count strictSchema tools ∧ state.Compacts after ∧
      (budget < after.total →
        ∀ i ∈ tierCandidates cited tailStart tierCited state.working, i ∈ after.offered) :=
  compactChunks_accounts digestChars cited budget chunkSize positive _ _ (Nat.le_refl _) state accounts

/-- A compaction that stays over the budget has offered every tool result of the live tail. -/
theorem compactOldestToolResults_accounts (digestChars : Int) (cited : CitedSnippets) (budget : Int)
    (chunkSize : Nat) (positive : 0 < chunkSize) (tailStart : Nat) (state : FitState)
    (accounts : state.Accounts count strictSchema tools) :
    ∃ after, compactOldestToolResults count digestChars cited budget chunkSize tailStart state =
        .ok after ∧ after.Accounts count strictSchema tools ∧ state.Compacts after ∧
      (budget < after.total → ∀ i message, tailStart ≤ i → after.working[i]? = some message →
        message.role = .tool → i ∈ after.offered) := by
  obtain ⟨uncited, first, heldFirst, compactsFirst, offeredFirst⟩ :=
    compactTier_accounts digestChars cited budget chunkSize positive tailStart state false accounts
  obtain ⟨last, second, heldLast, compactsLast, offeredLast⟩ :=
    compactTier_accounts digestChars cited budget chunkSize positive tailStart uncited true heldFirst
  have compacts := compactsFirst.trans compactsLast
  refine ⟨last, ?_, heldLast, compacts, ?_⟩
  · unfold compactOldestToolResults
    rw [List.foldlM_cons, first, ok_bind, List.foldlM_cons, second, ok_bind]
    rfl
  · intro exceeds i message after here result
    have candidate := mem_tierCandidates cited tailStart i last.working message after here result
    cases tier : isCited cited message.toolCallId with
    | false =>
        rw [tier, compacts.tierCandidates] at candidate
        have overFirst : budget < uncited.total := Int.lt_of_lt_of_le exceeds compactsLast.lowers
        exact compactsLast.remembers i (offeredFirst overFirst i candidate)
    | true =>
        rw [tier, compactsLast.tierCandidates] at candidate
        exact offeredLast exceeds i candidate

theorem oldestSheddableSpan_bounds (messages : List ChatMessage) (tailStart start stop : Nat)
    (span : oldestSheddableSpan messages tailStart = some (start, stop)) : start < stop := by
  unfold oldestSheddableSpan at span
  split at span
  · simp at span
  · obtain ⟨message, -, ends⟩ := Option.map_eq_some_iff.mp span
    split at ends
    · simp only [Prod.mk.injEq] at ends
      omega
    · simp only [Prod.mk.injEq] at ends
      omega

theorem FitState.shed_accounts (state : FitState) (start stop : Nat) (ordered : start ≤ stop)
    (accounts : state.Accounts count strictSchema tools) :
    (state.shed start stop).Accounts count strictSchema tools := by
  obtain ⟨fixed, known, total⟩ := accounts.balanced
  refine FitState.Accounts.mark ⟨?_, ⟨fixed, known, ?_⟩, accounts.counted⟩
  · exact List.rel_append (List.forall₂_take start accounts.costed)
      (List.forall₂_drop stop accounts.costed)
  · rw [sum_cut state.costs start stop ordered, total]
    exact Int.add_sub_assoc _ _ _

/-- The shed loop stays accounted and ends when the total fits or no history unit is left. -/
theorem shedHistory_accounts (budget : Int) (fuel tailStart : Nat) (enough : tailStart ≤ fuel)
    (state : FitState) (accounts : state.Accounts count strictSchema tools) :
    (shedHistory budget fuel tailStart state).2.Accounts count strictSchema tools ∧
      (budget < (shedHistory budget fuel tailStart state).2.total →
        oldestSheddableSpan (shedHistory budget fuel tailStart state).2.working
          (shedHistory budget fuel tailStart state).1 = none) := by
  induction fuel generalizing tailStart state with
  | zero =>
      refine ⟨accounts, fun _ => ?_⟩
      simp [shedHistory, oldestSheddableSpan, Nat.le_zero.mp enough]
  | succ fuel ih =>
      unfold shedHistory
      split
      · next fits => exact ⟨accounts, fun exceeds => absurd exceeds (by simpa using fits)⟩
      · split
        · next none' => exact ⟨accounts, fun _ => none'⟩
        · next start stop span =>
            have wide := oldestSheddableSpan_bounds _ _ _ _ span
            exact ih (tailStart - (stop - start)) (by omega) (state.shed start stop)
              (state.shed_accounts start stop (Nat.le_of_lt wide) accounts)

/-- The end of the sheddable history depends only on the length of the working list. -/
theorem oldestSheddableSpan_eq_none_iff (messages : List ChatMessage) (tailStart : Nat) :
    oldestSheddableSpan messages tailStart = none ↔ tailStart ≤ 1 ∨ messages.length ≤ 1 := by
  unfold oldestSheddableSpan
  split
  · next low => simp [low]
  · next high => simp [high]

/-- The state offers no further reduction: no history unit is left to shed, and every tool
result of the live tail has been offered for digestion. -/
def FitState.Exhausted (tailStart : Nat) (state : FitState) : Prop :=
  oldestSheddableSpan state.working tailStart = none ∧
    ∀ i message, tailStart ≤ i → state.working[i]? = some message → message.role = .tool →
      i ∈ state.offered

/-- The loops end accounted, and exhausted when the total is over the budget. -/
theorem fitLoops_accounts (config : ContextConfig) (resolved : Option Int) (cited : CitedSnippets)
    (messages : List ChatMessage) :
    (∃ fitted, fitLoops count strictSchema config resolved cited messages tools = .ok fitted ∧
      fitted.2.Accounts count strictSchema tools ∧
      (inputBudget config resolved < fitted.2.total → fitted.2.Exhausted fitted.1)) ∨
    (fitLoops count strictSchema config resolved cited messages tools = .error toolNameCollision ∧
      estimateMessageTokens count strictSchema messages tools = .error toolNameCollision) := by
  unfold fitLoops
  rcases @FitState.start_accounts count strictSchema tools messages with ⟨started, starts, held⟩ | ⟨raises, estimate⟩
  · refine Or.inl ?_
    rw [starts, ok_bind]
    obtain ⟨compacted, compacts, heldCompacted⟩ :=
      compactProactively_accounts config cited started held
    rw [compacts, ok_bind]
    dsimp only
    split
    · next fits => exact ⟨_, rfl, heldCompacted, fun exceeds => absurd exceeds (by simpa using fits)⟩
    · have shed := shedHistory_accounts (inputBudget config resolved)
        (lastQuestionIndex compacted.working) (lastQuestionIndex compacted.working) (Nat.le_refl _)
        compacted heldCompacted
      split
      · next fits => exact ⟨_, rfl, shed.1, fun exceeds => absurd exceeds (by simpa using fits)⟩
      · next exceeds =>
          have positive : 0 < (max 1 config.compactionChunkSize).toNat := by omega
          obtain ⟨last, runs, heldLast, compactsLast, offered⟩ :=
            compactOldestToolResults_accounts config.compactionDigestChars cited
              (inputBudget config resolved) _ positive _ _ shed.1
          have sameLength := congrArg List.length compactsLast.sameRoles
          rw [List.length_map, List.length_map] at sameLength
          rw [runs, ok_bind]
          refine ⟨_, rfl, heldLast, fun finallyOver => ⟨?_, offered finallyOver⟩⟩
          have ended := shed.2 (by simpa using exceeds)
          rw [oldestSheddableSpan_eq_none_iff] at ended ⊢
          rw [sameLength]
          exact ended
  · refine Or.inr ⟨?_, estimate⟩
    rw [raises, error_bind]

/-- A fitted transcript is within the budget, the running total is the estimate of the working
list at every loop point, and a refusal is a name collision or comes after every reduction. -/
theorem fitTranscript_accounts (count : Text → Nat) (strictSchema : StrictSchema)
    (config : ContextConfig) (resolver : Text → Option Int) (cited : CitedSnippets) (model : Text)
    (messages : List ChatMessage) (tools : List ToolSpec) :
    (∀ kept, fitTranscript count strictSchema config resolver cited model messages tools = .ok kept →
      ∃ spent, estimateMessageTokens count strictSchema kept tools = .ok spent ∧
        spent ≤ max (inputWindow config (resolver model) - config.outputHeadroomTokens -
          safetyMarginTokens) 1) ∧
    (∀ fitted, fitLoops count strictSchema config (resolver model) cited messages tools = .ok fitted →
      ∀ point ∈ fitted.2.points,
        estimateMessageTokens count strictSchema point.1 tools = .ok point.2) ∧
    ∀ raised, fitTranscript count strictSchema config resolver cited model messages tools =
        .error raised →
      (raised = transcriptTooLarge ∧
        ∃ fitted, fitLoops count strictSchema config (resolver model) cited messages tools =
          .ok fitted ∧ fitted.2.Exhausted fitted.1) ∨
      (raised = toolNameCollision ∧
        estimateMessageTokens count strictSchema messages tools = .error raised) := by
  rcases @fitLoops_accounts count strictSchema tools config (resolver model) cited messages with
    ⟨fitted, loops, accounts, exhausted⟩ | ⟨loops, estimate⟩
  · refine ⟨?_, ?_, ?_⟩
    · intro kept fits
      unfold fitTranscript at fits
      rw [loops, ok_bind] at fits
      split at fits
      · simp [throw, throwThe, MonadExceptOf.throw] at fits
      · next within =>
          obtain rfl := Except.ok.inj fits
          exact ⟨_, accounts.estimate, Int.not_lt.mp within⟩
    · intro other same point member
      obtain rfl := Except.ok.inj (loops.symm.trans same)
      exact accounts.counted point member
    · intro raised fails
      unfold fitTranscript at fails
      rw [loops, ok_bind] at fails
      split at fails
      · next exceeds => exact Or.inl ⟨(Except.error.inj fails).symm, fitted, loops, exhausted exceeds⟩
      · exact absurd fails (by simp)
  · have refused : fitTranscript count strictSchema config resolver cited model messages tools =
        .error toolNameCollision := by
      unfold fitTranscript
      rw [loops, error_bind]
    refine ⟨?_, ?_, ?_⟩
    · intro kept fits
      exact absurd (refused.symm.trans fits) (by simp only [reduceCtorEq, not_false_eq_true])
    · intro fitted same
      exact absurd (loops.symm.trans same) (by simp only [reduceCtorEq, not_false_eq_true])
    · intro raised fails
      obtain rfl := Except.error.inj (refused.symm.trans fails)
      exact Or.inr ⟨rfl, estimate⟩

/-- This transcript has one history message and one tool result. -/
def searchTranscript : List ChatMessage :=
  [{ role := .system, content := "be brief".toList },
    { role := .user, content := "an old question".toList },
    { role := .user, content := "the question".toList },
    { role := .assistant, content := [], toolCalls := [⟨"c1".toList, "search".toList, []⟩] },
    { role := .tool, content := "a long tool result".toList, toolCallId := some "c1".toList,
      name := some "search".toList }]

/-- The window of 1380 characters sheds the history message, and one of 1100 is refused. -/
theorem fitTranscript_accounts_search :
    (∃ kept spent, fitTranscript List.length some { outputHeadroomTokens := 0 }
        (fun _ => some 1380) [] "m".toList searchTranscript [] = .ok kept ∧ kept.length = 4 ∧
      estimateMessageTokens List.length some kept [] = .ok spent ∧ spent ≤ 356) ∧
    ∃ fitted, fitLoops List.length some { outputHeadroomTokens := 0 } (some 1100) []
        searchTranscript [] = .ok fitted ∧ fitted.2.Exhausted fitted.1 ∧
      ∀ point ∈ fitted.2.points, estimateMessageTokens List.length some point.1 [] = .ok point.2 := by
  have fits := fitTranscript_accounts List.length some { outputHeadroomTokens := 0 }
    (fun _ => some 1380) [] "m".toList searchTranscript []
  have refuses := fitTranscript_accounts List.length some { outputHeadroomTokens := 0 }
    (fun _ => some 1100) [] "m".toList searchTranscript []
  have shortened : (fitTranscript List.length some { outputHeadroomTokens := 0 }
      (fun _ => some 1380) [] "m".toList searchTranscript []).map List.length = .ok 4 := by
    decide +kernel
  have refused : (fitTranscript List.length some { outputHeadroomTokens := 0 }
      (fun _ => some 1100) [] "m".toList searchTranscript []).map List.length =
        .error transcriptTooLarge := by
    decide +kernel
  constructor
  · obtain ⟨kept, result, length⟩ := (map_eq_ok_iff _ _ _).mp shortened
    obtain ⟨spent, estimate, within⟩ := fits.1 kept result
    exact ⟨kept, spent, result, length, estimate, within⟩
  · have different : transcriptTooLarge ≠ toolNameCollision := by decide +kernel
    rcases refuses.2.2 _ ((map_eq_error_iff _ _ _).mp refused) with
      ⟨-, fitted, loops, exhausted⟩ | ⟨collides, -⟩
    · exact ⟨fitted, loops, exhausted, refuses.2.1 fitted loops⟩
    · exact absurd collides different

/-- A message that calls a tool and its projected name is refused for the names, not the size. -/
theorem fitTranscript_refuses_collision :
    ∃ messages : List ChatMessage,
      messages.map ChatMessage.toolNames =
        [["a b".toList, "a_b__c8687a08aa5d6ed20443".toList]] ∧
      fitTranscript List.length some {} (fun _ => none) [] "m".toList messages [] =
        .error toolNameCollision ∧
      toolNameCollision ≠ transcriptTooLarge := by
  refine ⟨[{ role := .assistant, content := [], toolCalls := [⟨"c1".toList, "a b".toList, []⟩,
    ⟨"c2".toList, "a_b__c8687a08aa5d6ed20443".toList, []⟩] }], rfl, ?_, by decide +kernel⟩
  have refused : ∀ message : ChatMessage,
      message.toolNames = ["a b".toList, "a_b__c8687a08aa5d6ed20443".toList] →
        messageCost List.length message = .error toolNameCollision := by
    intro message names
    have collides : (ToolNameMap.ofNames ["a b".toList, "a_b__c8687a08aa5d6ed20443".toList]).map
        ToolNameMap.forward = .error toolNameCollision := by decide +kernel
    unfold messageCost messageWireText
    rw [names, (map_eq_error_iff _ _ _).mp collides, error_bind, error_bind]
  unfold fitTranscript fitLoops FitState.start
  rw [List.mapM_cons, refused _ rfl]
  rfl

end LumenCopilot.Context
