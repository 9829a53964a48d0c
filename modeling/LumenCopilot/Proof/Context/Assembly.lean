import LumenCopilot.Construction.Context.Assemble
import LumenCopilot.Proof.Context.Accounting

namespace LumenCopilot.Context

open Python Library

variable {count : Text → Nat} {strictSchema : StrictSchema} {tools : List ToolSpec}

theorem messageCost_pos (message : ChatMessage) (cost : Int)
    (costed : messageCost count message = .ok cost) : 0 < cost := by
  unfold messageCost at costed
  cases text : messageWireText message with
  | error raised =>
      rw [text, error_bind] at costed
      exact absurd costed (by simp only [reduceCtorEq, not_false_eq_true])
  | ok wire =>
      rw [text, ok_bind, pure_eq_ok, Except.ok.injEq] at costed
      unfold messageFramingTokens at costed
      omega

theorem messageCosts_nonneg (messages : List ChatMessage) (costs : List Int)
    (costed : messages.mapM (messageCost count) = .ok costs) : 0 ≤ costs.sum := by
  have all := (mapM_eq_ok_iff _ _ _).mp costed
  induction all with
  | nil => exact Int.le_refl 0
  | cons head tail ih =>
      rw [List.sum_cons]
      have first := messageCost_pos _ _ head
      have rest := ih ((mapM_eq_ok_iff _ _ _).mpr tail)
      omega

/-- The loop splits the history into the kept messages and the older ones, the newest of which
does not fit. -/
structure KeptHistory.Splits (count : Text → Nat) (remaining : Int) (history : List ChatMessage)
    (result : KeptHistory) (older : List ChatMessage) (costs : List Int) : Prop where
  whole : history = older ++ result.kept
  costed : result.kept.mapM (messageCost count) = .ok costs
  spent : result.spent = costs.sum
  fits : result.spent ≤ remaining
  dropped : result.dropped = older.length
  exceeds : ∀ earlier message, older = earlier ++ [message] →
    ∃ cost, messageCost count message = .ok cost ∧ remaining < result.spent + cost

theorem keepNewest_splits (remaining : Int) (history older kept : List ChatMessage) (spent : Int)
    (costs : List Int) (result : KeptHistory) (whole : history = older.reverse ++ kept)
    (costed : kept.mapM (messageCost count) = .ok costs) (sum : spent = costs.sum)
    (fits : spent ≤ remaining)
    (runs : keepNewest count remaining history.length older kept spent = .ok result) :
    ∃ left resultCosts, result.Splits count remaining history left resultCosts := by
  induction older generalizing kept spent costs with
  | nil =>
      simp only [keepNewest, pure_eq_ok, Except.ok.injEq] at runs
      obtain rfl := runs
      exact ⟨[], costs, whole, costed, sum, fits, rfl, by simp⟩
  | cons message older ih =>
      simp only [keepNewest] at runs
      cases tokens : messageCost count message with
      | error raised => simp [tokens] at runs
      | ok cost =>
          rw [tokens, ok_bind] at runs
          split at runs
          · next exceeds =>
              simp only [pure_eq_ok, Except.ok.injEq] at runs
              obtain rfl := runs
              refine ⟨(message :: older).reverse, costs, whole, costed, sum, fits, ?_, ?_⟩
              · simp only [whole, List.length_append, List.length_reverse, Nat.add_sub_cancel]
              · intro earlier last same
                rw [List.reverse_cons] at same
                have sameLast : message = last := List.singleton_inj.mp (List.append_inj' same rfl).2
                exact ⟨cost, sameLast ▸ tokens, exceeds⟩
          · next within =>
              refine ih (message :: kept) (spent + cost) (cost :: costs) ?_ ?_ ?_ ?_ runs
              · simp [whole]
              · rw [List.mapM_cons, tokens, costed]
                rfl
              · rw [List.sum_cons, sum]
                omega
              · omega

/-- A suffix of the history fits the remaining budget exactly when it is no longer than the
kept one. -/
theorem KeptHistory.Splits.longest {remaining : Int} {history older : List ChatMessage}
    {result : KeptHistory} {costs : List Int}
    (splits : result.Splits count remaining history older costs) (suffix : List ChatMessage)
    (suffixCosts : List Int) (isSuffix : suffix <:+ history)
    (costed : suffix.mapM (messageCost count) = .ok suffixCosts) :
    suffixCosts.sum ≤ remaining ↔ suffix.length ≤ result.kept.length := by
  obtain ⟨start, split⟩ := isSuffix
  rw [splits.whole] at split
  have within := splits.fits
  have spent := splits.spent
  rcases List.append_eq_append_iff.mp split with ⟨middle, left, right⟩ | ⟨middle, left, right⟩
  · rw [right] at costed
    obtain ⟨extra, same, extraCosted, sameCosted, joined⟩ := mapM_append_eq_ok _ _ _ _ costed
    obtain rfl := Except.ok.inj (sameCosted.symm.trans splits.costed)
    rcases List.eq_nil_or_concat middle with rfl | ⟨earlier, message, rfl⟩
    · rw [List.mapM_nil, pure_eq_ok, Except.ok.injEq] at extraCosted
      rw [joined, right, ← extraCosted]
      simp only [List.nil_append, Nat.le_refl, iff_true]
      omega
    · have unfits : remaining < suffixCosts.sum := by
        rw [List.concat_eq_append] at left extraCosted
        obtain ⟨cost, known, exceeds⟩ := splits.exceeds (start ++ earlier) message (by simp [left])
        obtain ⟨before, last, beforeCosted, lastCosted, pair⟩ := mapM_append_eq_ok _ _ _ _ extraCosted
        have nonneg := messageCosts_nonneg earlier before beforeCosted
        rw [List.mapM_cons, known, ok_bind, List.mapM_nil, pure_eq_ok, ok_bind, pure_eq_ok,
          Except.ok.injEq] at lastCosted
        rw [joined, pair, ← lastCosted, List.sum_append, List.sum_append, List.sum_singleton]
        omega
      rw [right]
      simp only [List.concat_eq_append, List.length_append, List.length_singleton]
      omega
  · have shorter : suffix.length ≤ result.kept.length := by simp [right]
    have keptCosted := splits.costed
    rw [right] at keptCosted
    obtain ⟨extra, same, extraCosted, sameCosted, joined⟩ := mapM_append_eq_ok _ _ _ _ keptCosted
    obtain rfl := Except.ok.inj (sameCosted.symm.trans costed)
    have nonneg := messageCosts_nonneg middle extra extraCosted
    rw [joined, List.sum_append] at spent
    simp only [shorter, iff_true]
    omega

theorem estimateMessageTokens_eq_ok (messages : List ChatMessage) (spent : Int) :
    estimateMessageTokens count strictSchema messages tools = .ok spent ↔
      ∃ fixed costs, fixedCost count strictSchema tools = .ok fixed ∧
        messages.mapM (messageCost count) = .ok costs ∧ spent = fixed + costs.sum := by
  unfold estimateMessageTokens
  cases fixedCost count strictSchema tools with
  | error raised => simp
  | ok fixed =>
      rw [ok_bind]
      cases messages.mapM (messageCost count) with
      | error raised => simp
      | ok costs => simp [eq_comm]

/-- A prompt within the budget is a fixed point of the refit without cited snippets. -/
theorem fitTranscript_within (config : ContextConfig) (resolver : Text → Option Int) (model : Text)
    (messages : List ChatMessage) (spent : Int)
    (estimate : estimateMessageTokens count strictSchema messages tools = .ok spent)
    (within : spent ≤ inputBudget config (resolver model)) :
    fitTranscript count strictSchema config resolver [] model messages tools = .ok messages := by
  obtain ⟨fixed, costs, known, costed, rfl⟩ := (estimateMessageTokens_eq_ok messages spent).mp estimate
  have proactive (state : FitState) : compactProactively count config [] state = .ok state := by
    simp [compactProactively]
  have loops : fitLoops count strictSchema config (resolver model) [] messages tools =
      .ok (lastQuestionIndex messages,
        FitState.mark { working := messages, costs := costs, total := fixed + costs.sum }) := by
    unfold fitLoops FitState.start
    rw [costed, ok_bind, known, ok_bind, pure_eq_ok, ok_bind, proactive, ok_bind]
    exact if_pos within
  unfold fitTranscript
  rw [loops, ok_bind]
  exact if_neg (Int.not_lt.mpr within)

/-- The shed rule keeps the reserved segment whole or drops it, and costs what it keeps. -/
theorem reserveOrShed_costed (budget bare : Int) (segment : List ChatMessage) (costs : List Int)
    (costed : segment.mapM (messageCost count) = .ok costs) :
    ∃ keptCosts,
      (reserveOrShed budget bare segment costs).1.mapM (messageCost count) = .ok keptCosts ∧
      (reserveOrShed budget bare segment costs).2 = bare + keptCosts.sum ∧
      ((reserveOrShed budget bare segment costs).1 = segment ∨
        (reserveOrShed budget bare segment costs).1 = []) := by
  unfold reserveOrShed
  split
  · exact ⟨[], rfl, by simp, Or.inr rfl⟩
  · exact ⟨costs, costed, rfl, Or.inl rfl⟩

/-- The cost of a whole prompt is the sum of the costs of its parts. -/
theorem estimateMessageTokens_prompt (system question : ChatMessage)
    (reserved kept : List ChatMessage) (fixed systemCost questionCost : Int)
    (reservedCosts keptCosts : List Int) (known : fixedCost count strictSchema tools = .ok fixed)
    (systemCosted : messageCost count system = .ok systemCost)
    (questionCosted : messageCost count question = .ok questionCost)
    (reservedCosted : reserved.mapM (messageCost count) = .ok reservedCosts)
    (keptCosted : kept.mapM (messageCost count) = .ok keptCosts) :
    estimateMessageTokens count strictSchema (system :: (reserved ++ kept ++ [question])) tools =
      .ok (systemCost + questionCost + fixed + reservedCosts.sum + keptCosts.sum) := by
  refine (estimateMessageTokens_eq_ok _ _).mpr
    ⟨fixed, systemCost :: (reservedCosts ++ keptCosts ++ [questionCost]), known, ?_, ?_⟩
  · rw [mapM_eq_ok_iff] at reservedCosted keptCosted ⊢
    exact List.Forall₂.cons systemCosted (List.rel_append (List.rel_append reservedCosted keptCosted)
      (List.Forall₂.cons questionCosted List.Forall₂.nil))
  · simp only [List.sum_cons, List.sum_append, List.sum_nil]
    omega

/-- An assembled prompt is estimated exactly and within the budget, keeps the longest suffix of
the history that fits, counts what it leaves out, and is a fixed point of the refit. -/
theorem assembleContext_fits (count : Text → Nat) (strictSchema : StrictSchema) (parse : ParseSummary)
    (config : ContextConfig) (resolver : Text → Option Int) (model : Text)
    (conversation : Conversation) (tools : List ToolSpec) (budget : ContextBudget)
    (assembles : assembleContext count strictSchema parse config resolver model conversation tools =
      .ok budget) :
    estimateMessageTokens count strictSchema budget.messages tools = .ok budget.estimatedTokens ∧
    budget.estimatedTokens ≤ budget.inputBudgetTokens ∧
    (∃ reserved kept fixed,
      budget.messages = systemMessage conversation.systemPrompt ::
        (reserved ++ kept ++ [questionMessage conversation.question]) ∧
      (reservedSegment parse conversation.summary conversation.evidenceLines
        conversation.evidenceDocumentIds = .ok reserved ∨ reserved = []) ∧
      estimateMessageTokens count strictSchema (systemMessage conversation.systemPrompt ::
        (reserved ++ [questionMessage conversation.question])) tools = .ok fixed ∧
      kept <:+ conversation.history ∧
      budget.droppedHistoryMessages = conversation.history.length - kept.length ∧
      ∀ suffix costs, suffix <:+ conversation.history →
        suffix.mapM (messageCost count) = .ok costs →
          (costs.sum ≤ budget.inputBudgetTokens - fixed ↔ suffix.length ≤ kept.length)) ∧
    fitTranscript count strictSchema config resolver [] model budget.messages tools =
      .ok budget.messages := by
  unfold assembleContext at assembles
  obtain ⟨segment, reserves, assembles⟩ := bind_eq_ok assembles
  obtain ⟨fixed, known, assembles⟩ := bind_eq_ok assembles
  obtain ⟨systemCost, systemCosted, assembles⟩ := bind_eq_ok assembles
  obtain ⟨questionCost, questionCosted, assembles⟩ := bind_eq_ok assembles
  obtain ⟨segmentCosts, segmentCosted, assembles⟩ := bind_eq_ok assembles
  obtain ⟨reservedCosts, reservedCosted, spentFixed, whichReserved⟩ :=
    reserveOrShed_costed (inputBudget config (resolver model)) (systemCost + questionCost + fixed)
      segment segmentCosts segmentCosted
  dsimp only at assembles
  split at assembles
  · exact absurd assembles (by simp [throw, throwThe, MonadExceptOf.throw])
  · next affordable =>
      obtain ⟨history, keeps, assembles⟩ := bind_eq_ok assembles
      obtain rfl := Except.ok.inj assembles
      dsimp only
      have room : 0 ≤ inputBudget config (resolver model) - (reserveOrShed
          (inputBudget config (resolver model)) (systemCost + questionCost + fixed) segment
            segmentCosts).2 := by omega
      obtain ⟨older, keptCosts, splits⟩ := keepNewest_splits _ conversation.history
        conversation.history.reverse [] 0 [] history (by simp) rfl rfl room keeps
      have estimate := estimateMessageTokens_prompt _ _ _ history.kept fixed systemCost questionCost
        reservedCosts keptCosts known systemCosted questionCosted reservedCosted splits.costed
      have bare := estimateMessageTokens_prompt _ _ _ [] fixed systemCost questionCost
        reservedCosts [] known systemCosted questionCosted reservedCosted rfl
      have spent := splits.spent
      have fits := splits.fits
      rw [← spentFixed, ← spent] at estimate
      rw [← spentFixed, List.sum_nil, Int.add_zero, List.append_nil] at bare
      refine ⟨estimate, by omega, ⟨_, history.kept, _, rfl, ?_, bare, ?_, ?_, ?_⟩, ?_⟩
      · rcases whichReserved with whole | shed
        · exact Or.inl (whole.symm ▸ reserves)
        · exact Or.inr shed
      · exact ⟨older, splits.whole.symm⟩
      · rw [splits.dropped, splits.whole, List.length_append, Nat.add_sub_cancel]
      · exact splits.longest
      · exact fitTranscript_within config resolver model _ _ estimate (by omega)

/-- The window of 1185 characters keeps the newest of two history messages. -/
theorem assembleContext_fits_newest :
    ∃ budget, assembleContext List.length some (fun _ => .error []) { outputHeadroomTokens := 0 }
        (fun _ => some 1185) "m".toList
        { systemPrompt := "be brief".toList, question := "the question".toList,
          history := [{ role := .user, content := "a".toList },
            { role := .assistant, content := "b".toList }] } [] = .ok budget ∧
      budget.droppedHistoryMessages = 1 ∧
      budget.estimatedTokens ≤ budget.inputBudgetTokens ∧
      fitTranscript List.length some { outputHeadroomTokens := 0 } (fun _ => some 1185) []
        "m".toList budget.messages [] = .ok budget.messages := by
  have assembled : (assembleContext List.length some (fun _ => .error [])
      { outputHeadroomTokens := 0 } (fun _ => some 1185) "m".toList
      { systemPrompt := "be brief".toList, question := "the question".toList,
        history := [{ role := .user, content := "a".toList },
          { role := .assistant, content := "b".toList }] } []).map
      ContextBudget.droppedHistoryMessages = .ok 1 := by
    decide
  obtain ⟨budget, assembles, dropped⟩ := (map_eq_ok_iff _ _ _).mp assembled
  have fits := assembleContext_fits _ _ _ _ _ _ _ _ budget assembles
  exact ⟨budget, assembles, dropped, fits.2.1, fits.2.2.2⟩

end LumenCopilot.Context
