import LumenCopilot.Proof.Context.Refit

namespace LumenCopilot.Context

open Python Library

variable {count : Text → Nat} {strictSchema : StrictSchema} {tools : List ToolSpec}

/-- Some window leaves room for every total. -/
theorem inputBudget_reaches (config : ContextConfig) (total : Int) :
    ∃ window, total ≤ inputBudget config (some window) := by
  refine ⟨max (total + config.outputHeadroomTokens + safetyMarginTokens) 1, ?_⟩
  have positive : max (total + config.outputHeadroomTokens + safetyMarginTokens) 1 ≠ 0 := by omega
  unfold inputBudget inputWindow
  dsimp only
  rw [if_neg positive]
  omega

theorem FitState.start_estimated (messages : List ChatMessage) (total : Int)
    (estimated : estimateMessageTokens count strictSchema messages tools = .ok total) :
    ∃ started, FitState.start count strictSchema messages tools = .ok started ∧
      started.Accounts count strictSchema tools := by
  rcases @FitState.start_accounts count strictSchema tools messages with started | ⟨-, fails⟩
  · exact started
  · rw [fails] at estimated
    contradiction

theorem FitState.start_held (messages : List ChatMessage) (started : FitState)
    (starts : FitState.start count strictSchema messages tools = .ok started) :
    started.Accounts count strictSchema tools := by
  rcases @FitState.start_accounts count strictSchema tools messages with ⟨other, runs, held⟩ | ⟨raises, -⟩
  · obtain rfl := Except.ok.inj (runs.symm.trans starts)
    exact held
  · rw [raises] at starts
    contradiction

theorem fitLoops_estimated (config : ContextConfig) (resolved : Option Int) (cited : CitedSnippets)
    (messages : List ChatMessage) (ended : Nat × FitState)
    (fits : fitLoops count strictSchema config resolved cited messages tools = .ok ended) :
    ∃ total, estimateMessageTokens count strictSchema messages tools = .ok total := by
  unfold fitLoops at fits
  dsimp only at fits
  obtain ⟨started, starts, -⟩ := bind_eq_ok fits
  have estimate := (FitState.start_held messages started starts).estimate
  rw [FitState.start_working messages started starts] at estimate
  exact ⟨_, estimate⟩

/-- A transcript whose proactive pass fits the budget goes through nothing else. -/
theorem fitTranscript_proactive (config : ContextConfig) (resolver : Text → Option Int)
    (cited : CitedSnippets) (model : Text) (messages : List ChatMessage)
    (started compacted : FitState)
    (starts : FitState.start count strictSchema messages tools = .ok started)
    (compacts : compactProactively count config cited started = .ok compacted)
    (fits : compacted.total ≤ inputBudget config (resolver model)) :
    fitTranscript count strictSchema config resolver cited model messages tools =
      .ok compacted.working := by
  unfold fitTranscript fitLoops
  dsimp only
  rw [starts, ok_bind, compacts, ok_bind, if_pos fits, pure_eq_ok, ok_bind,
    if_neg (Int.not_lt.mpr fits)]
  rfl

/-- The proactive pass leaves a steady tail as it is. -/
theorem compactProactively_still (config : ContextConfig) (cited : CitedSnippets)
    (state : FitState) (accounts : state.Accounts count strictSchema tools)
    (steady : config.proactiveCompactionEnabled = true → cited.isEmpty = false →
      Steady count config.compactionDigestChars cited (lastQuestionIndex state.working)
        state.working) :
    ∃ after, compactProactively count config cited state = .ok after ∧
      after.working = state.working ∧ after.total = state.total := by
  unfold compactProactively
  split
  · next requested =>
      simp only [Bool.and_eq_true, Bool.not_eq_eq_eq_not, Bool.not_true] at requested
      exact compactSupersededToolResults_still _ cited _ state accounts
        (steady requested.1 requested.2)
  · exact ⟨state, rfl, rfl, rfl⟩

/-- The loops end with a steady tail, when no superseded result shrinks twice. -/
theorem fitLoops_steady (config : ContextConfig) (resolved : Option Int) (cited : CitedSnippets)
    (messages : List ChatMessage) (ended : Nat × FitState)
    (enabled : config.proactiveCompactionEnabled = true) (listed : cited.isEmpty = false)
    (once : DigestsOnce count config.compactionDigestChars cited messages)
    (fits : fitLoops count strictSchema config resolved cited messages tools = .ok ended) :
    Steady count config.compactionDigestChars cited (lastQuestionIndex ended.2.working)
      ended.2.working := by
  unfold fitLoops at fits
  dsimp only at fits
  obtain ⟨started, starts, afterStart⟩ := bind_eq_ok fits
  obtain ⟨state, compacts, rest⟩ := bind_eq_ok afterStart
  have working := FitState.start_working messages started starts
  have accounts := FitState.start_held messages started starts
  obtain ⟨same, runs, held⟩ := compactProactively_accounts config cited started accounts
  obtain rfl := Except.ok.inj (runs.symm.trans compacts)
  have question := (compactProactively_retells config cited started same compacts).question
  have settled : Steady count config.compactionDigestChars cited (lastQuestionIndex same.working)
      same.working := by
    unfold compactProactively at compacts
    rw [if_pos (by simp [enabled, listed])] at compacts
    rw [question]
    exact compactSupersededToolResults_steady _ cited started same accounts
      (working.symm ▸ once) compacts
  split at rest
  · obtain rfl := Except.ok.inj rest
    exact settled
  · obtain ⟨dropped, ends, bounded, cut, -⟩ := shedHistory_sheds
      (inputBudget config resolved) (lastQuestionIndex same.working)
      (lastQuestionIndex same.working) same
    have shed := settled.shed dropped bounded (lastQuestionIndex_spec same.working).1
    have moved := lastQuestionIndex_shed same.working dropped bounded
    rw [← cut] at shed moved
    split at rest
    · obtain rfl := Except.ok.inj rest
      rw [moved]
      exact shed
    · obtain ⟨last, reactive, final⟩ := bind_eq_ok rest
      obtain rfl := Except.ok.inj final
      rw [ends] at reactive
      have heldShed := (shedHistory_accounts (inputBudget config resolved)
        (lastQuestionIndex same.working) (lastQuestionIndex same.working) le_rfl same held).1
      have kept := @Steady.kept count strictSchema tools config.compactionDigestChars cited
        (lastQuestionIndex same.working - dropped)
      have late := compactOldestToolResults_keeps kept (inputBudget config resolved) _ _ last
        ⟨heldShed, shed⟩ reactive
      rw [late.1.question, moved]
      exact late.2.2

/-- A transcript refits to itself in every window exactly when no superseded result whose digest
is cheaper has a digest that is cheaper once more, or nothing is compacted proactively. -/
theorem fitTranscript_idempotent (count : Text → Nat) (strictSchema : StrictSchema)
    (config : ContextConfig) (cited : CitedSnippets) (tools : List ToolSpec)
    (messages : List ChatMessage) :
    (∀ (resolver : Text → Option Int) (model : Text) (fitted : List ChatMessage),
      fitTranscript count strictSchema config resolver cited model messages tools = .ok fitted →
        fitTranscript count strictSchema config resolver cited model fitted tools = .ok fitted) ↔
    ∀ total, estimateMessageTokens count strictSchema messages tools = .ok total →
      config.proactiveCompactionEnabled = true → cited.isEmpty = false →
        DigestsOnce count config.compactionDigestChars cited messages := by
  constructor
  · intro idempotent total estimated enabled listed i message superseded shrinks again
    have requested : (config.proactiveCompactionEnabled && !cited.isEmpty) = true := by
      simp [enabled, listed]
    obtain ⟨started, starts, held⟩ := FitState.start_estimated messages total estimated
    obtain ⟨compacted, compacts, heldCompacted⟩ :=
      compactProactively_accounts config cited started held
    obtain ⟨restarted, restarts, reheld⟩ :=
      FitState.start_estimated compacted.working compacted.total heldCompacted.estimate
    obtain ⟨recompacted, recompacts, -⟩ :=
      compactProactively_accounts config cited restarted reheld
    obtain ⟨window, wide⟩ :=
      inputBudget_reaches config (max compacted.total recompacted.total)
    have fits := fitTranscript_proactive config (fun _ => some window) cited [] messages started
      compacted starts compacts (by omega)
    have refits' := fitTranscript_proactive config (fun _ => some window) cited [] compacted.working
      restarted recompacted restarts recompacts (by omega)
    have same := Except.ok.inj
      (refits'.symm.trans (idempotent (fun _ => some window) [] compacted.working fits))
    obtain rfl := FitState.start_working messages started starts
    have working := FitState.start_working compacted.working restarted restarts
    have retells := compactProactively_retells config cited started compacted compacts
    unfold compactProactively at compacts recompacts
    rw [if_pos requested] at compacts recompacts
    obtain ⟨low, high, here, eligible⟩ := superseded
    have first := (compactSupersededToolResults_redigests _ cited _ started compacted held
      compacts).replaces i message here ⟨low, high⟩ eligible shrinks
    rw [working, retells.question] at recompacts
    have second := (compactSupersededToolResults_redigests _ cited _ restarted recompacted reheld
      recompacts).replaces i (redigest config.compactionDigestChars cited message)
        (working.symm ▸ first) ⟨low, by rw [working, retells.group]; exact high⟩ eligible again
    rw [same] at second
    have fixed := Option.some.inj (second.symm.trans first)
    obtain ⟨cost, newCost, costed, recosted, lower⟩ := again
    rw [fixed, costed] at recosted
    exact absurd lower (Except.ok.inj recosted ▸ lt_irrefl cost)
  · intro settles resolver model fitted fits
    obtain ⟨ended, loops, rfl, within⟩ :=
      fitTranscript_loops config resolver cited model messages fitted fits
    obtain ⟨other, runs, held, -⟩ | ⟨fails, -⟩ := @fitLoops_accounts count strictSchema tools
      config (resolver model) cited messages
    · obtain rfl := Except.ok.inj (runs.symm.trans loops)
      obtain ⟨restarted, restarts, reheld⟩ :=
        FitState.start_estimated other.2.working other.2.total held.estimate
      have working := FitState.start_working other.2.working restarted restarts
      obtain ⟨again, recompacts, still, sameTotal⟩ :=
        compactProactively_still config cited restarted reheld (by
          intro enabled listed
          obtain ⟨total, estimated⟩ := fitLoops_estimated config (resolver model) cited messages
            other loops
          rw [working]
          exact fitLoops_steady config (resolver model) cited messages other enabled listed
            (settles total estimated enabled listed) loops)
      have total : restarted.total = other.2.total := by
        have estimate := reheld.estimate
        rw [working, held.estimate] at estimate
        exact (Except.ok.inj estimate).symm
      have result := fitTranscript_proactive config resolver cited model other.2.working restarted
        again restarts recompacts (by omega)
      rw [still, working] at result
      exact result
    · rw [fails] at loops
      contradiction

/-- A digest whose cut loses no trailing whitespace is its own digest. -/
theorem contextDigest_again (content : Text) (digestChars : Int) (snippets : List Text)
    (whole : rstrip (content.take (max 1 digestChars).toNat) =
      content.take (max 1 digestChars).toNat) :
    contextDigest (contextDigest content digestChars snippets) digestChars snippets =
      contextDigest content digestChars snippets := by
  by_cases short : content.length ≤ (max 1 digestChars).toNat
  · have same : contextDigest content digestChars snippets = content := if_pos short
    rw [same, same]
  · unfold contextDigest
    dsimp only
    rw [if_neg short, whole]
    generalize evidence : (if (snippets.eraseDups.filter fun snippet =>
      !snippet.isEmpty && !contains (content.take (max 1 digestChars).toNat) snippet).isEmpty then []
      else _ : Text) = kept
    have size : (content.take (max 1 digestChars).toNat).length = (max 1 digestChars).toNat := by
      rw [List.length_take]
      omega
    have taken : (content.take (max 1 digestChars).toNat ++ kept ++ compactionMarker).take
        (max 1 digestChars).toNat = content.take (max 1 digestChars).toNat := by
      rw [List.append_assoc]
      exact List.take_left' size
    have marked : 0 < compactionMarker.length := by decide +kernel
    have long : ¬(content.take (max 1 digestChars).toNat ++ kept ++ compactionMarker).length ≤
        (max 1 digestChars).toNat := by
      rw [List.length_append, List.length_append, size]
      omega
    rw [if_neg long, taken, whole, evidence]

/-- No result shrinks twice, when no cut ends in whitespace. -/
theorem digestsOnce_of_cuts (digestChars : Int) (cited : CitedSnippets)
    (messages : List ChatMessage)
    (cuts : ∀ message ∈ messages, rstrip (message.content.take (max 1 digestChars).toNat) =
      message.content.take (max 1 digestChars).toNat) :
    DigestsOnce count digestChars cited messages := by
  intro i message superseded _ again
  obtain ⟨cost, newCost, costed, recosted, lower⟩ := again
  have fixed : redigest digestChars cited (redigest digestChars cited message) =
      redigest digestChars cited message := by
    unfold redigest
    dsimp only
    rw [contextDigest_again message.content digestChars _
      (cuts message (List.mem_of_getElem? superseded.2.2.1))]
  rw [fixed, costed] at recosted
  exact absurd lower (Except.ok.inj recosted ▸ lt_irrefl cost)

/-- The cut of this result ends in whitespace, and one of its two snippets holds the other. -/
def spacedTranscript : List ChatMessage :=
  [{ role := .system, content := "be brief".toList },
    { role := .user, content := "the question".toList },
    { role := .assistant, content := [], toolCalls := [⟨"c1".toList, "search".toList, []⟩] },
    { role := .tool,
      content := 'x' :: (List.replicate 60 ' ' ++ "alpha beta".toList ++ List.replicate 300 'b'),
      toolCallId := some "c1".toList },
    { role := .assistant, content := [], toolCalls := [⟨"c2".toList, "search".toList, []⟩] },
    { role := .tool, content := "the newest result".toList, toolCallId := some "c2".toList }]

def nestedSnippets : CitedSnippets :=
  [("c1".toList, ["alpha beta".toList, "alpha".toList])]

def proactiveConfig : ContextConfig :=
  { outputHeadroomTokens := 0, compactionDigestChars := 50, proactiveCompactionEnabled := true }

/-- The second refit shortens the digest that the first one made. -/
theorem fitTranscript_shortens_again :
    ¬∀ (count : Text → Nat) (strictSchema : StrictSchema) (config : ContextConfig)
      (resolver : Text → Option Int) (cited : CitedSnippets) (model : Text) (tools : List ToolSpec)
      (messages fitted : List ChatMessage),
      (∀ first second : Text, first.length ≤ second.length → count first ≤ count second) →
      fitTranscript count strictSchema config resolver cited model messages tools = .ok fitted →
        fitTranscript count strictSchema config resolver cited model fitted tools = .ok fitted := by
  intro idempotent
  have lengths : ((fitTranscript List.length some proactiveConfig (fun _ => some 100000)
      nestedSnippets "m".toList spacedTranscript []).bind fun fitted =>
        (fitTranscript List.length some proactiveConfig (fun _ => some 100000) nestedSnippets
          "m".toList fitted []).map fun again =>
          decide (again.map (fun message => message.content.length) =
            fitted.map fun message => message.content.length)) = .ok false := by
    decide +kernel
  obtain ⟨fitted, fits, rest⟩ := bind_eq_ok lengths
  have again := idempotent List.length some proactiveConfig (fun _ => some 100000) nestedSnippets
    "m".toList [] spacedTranscript fitted (fun _ _ shorter => shorter) fits
  rw [again] at rest
  simp [Except.map] at rest

end LumenCopilot.Context
