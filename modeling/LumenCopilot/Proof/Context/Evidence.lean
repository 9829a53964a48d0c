import LumenCopilot.Proof.Context.Shedding

namespace LumenCopilot.Context

open Python Library

theorem contains_iff (text needle : Text) : contains text needle = true ↔ needle <:+: text := by
  simp only [contains, startsWith, List.any_eq_true, List.mem_tails, List.isPrefixOf_iff_prefix]
  rw [List.infix_iff_prefix_suffix]
  constructor
  · intro found
    obtain ⟨tail, ends, starts⟩ := found
    exact ⟨tail, starts, ends⟩
  · intro found
    obtain ⟨tail, starts, ends⟩ := found
    exact ⟨tail, ends, starts⟩

/-- A digest still contains every cited snippet that the content contains. -/
theorem contextDigest_keeps (content : Text) (digestChars : Int) (snippets : List Text)
    (snippet : Text) (listed : snippet ∈ snippets) (nonempty : snippet ≠ [])
    (inside : snippet <:+: content) : snippet <:+: contextDigest content digestChars snippets := by
  unfold contextDigest
  dsimp only
  split
  · exact inside
  · generalize rstrip (content.take (max 1 digestChars).toNat) = head
    by_cases visible : contains head snippet = true
    · rw [List.append_assoc]
      exact ((contains_iff head snippet).mp visible).trans (List.prefix_append head _).isInfix
    · have retained : snippet ∈ snippets.eraseDups.filter fun snippet =>
          !snippet.isEmpty && !contains head snippet := by
        rw [List.mem_filter, List.mem_eraseDups]
        refine ⟨listed, ?_⟩
        simp [nonempty, visible]
      generalize snippets.eraseDups.filter (fun snippet =>
        !snippet.isEmpty && !contains head snippet) = kept at retained ⊢
      have occupied : kept.isEmpty = false := by
        simpa using List.ne_nil_of_mem retained
      rw [occupied]
      obtain ⟨before, after, rfl⟩ := List.append_of_mem retained
      refine ⟨head ++ "\n[cited evidence retained verbatim:]".toList ++
        before.flatMap (fun snippet => "\n• ".toList ++ snippet) ++ "\n• ".toList,
        after.flatMap (fun snippet => "\n• ".toList ++ snippet) ++ compactionMarker, ?_⟩
      simp only [List.flatMap_append, List.flatMap_cons, List.append_assoc, Bool.false_eq_true,
        ↓reduceIte]

theorem Digests.keeps {digestChars : Int} {cited : CitedSnippets} {message later : ChatMessage}
    (digests : Digests digestChars cited message later) (snippet : Text)
    (listed : snippet ∈ snippetsOf cited message.toolCallId) (nonempty : snippet ≠ [])
    (inside : snippet <:+: message.content) : snippet <:+: later.content := by
  induction digests with
  | same => exact inside
  | digest result earlier ih =>
      exact contextDigest_keeps _ digestChars _ snippet listed nonempty ih

/-- The current question, when there is one, is the last message that asks. -/
theorem lastQuestionIndex_spec (messages : List ChatMessage) :
    lastQuestionIndex messages ≤ messages.length ∧
      (lastQuestionIndex messages = messages.length →
        ∀ message ∈ messages, message.isQuestion = false) ∧
      ∀ (i : Nat) (message : ChatMessage), lastQuestionIndex messages < i →
        messages[i]? = some message → message.isQuestion = false := by
  unfold lastQuestionIndex
  cases found : messages.reverse.findIdx? ChatMessage.isQuestion with
  | none =>
      rw [List.findIdx?_eq_none_iff] at found
      refine ⟨le_rfl, fun _ message member => found message (List.mem_reverse.mpr member), ?_⟩
      intro i message after here
      exact found message (List.mem_reverse.mpr (List.mem_of_getElem? here))
  | some back =>
      obtain ⟨inside, -, before⟩ := List.findIdx?_eq_some_iff_getElem.mp found
      rw [List.length_reverse] at inside
      dsimp only
      refine ⟨by omega, fun full => by omega, ?_⟩
      intro i message after here
      obtain ⟨bound, same⟩ := List.getElem?_eq_some_iff.mp here
      have place : messages.length - 1 - i < back := by omega
      have quiet := before (messages.length - 1 - i) place
      rw [List.getElem_reverse] at quiet
      have index : messages.length - 1 - (messages.length - 1 - i) = i := by omega
      simp only [index, same] at quiet
      simpa using quiet

theorem lastQuestionIndex_eq (messages : List ChatMessage) (question : Nat)
    (bounded : question ≤ messages.length)
    (asks : ∀ message, messages[question]? = some message → message.isQuestion = true)
    (absent : question = messages.length → ∀ message ∈ messages, message.isQuestion = false)
    (after : ∀ (i : Nat) (message : ChatMessage), question < i → messages[i]? = some message →
      message.isQuestion = false) : lastQuestionIndex messages = question := by
  obtain ⟨bound, none', later⟩ := lastQuestionIndex_spec messages
  have first := lastQuestionIndex_question messages
  generalize lastQuestionIndex messages = found at bound none' later first ⊢
  rcases Nat.lt_trichotomy found question with before | same | behind
  · rcases Nat.lt_or_eq_of_le bounded with inside | full
    · have here := List.getElem?_eq_getElem inside
      have asked := asks _ here
      rw [later question _ before here] at asked
      contradiction
    · have inside : found < messages.length := by omega
      have here := List.getElem?_eq_getElem inside
      have asked := first _ here
      rw [absent full _ (List.mem_of_getElem? here)] at asked
      contradiction
  · exact same
  · rcases Nat.lt_or_eq_of_le bound with inside | full
    · have here := List.getElem?_eq_getElem inside
      have asked := first _ here
      rw [after found _ behind here] at asked
      contradiction
    · have inside : question < messages.length := by omega
      have here := List.getElem?_eq_getElem inside
      have asked := asks _ here
      rw [none' full _ (List.mem_of_getElem? here)] at asked
      contradiction

theorem lastQuestionIndex_shed (messages : List ChatMessage) (dropped : Nat)
    (bounded : dropped = 0 ∨ dropped + 1 ≤ lastQuestionIndex messages) :
    lastQuestionIndex (messages.take 1 ++ messages.drop (dropped + 1)) =
      lastQuestionIndex messages - dropped := by
  rcases bounded with rfl | history
  · rw [Nat.zero_add, List.take_append_drop, Nat.sub_zero]
  · obtain ⟨bound, absent, after⟩ := lastQuestionIndex_spec messages
    have asks := lastQuestionIndex_question messages
    cases messages with
    | nil => simp [lastQuestionIndex] at history
    | cons head rest =>
        obtain ⟨offset, place⟩ : ∃ offset, lastQuestionIndex (head :: rest) = dropped + offset + 1 :=
          ⟨lastQuestionIndex (head :: rest) - dropped - 1, by omega⟩
        rw [place] at bound absent after asks ⊢
        have index : dropped + offset + 1 - dropped = offset + 1 := by omega
        rw [index]
        simp only [List.length_cons] at bound absent
        apply lastQuestionIndex_eq
        · simp
          omega
        · intro message here
          rw [shed_getElem?] at here
          exact asks message here
        · intro full message member
          have size : dropped + offset + 1 = rest.length + 1 := by
            simp at full
            omega
          apply absent size
          rcases List.mem_append.mp member with first | later
          · exact List.mem_of_mem_take first
          · exact List.mem_of_mem_drop later
        · intro i message behind here
          obtain ⟨further, rfl⟩ : ∃ further, i = further + 1 := ⟨i - 1, by omega⟩
          rw [shed_getElem?] at here
          exact after _ message (by omega) here

variable {count : Text → Nat} {strictSchema : StrictSchema} {tools : List ToolSpec}

/-- A message of the live tail keeps its place in the tail, with a digested content at most. -/
theorem fitTranscript_tail (config : ContextConfig) (resolver : Text → Option Int)
    (cited : CitedSnippets) (model : Text) (messages fitted : List ChatMessage)
    (fits : fitTranscript count strictSchema config resolver cited model messages tools =
      .ok fitted) (k : Nat) (message : ChatMessage)
    (here : messages[lastQuestionIndex messages + k]? = some message) :
    ∃ later, fitted[lastQuestionIndex fitted + k]? = some later ∧
      Digests config.compactionDigestChars cited message later := by
  obtain ⟨ended, loops, rfl, -⟩ := fitTranscript_loops config resolver cited model _ fitted fits
  obtain ⟨compacted, dropped, early, bounded, late, -⟩ :=
    fitLoops_retells config (resolver model) cited _ ended loops
  obtain ⟨middle, place, digested, -⟩ := early.each _ message here
  rw [← early.question] at bounded place late
  rw [← shed_place compacted dropped _ k bounded] at place
  obtain ⟨later, there, redigested, -⟩ := late.each _ middle place
  refine ⟨later, ?_, digested.trans redigested⟩
  rw [late.question, lastQuestionIndex_shed compacted dropped bounded]
  exact there

/-- One call of the agentic loop appends messages to the transcript and refits it. -/
structure FitCall where
  appended : List ChatMessage
  count : Text → Nat
  strictSchema : StrictSchema
  config : ContextConfig
  resolver : Text → Option Int
  cited : CitedSnippets
  model : Text
  tools : List ToolSpec

def FitCall.run (call : FitCall) (messages : List ChatMessage) :
    Except Raised (List ChatMessage) :=
  fitTranscript call.count call.strictSchema call.config call.resolver call.cited call.model
    (messages ++ call.appended) call.tools

/-- Successive calls refit what the earlier ones returned. -/
def refits : List FitCall → List ChatMessage → Except Raised (List ChatMessage)
  | [], messages => .ok messages
  | call :: later, messages => do
      let fitted ← call.run messages
      refits later fitted

/-- Every snippet that the earlier map lists is listed by the later one. -/
def Grows (early late : CitedSnippets) : Prop :=
  ∀ callId snippet, snippet ∈ snippetsOf early (some callId) → snippet ∈ snippetsOf late (some callId)

/-- The loop appends no question, and its cited snippets only grow. -/
structure LiveCalls (calls : List FitCall) : Prop where
  unasked : ∀ call ∈ calls, ∀ message ∈ call.appended, message.isQuestion = false
  growing : calls.Pairwise fun early late => Grows early.cited late.cited

/-- The tool result at a place of the live tail contains the snippet. -/
def HoldsEvidence (messages : List ChatMessage) (k : Nat) (callId snippet : Text) : Prop :=
  ∃ message, messages[lastQuestionIndex messages + k]? = some message ∧ message.role = .tool ∧
    message.toolCallId = some callId ∧ snippet <:+: message.content

theorem lastQuestionIndex_append (messages appended : List ChatMessage)
    (asked : lastQuestionIndex messages < messages.length)
    (unasked : ∀ message ∈ appended, message.isQuestion = false) :
    lastQuestionIndex (messages ++ appended) = lastQuestionIndex messages := by
  obtain ⟨-, -, after⟩ := lastQuestionIndex_spec messages
  have asks := lastQuestionIndex_question messages
  apply lastQuestionIndex_eq
  · rw [List.length_append]
    omega
  · intro message here
    rw [List.getElem?_append_left asked] at here
    exact asks message here
  · intro full
    rw [List.length_append] at full
    omega
  · intro i message behind here
    rcases Nat.lt_or_ge i messages.length with inside | outside
    · rw [List.getElem?_append_left inside] at here
      exact after i message behind here
    · rw [List.getElem?_append_right outside] at here
      exact unasked message (List.mem_of_getElem? here)

variable {snippet callId : Text} {messages : List ChatMessage} {k : Nat}

theorem HoldsEvidence.append (holds : HoldsEvidence messages k callId snippet)
    (appended : List ChatMessage) (unasked : ∀ message ∈ appended, message.isQuestion = false) :
    HoldsEvidence (messages ++ appended) k callId snippet := by
  obtain ⟨message, here, rest⟩ := holds
  have inside := (List.getElem?_eq_some_iff.mp here).1
  refine ⟨message, ?_, rest⟩
  rw [lastQuestionIndex_append messages appended (by omega) unasked,
    List.getElem?_append_left inside]
  exact here

/-- One refit keeps a listed snippet in its tool result. -/
theorem HoldsEvidence.fit {fitted : List ChatMessage}
    (holds : HoldsEvidence messages k callId snippet) (config : ContextConfig)
    (resolver : Text → Option Int) (cited : CitedSnippets) (model : Text)
    (listed : snippet ∈ snippetsOf cited (some callId)) (nonempty : snippet ≠ [])
    (fits : fitTranscript count strictSchema config resolver cited model messages tools =
      .ok fitted) : HoldsEvidence fitted k callId snippet := by
  obtain ⟨message, here, tool, call, inside⟩ := holds
  obtain ⟨later, there, digested⟩ :=
    fitTranscript_tail config resolver cited model messages fitted fits k message here
  have kept := digested.keeps snippet (by rw [call]; exact listed) nonempty inside
  obtain ⟨⟨content, rfl⟩, -⟩ := digested.fields
  exact ⟨_, there, tool, call, kept⟩

theorem FitState.digest_elsewhere (digestChars : Int) (cited : CitedSnippets)
    (state after : FitState) (i j : Nat) (other : i ≠ j)
    (digested : state.digest count digestChars cited i = .ok after) :
    after.working[j]? = state.working[j]? := by
  unfold FitState.digest at digested
  split at digested
  · obtain ⟨newCost, -, decided⟩ := bind_eq_ok digested
    split at decided
    · obtain rfl := Except.ok.inj decided
      rfl
    · obtain rfl := Except.ok.inj decided
      exact List.getElem?_set_ne other
  · obtain rfl := Except.ok.inj digested
    rfl

/-- The proactive pass leaves the newest tool group as it is. -/
theorem compactProactively_newest (config : ContextConfig) (cited : CitedSnippets)
    (state after : FitState) (compacted : compactProactively count config cited state = .ok after)
    (j : Nat) (newest : lastToolGroupStart state.working (lastQuestionIndex state.working) ≤ j) :
    after.working[j]? = state.working[j]? := by
  unfold compactProactively at compacted
  split at compacted
  · unfold compactSupersededToolResults at compacted
    refine foldlM_keeps _ (fun current => current.working[j]? = state.working[j]?) _ ?_ state after
      rfl compacted
    intro current i next member held step
    rw [List.mem_range'_1] at member
    split at step
    · rw [← held]
      exact current.digest_elsewhere config.compactionDigestChars cited next i j (by omega) step
    · obtain rfl := Except.ok.inj step
      exact held
  · obtain rfl := Except.ok.inj compacted
    rfl

/-- A snippet that a call lists for a tool result of its live tail stays in that result in every
transcript returned from then on, and the proactive pass leaves the newest tool group as it is. -/
theorem refits_keep_evidence :
    (∀ (first : FitCall) (later : List FitCall) (messages fitted : List ChatMessage) (k : Nat)
      (callId snippet : Text), LiveCalls (first :: later) →
      refits (first :: later) messages = .ok fitted → snippet ≠ [] →
      snippet ∈ snippetsOf first.cited (some callId) →
      HoldsEvidence (messages ++ first.appended) k callId snippet →
        HoldsEvidence fitted k callId snippet) ∧
    ∀ (count : Text → Nat) (config : ContextConfig) (cited : CitedSnippets)
      (state after : FitState) (j : Nat),
      compactProactively count config cited state = .ok after →
      lastToolGroupStart state.working (lastQuestionIndex state.working) ≤ j →
        after.working[j]? = state.working[j]? := by
  constructor
  · intro first later messages fitted k callId snippet live runs nonempty listed holds
    obtain ⟨middle, fits, rest⟩ := bind_eq_ok runs
    have kept := holds.fit first.config first.resolver first.cited first.model listed nonempty fits
    have grows (call : FitCall) (member : call ∈ later) :
        snippet ∈ snippetsOf call.cited (some callId) :=
      (List.pairwise_cons.mp live.growing).1 call member callId snippet listed
    have unasked (call : FitCall) (member : call ∈ later) :=
      live.unasked call (List.mem_cons_of_mem first member)
    clear holds fits runs live listed
    induction later generalizing middle with
    | nil => exact Except.ok.inj rest ▸ kept
    | cons call later ih =>
        obtain ⟨next, fits, last⟩ := bind_eq_ok rest
        apply ih next last
        · exact (kept.append call.appended (unasked call List.mem_cons_self)).fit call.config
            call.resolver call.cited call.model (grows call List.mem_cons_self) nonempty fits
        · exact fun other member => grows other (List.mem_cons_of_mem call member)
        · exact fun other member => unasked other (List.mem_cons_of_mem call member)
  · intro count config cited state after j compacted newest
    exact compactProactively_newest config cited state after compacted j newest

def factResult : ChatMessage where
  role := .tool
  content := List.replicate 400 'a' ++ "fact".toList
  toolCallId := some "c1".toList

/-- The only tool result of this transcript ends in a fact. -/
def evidenceTranscript : List ChatMessage :=
  [{ role := .system, content := "be brief".toList },
    { role := .user, content := "the question".toList },
    { role := .assistant, content := [], toolCalls := [⟨"c1".toList, "search".toList, []⟩] },
    factResult]

/-- This call counts characters, and its window is too small for the whole tool result. -/
def narrowCall (cited : CitedSnippets) : FitCall where
  appended := []
  count := List.length
  strictSchema := some
  config := { outputHeadroomTokens := 0, compactionDigestChars := 8 }
  resolver := fun _ => some 1600
  cited := cited
  model := "m".toList
  tools := []

def citedFact : CitedSnippets := [("c1".toList, ["fact".toList])]

theorem narrowCalls_live (early late : CitedSnippets) (grows : Grows early late) :
    LiveCalls [narrowCall early, narrowCall late] := by
  refine ⟨?_, by simpa [narrowCall] using grows⟩
  intro call member message inside
  rcases List.mem_pair.mp member with rfl | rfl
  · simp [narrowCall] at inside
  · simp [narrowCall] at inside

theorem evidenceTranscript_holds :
    HoldsEvidence (evidenceTranscript ++ []) 2 "c1".toList "fact".toList := by
  have asks : lastQuestionIndex (evidenceTranscript ++ []) = 1 := by decide
  refine ⟨factResult, ?_, rfl, rfl, (List.suffix_append _ _).isInfix⟩
  rw [asks, List.append_nil]
  rfl

/-- The fact that the first call lists survives both calls. -/
theorem refits_keep_evidence_listed :
    ∃ fitted, refits [narrowCall citedFact, narrowCall citedFact] evidenceTranscript = .ok fitted ∧
      HoldsEvidence fitted 2 "c1".toList "fact".toList := by
  have shortened : (refits [narrowCall citedFact, narrowCall citedFact] evidenceTranscript).map
      List.length = .ok 4 := by
    decide +kernel
  obtain ⟨fitted, runs, -⟩ := (map_eq_ok_iff _ _ _).mp shortened
  have live := narrowCalls_live citedFact citedFact fun _ _ listed => listed
  exact ⟨fitted, runs, refits_keep_evidence.1 _ _ _ fitted 2 "c1".toList "fact".toList live runs
    (by decide) List.mem_cons_self evidenceTranscript_holds⟩

/-- The first call digests the uncited result, so the fact that the second call lists is gone. -/
theorem refits_lose_evidence :
    ¬∀ (first last : FitCall) (messages fitted : List ChatMessage) (k : Nat)
      (callId snippet : Text), LiveCalls [first, last] →
      refits [first, last] messages = .ok fitted → snippet ≠ [] →
      snippet ∈ snippetsOf last.cited (some callId) →
      HoldsEvidence (messages ++ first.appended) k callId snippet →
        HoldsEvidence fitted k callId snippet := by
  intro keeps
  have digested : (refits [narrowCall [], narrowCall citedFact] evidenceTranscript).map
      (fun fitted => fitted.any fun message => contains message.content "fact".toList) =
        .ok false := by
    decide +kernel
  obtain ⟨fitted, runs, lost⟩ := (map_eq_ok_iff _ _ _).mp digested
  have live := narrowCalls_live [] citedFact fun _ _ listed => (List.not_mem_nil listed).elim
  obtain ⟨message, here, -, -, inside⟩ := keeps (narrowCall []) (narrowCall citedFact)
    evidenceTranscript fitted 2 "c1".toList "fact".toList live runs (by decide) List.mem_cons_self
    evidenceTranscript_holds
  have found : (fitted.any fun message => contains message.content "fact".toList) = true :=
    List.any_eq_true.mpr ⟨message, List.mem_of_getElem? here, (contains_iff _ _).mpr inside⟩
  exact Bool.false_ne_true (lost.symm.trans found)

end LumenCopilot.Context
