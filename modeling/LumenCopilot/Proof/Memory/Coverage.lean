import LumenCopilot.Construction.Memory.Coverage
import LumenCopilot.Proof.Memory.Summary

namespace LumenCopilot.Memory

open Library Python

variable {settings : SummarySettings} {parses : Text → Bool} {state after : SessionState}
  {messages : List Message} {message boundary : Message}

theorem Message.cursor_injective : Function.Injective Message.cursor := by
  intro first second same
  obtain ⟨createdAt, id⟩ := first
  cases same
  rfl

theorem inOrder_ordered (messages : List Message) :
    (inOrder messages).Pairwise fun first second => first.cursor ≤ second.cursor := by
  have total : Std.Total fun first second : Message => first.cursor ≤ second.cursor :=
    ⟨fun first second => le_total _ _⟩
  have trans : IsTrans Message fun first second : Message => first.cursor ≤ second.cursor :=
    ⟨fun first second third below above => le_trans below above⟩
  exact List.pairwise_insertionSort _ _

/-- A part of an ordered list from its start holds everything up to each of its messages. -/
theorem mem_take_of_le {ordered : List Message} {count : Nat}
    (sorted : ordered.Pairwise fun first second => first.cursor ≤ second.cursor)
    (reached : boundary ∈ ordered.take count) (member : message ∈ ordered)
    (below : message.cursor ≤ boundary.cursor) : message ∈ ordered.take count := by
  rw [← List.take_append_drop count ordered] at sorted member
  rcases List.mem_append.mp member with early | late
  · exact early
  · have behind := (List.pairwise_append.mp sorted).2.2 boundary reached message late
    rwa [Message.cursor_injective (le_antisymm below behind)]

/-- Every message beyond the cursor is listed. -/
theorem Message.listed_of_lt {cursor : Cursor} (beyond : cursor < message.cursor) :
    message.listed cursor = true := by
  have cases : (ofLex cursor).1 < message.createdAt ∨
      (ofLex cursor).1 = message.createdAt ∧ (ofLex cursor).2 < message.id := Prod.Lex.lt_iff.mp beyond
  simp only [Message.listed, Bool.or_eq_true, Bool.and_eq_true, decide_eq_true_eq]
  unfold oneSecond
  omega

theorem Message.listed_sentinel (positive : 0 < message.createdAt) :
    message.listed sentinel = true := by
  simp [Message.listed, sentinel, positive]

theorem mem_listForSessionAfter {cursor : Cursor} :
    message ∈ listForSessionAfter messages cursor none ↔
      message ∈ messages ∧ message.listed cursor = true := by
  simp only [listForSessionAfter, inOrder, List.mem_insertionSort, List.mem_filter]

/-- The batch is a part of the uncovered messages from their start. -/
theorem batchToCover_eq (settings : SummarySettings) (messages : List Message) (from_ : Option Cursor) :
    ∃ count, batchToCover settings messages from_ =
      (uncovered ((inOrder (messages.filter (Message.listed (from_.getD sentinel)))).take
        (maxBatchMessages + settings.chatSummaryKeepMessages)) from_).take count := by
  unfold batchToCover listForSessionAfter
  dsimp only
  split
  · exact ⟨_, rfl⟩
  · split
    · exact ⟨_, List.take_take⟩
    · exact ⟨0, rfl⟩

theorem mem_uncovered {fetched : List Message} {from_ : Option Cursor} :
    message ∈ uncovered fetched from_ ↔
      message ∈ fetched ∧ ∀ cursor, from_ = some cursor → cursor < message.cursor := by
  cases from_ with
  | none => simp [uncovered]
  | some cursor => simp [uncovered, List.mem_filter]

/-- Whatever lies beyond the cursor and up to a message of the batch is in the batch. -/
theorem batchToCover_covers {from_ : Option Cursor} (positive : ∀ other ∈ messages, 0 < other.createdAt)
    (reached : boundary ∈ batchToCover settings messages from_) (member : message ∈ messages)
    (beyond : ∀ cursor, from_ = some cursor → cursor < message.cursor)
    (below : message.cursor ≤ boundary.cursor) : message ∈ batchToCover settings messages from_ := by
  obtain ⟨count, batch⟩ := batchToCover_eq settings messages from_
  rw [batch] at reached ⊢
  have ordered := inOrder_ordered (messages.filter (Message.listed (from_.getD sentinel)))
  have fetched := ordered.sublist (List.take_sublist
    (maxBatchMessages + settings.chatSummaryKeepMessages) _)
  have uncoveredOrdered : (uncovered ((inOrder (messages.filter (Message.listed
      (from_.getD sentinel)))).take (maxBatchMessages + settings.chatSummaryKeepMessages))
        from_).Pairwise fun first second => first.cursor ≤ second.cursor := by
    cases from_ with
    | none => exact fetched
    | some cursor => exact fetched.filter _
  have listed : message.listed (from_.getD sentinel) = true := by
    cases from_ with
    | none => exact Message.listed_sentinel (positive message member)
    | some cursor => exact Message.listed_of_lt (beyond cursor rfl)
  have known : message ∈ inOrder (messages.filter (Message.listed (from_.getD sentinel))) := by
    rw [inOrder, List.mem_insertionSort, List.mem_filter]
    exact ⟨member, listed⟩
  have boundaryFetched := (mem_uncovered.mp (List.mem_of_mem_take reached)).1
  have messageFetched := mem_take_of_le ordered boundaryFetched known below
  exact mem_take_of_le uncoveredOrdered reached (mem_uncovered.mpr ⟨messageFetched, beyond⟩) below

/-- What the pass holds covers every message up to its cursor or its boundary. -/
def PassPhase.Covers (messages : List Message) : PassPhase → Prop
  | .loaded view => ∀ cursor, view.after = some cursor →
      ∀ message ∈ messages, message.cursor ≤ cursor → message ∈ view.folded
  | .fetched view toCover => ∀ boundary, toCover.getLast? = some boundary →
      ∀ message ∈ messages, message.cursor ≤ boundary.cursor → message ∈ view.folded ++ toCover
  | _ => True

/-- The stored cursor and the passes in flight cover every message that they pass. -/
structure SessionState.Covered (state : SessionState) : Prop where
  positive : ∀ message ∈ state.messages, 0 < message.createdAt
  stored : ∀ cursor, state.row.bind SummaryRow.cursor = some cursor →
    ∀ message ∈ state.messages, message.cursor ≤ cursor → message ∈ state.folded
  held : ∀ phase ∈ state.passes, phase.Covers state.messages

/-- A covered session remembers every message. -/
theorem SessionState.Covered.remembers (covered : state.Covered) (member : message ∈ state.messages) :
    state.Remembers message := by
  unfold SessionState.Remembers SessionState.listed
  cases at_ : state.row.bind SummaryRow.cursor with
  | none => exact Or.inl member
  | some cursor =>
      rcases lt_or_ge cursor message.cursor with beyond | below
      · exact Or.inl (mem_listForSessionAfter.mpr ⟨member, Message.listed_of_lt beyond⟩)
      · exact Or.inr (covered.stored cursor at_ message member below)

theorem timely_commit_iff : timely state (.commit message) = true ↔
    (∀ cursor, state.row.bind SummaryRow.cursor = some cursor → cursor < message.cursor) ∧
      ∀ phase ∈ state.passes, phase.below message = true := by
  unfold timely
  rw [Bool.and_eq_true, List.all_eq_true, Option.all_eq_true]
  simp only [decide_eq_true_eq]

/-- A message that the pass is below of stays uncovered. -/
theorem PassPhase.Covers.commit {phase : PassPhase} (covers : phase.Covers messages)
    (below : phase.below message = true) : phase.Covers (messages ++ [message]) := by
  have beyond : ∀ cursor other, other ∈ messages ++ [message] → cursor < message.cursor →
      other.cursor ≤ cursor → other ∈ messages := by
    intro cursor other member ahead reached
    rcases List.mem_append.mp member with old | new
    · exact old
    · obtain rfl := List.mem_singleton.mp new
      exact absurd reached (not_le.mpr ahead)
  cases phase with
  | loaded view =>
      intro cursor holds other member reached
      have ahead : cursor < message.cursor := by
        simpa [PassPhase.below, holds] using below
      exact covers cursor holds other (beyond cursor other member ahead reached) reached
  | fetched view toCover =>
      intro boundary holds other member reached
      have ahead : boundary.cursor < message.cursor := by
        simpa [PassPhase.below, holds] using below
      exact covers boundary holds other (beyond _ other member ahead reached) reached
  | _ => trivial

/-- A message that commits in time stays uncovered. -/
theorem SessionState.Covered.commit (covered : state.Covered) (positive : 0 < message.createdAt)
    (timely : timely state (.commit message) = true) :
    SessionState.Covered { state with messages := state.messages ++ [message] } := by
  obtain ⟨beyond, below⟩ := timely_commit_iff.mp timely
  refine ⟨fun other member => ?_, fun cursor holds other member reached => ?_, fun phase member => ?_⟩
  · rcases List.mem_append.mp member with old | new
    · exact covered.positive other old
    · obtain rfl := List.mem_singleton.mp new
      exact positive
  · rcases List.mem_append.mp member with old | new
    · exact covered.stored cursor holds other old reached
    · obtain rfl := List.mem_singleton.mp new
      exact absurd reached (not_le.mpr (beyond cursor holds))
  · exact (covered.held phase member).commit (below phase member)

/-- An evidence write keeps the cursor. -/
theorem upsertEvidence_cursor (row : Option SummaryRow) (pairs : List (Nat × Nat)) :
    (upsertEvidence row pairs).cursor = row.bind SummaryRow.cursor := by
  cases row <;> rfl

/-- A pass that goes on keeps the session covered. -/
theorem SessionState.Covered.pass (covered : state.Covered) {passes : List PassPhase}
    (held : ∀ phase ∈ passes, phase ∈ state.passes ∨ phase.Covers state.messages) :
    SessionState.Covered { state with passes } := by
  refine ⟨covered.positive, covered.stored, fun phase member => ?_⟩
  rcases held phase member with old | new
  · exact covered.held phase old
  · exact new

theorem SessionState.Covered.set (covered : state.Covered) (phase : PassPhase)
    (covers : phase.Covers state.messages) (place : Nat) :
    SessionState.Covered { state with passes := state.passes.set place phase } := by
  refine covered.pass fun other member => ?_
  rcases List.mem_or_eq_of_mem_set member with old | rfl
  · exact Or.inl old
  · exact Or.inr covers

/-- The view of a pass covers what the stored cursor covers. -/
theorem SessionState.Covered.view (covered : state.Covered) :
    (PassPhase.loaded (state.view parses)).Covers state.messages := by
  unfold SessionState.view
  cases stored : state.row with
  | none => exact fun _ holds => by cases holds
  | some row =>
      by_cases readable : row.readable parses = true
      · simp only [readable, if_true]
        intro cursor holds
        exact covered.stored cursor (by rw [stored]; exact holds)
      · dsimp only
        rw [if_neg readable]
        exact fun _ holds => by cases holds

/-- A fetched batch covers every message up to its boundary. -/
theorem SessionState.Covered.fetched (covered : state.Covered) {view : SummaryView}
    (loaded : PassPhase.loaded view ∈ state.passes) :
    (PassPhase.fetched view (batchToCover settings state.messages view.after)).Covers
      state.messages := by
  intro boundary last message member below
  by_cases early : ∃ cursor, view.after = some cursor ∧ message.cursor ≤ cursor
  · obtain ⟨cursor, holds, reached⟩ := early
    exact List.mem_append_left _ (covered.held _ loaded cursor holds message member reached)
  · have beyond : ∀ cursor, view.after = some cursor → cursor < message.cursor := by
      intro cursor holds
      exact not_le.mp fun reached => early ⟨cursor, holds, reached⟩
    have reached := List.mem_of_getLast? last
    exact List.mem_append_right _ (batchToCover_covers covered.positive reached member beyond below)

/-- The write is accepted at its cursor, or it leaves the row. -/
theorem upsertSummary_accepts (row : Option SummaryRow) (write : SummaryWrite)
    (replaceInvalidVersion : Option Nat) :
    let written := upsertSummary row write replaceInvalidVersion
    accepts write written.2 (some written.1) = true ∧ written.1.cursor = some write.cursor ∨
      accepts write written.2 (some written.1) = false ∧ row = some written.1 := by
  cases row with
  | none => exact Or.inl ⟨by simp [upsertSummary, accepts, SummaryWrite.inserted], rfl⟩
  | some row =>
      cases admits : row.admits write replaceInvalidVersion with
      | false => exact Or.inr ⟨by simp [upsertSummary, admits, accepts], by simp [upsertSummary, admits]⟩
      | true => exact Or.inl ⟨by simp [upsertSummary, admits, accepts, SummaryWrite.updated],
          by simp [upsertSummary, admits]⟩

/-- A pass that writes stores a cursor whose messages its summary has folded. -/
theorem SessionState.Covered.write (covered : state.Covered) {view : SummaryView}
    {toCover : List Message} (fetched : PassPhase.fetched view toCover ∈ state.passes)
    (last : toCover.getLast? = some boundary) (place : Nat) (summary : Text)
    (mentionedDocuments : Dict Nat Text) :
    (state.write place view toCover boundary summary mentionedDocuments).Covered := by
  unfold SessionState.write
  have writes := upsertSummary_accepts state.row
    ⟨summary, boundary.id, boundary.createdAt, some mentionedDocuments⟩ view.invalidVersion
  refine ⟨covered.positive, ?_, (covered.set (.returned _) trivial place).held⟩
  rcases writes with ⟨accepted, cursor⟩ | ⟨refused, same⟩
  · intro stored holds message member below
    dsimp only at holds accepted cursor ⊢
    rw [Option.bind_some, cursor] at holds
    obtain rfl := Option.some.inj holds
    rw [accepted, if_pos rfl]
    exact covered.held _ fetched boundary last message member below
  · intro stored holds message member below
    dsimp only at holds refused same ⊢
    rw [refused, if_neg Bool.false_ne_true]
    rw [← same] at holds
    exact covered.stored stored holds message member below

/-- Every step that commits in time keeps the session covered. -/
theorem sessionStep_covered {action : SessionAction} (covered : state.Covered)
    (timely : timely state action = true) (steps : sessionStep settings parses state action = some after) :
    after.Covered := by
  cases action with
  | commit message =>
      simp only [sessionStep, Option.ite_none_right_eq_some, Option.some.injEq] at steps
      obtain ⟨⟨positive, _⟩, rfl⟩ := steps
      exact covered.commit positive timely
  | evidence pairs =>
      obtain rfl := Option.some.inj steps
      refine ⟨covered.positive, fun cursor holds => covered.stored cursor ?_, covered.held⟩
      rw [← holds, Option.bind_some, upsertEvidence_cursor]
  | start =>
      obtain rfl := Option.some.inj steps
      refine covered.pass fun phase member => ?_
      rcases List.mem_append.mp member with old | new
      · exact Or.inl old
      · obtain rfl := List.mem_singleton.mp new
        exact Or.inr trivial
  | load place =>
      simp only [sessionStep] at steps
      split at steps
      · obtain rfl := Option.some.inj steps
        exact covered.set _ covered.view place
      · contradiction
  | fetch place =>
      simp only [sessionStep] at steps
      split at steps
      · next view loaded =>
          obtain rfl := Option.some.inj steps
          refine covered.set _ ?_ place
          split
          · trivial
          · exact covered.fetched (List.mem_of_getElem? loaded)
      · contradiction
  | refuse place =>
      simp only [sessionStep] at steps
      split at steps
      · obtain rfl := Option.some.inj steps
        exact covered.set .skipped trivial place
      · contradiction
  | write place summary mentionedDocuments =>
      simp only [sessionStep] at steps
      split at steps
      · next view toCover fetched =>
          split at steps
          · next boundary last =>
              split at steps
              · obtain rfl := Option.some.inj steps
                exact covered.write (List.mem_of_getElem? fetched) last place summary mentionedDocuments
              · contradiction
          · contradiction
      · contradiction

/-- Where every message commits beyond the stored cursor and beyond what the passes in flight hold,
the session remembers every message. -/
theorem session_remembers {actions : List SessionAction}
    (runs : Runs (sessionStep settings parses) (fun state action => timely state action = true) .empty
      actions state) : ∀ message ∈ state.messages, state.Remembers message := by
  have covered : state.Covered := by
    refine runs.invariant SessionState.Covered (fun _ _ _ covered timely steps =>
      sessionStep_covered covered timely steps) ⟨?_, ?_, ?_⟩
    · exact fun _ member => (List.not_mem_nil member).elim
    · exact fun _ holds => by cases holds
    · exact fun _ member => (List.not_mem_nil member).elim
  exact fun message member => covered.remembers member

section Example

/-- A pass folds two of six messages that committed in the order of their times. -/
def foldedSession : List SessionAction :=
  [.commit ⟨10000000, 1⟩, .commit ⟨20000000, 2⟩, .commit ⟨30000000, 3⟩, .commit ⟨40000000, 4⟩,
    .commit ⟨50000000, 5⟩, .commit ⟨60000000, 6⟩, .start, .load 0, .fetch 0, .write 0 ['s'] ∅]

theorem foldedSession_executes :
    (execute (guarded (sessionStep .defaults fun _ => true) timely) .empty foldedSession).map
      (fun state => (state.messages.length, state.listed.length, state.folded.length)) =
        some (6, 4, 2) := by
  decide

/-- Six messages and a pass over two of them are remembered. -/
theorem session_remembers_folded : ∃ state, Runs (sessionStep .defaults fun _ => true)
    (fun state action => timely state action = true) .empty foldedSession state ∧
      state.messages.length = 6 ∧ state.folded.length = 2 ∧
        ∀ message ∈ state.messages, state.Remembers message := by
  obtain ⟨state, executes, lengths⟩ := Option.map_eq_some_iff.mp foldedSession_executes
  obtain ⟨committed, rest⟩ := Prod.mk.inj lengths
  have runs := Runs.of_execute executes
  exact ⟨state, runs, committed, (Prod.mk.inj rest).2, session_remembers runs⟩

theorem lateCommit_executes :
    (execute (sessionStep .defaults fun _ => true) .empty
      (foldedSession ++ [.commit ⟨5000000, 7⟩])).map (fun state =>
        (decide (⟨5000000, 7⟩ ∈ state.messages), decide (state.Remembers ⟨5000000, 7⟩))) =
        some (true, false) := by
  decide

/-- A message of an early transaction that commits late is neither listed nor folded. -/
theorem session_forgets_late : ∃ state message, Runs (sessionStep .defaults fun _ => true)
    (fun _ _ => True) .empty (foldedSession ++ [.commit message]) state ∧
      message ∈ state.messages ∧ ¬ state.Remembers message := by
  obtain ⟨state, executes, tests⟩ := Option.map_eq_some_iff.mp lateCommit_executes
  obtain ⟨committed, forgotten⟩ := Prod.mk.inj tests
  exact ⟨state, _, Runs.of_unchecked executes, of_decide_eq_true committed,
    of_decide_eq_false forgotten⟩

end Example

end LumenCopilot.Memory
