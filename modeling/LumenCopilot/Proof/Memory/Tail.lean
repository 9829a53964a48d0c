import LumenCopilot.Proof.Memory.Coverage

namespace LumenCopilot.Memory

open Library Python

variable {messages : List Message} {message : Message}

/-- These are the committed messages of a session; their identifiers are keys, and they were created
after 1970. -/
structure Conversation where
  messages : List Message
  distinct : (messages.map Message.id).Nodup
  dated : ∀ message ∈ messages, 0 < message.createdAt

/-- This is `batchToCover` with any number of messages that stay verbatim. -/
def selectBatch (keep : Nat) (messages : List Message) (after : Option Cursor) : List Message :=
  let fetchLimit := maxBatchMessages + keep
  let fetched := listForSessionAfter messages (after.getD sentinel) (some fetchLimit)
  let uncovered := uncovered fetched after
  if fetchLimit ≤ fetched.length then uncovered.take maxBatchMessages
  else
    let toCover := if keep < uncovered.length then uncovered.take (uncovered.length - keep) else []
    toCover.take maxBatchMessages

/-- The message comes after the cursor. -/
def Message.follows (after : Option Cursor) (message : Message) : Bool :=
  after.all (· < message.cursor)

/-- The fetch lists the message though it does not come after the cursor. -/
def Message.tolerated (after : Option Cursor) (message : Message) : Bool :=
  message.listed (after.getD sentinel) && !message.follows after

/-- These are the messages after the cursor in order. -/
def ahead (messages : List Message) (after : Option Cursor) : List Message :=
  inOrder (messages.filter (Message.follows after))

/-- These are the messages that the fetch lists beside them in order. -/
def behind (messages : List Message) (after : Option Cursor) : List Message :=
  inOrder (messages.filter (Message.tolerated after))

/-- These are the newest messages. -/
def newest (keep : Nat) (messages : List Message) : List Message :=
  (inOrder messages).drop (messages.length - keep)

theorem inOrder_perm (messages : List Message) : (inOrder messages).Perm messages :=
  List.perm_insertionSort _ _

theorem mem_inOrder : message ∈ inOrder messages ↔ message ∈ messages :=
  (inOrder_perm messages).mem_iff

theorem length_inOrder (messages : List Message) : (inOrder messages).length = messages.length :=
  (inOrder_perm messages).length_eq

/-- An order of the messages is the one that the query returns. -/
theorem inOrder_eq {ordered : List Message} (perm : ordered.Perm messages)
    (sorted : ordered.Pairwise fun first second => first.cursor ≤ second.cursor) :
    inOrder messages = ordered := by
  apply ((inOrder_perm messages).trans perm.symm).eq_of_pairwise _ (inOrder_ordered messages) sorted
  intro first second _ _ below above
  exact Message.cursor_injective (le_antisymm below above)

/-- When one test holds only of earlier messages, the order of the two parts is one after the
other. -/
theorem inOrder_split {first second : Message → Bool}
    (apart : ∀ message ∈ messages, ¬ (first message = true ∧ second message = true))
    (before : ∀ message ∈ messages, ∀ other ∈ messages, first message = true →
      second other = true → message.cursor ≤ other.cursor) :
    inOrder (messages.filter fun message => first message || second message) =
      inOrder (messages.filter first) ++ inOrder (messages.filter second) := by
  have early : (messages.filter fun message => first message || second message).filter first =
      messages.filter first := by
    rw [List.filter_filter]
    apply List.filter_congr
    intro message _
    cases first message <;> simp
  have late : (messages.filter fun message => first message || second message).filter
      (fun message => !first message) = messages.filter second := by
    rw [List.filter_filter]
    apply List.filter_congr
    intro message member
    have once := apart message member
    cases one : first message <;> cases two : second message <;> simp_all
  apply inOrder_eq
  · apply ((inOrder_perm _).append (inOrder_perm _)).trans
    rw [← early, ← late]
    exact List.filter_append_perm _ _
  · apply List.pairwise_append.mpr
    refine ⟨inOrder_ordered _, inOrder_ordered _, ?_⟩
    intro message member other held
    obtain ⟨known, holds⟩ := List.mem_filter.mp (mem_inOrder.mp member)
    obtain ⟨otherKnown, otherHolds⟩ := List.mem_filter.mp (mem_inOrder.mp held)
    exact before message known other otherKnown holds otherHolds

theorem Message.listed_of_follows {after : Option Cursor} (dated : 0 < message.createdAt)
    (follows : message.follows after = true) : message.listed (after.getD sentinel) = true := by
  cases after with
  | none => exact Message.listed_sentinel dated
  | some cursor => exact Message.listed_of_lt (by simpa [Message.follows] using follows)

/-- The fetch lists the tolerated messages before those that come after the cursor. -/
theorem listForSessionAfter_eq (conversation : Conversation) (after : Option Cursor) :
    listForSessionAfter conversation.messages (after.getD sentinel) none =
      behind conversation.messages after ++ ahead conversation.messages after := by
  unfold behind ahead
  rw [← inOrder_split]
  · show inOrder _ = inOrder _
    congr 1
    apply List.filter_congr
    intro message member
    have listed := @Message.listed_of_follows message after (conversation.dated message member)
    unfold Message.tolerated
    cases follows : message.follows after with
    | true => simp [listed follows]
    | false => simp
  · intro message _ holds
    simp [Message.tolerated, holds.2] at holds
  · intro message _ other _ tolerated follows
    cases after with
    | none => simp [Message.tolerated, Message.follows] at tolerated
    | some cursor =>
        simp only [Message.tolerated, Message.follows, Option.all_some, Bool.and_eq_true,
          Bool.not_eq_true', decide_eq_false_iff_not, decide_eq_true_eq] at tolerated follows
        exact (not_lt.mp tolerated.2).trans follows.le

/-- The filter beyond the cursor drops the tolerated messages and no other. -/
theorem uncovered_append {after : Option Cursor} {first second : List Message}
    (early : ∀ message ∈ first, message.follows after = false)
    (late : ∀ message ∈ second, message.follows after = true) :
    uncovered (first ++ second) after = second := by
  cases after with
  | none =>
      cases first with
      | nil => rfl
      | cons message rest => simpa [Message.follows] using early message List.mem_cons_self
  | some cursor =>
      simp only [uncovered]
      rw [List.filter_append, List.filter_eq_nil_iff.mpr, List.nil_append, List.filter_eq_self.mpr]
      · intro message member
        simpa [Message.follows] using late message member
      · intro message member
        simpa [Message.follows] using early message member

/-- This is the number of messages that a pass folds, from the numbers of the tolerated and of the
later messages. -/
def batchSize (keep tolerated later : Nat) : Nat :=
  if maxBatchMessages + keep ≤ tolerated + later then
    min maxBatchMessages (maxBatchMessages + keep - tolerated)
  else min maxBatchMessages (later - keep)

/-- The batch is the part of that size of the messages after the cursor, from their start. -/
theorem selectBatch_eq (keep : Nat) (conversation : Conversation) (after : Option Cursor) :
    selectBatch keep conversation.messages after =
      (ahead conversation.messages after).take (batchSize keep
        (behind conversation.messages after).length (ahead conversation.messages after).length) := by
  have fetched : listForSessionAfter conversation.messages (after.getD sentinel)
      (some (maxBatchMessages + keep)) =
        (behind conversation.messages after ++ ahead conversation.messages after).take
          (maxBatchMessages + keep) := by
    rw [← listForSessionAfter_eq]
    rfl
  have early : ∀ message ∈ behind conversation.messages after, message.follows after = false := by
    intro message member
    have tolerated := (List.mem_filter.mp (mem_inOrder.mp member)).2
    simp only [Message.tolerated, Bool.and_eq_true, Bool.not_eq_true'] at tolerated
    exact tolerated.2
  have late : ∀ message ∈ ahead conversation.messages after, message.follows after = true :=
    fun message member => (List.mem_filter.mp (mem_inOrder.mp member)).2
  unfold selectBatch
  dsimp only
  rw [fetched]
  generalize behind conversation.messages after = first at *
  generalize ahead conversation.messages after = second at *
  have kept : uncovered ((first ++ second).take (maxBatchMessages + keep)) after =
      second.take (maxBatchMessages + keep - first.length) := by
    rw [List.take_append]
    apply uncovered_append
    · exact fun message member => early message (List.mem_of_mem_take member)
    · exact fun message member => late message (List.mem_of_mem_take member)
  rw [kept]
  unfold batchSize
  by_cases full : maxBatchMessages + keep ≤ first.length + second.length
  · have long : maxBatchMessages + keep ≤ ((first ++ second).take (maxBatchMessages + keep)).length := by
      rw [List.length_take, List.length_append]
      omega
    rw [if_pos long, if_pos full, List.take_take]
  · have short : ¬ maxBatchMessages + keep ≤
        ((first ++ second).take (maxBatchMessages + keep)).length := by
      rw [List.length_take, List.length_append]
      omega
    have whole : second.take (maxBatchMessages + keep - first.length) = second :=
      List.take_of_length_le (by omega)
    rw [if_neg short, if_neg full, whole]
    by_cases more : keep < second.length
    · rw [if_pos more, List.take_take]
    · rw [if_neg more]
      have none : second.length - keep = 0 := by omega
      simp [none]

/-- The messages after the cursor are the last ones of the session. -/
theorem inOrder_ahead (messages : List Message) (after : Option Cursor) :
    inOrder messages =
      inOrder (messages.filter fun message => !message.follows after) ++ ahead messages after := by
  unfold ahead
  rw [← inOrder_split]
  · congr 1
    symm
    apply List.filter_eq_self.mpr
    intro message _
    cases message.follows after <;> rfl
  · intro message _ holds
    simp [holds.2] at holds
  · intro message _ other _ covered follows
    cases after with
    | none => simp [Message.follows] at covered
    | some cursor =>
        simp only [Message.follows, Option.all_some, Bool.not_eq_true', decide_eq_false_iff_not,
          decide_eq_true_eq] at covered follows
        exact (not_lt.mp covered).trans follows.le

/-- The newest messages among those after the cursor are the last ones of them. -/
theorem mem_newest_iff (keep : Nat) (conversation : Conversation) (after : Option Cursor)
    (member : message ∈ ahead conversation.messages after) :
    message ∈ newest keep conversation.messages ↔
      message ∈ (ahead conversation.messages after).drop
        ((ahead conversation.messages after).length - keep) := by
  have split := inOrder_ahead conversation.messages after
  have total := congrArg List.length split
  rw [length_inOrder, List.length_append] at total
  have nodup : (inOrder conversation.messages).Nodup :=
    (inOrder_perm _).nodup_iff.mpr (List.Nodup.of_map _ conversation.distinct)
  rw [split] at nodup
  unfold newest
  rw [split, total, List.drop_append, List.mem_append]
  generalize inOrder (conversation.messages.filter fun message => !message.follows after) = first at *
  generalize ahead conversation.messages after = second at *
  have apart : message ∉ first := fun held => List.disjoint_of_nodup_append nodup held member
  constructor
  · intro newest
    rcases newest with old | new
    · exact absurd (List.mem_of_mem_drop old) apart
    · have same : first.length + second.length - keep - first.length = second.length - keep := by omega
      rwa [same] at new
  · intro last
    have same : first.length + second.length - keep - first.length = second.length - keep := by omega
    exact Or.inr (same ▸ last)

/-- Two parts of a list without repetition share no item exactly when one ends before the other. -/
theorem take_disjoint_drop_iff {items : List Message} (nodup : items.Nodup) {count start : Nat}
    (within : count ≤ items.length) :
    (∀ message ∈ items.take count, message ∉ items.drop start) ↔
      count ≤ start ∨ items.length ≤ start := by
  constructor
  · intro disjoint
    by_contra overlaps
    simp only [not_or, Nat.not_le] at overlaps
    have taken : items[start] ∈ items.take count := by
      rw [List.mem_take_iff_getElem]
      exact ⟨start, by omega, rfl⟩
    have dropped : items[start] ∈ items.drop start := by
      rw [List.mem_drop_iff_getElem]
      exact ⟨0, by omega, by simp⟩
    exact disjoint _ taken dropped
  · intro apart message taken dropped
    obtain ⟨i, early, rfl⟩ := List.mem_take_iff_getElem.mp taken
    obtain ⟨j, late, same⟩ := List.mem_drop_iff_getElem.mp dropped
    have places := (List.Nodup.getElem_inj_iff nodup).mp same
    omega

/-- A pass folds messages that follow the cursor one after the other, at most forty of them, and
none of the newest ones that stay verbatim. -/
structure KeepsTail (keep : Nat) (messages : List Message) (after : Option Cursor) : Prop where
  consecutive : selectBatch keep messages after <+: ahead messages after
  bounded : (selectBatch keep messages after).length ≤ maxBatchMessages
  verbatim : ∀ message ∈ selectBatch keep messages after, message ∉ newest keep messages

/-- The tail stays verbatim exactly when a full fetch lists so few tolerated messages that the batch
ends before it. -/
theorem selectBatch_keepsTail (keep : Nat) (conversation : Conversation) (after : Option Cursor) :
    KeepsTail keep conversation.messages after ↔
      (maxBatchMessages + keep ≤ (behind conversation.messages after).length +
          (ahead conversation.messages after).length →
        min maxBatchMessages (maxBatchMessages + keep -
            (behind conversation.messages after).length) ≤
          (ahead conversation.messages after).length - keep) := by
  have batch := selectBatch_eq keep conversation after
  have nodup : (ahead conversation.messages after).Nodup :=
    (inOrder_perm _).nodup_iff.mpr ((List.Nodup.of_map _ conversation.distinct).filter _)
  have tails : (∀ message ∈ selectBatch keep conversation.messages after,
      message ∉ newest keep conversation.messages) ↔
        ∀ message ∈ selectBatch keep conversation.messages after,
          message ∉ (ahead conversation.messages after).drop
            ((ahead conversation.messages after).length - keep) := by
    apply forall₂_congr
    intro message member
    rw [batch] at member
    exact not_congr (mem_newest_iff keep conversation after (List.mem_of_mem_take member))
  have prefixed : selectBatch keep conversation.messages after <+:
      ahead conversation.messages after := batch ▸ List.take_prefix _ _
  have size : (selectBatch keep conversation.messages after).length ≤ maxBatchMessages := by
    rw [batch, List.length_take]
    unfold batchSize
    split <;> omega
  have keeps : KeepsTail keep conversation.messages after ↔
      ∀ message ∈ selectBatch keep conversation.messages after,
        message ∉ newest keep conversation.messages :=
    ⟨KeepsTail.verbatim, fun verbatim => ⟨prefixed, size, verbatim⟩⟩
  rw [keeps, tails, batch]
  generalize ahead conversation.messages after = later at *
  generalize behind conversation.messages after = tolerated at *
  have within : batchSize keep tolerated.length later.length ≤ later.length := by
    unfold batchSize
    split <;> omega
  rw [take_disjoint_drop_iff nodup within]
  unfold batchSize at within ⊢
  split <;> omega

/-- One message of the second before the cursor is tolerated, and forty-three come after it. -/
def crowded : Conversation where
  messages := ⟨9500000, 5⟩ :: ⟨10000000, 1⟩ ::
    (List.range 43).map fun (i : Nat) => ⟨11000000 + i, 100 + i⟩
  distinct := by decide
  dated := by decide

/-- The last message of the batch is one of the four newest. -/
theorem selectBatch_reaches_tail :
    ¬ KeepsTail 4 crowded.messages (some (toLex (10000000, 1))) := by
  intro keeps
  exact keeps.verbatim ⟨11000039, 139⟩ (by decide) (by decide)

end LumenCopilot.Memory
