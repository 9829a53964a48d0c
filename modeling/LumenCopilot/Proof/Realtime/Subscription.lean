import LumenCopilot.Proof.Library.Transition
import LumenCopilot.Proof.Realtime.Backplane

namespace LumenCopilot.Realtime

open Chat Library

/-- The last pushed envelope may still await its `LTRIM`. -/
def Pipeline.untrimmed : Pipeline → Nat
  | .ltrim _ => 1
  | .idle | .publish _ => 0

/-- The confirmation stands before the published payloads. -/
def SubscribePhase.confirmation : SubscribePhase → List PubsubMessage
  | .confirming => [.subscribe]
  | _ => []

theorem RedisStream.trimmed_eq (stream : List Envelope) (state : RedisStream) :
    state.trimmed stream =
      stream.length - state.unpublished.length - state.pipeline.untrimmed := by
  unfold RedisStream.trimmed
  cases state.pipeline with
  | _ => rfl

/-- The list has the newest of the pushed envelopes, and the last of them may exceed the cap. -/
def RedisStream.Buffers (stream : List Envelope) (state : RedisStream) : Prop :=
  ∃ pushed : List Envelope, stream = pushed ++ state.unpublished ∧
    state.replay = pushed.drop (pushed.length - state.pipeline.untrimmed - maxReplay) ∧
      state.pipeline.untrimmed ≤ pushed.length

/-- A subscriber that has not read the list has heard every payload since it subscribed. -/
structure RedisStream.Listening (stream : List Envelope) (state : RedisStream) : Prop where
  unread : state.phase.hasRead = false
  replayedSeq : state.replayedSeq = -1
  awaiting : state.awaitingSuggestions = false
  yielded : state.yielded = []
  hears : ∃ missed heard : List Envelope,
    stream = missed ++ heard ++ state.pipeline.envelopes ++ state.unpublished ∧
      state.inbox = state.phase.confirmation ++ heard.map .message ∧
        (state.phase = .idle → heard = [])

/-- A capped list is the end of the list that was capped before its last push. -/
theorem capped_drop_append (pushed : List Envelope) (last : Envelope) :
    capped (pushed.drop (pushed.length - maxReplay) ++ [last]) =
      (pushed ++ [last]).drop (pushed.length + 1 - maxReplay) := by
  have start : pushed.length - maxReplay +
      ((pushed ++ [last]).length - (pushed.length - maxReplay) - maxReplay) =
        pushed.length + 1 - maxReplay := by
    rw [List.length_append, List.length_singleton]
    omega
  unfold capped
  rw [← List.drop_append_of_le_length (Nat.sub_le _ _), List.drop_drop, List.length_drop, start]

theorem RedisStream.initial_buffers (stream : List Envelope) :
    (RedisStream.initial stream).Buffers stream :=
  ⟨[], rfl, by simp [RedisStream.initial], Nat.le_refl 0⟩

variable {action : RedisAction}

section

variable {stream : List Envelope} {state after : RedisStream} (buffers : state.Buffers stream)
include buffers

theorem RedisStream.Buffers.frame (unpublished : after.unpublished = state.unpublished)
    (replay : after.replay = state.replay) (pipeline : after.pipeline = state.pipeline) :
    after.Buffers stream := by
  unfold RedisStream.Buffers
  rw [unpublished, replay, pipeline]
  exact buffers

theorem RedisStream.Buffers.rpush (steps : redisStep state .rpush = some after) :
    after.Buffers stream := by
  obtain ⟨pushed, split, replay, -⟩ := buffers
  simp only [redisStep] at steps
  split at steps
  · next envelope rest idle unpublished =>
      obtain rfl := Option.some.inj steps
      rw [unpublished] at split
      rw [idle] at replay
      refine ⟨pushed ++ [envelope], by simpa using split, ?_, by simp [Pipeline.untrimmed]⟩
      rw [replay]
      simp [Pipeline.untrimmed, List.drop_append_of_le_length (Nat.sub_le _ _)]
  · contradiction

theorem RedisStream.Buffers.ltrim (steps : redisStep state .ltrim = some after) :
    after.Buffers stream := by
  obtain ⟨pushed, split, replay, within⟩ := buffers
  simp only [redisStep] at steps
  split at steps
  · next envelope pending =>
      obtain rfl := Option.some.inj steps
      rw [pending] at replay within
      refine ⟨pushed, split, ?_, Nat.zero_le _⟩
      obtain ⟨earlier, last, rfl⟩ :=
        (List.eq_nil_or_concat' pushed).resolve_left (List.length_pos_iff.mp within)
      have before : state.replay = earlier.drop (earlier.length - maxReplay) ++ [last] := by
        rw [replay, Pipeline.untrimmed, List.length_append, List.length_singleton,
          Nat.add_sub_cancel, List.drop_append_of_le_length (Nat.sub_le _ _)]
      simp only [before, capped_drop_append, Pipeline.untrimmed, List.length_append,
        List.length_singleton, Nat.sub_zero]
  · contradiction

/-- Every step of the publisher and of the subscriber keeps the list. -/
theorem RedisStream.Buffers.step (steps : redisStep state action = some after) :
    after.Buffers stream := by
  cases action with
  | rpush => exact buffers.rpush steps
  | ltrim => exact buffers.ltrim steps
  | publish =>
      simp only [redisStep] at steps
      split at steps
      · next envelope pending =>
          obtain rfl := Option.some.inj steps
          obtain ⟨pushed, split, replay, -⟩ := buffers
          rw [pending] at replay
          exact ⟨pushed, split, replay, Nat.zero_le _⟩
      · contradiction
  | subscribe =>
      simp only [redisStep] at steps
      split at steps
      · obtain rfl := Option.some.inj steps
        exact buffers.frame rfl rfl rfl
      · contradiction
  | confirm =>
      simp only [redisStep] at steps
      split at steps
      · obtain rfl := Option.some.inj steps
        exact buffers.frame rfl rfl rfl
      · obtain rfl := Option.some.inj steps
        exact buffers.frame rfl rfl rfl
      · contradiction
  | lrange =>
      simp only [redisStep] at steps
      split at steps
      · obtain rfl := Option.some.inj steps
        exact buffers.frame rfl rfl rfl
      · contradiction
  | replay =>
      simp only [redisStep] at steps
      split at steps
      · obtain rfl := Option.some.inj steps
        unfold RedisStream.yieldReplayed
        dsimp only
        split <;> split <;> try split
        all_goals exact buffers.frame rfl rfl rfl
      · obtain rfl := Option.some.inj steps
        exact buffers.frame rfl rfl rfl
      · contradiction
  | receive =>
      cases redisStep_receives steps with
      | drops listens arrives stale => exact buffers.frame rfl rfl rfl
      | live listens arrives fresh =>
          unfold RedisStream.yieldLive
          dsimp only
          split <;> try split
          all_goals exact buffers.frame rfl rfl rfl
      | grace listens arrives fresh =>
          unfold RedisStream.yieldGrace
          dsimp only
          split <;> exact buffers.frame rfl rfl rfl

end

variable {allowed : RedisStream → RedisAction → Prop}

theorem RedisStream.buffers {stream : List Envelope} {actions : List RedisAction}
    {state : RedisStream} (runs : Runs redisStep allowed (.initial stream) actions state) :
    state.Buffers stream :=
  runs.invariant (RedisStream.Buffers stream) (fun _ _ _ buffers _ steps => buffers.step steps)
    (RedisStream.initial_buffers stream)

theorem RedisStream.initial_listening (stream : List Envelope) :
    (RedisStream.initial stream).Listening stream := by
  refine ⟨rfl, rfl, rfl, rfl, [], [], ?_, rfl, fun _ => rfl⟩
  simp [RedisStream.initial, Pipeline.envelopes]

section

variable {stream : List Envelope} {state after : RedisStream} (listening : state.Listening stream)
include listening

theorem RedisStream.Listening.rpush (steps : redisStep state .rpush = some after) :
    after.Listening stream := by
  obtain ⟨unread, replayedSeq, awaiting, yielded, missed, heard, whole, inbox, unheard⟩ := listening
  simp only [redisStep] at steps
  split at steps
  · next envelope rest idle unpublished =>
      obtain rfl := Option.some.inj steps
      rw [idle, unpublished] at whole
      refine ⟨unread, replayedSeq, awaiting, yielded, missed, heard, ?_, inbox, unheard⟩
      simpa [Pipeline.envelopes] using whole
  · contradiction

theorem RedisStream.Listening.ltrim (steps : redisStep state .ltrim = some after) :
    after.Listening stream := by
  obtain ⟨unread, replayedSeq, awaiting, yielded, missed, heard, whole, inbox, unheard⟩ := listening
  simp only [redisStep] at steps
  split at steps
  · next envelope pending =>
      obtain rfl := Option.some.inj steps
      rw [pending] at whole
      exact ⟨unread, replayedSeq, awaiting, yielded, missed, heard, whole, inbox, unheard⟩
  · contradiction

theorem RedisStream.Listening.publish (steps : redisStep state .publish = some after) :
    after.Listening stream := by
  obtain ⟨unread, replayedSeq, awaiting, yielded, missed, heard, whole, inbox, unheard⟩ := listening
  simp only [redisStep] at steps
  split at steps
  · next envelope pending =>
      obtain rfl := Option.some.inj steps
      rw [pending] at whole
      refine ⟨unread, replayedSeq, awaiting, yielded, ?_⟩
      by_cases idle : state.phase = .idle
      · obtain rfl := unheard idle
        refine ⟨missed ++ [envelope], [], ?_, ?_, fun _ => rfl⟩
        · simpa [Pipeline.envelopes] using whole
        · simpa [RedisStream.deliver, idle] using inbox
      · refine ⟨missed, heard ++ [envelope], ?_, ?_, fun closed => absurd closed idle⟩
        · simpa [Pipeline.envelopes] using whole
        · simp [RedisStream.deliver, idle, inbox]
  · contradiction

/-- The confirmation is the first message of the connection. -/
theorem RedisStream.Listening.confirm (steps : redisStep state .confirm = some after) :
    after.Listening stream := by
  obtain ⟨unread, replayedSeq, awaiting, yielded, missed, heard, whole, inbox, unheard⟩ := listening
  simp only [redisStep] at steps
  split at steps
  · next rest confirming arrives =>
      obtain rfl := Option.some.inj steps
      refine ⟨rfl, replayedSeq, awaiting, yielded, missed, heard, whole, ?_, ?_⟩
      · rw [confirming, arrives] at inbox
        exact (List.cons.inj inbox).2
      · exact fun idle => SubscribePhase.noConfusion idle
  · next confirming arrives =>
      rw [confirming, arrives] at inbox
      exact PubsubMessage.noConfusion (List.cons.inj inbox).1
  · contradiction

theorem RedisStream.Listening.subscribe (steps : redisStep state .subscribe = some after) :
    after.Listening stream := by
  obtain ⟨unread, replayedSeq, awaiting, yielded, missed, heard, whole, inbox, unheard⟩ := listening
  simp only [redisStep] at steps
  split at steps
  · next idle =>
      obtain rfl := Option.some.inj steps
      obtain rfl := unheard idle
      refine ⟨rfl, replayedSeq, awaiting, yielded, missed, [], whole, ?_, fun _ => rfl⟩
      simp [inbox, idle, SubscribePhase.confirmation]
  · contradiction

/-- Every step but the read of the list keeps the subscriber listening. -/
theorem RedisStream.Listening.step (waits : action ≠ .lrange)
    (steps : redisStep state action = some after) : after.Listening stream := by
  have unread := listening.unread
  cases action with
  | rpush => exact listening.rpush steps
  | ltrim => exact listening.ltrim steps
  | publish => exact listening.publish steps
  | subscribe => exact listening.subscribe steps
  | confirm => exact listening.confirm steps
  | lrange => contradiction
  | replay =>
      simp only [redisStep] at steps
      split at steps
      · next replaying => rw [replaying] at unread; contradiction
      · next replaying => rw [replaying] at unread; contradiction
      · contradiction
  | receive =>
      have receives := redisStep_receives steps
      cases receives with
      | drops listens arrives stale =>
          rcases listens with listens | listens <;> rw [listens] at unread <;> contradiction
      | live listens arrives fresh => rw [listens] at unread; contradiction
      | grace listens arrives fresh => rw [listens] at unread; contradiction

end

/-- Every payload in the list is at most as new as its last one. -/
theorem Increasing.seq_le_of_mem {pushed : List Envelope} (increasing : Increasing pushed)
    {envelope : Envelope} (member : envelope ∈ pushed) {start : Nat} (late : start < pushed.length) :
    ∃ last ∈ pushed.drop start, envelope.seq ≤ last.seq := by
  rcases List.eq_nil_or_concat' pushed with rfl | ⟨earlier, last, rfl⟩
  · contradiction
  · refine ⟨last, ?_, ?_⟩
    · rw [List.length_append, List.length_singleton] at late
      rw [List.drop_append_of_le_length (by omega)]
      simp
    · rcases List.mem_append.mp member with member | member
      · exact Nat.le_of_lt ((List.pairwise_append.mp increasing).2.2 envelope member last (by simp))
      · rw [List.mem_singleton.mp member]

/-- The channel still has exactly the unpublished payloads that the list does not have. -/
theorem Increasing.filter_highWater {pushed unpublished heard : List Envelope}
    (increasing : Increasing (pushed ++ unpublished)) (known : ∀ envelope ∈ heard, envelope ∈ pushed)
    {start : Nat} (late : start < pushed.length ∨ pushed = []) :
    (heard ++ unpublished).filter
      (fun envelope => highWater (-1) (pushed.drop start) < envelope.seq) = unpublished := by
  have replayed : heard.filter
      (fun envelope => highWater (-1) (pushed.drop start) < envelope.seq) = [] := by
    rw [List.filter_eq_nil_iff]
    intro envelope member fresh
    have newer := (highWater_lt_iff _ _ _).mp (of_decide_eq_true fresh)
    rcases late with late | rfl
    · obtain ⟨last, listed, older⟩ := Increasing.seq_le_of_mem
        (List.pairwise_append.mp increasing).1 (known envelope member) late
      have less := newer.2 last listed
      omega
    · exact List.not_mem_nil (known envelope member)
  have awaited : unpublished.filter
      (fun envelope => highWater (-1) (pushed.drop start) < envelope.seq) = unpublished := by
    rw [List.filter_eq_self]
    intro envelope member
    apply decide_eq_true
    rw [highWater_lt_iff]
    refine ⟨by omega, fun earlier listed => ?_⟩
    have less := (List.pairwise_append.mp increasing).2.2 earlier (List.mem_of_mem_drop listed)
      envelope member
    omega
  rw [List.filter_append, replayed, awaited, List.nil_append]

/-- The read of the list fixes what the subscriber relays. -/
theorem RedisStream.Listening.reads {stream : List Envelope} {state after : RedisStream}
    (listening : state.Listening stream) (buffers : state.Buffers stream)
    (increasing : Increasing stream) (steps : redisStep state .lrange = some after) :
    after.Relays (stream.drop (state.trimmed stream - maxReplay)) := by
  obtain ⟨-, replayedSeq, awaiting, yielded, missed, heard, whole, inbox, -⟩ := listening
  obtain ⟨pushed, split, replay, within⟩ := buffers
  simp only [redisStep] at steps
  split at steps
  · next reading =>
      obtain rfl := Option.some.inj steps
      have counted : state.trimmed stream = pushed.length - state.pipeline.untrimmed := by
        rw [RedisStream.trimmed_eq, split, List.length_append, Nat.add_sub_cancel]
      have pushes : missed ++ heard ++ state.pipeline.envelopes = pushed :=
        List.append_cancel_right (whole.symm.trans split)
      have late : pushed.length - state.pipeline.untrimmed - maxReplay < pushed.length ∨
          pushed = [] := by
        rcases Nat.eq_zero_or_pos pushed.length with empty | positive
        · exact .inr (List.length_eq_zero_iff.mp empty)
        · exact .inl (by unfold maxReplay; omega)
      have channel : (state.inbox.flatMap PubsubMessage.envelopes) = heard := by
        rw [inbox, reading]
        simp [SubscribePhase.confirmation, List.flatMap_map, PubsubMessage.envelopes]
      have known : ∀ envelope ∈ heard ++ state.pipeline.envelopes, envelope ∈ pushed := by
        intro envelope member
        rw [← pushes, List.append_assoc]
        exact List.mem_append_right _ member
      have fresh := Increasing.filter_highWater (split ▸ increasing) known late
      have remaining : ({ state with phase := .replaying state.replay } : RedisStream).remaining =
          stream.drop (state.trimmed stream - maxReplay) := by
        unfold RedisStream.remaining RedisStream.incoming RedisStream.rest
        rw [channel, replayedSeq, replay, fresh, counted, split,
          List.drop_append_of_le_length (by omega)]
      have watch : ({ state with phase := .replaying state.replay } : RedisStream).watch =
          .terminal := by
        simp [RedisStream.watch, awaiting]
      refine ⟨rfl, ?_, ?_⟩
      · rw [watch, remaining, yielded, List.nil_append]
      · rw [watch, yielded]
        rfl
  · contradiction

/-- A subscriber listens until it relays. -/
theorem RedisStream.reached {stream : List Envelope} (increasing : Increasing stream)
    {actions : List RedisAction} {state : RedisStream}
    (runs : Runs redisStep allowed (.initial stream) actions state) :
    state.Listening stream ∨ ∃ target, state.Relays target := by
  have holds : state.Buffers stream ∧ (state.Listening stream ∨ ∃ target, state.Relays target) := by
    apply runs.invariant fun state =>
      state.Buffers stream ∧ (state.Listening stream ∨ ∃ target, state.Relays target)
    · intro state action after holds _ steps
      refine ⟨holds.1.step steps, ?_⟩
      rcases holds.2 with listening | ⟨target, relays⟩
      · by_cases reads : action = .lrange
        · subst reads
          exact .inr ⟨_, listening.reads holds.1 increasing steps⟩
        · exact .inl (listening.step reads steps)
      · exact .inr ⟨target, relays.step steps⟩
    · exact ⟨RedisStream.initial_buffers stream, .inl (RedisStream.initial_listening stream)⟩
  exact holds.2

/-- A subscriber that reads its list now relays the stream from its oldest entry on. -/
theorem RedisStream.relays_read {stream : List Envelope} (increasing : Increasing stream)
    {earlier later : List RedisAction} {before reading after : RedisStream}
    (opens : Runs redisStep allowed (.initial stream) earlier before)
    (reads : redisStep before .lrange = some reading)
    (continues : Runs redisStep allowed reading later after) :
    after.Relays (stream.drop (before.trimmed stream - maxReplay)) := by
  have listening : before.Listening stream := by
    rcases RedisStream.reached increasing opens with listening | ⟨target, relays⟩
    · exact listening
    · have read := relays.hasRead
      simp only [redisStep] at reads
      split at reads
      · next unread => rw [unread] at read; contradiction
      · contradiction
  apply continues.invariant
  · exact fun state action after relays _ steps => relays.step steps
  · exact listening.reads (RedisStream.buffers opens) increasing reads

/-- The publisher still has these steps to take for its last envelope. -/
def Pipeline.work : Pipeline → Nat
  | .idle => 0
  | .publish _ => 2
  | .ltrim _ => 3

/-- The subscriber still has these steps to take for its list. -/
def SubscribePhase.work (listed : Nat) : SubscribePhase → Nat
  | .idle => listed + 6
  | .confirming => listed + 3
  | .reading => listed + 2
  | .replaying entries => entries.length + 1
  | .live | .grace | .done => 0

/-- This bounds the steps that the publisher and the subscriber can still take. -/
def RedisStream.work (state : RedisStream) : Nat :=
  6 * state.unpublished.length + state.pipeline.work + state.inbox.length +
    state.phase.work state.replay.length

theorem SubscribePhase.work_mono (phase : SubscribePhase) {fewer more : Nat} (fits : fewer ≤ more) :
    phase.work fewer ≤ phase.work more := by
  cases phase <;> simp only [SubscribePhase.work] <;> omega

theorem SubscribePhase.work_push (phase : SubscribePhase) (listed : Nat) :
    phase.work (listed + 1) ≤ phase.work listed + 1 := by
  cases phase <;> simp only [SubscribePhase.work] <;> omega

/-- Every step uses up some work. -/
theorem redisStep_work {state after : RedisStream} (steps : redisStep state action = some after) :
    after.work < state.work := by
  cases action with
  | rpush =>
      simp only [redisStep] at steps
      split at steps
      · next envelope rest idle unpublished =>
          obtain rfl := Option.some.inj steps
          have pushes := state.phase.work_push state.replay.length
          simp only [RedisStream.work, idle, unpublished, Pipeline.work, List.length_append,
            List.length_cons, List.length_nil, Nat.zero_add]
          omega
      · contradiction
  | ltrim =>
      simp only [redisStep] at steps
      split at steps
      · next envelope pending =>
          obtain rfl := Option.some.inj steps
          have trims : (capped state.replay).length ≤ state.replay.length := by
            unfold capped
            rw [List.length_drop]
            omega
          have fewer := state.phase.work_mono trims
          simp only [RedisStream.work, pending, Pipeline.work]
          omega
      · contradiction
  | publish =>
      simp only [redisStep] at steps
      split at steps
      · next envelope pending =>
          obtain rfl := Option.some.inj steps
          have delivers : (state.deliver envelope).length ≤ state.inbox.length + 1 := by
            unfold RedisStream.deliver
            split <;> simp
          simp only [RedisStream.work, pending, Pipeline.work]
          omega
      · contradiction
  | subscribe =>
      simp only [redisStep] at steps
      split at steps
      · next idle =>
          obtain rfl := Option.some.inj steps
          simp only [RedisStream.work, idle, SubscribePhase.work, List.length_append,
            List.length_singleton]
          omega
      · contradiction
  | confirm =>
      simp only [redisStep] at steps
      split at steps
      · next rest confirming arrives =>
          obtain rfl := Option.some.inj steps
          simp only [RedisStream.work, confirming, arrives, SubscribePhase.work, List.length_cons]
          omega
      · next envelope rest confirming arrives =>
          obtain rfl := Option.some.inj steps
          simp only [RedisStream.work, arrives, List.length_cons]
          omega
      · contradiction
  | lrange =>
      simp only [redisStep] at steps
      split at steps
      · next reading =>
          obtain rfl := Option.some.inj steps
          simp only [RedisStream.work, reading, SubscribePhase.work]
          omega
      · contradiction
  | replay =>
      simp only [redisStep] at steps
      split at steps
      · next envelope rest replaying =>
          obtain rfl := Option.some.inj steps
          unfold RedisStream.yieldReplayed
          dsimp only
          split <;> split <;> try split
          all_goals
            simp only [RedisStream.work, replaying, SubscribePhase.work, List.length_cons]
            omega
      · next drained =>
          obtain rfl := Option.some.inj steps
          cases awaiting : state.awaitingSuggestions with
          | true => simp [RedisStream.work, drained, SubscribePhase.work]
          | false => simp [RedisStream.work, drained, SubscribePhase.work]
      · contradiction
  | receive =>
      cases redisStep_receives steps with
      | drops listens arrives stale =>
          simp only [RedisStream.work, arrives, List.length_cons]
          omega
      | live listens arrives fresh =>
          unfold RedisStream.yieldLive
          dsimp only
          split <;> try split
          all_goals
            simp only [RedisStream.work, listens, arrives, SubscribePhase.work, List.length_cons]
            omega
      | grace listens arrives fresh =>
          unfold RedisStream.yieldGrace
          dsimp only
          split <;>
          · simp only [RedisStream.work, listens, arrives, SubscribePhase.work, List.length_cons]
            omega

theorem RedisStream.watch_closed_iff (state : RedisStream) :
    state.watch = .closed ↔ state.phase = .done := by
  unfold RedisStream.watch
  cases state.phase with
  | replaying entries => dsimp only; split <;> simp
  | _ => simp

/-- A subscriber that reads its list relays the stream from the oldest entry that its trims have
kept, closes right after the end and misses nothing when no step is left. -/
theorem late_subscriber_relays {stream : List Envelope} (increasing : Increasing stream)
    (ends : EndsOnce stream) {earlier later : List RedisAction} {before reading after : RedisStream}
    (opens : Runs redisStep (fun _ _ => True) (.initial stream) earlier before)
    (reads : redisStep before .lrange = some reading)
    (continues : Runs redisStep (fun _ _ => True) reading later after) :
    let relayed := stream.drop (before.trimmed stream - maxReplay)
    after.yielded <+: relayed ∧
      (after.phase = .done ↔ after.yielded = relayed ∧ awaitsSuggestions stream = false) ∧
      (Stuck redisStep after → after.yielded = relayed) ∧
      later.length ≤ before.work := by
  intro relayed
  have relays := RedisStream.relays_read increasing opens reads continues
  have counted : before.trimmed stream ≤ stream.length := by
    rw [RedisStream.trimmed_eq]
    omega
  have early : before.trimmed stream - maxReplay + 2 ≤ stream.length ∨
      before.trimmed stream - maxReplay = 0 := by
    unfold maxReplay
    omega
  obtain ⟨endsLate, awaits⟩ := ends.dropped early
  obtain ⟨whole, closes⟩ := endsLate.relayed
  have split := relays.relays
  rw [whole] at split
  refine ⟨⟨_, split⟩, ?_, fun stuck => (relays.settled stuck).trans whole, ?_⟩
  · rw [← RedisStream.watch_closed_iff, ← awaits]
    constructor
    · intro closed
      rw [closed, relay_closed, List.append_nil] at split
      refine ⟨split, closes.mp ?_⟩
      rw [← split, relays.watches, closed]
    · rintro ⟨finished, offered⟩
      rw [← relays.watches, finished]
      exact closes.mpr offered
  · have bounded := continues.length_le RedisStream.work fun _ _ _ => redisStep_work
    have less := redisStep_work reads
    omega

/-- A subscriber that connects during the answer relays all of it. -/
theorem late_subscriber_relays_answer :
    let stream : List Envelope := [⟨1, .start⟩, ⟨2, .done [] true⟩, ⟨3, .suggestions [['b']]⟩]
    let settled : RedisStream := ⟨[], .idle, stream, [], .done, 2, true, stream⟩
    settled.yielded = stream ∧ settled.phase = .done := by
  intro stream settled
  let before : RedisStream := ⟨[⟨3, .suggestions [['b']]⟩], .idle, [⟨1, .start⟩, ⟨2, .done [] true⟩],
    [.message ⟨2, .done [] true⟩], .reading, -1, false, []⟩
  have opens : Runs redisStep (fun _ _ => True) (.initial stream)
      [.rpush, .ltrim, .publish, .subscribe, .confirm, .rpush, .ltrim, .publish] before :=
    Runs.of_unchecked (by decide)
  have continues : Runs redisStep (fun _ _ => True)
      ⟨[⟨3, .suggestions [['b']]⟩], .idle, [⟨1, .start⟩, ⟨2, .done [] true⟩],
        [.message ⟨2, .done [] true⟩], .replaying [⟨1, .start⟩, ⟨2, .done [] true⟩], -1, false, []⟩
      [.replay, .replay, .replay, .receive, .rpush, .ltrim, .publish, .receive] settled :=
    Runs.of_unchecked (by decide)
  have ends : EndsOnce stream :=
    ⟨[⟨1, .start⟩], ⟨2, .done [] true⟩, [⟨3, .suggestions [['b']]⟩], rfl, by decide, rfl,
      .inr ⟨rfl, _, rfl, rfl⟩⟩
  have start : before.trimmed stream - maxReplay = 0 := by decide
  obtain ⟨-, closes, settles, -⟩ := late_subscriber_relays (by decide) ends opens rfl continues
  rw [start] at closes settles
  have relayed := settles fun action => by cases action <;> rfl
  exact ⟨relayed, closes.mpr ⟨relayed, rfl⟩⟩

/-- The publisher publishes a part of its stream before the subscriber connects. -/
theorem RedisStream.publishes (pushed rest : List Envelope) :
    ∃ actions, Runs redisStep (fun _ _ => True) (.initial (pushed ++ rest)) actions
      ⟨rest, .idle, capped pushed, [], .idle, -1, false, []⟩ := by
  induction pushed using List.reverseRecOn generalizing rest with
  | nil => exact ⟨[], Runs.nil _⟩
  | append_singleton earlier last ih =>
      obtain ⟨actions, runs⟩ := ih (last :: rest)
      refine ⟨actions ++ [.rpush, .ltrim, .publish], ?_⟩
      rw [List.append_assoc, List.singleton_append]
      apply runs.append
      apply Runs.of_unchecked
      have trims : capped (capped earlier ++ [last]) = capped (earlier ++ [last]) := by
        unfold capped
        rw [← capped, capped_drop_append, List.length_append, List.length_singleton]
      simp [execute, redisStep, RedisStream.deliver, trims]

/-- This stream has one envelope more than the list keeps, and its end. -/
def longAnswer : List Envelope :=
  (List.range maxReplay).map (fun seq => ⟨seq, .delta []⟩) ++
    [⟨maxReplay, .delta []⟩, ⟨maxReplay + 1, .done [] false⟩]

theorem longAnswer_increasing : Increasing longAnswer := by
  unfold Increasing longAnswer
  rw [List.pairwise_append]
  refine ⟨?_, by simp, ?_⟩
  · rw [List.pairwise_map]
    exact List.pairwise_lt_range
  · intro earlier listed later last
    obtain ⟨seq, below, rfl⟩ := List.mem_map.mp listed
    have bound := List.mem_range.mp below
    simp only [List.mem_cons, List.not_mem_nil, or_false] at last
    rcases last with rfl | rfl
    · exact bound
    · exact Nat.lt_succ_of_lt bound

theorem longAnswer_endsOnce : EndsOnce longAnswer := by
  refine ⟨(List.range maxReplay).map (fun seq => ⟨seq, .delta []⟩) ++ [⟨maxReplay, .delta []⟩],
    ⟨maxReplay + 1, .done [] false⟩, [], by simp [longAnswer], ?_, rfl, .inl rfl⟩
  intro envelope member
  simp only [List.mem_append, List.mem_map, List.mem_singleton] at member
  rcases member with ⟨seq, -, rfl⟩ | rfl
  · rfl
  · rfl

/-- A list that is read before its `LTRIM` replays one entry more than the list keeps. -/
theorem late_subscriber_overfull :
    ¬ ∀ stream : List Envelope, Increasing stream → EndsOnce stream →
      ∀ (earlier later : List RedisAction) (before reading after : RedisStream),
        Runs redisStep (fun _ _ => True) (.initial stream) earlier before →
        redisStep before .lrange = some reading →
        Runs redisStep (fun _ _ => True) reading later after → Stuck redisStep after →
          after.yielded = stream.drop (stream.length - before.unpublished.length - maxReplay) := by
  intro claim
  let pushed : List Envelope := (List.range maxReplay).map fun seq => ⟨seq, .delta []⟩
  obtain ⟨actions, publishes⟩ := RedisStream.publishes pushed
    [⟨maxReplay, .delta []⟩, ⟨maxReplay + 1, .done [] false⟩]
  let before : RedisStream := ⟨[⟨maxReplay + 1, .done [] false⟩], .ltrim ⟨maxReplay, .delta []⟩,
    capped pushed ++ [⟨maxReplay, .delta []⟩], [], .reading, -1, false, []⟩
  let reading : RedisStream := { before with phase := .replaying before.replay }
  have opens : Runs redisStep (fun _ _ => True) (.initial longAnswer)
      (actions ++ [.subscribe, .confirm, .rpush]) before := by
    apply publishes.append
    apply Runs.of_unchecked
    simp [execute, redisStep, before]
  have reads : redisStep before .lrange = some reading := rfl
  obtain ⟨later, after, continues, stuck⟩ :=
    exists_stuck RedisStream.work (fun _ _ _ => redisStep_work) reading
  have pushes : pushed.length = maxReplay := by simp [pushed]
  have whole : longAnswer.length = maxReplay + 2 := by simp [longAnswer]
  have claimed := claim longAnswer longAnswer_increasing longAnswer_endsOnce _ later before reading
    after opens reads continues stuck
  have relays := RedisStream.relays_read longAnswer_increasing opens reads continues
  have last : before.unpublished.length = 1 := rfl
  have untrimmed : before.pipeline.untrimmed = 1 := rfl
  have start : before.trimmed longAnswer - maxReplay = 0 := by
    rw [RedisStream.trimmed_eq, whole, last, untrimmed]
    omega
  rw [start, List.drop_zero] at relays
  have relayed := relays.settled stuck
  rw [longAnswer_endsOnce.relayed.1, claimed] at relayed
  have lengths := congrArg List.length relayed
  rw [List.length_drop, whole, last] at lengths
  omega

end LumenCopilot.Realtime
