import LumenCopilot.Proof.Realtime.Subscription

namespace LumenCopilot.Realtime

open Chat Library

def InMemoryStream.watch (state : InMemoryStream) : Watch :=
  match state.phase with
  | .idle | .live => .terminal
  | .grace => .suggestions
  | .done => .closed

/-- The buffer has the newest of the published envelopes, and only a subscriber has a queue. -/
structure InMemoryStream.Buffers (stream : List Envelope) (state : InMemoryStream) : Prop where
  replay : ∃ published : List Envelope, stream = published ++ state.unpublished ∧
    state.replay = published.drop (published.length - maxReplay)
  unsubscribed : state.phase = .idle → state.queue = [] ∧ state.yielded = []

/-- What has been yielded and what is still to be relayed make up the relay of the target. -/
structure InMemoryStream.Relays (target : List Envelope) (state : InMemoryStream) : Prop where
  subscribed : state.phase ≠ .idle
  relays : state.yielded ++ relay state.watch (state.queue ++ state.unpublished) =
    relay .terminal target

theorem InMemoryStream.initial_buffers (stream : List Envelope) :
    (InMemoryStream.initial stream).Buffers stream :=
  ⟨⟨[], rfl, by simp [InMemoryStream.initial]⟩, fun _ => ⟨rfl, rfl⟩⟩

/-- A receive yields the first envelope of the queue and advances the watch. -/
inductive InMemoryStream.Receives (state : InMemoryStream) : InMemoryStream → Prop where
  | yields {envelope : Envelope} {rest : List Envelope} {phase : QueuePhase}
      (opens : state.watch ≠ .closed) (subscribed : state.phase ≠ .idle) (waits : phase ≠ .idle)
      (queue : state.queue = envelope :: rest)
      (next : ({ state with phase := phase } : InMemoryStream).watch = state.watch.next envelope) :
      state.Receives { state with
        queue := rest, yielded := state.yielded ++ [envelope], phase := phase }

variable {state after : InMemoryStream}

theorem inMemoryStep_receives (receives : inMemoryStep state .receive = some after) :
    state.Receives after := by
  obtain ⟨unpublished, replay, queue, phase, yielded⟩ := state
  cases queue with
  | nil => cases phase <;> simp [inMemoryStep] at receives
  | cons envelope rest =>
      cases phase with
      | idle => simp [inMemoryStep] at receives
      | done => simp [inMemoryStep] at receives
      | live =>
          simp only [inMemoryStep] at receives
          split at receives
          · next terminal =>
              obtain rfl := Option.some.inj receives
              refine .yields (by simp [InMemoryStream.watch]) (by simp) ?_ rfl ?_
              · split <;> simp
              · cases pending : declaresPendingSuggestions envelope <;>
                  simp [InMemoryStream.watch, Watch.next, terminal, pending]
          · next unsettled =>
              obtain rfl := Option.some.inj receives
              have next : (⟨unpublished, replay, envelope :: rest, .live, yielded⟩ :
                  InMemoryStream).watch = Watch.next .terminal envelope := by
                simp [InMemoryStream.watch, Watch.next, unsettled]
              exact .yields (by simp [InMemoryStream.watch]) (by simp) (by simp) rfl next
      | grace =>
          simp only [inMemoryStep] at receives
          obtain rfl := Option.some.inj receives
          refine .yields (by simp [InMemoryStream.watch]) (by simp) ?_ rfl ?_
          · split <;> simp
          · cases suggestions : isSuggestions envelope <;>
              simp [InMemoryStream.watch, Watch.next, suggestions]

variable {stream : List Envelope} {action : InMemoryAction}

/-- Every step keeps the buffer. -/
theorem InMemoryStream.Buffers.step (buffers : state.Buffers stream)
    (steps : inMemoryStep state action = some after) : after.Buffers stream := by
  obtain ⟨⟨published, split, replay⟩, unsubscribed⟩ := buffers
  cases action with
  | publish =>
      simp only [inMemoryStep] at steps
      split at steps
      · next envelope rest unpublished =>
          obtain rfl := Option.some.inj steps
          refine ⟨⟨published ++ [envelope], by simp [split, unpublished], ?_⟩, fun idle => ?_⟩
          · simp only [replay, capped_drop_append, List.length_append, List.length_singleton]
          · obtain ⟨queue, yielded⟩ := unsubscribed idle
            refine ⟨?_, yielded⟩
            have waits : state.phase = .idle := idle
            simp [InMemoryStream.put, waits, queue]
      · contradiction
  | subscribe =>
      simp only [inMemoryStep] at steps
      split at steps
      · obtain rfl := Option.some.inj steps
        exact ⟨⟨published, split, replay⟩, fun idle => QueuePhase.noConfusion idle⟩
      · contradiction
  | receive =>
      cases inMemoryStep_receives steps with
      | yields opens subscribed waits queue next =>
          exact ⟨⟨published, split, replay⟩, fun idle => absurd idle waits⟩

/-- Every step after the subscription keeps the relay. -/
theorem InMemoryStream.Relays.step {target : List Envelope} (relays : state.Relays target)
    (steps : inMemoryStep state action = some after) : after.Relays target := by
  obtain ⟨subscribed, whole⟩ := relays
  cases action with
  | publish =>
      simp only [inMemoryStep] at steps
      split at steps
      · next envelope rest unpublished =>
          obtain rfl := Option.some.inj steps
          refine ⟨subscribed, ?_⟩
          rw [unpublished] at whole
          cases phase : state.phase with
          | idle => contradiction
          | _ => simpa [InMemoryStream.watch, InMemoryStream.put, phase] using whole
      · contradiction
  | subscribe =>
      simp only [inMemoryStep] at steps
      contradiction
  | receive =>
      cases inMemoryStep_receives steps with
      | yields opens subscribed waits queue next =>
          refine ⟨waits, ?_⟩
          rw [queue, List.cons_append, relay_cons opens, ← next] at whole
          rw [← whole, List.append_assoc]
          rfl

/-- The subscription fixes what the subscriber relays. -/
theorem InMemoryStream.Buffers.subscribes (buffers : state.Buffers stream)
    (steps : inMemoryStep state .subscribe = some after) :
    after.Relays (stream.drop (stream.length - state.unpublished.length - maxReplay)) := by
  obtain ⟨⟨published, split, replay⟩, unsubscribed⟩ := buffers
  simp only [inMemoryStep] at steps
  split at steps
  · next idle =>
      obtain rfl := Option.some.inj steps
      obtain ⟨-, yielded⟩ := unsubscribed idle
      have counted : stream.length - state.unpublished.length = published.length := by
        rw [split, List.length_append, Nat.add_sub_cancel]
      refine ⟨by simp, ?_⟩
      rw [counted, split, List.drop_append_of_le_length (Nat.sub_le _ _), ← replay, yielded]
      rfl
  · contradiction

/-- A subscriber that has nothing left to receive has relayed its whole target. -/
theorem InMemoryStream.Relays.settled {target : List Envelope} (relays : state.Relays target)
    (stuck : Stuck inMemoryStep state) : state.yielded = relay .terminal target := by
  obtain ⟨subscribed, whole⟩ := relays
  suffices finished : relay state.watch (state.queue ++ state.unpublished) = [] by
    rw [← whole, finished, List.append_nil]
  obtain ⟨unpublished, replay, queue, phase, yielded⟩ := state
  have published : unpublished = [] := by
    cases unpublished with
    | nil => rfl
    | cons envelope rest => exact absurd (stuck .publish) (by simp [inMemoryStep])
  have waits := stuck .receive
  cases queue with
  | nil => simp [published]
  | cons envelope rest =>
      cases phase with
      | idle => contradiction
      | live => simp only [inMemoryStep] at waits; split at waits <;> contradiction
      | grace => simp [inMemoryStep] at waits
      | done => exact relay_closed _

theorem InMemoryStream.buffers {allowed : InMemoryStream → InMemoryAction → Prop}
    {actions : List InMemoryAction}
    (runs : Runs inMemoryStep allowed (.initial stream) actions state) : state.Buffers stream :=
  runs.invariant (InMemoryStream.Buffers stream) (fun _ _ _ buffers _ steps => buffers.step steps)
    (InMemoryStream.initial_buffers stream)

/-- This bounds the steps that the publisher and the subscriber can still take. -/
def InMemoryStream.work (state : InMemoryStream) : Nat :=
  2 * state.unpublished.length + state.queue.length +
    if state.phase = .idle then state.replay.length + 1 else 0

theorem inMemoryStep_work (steps : inMemoryStep state action = some after) :
    after.work < state.work := by
  cases action with
  | publish =>
      simp only [inMemoryStep] at steps
      split at steps
      · next envelope rest unpublished =>
          obtain rfl := Option.some.inj steps
          have trims : (capped (state.replay ++ [envelope])).length ≤ state.replay.length + 1 := by
            unfold capped
            rw [List.length_drop, List.length_append, List.length_singleton]
            omega
          cases phase : state.phase with
          | idle =>
              simp only [InMemoryStream.work, InMemoryStream.put, phase, unpublished,
                List.length_cons, if_true]
              omega
          | live =>
              simp only [InMemoryStream.work, InMemoryStream.put, phase, unpublished,
                List.length_cons, List.length_append, List.length_nil, reduceCtorEq, if_false]
              omega
          | grace =>
              simp only [InMemoryStream.work, InMemoryStream.put, phase, unpublished,
                List.length_cons, List.length_append, List.length_nil, reduceCtorEq, if_false]
              omega
          | done =>
              simp only [InMemoryStream.work, InMemoryStream.put, phase, unpublished,
                List.length_cons, reduceCtorEq, if_false]
              omega
      · contradiction
  | subscribe =>
      simp only [inMemoryStep] at steps
      split at steps
      · next idle =>
          obtain rfl := Option.some.inj steps
          simp only [InMemoryStream.work, idle, if_true, reduceCtorEq, if_false]
          omega
      · contradiction
  | receive =>
      cases inMemoryStep_receives steps with
      | yields opens subscribed waits queue next =>
          simp only [InMemoryStream.work, queue, List.length_cons, if_neg subscribed, if_neg waits]
          omega

/-- Both lists have the same envelopes between two publishes. -/
theorem RedisStream.Buffers.replay_eq {redis : RedisStream} {memory : InMemoryStream}
    (redisBuffers : redis.Buffers stream) (memoryBuffers : memory.Buffers stream)
    (point : redis.unpublished = memory.unpublished) (trimmed : redis.pipeline.untrimmed = 0) :
    redis.replay = memory.replay := by
  obtain ⟨pushed, split, listed, -⟩ := redisBuffers
  obtain ⟨published, whole, buffered⟩ := memoryBuffers.replay
  obtain rfl : pushed = published :=
    List.append_cancel_right (split.symm.trans (whole.trans (by rw [point])))
  rw [listed, buffered, trimmed, Nat.sub_zero]

/-- A subscriber of the in-process backplane yields what a subscriber of Redis yields that reads the
list at the same point between two publishes, and both backplanes have the same terminal. -/
theorem inMemory_stands_in {stream : List Envelope} (increasing : Increasing stream) :
    (∀ {redisEarlier redisLater : List RedisAction} {before reading after : RedisStream}
      {memoryEarlier memoryLater : List InMemoryAction} {early opened late : InMemoryStream},
      Runs redisStep (fun _ _ => True) (.initial stream) redisEarlier before →
      redisStep before .lrange = some reading →
      Runs redisStep (fun _ _ => True) reading redisLater after →
      Runs inMemoryStep (fun _ _ => True) (.initial stream) memoryEarlier early →
      inMemoryStep early .subscribe = some opened →
      Runs inMemoryStep (fun _ _ => True) opened memoryLater late →
      before.unpublished = early.unpublished → before.pipeline.untrimmed = 0 →
        redisLater.length ≤ before.work ∧ memoryLater.length ≤ early.work ∧
          (Stuck redisStep after → Stuck inMemoryStep late → late.yielded = after.yielded)) ∧
    ∀ {redisActions : List RedisAction} {redis : RedisStream} {memoryActions : List InMemoryAction}
      {memory : InMemoryStream},
      Runs redisStep (fun _ _ => True) (.initial stream) redisActions redis →
      Runs inMemoryStep (fun _ _ => True) (.initial stream) memoryActions memory →
      redis.unpublished = memory.unpublished → redis.pipeline.untrimmed = 0 →
        getTerminal memory.replay = getTerminal redis.replay := by
  constructor
  · intro redisEarlier redisLater before reading after memoryEarlier memoryLater early opened late
      opens reads continues subscribes joins receives point trimmed
    refine ⟨?_, ?_, fun redisStuck memoryStuck => ?_⟩
    · have bounded := continues.length_le RedisStream.work fun _ _ _ => redisStep_work
      have less := redisStep_work reads
      omega
    · have bounded := receives.length_le InMemoryStream.work fun _ _ _ => inMemoryStep_work
      have less := inMemoryStep_work joins
      omega
    · have redisRelays := RedisStream.relays_read increasing opens reads continues
      have memoryRelays : late.Relays
          (stream.drop (stream.length - early.unpublished.length - maxReplay)) := by
        apply receives.invariant
        · exact fun state action after relays _ steps => relays.step steps
        · exact (InMemoryStream.buffers subscribes).subscribes joins
      rw [RedisStream.trimmed_eq, trimmed, point, Nat.sub_zero] at redisRelays
      rw [redisRelays.settled redisStuck, memoryRelays.settled memoryStuck]
  · intro redisActions redis memoryActions memory redisRuns memoryRuns point trimmed
    rw [(RedisStream.buffers redisRuns).replay_eq (InMemoryStream.buffers memoryRuns) point trimmed]

/-- Both subscribers connect after the first envelope and yield the whole answer. -/
theorem inMemory_stands_in_answer :
    let stream : List Envelope := [⟨1, .start⟩, ⟨2, .done [] false⟩, ⟨3, .delta ['a']⟩]
    let redis : RedisStream :=
      ⟨[], .idle, stream, [.message ⟨3, .delta ['a']⟩], .done, 1, false, [⟨1, .start⟩, ⟨2, .done [] false⟩]⟩
    let memory : InMemoryStream := ⟨[], stream, [], .done, [⟨1, .start⟩, ⟨2, .done [] false⟩]⟩
    memory.yielded = redis.yielded ∧ getTerminal memory.replay = getTerminal redis.replay := by
  intro stream redis memory
  let before : RedisStream :=
    ⟨[⟨2, .done [] false⟩, ⟨3, .delta ['a']⟩], .idle, [⟨1, .start⟩], [], .reading, -1, false, []⟩
  let reading : RedisStream := { before with phase := .replaying [⟨1, .start⟩] }
  let early : InMemoryStream :=
    ⟨[⟨2, .done [] false⟩, ⟨3, .delta ['a']⟩], [⟨1, .start⟩], [], .idle, []⟩
  let opened : InMemoryStream := { early with phase := .live, queue := [⟨1, .start⟩] }
  have opens : Runs redisStep (fun _ _ => True) (.initial stream)
      [.rpush, .ltrim, .publish, .subscribe, .confirm] before := Runs.of_unchecked (by decide)
  have continues : Runs redisStep (fun _ _ => True) reading
      [.replay, .replay, .rpush, .ltrim, .publish, .receive, .rpush, .ltrim, .publish] redis :=
    Runs.of_unchecked (by decide)
  have joins : Runs inMemoryStep (fun _ _ => True) (.initial stream) [.publish] early :=
    Runs.of_unchecked (by decide)
  have receives : Runs inMemoryStep (fun _ _ => True) opened
      [.receive, .publish, .receive, .publish] memory := Runs.of_unchecked (by decide)
  have increasing : Increasing stream := by decide
  obtain ⟨yields, terminals⟩ := inMemory_stands_in increasing
  refine ⟨?_, ?_⟩
  · exact (yields opens rfl continues joins rfl receives rfl rfl).2.2
      (fun action => by cases action <;> rfl) (fun action => by cases action <;> rfl)
  · exact terminals (opens.append (Runs.cons (a := .lrange) trivial rfl continues))
      (joins.append (Runs.cons (a := .subscribe) trivial rfl receives)) rfl rfl

end LumenCopilot.Realtime
