import LumenCopilot.Construction.Realtime.Backplane
import LumenCopilot.Proof.Library.Transition
import Mathlib

namespace LumenCopilot.Realtime

open Chat

/-- A subscriber watches for a terminal, then for the suggestions that it declares. -/
inductive Watch where
  | terminal
  | suggestions
  | closed
  deriving DecidableEq

def Watch.next : Watch → Envelope → Watch
  | .terminal, envelope =>
      if isTerminal envelope then
        if declaresPendingSuggestions envelope then .suggestions else .closed
      else .terminal
  | .suggestions, envelope => if isSuggestions envelope then .closed else .suggestions
  | .closed, _ => .closed

/-- The relay of a stream ends with the envelope that closes the watch. -/
def relay (watch : Watch) : List Envelope → List Envelope
  | [] => []
  | envelope :: rest =>
      if watch = .closed then [] else envelope :: relay (watch.next envelope) rest

@[simp] theorem relay_nil (watch : Watch) : relay watch [] = [] := rfl

@[simp] theorem relay_closed (stream : List Envelope) : relay .closed stream = [] := by
  cases stream with
  | nil => rfl
  | cons envelope rest => rfl

theorem relay_cons {watch : Watch} (opens : watch ≠ .closed) (envelope : Envelope)
    (rest : List Envelope) :
    relay watch (envelope :: rest) = envelope :: relay (watch.next envelope) rest := by
  rw [relay, if_neg opens]

/-- The stream ends with one terminal, after which only its declared suggestions may follow. -/
def EndsOnce (stream : List Envelope) : Prop :=
  ∃ answer terminal after, stream = answer ++ terminal :: after ∧
    (∀ envelope ∈ answer, isTerminal envelope = false) ∧ isTerminal terminal = true ∧
    (after = [] ∨ declaresPendingSuggestions terminal = true ∧
      ∃ suggestions, after = [suggestions] ∧ isSuggestions suggestions = true)

/-- The last envelope is a terminal whose declared suggestions have not been published. -/
def awaitsSuggestions (stream : List Envelope) : Bool :=
  stream.getLast?.any declaresPendingSuggestions

theorem relay_answer (answer stream : List Envelope)
    (unsettled : ∀ envelope ∈ answer, isTerminal envelope = false) :
    relay .terminal (answer ++ stream) = answer ++ relay .terminal stream := by
  induction answer with
  | nil => rfl
  | cons envelope rest ih =>
      have early := unsettled envelope List.mem_cons_self
      rw [List.cons_append, relay_cons (by simp), List.cons_append]
      simp only [Watch.next, early, Bool.false_eq_true, if_false]
      rw [ih fun later member => unsettled later (List.mem_cons_of_mem _ member)]

theorem isSuggestions_of_pending {envelope : Envelope}
    (pending : declaresPendingSuggestions envelope = true) : isSuggestions envelope = false := by
  unfold declaresPendingSuggestions at pending
  unfold isSuggestions
  split at pending
  · next payload => rw [payload]
  · contradiction

theorem not_pending_of_isSuggestions {envelope : Envelope}
    (suggestions : isSuggestions envelope = true) : declaresPendingSuggestions envelope = false := by
  cases pending : declaresPendingSuggestions envelope with
  | false => rfl
  | true => rw [isSuggestions_of_pending pending] at suggestions; contradiction

/-- The whole stream is relayed, and the watch closes unless suggestions are still awaited. -/
theorem EndsOnce.relayed {stream : List Envelope} (ends : EndsOnce stream) :
    relay .terminal stream = stream ∧
      (stream.foldl Watch.next .terminal = .closed ↔ awaitsSuggestions stream = false) := by
  obtain ⟨answer, terminal, after, rfl, unsettled, settles, follows⟩ := ends
  have opens : answer.foldl Watch.next .terminal = .terminal := by
    clear settles follows
    induction answer with
    | nil => rfl
    | cons envelope rest ih =>
        have early := unsettled envelope List.mem_cons_self
        simp only [List.foldl_cons, Watch.next, early, Bool.false_eq_true, if_false]
        exact ih fun later member => unsettled later (List.mem_cons_of_mem _ member)
  rw [relay_answer answer _ unsettled, relay_cons (by simp), List.foldl_append, opens,
    List.foldl_cons]
  rcases follows with rfl | ⟨pending, suggestions, rfl, offers⟩
  · cases pending : declaresPendingSuggestions terminal with
    | true => simp [Watch.next, settles, pending, awaitsSuggestions]
    | false => simp [Watch.next, settles, pending, awaitsSuggestions]
  · have last := not_pending_of_isSuggestions offers
    simp [Watch.next, settles, pending, offers, relay_cons, awaitsSuggestions, last]

/-- A late part of the stream that keeps its end still ends once. -/
theorem EndsOnce.dropped {stream : List Envelope} (ends : EndsOnce stream) {start : Nat}
    (early : start + 2 ≤ stream.length ∨ start = 0) :
    EndsOnce (stream.drop start) ∧
      awaitsSuggestions (stream.drop start) = awaitsSuggestions stream := by
  rcases early with early | rfl
  · constructor
    · obtain ⟨answer, terminal, after, rfl, unsettled, settles, follows⟩ := ends
      have short : after.length ≤ 1 := by
        rcases follows with rfl | ⟨-, suggestions, rfl, -⟩ <;> simp
      have within : start ≤ answer.length := by
        simp only [List.length_append, List.length_cons] at early
        omega
      refine ⟨answer.drop start, terminal, after, ?_, ?_, settles, follows⟩
      · rw [List.drop_append_of_le_length within]
      · intro envelope member
        exact unsettled envelope (List.mem_of_mem_drop member)
    · unfold awaitsSuggestions
      rw [List.getLast?_drop, if_neg (by omega)]
  · exact ⟨ends, rfl⟩

end LumenCopilot.Realtime

namespace LumenCopilot.Realtime

open Chat Library

/-- The sequence numbers of the published envelopes strictly increase. -/
def Increasing (stream : List Envelope) : Prop :=
  stream.Pairwise fun earlier later => earlier.seq < later.seq

instance (stream : List Envelope) : Decidable (Increasing stream) :=
  inferInstanceAs (Decidable (stream.Pairwise fun earlier later => earlier.seq < later.seq))

def PubsubMessage.envelopes : PubsubMessage → List Envelope
  | .subscribe => []
  | .message envelope => [envelope]

def Pipeline.envelopes : Pipeline → List Envelope
  | .idle => []
  | .ltrim envelope | .publish envelope => [envelope]

/-- These entries of the list are still to be replayed. -/
def RedisStream.rest (state : RedisStream) : List Envelope :=
  match state.phase with
  | .replaying entries => entries
  | _ => []

/-- These envelopes can still arrive on the channel. -/
def RedisStream.incoming (state : RedisStream) : List Envelope :=
  state.inbox.flatMap PubsubMessage.envelopes ++ state.pipeline.envelopes ++ state.unpublished

/-- This is the sequence number of the replay when it has ended. -/
def highWater (replayedSeq : Int) (entries : List Envelope) : Int :=
  entries.foldl (fun seq envelope => max seq envelope.seq) replayedSeq

/-- This is what the subscriber has still to relay. -/
def RedisStream.remaining (state : RedisStream) : List Envelope :=
  state.rest ++ state.incoming.filter fun envelope =>
    highWater state.replayedSeq state.rest < envelope.seq

def RedisStream.watch (state : RedisStream) : Watch :=
  match state.phase with
  | .done => .closed
  | .grace => .suggestions
  | .replaying _ => if state.awaitingSuggestions then .suggestions else .terminal
  | _ => .terminal

/-- The subscriber has read the list. -/
def SubscribePhase.hasRead : SubscribePhase → Bool
  | .idle | .confirming | .reading => false
  | _ => true

theorem highWater_lt_iff (replayedSeq : Int) (entries : List Envelope) (bound : Int) :
    highWater replayedSeq entries < bound ↔
      replayedSeq < bound ∧ ∀ envelope ∈ entries, (envelope.seq : Int) < bound := by
  induction entries generalizing replayedSeq with
  | nil => simp [highWater]
  | cons envelope rest ih =>
      have step : highWater replayedSeq (envelope :: rest) =
          highWater (max replayedSeq envelope.seq) rest := rfl
      rw [step, ih, max_lt_iff]
      simp only [List.mem_cons, forall_eq_or_imp, and_assoc]

theorem highWater_nil (replayedSeq : Int) : highWater replayedSeq [] = replayedSeq := rfl

/-- What has been yielded and what is still to be relayed make up the relay of the target. -/
structure RedisStream.Relays (target : List Envelope) (state : RedisStream) : Prop where
  hasRead : state.phase.hasRead = true
  relays : state.yielded ++ relay state.watch state.remaining = relay .terminal target
  watches : state.yielded.foldl Watch.next .terminal = state.watch

section

variable {target : List Envelope} {state after : RedisStream} {envelope : Envelope}
  (relays : state.Relays target)
include relays

/-- A step that leaves the view of the subscriber alone keeps the relay. -/
theorem RedisStream.Relays.frame (phase : after.phase = state.phase)
    (awaiting : after.awaitingSuggestions = state.awaitingSuggestions)
    (seq : after.replayedSeq = state.replayedSeq) (yielded : after.yielded = state.yielded)
    (remaining : state.phase ≠ .done → after.incoming.filter (fun envelope =>
        highWater state.replayedSeq state.rest < envelope.seq) =
      state.incoming.filter (fun envelope =>
        highWater state.replayedSeq state.rest < envelope.seq)) : after.Relays target := by
  have watch : after.watch = state.watch := by
    unfold RedisStream.watch
    rw [phase, awaiting]
  have rest : after.rest = state.rest := by
    unfold RedisStream.rest
    rw [phase]
  refine ⟨phase ▸ relays.hasRead, ?_, by rw [yielded, watch]; exact relays.watches⟩
  by_cases closed : state.phase = .done
  · have shut : state.watch = .closed := by
      unfold RedisStream.watch
      rw [closed]
    have whole := relays.relays
    rw [shut, relay_closed] at whole
    rw [yielded, watch, shut, relay_closed]
    exact whole
  · have same : after.remaining = state.remaining := by
      unfold RedisStream.remaining
      rw [rest, seq, remaining closed]
    rw [yielded, watch, same]
    exact relays.relays

/-- A step that yields the next envelope keeps the relay. -/
theorem RedisStream.Relays.yields (opens : state.watch ≠ .closed)
    (hasRead : after.phase.hasRead = true) (yielded : after.yielded = state.yielded ++ [envelope])
    (watch : after.watch = state.watch.next envelope)
    (remaining : after.watch ≠ .closed → state.remaining = envelope :: after.remaining)
    (first : ∃ later, state.remaining = envelope :: later) : after.Relays target := by
  refine ⟨hasRead, ?_, ?_⟩
  · obtain ⟨later, next⟩ := first
    rw [← relays.relays, yielded, next, relay_cons opens, ← watch]
    by_cases closed : after.watch = .closed
    · simp [closed]
    · obtain rfl : later = after.remaining := List.cons.inj (next.symm.trans (remaining closed)) |>.2
      simp
  · rw [yielded, List.foldl_append, relays.watches, watch]
    rfl

theorem RedisStream.Relays.replayed {rest : List Envelope}
    (replaying : state.phase = .replaying (envelope :: rest)) :
    (state.yieldReplayed envelope rest).Relays target := by
  have opens : state.watch ≠ .closed := by
    unfold RedisStream.watch
    rw [replaying]
    dsimp only
    split <;> simp
  have remaining : state.remaining = envelope :: (rest ++ state.incoming.filter fun later =>
      highWater (max state.replayedSeq envelope.seq) rest < later.seq) := by
    unfold RedisStream.remaining RedisStream.rest
    rw [replaying]
    rfl
  unfold RedisStream.yieldReplayed
  cases awaiting : state.awaitingSuggestions with
  | true =>
      have watch : state.watch = .suggestions := by simp [RedisStream.watch, replaying, awaiting]
      cases suggestions : isSuggestions envelope with
      | true =>
          exact relays.yields opens rfl rfl (by rw [watch]; simp [RedisStream.watch, Watch.next, suggestions])
            (fun closed => absurd rfl closed) ⟨_, remaining⟩
      | false =>
          refine relays.yields opens rfl rfl ?_ (fun _ => remaining) ⟨_, remaining⟩
          rw [watch]
          simp [RedisStream.watch, Watch.next, suggestions]
  | false =>
      have watch : state.watch = .terminal := by simp [RedisStream.watch, replaying, awaiting]
      cases terminal : isTerminal envelope with
      | true =>
          cases pending : declaresPendingSuggestions envelope with
          | true =>
              refine relays.yields opens rfl rfl ?_ (fun _ => remaining) ⟨_, remaining⟩
              rw [watch]
              simp [RedisStream.watch, Watch.next, terminal, pending]
          | false =>
              refine relays.yields opens rfl rfl ?_ (fun closed => absurd rfl closed) ⟨_, remaining⟩
              rw [watch]
              simp [RedisStream.watch, Watch.next, terminal, pending]
      | false =>
          refine relays.yields opens rfl rfl ?_ (fun _ => remaining) ⟨_, remaining⟩
          rw [watch]
          simp [RedisStream.watch, Watch.next, terminal]

/-- A stale message is not a part of what is still to be relayed. -/
theorem RedisStream.Relays.skips {message : PubsubMessage} {inbox : List PubsubMessage}
    (arrives : state.inbox = message :: inbox) (read : state.rest = [])
    (stale : ∀ envelope ∈ message.envelopes, (envelope.seq : Int) ≤ state.replayedSeq) :
    ({ state with inbox := inbox } : RedisStream).Relays target := by
  refine relays.frame rfl rfl rfl rfl fun _ => ?_
  have none_fresh : message.envelopes.filter (fun envelope =>
      highWater state.replayedSeq state.rest < envelope.seq) = [] := by
    rw [List.filter_eq_nil_iff, read, highWater_nil]
    intro envelope member
    simpa using stale envelope member
  unfold RedisStream.incoming
  rw [arrives]
  simp only [List.flatMap_cons, List.filter_append, none_fresh, List.nil_append]

end

/-- A fresh message is the next envelope to relay. -/
theorem RedisStream.remaining_fresh {state : RedisStream} {envelope : Envelope}
    {inbox : List PubsubMessage} (arrives : state.inbox = .message envelope :: inbox)
    (read : state.rest = []) (fresh : state.replayedSeq < envelope.seq) :
    state.remaining = envelope ::
      (inbox.flatMap PubsubMessage.envelopes ++ state.pipeline.envelopes ++
        state.unpublished).filter fun later => state.replayedSeq < later.seq := by
  unfold RedisStream.remaining RedisStream.incoming
  rw [read, arrives, highWater_nil]
  simp [PubsubMessage.envelopes, fresh]

/-- A receive drops a message that is not fresh or yields a fresh envelope. -/
inductive RedisStream.Receives (state : RedisStream) : RedisStream → Prop where
  | drops {message : PubsubMessage} {inbox : List PubsubMessage}
      (listens : state.phase = .live ∨ state.phase = .grace) (arrives : state.inbox = message :: inbox)
      (stale : ∀ envelope ∈ message.envelopes, (envelope.seq : Int) ≤ state.replayedSeq) :
      state.Receives { state with inbox := inbox }
  | live {envelope : Envelope} {inbox : List PubsubMessage} (listens : state.phase = .live)
      (arrives : state.inbox = .message envelope :: inbox) (fresh : state.replayedSeq < envelope.seq) :
      state.Receives (({ state with inbox := inbox } : RedisStream).yieldLive envelope)
  | grace {envelope : Envelope} {inbox : List PubsubMessage} (listens : state.phase = .grace)
      (arrives : state.inbox = .message envelope :: inbox) (fresh : state.replayedSeq < envelope.seq) :
      state.Receives (({ state with inbox := inbox } : RedisStream).yieldGrace envelope)

theorem redisStep_receives {state after : RedisStream}
    (receives : redisStep state .receive = some after) : state.Receives after := by
  obtain ⟨unpublished, pipeline, replay, inbox, phase, replayedSeq, awaiting, yielded⟩ := state
  cases phase with
  | live =>
      cases inbox with
      | nil => simp [redisStep] at receives
      | cons message inbox =>
          cases message with
          | subscribe =>
              obtain rfl := Option.some.inj receives
              exact .drops (.inl rfl) rfl (by simp [PubsubMessage.envelopes])
          | message envelope =>
              simp only [redisStep] at receives
              split at receives
              · next stale =>
                  obtain rfl := Option.some.inj receives
                  exact .drops (.inl rfl) rfl (by simpa [PubsubMessage.envelopes] using stale)
              · next fresh =>
                  obtain rfl := Option.some.inj receives
                  exact .live rfl rfl (Int.not_le.mp fresh)
  | grace =>
      cases inbox with
      | nil => simp [redisStep] at receives
      | cons message inbox =>
          cases message with
          | subscribe =>
              obtain rfl := Option.some.inj receives
              exact .drops (.inr rfl) rfl (by simp [PubsubMessage.envelopes])
          | message envelope =>
              simp only [redisStep] at receives
              split at receives
              · next stale =>
                  obtain rfl := Option.some.inj receives
                  exact .drops (.inr rfl) rfl (by simpa [PubsubMessage.envelopes] using stale)
              · next fresh =>
                  obtain rfl := Option.some.inj receives
                  exact .grace rfl rfl (Int.not_le.mp fresh)
  | _ => simp [redisStep] at receives

theorem RedisStream.Relays.received {target : List Envelope} {state after : RedisStream}
    (relays : state.Relays target) (receives : state.Receives after) : after.Relays target := by
  cases receives with
  | drops listens arrives stale =>
      have read : state.rest = [] := by
        rcases listens with listens | listens <;> simp [RedisStream.rest, listens]
      exact relays.skips arrives read stale
  | @live envelope inbox listens arrives fresh =>
      have read : state.rest = [] := by simp [RedisStream.rest, listens]
      have watch : state.watch = .terminal := by simp [RedisStream.watch, listens]
      have remaining := RedisStream.remaining_fresh arrives read fresh
      have opens : state.watch ≠ .closed := by simp [watch]
      unfold RedisStream.yieldLive
      cases terminal : isTerminal envelope with
      | true =>
          cases pending : declaresPendingSuggestions envelope with
          | true =>
              refine relays.yields opens rfl rfl ?_ (fun _ => remaining) ⟨_, remaining⟩
              simp [RedisStream.watch, listens, Watch.next, terminal, pending]
          | false =>
              refine relays.yields opens rfl rfl ?_ (fun closed => absurd rfl closed) ⟨_, remaining⟩
              simp [RedisStream.watch, listens, Watch.next, terminal, pending]
      | false =>
          refine relays.yields opens ?_ rfl ?_ (fun _ => ?_) ⟨_, remaining⟩
          · simp [listens, SubscribePhase.hasRead]
          · simp [RedisStream.watch, Watch.next, terminal, listens]
          · rw [remaining]
            simp [RedisStream.remaining, RedisStream.rest, RedisStream.incoming, listens, highWater]
  | @grace envelope inbox listens arrives fresh =>
      have read : state.rest = [] := by simp [RedisStream.rest, listens]
      have watch : state.watch = .suggestions := by simp [RedisStream.watch, listens]
      have remaining := RedisStream.remaining_fresh arrives read fresh
      have opens : state.watch ≠ .closed := by simp [watch]
      unfold RedisStream.yieldGrace
      cases suggestions : isSuggestions envelope with
      | true =>
          refine relays.yields opens rfl rfl ?_ (fun closed => absurd rfl closed) ⟨_, remaining⟩
          simp [RedisStream.watch, listens, Watch.next, suggestions]
      | false =>
          refine relays.yields opens ?_ rfl ?_ (fun _ => ?_) ⟨_, remaining⟩
          · simp [listens, SubscribePhase.hasRead]
          · simp [RedisStream.watch, Watch.next, suggestions, listens]
          · rw [remaining]
            simp [RedisStream.remaining, RedisStream.rest, RedisStream.incoming, listens, highWater]

/-- The end of the list opens the live phase or the grace. -/
theorem RedisStream.Relays.drained {target : List Envelope} {state : RedisStream}
    (relays : state.Relays target) (drained : state.phase = .replaying []) :
    ({ state with phase := if state.awaitingSuggestions then .grace else .live } :
      RedisStream).Relays target := by
  obtain ⟨-, whole, watches⟩ := relays
  cases awaiting : state.awaitingSuggestions with
  | true =>
      refine ⟨rfl, ?_, ?_⟩
      · simpa [RedisStream.remaining, RedisStream.rest, RedisStream.watch, RedisStream.incoming,
          drained, awaiting] using whole
      · simpa [RedisStream.watch, drained, awaiting] using watches
  | false =>
      refine ⟨rfl, ?_, ?_⟩
      · simpa [RedisStream.remaining, RedisStream.rest, RedisStream.watch, RedisStream.incoming,
          drained, awaiting] using whole
      · simpa [RedisStream.watch, drained, awaiting] using watches

/-- Every step after the read keeps the relay. -/
theorem RedisStream.Relays.step {target : List Envelope} {state after : RedisStream}
    (relays : state.Relays target) {action : RedisAction}
    (steps : redisStep state action = some after) : after.Relays target := by
  cases action with
  | rpush =>
      simp only [redisStep] at steps
      split at steps
      · next idle unpublished =>
          obtain rfl := Option.some.inj steps
          refine relays.frame rfl rfl rfl rfl fun _ => ?_
          simp [RedisStream.incoming, idle, unpublished, Pipeline.envelopes]
      · contradiction
  | ltrim =>
      simp only [redisStep] at steps
      split at steps
      · next pending =>
          obtain rfl := Option.some.inj steps
          refine relays.frame rfl rfl rfl rfl fun _ => ?_
          simp [RedisStream.incoming, pending, Pipeline.envelopes]
      · contradiction
  | publish =>
      simp only [redisStep] at steps
      split at steps
      · next pending =>
          obtain rfl := Option.some.inj steps
          have listens : state.phase ≠ .idle := by
            intro idle
            have read := relays.hasRead
            rw [idle] at read
            contradiction
          refine relays.frame rfl rfl rfl rfl fun _ => ?_
          simp [RedisStream.incoming, RedisStream.deliver, listens, pending, Pipeline.envelopes,
            PubsubMessage.envelopes]
      · contradiction
  | subscribe =>
      have read := relays.hasRead
      simp only [redisStep] at steps
      split at steps
      · next idle => rw [idle] at read; contradiction
      · contradiction
  | confirm =>
      have read := relays.hasRead
      simp only [redisStep] at steps
      split at steps
      · next confirming _ => rw [confirming] at read; contradiction
      · next confirming _ => rw [confirming] at read; contradiction
      · contradiction
  | lrange =>
      have read := relays.hasRead
      simp only [redisStep] at steps
      split at steps
      · next reading => rw [reading] at read; contradiction
      · contradiction
  | replay =>
      simp only [redisStep] at steps
      split at steps
      · next replaying =>
          obtain rfl := Option.some.inj steps
          exact relays.replayed replaying
      · next drained =>
          obtain rfl := Option.some.inj steps
          exact relays.drained drained
      · contradiction
  | receive => exact relays.received (redisStep_receives steps)

/-- A subscriber that has nothing left to receive has relayed its whole target. -/
theorem RedisStream.Relays.settled {target : List Envelope} {state : RedisStream}
    (relays : state.Relays target) (stuck : ∀ action, redisStep state action = none) :
    state.yielded = relay .terminal target := by
  obtain ⟨read, whole, -⟩ := relays
  suffices finished : relay state.watch state.remaining = [] by
    rw [← whole, finished, List.append_nil]
  obtain ⟨unpublished, pipeline, replay, inbox, phase, replayedSeq, awaiting, yielded⟩ := state
  have idle : pipeline = .idle := by
    cases pipeline with
    | idle => rfl
    | ltrim envelope => exact absurd (stuck .ltrim) (by simp [redisStep])
    | publish envelope => exact absurd (stuck .publish) (by simp [redisStep])
  have published : unpublished = [] := by
    cases unpublished with
    | nil => rfl
    | cons envelope rest => exact absurd (stuck .rpush) (by simp [redisStep, idle])
  have received : phase = .live ∨ phase = .grace → inbox = [] := by
    intro listens
    cases inbox with
    | nil => rfl
    | cons message rest =>
        have waits := stuck .receive
        rcases listens with rfl | rfl <;> cases message <;> simp [redisStep] at waits <;>
          split at waits <;> contradiction
  cases phase with
  | idle => contradiction
  | confirming => contradiction
  | reading => contradiction
  | replaying entries =>
      cases entries with
      | nil => exact absurd (stuck .replay) (by simp [redisStep])
      | cons envelope rest => exact absurd (stuck .replay) (by simp [redisStep])
  | live =>
      simp [RedisStream.remaining, RedisStream.rest, RedisStream.incoming, received (.inl rfl), idle,
        published, Pipeline.envelopes]
  | grace =>
      simp [RedisStream.remaining, RedisStream.rest, RedisStream.incoming, received (.inr rfl), idle,
        published, Pipeline.envelopes]
  | done => exact relay_closed _

end LumenCopilot.Realtime
