import LumenCopilot.Construction.Chat.Envelope

namespace LumenCopilot.Realtime

open Chat

/-- This is `_MAX_REPLAY`. -/
def maxReplay : Nat := 512

/-- This is `is_terminal`. -/
def isTerminal (envelope : Envelope) : Bool := envelope.payload.isTerminal

/-- This is `_declares_pending_suggestions`. -/
def declaresPendingSuggestions (envelope : Envelope) : Bool :=
  match envelope.payload with
  | .done _ pendingSuggestions => pendingSuggestions
  | _ => false

/-- This is `_is_suggestions`. -/
def isSuggestions (envelope : Envelope) : Bool :=
  match envelope.payload with
  | .suggestions _ => true
  | _ => false

/-- A capped list keeps its newest entries. -/
def capped (entries : List Envelope) : List Envelope := entries.drop (entries.length - maxReplay)

/-- This is `get_terminal` of both backplanes, on their replay list. -/
def getTerminal (replay : List Envelope) : Option Envelope := replay.reverse.find? isTerminal

/-- The commands of one `publish` run one after the other on the server. -/
inductive Pipeline where
  | idle
  | ltrim (envelope : Envelope)
  | publish (envelope : Envelope)
  deriving DecidableEq

/-- The connection of the subscriber receives its confirmation and the published payloads. -/
inductive PubsubMessage where
  | subscribe
  | message (envelope : Envelope)
  deriving DecidableEq

/-- These are the awaits of `subscribe`, with the entries of the list that are still to replay. -/
inductive SubscribePhase where
  | idle
  | confirming
  | reading
  | replaying (entries : List Envelope)
  | live
  | grace
  | done
  deriving DecidableEq

/-- One stream has its publisher, its replay list and one subscriber with its connection. -/
structure RedisStream where
  unpublished : List Envelope
  pipeline : Pipeline
  replay : List Envelope
  inbox : List PubsubMessage
  phase : SubscribePhase
  replayedSeq : Int
  awaitingSuggestions : Bool
  yielded : List Envelope
  deriving DecidableEq

def RedisStream.initial (stream : List Envelope) : RedisStream :=
  ⟨stream, .idle, [], [], .idle, -1, false, []⟩

/-- An action is a command of the publisher or a step of the subscriber. -/
inductive RedisAction where
  | rpush
  | ltrim
  | publish
  | subscribe
  | confirm
  | lrange
  | replay
  | receive
  deriving DecidableEq

/-- Redis delivers to a registered connection only. -/
def RedisStream.deliver (state : RedisStream) (envelope : Envelope) : List PubsubMessage :=
  if state.phase = .idle then state.inbox else state.inbox ++ [.message envelope]

/-- The loop over the replay list yields an entry, and the last one opens the live phase. -/
def RedisStream.yieldReplayed (state : RedisStream) (envelope : Envelope) (rest : List Envelope) :
    RedisStream :=
  let yielding := { state with
    replayedSeq := max state.replayedSeq envelope.seq
    yielded := state.yielded ++ [envelope] }
  if state.awaitingSuggestions then
    if isSuggestions envelope then { yielding with phase := .done }
    else { yielding with phase := .replaying rest }
  else if isTerminal envelope then
    if declaresPendingSuggestions envelope then
      { yielding with phase := .replaying rest, awaitingSuggestions := true }
    else { yielding with phase := .done }
  else { yielding with phase := .replaying rest }

/-- The live loop yields an envelope and ends at a terminal. -/
def RedisStream.yieldLive (state : RedisStream) (envelope : Envelope) : RedisStream :=
  let yielding := { state with yielded := state.yielded ++ [envelope] }
  if isTerminal envelope then
    if declaresPendingSuggestions envelope then
      { yielding with phase := .grace, awaitingSuggestions := true }
    else { yielding with phase := .done }
  else yielding

/-- The relay of `_grace_relay` yields an envelope and ends at the suggestions. -/
def RedisStream.yieldGrace (state : RedisStream) (envelope : Envelope) : RedisStream :=
  let yielding := { state with yielded := state.yielded ++ [envelope] }
  if isSuggestions envelope then { yielding with phase := .done } else yielding

/-- This is one step of `RedisBackplane.publish` or of `RedisBackplane.subscribe`, whose grace does
not expire. -/
def redisStep (state : RedisStream) : RedisAction → Option RedisStream
  | .rpush =>
      match state.pipeline, state.unpublished with
      | .idle, envelope :: rest =>
          some { state with
            unpublished := rest
            pipeline := .ltrim envelope
            replay := state.replay ++ [envelope] }
      | _, _ => none
  | .ltrim =>
      match state.pipeline with
      | .ltrim envelope =>
          some { state with pipeline := .publish envelope, replay := capped state.replay }
      | _ => none
  | .publish =>
      match state.pipeline with
      | .publish envelope => some { state with pipeline := .idle, inbox := state.deliver envelope }
      | _ => none
  | .subscribe =>
      match state.phase with
      | .idle => some { state with phase := .confirming, inbox := state.inbox ++ [.subscribe] }
      | _ => none
  | .confirm =>
      match state.phase, state.inbox with
      | .confirming, .subscribe :: rest => some { state with phase := .reading, inbox := rest }
      | .confirming, .message _ :: rest => some { state with inbox := rest }
      | _, _ => none
  | .lrange =>
      match state.phase with
      | .reading => some { state with phase := .replaying state.replay }
      | _ => none
  | .replay =>
      match state.phase with
      | .replaying (envelope :: rest) => some (state.yieldReplayed envelope rest)
      | .replaying [] =>
          some { state with phase := if state.awaitingSuggestions then .grace else .live }
      | _ => none
  | .receive =>
      match state.phase, state.inbox with
      | .live, .message envelope :: rest =>
          let received := { state with inbox := rest }
          if (envelope.seq : Int) ≤ state.replayedSeq then some received
          else some (received.yieldLive envelope)
      | .grace, .message envelope :: rest =>
          let received := { state with inbox := rest }
          if (envelope.seq : Int) ≤ state.replayedSeq then some received
          else some (received.yieldGrace envelope)
      | .live, .subscribe :: rest => some { state with inbox := rest }
      | .grace, .subscribe :: rest => some { state with inbox := rest }
      | _, _ => none

/-- This is the number of envelopes that the publisher has trimmed the list for. -/
def RedisStream.trimmed (stream : List Envelope) (state : RedisStream) : Nat :=
  match state.pipeline with
  | .ltrim _ => stream.length - state.unpublished.length - 1
  | _ => stream.length - state.unpublished.length

/-- The subscriber of the in-process backplane waits on its queue. -/
inductive QueuePhase where
  | idle
  | live
  | grace
  | done
  deriving DecidableEq

/-- One stream of the in-process backplane has its replay buffer and the queue of one subscriber. -/
structure InMemoryStream where
  unpublished : List Envelope
  replay : List Envelope
  queue : List Envelope
  phase : QueuePhase
  yielded : List Envelope
  deriving DecidableEq

def InMemoryStream.initial (stream : List Envelope) : InMemoryStream := ⟨stream, [], [], .idle, []⟩

inductive InMemoryAction where
  | publish
  | subscribe
  | receive
  deriving DecidableEq

/-- The queue is registered from the subscription to the end of the generator. -/
def InMemoryStream.put (state : InMemoryStream) (envelope : Envelope) : List Envelope :=
  match state.phase with
  | .live | .grace => state.queue ++ [envelope]
  | .idle | .done => state.queue

/-- This is `InMemoryBackplane.publish` or one step of `InMemoryBackplane.subscribe`, whose grace
does not expire. -/
def inMemoryStep (state : InMemoryStream) : InMemoryAction → Option InMemoryStream
  | .publish =>
      match state.unpublished with
      | envelope :: rest =>
          some { state with
            unpublished := rest
            replay := capped (state.replay ++ [envelope])
            queue := state.put envelope }
      | [] => none
  | .subscribe =>
      match state.phase with
      | .idle => some { state with phase := .live, queue := state.replay }
      | _ => none
  | .receive =>
      match state.phase, state.queue with
      | .live, envelope :: rest =>
          let received := { state with queue := rest, yielded := state.yielded ++ [envelope] }
          if isTerminal envelope then
            some { received with
              phase := if declaresPendingSuggestions envelope then .grace else .done }
          else some received
      | .grace, envelope :: rest =>
          let received := { state with queue := rest, yielded := state.yielded ++ [envelope] }
          some { received with phase := if isSuggestions envelope then .done else .grace }
      | _, _ => none

end LumenCopilot.Realtime
