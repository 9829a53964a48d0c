import LumenCopilot.Construction.Library.Program
import LumenCopilot.Construction.Runs.System

namespace LumenCopilot.Runs

open Python

inductive RunDeliveryKind where
  | inbox
  | digest
  deriving DecidableEq

inductive RunDeliveryStatus where
  | pending
  | delivered
  deriving DecidableEq

/-- This is a row of `run_deliveries` for one run, as `deliver_run` creates it. -/
structure RunDelivery where
  recipientId : Nat
  kind : RunDeliveryKind
  status : RunDeliveryStatus
  summary : Option Text
  deriving DecidableEq

inductive DigestCadence where
  | daily
  | weekly
  deriving DecidableEq

/-- This is `ScheduleDelivery` with its defaults. -/
structure ScheduleDelivery where
  inbox : Bool := true
  digest : Option DigestCadence := none
  deriving DecidableEq

/-- This is `exists_for_run`. -/
def existsForRun (kind : RunDeliveryKind) (deliveries : List RunDelivery) : Bool :=
  deliveries.any fun delivery => delivery.kind = kind

/-- This is `deliver_run` where its inserts succeed. -/
def deliverRun (config : ScheduleDelivery) (run : RunRow) (deliveries : List RunDelivery) :
    List RunDelivery :=
  if run.status.isTerminal then
    let digested :=
      if config.digest.isSome && !existsForRun .digest deliveries then
        deliveries ++ [⟨run.ownerId, .digest, .pending, run.summary⟩]
      else deliveries
    if config.inbox && !existsForRun .inbox digested then
      digested ++ [⟨run.ownerId, .inbox, .delivered, run.summary⟩]
    else digested
  else deliveries

/-- These are the row of the last change and the deliveries so far. -/
structure Delivered where
  run : Option RunRow
  deliveries : List RunDelivery
  deriving DecidableEq

/-- A delivery takes the row that its transaction has written. -/
def Delivered.record (config : ScheduleDelivery) (delivered : Delivered) : Event → Delivered
  | .change _ _ _ after => { delivered with run := some after }
  | .effect _ written =>
      if written = .delivered then
        match delivered.run with
        | some run => { delivered with deliveries := deliverRun config run delivered.deliveries }
        | none => delivered
      else delivered

/-- These are the committed deliveries; their transactions follow each other, as they hold the row. -/
def runDeliveries (config : ScheduleDelivery) (log : List Event) : List RunDelivery :=
  (log.foldl (Delivered.record config) ⟨none, []⟩).deliveries

/-- This is the row that an execution, its failure backstop or the reaper takes into a terminal status. -/
def Event.outcome : Event → Option RunRow
  | .change _ cause before after =>
      if cause ≠ .control && !before.status.isTerminal && after.status.isTerminal then some after
      else none
  | .effect _ _ => none

/-- These are the transitions into a terminal status in their order. -/
def outcomes (log : List Event) : List RunRow := log.filterMap Event.outcome

/-- This is the inbox delivery that announces an outcome. -/
def RunRow.announcement (run : RunRow) : RunDelivery :=
  ⟨run.ownerId, .inbox, .delivered, run.summary⟩

/-- The inserts of a delivery succeed. -/
def Action.inserts : Action → Bool
  | .emit _ fails => !fails
  | _ => true

end LumenCopilot.Runs

namespace LumenCopilot.Runs

open Library

inductive DeliveryStatus where
  | pending
  | delivered
  | read
  | failed
  deriving DecidableEq

/-- This is what the sweeps and the readers use of a row of `run_deliveries`. -/
structure Delivery where
  recipientId : Nat
  kind : RunDeliveryKind
  status : DeliveryStatus
  readAt : Option Int
  deriving DecidableEq

/-- This is where a sweep or a mark-read request stands; the name is that of what comes next. -/
inductive InboxPhase where
  | sweeping (batch : List Nat) (done : Nat)
  | delivering (batch : List Nat) (done : Nat) (status : DeliveryStatus)
  | finding (recipientId place : Nat)
  | reading (place : Nat)
  | marking (place : Nat)
  | marked
  | committed
  | aborted
  deriving DecidableEq

/-- This is a transaction with the rows that it has written. -/
structure InboxSession where
  phase : InboxPhase
  writes : List (Nat × Delivery)
  deriving DecidableEq

/-- These are the committed deliveries, oldest first, the transactions, and the batches that committed
sweeps have reported in `run.digest_sent`. -/
structure Inbox where
  deliveries : List Delivery
  sessions : List InboxSession
  sent : List (List Nat)
  deriving DecidableEq

/-- Sweeps and requests come, go on, commit and abort. -/
inductive InboxAction where
  | sweep (batchLimit : Nat)
  | markRead (recipientId place : Nat)
  | step (session : Nat) (now : Int)
  | commit (session : Nat)
  | abort (session : Nat)
  deriving DecidableEq

/-- This is `list_pending_digest`. -/
def Inbox.listPendingDigest (inbox : Inbox) (limit : Nat) : List Nat :=
  ((List.range inbox.deliveries.length).filter fun place =>
    inbox.deliveries[place]?.any fun delivery =>
      delivery.status = .pending && delivery.kind = .digest).take limit

/-- The row is locked while a transaction has written it. -/
def Inbox.locked (inbox : Inbox) (place : Nat) : Bool :=
  inbox.sessions.any fun session => writesAt place session.writes

/-- This is the next step of a transaction: `build_digest_for_tenant` marks one delivery after the other,
and `RunDeliveryService.mark_read` finds the delivery before it marks it. -/
def InboxSession.advance (inbox : Inbox) (session : InboxSession) (now : Int) : Option InboxSession :=
  match session.phase with
  | .sweeping batch done => do
      let place ← batch[done]?
      let delivery ← inbox.deliveries[place]?
      some { session with phase := .delivering batch done delivery.status }
  | .delivering batch done status => do
      let place ← batch[done]?
      if status = .delivered then some { session with phase := .sweeping batch (done + 1) }
      else if inbox.locked place then none
      else
        let delivery ← inbox.deliveries[place]?
        some {
          phase := .sweeping batch (done + 1)
          writes := session.writes ++ [(place, { delivery with status := .delivered })] }
  | .finding recipientId place =>
      match inbox.deliveries[place]? with
      | some delivery =>
          if delivery.recipientId = recipientId then some { session with phase := .reading place }
          else some { session with phase := .aborted }
      | none => some { session with phase := .aborted }
  | .reading place => do
      let delivery ← inbox.deliveries[place]?
      if delivery.status = .read then some { session with phase := .marked }
      else some { session with phase := .marking place }
  | .marking place =>
      if inbox.locked place then none
      else do
        let delivery ← inbox.deliveries[place]?
        some {
          phase := .marked
          writes := session.writes ++ [(place, { delivery with status := .read, readAt := some now })] }
  | .marked | .committed | .aborted => none

/-- This is the batch that the session reports, where nothing is left but its commit. -/
def InboxSession.finished (session : InboxSession) : Option (List (List Nat)) :=
  match session.phase with
  | .sweeping batch done => if done = batch.length then some [batch] else none
  | .marked => some []
  | _ => none

/-- The session is in flight. -/
def InboxSession.live (session : InboxSession) : Bool :=
  session.phase ≠ .committed && session.phase ≠ .aborted

/-- This is one step of the sweeps and requests. -/
def inboxStep (inbox : Inbox) : InboxAction → Option Inbox
  | .sweep batchLimit => some { inbox with
      sessions := inbox.sessions ++ [⟨.sweeping (inbox.listPendingDigest batchLimit) 0, []⟩] }
  | .markRead recipientId place => some { inbox with
      sessions := inbox.sessions ++ [⟨.finding recipientId place, []⟩] }
  | .step index now => do
      let session ← inbox.sessions[index]?
      let next ← session.advance inbox now
      some { inbox with sessions := inbox.sessions.set index next }
  | .commit index => do
      let session ← inbox.sessions[index]?
      let reported ← session.finished
      some {
        deliveries := applyWrites inbox.deliveries session.writes
        sessions := inbox.sessions.set index ⟨.committed, []⟩
        sent := inbox.sent ++ reported }
  | .abort index => do
      let session ← inbox.sessions[index]?
      if session.live then some { inbox with sessions := inbox.sessions.set index ⟨.aborted, []⟩ }
      else none

/-- The row that a transaction is about to mark still has a status that its mark moves forward. -/
def InboxSession.current (inbox : Inbox) (session : InboxSession) : Bool :=
  match session.phase with
  | .sweeping batch done | .delivering batch done _ =>
      (batch[done]?.bind fun place => inbox.deliveries[place]?).all fun delivery =>
        delivery.status = .pending
  | .marking place => inbox.deliveries[place]?.all fun delivery => delivery.status ≠ .read
  | _ => true

/-- Every step of a transaction on a row is on a current one. -/
def current (inbox : Inbox) : InboxAction → Bool
  | .step index _ => inbox.sessions[index]?.all fun session => session.current inbox
  | _ => true

/-- The deliveries are read exactly when they have the time of it. -/
def Delivery.Consistent (delivery : Delivery) : Prop := delivery.status = .read ↔ delivery.readAt.isSome

end LumenCopilot.Runs
