import LumenCopilot.Construction.Sandbox.Accounting

namespace LumenCopilot.Sandbox

open Library

/-- The owners of leases make these operations, each with its own token. -/
inductive LeaseOperation where
  | acquire (tenantId runId : Uuid) (maxConcurrency : Int) (ttlSeconds : Nat) (ownerToken : Uuid)
  | renew (tenantId runId ownerToken : Uuid) (ttlSeconds : Nat)
  | release (tenantId runId ownerToken : Uuid)
  | usage (tenantId : Uuid)
  deriving DecidableEq

/-- A call happens at a reading of the clock and at an instant of the server. -/
structure LeaseCall where
  now : Time
  server : Time
  operation : LeaseOperation
  deriving DecidableEq

/-- This is what an operation returns or raises. -/
inductive LeaseReply where
  | admitted
  | refused
  | alreadyAdmitted
  | renewed
  | ownershipLost
  | released
  | used (active : Nat)
  deriving DecidableEq

def LeaseReply.ofAcquire : Except AccountingError Bool → LeaseReply
  | .ok true => .admitted
  | .ok false => .refused
  | .error _ => .alreadyAdmitted

def LeaseReply.ofRenew : Except AccountingError Unit → LeaseReply
  | .ok _ => .renewed
  | .error _ => .ownershipLost

/-- A lease store answers calls, and its leases have a token and an expiry. -/
structure LeaseStore where
  State : Type
  empty : State
  elapse : Time → State → State
  perform : LeaseCall → State → LeaseReply × State
  held : State → Uuid × Uuid → Option (Uuid × Time)
  unexpired : Time → State → Uuid → List Uuid

/-- This is the state after a history of calls. -/
def LeaseStore.after (store : LeaseStore) (history : List LeaseCall) : store.State :=
  history.foldl (fun state call => (store.perform call state).2) store.empty

/-- This is the reply to a call after a history of calls. -/
def LeaseStore.reply (store : LeaseStore) (history : List LeaseCall) (call : LeaseCall) :
    LeaseReply :=
  (store.perform call (store.after history)).1

/-- These are the leases that a call finds: the server has dropped the keys that are due. -/
def LeaseStore.found (store : LeaseStore) (history : List LeaseCall) (call : LeaseCall) :
    Uuid × Uuid → Option (Uuid × Time) :=
  store.held (store.elapse call.server (store.after history))

/-- These are the leases after a history of calls. -/
def LeaseStore.leases (store : LeaseStore) (history : List LeaseCall) :
    Uuid × Uuid → Option (Uuid × Time) :=
  store.held (store.after history)

/-- A stored expiry and its owner token make a lease. -/
def leaseOf (expiry : Option Time) (token : Option Uuid) : Option (Uuid × Time) :=
  expiry.bind fun expiry => token.map fun token => (token, expiry)

namespace RedisSandboxAccounting

/-- The server drops the lease keys that are due, of every tenant. -/
def elapse (server : Time) (store : RedisSandboxAccounting) : RedisSandboxAccounting :=
  { store with leases := fun tenantId => (store.leases tenantId).elapse server }

/-- The server drops the keys that are due before it runs the script of the call. -/
def perform (call : LeaseCall) (store : RedisSandboxAccounting) :
    LeaseReply × RedisSandboxAccounting :=
  let store := store.elapse call.server
  match call.operation with
  | .acquire tenantId runId maxConcurrency ttlSeconds ownerToken =>
      let answer := store.acquireLease call.now call.server tenantId runId maxConcurrency ttlSeconds
        (some ownerToken)
      (.ofAcquire answer.1, answer.2)
  | .renew tenantId runId ownerToken ttlSeconds =>
      let answer := store.renewLease call.now call.server tenantId runId ownerToken ttlSeconds
      (.ofRenew answer.1, answer.2)
  | .release tenantId runId ownerToken =>
      (.released, store.releaseLease call.server tenantId runId (some ownerToken))
  | .usage tenantId =>
      let answer := store.usage call.now call.server tenantId
      (.used answer.1.1, answer.2)

def held (store : RedisSandboxAccounting) (key : Uuid × Uuid) : Option (Uuid × Time) :=
  leaseOf ((store.leases key.1).leases.entries.lookup key.2)
    ((store.leases key.1).owners.entries.lookup key.2)

def unexpired (now : Time) (store : RedisSandboxAccounting) (tenantId : Uuid) : List Uuid :=
  ((store.leases tenantId).leases.entries.filter fun _ expiry => now < expiry).keys

/-- These are the lease operations of the Redis store. -/
def leaseStore : LeaseStore where
  State := RedisSandboxAccounting
  empty := empty
  elapse := elapse
  perform := perform
  held := held
  unexpired := unexpired

end RedisSandboxAccounting

namespace InMemorySandboxAccounting

def perform (call : LeaseCall) (store : InMemorySandboxAccounting) :
    LeaseReply × InMemorySandboxAccounting :=
  match call.operation with
  | .acquire tenantId runId maxConcurrency ttlSeconds ownerToken =>
      let answer := store.acquireLease call.now tenantId runId maxConcurrency ttlSeconds
        (some ownerToken)
      (.ofAcquire answer.1, answer.2)
  | .renew tenantId runId ownerToken ttlSeconds =>
      let answer := store.renewLease call.now tenantId runId ownerToken ttlSeconds
      (.ofRenew answer.1, answer.2)
  | .release tenantId runId ownerToken =>
      (.released, store.releaseLease tenantId runId (some ownerToken))
  | .usage tenantId => (.used (store.usage call.now tenantId).1, store)

def held (store : InMemorySandboxAccounting) (key : Uuid × Uuid) : Option (Uuid × Time) :=
  leaseOf ((store.leases key.1).lookup key.2) (store.owners.lookup key)

def unexpired (now : Time) (store : InMemorySandboxAccounting) (tenantId : Uuid) : List Uuid :=
  ((store.leases tenantId).filter fun _ expiry => now < expiry).keys

/-- These are the lease operations of the single-process store, which drops nothing by itself. -/
def leaseStore : LeaseStore where
  State := InMemorySandboxAccounting
  empty := empty
  elapse := fun _ store => store
  perform := perform
  held := held
  unexpired := unexpired

end InMemorySandboxAccounting

end LumenCopilot.Sandbox
