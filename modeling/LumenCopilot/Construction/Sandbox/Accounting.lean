import LumenCopilot.Construction.Library.Dict
import Mathlib

namespace LumenCopilot.Sandbox

open Library

/-- Tenants, code runs and owner tokens are named by UUIDs. -/
abbrev Uuid : Type := Nat

/-- The clock counts microseconds since the epoch. -/
abbrev Time : Type := Nat

def second : Time := 1000000

def utcDay : Time := 86400 * second

/-- This is `_daily_key`: the tenant and its UTC date. -/
abbrev DailyKey : Type := Uuid × Nat

def dailyKey (tenantId : Uuid) (now : Time) : DailyKey := (tenantId, now / utcDay)

/-- This is `_seconds_until_utc_midnight`. -/
def secondsUntilUtcMidnight (now : Time) : Nat :=
  let tomorrow := (now / utcDay + 1) * utcDay
  max 1 ((tomorrow - now + (second - 1)) / second) + 3600

/-- These are the two exceptions of the accounting store. -/
inductive AccountingError where
  | executionAlreadyAdmitted
  | accountingUnavailable
  deriving DecidableEq

/-- A Redis collection is a key with its entries and the instant at which the server drops it. -/
structure RedisKey (ν : Type) where
  entries : Dict Uuid ν
  deadline : Option Time

/-- An absent key is an empty collection without a deadline. -/
def RedisKey.absent {ν : Type} : RedisKey ν := ⟨∅, none⟩

/-- The server drops a key whose deadline has come. -/
def RedisKey.elapse {ν : Type} (server : Time) (key : RedisKey ν) : RedisKey ν :=
  match key.deadline with
  | some deadline => if deadline ≤ server then .absent else key
  | none => key

/-- A collection that becomes empty is deleted with its deadline. -/
def RedisKey.write {ν : Type} (entries : Dict Uuid ν) (key : RedisKey ν) : RedisKey ν :=
  if entries.size = 0 then .absent else { key with entries := entries }

/-- This is `TTL`: the remaining time, rounded to seconds. -/
def RedisKey.ttl {ν : Type} (server : Time) (key : RedisKey ν) : Int :=
  match key.deadline with
  | some deadline => ((deadline - server + second / 2) / second : Nat)
  | none => -1

/-- This is `EXPIRE` with the greater of the given and the remaining seconds. -/
def RedisKey.expire {ν : Type} (server : Time) (ttlSeconds : Nat) (key : RedisKey ν) :
    RedisKey ν :=
  { key with deadline := some (server + (max (ttlSeconds : Int) (key.ttl server)).toNat * second) }

/-- One tenant has a sorted set of expiries by run and a hash of owner tokens by run. -/
structure LeaseKeys where
  leases : RedisKey Time
  owners : RedisKey Uuid

def LeaseKeys.absent : LeaseKeys := ⟨.absent, .absent⟩

def LeaseKeys.elapse (server : Time) (keys : LeaseKeys) : LeaseKeys :=
  ⟨keys.leases.elapse server, keys.owners.elapse server⟩

/-- This is `ZREMRANGEBYSCORE` up to the present. -/
def LeaseKeys.prune (now : Time) (keys : LeaseKeys) : LeaseKeys :=
  { keys with leases := keys.leases.write (keys.leases.entries.filter fun _ expiry => now < expiry) }

def LeaseKeys.expire (server : Time) (ttlSeconds : Nat) (keys : LeaseKeys) : LeaseKeys :=
  ⟨keys.leases.expire server ttlSeconds, keys.owners.expire server ttlSeconds⟩

/-- This is `_ACQUIRE_SCRIPT`. -/
def acquireScript (server : Time) (runId : Uuid) (maxConcurrency : Int) (expiry now : Time)
    (ttlSeconds : Nat) (owner : Uuid) (keys : LeaseKeys) : Nat × LeaseKeys :=
  let keys := (keys.elapse server).prune now
  if (keys.leases.entries.lookup runId).isSome then (2, keys)
  else if maxConcurrency ≤ keys.leases.entries.size then (0, keys)
  else
    let added : LeaseKeys :=
      ⟨keys.leases.write (keys.leases.entries.insert runId expiry),
        keys.owners.write (keys.owners.entries.insert runId owner)⟩
    (1, added.expire server ttlSeconds)

/-- This is `_RENEW_SCRIPT`. -/
def renewScript (server : Time) (runId token : Uuid) (now expiry : Time) (ttlSeconds : Nat)
    (keys : LeaseKeys) : Nat × LeaseKeys :=
  let keys := keys.elapse server
  match keys.leases.entries.lookup runId with
  | none => (0, keys)
  | some current =>
      if current ≤ now then (0, keys)
      else if keys.owners.entries.lookup runId ≠ some token then (0, keys)
      else
        let extended : LeaseKeys :=
          { keys with leases := keys.leases.write (keys.leases.entries.insert runId expiry) }
        (1, extended.expire server ttlSeconds)

/-- This is `_RELEASE_SCRIPT`; the absent token stands for the empty argument. -/
def releaseScript (server : Time) (runId : Uuid) (token : Option Uuid) (keys : LeaseKeys) :
    LeaseKeys :=
  let keys := keys.elapse server
  if token.isSome ∧ keys.owners.entries.lookup runId ≠ token then keys
  else
    ⟨keys.leases.write (keys.leases.entries.erase runId),
      keys.owners.write (keys.owners.entries.erase runId)⟩

/-- A daily counter is absent until a reservation writes it, and the server drops it later. -/
structure DailyCounter where
  value : Int
  deadline : Time

/-- This is the Redis state under the two prefixes. -/
structure RedisSandboxAccounting where
  leases : Uuid → LeaseKeys
  daily : DailyKey → Option DailyCounter

def RedisSandboxAccounting.empty : RedisSandboxAccounting := ⟨fun _ => .absent, fun _ => none⟩

/-- The server drops a counter whose deadline has come. -/
def RedisSandboxAccounting.counter (server : Time) (key : DailyKey)
    (store : RedisSandboxAccounting) : Option DailyCounter :=
  (store.daily key).filter fun counter => server < counter.deadline

namespace RedisSandboxAccounting

/-- This is `acquire_lease` with the clock's reading and the server's. -/
def acquireLease (now server : Time) (tenantId runId : Uuid) (maxConcurrency : Int)
    (ttlSeconds : Nat) (ownerToken : Option Uuid) (store : RedisSandboxAccounting) :
    Except AccountingError Bool × RedisSandboxAccounting :=
  let answer := acquireScript server runId maxConcurrency (now + ttlSeconds * second) now ttlSeconds
    (ownerToken.getD runId) (store.leases tenantId)
  let after := { store with leases := Function.update store.leases tenantId answer.2 }
  if answer.1 = 2 then (.error .executionAlreadyAdmitted, after) else (.ok (answer.1 = 1), after)

/-- This is `renew_lease`. -/
def renewLease (now server : Time) (tenantId runId ownerToken : Uuid) (ttlSeconds : Nat)
    (store : RedisSandboxAccounting) : Except AccountingError Unit × RedisSandboxAccounting :=
  let answer := renewScript server runId ownerToken now (now + ttlSeconds * second) ttlSeconds
    (store.leases tenantId)
  let after := { store with leases := Function.update store.leases tenantId answer.2 }
  if answer.1 ≠ 1 then (.error .accountingUnavailable, after) else (.ok (), after)

/-- This is `release_lease`. -/
def releaseLease (server : Time) (tenantId runId : Uuid) (ownerToken : Option Uuid)
    (store : RedisSandboxAccounting) : RedisSandboxAccounting :=
  { store with
    leases := Function.update store.leases tenantId
      (releaseScript server runId ownerToken (store.leases tenantId)) }

/-- This is `usage` with `_USAGE_SCRIPT`. -/
def usage (now server : Time) (tenantId : Uuid) (store : RedisSandboxAccounting) :
    (Nat × Int) × RedisSandboxAccounting :=
  let keys := ((store.leases tenantId).elapse server).prune now
  ((keys.leases.entries.size, (store.counter server (dailyKey tenantId now)).elim 0 (·.value)),
    { store with leases := Function.update store.leases tenantId keys })

/-- This is `reserve_daily` with `_RESERVE_SCRIPT`. -/
def reserveDaily (now server : Time) (tenantId : Uuid) (seconds dailyCapS : Int)
    (day : Option Time) (store : RedisSandboxAccounting) : Bool × RedisSandboxAccounting :=
  let now := day.getD now
  let key := dailyKey tenantId now
  let current := (store.counter server key).elim 0 (·.value)
  if current + seconds > dailyCapS then (false, store)
  else
    (true, { store with
      daily := Function.update store.daily key
        (some ⟨current + seconds, server + secondsUntilUtcMidnight now * second⟩) })

/-- This is `settle_daily` with `_SETTLE_SCRIPT`. -/
def settleDaily (now server : Time) (tenantId : Uuid) (reservedSeconds actualSeconds : Int)
    (day : Option Time) (store : RedisSandboxAccounting) : RedisSandboxAccounting :=
  let key := dailyKey tenantId (day.getD now)
  match store.counter server key with
  | none => store
  | some counter =>
      let value := counter.value + (actualSeconds - reservedSeconds)
      { store with
        daily := Function.update store.daily key
          (some { counter with value := if value < 0 then 0 else value }) }

end RedisSandboxAccounting

/-- This is the state of `InMemorySandboxAccounting`; an absent tenant has no leases. -/
structure InMemorySandboxAccounting where
  leases : Uuid → Dict Uuid Time
  owners : Dict (Uuid × Uuid) Uuid
  daily : Dict DailyKey Int

def InMemorySandboxAccounting.empty : InMemorySandboxAccounting := ⟨fun _ => ∅, ∅, ∅⟩

namespace InMemorySandboxAccounting

/-- This is `acquire_lease`. -/
def acquireLease (now : Time) (tenantId runId : Uuid) (maxConcurrency : Int) (ttlSeconds : Nat)
    (ownerToken : Option Uuid) (store : InMemorySandboxAccounting) :
    Except AccountingError Bool × InMemorySandboxAccounting :=
  let members := (store.leases tenantId).filter fun _ expiry => now < expiry
  if (members.lookup runId).isSome then (.error .executionAlreadyAdmitted, store)
  else if maxConcurrency ≤ members.size then
    (.ok false, { store with leases := Function.update store.leases tenantId members })
  else
    (.ok true, { store with
      leases := Function.update store.leases tenantId
        (members.insert runId (now + ttlSeconds * second))
      owners := store.owners.insert (tenantId, runId) (ownerToken.getD runId) })

/-- This is `renew_lease`. -/
def renewLease (now : Time) (tenantId runId ownerToken : Uuid) (ttlSeconds : Nat)
    (store : InMemorySandboxAccounting) :
    Except AccountingError Unit × InMemorySandboxAccounting :=
  let members := store.leases tenantId
  if (members.lookup runId).getD 0 ≤ now ∨
      store.owners.lookup (tenantId, runId) ≠ some ownerToken then
    (.error .accountingUnavailable, store)
  else
    (.ok (), { store with
      leases := Function.update store.leases tenantId
        (members.insert runId (now + ttlSeconds * second)) })

/-- This is `release_lease`. -/
def releaseLease (tenantId runId : Uuid) (ownerToken : Option Uuid)
    (store : InMemorySandboxAccounting) : InMemorySandboxAccounting :=
  if ownerToken.isSome ∧ store.owners.lookup (tenantId, runId) ≠ ownerToken then store
  else
    { store with
      leases := Function.update store.leases tenantId ((store.leases tenantId).erase runId)
      owners := store.owners.erase (tenantId, runId) }

/-- This is `usage`. -/
def usage (now : Time) (tenantId : Uuid) (store : InMemorySandboxAccounting) : Nat × Int :=
  (((store.leases tenantId).filter fun _ expiry => now < expiry).size,
    (store.daily.lookup (dailyKey tenantId now)).getD 0)

/-- This is `reserve_daily`. -/
def reserveDaily (now : Time) (tenantId : Uuid) (seconds dailyCapS : Int) (day : Option Time)
    (store : InMemorySandboxAccounting) : Bool × InMemorySandboxAccounting :=
  let key := dailyKey tenantId (day.getD now)
  if (store.daily.lookup key).getD 0 + seconds > dailyCapS then (false, store)
  else
    (true, { store with
      daily := store.daily.insert key ((store.daily.lookup key).getD 0 + seconds) })

/-- This is `settle_daily`. -/
def settleDaily (now : Time) (tenantId : Uuid) (reservedSeconds actualSeconds : Int)
    (day : Option Time) (store : InMemorySandboxAccounting) : InMemorySandboxAccounting :=
  let key := dailyKey tenantId (day.getD now)
  { store with
    daily := store.daily.insert key
      (max 0 ((store.daily.lookup key).getD 0 + actualSeconds - reservedSeconds)) }

end InMemorySandboxAccounting

/-- Code runs reserve and settle the runtime of a day, and readers ask for it. -/
inductive DailyOperation where
  | reserve (tenantId : Uuid) (seconds : Nat) (day : Option Time)
  | settle (tenantId : Uuid) (reservedSeconds actualSeconds : Nat) (day : Option Time)
  | usage (tenantId : Uuid)
  deriving DecidableEq

/-- A call happens at a reading of the clock and at an instant of the server. -/
structure DailyCall where
  now : Time
  server : Time
  operation : DailyOperation
  deriving DecidableEq

/-- This is the counter that a call reads or changes. -/
def DailyCall.key (call : DailyCall) : DailyKey :=
  match call.operation with
  | .reserve tenantId _ day => dailyKey tenantId (day.getD call.now)
  | .settle tenantId _ _ day => dailyKey tenantId (day.getD call.now)
  | .usage tenantId => dailyKey tenantId call.now

/-- This is what an operation returns. -/
inductive DailyReply where
  | reserved (granted : Bool)
  | settled
  | used (seconds : Int)
  deriving DecidableEq

def RedisSandboxAccounting.answer (dailyCapS : DailyKey → Nat) (call : DailyCall)
    (store : RedisSandboxAccounting) : DailyReply × RedisSandboxAccounting :=
  match call.operation with
  | .reserve tenantId seconds day =>
      let result := store.reserveDaily call.now call.server tenantId seconds (dailyCapS call.key) day
      (.reserved result.1, result.2)
  | .settle tenantId reservedSeconds actualSeconds day =>
      (.settled,
        store.settleDaily call.now call.server tenantId reservedSeconds actualSeconds day)
  | .usage tenantId =>
      let result := store.usage call.now call.server tenantId
      (.used result.1.2, result.2)

def InMemorySandboxAccounting.answer (dailyCapS : DailyKey → Nat) (call : DailyCall)
    (store : InMemorySandboxAccounting) : DailyReply × InMemorySandboxAccounting :=
  match call.operation with
  | .reserve tenantId seconds day =>
      let result := store.reserveDaily call.now tenantId seconds (dailyCapS call.key) day
      (.reserved result.1, result.2)
  | .settle tenantId reservedSeconds actualSeconds day =>
      (.settled, store.settleDaily call.now tenantId reservedSeconds actualSeconds day)
  | .usage tenantId => (.used (store.usage call.now tenantId).2, store)

/-- A charge is a number of seconds on the counter of a tenant's day. -/
abbrev DailyCharge : Type := DailyKey × Nat

/-- This is the sum of the charges on one counter. -/
def secondsOn (key : DailyKey) (charges : List DailyCharge) : Nat :=
  ((charges.filter fun charge => charge.1 = key).map (·.2)).sum

/-- Both stores answer the same calls, and the ledger notes what was granted and settled. -/
structure DailyBooks where
  redis : RedisSandboxAccounting
  inMemory : InMemorySandboxAccounting
  unsettled : List DailyCharge
  settled : List DailyCharge

def DailyBooks.opened : DailyBooks := ⟨.empty, .empty, [], []⟩

/-- The ledger follows the answers of the Redis store. -/
def DailyBooks.note (call : DailyCall) (reply : DailyReply) (books : DailyBooks) : DailyBooks :=
  match call.operation, reply with
  | .reserve _ seconds _, .reserved true =>
      { books with unsettled := (call.key, seconds) :: books.unsettled }
  | .settle _ reservedSeconds actualSeconds _, _ =>
      { books with
        unsettled := books.unsettled.erase (call.key, reservedSeconds)
        settled := (call.key, actualSeconds) :: books.settled }
  | _, _ => books

/-- One call goes to both stores. -/
def DailyBooks.step (dailyCapS : DailyKey → Nat) (books : DailyBooks) (call : DailyCall) :
    Option DailyBooks :=
  let redis := books.redis.answer dailyCapS call
  let inMemory := books.inMemory.answer dailyCapS call
  some (({ books with redis := redis.2, inMemory := inMemory.2 } : DailyBooks).note call redis.1)

/-- A settlement takes one unsettled reservation and charges no more than it reserved. -/
def DailyBooks.honest (books : DailyBooks) (call : DailyCall) : Bool :=
  match call.operation with
  | .settle _ reservedSeconds actualSeconds _ =>
      (call.key, reservedSeconds) ∈ books.unsettled ∧ actualSeconds ≤ reservedSeconds
  | _ => true

/-- The server has not dropped the counter of the call. -/
def DailyBooks.unexpired (books : DailyBooks) (call : DailyCall) : Bool :=
  (books.redis.daily call.key).all fun counter => call.server < counter.deadline

/-- The calls are honest, and they come before the counter expires. -/
def DailyBooks.allows (books : DailyBooks) (call : DailyCall) : Bool :=
  books.honest call && books.unexpired call

end LumenCopilot.Sandbox
