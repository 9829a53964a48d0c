import LumenCopilot.Construction.Sandbox.Leases
import LumenCopilot.Proof.Library.Dict
import LumenCopilot.Proof.Library.Lease
import Mathlib

namespace LumenCopilot.Sandbox

open Library

/-- A call and its reply stand for an event of the lease table. -/
inductive LeaseCall.Causes (call : LeaseCall) :
    LeaseReply → LeaseEvent (Uuid × Uuid) Uuid → Prop where
  | grant {tenantId runId ownerToken : Uuid} {maxConcurrency : Int} {ttlSeconds : Nat}
      (acquires : call.operation = .acquire tenantId runId maxConcurrency ttlSeconds ownerToken) :
      Causes call .admitted (.grant (tenantId, runId) ownerToken (call.now + ttlSeconds * second))
  | extend {tenantId runId ownerToken : Uuid} {ttlSeconds : Nat}
      (renews : call.operation = .renew tenantId runId ownerToken ttlSeconds) :
      Causes call .renewed (.extend (tenantId, runId) ownerToken (call.now + ttlSeconds * second))
  | drop {tenantId runId ownerToken : Uuid}
      (releases : call.operation = .release tenantId runId ownerToken) :
      Causes call .released (.drop (tenantId, runId) ownerToken)
  | idle {reply : LeaseReply} (refused : reply ≠ .admitted) (lost : reply ≠ .renewed) :
      Causes call reply .idle

variable {call : LeaseCall} {reply : LeaseReply} {key : Uuid × Uuid}

variable {term : Time}

theorem LeaseCall.Causes.of_grant {token : Uuid}
    (causes : call.Causes reply (.grant key token term)) :
    ∃ maxConcurrency ttlSeconds,
      call.operation = .acquire key.1 key.2 maxConcurrency ttlSeconds token := by
  cases causes with
  | grant acquires => exact ⟨_, _, acquires⟩

theorem LeaseCall.Causes.of_extend {token : Uuid}
    (causes : call.Causes reply (.extend key token term)) :
    ∃ ttlSeconds, call.operation = .renew key.1 key.2 token ttlSeconds ∧
      term = call.now + ttlSeconds * second := by
  cases causes with
  | extend renews => exact ⟨_, renews, rfl⟩

theorem LeaseCall.Causes.of_drop {token : Uuid} (causes : call.Causes reply (.drop key token)) :
    call.operation = .release key.1 key.2 token := by
  cases causes with
  | drop releases => exact releases

/-- These are the laws of a lease store over the states that its calls reach. -/
structure LeaseStore.Lawful (store : LeaseStore) (sound : store.State → Prop) : Prop where
  initially : sound store.empty
  preserved : ∀ state call, sound state → sound (store.perform call state).2
  moves : ∀ state call, ∃ event, call.Causes (store.perform call state).1 event ∧
    LeaseTable.Moves call.now event (store.held (store.elapse call.server state))
      (store.held (store.perform call state).2)
  shrinks : ∀ state server,
    LeaseTable.Shrinks (store.held state) (store.held (store.elapse server state))
  capped : ∀ state call tenantId runId maxConcurrency ttlSeconds ownerToken,
    call.operation = .acquire tenantId runId maxConcurrency ttlSeconds ownerToken →
    (store.perform call state).1 = .admitted →
    ((store.unexpired call.now (store.perform call state).2 tenantId).length : Int) ≤ maxConcurrency
  distinct : ∀ now state tenantId, (store.unexpired now state tenantId).Nodup
  counted : ∀ now state tenantId runId, sound state →
    (runId ∈ store.unexpired now state tenantId ↔
      ∃ token expiry, store.held state (tenantId, runId) = some (token, expiry) ∧ now < expiry)

theorem leaseOf_eq_some {expiry : Option Time} {token : Option Uuid} {lease : Uuid × Time} :
    leaseOf expiry token = some lease ↔ token = some lease.1 ∧ expiry = some lease.2 := by
  cases expiry <;> cases token <;> simp [leaseOf, Prod.ext_iff]

/-- The lease of a run needs its expiry. -/
@[simp] theorem leaseOf_none_left (token : Option Uuid) : leaseOf none token = none := rfl

@[simp] theorem leaseOf_none_right (expiry : Option Time) : leaseOf expiry none = none := by
  cases expiry <;> rfl

@[simp] theorem leaseOf_some (expiry : Time) (token : Uuid) :
    leaseOf (some expiry) (some token) = some (token, expiry) := rfl

/-- The pruning of an expiry takes only an expired lease away. -/
theorem leaseOf_filter (now : Time) (expiry : Option Time) (token : Option Uuid) :
    leaseOf (expiry.filter fun expiry => now < expiry) token = leaseOf expiry token ∨
      leaseOf (expiry.filter fun expiry => now < expiry) token = none ∧
        ∀ holder term, leaseOf expiry token = some (holder, term) → term ≤ now := by
  cases expiry with
  | none => simp
  | some expiry =>
      by_cases live : now < expiry
      · left
        simp [Option.filter, live]
      · right
        refine ⟨by simp [Option.filter, live], ?_⟩
        intro holder term holds
        obtain ⟨-, same⟩ := leaseOf_eq_some.mp holds
        obtain rfl : expiry = term := Option.some.inj same
        exact Nat.le_of_not_lt live

theorem LeaseReply.ofAcquire_ne_admitted {result : Except AccountingError Bool}
    (refuses : result ≠ .ok true) : LeaseReply.ofAcquire result ≠ .admitted := by
  rcases result with _ | _ | _ <;> simp_all [LeaseReply.ofAcquire]

theorem LeaseReply.ofAcquire_ne_renewed (result : Except AccountingError Bool) :
    LeaseReply.ofAcquire result ≠ .renewed := by
  rcases result with _ | _ | _ <;> simp [LeaseReply.ofAcquire]

theorem LeaseReply.ofRenew_ne_admitted (result : Except AccountingError Unit) :
    LeaseReply.ofRenew result ≠ .admitted := by
  rcases result with _ | _ <;> simp [LeaseReply.ofRenew]

theorem LeaseReply.ofRenew_ne_renewed {result : Except AccountingError Unit}
    (refuses : result ≠ .ok ()) : LeaseReply.ofRenew result ≠ .renewed := by
  rcases result with _ | _ <;> simp_all [LeaseReply.ofRenew]

variable {now : Time} {ν : Type} {tenantId : Uuid}

variable {current : LeaseKeys} {runId : Uuid}

section Redis

@[simp] theorem RedisKey.write_entries (key : RedisKey ν) (entries : Dict Uuid ν) :
    (key.write entries).entries = entries := by
  unfold RedisKey.write
  split
  · next vanishes => exact (Dict.eq_empty_of_size vanishes).symm
  · rfl

@[simp] theorem RedisKey.expire_entries (server : Time) (ttlSeconds : Nat) (key : RedisKey ν) :
    (key.expire server ttlSeconds).entries = key.entries := rfl

theorem RedisKey.elapse_cases (server : Time) (key : RedisKey ν) :
    key.elapse server = key ∧ (∀ deadline, key.deadline = some deadline → server < deadline) ∨
      key.elapse server = .absent ∧ ∃ deadline, key.deadline = some deadline ∧ deadline ≤ server := by
  unfold RedisKey.elapse
  cases known : key.deadline with
  | none => simp
  | some deadline =>
      by_cases due : deadline ≤ server
      · simp [due]
      · refine .inl ⟨by simp [due], ?_⟩
        rintro _ ⟨⟩
        exact Nat.lt_of_not_le due

/-- Nothing more is due at the same instant. -/
@[simp] theorem RedisKey.elapse_elapse (server : Time) (key : RedisKey ν) :
    (key.elapse server).elapse server = key.elapse server := by
  rcases key.elapse_cases server with ⟨same, -⟩ | ⟨gone, -⟩
  · rw [same, same]
  · rw [gone]
    rfl

@[simp] theorem LeaseKeys.elapse_elapse (server : Time) (keys : LeaseKeys) :
    (keys.elapse server).elapse server = keys.elapse server := by
  simp [LeaseKeys.elapse]

/-- These are the leases of one tenant. -/
def LeaseKeys.held (keys : LeaseKeys) (runId : Uuid) : Option (Uuid × Time) :=
  leaseOf (keys.leases.entries.lookup runId) (keys.owners.entries.lookup runId)

@[simp] theorem LeaseKeys.prune_leases (now : Time) (keys : LeaseKeys) :
    (keys.prune now).leases.entries = keys.leases.entries.filter fun _ expiry => now < expiry := by
  simp [LeaseKeys.prune]

@[simp] theorem LeaseKeys.prune_owners (now : Time) (keys : LeaseKeys) :
    (keys.prune now).owners = keys.owners := rfl

theorem LeaseKeys.elapse_shrinks (server : Time) (keys : LeaseKeys) :
    LeaseTable.Shrinks keys.held (keys.elapse server).held := by
  intro runId
  unfold LeaseKeys.held LeaseKeys.elapse
  rcases keys.leases.elapse_cases server with ⟨leased, -⟩ | ⟨leased, -⟩ <;>
    rcases keys.owners.elapse_cases server with ⟨owned, -⟩ | ⟨owned, -⟩ <;>
    simp [leased, owned, RedisKey.absent]

theorem LeaseKeys.prune_prunes (now : Time) (keys : LeaseKeys) :
    LeaseTable.Prunes now keys.held (keys.prune now).held := by
  intro runId
  simp only [LeaseKeys.held, LeaseKeys.prune_leases, LeaseKeys.prune_owners, Dict.lookup_filter,
    LeaseTable.Free]
  exact leaseOf_filter now _ _

/-- The acquire script refuses, or it adds the lease of a run that has none. -/
theorem acquireScript_cases {server : Time} {keys pruned : LeaseKeys}
    (current : (keys.elapse server).prune now = pruned) (runId : Uuid) (maxConcurrency : Int)
    (expiry : Time) (ttlSeconds : Nat) (owner : Uuid) :
    acquireScript server runId maxConcurrency expiry now ttlSeconds owner keys = (2, pruned) ∨
      acquireScript server runId maxConcurrency expiry now ttlSeconds owner keys = (0, pruned) ∨
      pruned.leases.entries.lookup runId = none ∧
      (pruned.leases.entries.size : Int) < maxConcurrency ∧
      acquireScript server runId maxConcurrency expiry now ttlSeconds owner keys =
        (1, LeaseKeys.expire server ttlSeconds
          ⟨pruned.leases.write (pruned.leases.entries.insert runId expiry),
            pruned.owners.write (pruned.owners.entries.insert runId owner)⟩) := by
  simp only [acquireScript, current]
  by_cases admitted : (pruned.leases.entries.lookup runId).isSome
  · left
    simp only [admitted, if_true]
  · by_cases full : maxConcurrency ≤ pruned.leases.entries.size
    · right
      left
      simp only [admitted, full, if_true, Bool.false_eq_true, if_false]
    · right
      right
      refine ⟨by simpa using admitted, by omega, ?_⟩
      simp only [admitted, full, Bool.false_eq_true, if_false]

/-- The renew script refuses, or it extends the unexpired lease of the token. -/
theorem renewScript_cases {server : Time} {keys : LeaseKeys}
    (elapsed : keys.elapse server = current) (runId token : Uuid) (now expiry : Time)
    (ttlSeconds : Nat) :
    renewScript server runId token now expiry ttlSeconds keys = (0, current) ∨
      ∃ term, current.leases.entries.lookup runId = some term ∧ now < term ∧
        current.owners.entries.lookup runId = some token ∧
        renewScript server runId token now expiry ttlSeconds keys =
          (1, LeaseKeys.expire server ttlSeconds
            { current with
              leases := current.leases.write (current.leases.entries.insert runId expiry) }) := by
  simp only [renewScript, elapsed]
  cases stored : current.leases.entries.lookup runId with
  | none => exact .inl rfl
  | some term =>
      by_cases expired : term ≤ now
      · left
        simp only [expired, if_true]
      · by_cases owned : current.owners.entries.lookup runId = some token
        · right
          refine ⟨term, rfl, Nat.lt_of_not_le expired, owned, ?_⟩
          simp only [expired, owned, ne_eq, not_true, if_false]
        · left
          simp only [expired, owned, ne_eq, not_false_eq_true, if_true, if_false]

/-- The release script with a token changes nothing, or it removes the entries of the run. -/
theorem releaseScript_cases {server : Time} {keys : LeaseKeys}
    (elapsed : keys.elapse server = current) (runId token : Uuid) :
    releaseScript server runId (some token) keys = current ∨
      current.owners.entries.lookup runId = some token ∧
        releaseScript server runId (some token) keys =
          ⟨current.leases.write (current.leases.entries.erase runId),
            current.owners.write (current.owners.entries.erase runId)⟩ := by
  simp only [releaseScript, elapsed]
  by_cases owned : current.owners.entries.lookup runId = some token
  · right
    refine ⟨owned, ?_⟩
    simp only [owned, ne_eq, not_true, and_false, if_false]
  · left
    simp [owned]

/-- Every lease has an owner, and the owners are not dropped before the leases. -/
structure LeaseKeys.Sound (keys : LeaseKeys) : Prop where
  owned : ∀ runId, runId ∈ keys.leases.entries → runId ∈ keys.owners.entries
  dated : keys.leases.deadline = none → keys.leases.entries = ∅
  outlived : ∀ deadline, keys.leases.deadline = some deadline →
    ∃ later, keys.owners.deadline = some later ∧ deadline ≤ later

theorem LeaseKeys.Sound.absent : LeaseKeys.absent.Sound where
  owned := fun _ member => member
  dated := fun _ => rfl
  outlived := by
    rintro _ ⟨⟩

/-- A tenant without leases is sound. -/
theorem LeaseKeys.Sound.of_absent_leases (owners : RedisKey Uuid) :
    LeaseKeys.Sound ⟨.absent, owners⟩ where
  owned := by
    intro runId member
    simp [RedisKey.absent] at member
  dated := fun _ => rfl
  outlived := by
    rintro _ ⟨⟩

theorem LeaseKeys.Sound.elapse {keys : LeaseKeys} (sound : keys.Sound) (server : Time) :
    (keys.elapse server).Sound := by
  rcases keys.leases.elapse_cases server with ⟨same, remains⟩ | ⟨gone, -⟩
  · rcases keys.owners.elapse_cases server with ⟨kept, -⟩ | ⟨dropped, later, known, due⟩
    · simpa [LeaseKeys.elapse, kept, same] using sound
    · have undated : keys.leases.deadline = none := by
        by_contra dated
        obtain ⟨deadline, stored⟩ := Option.ne_none_iff_exists'.mp dated
        obtain ⟨last, owned, bound⟩ := sound.outlived deadline stored
        obtain rfl : last = later := Option.some.inj (owned.symm.trans known)
        exact absurd due (Nat.not_le.mpr (Nat.lt_of_lt_of_le (remains deadline stored) bound))
      have vanished := sound.dated undated
      refine ⟨fun runId member => ?_, fun _ => ?_, fun deadline stored => ?_⟩
      · simp [LeaseKeys.elapse, same, vanished] at member
      · simpa [LeaseKeys.elapse, same] using vanished
      · simp [LeaseKeys.elapse, same, undated] at stored
  · unfold LeaseKeys.elapse
    rw [gone]
    exact .of_absent_leases _

/-- A write leaves the deadline, or it leaves nothing. -/
theorem RedisKey.write_cases (key : RedisKey ν) (entries : Dict Uuid ν) :
    key.write entries = ⟨entries, key.deadline⟩ ∨ key.write entries = .absent ∧ entries = ∅ := by
  unfold RedisKey.write
  split
  · next vanishes => exact .inr ⟨rfl, Dict.eq_empty_of_size vanishes⟩
  · exact .inl rfl

@[simp] theorem RedisKey.write_empty (key : RedisKey ν) : key.write ∅ = .absent := rfl

/-- A write of a new entry leaves the deadline. -/
theorem RedisKey.write_insert (key : RedisKey ν) (entries : Dict Uuid ν) (field : Uuid) (value : ν)
    :
    key.write (entries.insert field value) = ⟨entries.insert field value, key.deadline⟩ := by
  rcases key.write_cases (entries.insert field value) with written | ⟨-, vanished⟩
  · exact written
  · have member : field ∈ entries.insert field value := (AList.mem_insert entries).mpr (.inl rfl)
    simp [vanished] at member

/-- The leases of a sound tenant may be taken away. -/
theorem LeaseKeys.Sound.lessened {keys : LeaseKeys} (sound : keys.Sound) {entries : Dict Uuid Time}
    (lesser : ∀ runId, runId ∈ entries → runId ∈ keys.leases.entries) :
    LeaseKeys.Sound { keys with leases := keys.leases.write entries } := by
  rcases keys.leases.write_cases entries with written | ⟨written, -⟩
  · rw [written]
    refine ⟨fun runId member => sound.owned runId (lesser runId member), fun undated => ?_,
      sound.outlived⟩
    have vanished := sound.dated undated
    apply Dict.eq_empty_of_forall
    intro runId member
    have stored := lesser runId member
    simp [vanished] at stored
  · rw [written]
    exact .of_absent_leases _

theorem LeaseKeys.Sound.prune {keys : LeaseKeys} (sound : keys.Sound) (now : Time) :
    (keys.prune now).Sound := by
  apply sound.lessened
  intro runId member
  rw [← AList.lookup_isSome] at member ⊢
  rw [Dict.lookup_filter] at member
  exact Option.isSome_of_isSome_filter _ _ member

/-- The greater remaining time stays the greater one. -/
theorem RedisKey.ttl_mono {μ : Type} {first : RedisKey ν} {second : RedisKey μ} (server : Time)
    (outlived : ∀ deadline, first.deadline = some deadline →
      ∃ later, second.deadline = some later ∧ deadline ≤ later) :
    first.ttl server ≤ max (-1) (second.ttl server) := by
  unfold RedisKey.ttl
  cases dated : first.deadline with
  | none => exact Int.le_max_left _ _
  | some deadline =>
      obtain ⟨later, known, bound⟩ := outlived deadline dated
      simp only [known]
      refine Int.le_trans ?_ (Int.le_max_right _ _)
      have remaining : deadline - server ≤ later - server := Nat.sub_le_sub_right bound server
      exact_mod_cast Nat.div_le_div_right (Nat.add_le_add_right remaining _)

theorem LeaseKeys.Sound.expire {keys : LeaseKeys}
    (owned : ∀ runId, runId ∈ keys.leases.entries → runId ∈ keys.owners.entries)
    (outlived : ∀ deadline, keys.leases.deadline = some deadline →
      ∃ later, keys.owners.deadline = some later ∧ deadline ≤ later)
    (server : Time) (ttlSeconds : Nat) : (keys.expire server ttlSeconds).Sound where
  owned := owned
  dated := by
    rintro ⟨⟩
  outlived := by
    rintro deadline ⟨⟩
    refine ⟨_, rfl, ?_⟩
    have bound := RedisKey.ttl_mono server outlived
    apply Nat.add_le_add_left
    apply Nat.mul_le_mul_right
    omega

section

variable {server : Time} {keys : LeaseKeys} (elapsed : keys.elapse server = keys)
include elapsed

/-- The acquire script grants a lease to a run that has none, or it only prunes. -/
theorem acquireScript_moves (runId : Uuid) (maxConcurrency : Int) (expiry now : Time)
    (ttlSeconds : Nat) (owner : Uuid) :
    let answer := acquireScript server runId maxConcurrency expiry now ttlSeconds owner keys
    (answer.1 = 1 ∧ LeaseTable.Moves now (.grant runId owner expiry) keys.held answer.2.held) ∨
      answer.1 ≠ 1 ∧ LeaseTable.Moves now .idle keys.held answer.2.held := by
  have prunes := keys.prune_prunes now
  rcases acquireScript_cases (by rw [elapsed]) runId maxConcurrency expiry ttlSeconds owner with
    admitted | full | ⟨fresh, -, added⟩
  · rw [admitted]
    exact .inr ⟨by simp, .idle prunes⟩
  · rw [full]
    exact .inr ⟨by simp, .idle prunes⟩
  · rw [added]
    refine .inl ⟨rfl, .grant prunes ?_ ?_⟩
    · intro token current holds
      obtain ⟨-, stored⟩ := leaseOf_eq_some.mp holds
      rw [LeaseKeys.prune_leases, Dict.lookup_filter, stored] at fresh
      have expired := (Option.filter_eq_none_iff.mp fresh) current rfl
      simpa using expired
    · funext key
      by_cases same : key = runId
      · subst same
        simp [LeaseKeys.held, LeaseKeys.expire]
      · simp [LeaseKeys.held, LeaseKeys.expire, same, AList.lookup_insert_ne]

/-- The renew script extends the unexpired lease of the token, or it changes nothing. -/
theorem renewScript_moves (runId token : Uuid) (now expiry : Time) (ttlSeconds : Nat) :
    let answer := renewScript server runId token now expiry ttlSeconds keys
    (answer.1 = 1 ∧ LeaseTable.Moves now (.extend runId token expiry) keys.held answer.2.held) ∨
      answer.1 ≠ 1 ∧ LeaseTable.Moves now .idle keys.held answer.2.held := by
  rcases renewScript_cases elapsed runId token now expiry ttlSeconds with
    refused | ⟨term, stored, live, owned, extended⟩
  · rw [refused]
    exact .inr ⟨by simp, .idle (.refl now _)⟩
  · rw [extended]
    refine .inl ⟨rfl, .extend (leaseOf_eq_some.mpr ⟨owned, stored⟩) live ?_⟩
    funext key
    by_cases same : key = runId
    · subst same
      simp [LeaseKeys.held, LeaseKeys.expire, owned]
    · simp [LeaseKeys.held, LeaseKeys.expire, same, AList.lookup_insert_ne]

/-- The release script drops the lease of the token, or it changes nothing. -/
theorem releaseScript_moves (runId token : Uuid) (now : Time) :
    let answer := releaseScript server runId (some token) keys
    LeaseTable.Moves now (.drop runId token) keys.held answer.held ∨
      LeaseTable.Moves now .idle keys.held answer.held := by
  rcases releaseScript_cases elapsed runId token with kept | ⟨owned, released⟩
  · rw [kept]
    exact .inr (.idle (.refl now _))
  · rw [released]
    refine .inl (.drop ?_ ?_)
    · intro holder expiry holds
      obtain ⟨holding, -⟩ := leaseOf_eq_some.mp holds
      exact Option.some.inj (holding.symm.trans owned)
    · funext key
      by_cases same : key = runId
      · subst same
        simp [LeaseKeys.held]
      · simp [LeaseKeys.held, same, AList.lookup_erase_ne]

theorem acquireScript_sound (sound : keys.Sound) (runId : Uuid) (maxConcurrency : Int)
    (expiry now : Time) (ttlSeconds : Nat) (owner : Uuid) :
    (acquireScript server runId maxConcurrency expiry now ttlSeconds owner keys).2.Sound := by
  have pruned := sound.prune now
  rcases acquireScript_cases (by rw [elapsed]) runId maxConcurrency expiry ttlSeconds owner with
    admitted | full | ⟨-, -, added⟩
  · rwa [admitted]
  · rwa [full]
  · rw [added]
    apply LeaseKeys.Sound.expire
    · intro other member
      simp only [RedisKey.write_entries, AList.mem_insert] at member ⊢
      exact member.imp_right (pruned.owned other)
    · simp only [RedisKey.write_insert]
      exact pruned.outlived

theorem renewScript_sound (sound : keys.Sound) (runId token : Uuid) (now expiry : Time)
    (ttlSeconds : Nat) : (renewScript server runId token now expiry ttlSeconds keys).2.Sound := by
  rcases renewScript_cases elapsed runId token now expiry ttlSeconds with
    refused | ⟨term, stored, -, -, extended⟩
  · rwa [refused]
  · rw [extended]
    apply LeaseKeys.Sound.expire
    · intro other member
      simp only [RedisKey.write_entries, AList.mem_insert] at member
      rcases member with rfl | member
      · exact sound.owned other (AList.lookup_isSome.mp (by rw [stored]; rfl))
      · exact sound.owned other member
    · simp only [RedisKey.write_insert]
      exact sound.outlived

theorem releaseScript_sound (sound : keys.Sound) (runId token : Uuid) :
    (releaseScript server runId (some token) keys).Sound := by
  rcases releaseScript_cases elapsed runId token with kept | ⟨-, released⟩
  · rwa [kept]
  · rw [released]
    have erased : ∀ other, other ∈ keys.leases.entries.erase runId → other ∈ keys.leases.entries :=
      fun other member => (AList.mem_erase.mp member).2
    have lesser := sound.lessened erased
    rcases keys.owners.write_cases (keys.owners.entries.erase runId) with written | ⟨-, vanished⟩
    · rw [written]
      refine ⟨fun other member => ?_, lesser.dated, lesser.outlived⟩
      simp only [RedisKey.write_entries, AList.mem_erase] at member ⊢
      exact ⟨member.1, sound.owned other member.2⟩
    · have released : keys.leases.entries.erase runId = ∅ := by
        apply Dict.eq_empty_of_forall
        intro other member
        obtain ⟨apart, stored⟩ := AList.mem_erase.mp member
        have owned : other ∈ keys.owners.entries.erase runId :=
          AList.mem_erase.mpr ⟨apart, sound.owned other stored⟩
        simp [vanished] at owned
      rw [released, RedisKey.write_empty]
      exact .of_absent_leases _

end

theorem RedisSandboxAccounting.held_update (store : RedisSandboxAccounting) (tenantId : Uuid)
    (keys : LeaseKeys) :
    held { store with leases := Function.update store.leases tenantId keys } =
      LeaseTable.replace store.held tenantId keys.held := by
  funext ⟨other, runId⟩
  by_cases inside : other = tenantId
  · subst inside
    simp [held, LeaseTable.replace, LeaseKeys.held]
  · simp [held, LeaseTable.replace, inside]

@[simp] theorem RedisSandboxAccounting.elapse_leases (server : Time)
    (store : RedisSandboxAccounting) (tenantId : Uuid) :
    (store.elapse server).leases tenantId = (store.leases tenantId).elapse server := rfl

/-- A move of the tenant's keys is a move of the store. -/
theorem RedisSandboxAccounting.update_moves {event : LeaseEvent Uuid Uuid}
    {store : RedisSandboxAccounting} {keys : LeaseKeys}
    (moves : LeaseTable.Moves now event (store.leases tenantId).held keys.held) :
    LeaseTable.Moves now (event.map (Prod.mk tenantId)) store.held
      (held { store with leases := Function.update store.leases tenantId keys }) := by
  rw [held_update]
  exact LeaseTable.Moves.replace moves

theorem RedisSandboxAccounting.acquireLease_moves {server : Time} {store : RedisSandboxAccounting}
    (elapsed : (store.leases tenantId).elapse server = store.leases tenantId) (now : Time)
    (runId : Uuid) (maxConcurrency : Int) (ttlSeconds : Nat) (ownerToken : Uuid) :
    let answer := store.acquireLease now server tenantId runId maxConcurrency ttlSeconds
      (some ownerToken)
    (answer.1 = .ok true ∧ LeaseTable.Moves now
        (.grant (tenantId, runId) ownerToken (now + ttlSeconds * second)) store.held answer.2.held) ∨
      answer.1 ≠ .ok true ∧ LeaseTable.Moves now .idle store.held answer.2.held := by
  simp only [acquireLease, Option.getD_some]
  rcases acquireScript_moves elapsed runId maxConcurrency (now + ttlSeconds * second) now ttlSeconds
      ownerToken with ⟨one, moves⟩ | ⟨other, moves⟩
  · left
    simp only [one]
    exact ⟨rfl, update_moves moves⟩
  · right
    split
    · exact ⟨by simp, update_moves moves⟩
    · exact ⟨by simp [other], update_moves moves⟩

theorem RedisSandboxAccounting.renewLease_moves {server : Time} {store : RedisSandboxAccounting}
    (elapsed : (store.leases tenantId).elapse server = store.leases tenantId) (now : Time)
    (runId ownerToken : Uuid) (ttlSeconds : Nat) :
    let answer := store.renewLease now server tenantId runId ownerToken ttlSeconds
    (answer.1 = .ok () ∧ LeaseTable.Moves now
        (.extend (tenantId, runId) ownerToken (now + ttlSeconds * second)) store.held
        answer.2.held) ∨
      answer.1 ≠ .ok () ∧ LeaseTable.Moves now .idle store.held answer.2.held := by
  simp only [renewLease]
  rcases renewScript_moves elapsed runId ownerToken now (now + ttlSeconds * second) ttlSeconds with
    ⟨one, moves⟩ | ⟨other, moves⟩
  · left
    simp only [one]
    exact ⟨rfl, update_moves moves⟩
  · right
    simp only [other, ne_eq, not_false_eq_true, if_true]
    exact ⟨by simp, update_moves moves⟩

/-- A call to the Redis store moves the lease table only under the guard of its event. -/
theorem RedisSandboxAccounting.perform_moves (store : RedisSandboxAccounting) (call : LeaseCall) :
    ∃ event, call.Causes (store.perform call).1 event ∧
      LeaseTable.Moves call.now event (store.elapse call.server).held
        (store.perform call).2.held := by
  have elapsed : ∀ tenantId, ((store.elapse call.server).leases tenantId).elapse call.server =
      (store.elapse call.server).leases tenantId :=
    fun tenantId => LeaseKeys.elapse_elapse call.server (store.leases tenantId)
  unfold perform
  cases operates : call.operation with
  | acquire tenantId runId maxConcurrency ttlSeconds ownerToken =>
      rcases acquireLease_moves (elapsed tenantId) call.now runId maxConcurrency ttlSeconds
          ownerToken with ⟨admits, moves⟩ | ⟨refuses, moves⟩
      · refine ⟨_, ?_, moves⟩
        simp only [admits]
        exact .grant operates
      · refine ⟨_, ?_, moves⟩
        exact .idle (LeaseReply.ofAcquire_ne_admitted refuses) (LeaseReply.ofAcquire_ne_renewed _)
  | renew tenantId runId ownerToken ttlSeconds =>
      rcases renewLease_moves (elapsed tenantId) call.now runId ownerToken ttlSeconds with
        ⟨renews, moves⟩ | ⟨refuses, moves⟩
      · refine ⟨_, ?_, moves⟩
        simp only [renews]
        exact .extend operates
      · refine ⟨_, ?_, moves⟩
        exact .idle (LeaseReply.ofRenew_ne_admitted _) (LeaseReply.ofRenew_ne_renewed refuses)
  | release tenantId runId ownerToken =>
      rcases releaseScript_moves (elapsed tenantId) runId ownerToken call.now with moves | moves
      · exact ⟨_, .drop operates, update_moves moves⟩
      · exact ⟨_, .idle (by simp) (by simp), update_moves moves⟩
  | usage tenantId =>
      have prunes : LeaseTable.Moves call.now .idle
          ((store.elapse call.server).leases tenantId).held
          ((((store.elapse call.server).leases tenantId).elapse call.server).prune call.now).held := by
        rw [elapsed]
        exact .idle (LeaseKeys.prune_prunes call.now _)
      exact ⟨_, .idle (by simp) (by simp), update_moves prunes⟩

/-- Every tenant of the store is sound. -/
def RedisSandboxAccounting.Sound (store : RedisSandboxAccounting) : Prop :=
  ∀ tenantId, (store.leases tenantId).Sound

theorem RedisSandboxAccounting.Sound.update {store : RedisSandboxAccounting} (sound : store.Sound)
    {keys : LeaseKeys} (kept : keys.Sound) :
    RedisSandboxAccounting.Sound
      { store with leases := Function.update store.leases tenantId keys } := by
  intro other
  by_cases inside : other = tenantId
  · subst inside
    simpa using kept
  · simpa [inside] using sound other

theorem RedisSandboxAccounting.Sound.perform {store : RedisSandboxAccounting} (sound : store.Sound)
    (call : LeaseCall) : RedisSandboxAccounting.Sound (store.perform call).2 := by
  have elapsed : ∀ tenantId, ((store.elapse call.server).leases tenantId).elapse call.server =
      (store.elapse call.server).leases tenantId :=
    fun tenantId => LeaseKeys.elapse_elapse call.server (store.leases tenantId)
  have current : (store.elapse call.server).Sound := fun tenantId => (sound tenantId).elapse _
  unfold RedisSandboxAccounting.perform
  cases call.operation with
  | acquire tenantId runId maxConcurrency ttlSeconds ownerToken =>
      simp only [acquireLease]
      split
      · exact current.update (acquireScript_sound (elapsed tenantId) (current tenantId) _ _ _ _ _ _)
      · exact current.update (acquireScript_sound (elapsed tenantId) (current tenantId) _ _ _ _ _ _)
  | renew tenantId runId ownerToken ttlSeconds =>
      simp only [renewLease]
      split
      · exact current.update (renewScript_sound (elapsed tenantId) (current tenantId) _ _ _ _ _)
      · exact current.update (renewScript_sound (elapsed tenantId) (current tenantId) _ _ _ _ _)
  | release tenantId runId ownerToken =>
      exact current.update (releaseScript_sound (elapsed tenantId) (current tenantId) _ _)
  | usage tenantId =>
      exact current.update (((current tenantId).elapse call.server).prune call.now)

/-- An admitted run is counted under the cap. -/
theorem acquireScript_capped {server : Time} {keys : LeaseKeys} {maxConcurrency : Int}
    {expiry : Time} {ttlSeconds : Nat} {owner : Uuid}
    (admits : (acquireScript server runId maxConcurrency expiry now ttlSeconds owner keys).1 = 1) :
    (((acquireScript server runId maxConcurrency expiry now ttlSeconds owner
      keys).2.leases.entries.filter fun _ expiry => now < expiry).keys.length : Int) ≤
        maxConcurrency := by
  have pruned : (keys.elapse server).prune now = (keys.elapse server).prune now := rfl
  rcases acquireScript_cases pruned runId maxConcurrency expiry ttlSeconds owner with
    admitted | full | ⟨fresh, room, added⟩
  · simp [admitted] at admits
  · simp [full] at admits
  · rw [added]
    have size := Dict.size_insert fresh expiry
    have bound := Dict.size_filter_le (fun _ term => decide (now < term))
      (AList.insert runId expiry ((keys.elapse server).prune now).leases.entries)
    simp only [LeaseKeys.expire, RedisKey.expire_entries, RedisKey.write_entries, Dict.keys_length]
    omega

/-- The Redis store is a lawful lease store. -/
theorem RedisSandboxAccounting.leaseStore_lawful :
    RedisSandboxAccounting.leaseStore.Lawful RedisSandboxAccounting.Sound where
  initially := fun _ => .absent
  preserved := fun _ call sound => sound.perform call
  moves := fun store call => store.perform_moves call
  shrinks := fun store server key => (store.leases key.1).elapse_shrinks server key.2
  capped := by
    intro store call tenantId runId maxConcurrency ttlSeconds ownerToken operates admits
    simp only [leaseStore, perform, operates, acquireLease] at admits ⊢
    split at admits
    · simp [LeaseReply.ofAcquire] at admits
    · next other =>
        simp only [other, if_false, unexpired, Function.update_self]
        apply acquireScript_capped
        by_contra refused
        exact LeaseReply.ofAcquire_ne_admitted (by simpa using refused) admits
  distinct := fun now store tenantId => AList.keys_nodup _
  counted := by
    intro now store tenantId runId sound
    simp only [leaseStore, unexpired, held, leaseOf_eq_some]
    rw [Dict.mem_keys_filter]
    constructor
    · rintro ⟨expiry, stored, live⟩
      have leased : runId ∈ (store.leases tenantId).leases.entries :=
        AList.lookup_isSome.mp (by rw [stored]; rfl)
      obtain ⟨token, owned⟩ := Option.isSome_iff_exists.mp
        (AList.lookup_isSome.mpr ((sound tenantId).owned runId leased))
      exact ⟨token, expiry, ⟨owned, stored⟩, by simpa using live⟩
    · rintro ⟨token, expiry, ⟨-, stored⟩, live⟩
      exact ⟨expiry, stored, by simpa using live⟩

end Redis

section InMemory

/-- Every lease has an owner. -/
def InMemorySandboxAccounting.Sound (store : InMemorySandboxAccounting) : Prop :=
  ∀ tenantId runId, runId ∈ store.leases tenantId → (tenantId, runId) ∈ store.owners

theorem InMemorySandboxAccounting.prune_prunes (now : Time) (store : InMemorySandboxAccounting)
    (tenantId : Uuid) :
    LeaseTable.Prunes now store.held (held { store with
      leases := Function.update store.leases tenantId
        ((store.leases tenantId).filter fun _ expiry => now < expiry) }) := by
  rintro ⟨other, runId⟩
  by_cases inside : other = tenantId
  · subst inside
    simp only [held, Function.update_self, Dict.lookup_filter, LeaseTable.Free]
    exact leaseOf_filter now _ _
  · left
    simp [held, inside]

/-- The single-process acquire refuses, or it adds the lease of a run that has none. -/
theorem InMemorySandboxAccounting.acquireLease_cases (now : Time)
    (store : InMemorySandboxAccounting) (tenantId runId : Uuid) (maxConcurrency : Int)
    (ttlSeconds : Nat) (ownerToken : Uuid) {members : Dict Uuid Time}
    (pruned : ((store.leases tenantId).filter fun _ expiry => now < expiry) = members) :
    store.acquireLease now tenantId runId maxConcurrency ttlSeconds (some ownerToken) =
        (.error .executionAlreadyAdmitted, store) ∨
      store.acquireLease now tenantId runId maxConcurrency ttlSeconds (some ownerToken) =
        (.ok false, { store with leases := Function.update store.leases tenantId members }) ∨
      members.lookup runId = none ∧ (members.size : Int) < maxConcurrency ∧
      store.acquireLease now tenantId runId maxConcurrency ttlSeconds (some ownerToken) =
        (.ok true, { store with
          leases := Function.update store.leases tenantId
            (members.insert runId (now + ttlSeconds * second))
          owners := store.owners.insert (tenantId, runId) ownerToken }) := by
  simp only [acquireLease, pruned, Option.getD_some]
  by_cases admitted : (members.lookup runId).isSome
  · left
    simp only [admitted, if_true]
  · by_cases full : maxConcurrency ≤ members.size
    · right
      left
      simp only [admitted, full, if_true, Bool.false_eq_true, if_false]
    · right
      right
      refine ⟨by simpa using admitted, by omega, ?_⟩
      simp only [admitted, full, Bool.false_eq_true, if_false]

/-- The single-process renewal refuses, or it extends the unexpired lease of the token. -/
theorem InMemorySandboxAccounting.renewLease_cases (now : Time)
    (store : InMemorySandboxAccounting) (tenantId runId ownerToken : Uuid) (ttlSeconds : Nat) :
    store.renewLease now tenantId runId ownerToken ttlSeconds =
        (.error .accountingUnavailable, store) ∨
      ∃ term, store.held (tenantId, runId) = some (ownerToken, term) ∧ now < term ∧
        store.renewLease now tenantId runId ownerToken ttlSeconds =
          (.ok (), { store with
            leases := Function.update store.leases tenantId
              ((store.leases tenantId).insert runId (now + ttlSeconds * second)) }) := by
  simp only [renewLease]
  split
  · exact .inl rfl
  · next guarded =>
      obtain ⟨live, owned⟩ := not_or.mp guarded
      cases stored : (store.leases tenantId).lookup runId with
      | none =>
          rw [stored] at live
          exact absurd (Nat.zero_le now) live
      | some term =>
          rw [stored] at live
          exact .inr ⟨term, leaseOf_eq_some.mpr ⟨not_not.mp owned, stored⟩, Nat.lt_of_not_le live, rfl⟩

/-- The single-process release changes nothing, or it removes the entries of the run. -/
theorem InMemorySandboxAccounting.releaseLease_cases (store : InMemorySandboxAccounting)
    (tenantId runId ownerToken : Uuid) :
    store.releaseLease tenantId runId (some ownerToken) = store ∨
      store.owners.lookup (tenantId, runId) = some ownerToken ∧
        store.releaseLease tenantId runId (some ownerToken) = { store with
          leases := Function.update store.leases tenantId ((store.leases tenantId).erase runId)
          owners := store.owners.erase (tenantId, runId) } := by
  simp only [releaseLease]
  by_cases owned : store.owners.lookup (tenantId, runId) = some ownerToken
  · right
    refine ⟨owned, ?_⟩
    simp only [owned, ne_eq, not_true, and_false, if_false]
  · left
    simp [owned]

/-- A change of one entry of the store is a change of one lease. -/
theorem InMemorySandboxAccounting.held_change {store changed : InMemorySandboxAccounting}
    {lease : Option (Uuid × Time)} (here : changed.held (tenantId, runId) = lease)
    (owners : ∀ key, key ≠ (tenantId, runId) → changed.owners.lookup key = store.owners.lookup key)
    (outside : ∀ other, other ≠ tenantId → changed.leases other = store.leases other)
    (inside : ∀ place, place ≠ runId →
      (changed.leases tenantId).lookup place = (store.leases tenantId).lookup place) :
    changed.held = Function.update store.held (tenantId, runId) lease := by
  funext ⟨other, place⟩
  by_cases same : (other, place) = (tenantId, runId)
  · rw [same, here, Function.update_self]
  · rw [Function.update_of_ne same]
    unfold held
    dsimp only
    rw [owners _ same]
    by_cases within : other = tenantId
    · subst within
      rw [inside place fun equal => same (by rw [equal])]
    · rw [outside other within]

/-- A call to the single-process store moves the lease table only under the guard of its event. -/
theorem InMemorySandboxAccounting.perform_moves (store : InMemorySandboxAccounting)
    (call : LeaseCall) :
    ∃ event, call.Causes (store.perform call).1 event ∧
      LeaseTable.Moves call.now event store.held (store.perform call).2.held := by
  unfold perform
  cases operates : call.operation with
  | acquire tenantId runId maxConcurrency ttlSeconds ownerToken =>
      rcases store.acquireLease_cases call.now tenantId runId maxConcurrency ttlSeconds ownerToken rfl
        with admitted | full | ⟨fresh, -, added⟩
      · simp only [admitted]
        exact ⟨_, .idle (by simp [LeaseReply.ofAcquire]) (by simp [LeaseReply.ofAcquire]),
          .idle (.refl _ _)⟩
      · simp only [full]
        exact ⟨_, .idle (by simp [LeaseReply.ofAcquire]) (by simp [LeaseReply.ofAcquire]),
          .idle (store.prune_prunes call.now tenantId)⟩
      · simp only [added]
        refine ⟨_, .grant operates, .grant (store.prune_prunes call.now tenantId) ?_ ?_⟩
        · intro token current holds
          obtain ⟨-, stored⟩ := leaseOf_eq_some.mp holds
          rw [Dict.lookup_filter, stored] at fresh
          have expired := Option.filter_eq_none_iff.mp fresh current rfl
          simpa using expired
        · refine held_change (by simp [held]) (fun key apart => AList.lookup_insert_ne apart) ?_ ?_
          · intro other apart
            simp [apart]
          · intro place apart
            simp [AList.lookup_insert_ne apart]
  | renew tenantId runId ownerToken ttlSeconds =>
      rcases store.renewLease_cases call.now tenantId runId ownerToken ttlSeconds with
        refused | ⟨term, holds, live, extended⟩
      · simp only [refused]
        exact ⟨_, .idle (by simp [LeaseReply.ofRenew]) (by simp [LeaseReply.ofRenew]),
          .idle (.refl _ _)⟩
      · simp only [extended]
        refine ⟨_, .extend operates, .extend holds live ?_⟩
        obtain ⟨owned, -⟩ := leaseOf_eq_some.mp holds
        refine held_change (by simp [held, owned]) (fun key apart => rfl) ?_ ?_
        · intro other apart
          simp [apart]
        · intro place apart
          simp [AList.lookup_insert_ne apart]
  | release tenantId runId ownerToken =>
      rcases store.releaseLease_cases tenantId runId ownerToken with kept | ⟨owned, released⟩
      · simp only [kept]
        exact ⟨_, .idle (by simp) (by simp), .idle (.refl _ _)⟩
      · simp only [released]
        refine ⟨_, .drop operates, .drop ?_ ?_⟩
        · intro holder expiry holds
          obtain ⟨holding, -⟩ := leaseOf_eq_some.mp holds
          exact Option.some.inj (holding.symm.trans owned)
        · refine held_change (by simp [held]) (fun key apart => AList.lookup_erase_ne apart) ?_ ?_
          · intro other apart
            simp [apart]
          · intro place apart
            simp [AList.lookup_erase_ne apart]
  | usage tenantId => exact ⟨_, .idle (by simp) (by simp), .idle (.refl _ _)⟩

theorem InMemorySandboxAccounting.Sound.perform {store : InMemorySandboxAccounting}
    (sound : store.Sound) (call : LeaseCall) :
    InMemorySandboxAccounting.Sound (store.perform call).2 := by
  unfold InMemorySandboxAccounting.perform
  cases call.operation with
  | acquire tenantId runId maxConcurrency ttlSeconds ownerToken =>
      have kept : ∀ place, place ∈ ((store.leases tenantId).filter fun _ expiry => call.now < expiry) →
          (tenantId, place) ∈ store.owners := by
        intro place member
        rw [← AList.lookup_isSome, Dict.lookup_filter] at member
        exact sound tenantId place (AList.lookup_isSome.mp (Option.isSome_of_isSome_filter _ _ member))
      rcases store.acquireLease_cases call.now tenantId runId maxConcurrency ttlSeconds ownerToken rfl
        with admitted | full | ⟨-, -, added⟩
      · simpa only [admitted] using sound
      · simp only [full]
        intro other place member
        by_cases inside : other = tenantId
        · subst inside
          exact kept place (by simpa using member)
        · exact sound other place (by simpa [inside] using member)
      · simp only [added]
        intro other place member
        rw [AList.mem_insert]
        by_cases inside : other = tenantId
        · subst inside
          simp only [Function.update_self, AList.mem_insert] at member
          exact member.imp (fun same => by rw [same]) (kept place)
        · exact .inr (sound other place (by simpa [inside] using member))
  | renew tenantId runId ownerToken ttlSeconds =>
      rcases store.renewLease_cases call.now tenantId runId ownerToken ttlSeconds with
        refused | ⟨term, holds, -, extended⟩
      · simpa only [refused] using sound
      · simp only [extended]
        obtain ⟨owned, -⟩ := leaseOf_eq_some.mp holds
        intro other place member
        by_cases inside : other = tenantId
        · subst inside
          simp only [Function.update_self, AList.mem_insert] at member
          rcases member with rfl | member
          · exact AList.lookup_isSome.mp (by rw [owned]; rfl)
          · exact sound other place member
        · exact sound other place (by simpa [inside] using member)
  | release tenantId runId ownerToken =>
      rcases store.releaseLease_cases tenantId runId ownerToken with kept | ⟨-, released⟩
      · simpa only [kept] using sound
      · simp only [released]
        intro other place member
        rw [AList.mem_erase]
        by_cases inside : other = tenantId
        · subst inside
          simp only [Function.update_self, AList.mem_erase] at member
          exact ⟨fun same => member.1 (Prod.mk.inj same).2, sound other place member.2⟩
        · exact ⟨fun same => inside (Prod.mk.inj same).1,
            sound other place (by simpa [inside] using member)⟩
  | usage tenantId => exact sound

/-- The single-process store is a lawful lease store. -/
theorem InMemorySandboxAccounting.leaseStore_lawful :
    InMemorySandboxAccounting.leaseStore.Lawful InMemorySandboxAccounting.Sound where
  initially := by
    intro tenantId runId member
    simp [leaseStore, empty] at member
  preserved := fun _ call sound => sound.perform call
  moves := fun store call => store.perform_moves call
  shrinks := fun _ _ _ => .inl rfl
  capped := by
    intro store call tenantId runId maxConcurrency ttlSeconds ownerToken operates admits
    simp only [leaseStore, perform, operates] at admits ⊢
    rcases store.acquireLease_cases call.now tenantId runId maxConcurrency ttlSeconds ownerToken rfl
      with admitted | full | ⟨fresh, room, added⟩
    · simp [admitted, LeaseReply.ofAcquire] at admits
    · simp [full, LeaseReply.ofAcquire] at admits
    · simp only [added, unexpired, Function.update_self, Dict.keys_length]
      have size := Dict.size_insert fresh (call.now + ttlSeconds * second)
      have bound := Dict.size_filter_le (fun _ term => decide (call.now < term))
        (AList.insert runId (call.now + ttlSeconds * second)
          ((store.leases tenantId).filter fun _ expiry => call.now < expiry))
      omega
  distinct := fun now store tenantId => AList.keys_nodup _
  counted := by
    intro now store tenantId runId sound
    simp only [leaseStore, unexpired, held, leaseOf_eq_some]
    rw [Dict.mem_keys_filter]
    constructor
    · rintro ⟨expiry, stored, live⟩
      have leased : runId ∈ store.leases tenantId :=
        AList.lookup_isSome.mp (by rw [stored]; rfl)
      obtain ⟨token, owned⟩ := Option.isSome_iff_exists.mp
        (AList.lookup_isSome.mpr (sound tenantId runId leased))
      exact ⟨token, expiry, ⟨owned, stored⟩, by simpa using live⟩
    · rintro ⟨token, expiry, ⟨-, stored⟩, live⟩
      exact ⟨expiry, stored, by simpa using live⟩

end InMemory

variable {history : List LeaseCall}

variable {later calls : List LeaseCall} {start : Time}

section Safety

variable {store : LeaseStore} {sound : store.State → Prop}

theorem LeaseStore.after_concat (store : LeaseStore) (history : List LeaseCall) (call : LeaseCall) :
    store.after (history ++ [call]) = (store.perform call (store.after history)).2 := by
  simp [LeaseStore.after]

theorem LeaseStore.Lawful.after (lawful : store.Lawful sound) (history : List LeaseCall) :
    sound (store.after history) := by
  induction history using List.reverseRecOn with
  | nil => exact lawful.initially
  | append_singleton history call ih =>
      rw [LeaseStore.after_concat]
      exact lawful.preserved _ _ ih

/-- A call after a history moves the leases that it finds. -/
theorem LeaseStore.Lawful.moves_after (lawful : store.Lawful sound) (history : List LeaseCall)
    (call : LeaseCall) :
    ∃ event, call.Causes (store.reply history call) event ∧
      LeaseTable.Moves call.now event (store.found history call)
        (store.leases (history ++ [call])) := by
  rw [LeaseStore.leases, LeaseStore.after_concat]
  exact lawful.moves (store.after history) call

/-- This is the token with which a call wants a lease. -/
def LeaseCall.acquiredToken (call : LeaseCall) : Option Uuid :=
  match call.operation with
  | .acquire _ _ _ _ ownerToken => some ownerToken
  | _ => none

/-- These are the safety properties of a store along a sequence of calls. -/
structure LeaseStore.Safe (store : LeaseStore) (calls : List LeaseCall) : Prop where
  capped : ∀ history call rest, calls = history ++ call :: rest →
    ∀ tenantId runId maxConcurrency ttlSeconds ownerToken,
    call.operation = .acquire tenantId runId maxConcurrency ttlSeconds ownerToken →
    store.reply history call = .admitted →
    ((store.unexpired call.now (store.after (history ++ [call])) tenantId).length : Int) ≤
      maxConcurrency
  counted : ∀ history rest, calls = history ++ rest → ∀ now tenantId runId,
    runId ∈ store.unexpired now (store.after history) tenantId ↔
      ∃ token expiry, store.leases history (tenantId, runId) = some (token, expiry) ∧ now < expiry
  single : ∀ history call rest, calls = history ++ call :: rest →
    ∀ tenantId runId maxConcurrency ttlSeconds ownerToken,
    call.operation = .acquire tenantId runId maxConcurrency ttlSeconds ownerToken →
    store.reply history call = .admitted →
    (∀ token expiry, store.found history call (tenantId, runId) = some (token, expiry) →
        expiry ≤ call.now) ∧
      store.leases (history ++ [call]) (tenantId, runId) =
        some (ownerToken, call.now + ttlSeconds * second) ∧
      (store.unexpired call.now (store.after (history ++ [call])) tenantId).Nodup
  guarded : ∀ history call rest, calls = history ++ call :: rest →
    ∀ tenantId runId token expiry,
    store.found history call (tenantId, runId) = some (token, expiry) → call.now < expiry →
    store.leases (history ++ [call]) (tenantId, runId) = some (token, expiry) ∨
      (∃ ttlSeconds, call.operation = .renew tenantId runId token ttlSeconds ∧
        store.leases (history ++ [call]) (tenantId, runId) =
          some (token, call.now + ttlSeconds * second)) ∨
      (call.operation = .release tenantId runId token ∧
        store.leases (history ++ [call]) (tenantId, runId) = none)
  final : ∀ history later call rest, calls = history ++ later ++ call :: rest →
    ∀ tenantId runId token expiry ttlSeconds,
    store.leases history (tenantId, runId) = some (token, expiry) →
    (∀ next ∈ (later ++ [call]).head?, expiry ≤ next.now) →
    call.operation = .renew tenantId runId token ttlSeconds →
    store.reply (history ++ later) call ≠ .renewed

/-- The token of a lease was given by a call that acquired it. -/
theorem LeaseStore.Lawful.token_acquired (lawful : store.Lawful sound) (vacant : ∀ key, store.held
    store.empty key = none) {token : Uuid} {expiry : Time}
    (holds : store.leases history key = some (token, expiry)) :
    token ∈ history.filterMap LeaseCall.acquiredToken := by
  induction history using List.reverseRecOn generalizing expiry with
  | nil =>
      have nothing : store.leases [] key = none := vacant key
      rw [nothing] at holds
      contradiction
  | append_singleton history call ih =>
      obtain ⟨event, causes, moves⟩ := lawful.moves_after history call
      rw [List.filterMap_append, List.mem_append]
      rcases moves.token_source holds with ⟨current, found⟩ | ⟨term, rfl⟩
      · left
        rcases lawful.shrinks (store.after history) call.server key with same | gone
        · exact ih (same.symm.trans found)
        · exact absurd (gone.symm.trans found) (by simp)
      · right
        obtain ⟨maxConcurrency, ttlSeconds, acquires⟩ := causes.of_grant
        simp [LeaseCall.acquiredToken, acquires]

/-- A token whose lease has expired stays without it as long as no call acquires with it. -/
theorem LeaseStore.Lawful.stays_spent (lawful : store.Lawful sound) {token : Uuid} {finish : Time}
    (clock : later.Pairwise fun earlier next => earlier.now ≤ next.now)
    (starts : ∀ call ∈ later, start ≤ call.now) (finishes : ∀ call ∈ later, call.now ≤ finish)
    (passes : start ≤ finish) (unacquired : ∀ call ∈ later, call.acquiredToken ≠ some token)
    (spent : LeaseTable.Spent start (store.leases history) key token) :
    LeaseTable.Spent finish (store.leases (history ++ later)) key token := by
  induction later generalizing history start with
  | nil => simpa using spent.mono passes
  | cons call later ih =>
      obtain ⟨event, causes, moves⟩ := lawful.moves_after history call
      obtain ⟨ordered, sorted⟩ := List.pairwise_cons.mp clock
      have current := (spent.mono (starts call List.mem_cons_self)).shrinks
        (lawful.shrinks (store.after history) call.server)
      have ungranted : ∀ expiry, event ≠ .grant key token expiry := by
        rintro expiry rfl
        obtain ⟨maxConcurrency, ttlSeconds, acquires⟩ := causes.of_grant
        exact unacquired call List.mem_cons_self (by simp [LeaseCall.acquiredToken, acquires])
      have continues := ih sorted ordered (fun other member => finishes other (.tail _ member))
        (finishes call List.mem_cons_self)
        (fun other member => unacquired other (.tail _ member)) (moves.spent ungranted current)
      simpa using continues

/-- A token that was acquired before is not acquired again. -/
theorem acquiredToken_absent {rest : List LeaseCall} {token : Uuid}
    (tokens : ((history ++ later ++ call :: rest).filterMap LeaseCall.acquiredToken).Nodup)
    (acquired : token ∈ history.filterMap LeaseCall.acquiredToken) :
    ∀ other ∈ later, other.acquiredToken ≠ some token := by
  intro other member again
  rw [List.filterMap_append, List.filterMap_append] at tokens
  have apart := (List.nodup_append.mp (List.nodup_append.mp tokens).1).2.2
  exact apart token acquired token (List.mem_filterMap.mpr ⟨other, member, again⟩) rfl

/-- A forward clock starts at its first reading. -/
theorem starts_of_head (clock : calls.Pairwise fun earlier next => earlier.now ≤ next.now)
    (first : ∀ next ∈ calls.head?, start ≤ next.now) : ∀ call ∈ calls, start ≤ call.now := by
  intro call member
  cases calls with
  | nil => contradiction
  | cons next rest =>
      have begins := first next rfl
      rcases List.mem_cons.mp member with rfl | later
      · exact begins
      · exact Nat.le_trans begins ((List.pairwise_cons.mp clock).1 call later)

/-- A lawful store is safe along every sequence with distinct tokens and a forward clock. -/
theorem LeaseStore.Lawful.safe (lawful : store.Lawful sound)
    (vacant : ∀ key, store.held store.empty key = none)
    (clock : calls.Pairwise fun earlier next => earlier.now ≤ next.now)
    (tokens : (calls.filterMap LeaseCall.acquiredToken).Nodup) : store.Safe calls where
  capped := by
    intro history call rest split tenantId runId maxConcurrency ttlSeconds ownerToken operates admits
    rw [LeaseStore.after_concat]
    exact lawful.capped _ call tenantId runId maxConcurrency ttlSeconds ownerToken operates admits
  counted := fun history rest split now tenantId runId =>
    lawful.counted now _ tenantId runId (lawful.after history)
  single := by
    intro history call rest split tenantId runId maxConcurrency ttlSeconds ownerToken operates admits
    obtain ⟨event, causes, moves⟩ := lawful.moves_after history call
    rw [admits] at causes
    cases causes with
    | grant acquires =>
        rw [operates] at acquires
        obtain ⟨rfl, rfl, rfl, rfl, rfl⟩ := LeaseOperation.acquire.inj acquires
        cases moves with
        | grant prunes free granted =>
            exact ⟨free, by rw [granted, Function.update_self], lawful.distinct _ _ _⟩
    | idle refused _ => exact absurd rfl refused
  guarded := by
    intro history call rest split tenantId runId token expiry holds live
    obtain ⟨event, causes, moves⟩ := lawful.moves_after history call
    rcases moves.guarded holds live with same | ⟨later, rfl, extended⟩ | ⟨rfl, dropped⟩
    · exact .inl same
    · right
      left
      obtain ⟨ttlSeconds, renews, rfl⟩ := causes.of_extend
      exact ⟨ttlSeconds, renews, extended⟩
    · exact .inr (.inr ⟨causes.of_drop, dropped⟩)
  final := by
    intro history later call rest split tenantId runId token expiry ttlSeconds holds expired operates
      renewed
    obtain ⟨event, causes, moves⟩ := lawful.moves_after (history ++ later) call
    rw [renewed] at causes
    cases causes with
    | idle _ lost => exact absurd rfl lost
    | extend renews =>
        rw [operates] at renews
        obtain ⟨rfl, rfl, rfl, rfl⟩ := LeaseOperation.renew.inj renews
        cases moves with
        | @extend _ _ _ _ _ current owns live extended =>
            have acquired := lawful.token_acquired vacant holds
            have unacquired := acquiredToken_absent (split ▸ tokens) acquired
            rw [split, List.append_assoc, List.append_cons, ← List.append_assoc] at clock
            have following := (List.pairwise_append.mp (List.pairwise_append.mp clock).1).2.1
            have starts : ∀ other ∈ later ++ [call], expiry ≤ other.now :=
              starts_of_head following expired
            obtain ⟨sorted, -, ordered⟩ := List.pairwise_append.mp following
            have spent : LeaseTable.Spent expiry (store.leases history) (tenantId, runId) token := by
              intro term same
              obtain ⟨-, rfl⟩ := Prod.mk.inj (Option.some.inj (holds.symm.trans same))
              exact Nat.le_refl _
            have stays := lawful.stays_spent sorted
              (fun other member => starts other (List.mem_append_left _ member))
              (fun other member => ordered other member call List.mem_cons_self)
              (starts call (List.mem_append_right _ List.mem_cons_self)) unacquired spent
            have found := stays.shrinks (lawful.shrinks (store.after (history ++ later)) call.server)
            exact absurd live (Nat.not_lt.mpr (found current owns))

end Safety

/-- Both stores keep their leases safe, whatever keys the Redis server has dropped in between. -/
theorem leases_are_safe (calls : List LeaseCall)
    (clock : calls.Pairwise fun earlier next => earlier.now ≤ next.now)
    (tokens : (calls.filterMap LeaseCall.acquiredToken).Nodup) :
    RedisSandboxAccounting.leaseStore.Safe calls ∧
      InMemorySandboxAccounting.leaseStore.Safe calls :=
  ⟨RedisSandboxAccounting.leaseStore_lawful.safe (fun _ => rfl) clock tokens,
    InMemorySandboxAccounting.leaseStore_lawful.safe (fun _ => rfl) clock tokens⟩

/-- Two owners want the same run; the first one comes back after its lease has expired. -/
def takenOver : List LeaseCall :=
  [⟨1 * second, 1 * second, .acquire 1 5 1 10 7⟩, ⟨2 * second, 2 * second, .acquire 1 5 1 10 8⟩,
    ⟨12 * second, 12 * second, .acquire 1 5 1 10 9⟩, ⟨13 * second, 13 * second, .renew 1 5 7 10⟩,
    ⟨14 * second, 14 * second, .release 1 5 7⟩, ⟨15 * second, 15 * second, .usage 1⟩]

theorem leases_are_safe_takenOver :
    RedisSandboxAccounting.leaseStore.Safe takenOver ∧
      InMemorySandboxAccounting.leaseStore.Safe takenOver :=
  leases_are_safe takenOver (by simp [takenOver, second]) (by decide)

example :
    (List.range 6).map (fun place =>
      RedisSandboxAccounting.leaseStore.reply (takenOver.take place)
        (takenOver.get ⟨place % 6, Nat.mod_lt _ (by decide)⟩)) =
      [.admitted, .alreadyAdmitted, .admitted, .ownershipLost, .released, .used 1] := by
  decide

end LumenCopilot.Sandbox
