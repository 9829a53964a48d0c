import LumenCopilot.Construction.Sandbox.Accounting
import LumenCopilot.Proof.Library.Transition
import Mathlib

namespace LumenCopilot.Sandbox

open Library

/-- This is the value of the Redis counter. -/
def RedisSandboxAccounting.seconds (store : RedisSandboxAccounting) (key : DailyKey) : Int :=
  (store.daily key).elim 0 (·.value)

/-- This is the value of the single-process counter. -/
def InMemorySandboxAccounting.seconds (store : InMemorySandboxAccounting) (key : DailyKey) : Int :=
  (store.daily.lookup key).getD 0

theorem secondsOn_cons (key : DailyKey) (charge : DailyCharge) (charges : List DailyCharge) :
    secondsOn key (charge :: charges) =
      (if charge.1 = key then charge.2 else 0) + secondsOn key charges := by
  by_cases same : charge.1 = key <;> simp [secondsOn, same]

/-- An erased charge is subtracted from its counter. -/
theorem secondsOn_erase (key : DailyKey) {charge : DailyCharge} {charges : List DailyCharge}
    (member : charge ∈ charges) :
    secondsOn key charges =
      (if charge.1 = key then charge.2 else 0) + secondsOn key (charges.erase charge) := by
  rw [← secondsOn_cons]
  have permuted := List.perm_cons_erase member
  exact ((permuted.filter _).map _).sum_eq

/-- This is what the ledger says of a counter. -/
def DailyBooks.charged (books : DailyBooks) (key : DailyKey) : Nat :=
  secondsOn key books.unsettled + secondsOn key books.settled

/-- The counters agree with the ledger and stay under their caps. -/
structure DailyBooks.Balanced (dailyCapS : DailyKey → Nat) (books : DailyBooks) : Prop where
  redis : ∀ key, books.redis.seconds key = books.charged key
  inMemory : ∀ key, books.inMemory.seconds key = books.charged key
  present : ∀ charge ∈ books.unsettled, (books.redis.daily charge.1).isSome
  capped : ∀ key, books.charged key ≤ dailyCapS key

theorem DailyBooks.Balanced.opened (dailyCapS : DailyKey → Nat) :
    DailyBooks.opened.Balanced dailyCapS where
  redis := fun _ => rfl
  inMemory := fun _ => rfl
  present := by
    intro charge member
    simp [DailyBooks.opened] at member
  capped := fun key => Nat.zero_le _

theorem RedisSandboxAccounting.seconds_update (store : RedisSandboxAccounting) (key : DailyKey)
    (counter : DailyCounter) (other : DailyKey) :
    seconds { store with daily := Function.update store.daily key (some counter) } other =
      if other = key then counter.value else store.seconds other := by
  by_cases same : other = key
  · subst same
    simp [seconds]
  · simp [seconds, same]

theorem InMemorySandboxAccounting.seconds_insert (store : InMemorySandboxAccounting)
    (key : DailyKey) (value : Int) (other : DailyKey) :
    seconds { store with daily := store.daily.insert key value } other =
      if other = key then value else store.seconds other := by
  by_cases same : other = key
  · subst same
    simp [seconds]
  · simp [seconds, same, AList.lookup_insert_ne]

variable {store : RedisSandboxAccounting}

/-- A counter that is not due is read as it is stored. -/
theorem RedisSandboxAccounting.counter_of_unexpired {server : Time} {key : DailyKey}
    (unexpired : (store.daily key).all fun counter => server < counter.deadline) :
    store.counter server key = store.daily key := by
  unfold counter
  cases stored : store.daily key with
  | none => rfl
  | some counter =>
      rw [stored] at unexpired
      simpa [Option.filter] using unexpired

/-- The books stay balanced when both counters and the ledger move to the same value. -/
theorem DailyBooks.Balanced.moved {dailyCapS : DailyKey → Nat} {books next : DailyBooks}
    (balanced : books.Balanced dailyCapS) (moved : DailyKey) (value : Nat)
    (redis : ∀ key, next.redis.seconds key = if key = moved then (value : Int) else
      books.redis.seconds key)
    (inMemory : ∀ key, next.inMemory.seconds key = if key = moved then (value : Int) else
      books.inMemory.seconds key)
    (charged : ∀ key, next.charged key = if key = moved then value else books.charged key)
    (present : ∀ charge ∈ next.unsettled, (next.redis.daily charge.1).isSome)
    (capped : value ≤ dailyCapS moved) : next.Balanced dailyCapS where
  redis := by
    intro key
    rw [redis, charged]
    split
    · rfl
    · exact balanced.redis key
  inMemory := by
    intro key
    rw [inMemory, charged]
    split
    · rfl
    · exact balanced.inMemory key
  present := present
  capped := by
    intro key
    rw [charged]
    split
    · next here => exact here ▸ capped
    · exact balanced.capped key

section Calls

variable {dailyCapS : DailyKey → Nat} {books : DailyBooks} {call : DailyCall} {tenantId : Uuid}
  {seconds reservedSeconds actualSeconds : Nat} {day : Option Time}

theorem RedisSandboxAccounting.answer_reserve
    (unexpired : (store.daily call.key).all fun counter => call.server < counter.deadline)
    (operates : call.operation = .reserve tenantId seconds day) (dailyCapS : DailyKey → Nat) :
    (store.answer dailyCapS call = (.reserved false, store) ∧
        (dailyCapS call.key : Int) < store.seconds call.key + seconds) ∨
      ∃ deadline, store.seconds call.key + seconds ≤ dailyCapS call.key ∧
        store.answer dailyCapS call = (.reserved true, { store with
          daily := Function.update store.daily call.key
            (some ⟨store.seconds call.key + seconds, deadline⟩) }) := by
  have keyed : dailyKey tenantId (day.getD call.now) = call.key := by
    simp [DailyCall.key, operates]
  simp only [answer, operates, reserveDaily, keyed, counter_of_unexpired unexpired]
  by_cases exceeds : (store.daily call.key).elim 0 (·.value) + (seconds : Int) > dailyCapS call.key
  · left
    rw [if_pos exceeds]
    exact ⟨rfl, exceeds⟩
  · right
    rw [if_neg exceeds]
    exact ⟨_, Int.not_lt.mp exceeds, rfl⟩

theorem InMemorySandboxAccounting.answer_reserve (store : InMemorySandboxAccounting)
    (operates : call.operation = .reserve tenantId seconds day) (dailyCapS : DailyKey → Nat) :
    (store.answer dailyCapS call = (.reserved false, store) ∧
        (dailyCapS call.key : Int) < store.seconds call.key + seconds) ∨
      store.seconds call.key + seconds ≤ dailyCapS call.key ∧
        store.answer dailyCapS call = (.reserved true, { store with
          daily := store.daily.insert call.key (store.seconds call.key + seconds) }) := by
  have keyed : call.key = dailyKey tenantId (day.getD call.now) := by
    simp [DailyCall.key, operates]
  simp only [answer, operates, reserveDaily, keyed]
  rw [← InMemorySandboxAccounting.seconds]
  by_cases exceeds : store.seconds (dailyKey tenantId (day.getD call.now)) + (seconds : Int) >
      dailyCapS (dailyKey tenantId (day.getD call.now))
  · left
    rw [if_pos exceeds]
    exact ⟨rfl, exceeds⟩
  · right
    rw [if_neg exceeds]
    exact ⟨Int.not_lt.mp exceeds, rfl⟩

/-- A reservation gets the same answer from both stores and keeps the books balanced. -/
theorem DailyBooks.Balanced.reserve (balanced : books.Balanced dailyCapS)
    (unexpired : books.unexpired call) (operates : call.operation = .reserve tenantId seconds day) :
    (books.redis.answer dailyCapS call).1 = (books.inMemory.answer dailyCapS call).1 ∧
      ∀ next, books.step dailyCapS call = some next → next.Balanced dailyCapS := by
  have redis := balanced.redis call.key
  have inMemory := balanced.inMemory call.key
  rcases RedisSandboxAccounting.answer_reserve unexpired operates dailyCapS with
    ⟨refused, exceeds⟩ | ⟨deadline, room, granted⟩ <;>
    rcases books.inMemory.answer_reserve operates dailyCapS with ⟨same, beyond⟩ | ⟨within, same⟩
  · refine ⟨by rw [refused, same], ?_⟩
    rintro next ⟨⟩
    simpa [DailyBooks.note, refused, same, operates] using balanced
  · omega
  · omega
  · refine ⟨by rw [granted, same], ?_⟩
    rintro next ⟨⟩
    simp only [DailyBooks.note, granted, same, operates]
    refine balanced.moved call.key (books.charged call.key + seconds)
      (fun key => ?_) (fun key => ?_) (fun key => ?_) (fun charge member => ?_) (by omega)
    · rw [RedisSandboxAccounting.seconds_update, redis]
      rfl
    · rw [InMemorySandboxAccounting.seconds_insert, inMemory]
      rfl
    · rw [DailyBooks.charged, secondsOn_cons]
      by_cases here : key = call.key
      · subst here
        simp [DailyBooks.charged]
        omega
      · simp [here, Ne.symm here, DailyBooks.charged]
    · by_cases here : charge.1 = call.key
      · simp [here]
      · have older : charge ∈ books.unsettled := by
          refine (List.mem_cons.mp member).resolve_left ?_
          rintro rfl
          exact here rfl
        simpa [here] using balanced.present charge older

/-- The clamp of a settlement does not fire when the counter covers the refund. -/
theorem RedisSandboxAccounting.answer_settle
    (unexpired : (store.daily call.key).all fun counter => call.server < counter.deadline)
    (present : (store.daily call.key).isSome)
    (operates : call.operation = .settle tenantId reservedSeconds actualSeconds day)
    (covered : 0 ≤ store.seconds call.key + actualSeconds - reservedSeconds)
    (dailyCapS : DailyKey → Nat) :
    ∃ deadline, store.answer dailyCapS call = (.settled, { store with
      daily := Function.update store.daily call.key
        (some ⟨store.seconds call.key + actualSeconds - reservedSeconds, deadline⟩) }) := by
  have keyed : dailyKey tenantId (day.getD call.now) = call.key := by
    simp [DailyCall.key, operates]
  obtain ⟨counter, stored⟩ := Option.isSome_iff_exists.mp present
  simp only [answer, operates, settleDaily, keyed, counter_of_unexpired unexpired, stored]
  refine ⟨counter.deadline, ?_⟩
  simp only [RedisSandboxAccounting.seconds, stored, Option.elim_some] at covered ⊢
  have unclamped : ¬ counter.value + ((actualSeconds : Int) - reservedSeconds) < 0 := by omega
  rw [if_neg unclamped, Int.add_sub_assoc]

theorem InMemorySandboxAccounting.answer_settle (store : InMemorySandboxAccounting)
    (operates : call.operation = .settle tenantId reservedSeconds actualSeconds day)
    (covered : 0 ≤ store.seconds call.key + actualSeconds - reservedSeconds)
    (dailyCapS : DailyKey → Nat) :
    store.answer dailyCapS call = (.settled, { store with
      daily := store.daily.insert call.key
        (store.seconds call.key + actualSeconds - reservedSeconds) }) := by
  have keyed : call.key = dailyKey tenantId (day.getD call.now) := by
    simp [DailyCall.key, operates]
  rw [keyed] at covered
  simp only [answer, operates, settleDaily, keyed]
  rw [← InMemorySandboxAccounting.seconds, Int.max_eq_right covered]

/-- A settlement keeps the books balanced, and no store clamps its counter. -/
theorem DailyBooks.Balanced.settle (balanced : books.Balanced dailyCapS)
    (unexpired : books.unexpired call)
    (operates : call.operation = .settle tenantId reservedSeconds actualSeconds day)
    (granted : (call.key, reservedSeconds) ∈ books.unsettled)
    (bounded : actualSeconds ≤ reservedSeconds) :
    0 ≤ books.redis.seconds call.key + actualSeconds - reservedSeconds ∧
      (books.redis.answer dailyCapS call).1 = (books.inMemory.answer dailyCapS call).1 ∧
      ∀ next, books.step dailyCapS call = some next → next.Balanced dailyCapS := by
  have redis := balanced.redis call.key
  have inMemory := balanced.inMemory call.key
  have capped := balanced.capped call.key
  have erased := secondsOn_erase call.key granted
  simp only [if_true] at erased
  have covered : reservedSeconds ≤ books.charged call.key := by
    rw [DailyBooks.charged]
    omega
  obtain ⟨deadline, settled⟩ := RedisSandboxAccounting.answer_settle unexpired
    (balanced.present _ granted) operates (by omega) dailyCapS
  have same := books.inMemory.answer_settle operates (by omega) dailyCapS
  refine ⟨by omega, by rw [settled, same], ?_⟩
  rintro next ⟨⟩
  simp only [DailyBooks.note, settled, same, operates]
  refine balanced.moved call.key (books.charged call.key + actualSeconds - reservedSeconds)
    (fun key => ?_) (fun key => ?_) (fun key => ?_) (fun charge member => ?_) (by omega)
  · rw [RedisSandboxAccounting.seconds_update, redis]
    split
    · dsimp only
      omega
    · rfl
  · rw [InMemorySandboxAccounting.seconds_insert, inMemory]
    split
    · omega
    · rfl
  · have rest := secondsOn_erase key granted
    rw [DailyBooks.charged, secondsOn_cons]
    by_cases here : key = call.key
    · subst here
      simp only [if_true, DailyBooks.charged]
      omega
    · simp only [Ne.symm here, here, if_false, DailyBooks.charged] at rest ⊢
      omega
  · by_cases here : charge.1 = call.key
    · simp [here]
    · simpa [here] using balanced.present charge (List.mem_of_mem_erase member)

/-- A reader gets the same answer from both stores. -/
theorem DailyBooks.Balanced.usage (balanced : books.Balanced dailyCapS)
    (unexpired : books.unexpired call) (operates : call.operation = .usage tenantId) :
    (books.redis.answer dailyCapS call).1 = (books.inMemory.answer dailyCapS call).1 ∧
      ∀ next, books.step dailyCapS call = some next → next.Balanced dailyCapS := by
  have keyed : dailyKey tenantId call.now = call.key := by
    simp [DailyCall.key, operates]
  have counter := RedisSandboxAccounting.counter_of_unexpired unexpired
  constructor
  · have same := (balanced.redis call.key).trans (balanced.inMemory call.key).symm
    rw [RedisSandboxAccounting.seconds, ← counter, ← keyed] at same
    simp only [RedisSandboxAccounting.answer, InMemorySandboxAccounting.answer, operates,
      RedisSandboxAccounting.usage, InMemorySandboxAccounting.usage]
    rw [same, InMemorySandboxAccounting.seconds]
  · rintro next ⟨⟩
    simp only [DailyBooks.note, RedisSandboxAccounting.answer, InMemorySandboxAccounting.answer,
      operates]
    exact ⟨balanced.redis, balanced.inMemory, balanced.present, balanced.capped⟩

/-- An allowed call gets one answer, does not reach the clamp and keeps the books balanced. -/
theorem DailyBooks.Balanced.answers (balanced : books.Balanced dailyCapS)
    (allowed : books.allows call) :
    (books.redis.answer dailyCapS call).1 = (books.inMemory.answer dailyCapS call).1 ∧
      (∀ tenantId reservedSeconds actualSeconds day,
        call.operation = .settle tenantId reservedSeconds actualSeconds day →
        0 ≤ books.redis.seconds call.key + actualSeconds - reservedSeconds ∧
          0 ≤ books.inMemory.seconds call.key + actualSeconds - reservedSeconds) ∧
      ∀ next, books.step dailyCapS call = some next → next.Balanced dailyCapS := by
  obtain ⟨honest, unexpired⟩ := Bool.and_eq_true_iff.mp allowed
  cases operates : call.operation with
  | reserve tenantId seconds day =>
      obtain ⟨same, kept⟩ := balanced.reserve unexpired operates
      exact ⟨same, by simp, kept⟩
  | settle tenantId reservedSeconds actualSeconds day =>
      simp only [DailyBooks.honest, operates, decide_eq_true_eq] at honest
      obtain ⟨covered, same, kept⟩ := balanced.settle unexpired operates honest.1 honest.2
      refine ⟨same, ?_, kept⟩
      rintro _ _ _ _ ⟨⟩
      refine ⟨covered, ?_⟩
      rw [balanced.inMemory, ← balanced.redis]
      exact covered
  | usage tenantId =>
      obtain ⟨same, kept⟩ := balanced.usage unexpired operates
      exact ⟨same, by simp, kept⟩

end Calls

/-- After every run of honest calls the counters equal the ledger, between zero and the cap, and the
next honest call gets the same answer from both stores without the clamp. -/
theorem daily_runtime_is_conserved (dailyCapS : DailyKey → Nat) (calls : List DailyCall)
    (books : DailyBooks)
    (runs : Runs (DailyBooks.step dailyCapS) (fun books call => books.allows call = true)
      DailyBooks.opened calls books) :
    (∀ key, books.redis.seconds key =
        (secondsOn key books.unsettled + secondsOn key books.settled : Nat) ∧
      books.inMemory.seconds key =
        (secondsOn key books.unsettled + secondsOn key books.settled : Nat) ∧
      0 ≤ books.redis.seconds key ∧ books.redis.seconds key ≤ dailyCapS key) ∧
    ∀ call, books.allows call →
      (books.redis.answer dailyCapS call).1 = (books.inMemory.answer dailyCapS call).1 ∧
      ∀ tenantId reservedSeconds actualSeconds day,
        call.operation = .settle tenantId reservedSeconds actualSeconds day →
        0 ≤ books.redis.seconds call.key + actualSeconds - reservedSeconds ∧
          0 ≤ books.inMemory.seconds call.key + actualSeconds - reservedSeconds := by
  have balanced : books.Balanced dailyCapS :=
    runs.invariant (fun books => books.Balanced dailyCapS)
      (fun _ _ next holds allowed steps => (holds.answers allowed).2.2 next steps)
      (DailyBooks.Balanced.opened dailyCapS)
  refine ⟨fun key => ⟨balanced.redis key, balanced.inMemory key, ?_, ?_⟩, fun call allowed => ?_⟩
  · rw [balanced.redis]
    exact Int.natCast_nonneg _
  · rw [balanced.redis]
    exact Int.ofNat_le.mpr (balanced.capped key)
  · obtain ⟨same, unclamped, -⟩ := balanced.answers allowed
    exact ⟨same, unclamped⟩

/-- Two runs share a cap of a hundred seconds; the second waits for the refund of the first. -/
def sharedAfternoon : List DailyCall :=
  [⟨10, 10, .reserve 1 60 (some 10)⟩, ⟨20, 20, .reserve 1 50 (some 20)⟩,
    ⟨30, 30, .settle 1 60 15 (some 10)⟩, ⟨40, 40, .reserve 1 50 (some 40)⟩, ⟨50, 50, .usage 1⟩]

theorem daily_runtime_is_conserved_sharedAfternoon :
    ∃ books, execute (guarded (DailyBooks.step fun _ => 100) DailyBooks.allows) DailyBooks.opened
        sharedAfternoon = some books ∧
      books.redis.seconds (1, 0) =
        (secondsOn (1, 0) books.unsettled + secondsOn (1, 0) books.settled : Nat) ∧
      books.redis.seconds (1, 0) ≤ 100 := by
  have runs : (execute (guarded (DailyBooks.step fun _ => 100) DailyBooks.allows) DailyBooks.opened
      sharedAfternoon).isSome := by decide
  obtain ⟨books, executed⟩ := Option.isSome_iff_exists.mp runs
  have conserved := daily_runtime_is_conserved (fun _ => 100) sharedAfternoon books
    (Runs.of_execute executed)
  exact ⟨books, executed, (conserved.1 (1, 0)).1, (conserved.1 (1, 0)).2.2.2⟩

end LumenCopilot.Sandbox
