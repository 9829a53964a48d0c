import LumenCopilot.Construction.Runs.Inbox
import LumenCopilot.Proof.Library.Lists
import LumenCopilot.Proof.Library.Transition
import LumenCopilot.Proof.Library.Effect

namespace LumenCopilot.Runs

open Library

variable {inbox after : Inbox} {session next : InboxSession} {deliveries : List Delivery} {index : Nat}
  {now : Int}

/-- A transaction takes one of these steps. -/
inductive InboxSession.Advances (inbox : Inbox) (session : InboxSession) (now : Int) :
    InboxSession → Prop where
  | opens {batch : List Nat} {done place : Nat} {delivery : Delivery}
      (sweeping : session.phase = .sweeping batch done) (listed : batch[done]? = some place)
      (held : inbox.deliveries[place]? = some delivery) :
      Advances inbox session now { session with phase := .delivering batch done delivery.status }
  | skips {batch : List Nat} {done : Nat} (delivering : session.phase = .delivering batch done .delivered) :
      Advances inbox session now { session with phase := .sweeping batch (done + 1) }
  | delivers {batch : List Nat} {done place : Nat} {status : DeliveryStatus} {delivery : Delivery}
      (delivering : session.phase = .delivering batch done status) (listed : batch[done]? = some place)
      (unlocked : inbox.locked place = false) (held : inbox.deliveries[place]? = some delivery) :
      Advances inbox session now {
        phase := .sweeping batch (done + 1)
        writes := session.writes ++ [(place, { delivery with status := .delivered })] }
  | reads {phase : InboxPhase} (reader : ∀ batch done, phase ≠ .sweeping batch done)
      (apart : ∀ batch done status, phase ≠ .delivering batch done status) :
      Advances inbox session now { session with phase := phase }
  | marks {place : Nat} {delivery : Delivery} (marking : session.phase = .marking place)
      (unlocked : inbox.locked place = false) (held : inbox.deliveries[place]? = some delivery) :
      Advances inbox session now {
        phase := .marked
        writes := session.writes ++ [(place, { delivery with status := .read, readAt := some now })] }

theorem InboxSession.advance_cases (advances : session.advance inbox now = some next) :
    session.Advances inbox now next := by
  unfold InboxSession.advance at advances
  split at advances
  · next sweeping =>
      obtain ⟨place, listed, advances⟩ := Option.bind_eq_some_iff.mp advances
      obtain ⟨delivery, held, advances⟩ := Option.bind_eq_some_iff.mp advances
      obtain rfl := Option.some.inj advances
      exact .opens sweeping listed held
  · next delivering =>
      obtain ⟨place, listed, advances⟩ := Option.bind_eq_some_iff.mp advances
      split at advances
      · next same =>
          obtain rfl := Option.some.inj advances
          exact .skips (same ▸ delivering)
      split at advances
      · cases advances
      · next unlocked =>
          obtain ⟨delivery, held, advances⟩ := Option.bind_eq_some_iff.mp advances
          obtain rfl := Option.some.inj advances
          exact .delivers delivering listed (Bool.not_eq_true _ ▸ unlocked) held
  · split at advances
    · split at advances
      · obtain rfl := Option.some.inj advances
        exact .reads nofun nofun
      · obtain rfl := Option.some.inj advances
        exact .reads nofun nofun
    · obtain rfl := Option.some.inj advances
      exact .reads nofun nofun
  · obtain ⟨delivery, _, advances⟩ := Option.bind_eq_some_iff.mp advances
    split at advances
    · obtain rfl := Option.some.inj advances
      exact .reads nofun nofun
    · obtain rfl := Option.some.inj advances
      exact .reads nofun nofun
  · next marking =>
      split at advances
      · cases advances
      · next unlocked =>
          obtain ⟨delivery, held, advances⟩ := Option.bind_eq_some_iff.mp advances
          obtain rfl := Option.some.inj advances
          exact .marks marking (Bool.not_eq_true _ ▸ unlocked) held
  · cases advances
  · cases advances
  · cases advances

/-- A write moves its row forward. -/
inductive Delivery.Moves (delivery : Delivery) : Delivery → Prop where
  | delivers (pending : delivery.status = .pending) : Moves delivery { delivery with status := .delivered }
  | marks (now : Int) (unread : delivery.status ≠ .read) :
      Moves delivery { delivery with status := .read, readAt := some now }

variable {delivery written : Delivery}

theorem Delivery.Moves.unread (moves : delivery.Moves written) : delivery.status ≠ .read := by
  cases moves with
  | delivers pending => simp [pending]
  | marks now unread => exact unread

theorem Delivery.Moves.left (moves : delivery.Moves written) : written.status ≠ .pending := by
  cases moves <;> simp

theorem Delivery.Moves.consistent (moves : delivery.Moves written)
    (consistent : delivery.Consistent) : written.Consistent := by
  unfold Delivery.Consistent at consistent ⊢
  cases moves with
  | delivers pending =>
      rw [pending] at consistent
      simpa using consistent
  | marks now unread => simp

/-- These are the batch of a sweep and the number of its deliveries that are done. -/
def InboxPhase.batch : InboxPhase → Option (List Nat × Nat)
  | .sweeping batch done | .delivering batch done _ => some (batch, done)
  | _ => none

/-- The writes of a transaction move committed rows forward, and a sweep has delivered what it has done. -/
structure InboxSession.Fits (deliveries : List Delivery) (session : InboxSession) : Prop where
  moves : ∀ place written, (place, written) ∈ session.writes →
    ∃ delivery, deliveries[place]? = some delivery ∧ delivery.Moves written
  distinct : ∀ batch done, session.phase.batch = some (batch, done) → batch.Nodup
  done : ∀ batch done, session.phase.batch = some (batch, done) → ∀ (order : Nat) place, order < done →
    batch[order]? = some place → writesAt place session.writes = true
  delivered : ∀ batch done, session.phase.batch = some (batch, done) → ∀ place written,
    (place, written) ∈ session.writes → written.status = .delivered
  pending : ∀ batch done status, session.phase = .delivering batch done status → status = .pending

/-- The committed rows fit the transactions and the reports of the sweeps. -/
structure Inbox.Sound (inbox : Inbox) : Prop where
  consistent : ∀ delivery ∈ inbox.deliveries, delivery.Consistent
  fits : ∀ session ∈ inbox.sessions, session.Fits inbox.deliveries
  apart : ∀ (first second : Nat) (one two : InboxSession), inbox.sessions[first]? = some one →
    inbox.sessions[second]? = some two → first ≠ second → ∀ place, writesAt place one.writes = true → writesAt place two.writes = false
  left : ∀ place ∈ inbox.sent.flatten, ∀ delivery, inbox.deliveries[place]? = some delivery →
    delivery.status ≠ .pending
  once : inbox.sent.flatten.Nodup

theorem listPendingDigest_nodup (limit : Nat) : (inbox.listPendingDigest limit).Nodup :=
  (List.nodup_range.filter _).sublist (List.take_sublist _ _)

/-- A session that has just come fits. -/
theorem InboxSession.Fits.fresh {phase : InboxPhase}
    (starts : ∀ batch done, phase.batch = some (batch, done) → batch.Nodup ∧ done = 0)
    (unread : ∀ batch done status, phase ≠ .delivering batch done status) :
    InboxSession.Fits deliveries ⟨phase, []⟩ where
  moves place written member := (List.not_mem_nil member).elim
  distinct batch done same := (starts batch done same).1
  done batch done same order place within := by
    rw [(starts batch done same).2] at within
    exact (Nat.not_lt_zero order within).elim
  delivered batch done same place written member := (List.not_mem_nil member).elim
  pending batch done status same := (unread batch done status same).elim

/-- A session that comes keeps the inbox sound. -/
theorem Inbox.Sound.joined (sound : inbox.Sound) {phase : InboxPhase}
    (fits : InboxSession.Fits inbox.deliveries ⟨phase, []⟩) :
    Inbox.Sound { inbox with sessions := inbox.sessions ++ [⟨phase, []⟩] } where
  consistent := sound.consistent
  fits session member := by
    rcases List.mem_append.mp member with old | new
    · exact sound.fits session old
    · obtain rfl := List.mem_singleton.mp new
      exact fits
  apart first second one two atFirst atSecond distinct place written := by
    rcases getElem?_snoc_iff.mp atFirst with one_ | ⟨_, rfl⟩
    · rcases getElem?_snoc_iff.mp atSecond with two_ | ⟨_, rfl⟩
      · exact sound.apart first second one two one_ two_ distinct place written
      · rfl
    · cases written
  left := sound.left
  once := sound.once

/-- A session with other writes on rows that no other session has written keeps the inbox sound. -/
theorem Inbox.Sound.moved (sound : inbox.Sound) (found : inbox.sessions[index]? = some session)
    (fits : next.Fits inbox.deliveries)
    (writes : ∀ place, writesAt place next.writes = true →
      writesAt place session.writes = true ∨ inbox.locked place = false) :
    Inbox.Sound { inbox with sessions := inbox.sessions.set index next } where
  consistent := sound.consistent
  fits other member := by
    rcases List.mem_or_eq_of_mem_set member with old | rfl
    · exact sound.fits other old
    · exact fits
  apart := by
    have free : ∀ place other two, inbox.sessions[other]? = some two → other ≠ index →
        writesAt place next.writes = true → writesAt place two.writes = false := by
      intro place other two held distinct written
      rcases writes place written with old | unlocked
      · exact sound.apart index other session two found held (Ne.symm distinct) place old
      · exact Bool.eq_false_iff.mpr fun locks => by
          have locked := List.any_eq_false.mp unlocked two (List.mem_of_getElem? held)
          exact locked locks
    intro first second one two atFirst atSecond distinct place written
    rcases (getElem?_set_iff found).mp atFirst with ⟨rfl, rfl⟩ | ⟨otherFirst, one_⟩
    · rcases (getElem?_set_iff found).mp atSecond with ⟨rfl, _⟩ | ⟨otherSecond, two_⟩
      · exact (distinct rfl).elim
      · exact free place second two two_ otherSecond written
    · rcases (getElem?_set_iff found).mp atSecond with ⟨rfl, rfl⟩ | ⟨_, two_⟩
      · refine Bool.eq_false_iff.mpr fun also => ?_
        rw [free place first one one_ otherFirst also] at written
        cases written
      · exact sound.apart first second one two one_ two_ distinct place written
  left := sound.left
  once := sound.once

variable {place : Nat}

theorem writesAt_append {first second : List (Nat × Delivery)} :
    writesAt place (first ++ second) = (writesAt place first || writesAt place second) :=
  List.any_append

/-- A step on a current row keeps the transaction fitting. -/
theorem InboxSession.Fits.advanced (fits : session.Fits inbox.deliveries)
    (advances : session.Advances inbox now next) (current : session.current inbox = true) :
    next.Fits inbox.deliveries := by
  unfold InboxSession.current at current
  cases advances with
  | @opens batch done place delivery sweeping listed held =>
      rw [sweeping] at current
      simp only [listed, Option.bind_some, held, Option.all_some, decide_eq_true_eq] at current
      have same : session.phase.batch = some (batch, done) := by rw [sweeping]; rfl
      refine ⟨fits.moves, ?_, ?_, ?_, ?_⟩
      · rintro _ _ ⟨rfl, rfl⟩
        exact fits.distinct _ _ same
      · rintro _ _ ⟨rfl, rfl⟩
        exact fits.done _ _ same
      · rintro _ _ ⟨rfl, rfl⟩
        exact fits.delivered _ _ same
      · rintro _ _ _ ⟨rfl, rfl, rfl⟩
        exact current
  | skips delivering =>
      have pending := fits.pending _ _ _ delivering
      cases pending
  | @delivers batch done place status delivery delivering listed unlocked held =>
      rw [delivering] at current
      simp only [listed, Option.bind_some, held, Option.all_some, decide_eq_true_eq] at current
      have same : session.phase.batch = some (batch, done) := by rw [delivering]; rfl
      refine ⟨?_, ?_, ?_, ?_, nofun⟩
      · intro other written member
        rcases List.mem_append.mp member with old | new
        · exact fits.moves other written old
        · obtain ⟨rfl, rfl⟩ := Prod.mk.inj (List.mem_singleton.mp new)
          exact ⟨delivery, held, .delivers current⟩
      · rintro _ _ ⟨rfl, rfl⟩
        exact fits.distinct _ _ same
      · rintro _ _ ⟨rfl, rfl⟩ order other within at_
        rw [writesAt_append, Bool.or_eq_true]
        rcases Nat.lt_succ_iff_lt_or_eq.mp within with earlier | rfl
        · exact Or.inl (fits.done _ _ same order other earlier at_)
        · obtain rfl := Option.some.inj (listed.symm.trans at_)
          exact Or.inr (writesAt_of_mem List.mem_cons_self)
      · rintro _ _ ⟨rfl, rfl⟩ other written member
        rcases List.mem_append.mp member with old | new
        · exact fits.delivered _ _ same other written old
        · obtain ⟨rfl, rfl⟩ := Prod.mk.inj (List.mem_singleton.mp new)
          rfl
  | @reads phase reader apart =>
      have none : phase.batch = none := by
        cases phase with
        | sweeping batch done => exact (reader batch done rfl).elim
        | delivering batch done status => exact (apart batch done status rfl).elim
        | finding | reading | marking | marked | committed | aborted => rfl
      exact ⟨fits.moves, by simp [none], by simp [none], by simp [none],
        fun batch done status same => (apart batch done status same).elim⟩
  | @marks place delivery marking unlocked held =>
      rw [marking] at current
      simp only [held, Option.all_some, ne_eq, decide_not, Bool.not_eq_true', decide_eq_false_iff_not]
        at current
      refine ⟨?_, nofun, nofun, nofun, nofun⟩
      intro other written member
      rcases List.mem_append.mp member with old | new
      · exact fits.moves other written old
      · obtain ⟨rfl, rfl⟩ := Prod.mk.inj (List.mem_singleton.mp new)
        exact ⟨delivery, held, .marks now current⟩

/-- A step writes no row that another transaction has written. -/
theorem InboxSession.Advances.unlocked (advances : session.Advances inbox now next)
    (written : writesAt place next.writes = true) :
    writesAt place session.writes = true ∨ inbox.locked place = false := by
  have added : ∀ {other delivery}, inbox.locked other = false →
      writesAt place (session.writes ++ [(other, delivery)]) = true →
        writesAt place session.writes = true ∨ inbox.locked place = false := by
    intro other delivery unlocked written
    rw [writesAt_append, Bool.or_eq_true] at written
    refine written.imp_right fun here => ?_
    obtain ⟨_, member⟩ := mem_of_writesAt here
    obtain ⟨rfl, _⟩ := Prod.mk.inj (List.mem_singleton.mp member)
    exact unlocked
  cases advances with
  | opens | skips | reads => exact Or.inl written
  | delivers _ _ unlocked _ => exact added unlocked written
  | marks _ unlocked _ => exact added unlocked written

/-- A row after the commit is an old one or moves an old one forward. -/
theorem InboxSession.Fits.applied (fits : session.Fits deliveries)
    (found : (applyWrites deliveries session.writes)[place]? = some delivery) :
    deliveries[place]? = some delivery ∨
      ∃ before, deliveries[place]? = some before ∧ before.Moves delivery := by
  rcases applyWrites_cases found with ⟨_, held⟩ | member
  · exact Or.inl held
  · exact Or.inr (fits.moves place delivery member)

/-- A read delivery stays as it is when a transaction commits. -/
theorem InboxSession.Fits.keeps_read (fits : session.Fits deliveries)
    (held : deliveries[place]? = some delivery) (read : delivery.status = .read) :
    (applyWrites deliveries session.writes)[place]? = some delivery := by
  refine (applyWrites_other ?_).trans held
  refine Bool.eq_false_iff.mpr fun written => ?_
  obtain ⟨row, member⟩ := mem_of_writesAt written
  obtain ⟨before, same, moves⟩ := fits.moves place row member
  obtain rfl := Option.some.inj (held.symm.trans same)
  exact moves.unread read

/-- A sweep reports the deliveries that it has written. -/
theorem InboxSession.Fits.reports (fits : session.Fits deliveries) {reported : List (List Nat)}
    (finished : session.finished = some reported) :
    reported.flatten.Nodup ∧ ∀ place ∈ reported.flatten, writesAt place session.writes = true ∧
      ∀ written, (place, written) ∈ session.writes → written.status = .delivered := by
  unfold InboxSession.finished at finished
  split at finished
  · next batch done sweeping =>
      split at finished
      · next all =>
          obtain rfl := Option.some.inj finished
          have same : session.phase.batch = some (batch, done) := by rw [sweeping]; rfl
          rw [List.flatten_singleton]
          refine ⟨fits.distinct _ _ same, fun place member => ⟨?_, fits.delivered _ _ same place⟩⟩
          obtain ⟨order, at_⟩ := List.mem_iff_getElem?.mp member
          have within := (List.getElem?_eq_some_iff.mp at_).1
          exact fits.done _ _ same order place (all ▸ within) at_
      · cases finished
  · obtain rfl := Option.some.inj finished
    exact ⟨List.nodup_nil, fun place member => (List.not_mem_nil member).elim⟩
  · cases finished

/-- A commit keeps the inbox sound. -/
theorem Inbox.Sound.committed (sound : inbox.Sound) (found : inbox.sessions[index]? = some session)
    {reported : List (List Nat)} (finished : session.finished = some reported) :
    Inbox.Sound {
      deliveries := applyWrites inbox.deliveries session.writes
      sessions := inbox.sessions.set index ⟨.committed, []⟩
      sent := inbox.sent ++ reported } := by
  have fits := sound.fits session (List.mem_of_getElem? found)
  obtain ⟨distinct, reports⟩ := fits.reports finished
  have idle : InboxSession.Fits (applyWrites inbox.deliveries session.writes) ⟨.committed, []⟩ :=
    .fresh nofun nofun
  constructor
  · intro delivery member
    obtain ⟨place, held⟩ := List.mem_iff_getElem?.mp member
    rcases fits.applied held with old | ⟨before, old, moves⟩
    · exact sound.consistent delivery (List.mem_of_getElem? old)
    · exact moves.consistent (sound.consistent before (List.mem_of_getElem? old))
  · intro other member
    obtain ⟨place, held⟩ := List.mem_iff_getElem?.mp member
    rcases (getElem?_set_iff found).mp held with ⟨_, rfl⟩ | ⟨apart, two⟩
    · exact idle
    · have otherFits := sound.fits other (List.mem_of_getElem? two)
      refine ⟨fun row written stored => ?_, otherFits.distinct, otherFits.done, otherFits.delivered,
        otherFits.pending⟩
      obtain ⟨delivery, before, moves⟩ := otherFits.moves row written stored
      have free := sound.apart place index other session two found apart row (writesAt_of_mem stored)
      exact ⟨delivery, (applyWrites_other free).trans before, moves⟩
  · intro first second one two atFirst atSecond apart place written
    rcases (getElem?_set_iff found).mp atFirst with ⟨_, rfl⟩ | ⟨_, one_⟩
    · cases written
    · rcases (getElem?_set_iff found).mp atSecond with ⟨_, rfl⟩ | ⟨_, two_⟩
      · rfl
      · exact sound.apart first second one two one_ two_ apart place written
  · intro place member delivery held
    rw [List.flatten_append, List.mem_append] at member
    rcases fits.applied held with old | ⟨before, _, moves⟩
    · rcases member with earlier | new
      · exact sound.left place earlier delivery old
      · rcases applyWrites_cases held with ⟨unwritten, _⟩ | written
        · rw [(reports place new).1] at unwritten
          cases unwritten
        · rw [(reports place new).2 delivery written]
          nofun
    · exact moves.left
  · rw [List.flatten_append]
    refine List.nodup_append.mpr ⟨sound.once, distinct, fun place earlier other new same => ?_⟩
    subst same
    obtain ⟨row, member⟩ := mem_of_writesAt (reports place new).1
    obtain ⟨delivery, held, moves⟩ := fits.moves place row member
    have pending := (reports place new).2 row member
    cases moves with
    | delivers waiting => exact sound.left place earlier delivery held waiting
    | marks => cases pending

/-- Every step on a current row keeps the inbox sound and its read deliveries as they are. -/
theorem Inbox.Sound.step (sound : inbox.Sound) {action : InboxAction}
    (current : current inbox action = true) (steps : inboxStep inbox action = some after) :
    after.Sound ∧ ∀ (place : Nat) delivery, inbox.deliveries[place]? = some delivery →
      delivery.status = .read → after.deliveries[place]? = some delivery := by
  cases action with
  | sweep batchLimit =>
      obtain rfl := Option.some.inj steps
      refine ⟨sound.joined (.fresh ?_ nofun), fun place delivery held _ => held⟩
      rintro _ _ ⟨rfl, rfl⟩
      exact ⟨listPendingDigest_nodup batchLimit, rfl⟩
  | markRead recipientId place =>
      obtain rfl := Option.some.inj steps
      exact ⟨sound.joined (.fresh nofun nofun), fun place delivery held _ => held⟩
  | step index now =>
      obtain ⟨session, found, steps⟩ := Option.bind_eq_some_iff.mp steps
      obtain ⟨next, advances, steps⟩ := Option.bind_eq_some_iff.mp steps
      obtain rfl := Option.some.inj steps
      have cases := InboxSession.advance_cases advances
      simp only [Runs.current, found, Option.all_some] at current
      have fits := (sound.fits session (List.mem_of_getElem? found)).advanced cases current
      exact ⟨sound.moved found fits fun place => cases.unlocked, fun place delivery held _ => held⟩
  | commit index =>
      obtain ⟨session, found, steps⟩ := Option.bind_eq_some_iff.mp steps
      obtain ⟨reported, finished, steps⟩ := Option.bind_eq_some_iff.mp steps
      obtain rfl := Option.some.inj steps
      have fits := sound.fits session (List.mem_of_getElem? found)
      exact ⟨sound.committed found finished, fun place delivery => fits.keeps_read⟩
  | abort index =>
      obtain ⟨session, found, steps⟩ := Option.bind_eq_some_iff.mp steps
      split at steps
      · obtain rfl := Option.some.inj steps
        refine ⟨sound.moved found (.fresh nofun nofun) ?_, fun place delivery held _ => held⟩
        intro place written
        cases written
      · cases steps

/-- No sweep and no request has come. -/
def Inbox.started (deliveries : List Delivery) : Inbox := ⟨deliveries, [], []⟩

theorem Inbox.Sound.started (consistent : ∀ delivery ∈ deliveries, delivery.Consistent) :
    (Inbox.started deliveries).Sound where
  consistent := consistent
  fits session member := (List.not_mem_nil member).elim
  apart first second one two atFirst := by cases atFirst
  left place member := (List.not_mem_nil member).elim
  once := List.nodup_nil

/-- A read delivery stays as it is in every run on current rows. -/
theorem Inbox.Sound.keeps_read {actions : List InboxAction}
    (runs : Runs inboxStep (fun inbox action => current inbox action = true) inbox actions after)
    (sound : inbox.Sound) (held : inbox.deliveries[place]? = some delivery)
    (read : delivery.status = .read) : after.deliveries[place]? = some delivery := by
  induction runs with
  | nil inbox => exact held
  | cons permitted steps continues ih =>
      obtain ⟨sound, keeps⟩ := sound.step permitted steps
      exact ih sound (keeps place delivery held read)

section Example

/-- This is a pending digest delivery of the user. -/
def pendingDigest : Delivery := ⟨1, .digest, .pending, none⟩

/-- A sweep commits before its recipient reads the delivery. -/
def readAfterSweep : List InboxAction :=
  [.sweep 500, .step 0 0, .step 0 0, .commit 0, .markRead 1 0, .step 1 7, .step 1 7, .step 1 7, .commit 1]

theorem readAfterSweep_executes : (execute (guarded inboxStep current) (.started [pendingDigest])
    readAfterSweep).map (fun inbox => (inbox.deliveries, inbox.sent)) =
      some ([⟨1, .digest, .read, some 7⟩], [[0]]) := by
  decide

/-- The recipient reads the delivery after the sweep has listed it. -/
def readBeforeSweep : List InboxAction :=
  [.sweep 500, .markRead 1 0, .step 1 7, .step 1 7, .step 1 7, .commit 1]

/-- The sweep marks its delivery. -/
def sweepAfterRead : List InboxAction := [.step 0 0, .step 0 0, .commit 0]

end Example

end LumenCopilot.Runs
