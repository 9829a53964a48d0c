import LumenCopilot.Proof.Chat.Wire
import LumenCopilot.Proof.Library.Effect

namespace LumenCopilot.Chat

open Python Library

/-- Only the environment, the accounts, the Stop and its record differ. -/
def World.Still (world after : World) : Prop :=
  after = { world with
    script := after.script, clock := after.clock, provider := after.provider, tools := after.tools
    cancelRequested := after.cancelRequested, stops := after.stops, cancelling := after.cancelling
    modelCalls := after.modelCalls, emittedNarration := after.emittedNarration
    route := after.route, usage := after.usage, salvage := after.salvage, rows := after.rows
    draftRows := after.draftRows, reports := after.reports }

theorem World.Still.refl (world : World) : world.Still world := rfl

variable {world middle after : World}

theorem World.Still.trans (first : world.Still middle) (second : middle.Still after) :
    world.Still after := by
  unfold World.Still at *
  rw [second, first]

/-- A Stop is refused from the completion latch on. -/
def World.locked (world : World) : Bool :=
  world.completing || world.settlingError || world.answerCommitted || world.terminalSent

/-- Time passes: a Stop may be accepted, and nothing else of the control state changes. -/
structure World.Passes (world after : World) : Prop where
  completing : after.completing = world.completing
  settlingError : after.settlingError = world.settlingError
  finalisingCancel : after.finalisingCancel = world.finalisingCancel
  answerCommitted : after.answerCommitted = world.answerCommitted
  terminalSent : after.terminalSent = world.terminalSent
  terminalSeq : after.terminalSeq = world.terminalSeq
  producerDeadline : after.producerDeadline = world.producerDeadline
  stored : after.stored = world.stored
  draft : after.draft = world.draft
  kept : world.cancelRequested = true → after.cancelRequested = true
  lasting : world.cancelling = true → after.cancelling = true
  accepted : true ∈ after.stops → true ∈ world.stops ∨ after.cancelRequested = true
  refused : world.locked = true → after.cancelRequested = world.cancelRequested ∧
    (true ∈ after.stops → true ∈ world.stops)

theorem World.Passes.refl (world : World) : world.Passes world :=
  ⟨rfl, rfl, rfl, rfl, rfl, rfl, rfl, rfl, rfl, id, id, Or.inl, fun _ => ⟨rfl, id⟩⟩

theorem World.Passes.locked (passes : world.Passes after) : after.locked = world.locked := by
  unfold World.locked
  rw [passes.completing, passes.settlingError, passes.answerCommitted, passes.terminalSent]

theorem World.Passes.trans (first : world.Passes middle) (second : middle.Passes after) :
    world.Passes after where
  completing := second.completing.trans first.completing
  settlingError := second.settlingError.trans first.settlingError
  finalisingCancel := second.finalisingCancel.trans first.finalisingCancel
  answerCommitted := second.answerCommitted.trans first.answerCommitted
  terminalSent := second.terminalSent.trans first.terminalSent
  terminalSeq := second.terminalSeq.trans first.terminalSeq
  producerDeadline := second.producerDeadline.trans first.producerDeadline
  stored := second.stored.trans first.stored
  draft := second.draft.trans first.draft
  kept := fun stopped => second.kept (first.kept stopped)
  lasting := fun cancelling => second.lasting (first.lasting cancelling)
  accepted := fun stop => (second.accepted stop).elim
    (fun earlier => (first.accepted earlier).imp id second.kept) Or.inr
  refused := by
    intro locked
    obtain ⟨firstFlag, firstStops⟩ := first.refused locked
    obtain ⟨secondFlag, secondStops⟩ := second.refused (first.locked.trans locked)
    exact ⟨secondFlag.trans firstFlag, fun stop => firstStops (secondStops stop)⟩

def Interrupt.isProvider : Interrupt → Bool
  | .provider _ _ => true
  | _ => false

theorem Fault.interrupt_isProvider (fault : Fault) : fault.interrupt.isProvider = false := by
  cases fault <;> rfl

theorem World.requestCancel_passes (world : World) :
    world.Still world.requestCancel.2 ∧
      (world.locked = true → world.requestCancel.2.cancelRequested = world.cancelRequested ∧
        (true ∈ world.requestCancel.2.stops → true ∈ world.stops)) ∧
      (true ∈ world.requestCancel.2.stops →
        true ∈ world.stops ∨ world.requestCancel.2.cancelRequested = true) ∧
      (world.cancelRequested = true → world.requestCancel.2.cancelRequested = true) := by
  unfold World.requestCancel World.locked
  split
  · exact ⟨rfl, fun _ => ⟨rfl, by simp⟩, fun stop => Or.inl (by simpa using stop), id⟩
  · next open' => exact ⟨rfl, fun locked => absurd locked open', fun _ => Or.inr rfl, fun _ => rfl⟩

theorem World.requestCancel_locked (world : World) (locked : world.locked = true) :
    world.requestCancel.1 = false := by
  unfold World.locked at locked
  unfold World.requestCancel
  rw [if_pos locked]

theorem World.requestCancel_cancelling (world : World) :
    world.requestCancel.2.cancelling = world.cancelling := by
  unfold World.requestCancel
  split <;> rfl

/-- A suspension leaves the stream alone; a newly accepted Stop raises its cancellation. -/
theorem World.suspend_spec (world : World) (outcome : Await) :
    world.Still (world.suspend outcome).2 ∧ world.Passes (world.suspend outcome).2 ∧
      ((world.suspend outcome).2.cancelRequested = true → world.cancelRequested = true ∨
        (world.suspend outcome).1 = some (.cancelled .stop) ∧
          (world.suspend outcome).2.cancelling = true) ∧
      (∀ interrupt, (world.suspend outcome).1 = some interrupt → interrupt.isProvider = false) ∧
      (world.locked = true → (world.suspend outcome).1 = outcome.ending.map Fault.interrupt) := by
  obtain ⟨still, refused, accepted, kept⟩ := world.requestCancel_passes
  unfold World.suspend
  generalize stoppedIs : (if outcome.stops then world.requestCancel.2 else world) = stopped
  have facts : world.Still stopped ∧
      (world.locked = true → stopped.cancelRequested = world.cancelRequested ∧
        (true ∈ stopped.stops → true ∈ world.stops)) ∧
      (true ∈ stopped.stops → true ∈ world.stops ∨ stopped.cancelRequested = true) ∧
      (world.cancelRequested = true → stopped.cancelRequested = true) := by
    rw [← stoppedIs]
    split
    · exact ⟨still, refused, accepted, kept⟩
    · exact ⟨World.Still.refl world, fun _ => ⟨rfl, id⟩, Or.inl, id⟩
  obtain ⟨still, refused, accepted, kept⟩ := facts
  have cancelling : stopped.cancelling = world.cancelling := by
    rw [← stoppedIs]
    split
    · exact world.requestCancel_cancelling
    · rfl
  have passes (value : Bool) (lasting : world.cancelling = true → value = true) :
      world.Passes { stopped with cancelling := value } := by
    unfold World.Still at still
    refine ⟨?_, ?_, ?_, ?_, ?_, ?_, ?_, ?_, ?_, kept, lasting, accepted, refused⟩ <;> rw [still]
  have same (value : Bool) : world.Still { stopped with cancelling := value } := by
    unfold World.Still at still ⊢
    rw [still]
  dsimp only
  split
  · next newly =>
      simp only [Bool.and_eq_true, Bool.not_eq_true'] at newly
      refine ⟨same true, passes true fun _ => rfl, fun _ => Or.inr ⟨rfl, rfl⟩, ?_, ?_⟩
      · intro interrupt raised
        obtain rfl := Option.some.inj raised
        rfl
      · intro locked
        have unchanged := (refused locked).1
        simp [newly.1, newly.2] at unchanged
  · next old =>
      have earlier : stopped.cancelRequested = true → world.cancelRequested = true := by
        intro now
        by_contra before
        exact old (by simp [now, before])
      refine ⟨same _, passes _ fun earlier => by simp [cancelling, earlier], fun now => Or.inl (earlier now), ?_, fun _ => rfl⟩
      intro interrupt raised
      obtain ⟨fault, -, rfl⟩ := Option.map_eq_some_iff.mp raised
      exact fault.interrupt_isProvider

end LumenCopilot.Chat
