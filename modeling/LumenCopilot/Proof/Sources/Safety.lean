import LumenCopilot.Proof.Library.Transition
import LumenCopilot.Proof.Sources.Deletion

namespace LumenCopilot.Sources
open Library

variable {state later : State} {deletion next : Deletion} {i : Nat}

/-- The committed rows and the objects agree with what the deletions have done. -/
structure State.Sound (state : State) : Prop where
  known : ∀ document ∈ state.documents, document ∈ state.history
  unique : ∀ document ∈ state.history, ∀ other ∈ state.history,
    document.id = other.id → document = other
  reserved : ∀ document ∈ state.history, ∀ id, document.storageKey = .quarantine id → document.id = id
  housed : ∀ document ∈ state.documents, document.collection ∈ state.collections
  stored : ∀ document ∈ state.documents, document.storageKey ∈ state.objects ∨
    ∃ deletion ∈ state.deletions, deletion.isOpen = true ∧ document.storageKey ∈ deletion.dropped
  kept : ∀ document ∈ state.history, document ∈ state.documents ∨
    ∃ deletion ∈ state.deletions, deletion.phase = .committed ∧ document ∈ deletion.removed
  deletions : ∀ deletion ∈ state.deletions, deletion.Sound state.documents state.history

/-- No deletion has begun, every row is one of a distinct document in a collection and names an
object, and the key of a direct upload is its own. -/
structure State.Consistent (state : State) : Prop where
  idle : state.deletions = []
  history : state.history = state.documents
  unique : ∀ document ∈ state.documents, ∀ other ∈ state.documents,
    document.id = other.id → document = other
  reserved : ∀ document ∈ state.documents, ∀ id,
    document.storageKey = .quarantine id → document.id = id
  housed : ∀ document ∈ state.documents, document.collection ∈ state.collections
  stored : ∀ document ∈ state.documents, document.storageKey ∈ state.objects

theorem State.Consistent.sound (consistent : state.Consistent) : state.Sound where
  known document member := consistent.history.symm ▸ member
  unique := consistent.history.symm ▸ consistent.unique
  reserved := consistent.history.symm ▸ consistent.reserved
  housed := consistent.housed
  stored document member := Or.inl (consistent.stored document member)
  kept document member := Or.inl (consistent.history ▸ member)
  deletions := by simp [consistent.idle]

variable {document : Document}

/-- An upload row is new, and so is its key. -/
theorem State.Sound.unread (sound : state.Sound) (accepts : state.accepts document = true)
    (member : deletion ∈ state.deletions) : deletion.Unread state.history document := by
  simp only [State.accepts, Bool.and_eq_true, decide_eq_true_eq, Bool.not_eq_true'] at accepts
  obtain ⟨⟨⟨⟨-, keyed⟩, new⟩, -⟩, unlocked⟩ := accepts
  constructor
  · exact fun known => new (List.mem_map_of_mem known)
  · intro other known same
    have named := sound.reserved other known document.id (same.trans keyed)
    exact new (named ▸ List.mem_map_of_mem known)
  · intro opened deleted
    have locked : state.isCollectionLocked document.collection = true :=
      List.any_eq_true.mpr ⟨deletion, member, by simp [opened, deleted]⟩
    simp [locked] at unlocked

/-- An upload adds its row with its object. -/
theorem State.Sound.uploads (sound : state.Sound) (accepts : state.accepts document = true) :
    State.Sound { state with
      documents := state.documents ++ [document]
      objects := state.objects ++ [document.storageKey]
      history := state.history ++ [document] } := by
  have accepted := accepts
  simp only [State.accepts, Bool.and_eq_true, decide_eq_true_eq, Bool.not_eq_true'] at accepted
  obtain ⟨⟨⟨⟨-, keyed⟩, new⟩, within⟩, -⟩ := accepted
  have fresh : ∀ other ∈ state.history, other.id ≠ document.id :=
    fun other known same => new (same ▸ List.mem_map_of_mem known)
  constructor
  · intro other member
    rcases List.mem_append.mp member with old | last
    · exact List.mem_append_left _ (sound.known other old)
    · exact List.mem_append_right _ last
  · intro first one second two same
    rcases List.mem_append.mp one with old | last
    · rcases List.mem_append.mp two with old' | last'
      · exact sound.unique first old second old' same
      · obtain rfl := List.mem_singleton.mp last'
        exact absurd same (fresh first old)
    · obtain rfl := List.mem_singleton.mp last
      rcases List.mem_append.mp two with old' | last'
      · exact absurd same.symm (fresh second old')
      · exact (List.mem_singleton.mp last').symm
  · intro other member id reserved
    rcases List.mem_append.mp member with old | last
    · exact sound.reserved other old id reserved
    · obtain rfl := List.mem_singleton.mp last
      exact StorageKey.quarantine.inj (keyed.symm.trans reserved)
  · intro other member
    rcases List.mem_append.mp member with old | last
    · exact sound.housed other old
    · obtain rfl := List.mem_singleton.mp last
      exact within
  · intro other member
    rcases List.mem_append.mp member with old | last
    · rcases sound.stored other old with stored | dropped
      · exact Or.inl (List.mem_append_left _ stored)
      · exact Or.inr dropped
    · obtain rfl := List.mem_singleton.mp last
      exact Or.inl (List.mem_append_right _ (List.mem_singleton_self _))
  · intro other member
    rcases List.mem_append.mp member with old | last
    · rcases sound.kept other old with present | gone
      · exact Or.inl (List.mem_append_left _ present)
      · exact Or.inr gone
    · exact Or.inl (List.mem_append_right _ last)
  · intro deletion member
    apply (sound.deletions deletion member).moves
    · exact fun other known => List.mem_append_left _ known
    · intro other present
      rcases List.mem_append.mp present with old | last
      · exact Or.inl old
      · obtain rfl := List.mem_singleton.mp last
        exact Or.inr (sound.unread accepts member)

/-- A deletion that begins has done nothing. -/
theorem State.Sound.deletes (sound : state.Sound) (target : Target) :
    State.Sound { state with deletions := state.deletions ++ [{ target := target }] } := by
  constructor
  · exact sound.known
  · exact sound.unique
  · exact sound.reserved
  · exact sound.housed
  · intro document present
    rcases sound.stored document present with stored | ⟨deletion, member, dropped⟩
    · exact Or.inl stored
    · exact Or.inr ⟨deletion, List.mem_append_left _ member, dropped⟩
  · intro document known
    rcases sound.kept document known with present | ⟨deletion, member, gone⟩
    · exact Or.inl present
    · exact Or.inr ⟨deletion, List.mem_append_left _ member, gone⟩
  · intro deletion member
    rcases List.mem_append.mp member with old | last
    · exact sound.deletions deletion old
    · obtain rfl := List.mem_singleton.mp last
      exact Deletion.Sound.of_new target

/-- A deletion of the list is the one that is put elsewhere, or stays. -/
theorem State.mem_put {other : Deletion} (found : state.deletions[i]? = some deletion)
    (member : other ∈ state.deletions) (next : Deletion) :
    other = deletion ∨ other ∈ (state.put i next).deletions := mem_set_of_mem found member

theorem State.mem_put_self (found : state.deletions[i]? = some deletion) (next : Deletion) :
    next ∈ (state.put i next).deletions :=
  List.mem_of_getElem? ((getElem?_set_iff found).mpr (Or.inl ⟨rfl, rfl⟩))

/-- What a committed deletion has removed stays removed when an open one is put elsewhere. -/
theorem State.committed_put (found : state.deletions[i]? = some deletion)
    (opened : deletion.isOpen = true) (next : Deletion)
    (gone : ∃ other ∈ state.deletions, other.phase = .committed ∧ document ∈ other.removed) :
    ∃ other ∈ (state.put i next).deletions, other.phase = .committed ∧ document ∈ other.removed := by
  obtain ⟨other, member, committed, removed⟩ := gone
  rcases State.mem_put found member next with rfl | member
  · simp [Deletion.isOpen, committed] at opened
  · exact ⟨other, member, committed, removed⟩

/-- A document of the history is stored, or an earlier deletion has committed its removal. -/
theorem State.Sound.kept_put (sound : state.Sound) (found : state.deletions[i]? = some deletion)
    (opened : deletion.isOpen = true) (next : Deletion) :
    ∀ document ∈ state.history, document ∈ state.documents ∨
      ∃ other ∈ (state.put i next).deletions, other.phase = .committed ∧ document ∈ other.removed := by
  intro document known
  rcases sound.kept document known with present | gone
  · exact Or.inl present
  · exact Or.inr (State.committed_put found opened next gone)

theorem State.Sound.deletions_put (sound : state.Sound)
    (nextSound : next.Sound state.documents state.history) :
    ∀ other ∈ (state.put i next).deletions, other.Sound state.documents state.history := by
  intro other member
  rcases List.mem_or_eq_of_mem_set member with old | rfl
  · exact sound.deletions other old
  · exact nextSound

/-- A deletion that goes on leaves the rows and the objects as they are. -/
theorem State.Sound.put (sound : state.Sound) (found : state.deletions[i]? = some deletion)
    (opened : deletion.isOpen = true) (nextSound : next.Sound state.documents state.history)
    (stays : next.isOpen = true) (same : next.dropped = deletion.dropped) :
    (state.put i next).Sound := by
  constructor
  · exact sound.known
  · exact sound.unique
  · exact sound.reserved
  · exact sound.housed
  · intro document present
    rcases sound.stored document present with stored | ⟨other, member, dropped⟩
    · exact Or.inl stored
    · apply Or.inr
      rcases State.mem_put found member next with rfl | member
      · exact ⟨next, State.mem_put_self found next, stays, same ▸ dropped.2⟩
      · exact ⟨other, member, dropped⟩
  · exact sound.kept_put found opened _
  · exact sound.deletions_put nextSound

/-- The object of a freed key is deleted while the transaction is open. -/
theorem State.Sound.drop (sound : state.Sound) (found : state.deletions[i]? = some deletion)
    {key : StorageKey} {rest : List StorageKey} (dropping : deletion.phase = .dropping key rest) :
    (State.put { state with objects := state.objects.filter (· ≠ key) } i
      { deletion with dropped := deletion.dropped ++ [key], phase := .cleaning rest }).Sound := by
  have opened : deletion.isOpen = true := by simp [Deletion.isOpen, dropping]
  have nextSound := ((sound.deletions deletion (List.mem_of_getElem? found)).drops dropping).2
  generalize chosen : ({ deletion with
    dropped := deletion.dropped ++ [key], phase := .cleaning rest } : Deletion) = next
  rw [chosen] at nextSound
  have stays : next.isOpen = true := by simp [← chosen, Deletion.isOpen]
  have dropped : next.dropped = deletion.dropped ++ [key] := by simp [← chosen]
  have self := State.mem_put_self found next
  constructor
  · exact sound.known
  · exact sound.unique
  · exact sound.reserved
  · exact sound.housed
  · intro document present
    by_cases same : document.storageKey = key
    · exact Or.inr ⟨next, self, stays, by simp [dropped, same]⟩
    · rcases sound.stored document present with stored | ⟨other, member, open_, lost⟩
      · exact Or.inl (List.mem_filter.mpr ⟨stored, by simp [same]⟩)
      · apply Or.inr
        rcases State.mem_put found member next with rfl | member
        · exact ⟨next, self, stays, dropped ▸ List.mem_append_left _ lost⟩
        · exact ⟨other, member, open_, lost⟩
  · exact sound.kept_put found opened _
  · exact sound.deletions_put nextSound

/-- A commit deletes the removed rows, and the collection that they have left empty. -/
theorem State.Sound.commit (sound : state.Sound) (found : state.deletions[i]? = some deletion)
    (opened : deletion.isOpen = true) :
    (State.put { state with
        documents := state.documents.filter (· ∉ deletion.removed)
        collections := state.collections.filter (some · ≠ deletion.collection) } i
      { deletion with phase := .committed }).Sound := by
  have own := sound.deletions deletion (List.mem_of_getElem? found)
  have nextSound := own.ends opened (Or.inl rfl)
  have self := State.mem_put_self found { deletion with phase := .committed }
  have remains : ∀ document ∈ state.documents.filter (· ∉ deletion.removed),
      document ∈ state.documents ∧ document ∉ deletion.removed := by
    intro document member
    simpa using List.mem_filter.mp member
  constructor
  · exact fun document member => sound.known document (remains document member).1
  · exact sound.unique
  · exact sound.reserved
  · intro document member
    obtain ⟨present, spared⟩ := remains document member
    apply List.mem_filter.mpr
    constructor
    · exact sound.housed document present
    · simp only [ne_eq, decide_not, Bool.not_eq_true', decide_eq_false_iff_not]
      intro deleted
      exact spared (own.empties document.collection opened deleted.symm document present rfl)
  · intro document member
    obtain ⟨present, spared⟩ := remains document member
    rcases sound.stored document present with stored | ⟨other, held, open_, lost⟩
    · exact Or.inl stored
    · apply Or.inr
      rcases State.mem_put found held { deletion with phase := .committed } with rfl | held
      · exact absurd ((own.frees document.storageKey lost).2 document present rfl) spared
      · exact ⟨other, held, open_, lost⟩
  · intro document known
    rcases sound.kept document known with present | gone
    · by_cases removed : document ∈ deletion.removed
      · exact Or.inr ⟨_, self, rfl, removed⟩
      · exact Or.inl (List.mem_filter.mpr ⟨present, by simp [removed]⟩)
    · exact Or.inr (State.committed_put found opened _ gone)
  · intro other member
    have shrinks : ∀ document ∈ state.documents.filter (· ∉ deletion.removed),
        document ∈ state.documents ∨ other.Unread state.history document :=
      fun document member => Or.inl (remains document member).1
    rcases List.mem_or_eq_of_mem_set member with old | rfl
    · exact (sound.deletions other old).moves (fun _ known => known) shrinks
    · exact nextSound.moves (fun _ known => known) shrinks

/-- No row that a rollback would restore names an object that the deletion has deleted. -/
def Deletion.isRevocable (deletion : Deletion) : Bool :=
  deletion.removed.all fun document => document.storageKey ∉ deletion.dropped

/-- A rollback restores the removed rows, and with them no name of a deleted object. -/
theorem State.Sound.fail (sound : state.Sound) (found : state.deletions[i]? = some deletion)
    (opened : deletion.isOpen = true) (revocable : deletion.isRevocable = true) :
    (state.put i { deletion with phase := .failed }).Sound := by
  have own := sound.deletions deletion (List.mem_of_getElem? found)
  constructor
  · exact sound.known
  · exact sound.unique
  · exact sound.reserved
  · exact sound.housed
  · intro document present
    rcases sound.stored document present with stored | ⟨other, held, open_, lost⟩
    · exact Or.inl stored
    · apply Or.inr
      rcases State.mem_put found held { deletion with phase := .failed } with rfl | held
      · have removed := (own.frees document.storageKey lost).2 document present rfl
        have unnamed := List.all_eq_true.mp revocable document removed
        simp [lost] at unnamed
      · exact ⟨other, held, open_, lost⟩
  · exact sound.kept_put found opened _
  · exact sound.deletions_put (own.ends opened (Or.inr rfl))

theorem Deletion.begins_open (begins : deletion.begins state = some next) :
    next.isOpen = true ∧ next.dropped = deletion.dropped := by
  unfold Deletion.begins at begins
  split at begins
  · obtain rfl := Option.some.inj begins
    exact ⟨rfl, rfl⟩
  · obtain rfl := Option.some.inj begins
    exact ⟨rfl, rfl⟩
  · split at begins
    · obtain rfl := Option.some.inj begins
      exact ⟨rfl, rfl⟩
    · contradiction

theorem Deletion.reads_open (state : State) (deletion : Deletion) :
    (deletion.reads state).isOpen = true ∧ (deletion.reads state).dropped = deletion.dropped := by
  unfold Deletion.reads
  split
  · exact ⟨rfl, rfl⟩
  · exact ⟨rfl, rfl⟩

theorem Deletion.deletes_open {rest : List Document}
    (deletes : deletion.deletes state document rest = some next) :
    next.isOpen = true ∧ next.dropped = deletion.dropped := by
  unfold Deletion.deletes at deletes
  split at deletes
  · contradiction
  · split at deletes
    · obtain rfl := Option.some.inj deletes
      exact ⟨rfl, rfl⟩
    · obtain rfl := Option.some.inj deletes
      exact ⟨rfl, rfl⟩

theorem Deletion.reclaims_open (state : State) (deletion : Deletion) :
    (deletion.reclaims state).isOpen = true ∧
      (deletion.reclaims state).dropped = deletion.dropped := by
  unfold Deletion.reclaims
  split
  · split
    · exact ⟨rfl, rfl⟩
    · exact ⟨rfl, rfl⟩
  · exact ⟨rfl, rfl⟩

theorem Deletion.flushes_open {collection : Option Nat}
    (flushes : deletion.flushes state collection = some next) :
    next.isOpen = true ∧ next.dropped = deletion.dropped := by
  unfold Deletion.flushes at flushes
  split at flushes
  · obtain rfl := Option.some.inj flushes
    exact ⟨rfl, rfl⟩
  · dsimp only at flushes
    split at flushes
    · contradiction
    · obtain rfl := Option.some.inj flushes
      exact ⟨rfl, rfl⟩

/-- The next call of a deletion keeps the rows and the objects in agreement, unless it flushes a
collection that has changed. -/
theorem State.Sound.advance (sound : state.Sound) (found : state.deletions[i]? = some deletion)
    (unchanged : deletion.isUnchanged state = true)
    (advances : state.advance i deletion = some later) : later.Sound := by
  have own := sound.deletions deletion (List.mem_of_getElem? found)
  unfold State.advance at advances
  split at advances
  · next started =>
      obtain ⟨next, begins, rfl⟩ := Option.map_eq_some_iff.mp advances
      obtain ⟨stays, same⟩ := Deletion.begins_open begins
      exact sound.put found (by simp [Deletion.isOpen, started])
        (own.begins started sound.known begins) stays same
  · next listing =>
      obtain rfl := Option.some.inj advances
      obtain ⟨stays, same⟩ := Deletion.reads_open state deletion
      exact sound.put found (by simp [Deletion.isOpen, listing]) (own.reads listing sound.known)
        stays same
  · next deleting =>
      obtain rfl := Option.some.inj advances
      exact sound.put found (by simp [Deletion.isOpen, deleting]) (own.clears deleting) rfl rfl
  · next document rest deleting =>
      obtain ⟨next, deletes, rfl⟩ := Option.map_eq_some_iff.mp advances
      obtain ⟨stays, same⟩ := Deletion.deletes_open deletes
      exact sound.put found (by simp [Deletion.isOpen, deleting]) (own.deletes deleting deletes)
        stays same
  · next reclaiming =>
      obtain rfl := Option.some.inj advances
      obtain ⟨stays, same⟩ := Deletion.reclaims_open state deletion
      exact sound.put found (by simp [Deletion.isOpen, reclaiming]) (own.reclaims reclaiming)
        stays same
  · next collection flushing =>
      obtain ⟨next, flushes, rfl⟩ := Option.map_eq_some_iff.mp advances
      obtain ⟨stays, same⟩ := Deletion.flushes_open flushes
      exact sound.put found (by simp [Deletion.isOpen, flushing])
        (own.flushes sound.unique sound.known flushing unchanged flushes) stays same
  · next key rest cleaning =>
      have opened : deletion.isOpen = true := by simp [Deletion.isOpen, cleaning]
      split at advances
      · next zero =>
          obtain rfl := Option.some.inj advances
          exact sound.put found opened ((own.counts cleaning).1 zero) rfl rfl
      · obtain rfl := Option.some.inj advances
        exact sound.put found opened (own.counts cleaning).2 rfl rfl
  · next key rest dropping =>
      obtain rfl := Option.some.inj advances
      exact sound.drop found dropping
  · next cleaning =>
      obtain rfl := Option.some.inj advances
      exact sound.commit found (by simp [Deletion.isOpen, cleaning])
  · contradiction
  · contradiction

/-- A step is careful when it does not flush a collection that has changed since it was read, and
does not roll back rows whose objects it has deleted. -/
def State.isCareful (state : State) : Action → Bool
  | .advance i => state.deletions[i]?.all (Deletion.isUnchanged state)
  | .fail i => state.deletions[i]?.all Deletion.isRevocable
  | _ => true

/-- A careful step keeps the rows and the objects in agreement. -/
theorem State.Sound.step (sound : state.Sound) {action : Action}
    (careful : state.isCareful action = true) (steps : state.step action = some later) :
    later.Sound := by
  cases action with
  | upload document =>
      simp only [State.step] at steps
      split at steps
      · next accepts =>
          obtain rfl := Option.some.inj steps
          exact sound.uploads accepts
      · contradiction
  | delete target =>
      obtain rfl := Option.some.inj steps
      exact sound.deletes target
  | advance i =>
      obtain ⟨deletion, found, advances⟩ := Option.bind_eq_some_iff.mp steps
      have unchanged : deletion.isUnchanged state = true := by
        simpa [State.isCareful, found] using careful
      exact sound.advance found unchanged advances
  | storeFails i =>
      obtain ⟨deletion, found, fails⟩ := Option.bind_eq_some_iff.mp steps
      split at fails
      · next dropping =>
          obtain rfl := Option.some.inj fails
          have own := sound.deletions deletion (List.mem_of_getElem? found)
          exact sound.put found (by simp [Deletion.isOpen, dropping]) (own.drops dropping).1 rfl rfl
      · contradiction
  | fail i =>
      obtain ⟨deletion, found, fails⟩ := Option.bind_eq_some_iff.mp steps
      have revocable : deletion.isRevocable = true := by
        simpa [State.isCareful, found] using careful
      split at fails
      · next opened =>
          obtain rfl := Option.some.inj fails
          exact sound.fail found opened revocable
      · contradiction

/-- A source deletion destroys only what its source has ingested: each document is there until a
deletion that removes it commits, a source deletion removes only documents that carry the id of its
source and no collection that still holds another, and a row names an object unless a deletion that
is about to commit has removed both. -/
structure State.Safe (state : State) : Prop where
  kept : ∀ document ∈ state.history, document ∈ state.documents ∨
    ∃ deletion ∈ state.deletions, deletion.phase = .committed ∧ document ∈ deletion.removed
  own : ∀ deletion ∈ state.deletions, ∀ id backing, deletion.target = .source id backing →
    ∀ document ∈ deletion.removed, document.source = some id
  empty : ∀ deletion ∈ state.deletions, ∀ id backing, deletion.target = .source id backing →
    deletion.cascaded = []
  housed : ∀ document ∈ state.documents, document.collection ∈ state.collections
  stored : ∀ document ∈ state.documents, document.storageKey ∈ state.objects ∨
    ∃ deletion ∈ state.deletions, deletion.isOpen = true ∧ document ∈ deletion.removed

theorem State.Sound.safe (sound : state.Sound) : state.Safe where
  kept := sound.kept
  own := by
    intro deletion member id backing target document removed
    have own := sound.deletions deletion member
    have sourced : deletion.sourceId = some id := by simp [Deletion.sourceId, target]
    exact own.owned id sourced document (own.spares (by simp [sourced]) document removed)
  empty := by
    intro deletion member id backing target
    exact (sound.deletions deletion member).cascadesNothing (by simp [Deletion.sourceId, target])
  housed := sound.housed
  stored := by
    intro document present
    rcases sound.stored document present with stored | ⟨deletion, member, opened, lost⟩
    · exact Or.inl stored
    · have frees := (sound.deletions deletion member).frees document.storageKey lost
      exact Or.inr ⟨deletion, member, opened, frees.2 document present rfl⟩

/-- In every run of careful steps, uploads and deletions in any order destroy only what they may. -/
theorem State.run_safe {start finish : State} {actions : List Action} (consistent : start.Consistent)
    (runs : Runs State.step (fun state action => state.isCareful action = true) start actions finish) :
    finish.Safe :=
  State.Sound.safe (runs.invariant State.Sound
    (fun _ _ _ sound careful steps => sound.step careful steps) consistent.sound)

/-- The source 7 has one ingested document in its backing collection. -/
def State.sample : State where
  documents := [{ id := 1, collection := 5, source := some 7, storageKey := .content 100 }]
  collections := [5]
  objects := [.content 100]
  deletions := []
  history := [{ id := 1, collection := 5, source := some 7, storageKey := .content 100 }]

theorem State.sample_consistent : State.sample.Consistent := by
  constructor <;> simp [State.sample]

/-- This is a direct upload into the backing collection. -/
def sampleUpload : Action :=
  .upload { id := 2, collection := 5, source := none, storageKey := .quarantine 2 }

/-- The upload commits before the deletion reads the collection. -/
def uploadBefore : List Action :=
  sampleUpload :: .delete (.source 7 (some 5)) :: List.replicate 9 (.advance 0)

/-- The upload commits after the second snapshot. -/
def uploadBetween : List Action :=
  .delete (.source 7 (some 5)) :: .advance 0 :: .advance 0 :: sampleUpload ::
    List.replicate 7 (.advance 0)

/-- The transaction fails after the last object was deleted. -/
def failAfterDrop : List Action :=
  .delete (.source 7 (some 5)) :: List.replicate 8 (.advance 0) ++ [.fail 0]

theorem uploadBefore_executes :
    (execute (guarded State.step State.isCareful) .sample uploadBefore).map (fun state =>
        (state.deletions.map Deletion.phase, state.documents.map Document.id, state.collections,
          state.objects)) =
      some ([.committed], [2], [5], [.quarantine 2]) := by
  decide

theorem uploadBetween_executes :
    (execute State.step .sample uploadBetween).map (fun state =>
        (state.documents, state.deletions.any fun deletion =>
          deletion.target = .source 7 (some 5) && deletion.removed.any (·.source = none))) =
      some ([], true) := by
  decide

theorem failAfterDrop_executes :
    (execute State.step .sample failAfterDrop).map (fun state =>
        (state.documents.map Document.storageKey, state.objects,
          state.deletions.map Deletion.phase)) =
      some ([.content 100], [], [.failed]) := by
  decide

/-- The uploaded document is there after the deletion, with its collection and its object. -/
theorem State.run_safe_uploadBefore : ∃ finish,
    Runs State.step (fun state action => state.isCareful action = true) .sample uploadBefore finish ∧
      finish.documents.map Document.id = [2] ∧ finish.collections = [5] ∧ finish.Safe := by
  obtain ⟨finish, executes, ends⟩ := Option.map_eq_some_iff.mp uploadBefore_executes
  simp only [Prod.mk.injEq] at ends
  have runs := Runs.of_execute executes
  exact ⟨finish, runs, ends.2.1, ends.2.2.1, State.run_safe State.sample_consistent runs⟩

/-- An upload after the second snapshot is destroyed, and a late failure leaves a row that names
a deleted object. -/
theorem State.run_unsafe : State.sample.Consistent ∧
    (∃ finish, Runs State.step (fun _ _ => True) .sample uploadBetween finish ∧
      finish.documents = [] ∧ ¬ finish.Safe) ∧
    ∃ finish, Runs State.step (fun _ _ => True) .sample failAfterDrop finish ∧
      finish.deletions.map Deletion.phase = [.failed] ∧ finish.objects = [] ∧ ¬ finish.Safe := by
  refine ⟨State.sample_consistent, ?_, ?_⟩
  · obtain ⟨finish, executes, ends⟩ := Option.map_eq_some_iff.mp uploadBetween_executes
    obtain ⟨empty, destroys⟩ := Prod.mk.inj ends
    refine ⟨finish, Runs.of_unchecked executes, empty, fun safe => ?_⟩
    obtain ⟨deletion, member, checks⟩ := List.any_eq_true.mp destroys
    simp only [Bool.and_eq_true, decide_eq_true_eq, List.any_eq_true] at checks
    obtain ⟨target, document, removed, uploaded⟩ := checks
    have carries := safe.own deletion member 7 (some 5) target document removed
    rw [uploaded] at carries
    contradiction
  · obtain ⟨finish, executes, ends⟩ := Option.map_eq_some_iff.mp failAfterDrop_executes
    simp only [Prod.mk.injEq] at ends
    obtain ⟨keys, objects, phases⟩ := ends
    refine ⟨finish, Runs.of_unchecked executes, phases, objects, fun safe => ?_⟩
    obtain ⟨document, present, -⟩ := List.mem_map.mp
      (keys ▸ List.mem_singleton_self (StorageKey.content 100))
    rcases safe.stored document present with stored | ⟨deletion, member, opened, -⟩
    · simp [objects] at stored
    · have failed : deletion.phase ∈ finish.deletions.map Deletion.phase := List.mem_map_of_mem member
      rw [phases] at failed
      simp [Deletion.isOpen, List.mem_singleton.mp failed] at opened

end LumenCopilot.Sources
