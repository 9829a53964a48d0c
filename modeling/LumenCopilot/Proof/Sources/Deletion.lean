import LumenCopilot.Construction.Sources.Deletion
import LumenCopilot.Proof.Library.Lists

namespace LumenCopilot.Sources

variable {state : State} {deletion next : Deletion} {documents history : List Document}

/-- This is the source of a source deletion. -/
def Deletion.sourceId (deletion : Deletion) : Option Nat :=
  match deletion.target with
  | .source id _ => some id
  | _ => none

/-- This is the backing collection of the source of a source deletion. -/
def Deletion.backing (deletion : Deletion) : Option Nat :=
  match deletion.target with
  | .source _ backing => backing
  | _ => none

/-- Every listed document that is still committed has been deleted. -/
def Deletion.Cleared (documents : List Document) (deletion : Deletion) : Prop :=
  ∀ document ∈ deletion.listed, document ∈ documents → document ∈ deletion.removed

/-- A listed document names the key, and the deletion has deleted every committed one that does. -/
def Deletion.Frees (documents : List Document) (deletion : Deletion) (key : StorageKey) : Prop :=
  (∃ document ∈ deletion.listed, document.storageKey = key) ∧
    ∀ document ∈ documents, document.storageKey = key → document ∈ deletion.removed

/-- This is what the next statements of a deletion rest on. -/
def Deletion.OnTrack (documents : List Document) (deletion : Deletion) : Prop :=
  match deletion.phase with
  | .started => deletion.removed = [] ∧ deletion.dropped = []
  | .deleting rest =>
      (∀ document ∈ rest, document ∈ deletion.listed) ∧
        ∀ document ∈ deletion.listed, document ∈ documents →
          document ∈ rest ∨ document ∈ deletion.removed
  | .reclaiming => deletion.Cleared documents
  | .flushing (some collection) => deletion.sourceId ≠ none →
      deletion.Cleared documents ∧ deletion.backing = some collection ∧
        deletion.hasUnrelatedDocuments = false
  | .cleaning keys => ∀ key ∈ keys, ∃ document ∈ deletion.listed, document.storageKey = key
  | .dropping key rest => deletion.Frees documents key ∧
      ∀ key ∈ rest, ∃ document ∈ deletion.listed, document.storageKey = key
  | _ => True

/-- A deletion acts on documents that it has read, and a source deletion on those of its source. -/
structure Deletion.Sound (documents history : List Document) (deletion : Deletion) : Prop where
  listed : ∀ document ∈ deletion.listed, document ∈ history
  held : ∀ document ∈ deletion.held, document ∈ history
  removed : ∀ document ∈ deletion.removed, document ∈ history
  owned : ∀ id, deletion.sourceId = some id →
    ∀ document ∈ deletion.listed, document.source = some id
  spares : deletion.sourceId ≠ none → ∀ document ∈ deletion.removed, document ∈ deletion.listed
  cascadesNothing : deletion.sourceId ≠ none → deletion.cascaded = []
  frees : ∀ key ∈ deletion.dropped, deletion.Frees documents key
  empties : ∀ collection, deletion.isOpen = true → deletion.collection = some collection →
    ∀ document ∈ documents, document.collection = collection → document ∈ deletion.removed
  onTrack : deletion.OnTrack documents

/-- A document that the deletion could not have read names an object of its own, and its
collection is not one that the deletion has deleted. -/
structure Deletion.Unread (history : List Document) (deletion : Deletion) (document : Document) :
    Prop where
  unknown : document ∉ history
  separate : ∀ other ∈ history, other.storageKey ≠ document.storageKey
  elsewhere : deletion.isOpen = true → deletion.collection ≠ some document.collection

/-- A new deletion has read nothing. -/
theorem Deletion.Sound.of_new (target : Target) : Deletion.Sound documents history { target } where
  listed := by simp
  held := by simp
  removed := by simp
  owned := by simp
  spares := by simp
  cascadesNothing := by simp
  frees := by simp
  empties := by simp
  onTrack := ⟨rfl, rfl⟩

variable {key : StorageKey} {later : List Document}

theorem Deletion.Frees.moves (frees : deletion.Frees documents key)
    (listed : ∀ document ∈ deletion.listed, document ∈ history)
    (arrives : ∀ document ∈ later, document ∈ documents ∨ deletion.Unread history document) :
    deletion.Frees later key := by
  obtain ⟨⟨named, member, names⟩, frees⟩ := frees
  constructor
  · exact ⟨named, member, names⟩
  · intro document present keyed
    rcases arrives document present with known | unread
    · exact frees document known keyed
    · exact absurd (names.trans keyed.symm) (unread.separate named (listed named member))

theorem Deletion.Cleared.moves (cleared : deletion.Cleared documents)
    (listed : ∀ document ∈ deletion.listed, document ∈ history)
    (arrives : ∀ document ∈ later, document ∈ documents ∨ deletion.Unread history document) :
    deletion.Cleared later := by
  intro document member present
  rcases arrives document present with known | unread
  · exact cleared document member known
  · exact absurd (listed document member) unread.unknown

theorem Deletion.OnTrack.moves (onTrack : deletion.OnTrack documents)
    (listed : ∀ document ∈ deletion.listed, document ∈ history)
    (arrives : ∀ document ∈ later, document ∈ documents ∨ deletion.Unread history document) :
    deletion.OnTrack later := by
  unfold Deletion.OnTrack at onTrack ⊢
  split at onTrack
  · exact onTrack
  · constructor
    · exact onTrack.1
    · intro document member present
      rcases arrives document present with known | unread
      · exact onTrack.2 document member known
      · exact absurd (listed document member) unread.unknown
  · exact Deletion.Cleared.moves onTrack listed arrives
  · intro sourced
    obtain ⟨cleared, backed, related⟩ := onTrack sourced
    exact ⟨cleared.moves listed arrives, backed, related⟩
  · exact onTrack
  · exact ⟨onTrack.1.moves listed arrives, onTrack.2⟩
  · trivial

/-- Other transactions take committed rows away or add rows that the deletion has not read. -/
theorem Deletion.Sound.moves {past : List Document} (sound : deletion.Sound documents history)
    (grows : ∀ document ∈ history, document ∈ past)
    (arrives : ∀ document ∈ later, document ∈ documents ∨ deletion.Unread history document) :
    deletion.Sound later past where
  listed document member := grows document (sound.listed document member)
  held document member := grows document (sound.held document member)
  removed document member := grows document (sound.removed document member)
  owned := sound.owned
  spares := sound.spares
  cascadesNothing := sound.cascadesNothing
  frees key dropped := (sound.frees key dropped).moves sound.listed arrives
  empties := by
    intro collection opened deleted document present within
    rcases arrives document present with known | unread
    · exact sound.empties collection opened deleted document known within
    · exact absurd (deleted.trans (congrArg some within.symm)) (unread.elsewhere opened)
  onTrack := sound.onTrack.moves sound.listed arrives

/-- A deletion that goes on keeps what it has read, deleted and dropped. -/
theorem Deletion.Sound.continues (sound : deletion.Sound documents history)
    (opened : deletion.isOpen = true) (phase : Phase)
    (onTrack : Deletion.OnTrack documents { deletion with phase := phase }) :
    Deletion.Sound documents history { deletion with phase := phase } where
  listed := sound.listed
  held := sound.held
  removed := sound.removed
  owned := sound.owned
  spares := sound.spares
  cascadesNothing := sound.cascadesNothing
  frees := sound.frees
  empties collection _ := sound.empties collection opened
  onTrack := onTrack

variable {phase : Phase}

theorem Deletion.Sound.ends (sound : deletion.Sound documents history)
    (opened : deletion.isOpen = true) (ends : phase = .committed ∨ phase = .failed) :
    Deletion.Sound documents history { deletion with phase := phase } := by
  apply sound.continues opened
  rcases ends with rfl | rfl
  · trivial
  · trivial

/-- A deletion that has deleted nothing reads committed rows first. -/
theorem Deletion.Sound.lists (sound : deletion.Sound documents history)
    (started : deletion.phase = .started) {rows : List Document} (locks : Option Nat)
    (known : ∀ document ∈ rows, document ∈ history)
    (owned : ∀ id, deletion.sourceId = some id → ∀ document ∈ rows, document.source = some id)
    (onTrack : Deletion.OnTrack documents
      { deletion with phase := phase, listed := rows, locked := locks }) :
    Deletion.Sound documents history
      { deletion with phase := phase, listed := rows, locked := locks } := by
  have track := sound.onTrack
  unfold Deletion.OnTrack at track
  rw [started] at track
  have opened : deletion.isOpen = true := by simp [Deletion.isOpen, started]
  constructor
  · exact known
  · exact sound.held
  · exact sound.removed
  · exact owned
  · simp [track.1]
  · exact sound.cascadesNothing
  · simp [track.2]
  · intro collection _
    exact sound.empties collection opened
  · exact onTrack

/-- The first statements of a deletion read committed rows. -/
theorem Deletion.Sound.begins (sound : deletion.Sound state.documents state.history)
    (started : deletion.phase = .started)
    (known : ∀ document ∈ state.documents, document ∈ state.history)
    (begins : deletion.begins state = some next) : next.Sound state.documents state.history := by
  have filtered : ∀ (keeps : Document → Bool), ∀ document ∈ state.documents.filter keeps,
      document ∈ state.history :=
    fun keeps document member => known document (List.mem_of_mem_filter member)
  unfold Deletion.begins at begins
  split at begins
  · next id backing target =>
      obtain rfl := Option.some.inj begins
      apply sound.lists started deletion.locked (filtered _)
      · intro other sourced document member
        have same : id = other := by
          simpa [Deletion.sourceId, target] using sourced
        simpa [same] using (List.mem_filter.mp member).2
      · trivial
  · next id target =>
      obtain rfl := Option.some.inj begins
      apply sound.lists started deletion.locked (filtered _)
      · simp [Deletion.sourceId, target]
      · exact ⟨fun document member => member, fun document member _ => Or.inl member⟩
  · next id target =>
      split at begins
      · obtain rfl := Option.some.inj begins
        apply sound.lists started (some id) (filtered _)
        · simp [Deletion.sourceId, target]
        · simp [Deletion.OnTrack, Deletion.sourceId, target]
      · contradiction

/-- The second snapshot reads the backing collection before any row is deleted. -/
theorem Deletion.Sound.reads (sound : deletion.Sound state.documents state.history)
    (listing : deletion.phase = .listed)
    (known : ∀ document ∈ state.documents, document ∈ state.history) :
    (deletion.reads state).Sound state.documents state.history := by
  have opened : deletion.isOpen = true := by simp [Deletion.isOpen, listing]
  have track : Deletion.OnTrack state.documents { deletion with phase := .deleting deletion.listed } :=
    ⟨fun document member => member, fun document member _ => Or.inl member⟩
  have continues := sound.continues opened _ track
  unfold Deletion.reads
  split
  · next id backing target =>
      exact { continues with
        held := fun document member => known document (List.mem_of_mem_filter member)
        spares := continues.spares
        owned := continues.owned
        cascadesNothing := continues.cascadesNothing
        frees := continues.frees
        empties := continues.empties
        onTrack := continues.onTrack }
  · exact continues

/-- A listed document is deleted, or another transaction has deleted it. -/
theorem Deletion.Sound.deletes {document : Document} {rest : List Document}
    (sound : deletion.Sound state.documents state.history)
    (deleting : deletion.phase = .deleting (document :: rest))
    (deletes : deletion.deletes state document rest = some next) :
    next.Sound state.documents state.history := by
  have opened : deletion.isOpen = true := by simp [Deletion.isOpen, deleting]
  have track := sound.onTrack
  unfold Deletion.OnTrack at track
  rw [deleting] at track
  obtain ⟨within, covers⟩ := track
  unfold Deletion.deletes at deletes
  split at deletes
  · contradiction
  · split at deletes
    · next present =>
        obtain rfl := Option.some.inj deletes
        have longer : ∀ other ∈ deletion.removed, other ∈ deletion.removed ++ [document] :=
          fun other member => List.mem_append_left _ member
        constructor
        · exact sound.listed
        · exact sound.held
        · intro other member
          rcases List.mem_append.mp member with old | new
          · exact sound.removed other old
          · obtain rfl := List.mem_singleton.mp new
            exact sound.listed other (within other List.mem_cons_self)
        · exact sound.owned
        · intro sourced other member
          rcases List.mem_append.mp member with old | new
          · exact sound.spares sourced other old
          · obtain rfl := List.mem_singleton.mp new
            exact within other List.mem_cons_self
        · exact sound.cascadesNothing
        · intro key dropped
          obtain ⟨named, frees⟩ := sound.frees key dropped
          exact ⟨named, fun other known keyed => longer other (frees other known keyed)⟩
        · intro collection _ gone other known inside
          exact longer other (sound.empties collection opened gone other known inside)
        · constructor
          · exact fun other member => within other (List.mem_cons_of_mem _ member)
          · intro other member known
            rcases covers other member known with ahead | removed
            · rcases List.mem_cons.mp ahead with rfl | later
              · exact Or.inr (List.mem_append_right _ (List.mem_singleton_self _))
              · exact Or.inl later
            · exact Or.inr (longer other removed)
    · next absent =>
        obtain rfl := Option.some.inj deletes
        apply sound.continues opened
        constructor
        · exact fun other member => within other (List.mem_cons_of_mem _ member)
        · intro other member known
          rcases covers other member known with ahead | removed
          · rcases List.mem_cons.mp ahead with rfl | later
            · exact absurd known absent
            · exact Or.inl later
          · exact Or.inr removed

/-- When the loop over the listed documents ends, no committed one of them is left. -/
theorem Deletion.Sound.clears (sound : deletion.Sound documents history)
    (deleting : deletion.phase = .deleting []) :
    Deletion.Sound documents history { deletion with phase := .reclaiming } := by
  have opened : deletion.isOpen = true := by simp [Deletion.isOpen, deleting]
  have track := sound.onTrack
  unfold Deletion.OnTrack at track
  rw [deleting] at track
  apply sound.continues opened
  intro document member known
  rcases track.2 document member known with ahead | removed
  · exact absurd ahead List.not_mem_nil
  · exact removed

/-- The backing collection goes with its source only when the second snapshot held nothing else. -/
theorem Deletion.Sound.reclaims (sound : deletion.Sound state.documents state.history)
    (reclaiming : deletion.phase = .reclaiming) :
    (deletion.reclaims state).Sound state.documents state.history := by
  have opened : deletion.isOpen = true := by simp [Deletion.isOpen, reclaiming]
  have cleared := sound.onTrack
  unfold Deletion.OnTrack at cleared
  rw [reclaiming] at cleared
  unfold Deletion.reclaims
  split
  · next id backing target =>
      split
      · exact sound.continues opened _ trivial
      · next related =>
          apply sound.continues opened
          intro _
          have unrelated : deletion.hasUnrelatedDocuments = false := by
            simp only [Bool.or_eq_true, not_or, Bool.not_eq_true] at related
            exact related.1
          exact ⟨cleared, by simp [Deletion.backing, target], unrelated⟩
  · exact sound.continues opened _ trivial

/-- Every document of the collection that a source deletion is about to flush is one that its
second snapshot held. -/
def Deletion.isUnchanged (state : State) (deletion : Deletion) : Bool :=
  match deletion.phase with
  | .flushing (some collection) => deletion.sourceId = none || state.documents.all fun document =>
      document.collection ≠ collection || document ∈ deletion.held
  | _ => true

/-- The flush deletes no document beside the listed ones when the collection is unchanged. -/
theorem Deletion.Sound.cascade_eq_nil {collection : Nat}
    (sound : deletion.Sound state.documents state.history)
    (unique : ∀ document ∈ state.history, ∀ other ∈ state.history,
      document.id = other.id → document = other)
    (known : ∀ document ∈ state.documents, document ∈ state.history)
    (flushing : deletion.phase = .flushing (some collection)) (sourced : deletion.sourceId ≠ none)
    (unchanged : deletion.isUnchanged state = true) :
    (state.documents.filter fun document =>
      document.collection = collection && document ∉ deletion.removed) = [] := by
  have track := sound.onTrack
  unfold Deletion.OnTrack at track
  rw [flushing] at track
  obtain ⟨cleared, backed, related⟩ := track sourced
  apply List.filter_eq_nil_iff.mpr
  intro document present cascades
  simp only [Bool.and_eq_true, decide_eq_true_eq] at cascades
  have held : document ∈ deletion.held := by
    unfold Deletion.isUnchanged at unchanged
    rw [flushing] at unchanged
    simp only [sourced, decide_false, Bool.false_or, List.all_eq_true] at unchanged
    simpa [cascades.1] using unchanged document present
  have listed : document.id ∈ deletion.listed.map Document.id := by
    by_contra unlisted
    have unrelated : deletion.hasUnrelatedDocuments = true :=
      List.any_eq_true.mpr ⟨document, held, by simpa using unlisted⟩
    simp [related] at unrelated
  obtain ⟨other, member, same⟩ := List.mem_map.mp listed
  have equal : other = document :=
    unique other (sound.listed other member) document (known document present) same
  exact cascades.2 (cleared document (equal ▸ member) present)

/-- The flush deletes every document of the collection. -/
theorem Deletion.Sound.flushes {collection : Option Nat}
    (sound : deletion.Sound state.documents state.history)
    (unique : ∀ document ∈ state.history, ∀ other ∈ state.history,
      document.id = other.id → document = other)
    (known : ∀ document ∈ state.documents, document ∈ state.history)
    (flushing : deletion.phase = .flushing collection)
    (unchanged : deletion.isUnchanged state = true)
    (flushes : deletion.flushes state collection = some next) :
    next.Sound state.documents state.history := by
  have opened : deletion.isOpen = true := by simp [Deletion.isOpen, flushing]
  have keyed : ∀ key ∈ deletion.storageKeys, ∃ document ∈ deletion.listed,
      document.storageKey = key := by
    intro key member
    exact List.mem_map.mp (List.mem_eraseDups.mp member)
  unfold Deletion.flushes at flushes
  split at flushes
  · obtain rfl := Option.some.inj flushes
    exact sound.continues opened _ keyed
  · next collection =>
      have nothing := sound.cascade_eq_nil unique known flushing
      dsimp only at flushes
      split at flushes
      · contradiction
      · obtain rfl := Option.some.inj flushes
        have longer : ∀ document ∈ deletion.removed, ∀ cascade,
            document ∈ deletion.removed ++ cascade :=
          fun document member cascade => List.mem_append_left _ member
        constructor
        · exact sound.listed
        · exact sound.held
        · intro document member
          rcases List.mem_append.mp member with old | cascades
          · exact sound.removed document old
          · exact known document (List.mem_of_mem_filter cascades)
        · exact sound.owned
        · intro sourced document member
          rw [nothing sourced unchanged, List.append_nil] at member
          exact sound.spares sourced document member
        · exact fun sourced => nothing sourced unchanged
        · intro key dropped
          obtain ⟨named, frees⟩ := sound.frees key dropped
          exact ⟨named, fun document present keyed =>
            longer document (frees document present keyed) _⟩
        · intro other _ gone document present within
          obtain rfl := Option.some.inj gone
          by_cases removed : document ∈ deletion.removed
          · exact longer document removed _
          · apply List.mem_append_right
            exact List.mem_filter.mpr ⟨present, by simp [within, removed]⟩
        · exact keyed

/-- A key whose count is zero is freed. -/
theorem Deletion.Sound.counts {rest : List StorageKey}
    (sound : deletion.Sound state.documents state.history)
    (cleaning : deletion.phase = .cleaning (key :: rest)) :
    (deletion.countByStorageKey state key = 0 →
      Deletion.Sound state.documents state.history { deletion with phase := .dropping key rest }) ∧
    Deletion.Sound state.documents state.history { deletion with phase := .cleaning rest } := by
  have opened : deletion.isOpen = true := by simp [Deletion.isOpen, cleaning]
  have track := sound.onTrack
  unfold Deletion.OnTrack at track
  rw [cleaning] at track
  have later : ∀ other ∈ rest, ∃ document ∈ deletion.listed, document.storageKey = other :=
    fun other member => track other (List.mem_cons_of_mem _ member)
  constructor
  · intro zero
    apply sound.continues opened
    refine ⟨⟨track key List.mem_cons_self, ?_⟩, later⟩
    intro document present keyed
    by_contra removed
    have counted := List.filter_eq_nil_iff.mp (List.length_eq_zero_iff.mp zero) document present
    simp [keyed, removed] at counted
  · exact sound.continues opened _ later

/-- An object is deleted only when its key is freed. -/
theorem Deletion.Sound.drops {rest : List StorageKey} (sound : deletion.Sound documents history)
    (dropping : deletion.phase = .dropping key rest) :
    Deletion.Sound documents history { deletion with phase := .cleaning rest } ∧
    Deletion.Sound documents history
      { deletion with dropped := deletion.dropped ++ [key], phase := .cleaning rest } := by
  have opened : deletion.isOpen = true := by simp [Deletion.isOpen, dropping]
  have track := sound.onTrack
  unfold Deletion.OnTrack at track
  rw [dropping] at track
  have continues := sound.continues opened (.cleaning rest) track.2
  constructor
  · exact continues
  · exact { continues with
      owned := continues.owned
      spares := continues.spares
      cascadesNothing := continues.cascadesNothing
      frees := by
        intro other member
        rcases List.mem_append.mp member with old | new
        · exact sound.frees other old
        · obtain rfl := List.mem_singleton.mp new
          exact track.1
      empties := continues.empties
      onTrack := continues.onTrack }

end LumenCopilot.Sources
