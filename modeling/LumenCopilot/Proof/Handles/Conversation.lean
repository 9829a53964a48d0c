import LumenCopilot.Construction.Handles.Conversation
import LumenCopilot.Proof.Library.Dict
import LumenCopilot.Proof.Library.Transition

namespace LumenCopilot.Handles

open Library

variable {entries : Dict Handle Evidence} {number : Nat}

theorem taken_iff : taken entries number = true ↔ ∃ handle ∈ entries, handle.number = number := by
  constructor
  · intro holds
    obtain ⟨kind, -, member⟩ := List.any_eq_true.mp holds
    exact ⟨⟨kind, number⟩, by simpa using member, rfl⟩
  · rintro ⟨⟨kind, other⟩, member, rfl⟩
    refine List.any_eq_true.mpr ⟨kind, ?_, by simpa using member⟩
    cases kind <;> simp

/-- These are the entries that the loop can still meet. -/
def pendingEntries (entries : Dict Handle Evidence) (number : Nat) : List Handle :=
  entries.keys.filter fun handle => number ≤ handle.number

/-- A taken number is met once. -/
theorem pendingEntries_succ_lt (holds : taken entries number = true) :
    (pendingEntries entries (number + 1)).length < (pendingEntries entries number).length := by
  obtain ⟨handle, member, rfl⟩ := taken_iff.mp holds
  have later : pendingEntries entries (handle.number + 1) =
      (pendingEntries entries handle.number).filter fun other => handle.number + 1 ≤ other.number := by
    unfold pendingEntries
    rw [List.filter_filter]
    apply List.filter_congr
    intro other _
    simp
    omega
  rw [later]
  apply List.length_filter_lt_length_iff_exists.mpr
  exact ⟨handle, by simpa [pendingEntries] using AList.mem_keys.mp member, by simp⟩

theorem skipTaken_free {rounds : Nat} (enough : (pendingEntries entries number).length ≤ rounds) :
    taken entries (skipTaken entries rounds number) = false := by
  induction rounds generalizing number with
  | zero =>
      cases holds : taken entries number with
      | false => exact holds
      | true =>
          have fewer := pendingEntries_succ_lt holds
          omega
  | succ rounds ih =>
      unfold skipTaken
      cases holds : taken entries number with
      | false => simpa using holds
      | true =>
          have fewer := pendingEntries_succ_lt holds
          simp only [if_true]
          exact ih (by omega)

/-- The loop of `_issue` ends at a number that no entry has. -/
theorem freeNumber_free (entries : Dict Handle Evidence) (number : Nat) :
    taken entries (freeNumber entries number) = false := by
  apply skipTaken_free
  rw [← Dict.keys_length]
  exact List.length_filter_le _ _

/-- The loop does not start at a number that no entry has. -/
theorem freeNumber_of_free (free : taken entries number = false) :
    freeNumber entries number = number := by
  unfold freeNumber
  cases entries.size with
  | zero => rfl
  | succ rounds => simp [skipTaken, free]

theorem not_mem_of_free (free : taken entries number = false) (kind : HandleKind) :
    (⟨kind, number⟩ : Handle) ∉ entries := by
  intro member
  have holds := taken_iff.mpr ⟨_, member, rfl⟩
  simp [free] at holds

namespace EvidenceHandles

variable {registry : EvidenceHandles} {entry : Evidence} {handle : Handle}

/-- A known entry has its handle in the registry. -/
theorem lookup_of_known (holds : registry.known entry = some handle) :
    registry.entries.lookup handle = some entry := by
  obtain ⟨item, found, rfl⟩ := Option.map_eq_some_iff.mp holds
  obtain ⟨equal, member⟩ : item.2 = entry ∧ item ∈ registry.entries.entries :=
    ⟨by simpa using List.find?_some found, List.mem_of_find?_eq_some found⟩
  rw [Dict.lookup_eq_some_iff, ← equal]
  exact member

/-- `_issue` finds the entry, refuses it, or gives it the next free number. -/
theorem issue_cases (registry : EvidenceHandles) (kind : HandleKind) (entry : Evidence) :
    (∃ handle, registry.known entry = some handle ∧
        registry.issue kind entry = (some handle, registry)) ∨
      (registry.known entry = none ∧ registry.issue kind entry = (none, registry)) ∨
      (registry.known entry = none ∧ registry.created.size < registry.capacity ∧
        registry.issue kind entry = (some ⟨kind, freeNumber registry.entries registry.next⟩,
          { registry with
            next := freeNumber registry.entries registry.next + 1
            entries := registry.entries.assign ⟨kind, freeNumber registry.entries registry.next⟩ entry
            created :=
              registry.created.assign ⟨kind, freeNumber registry.entries registry.next⟩ entry })) := by
  unfold issue
  cases known : registry.known entry with
  | some handle => exact .inl ⟨handle, rfl, rfl⟩
  | none =>
      by_cases full : registry.capacity ≤ registry.created.size
      · exact .inr (.inl ⟨rfl, by simp [full]⟩)
      · exact .inr (.inr ⟨rfl, by omega, by simp [full]⟩)

/-- A handle that was given for an entry is given for it again. -/
theorem known_assign {fresh : Handle} (absent : fresh ∉ registry.entries) (value : Evidence)
    (holds : registry.known entry = some handle) :
    EvidenceHandles.known { registry with entries := registry.entries.assign fresh value } entry =
      some handle := by
  obtain ⟨item, found, rfl⟩ := Option.map_eq_some_iff.mp holds
  simp [known, Dict.entries_assign absent, List.find?_append, found]

/-- A new entry is found under its new handle. -/
theorem known_assign_self {fresh : Handle} (absent : fresh ∉ registry.entries)
    (unknown : registry.known entry = none) :
    EvidenceHandles.known { registry with entries := registry.entries.assign fresh entry } entry =
      some fresh := by
  have missing := Option.map_eq_none_iff.mp unknown
  simp [known, Dict.entries_assign absent, List.find?_append, missing]

end EvidenceHandles

/-- The registry of an answer holds committed rows and its own handles from its own range. -/
structure EvidenceHandles.Sound (registry : EvidenceHandles) (stored : Dict Handle Evidence)
    (first capacity : Nat) : Prop where
  bounded : registry.capacity = capacity
  used : registry.next = first + registry.created.size
  within : registry.created.size ≤ capacity
  own : ∀ handle ∈ registry.created, first ≤ handle.number ∧ handle.number < registry.next
  entered : ∀ handle evidence, registry.created.lookup handle = some evidence →
    registry.entries.lookup handle = some evidence
  loaded : ∀ handle evidence, registry.entries.lookup handle = some evidence →
    handle ∈ registry.created ∨ stored.lookup handle = some evidence

end LumenCopilot.Handles

namespace LumenCopilot.Handles

open Library

/-- The number of the handle is in the reserved range. -/
def Answer.Reserves (answer : Answer) (handle : Handle) : Prop :=
  answer.first ≤ handle.number ∧ handle.number < answer.first + answer.capacity

/-- The answer has made the handle that has a number of its range. -/
def Answer.Made (answer : Answer) (handle : Handle) : Prop :=
  match answer.phase with
  | .reserved => False
  | .answering registry => handle ∈ registry.created
  | .appended _ => True
  | .ended => True

/-- An answer is sound in its conversation. -/
def Answer.Sound (conversation : Conversation) (id : Nat) (answer : Answer) : Prop :=
  match answer.phase with
  | .reserved => ∀ issue ∈ conversation.issues, issue.answer ≠ id
  | .answering registry =>
      registry.Sound conversation.stored answer.first answer.capacity ∧
        (∀ handle ∈ registry.created, handle ∈ conversation.created ∧ handle ∉ conversation.stored) ∧
        ∀ issue ∈ conversation.issues, issue.answer = id →
          registry.known issue.source.evidence = some issue.handle
  | .appended rows =>
      rows.NodupKeys ∧ ∀ item ∈ rows,
        item.1 ∈ conversation.created ∧ item.1 ∉ conversation.stored ∧ answer.Reserves item.1
  | .ended => True

/-- The ranges are disjoint, and every handle was made once by the answer that has its number. -/
structure Conversation.Sound (conversation : Conversation) : Prop where
  distinct : (conversation.created.map (·.number)).Nodup
  below : ∀ handle ∈ conversation.created, handle.number < conversation.handleNext
  recorded : ∀ handle ∈ conversation.stored, handle ∈ conversation.created
  ranged : ∀ id answer, conversation.answers id = some answer →
    answer.first + answer.capacity ≤ conversation.handleNext
  apart : ∀ id other answer second, id ≠ other → conversation.answers id = some answer →
    conversation.answers other = some second →
    ∀ handle, answer.Reserves handle → ¬ second.Reserves handle
  made : ∀ id answer, conversation.answers id = some answer →
    ∀ handle ∈ conversation.created, answer.Reserves handle → answer.Made handle
  phased : ∀ id answer, conversation.answers id = some answer → answer.Sound conversation id
  unused : ∀ id, conversation.answers id = none →
    ∀ issue ∈ conversation.issues, issue.answer ≠ id
  matched : ∀ first ∈ conversation.issues, ∀ second ∈ conversation.issues,
    first.answer = second.answer →
    (first.handle = second.handle ↔ first.source.evidence = second.source.evidence)

theorem Conversation.Sound.started : Conversation.started.Sound := by
  constructor <;> simp [Conversation.started]

/-- The second conversation has only grown from the first one, by steps of one answer. -/
structure Conversation.GrowsBy (id : Nat) (answer : Answer) (before after : Conversation) : Prop where
  counter : after.handleNext = before.handleNext
  others : ∀ other, other ≠ id → after.answers other = before.answers other
  mine : ∃ phase, after.answers id = some { answer with phase := phase }
  stored : ∀ handle evidence, before.stored.lookup handle = some evidence →
    after.stored.lookup handle = some evidence
  added : ∀ handle ∈ after.stored, handle ∈ before.stored ∨ answer.Reserves handle
  created : ∀ handle ∈ before.created, handle ∈ after.created
  minted : ∀ handle ∈ after.created, handle ∈ before.created ∨ answer.Reserves handle
  issues : ∀ issue ∈ after.issues, issue ∈ before.issues ∨ issue.answer = id

variable {before after : Conversation}

/-- The other answers stay sound. -/
theorem Answer.Sound.grown {id other : Nat} {answer second : Answer}
    (grows : Conversation.GrowsBy id answer before after) (different : other ≠ id)
    (apart : ∀ handle, answer.Reserves handle → ¬ second.Reserves handle)
    (sound : second.Sound before other) : second.Sound after other := by
  have issued : ∀ issue ∈ after.issues, issue.answer = other → issue ∈ before.issues := by
    intro issue member same
    refine (grows.issues issue member).resolve_right ?_
    rintro rfl
    exact different same.symm
  have unstored : ∀ handle, second.Reserves handle → handle ∉ before.stored →
      handle ∉ after.stored := by
    intro handle reserved absent member
    rcases grows.added handle member with old | new
    · exact absent old
    · exact apart handle new reserved
  unfold Answer.Sound at sound ⊢
  cases phase : second.phase with
  | reserved =>
      simp only [phase] at sound ⊢
      intro issue member same
      exact sound issue (issued issue member same) same
  | answering registry =>
      simp only [phase] at sound ⊢
      obtain ⟨registered, fresh, known⟩ := sound
      refine ⟨⟨registered.bounded, registered.used, registered.within, registered.own,
        registered.entered, fun handle evidence entry => ?_⟩, fun handle member => ?_,
        fun issue member same => known issue (issued issue member same) same⟩
      · exact (registered.loaded handle evidence entry).imp_right (grows.stored handle evidence)
      · refine ⟨grows.created handle (fresh handle member).1, unstored handle ?_ (fresh handle member).2⟩
        have own := registered.own handle member
        have used := registered.used
        have within := registered.within
        exact ⟨own.1, by omega⟩
  | appended rows =>
      simp only [phase] at sound ⊢
      refine ⟨sound.1, fun item member => ?_⟩
      obtain ⟨known, absent, reserved⟩ := sound.2 item member
      exact ⟨grows.created item.1 known, unstored item.1 reserved absent, reserved⟩
  | ended => simp only

/-- A conversation that grows by one answer stays sound when that answer does. -/
theorem Conversation.Sound.grown {id : Nat} {answer : Answer} (sound : before.Sound)
    (present : before.answers id = some answer)
    (grows : Conversation.GrowsBy id answer before after)
    (distinct : (after.created.map (·.number)).Nodup)
    (recorded : ∀ handle ∈ after.stored, handle ∈ after.created)
    (mine : ∀ now, after.answers id = some now →
      (∀ handle ∈ after.created, now.Reserves handle → now.Made handle) ∧ now.Sound after id)
    (matched : ∀ first ∈ after.issues, ∀ second ∈ after.issues, first.answer = second.answer →
      (first.handle = second.handle ↔ first.source.evidence = second.source.evidence)) :
    after.Sound := by
  obtain ⟨phase, mineNow⟩ := grows.mine
  have same : ∀ handle, Answer.Reserves { answer with phase := phase } handle ↔
      answer.Reserves handle := fun _ => Iff.rfl
  refine ⟨distinct, fun handle member => ?_, recorded, fun other second known => ?_,
    fun first second one two different oneKnown twoKnown => ?_,
    fun other second known => ?_, fun other second known => ?_, fun other absent => ?_, matched⟩
  · rw [grows.counter]
    rcases grows.minted handle member with old | new
    · exact sound.below handle old
    · exact Nat.lt_of_lt_of_le new.2 (sound.ranged id answer present)
  · rw [grows.counter]
    by_cases here : other = id
    · subst here
      obtain rfl := Option.some.inj (mineNow.symm.trans known)
      exact sound.ranged other answer present
    · exact sound.ranged other second (grows.others other here ▸ known)
  · by_cases firstHere : first = id
    · subst firstHere
      obtain rfl := Option.some.inj (mineNow.symm.trans oneKnown)
      rw [grows.others second (Ne.symm different)] at twoKnown
      intro handle reserved
      exact sound.apart first second answer two different present twoKnown handle
        ((same handle).mp reserved)
    · rw [grows.others first firstHere] at oneKnown
      by_cases secondHere : second = id
      · subst secondHere
        obtain rfl := Option.some.inj (mineNow.symm.trans twoKnown)
        intro handle reserved
        exact sound.apart first second one answer different oneKnown present handle reserved
      · rw [grows.others second secondHere] at twoKnown
        exact sound.apart first second one two different oneKnown twoKnown
  · by_cases here : other = id
    · subst here
      exact (mine second known).1
    · rw [grows.others other here] at known
      intro handle member reserved
      have old := (grows.minted handle member).resolve_right fun new =>
        sound.apart id other answer second (Ne.symm here) present known handle new reserved
      exact sound.made other second known handle old reserved
  · by_cases here : other = id
    · subst here
      exact (mine second known).2
    · rw [grows.others other here] at known
      exact (sound.phased other second known).grown grows here
        (sound.apart id other answer second (Ne.symm here) present known)
  · have different : other ≠ id := by
      rintro rfl
      rw [mineNow] at absent
      contradiction
    intro issue member same
    rw [grows.others other different] at absent
    rcases grows.issues issue member with old | new
    · exact sound.unused other absent issue old same
    · exact different (same.symm.trans new)

/-- A step that changes only the phase of an answer grows the conversation. -/
theorem Conversation.move_grows (conversation : Conversation) (id : Nat) (answer : Answer)
    (phase : AnswerPhase) :
    Conversation.GrowsBy id answer conversation (conversation.move id answer phase) where
  counter := rfl
  others := fun _ different => Function.update_of_ne different _ _
  mine := ⟨phase, Function.update_self _ _ _⟩
  stored := fun _ _ known => known
  added := fun _ member => .inl member
  created := fun _ member => member
  minted := fun _ member => .inl member
  issues := fun _ member => .inl member

theorem Conversation.Sound.moved {id : Nat} {answer : Answer} {conversation : Conversation}
    (sound : conversation.Sound) (present : conversation.answers id = some answer)
    {phase : AnswerPhase}
    (made : ∀ handle ∈ conversation.created, answer.Reserves handle →
      Answer.Made { answer with phase := phase } handle)
    (phased : Answer.Sound conversation id { answer with phase := phase }) :
    (conversation.move id answer phase).Sound := by
  refine sound.grown present (conversation.move_grows id answer phase) sound.distinct sound.recorded
    (fun now known => ?_) sound.matched
  have same : some { answer with phase := phase } = some now :=
    (Function.update_self id _ conversation.answers).symm.trans known
  obtain rfl := Option.some.inj same
  exact ⟨made, phased⟩

/-- A new answer gets a range above every number that was reserved before. -/
theorem Conversation.Sound.reserve {conversation next : Conversation} (sound : conversation.Sound)
    {id capacity : Nat} (steps : conversation.reserve id capacity = some next) : next.Sound := by
  unfold Conversation.reserve at steps
  split at steps
  · next valid =>
      obtain rfl := Option.some.inj steps
      have absent : conversation.answers id = none := Option.isNone_iff_eq_none.mp valid.1
      have older : ∀ other answer,
          Function.update conversation.answers id
            (some ⟨conversation.handleNext, capacity, .reserved⟩) other = some answer →
          other = id ∧ answer = ⟨conversation.handleNext, capacity, .reserved⟩ ∨
            conversation.answers other = some answer := by
        intro other answer known
        by_cases here : other = id
        · subst here
          rw [Function.update_self] at known
          exact .inl ⟨rfl, (Option.some.inj known).symm⟩
        · rw [Function.update_of_ne here] at known
          exact .inr known
      refine ⟨sound.distinct, fun handle member => ?_, sound.recorded, fun other answer known => ?_,
        fun first second one two different oneKnown twoKnown => ?_,
        fun other answer known => ?_, fun other answer known => ?_, fun other unknown => ?_,
        sound.matched⟩
      · exact Nat.lt_of_lt_of_le (sound.below handle member) (Nat.le_add_right _ _)
      · rcases older other answer known with ⟨-, rfl⟩ | old
        · exact Nat.le_refl _
        · exact Nat.le_trans (sound.ranged other answer old) (Nat.le_add_right _ _)
      · rcases older first one oneKnown with ⟨rfl, rfl⟩ | oneOld <;>
          rcases older second two twoKnown with ⟨rfl, rfl⟩ | twoOld
        · exact absurd rfl different
        · intro handle reserved other
          have bound := sound.ranged second two twoOld
          have low := reserved.1
          have high := other.2
          simp only at low
          omega
        · intro handle reserved other
          have bound := sound.ranged first one oneOld
          have low := other.1
          have high := reserved.2
          simp only at low
          omega
        · exact sound.apart first second one two different oneOld twoOld
      · rcases older other answer known with ⟨rfl, rfl⟩ | old
        · intro handle member reserved
          have bound := sound.below handle member
          have low := reserved.1
          simp only at low
          omega
        · exact sound.made other answer old
      · rcases older other answer known with ⟨rfl, rfl⟩ | old
        · exact sound.unused other absent
        · exact sound.phased other answer old
      · have different : other ≠ id := by
          rintro rfl
          simp at unknown
        exact sound.unused other (by simpa [different] using unknown)
  · contradiction

/-- A registry starts from the committed rows in any order. -/
theorem Conversation.Sound.load {conversation next : Conversation} (sound : conversation.Sound)
    {id : Nat} {answer : Answer} {rows : Dict Handle Evidence}
    (present : conversation.answers id = some answer)
    (steps : conversation.load id answer rows = some next) : next.Sound := by
  unfold Conversation.load at steps
  split at steps
  · next phase =>
      split at steps
      · next ordered =>
          obtain rfl := Option.some.inj steps
          have phased := sound.phased id answer present
          have made := sound.made id answer present
          simp only [Answer.Sound, Answer.Made, phase] at phased made
          refine sound.moved present (fun handle member reserved => (made handle member reserved).elim) ?_
          refine ⟨⟨rfl, rfl, Nat.zero_le _, ?_, ?_, ?_⟩, ?_, ?_⟩
          · intro handle member
            simp [EvidenceHandles.start] at member
          · intro handle evidence known
            simp [EvidenceHandles.start] at known
          · intro handle evidence known
            right
            rw [← AList.perm_lookup ordered]
            exact known
          · intro handle member
            simp [EvidenceHandles.start] at member
          · intro issue member same
            exact absurd same (phased issue member)
      · contradiction
  · contradiction

variable {registry : EvidenceHandles}

/-- No entry of the registry has the next number of the range. -/
theorem Conversation.Sound.next_free {conversation : Conversation} (sound : conversation.Sound)
    {id : Nat} {answer : Answer} (present : conversation.answers id = some answer)
    (phase : answer.phase = .answering registry) (room : registry.created.size < registry.capacity)
    :
    taken registry.entries registry.next = false := by
  have phased := sound.phased id answer present
  have made := sound.made id answer present
  simp only [Answer.Sound, Answer.Made, phase] at phased made
  obtain ⟨registered, fresh, -⟩ := phased
  by_contra holds
  obtain ⟨handle, member, numbered⟩ := taken_iff.mp (by simpa using holds)
  obtain ⟨evidence, known⟩ := Option.isSome_iff_exists.mp (AList.lookup_isSome.mpr member)
  have used := registered.used
  have bounded := registered.bounded
  have own : handle ∈ registry.created := by
    rcases registered.loaded handle evidence known with own | committed
    · exact own
    · refine made handle (sound.recorded handle (AList.lookup_isSome.mp (by rw [committed]; rfl))) ?_
      exact ⟨by omega, by omega⟩
  have below := (registered.own handle own).2
  omega

/-- The registry stays sound when it gives its next number to a new entry. -/
theorem EvidenceHandles.Sound.extended {stored : Dict Handle Evidence} {first capacity : Nat}
    (sound : registry.Sound stored first capacity)
    (room : registry.created.size < registry.capacity)
    (free : taken registry.entries registry.next = false) (kind : HandleKind) (entry : Evidence) :
    EvidenceHandles.Sound
      { registry with
        next := registry.next + 1
        entries := registry.entries.assign ⟨kind, registry.next⟩ entry
        created := registry.created.assign ⟨kind, registry.next⟩ entry } stored first capacity := by
  have absent : (⟨kind, registry.next⟩ : Handle) ∉ registry.entries := not_mem_of_free free kind
  have uncreated : (⟨kind, registry.next⟩ : Handle) ∉ registry.created := by
    intro member
    have below := (sound.own _ member).2
    simp only at below
    omega
  have used := sound.used
  have bounded := sound.bounded
  refine ⟨bounded, ?_, ?_, ?_, ?_, ?_⟩
  · simp only [Dict.size_assign uncreated]
    omega
  · simp only [Dict.size_assign uncreated]
    omega
  · intro handle member
    rcases (Dict.mem_assign uncreated entry handle).mp member with rfl | old
    · exact ⟨by simp only; omega, by simp⟩
    · have own := sound.own handle old
      exact ⟨own.1, by simp only; omega⟩
  · intro handle evidence known
    simp only [Dict.lookup_assign uncreated, Dict.lookup_assign absent] at known ⊢
    by_cases same : handle = ⟨kind, registry.next⟩
    · simpa [same] using known
    · simp only [same, if_false] at known ⊢
      exact sound.entered handle evidence known
  · intro handle evidence known
    simp only [Dict.lookup_assign absent] at known
    by_cases same : handle = ⟨kind, registry.next⟩
    · exact .inl ((Dict.mem_assign uncreated entry handle).mpr (.inl same))
    · simp only [same, if_false] at known
      exact (sound.loaded handle evidence known).imp_left
        fun old => (Dict.mem_assign uncreated entry handle).mpr (.inr old)

variable {source : Source} {handle : Handle}

/-- The handles of one answer agree with its registry, and so with each other. -/
theorem matched_cons {issues : List Issue} {id : Nat}
    (matched : ∀ first ∈ issues, ∀ second ∈ issues, first.answer = second.answer →
      (first.handle = second.handle ↔ first.source.evidence = second.source.evidence))
    (known : ∀ issue ∈ (⟨id, source, handle⟩ : Issue) :: issues, issue.answer = id →
      registry.known issue.source.evidence = some issue.handle) :
    ∀ first ∈ (⟨id, source, handle⟩ : Issue) :: issues,
      ∀ second ∈ (⟨id, source, handle⟩ : Issue) :: issues, first.answer = second.answer →
      (first.handle = second.handle ↔ first.source.evidence = second.source.evidence) := by
  have agree : ∀ first ∈ (⟨id, source, handle⟩ : Issue) :: issues,
      ∀ second ∈ (⟨id, source, handle⟩ : Issue) :: issues, first.answer = id → second.answer = id →
      (first.handle = second.handle ↔ first.source.evidence = second.source.evidence) := by
    intro first one second two firstSame secondSame
    have left := known first one firstSame
    have right := known second two secondSame
    constructor
    · intro same
      have firstEntry := EvidenceHandles.lookup_of_known left
      have secondEntry := EvidenceHandles.lookup_of_known right
      rw [same, secondEntry] at firstEntry
      exact (Option.some.inj firstEntry).symm
    · intro same
      rw [same, right] at left
      exact (Option.some.inj left).symm
  intro first one second two same
  by_cases mine : first.answer = id
  · exact agree first one second two mine (same ▸ mine)
  · have older : ∀ issue ∈ (⟨id, source, handle⟩ : Issue) :: issues, issue.answer ≠ id →
        issue ∈ issues := by
      intro issue member other
      refine (List.mem_cons.mp member).resolve_left ?_
      rintro rfl
      exact other rfl
    exact matched first (older first one mine) second (older second two (same ▸ mine)) same

/-- These are the three outcomes of an issue: a known handle, an exhausted budget, a new handle. -/
theorem Conversation.issue_cases {conversation next : Conversation} {id : Nat} {answer : Answer}
    (steps : conversation.issue id answer source = some next) :
    ∃ registry, answer.phase = .answering registry ∧
      ((∃ handle, registry.known source.evidence = some handle ∧
          next = { conversation.move id answer (.answering registry) with
            issues := ⟨id, source, handle⟩ :: conversation.issues }) ∨
        next = conversation ∨
        (registry.known source.evidence = none ∧ registry.created.size < registry.capacity ∧
          ∃ handle : Handle, handle = ⟨source.kind, freeNumber registry.entries registry.next⟩ ∧
            next = { conversation.move id answer (.answering
                { registry with
                  next := handle.number + 1
                  entries := registry.entries.assign handle source.evidence
                  created := registry.created.assign handle source.evidence }) with
              issues := ⟨id, source, handle⟩ :: conversation.issues
              created := handle :: conversation.created })) := by
  unfold Conversation.issue at steps
  split at steps
  · next registry phase =>
      refine ⟨registry, phase, ?_⟩
      rcases registry.issue_cases source.kind source.evidence with
        ⟨handle, known, found⟩ | ⟨-, refused⟩ | ⟨unknown, room, given⟩
      · simp only [EvidenceHandles.issueFor, found, known, Option.isSome_some, if_true] at steps
        exact .inl ⟨handle, known, (Option.some.inj steps).symm⟩
      · simp only [EvidenceHandles.issueFor, refused] at steps
        exact .inr (.inl (Option.some.inj steps).symm)
      · simp only [EvidenceHandles.issueFor, given, unknown, Option.isSome_none, Bool.false_eq_true,
          if_false] at steps
        exact .inr (.inr ⟨unknown, room, _, rfl, (Option.some.inj steps).symm⟩)
  · contradiction

/-- An issue keeps the conversation sound: a new handle has the next number of its own range. -/
theorem Conversation.Sound.issue {conversation next : Conversation} (sound : conversation.Sound)
    {id : Nat} {answer : Answer} (present : conversation.answers id = some answer)
    (steps : conversation.issue id answer source = some next) : next.Sound := by
  obtain ⟨registry, phase, outcome⟩ := Conversation.issue_cases steps
  have phased := sound.phased id answer present
  have made := sound.made id answer present
  simp only [Answer.Sound, Answer.Made, phase] at phased made
  obtain ⟨registered, fresh, known⟩ := phased
  rcases outcome with ⟨handle, found, rfl⟩ | rfl | ⟨unknown, room, handle, named, rfl⟩
  · have agrees : ∀ issue ∈ (⟨id, source, handle⟩ : Issue) :: conversation.issues,
        issue.answer = id → registry.known issue.source.evidence = some issue.handle := by
      intro issue member same
      rcases List.mem_cons.mp member with rfl | old
      · exact found
      · exact known issue old same
    refine sound.grown present ?_ sound.distinct sound.recorded ?_ (matched_cons sound.matched agrees)
    · exact { conversation.move_grows id answer (.answering registry) with
        issues := fun issue member => (List.mem_cons.mp member).symm.imp_right fun new => by rw [new] }
    · intro now present
      obtain rfl : { answer with phase := .answering registry } = now := by
        simpa [Conversation.move] using present
      exact ⟨made, registered, fresh, agrees⟩
  · exact sound
  · have free := sound.next_free present phase room
    rw [freeNumber_of_free free] at named
    have reserved : answer.Reserves handle := by
      have used := registered.used
      have bounded := registered.bounded
      subst named
      exact ⟨by simp only; omega, by simp only; omega⟩
    have absent : handle ∉ registry.entries := by
      subst named
      exact not_mem_of_free free source.kind
    have unmade : ∀ other ∈ conversation.created, other.number ≠ handle.number := by
      intro other member same
      have own := made other member (by unfold Answer.Reserves at reserved ⊢; omega)
      have below := (registered.own other own).2
      subst named
      simp only at same
      omega
    have extended := registered.extended room free source.kind source.evidence
    have uncreated : handle ∉ registry.created := by
      intro member
      have below := (registered.own handle member).2
      subst named
      simp only at below
      omega
    have agrees : ∀ issue ∈ (⟨id, source, handle⟩ : Issue) :: conversation.issues,
        issue.answer = id → EvidenceHandles.known { registry with
          entries := registry.entries.assign handle source.evidence } issue.source.evidence =
            some issue.handle := by
      intro issue member same
      rcases List.mem_cons.mp member with rfl | old
      · exact EvidenceHandles.known_assign_self absent unknown
      · exact EvidenceHandles.known_assign absent _ (known issue old same)
    refine sound.grown present ?_ ?_ (fun other member => .tail _ (sound.recorded other member)) ?_
      (matched_cons sound.matched agrees)
    · exact { conversation.move_grows id answer (.answering
          { registry with
            next := handle.number + 1
            entries := registry.entries.assign handle source.evidence
            created := registry.created.assign handle source.evidence }) with
        created := fun _ member => .tail _ member
        minted := fun other member => (List.mem_cons.mp member).symm.imp_right fun new => by
          rw [new]
          exact reserved
        issues := fun issue member => (List.mem_cons.mp member).symm.imp_right fun new => by rw [new] }
    · rw [List.map_cons, List.nodup_cons]
      refine ⟨fun member => ?_, sound.distinct⟩
      obtain ⟨other, old, same⟩ := List.mem_map.mp member
      exact unmade other old same
    · intro now present
      simp only [Conversation.move, Function.update_self, Option.some.injEq] at present
      subst present
      refine ⟨fun other member within => ?_, ?_, fun other member => ?_, agrees⟩
      · refine (Dict.mem_assign uncreated _ other).mpr ?_
        exact (List.mem_cons.mp member).imp_right fun old => made other old within
      · subst named
        exact extended
      · rcases (Dict.mem_assign uncreated _ other).mp member with rfl | old
        · refine ⟨List.mem_cons_self, fun committed => ?_⟩
          exact unmade other (sound.recorded other committed) rfl
        · exact ⟨.tail _ (fresh other old).1, (fresh other old).2⟩

/-- The check of `append` passes when none of the handles is committed. -/
theorem appendRows_fresh {existing : Dict Handle Evidence}
    {items : List (Sigma fun _ : Handle => Evidence)}
    (fresh : ∀ item ∈ items, item.1 ∉ existing) : appendRows existing items = some items := by
  induction items with
  | nil => rfl
  | cons item rest ih =>
      have absent := AList.lookup_eq_none.mpr (fresh item List.mem_cons_self)
      simp [appendRows, absent, ih fun other member => fresh other (.tail _ member)]

/-- No `append` of a sound conversation raises a reassignment error. -/
theorem Conversation.Sound.appending {conversation : Conversation} (sound : conversation.Sound)
    {id : Nat} {answer : Answer} (present : conversation.answers id = some answer)
    (phase : answer.phase = .answering registry) :
    conversation.appending registry = some registry.created.entries := by
  have phased := sound.phased id answer present
  simp only [Answer.Sound, phase] at phased
  apply appendRows_fresh
  intro item member
  exact (phased.2.1 item.1 (List.mem_keys_of_mem member)).2

theorem Conversation.Sound.append {conversation next : Conversation} (sound : conversation.Sound)
    {id : Nat} {answer : Answer} (present : conversation.answers id = some answer)
    (steps : conversation.append id answer = some next) : next.Sound := by
  unfold Conversation.append at steps
  split at steps
  · next registry phase =>
      have passes := sound.appending present phase
      have phased := sound.phased id answer present
      simp only [Answer.Sound, phase] at phased
      obtain ⟨registered, fresh, -⟩ := phased
      simp only [passes] at steps
      obtain rfl := Option.some.inj steps
      refine sound.moved present (fun _ _ _ => trivial) ⟨registry.created.nodupKeys, ?_⟩
      intro item member
      have created : item.1 ∈ registry.created := List.mem_keys_of_mem member
      have own := registered.own item.1 created
      have used := registered.used
      have within := registered.within
      exact ⟨(fresh item.1 created).1, (fresh item.1 created).2, own.1, by simp only; omega⟩
  · contradiction

section

variable {conversation next : Conversation} {id : Nat} {answer : Answer}
  (sound : conversation.Sound) (present : conversation.answers id = some answer)
include sound present

/-- No commit of a sound conversation meets the unique constraint. -/
theorem Conversation.Sound.unconflicted {rows : List (Sigma fun _ : Handle => Evidence)}
    (phase : answer.phase = .appended rows) : conversation.conflicts rows = false := by
  have phased := sound.phased id answer present
  simp only [Answer.Sound, phase] at phased
  apply List.any_eq_false.mpr
  intro item member
  simpa using (phased.2 item member).2.1

/-- A commit adds the rows of its answer and changes no other one. -/
theorem Conversation.Sound.commit_lookup (steps : conversation.commit id answer = some next) :
    ∃ rows, answer.phase = .appended rows ∧
      next = { conversation.move id answer .ended with
        stored := rows.foldl (fun stored item => stored.assign item.1 item.2) conversation.stored } ∧
      ∀ handle, next.stored.lookup handle =
        (rows.dlookup handle).or (conversation.stored.lookup handle) := by
  unfold Conversation.commit at steps
  split at steps
  · next rows phase =>
      have unconflicted := sound.unconflicted present phase
      have phased := sound.phased id answer present
      simp only [Answer.Sound, phase] at phased
      simp only [unconflicted, Bool.false_eq_true, if_false] at steps
      obtain rfl := Option.some.inj steps
      exact ⟨rows, phase, rfl, fun handle =>
        Dict.lookup_foldl_assign phased.1 (fun item member => (phased.2 item member).2.1) handle⟩
  · contradiction

/-- A committed row stays as it is. -/
theorem Conversation.Sound.commit_keeps (steps : conversation.commit id answer = some next)
    {evidence : Evidence} (known : conversation.stored.lookup handle = some evidence) :
    next.stored.lookup handle = some evidence := by
  obtain ⟨rows, phase, -, looked⟩ := sound.commit_lookup present steps
  have phased := sound.phased id answer present
  simp only [Answer.Sound, phase] at phased
  have outside : rows.dlookup handle = none := by
    apply List.dlookup_eq_none.mpr
    intro member
    obtain ⟨value, item⟩ := List.exists_of_mem_keys member
    exact (phased.2 _ item).2.1 (AList.lookup_isSome.mp (by rw [known]; rfl))
  rw [looked, outside, known]
  rfl

theorem Conversation.Sound.commit (steps : conversation.commit id answer = some next) :
    next.Sound := by
  have keeps (handle : Handle) (evidence : Evidence)
      (known : conversation.stored.lookup handle = some evidence) :
      next.stored.lookup handle = some evidence := sound.commit_keeps present steps known
  obtain ⟨rows, phase, rfl, looked⟩ := sound.commit_lookup present steps
  have phased := sound.phased id answer present
  simp only [Answer.Sound, phase] at phased
  have sources : ∀ handle ∈ rows.foldl (fun stored item => Dict.assign stored item.1 item.2)
      conversation.stored, (∃ item ∈ rows, item.1 = handle) ∨ handle ∈ conversation.stored := by
    intro handle member
    obtain ⟨evidence, known⟩ := Option.isSome_iff_exists.mp (AList.lookup_isSome.mpr member)
    have found := (looked handle).symm.trans known
    rcases Option.or_eq_some_iff.mp found with row | ⟨-, old⟩
    · exact .inl ⟨_, List.of_mem_dlookup row, rfl⟩
    · exact .inr (AList.lookup_isSome.mp (by rw [old]; rfl))
  refine sound.grown present ?_ sound.distinct (fun handle member => ?_) (fun now known => ?_)
    sound.matched
  · refine { conversation.move_grows id answer .ended with
      stored := keeps
      added := fun handle member => ?_ }
    rcases sources handle member with ⟨item, row, rfl⟩ | old
    · exact .inr (phased.2 item row).2.2
    · exact .inl old
  · rcases sources handle member with ⟨item, row, rfl⟩ | old
    · exact (phased.2 item row).1
    · exact sound.recorded handle old
  · simp only [Conversation.move, Function.update_self, Option.some.injEq] at known
    subst known
    exact ⟨fun _ _ _ => trivial, trivial⟩

end

/-- Every step of an answer keeps the conversation sound. -/
theorem Conversation.Sound.step {conversation next : Conversation} (sound : conversation.Sound)
    {action : Action} (steps : conversation.step action = some next) : next.Sound := by
  cases action with
  | reserve id capacity => exact sound.reserve steps
  | load id rows =>
      obtain ⟨answer, present, steps⟩ := Option.bind_eq_some_iff.mp steps
      exact sound.load present steps
  | issue id source =>
      obtain ⟨answer, present, steps⟩ := Option.bind_eq_some_iff.mp steps
      exact sound.issue present steps
  | append id =>
      obtain ⟨answer, present, steps⟩ := Option.bind_eq_some_iff.mp steps
      exact sound.append present steps
  | commit id =>
      obtain ⟨answer, present, steps⟩ := Option.bind_eq_some_iff.mp steps
      exact sound.commit present steps
  | abort id =>
      obtain ⟨answer, present, steps⟩ := Option.bind_eq_some_iff.mp steps
      obtain rfl := Option.some.inj steps
      exact sound.moved present (fun _ _ _ => trivial) trivial

/-- No step changes a committed row. -/
theorem Conversation.Sound.step_keeps {conversation next : Conversation}
    (sound : conversation.Sound) {action : Action} (steps : conversation.step action = some next)
    {evidence : Evidence} (known : conversation.stored.lookup handle = some evidence) :
    next.stored.lookup handle = some evidence := by
  cases action with
  | reserve id capacity =>
      simp only [Conversation.step, Conversation.reserve] at steps
      split at steps
      · obtain rfl := Option.some.inj steps
        exact known
      · contradiction
  | load id rows =>
      obtain ⟨answer, present, steps⟩ := Option.bind_eq_some_iff.mp steps
      unfold Conversation.load at steps
      split at steps
      · split at steps
        · obtain rfl := Option.some.inj steps
          exact known
        · contradiction
      · contradiction
  | issue id source =>
      obtain ⟨answer, present, steps⟩ := Option.bind_eq_some_iff.mp steps
      obtain ⟨registry, -, ⟨handle, -, rfl⟩ | rfl | ⟨-, -, handle, -, rfl⟩⟩ :=
        Conversation.issue_cases steps
      · exact known
      · exact known
      · exact known
  | append id =>
      obtain ⟨answer, present, steps⟩ := Option.bind_eq_some_iff.mp steps
      unfold Conversation.append at steps
      split at steps
      · split at steps
        · obtain rfl := Option.some.inj steps
          exact known
        · obtain rfl := Option.some.inj steps
          exact known
      · contradiction
  | commit id =>
      obtain ⟨answer, present, steps⟩ := Option.bind_eq_some_iff.mp steps
      exact sound.commit_keeps present steps known
  | abort id =>
      obtain ⟨answer, present, steps⟩ := Option.bind_eq_some_iff.mp steps
      obtain rfl := Option.some.inj steps
      exact known

/-- These are the runs of the answers of a conversation, in any interleaving. -/
abbrev Conversation.Reaches (before : Conversation) (actions : List Action) (after : Conversation) :
    Prop :=
  Runs Conversation.step (fun _ _ => True) before actions after

/-- Along every interleaving the committed rows only grow, no append raises, one answer matches its
handles with its evidence, and no two created handles share a number. -/
theorem handles_are_never_reassigned {past future : List Action} {before after : Conversation}
    (reached : Conversation.started.Reaches past before) (continued : before.Reaches future after) :
    (∀ handle evidence, before.stored.lookup handle = some evidence →
      after.stored.lookup handle = some evidence) ∧
    (∀ id answer registry, after.answers id = some answer → answer.phase = .answering registry →
      after.appending registry ≠ none) ∧
    (∀ id answer rows, after.answers id = some answer → answer.phase = .appended rows →
      after.conflicts rows = false) ∧
    (∀ first ∈ after.issues, ∀ second ∈ after.issues, first.answer = second.answer →
      (first.handle = second.handle ↔ first.source.evidence = second.source.evidence)) ∧
    (∀ first ∈ after.created, ∀ second ∈ after.created, first.number = second.number →
      first = second) ∧
    ∀ handle ∈ after.stored, handle ∈ after.created := by
  have sound : before.Sound :=
    reached.invariant Conversation.Sound (fun _ _ _ holds _ steps => holds.step steps) .started
  obtain ⟨final, keeps⟩ := continued.invariant
    (fun conversation => conversation.Sound ∧ ∀ handle evidence,
      before.stored.lookup handle = some evidence → conversation.stored.lookup handle = some evidence)
    (fun _ _ _ holds _ steps => ⟨holds.1.step steps,
      fun handle evidence known => holds.1.step_keeps steps (holds.2 handle evidence known)⟩)
    ⟨sound, fun _ _ known => known⟩
  refine ⟨keeps, fun id answer registry present phase => ?_,
    fun id answer rows present phase => final.unconflicted present phase, final.matched,
    fun first one second two same => ?_, final.recorded⟩
  · rw [final.appending present phase]
    simp
  · exact List.inj_on_of_nodup_map final.distinct one two same

/-- Two answers overlap: both cite one document, and the second one commits first. -/
def overlappingAnswers : List Action :=
  [.reserve 0 1000, .reserve 1 1000, .load 0 ∅, .load 1 ∅, .issue 0 (.document ['a']),
    .issue 1 (.document ['a']), .issue 1 (.web ['u'] ['t'] ['x']), .issue 0 (.document ['a']),
    .append 1, .commit 1, .append 0]

theorem handles_are_never_reassigned_overlappingAnswers :
    ∃ after, execute Conversation.step Conversation.started overlappingAnswers = some after ∧
      (∀ first ∈ after.issues, ∀ second ∈ after.issues, first.answer = second.answer →
        (first.handle = second.handle ↔ first.source.evidence = second.source.evidence)) ∧
      ∀ first ∈ after.created, ∀ second ∈ after.created, first.number = second.number →
        first = second := by
  have runs : (execute Conversation.step Conversation.started overlappingAnswers).isSome := by decide
  obtain ⟨after, executed⟩ := Option.isSome_iff_exists.mp runs
  obtain ⟨-, -, -, matched, numbered, -⟩ := handles_are_never_reassigned
    (Runs.of_unchecked executed) (Runs.nil after)
  exact ⟨after, executed, matched, numbered⟩

end LumenCopilot.Handles
