import LumenCopilot.Construction.Media.Names
import LumenCopilot.Proof.Library.Dict
import LumenCopilot.Proof.Library.Lists

namespace LumenCopilot.Media

open Python Library

variable {table : FoldTable} {ordered segments : List TranscriptSegmentDraft}
  {chosen : List (Text × NameCandidate)} {speaker name : Text}

/-- A segment gives a speaker a name: its speaker says it of itself, or the segment addresses the
speaker of the next one, who answers soon. -/
inductive NameEvidence (table : FoldTable) (ordered : List TranscriptSegmentDraft) (speaker name : Text) :
    SpeakerNameMethod → List Nat → Prop where
  | introduces (segment : TranscriptSegmentDraft) (member : segment ∈ ordered)
      (speaks : segment.speakerId = speaker) (told : selfName table segment.text = some name) :
      NameEvidence table ordered speaker name .selfIntroduction [segment.id]
  | addresses (front : List TranscriptSegmentDraft) (segment response : TranscriptSegmentDraft)
      (rest : List TranscriptSegmentDraft) (place : ordered = front ++ segment :: response :: rest)
      (told : addressedName table segment.text = some name) (speaks : response.speakerId = speaker)
      (other : speaker ≠ segment.speakerId) (after : 0 ≤ response.startMs - segment.endMs)
      (soon : response.startMs - segment.endMs ≤ 10000) :
      NameEvidence table ordered speaker name .contextualDialogue [segment.id, response.id]

/-- Neighbours of a list are the pairs with its tail. -/
theorem mem_zip_tail {α : Type} {items : List α} {pair : α × α} :
    pair ∈ items.zip items.tail ↔ ∃ front rest, items = front ++ pair.1 :: pair.2 :: rest := by
  induction items with
  | nil => simp
  | cons item items ih =>
      cases items with
      | nil =>
          constructor
          · nofun
          · rintro ⟨front, rest, place⟩
            have sizes := congrArg List.length place
            simp only [List.length_append, List.length_cons, List.length_nil] at sizes
            omega
      | cons next items =>
          rw [List.tail_cons, List.zip_cons_cons, List.mem_cons]
          constructor
          · intro either
            rcases either with rfl | later
            · exact ⟨[], items, rfl⟩
            · obtain ⟨front, rest, place⟩ := ih.mp later
              exact ⟨item :: front, rest, congrArg (List.cons item) place⟩
          · rintro ⟨front, rest, place⟩
            cases front with
            | nil =>
                obtain ⟨rfl, tails⟩ := List.cons.inj place
                obtain ⟨rfl, _⟩ := List.cons.inj tails
                exact .inl rfl
            | cons first front =>
                exact .inr (ih.mpr ⟨front, rest, (List.cons.inj place).2⟩)

/-- The candidates of a speaker are the names with evidence. -/
theorem mem_candidates {method : SpeakerNameMethod} {evidence : List Nat} :
    (∃ confidence, (speaker, (⟨name, confidence, method, evidence⟩ : NameCandidate)) ∈
      selfCandidates table ordered ++ addressCandidates table ordered) ↔
        NameEvidence table ordered speaker name method evidence := by
  constructor
  · rintro ⟨confidence, member⟩
    rcases List.mem_append.mp member with self | addressed
    · obtain ⟨segment, listed, found⟩ := List.mem_filterMap.mp self
      obtain ⟨said, told, same⟩ := Option.map_eq_some_iff.mp found
      cases same
      exact .introduces segment listed rfl told
    · obtain ⟨⟨segment, response⟩, listed, found⟩ := List.mem_filterMap.mp addressed
      obtain ⟨said, told, rest⟩ := Option.bind_eq_some_iff.mp found
      obtain ⟨front, behind, place⟩ := mem_zip_tail.mp listed
      split at rest
      · next answers =>
          cases Option.some.inj rest
          exact .addresses front segment response behind place told rfl answers.1 answers.2.1
            answers.2.2
      · contradiction
  · intro known
    cases known with
    | introduces segment listed speaks told =>
        refine ⟨98 / 100, List.mem_append_left _ (List.mem_filterMap.mpr ⟨segment, listed, ?_⟩)⟩
        rw [told, speaks]
        rfl
    | addresses front segment response rest place told speaks other after soon =>
        refine ⟨80 / 100, List.mem_append_right _ (List.mem_filterMap.mpr
          ⟨(segment, response), mem_zip_tail.mpr ⟨front, rest, place⟩, ?_⟩)⟩
        unfold addressCandidate
        rw [told, Option.bind_some, speaks, if_pos ⟨other, after, soon⟩]

/-- A chosen candidate is one of the values, and all their names agree with it. -/
theorem chooseName_eq_some {values : List NameCandidate} {value : NameCandidate}
    (found : chooseName table values = some value) :
    value ∈ values ∧ ∀ other ∈ values, casefold table other.name = casefold table value.name := by
  unfold chooseName at found
  split at found
  · next single =>
      have member := List.argmax_mem (Option.mem_def.mpr found)
      obtain ⟨only, same⟩ := List.length_eq_one_iff.mp single
      have agrees (candidate : NameCandidate) (listed : candidate ∈ values) :
          casefold table candidate.name = only := by
        have folded : casefold table candidate.name ∈
            (values.map fun value => casefold table value.name).eraseDups :=
          List.mem_eraseDups.mpr (List.mem_map_of_mem listed)
        rw [same] at folded
        exact List.mem_singleton.mp folded
      exact ⟨member, fun other listed => (agrees other listed).trans (agrees value member).symm⟩
  · contradiction

/-- A chosen name has evidence, and every name with evidence for the speaker agrees with it. -/
theorem mem_chosenNames {value : NameCandidate}
    (member : (speaker, value) ∈ chosenNames table ordered) :
    NameEvidence table ordered speaker value.name value.method value.evidence ∧
      ∀ other method evidence, NameEvidence table ordered speaker other method evidence →
        casefold table other = casefold table value.name := by
  obtain ⟨entry, listed, found⟩ := List.mem_filterMap.mp member
  obtain ⟨best, chosen, same⟩ := Option.map_eq_some_iff.mp found
  cases same
  obtain ⟨known, agree⟩ := chooseName_eq_some chosen
  have values := (mem_grouped.mp listed).2
  have candidate (other : NameCandidate) : other ∈ entry.2 ↔
      (entry.1, other) ∈ selfCandidates table ordered ++ addressCandidates table ordered := by
    rw [values]
    simp
  constructor
  · exact mem_candidates.mp ⟨value.confidence, (candidate value).mp known⟩
  · intro other method evidence holds
    obtain ⟨confidence, listed⟩ := mem_candidates.mpr holds
    exact agree _ ((candidate ⟨other, confidence, method, evidence⟩).mpr listed)

/-- A named identity has the only choice of its folded name. -/
theorem identityOf_named (named : (identityOf table chosen speaker).displayName = some name) :
    ∃ value, (speaker, value) ∈ chosen ∧ value.name = name ∧ nameCount table chosen name ≤ 1 ∧
      (identityOf table chosen speaker).method = some value.method ∧
      (identityOf table chosen speaker).evidenceSegmentIds = value.evidence := by
  unfold identityOf at named ⊢
  split at named
  · contradiction
  · next value found =>
      split at named
      · contradiction
      · next single =>
          obtain ⟨⟨other, held⟩, first, rfl⟩ := Option.map_eq_some_iff.mp found
          have same : other = speaker := by simpa using List.find?_some first
          obtain rfl := Option.some.inj named
          subst same
          dsimp only
          rw [if_neg single]
          exact ⟨held, List.mem_of_find?_eq_some first, rfl, not_lt.mp single, rfl, rfl⟩

theorem identityOf_speaker (table : FoldTable) (chosen : List (Text × NameCandidate))
    (speaker : Text) : (identityOf table chosen speaker).speakerId = speaker := by
  unfold identityOf
  split
  · rfl
  · split <;> rfl

/-- The names of the identities are unambiguous and have evidence. -/
structure Unambiguous (table : FoldTable) (ordered : List TranscriptSegmentDraft)
    (identities : List SpeakerIdentity) : Prop where
  apart : identities.Pairwise fun first second => ∀ name other, first.displayName = some name →
    second.displayName = some other → casefold table name ≠ casefold table other
  agreed : ∀ identity ∈ identities, ∀ name, identity.displayName = some name →
    ∀ other method evidence, NameEvidence table ordered identity.speakerId other method evidence →
      casefold table other = casefold table name
  supported : ∀ identity ∈ identities, ∀ name, identity.displayName = some name →
    ∃ method, identity.method = some method ∧
      NameEvidence table ordered identity.speakerId name method identity.evidenceSegmentIds

/-- Two speakers with one folded name would count twice. -/
theorem identityOf_apart {other otherName : Text} (distinct : speaker ≠ other)
    (first : (identityOf table chosen speaker).displayName = some name)
    (second : (identityOf table chosen other).displayName = some otherName) :
    casefold table name ≠ casefold table otherName := by
  intro same
  obtain ⟨value, member, rfl, single, _⟩ := identityOf_named first
  obtain ⟨otherValue, otherMember, rfl, _⟩ := identityOf_named second
  have entries : [(speaker, value), (other, otherValue)].Nodup := by
    simp [distinct]
  have twice : 2 ≤ nameCount table chosen value.name := by
    unfold nameCount
    rw [List.countP_eq_length_filter]
    apply (List.subperm_of_subset entries _).length_le
    intro entry either
    rw [List.mem_filter, decide_eq_true_eq]
    rcases List.mem_pair.mp either with rfl | rfl
    · exact ⟨member, rfl⟩
    · exact ⟨otherMember, same.symm⟩
  omega

theorem inferSpeakerNames_speakers (table : FoldTable) (segments : List TranscriptSegmentDraft) :
    ((inferSpeakerNames table segments).map SpeakerIdentity.speakerId).Nodup := by
  unfold inferSpeakerNames
  rw [List.map_map]
  have same : (SpeakerIdentity.speakerId ∘ identityOf table
      (chosenNames table (sortedBy TranscriptSegmentDraft.ordinal segments))) = id := by
    funext speaker
    exact identityOf_speaker table _ speaker
  rw [same, List.map_id]
  exact (sortedBy_perm id _).nodup_iff.mpr (nodup_eraseDups _)

/-- The inferred names are unambiguous, and they depend on the order of the ordinals alone. -/
theorem inferSpeakerNames_unambiguous (table : FoldTable) (segments : List TranscriptSegmentDraft) :
    Unambiguous table (sortedBy TranscriptSegmentDraft.ordinal segments)
        (inferSpeakerNames table segments) ∧
      ((segments.map TranscriptSegmentDraft.ordinal).Nodup → ∀ other, segments.Perm other →
        inferSpeakerNames table other = inferSpeakerNames table segments) := by
  constructor
  · constructor
    · have speakers := List.pairwise_map.mp (inferSpeakerNames_speakers table segments)
      apply speakers.imp_of_mem
      intro first second firstIn secondIn distinct name other firstNamed secondNamed
      obtain ⟨one, _, rfl⟩ := List.mem_map.mp firstIn
      obtain ⟨two, _, rfl⟩ := List.mem_map.mp secondIn
      rw [identityOf_speaker, identityOf_speaker] at distinct
      exact identityOf_apart distinct firstNamed secondNamed
    · intro identity member name named
      obtain ⟨speaker, _, rfl⟩ := List.mem_map.mp member
      obtain ⟨value, chosen, rfl, _⟩ := identityOf_named named
      rw [identityOf_speaker]
      exact (mem_chosenNames chosen).2
    · intro identity member name named
      obtain ⟨speaker, _, rfl⟩ := List.mem_map.mp member
      obtain ⟨value, chosen, rfl, _, method, evidence⟩ := identityOf_named named
      refine ⟨value.method, method, ?_⟩
      rw [identityOf_speaker, evidence]
      exact (mem_chosenNames chosen).1
  · intro distinct other permuted
    unfold inferSpeakerNames
    rw [sortedBy_eq_of_perm TranscriptSegmentDraft.ordinal permuted distinct]

/-- A speaker greets another one, who answers at once. -/
def greetedTurns : List TranscriptSegmentDraft :=
  [⟨1, 0, "speaker-1".toList, 0, 1000, 0, 10, "Hello Bob.".toList, none⟩,
    ⟨2, 1, "speaker-2".toList, 1000, 2000, 11, 15, "Yes.".toList, none⟩]

/-- The second speaker is named by the greeting, also when the turns are given in reverse. -/
theorem inferSpeakerNames_unambiguous_greetedTurns :
    Unambiguous .symbols (sortedBy TranscriptSegmentDraft.ordinal greetedTurns)
        (inferSpeakerNames .symbols greetedTurns) ∧
      inferSpeakerNames .symbols greetedTurns.reverse = inferSpeakerNames .symbols greetedTurns :=
  ⟨(inferSpeakerNames_unambiguous .symbols greetedTurns).1,
    (inferSpeakerNames_unambiguous .symbols greetedTurns).2 (by decide) _
      (List.reverse_perm greetedTurns).symm⟩

/-- Both turns have one ordinal. -/
def tiedTurns : List TranscriptSegmentDraft :=
  greetedTurns.map fun segment => { segment with ordinal := 0 }

/-- The order of segments with one ordinal decides who answers whom. -/
theorem inferSpeakerNames_tied : tiedTurns.Perm tiedTurns.reverse ∧
    inferSpeakerNames .symbols tiedTurns.reverse ≠ inferSpeakerNames .symbols tiedTurns :=
  ⟨(List.reverse_perm tiedTurns).symm, by decide⟩

end LumenCopilot.Media
