import LumenCopilot.Construction.Media.Stitching
import LumenCopilot.Proof.Library.Dict
import LumenCopilot.Proof.Library.Lists
import LumenCopilot.Proof.Library.Partial
import LumenCopilot.Proof.Python.Numerals

namespace LumenCopilot.Media

open Python Library

variable {table : FoldTable} {durationMs last : Int} {span : MediaSpan}

/-- Accepted words have their times in the chunk and start in order. -/
theorem readWords_eq_ok {words : List TranscriptionWord} {spoken : List GlobalWord}
    (reads : readWords durationMs span last words = .ok spoken) :
    spoken = words.map (TranscriptionWord.globalIn span) ∧
      (∀ word ∈ spoken, span.startMs + last ≤ word.startMs ∧ span.startMs ≤ word.startMs ∧
        word.startMs < word.endMs ∧ word.endMs ≤ span.endMs) ∧
      spoken.Pairwise fun first second => first.startMs ≤ second.startMs := by
  induction words generalizing last spoken with
  | nil =>
      obtain rfl := Except.ok.inj reads
      exact ⟨rfl, nofun, List.Pairwise.nil⟩
  | cons word words ih =>
      unfold readWords at reads
      split at reads
      · contradiction
      · next inside =>
          obtain ⟨timed, ordered⟩ := not_or.mp inside
          obtain ⟨lower, long, upper⟩ := not_not.mp timed
          split at reads
          · contradiction
          · obtain ⟨later, read, rfl⟩ := (map_eq_ok_iff _ _ _).mp reads
            obtain ⟨same, within, rises⟩ := ih read
            refine ⟨by rw [same]; rfl, ?_, ?_⟩
            · rw [List.forall_mem_cons]
              constructor
              · show span.startMs + last ≤ span.startMs + word.startMs ∧
                  span.startMs ≤ span.startMs + word.startMs ∧
                  span.startMs + word.startMs < span.startMs + word.endMs ∧
                  span.startMs + word.endMs ≤ span.endMs
                omega
              · intro other member
                have bounds := within other member
                omega
            · exact List.pairwise_cons.mpr ⟨fun other member => (within other member).1, rises⟩

/-- Accepted spans lie in the media. -/
theorem checkSpans_within {expected : Nat} {previous : Option MediaSpan} {spans : List MediaSpan}
    (checked : checkSpans durationMs expected previous spans = .ok ()) :
    ∀ span ∈ spans, 0 ≤ span.startMs ∧ span.startMs < span.endMs ∧ span.endMs ≤ durationMs := by
  induction spans generalizing expected previous with
  | nil => nofun
  | cons span spans ih =>
      unfold checkSpans at checked
      split at checked
      · contradiction
      · next placed =>
          split at checked
          · contradiction
          · next short =>
              split at checked
              · contradiction
              · rw [List.forall_mem_cons]
                exact ⟨by omega, ih checked⟩

variable {state next : Stitching} {item : ChunkTranscription}

theorem readChunk_eq_ok {durationMs : Int}
    (reads : readChunk table durationMs state item = .ok next) :
    ∃ words, readWords durationMs item.span (-1) item.words = .ok words ∧ words ≠ [] ∧
      next = state.take table item.span words := by
  obtain ⟨words, read, rest⟩ := bind_eq_ok reads
  split at rest
  · contradiction
  · next filled => exact ⟨words, read, filled, (Except.ok.inj rest).symm⟩

theorem readChunks_eq_ok {durationMs : Int} {chunks : List ChunkTranscription}
    (reads : readChunks table durationMs chunks = .ok state) :
    0 < durationMs ∧ chunks ≠ [] ∧ checkSpans durationMs 0 none
        ((sortedBy (fun item => item.span.index) chunks).map ChunkTranscription.span) = .ok () ∧
      (sortedBy (fun item : ChunkTranscription => item.span.index) chunks).foldlM
        (readChunk table durationMs) .start = .ok state := by
  unfold readChunks at reads
  split at reads
  · contradiction
  · next accepted =>
      obtain ⟨positive, filled⟩ := not_or.mp accepted
      obtain ⟨_, checked, read⟩ := bind_eq_ok reads
      exact ⟨not_le.mp positive, filled, checked, read⟩

theorem stitchChunkTranscriptions_eq_ok {durationMs : Int} {chunks : List ChunkTranscription}
    {words : List StitchedWord} (accepted : stitchChunkTranscriptions table durationMs chunks = .ok words) :
    ∃ state, readChunks table durationMs chunks = .ok state ∧ words = state.output durationMs ∧
      words ≠ [] := by
  obtain ⟨state, read, rest⟩ := bind_eq_ok accepted
  split at rest
  · contradiction
  · next filled =>
      obtain rfl := Except.ok.inj rest
      exact ⟨state, read, rfl, filled⟩

/-- A word of the output is a word of a chunk with the id of its label. -/
structure SpokenIn (chunks : List ReadChunk) (word : StitchedWord) : Prop where
  spoken : ∃ chunk ∈ chunks, ∃ raw ∈ chunk.words, word.text = raw.text ∧
    word.startMs = raw.startMs ∧ word.endMs = raw.endMs ∧ word.confidence = raw.confidence ∧
    chunk.labels.lookup raw.label = some word.speakerId

theorem stitchedWord_spoken {chunks : List ReadChunk} {key : WordKey} {word : StitchedWord}
    (found : stitchedWord chunks key = some word) : SpokenIn chunks word := by
  obtain ⟨chunk, chunkAt, rest⟩ := Option.bind_eq_some_iff.mp found
  obtain ⟨raw, rawAt, rest⟩ := Option.bind_eq_some_iff.mp rest
  obtain ⟨speaker, known, same⟩ := Option.bind_eq_some_iff.mp rest
  obtain rfl := Option.some.inj same
  exact ⟨chunk, List.mem_of_getElem? chunkAt, raw, List.mem_of_getElem? rawAt, rfl, rfl, rfl, rfl, known⟩

/-- The words of a chunk lie in its span and start in order. -/
structure ReadChunk.Sound (chunk : ReadChunk) : Prop where
  filled : chunk.words ≠ []
  within : ∀ word ∈ chunk.words, chunk.span.startMs ≤ word.startMs ∧
    word.startMs < word.endMs ∧ word.endMs ≤ chunk.span.endMs
  rises : chunk.words.Pairwise fun first second => first.startMs ≤ second.startMs

/-- These are the span and the words of a chunk on the timeline of the file. -/
def ChunkTranscription.heard (item : ChunkTranscription) : MediaSpan × List GlobalWord :=
  (item.span, item.words.map (TranscriptionWord.globalIn item.span))

def ReadChunk.heard (chunk : ReadChunk) : MediaSpan × List GlobalWord := (chunk.span, chunk.words)

/-- The chunks that were read are the given ones. -/
structure Stitching.Reads (items : List ChunkTranscription) (state : Stitching) : Prop where
  heard : state.chunks.map ReadChunk.heard = items.map ChunkTranscription.heard
  sound : ∀ chunk ∈ state.chunks, chunk.Sound

theorem readChunk_reads {done : List ChunkTranscription} (reads : state.Reads done)
    (read : readChunk table durationMs state item = .ok next) : next.Reads (done ++ [item]) := by
  obtain ⟨words, spoken, filled, rfl⟩ := readChunk_eq_ok read
  obtain ⟨same, within, rises⟩ := readWords_eq_ok spoken
  constructor
  · show (state.chunks ++ [_]).map ReadChunk.heard = _
    rw [List.map_append, List.map_append, reads.heard, same]
    rfl
  · intro chunk member
    rcases List.mem_append.mp member with earlier | newest
    · exact reads.sound chunk earlier
    · obtain rfl := List.mem_singleton.mp newest
      exact ⟨filled, fun word listed => (within word listed).2, rises⟩

theorem readChunks_reads {chunks : List ChunkTranscription}
    (read : readChunks table durationMs chunks = .ok state) :
    state.Reads (sortedBy (fun item => item.span.index) chunks) :=
  foldlM_history (readChunk table durationMs) (fun done state => state.Reads done)
    (fun _ _ _ _ => readChunk_reads) _ [] .start state ⟨rfl, nofun⟩ (readChunks_eq_ok read).2.2.2

end LumenCopilot.Media

namespace LumenCopilot.Media

open Python Library

/-- Different numbers have different texts. -/
theorem speakerId_injective {first second : Nat} (same : speakerId first = speakerId second) :
    first = second := by
  have digits : natText first = natText second := List.append_cancel_left same
  have values := congrArg (fun text => Nat.ofDigitChars 10 text 0) digits
  simpa only [natText, Nat.ofDigitChars_toDigits (b := 10) (by omega) (by omega)] using values

section Votes

variable {α : Type} [DecidableEq α]

/-- The value occurs at least twice, and every other one occurs less often. -/
def Prevails (values : List α) (value : α) : Prop :=
  2 ≤ values.count value ∧ ∀ other, other ≠ value → values.count other < values.count value

theorem bestCanonical_prevails {candidates : List α} {best : α × Nat}
    (found : bestCanonical candidates = some best) :
    best.1 ∈ candidates ∧ Prevails candidates best.1 := by
  have order := sortedBy_pairwise (fun entry : α × Nat => OrderDual.toDual entry.2)
    (candidates.eraseDups.map fun value => (value, candidates.count value))
  have members (entry : α × Nat) : entry ∈ mostCommon candidates ↔
      entry.1 ∈ candidates ∧ entry.2 = candidates.count entry.1 := mem_mostCommon
  have absent {other : α} (missing : ∀ entry ∈ mostCommon candidates, entry.1 ≠ other) :
      candidates.count other = 0 := by
    apply List.count_eq_zero.mpr
    intro listed
    exact missing (other, candidates.count other) ((members _).mpr ⟨listed, rfl⟩) rfl
  change (mostCommon candidates).Pairwise _ at order
  unfold bestCanonical at found
  split at found
  · contradiction
  · next only same =>
      split at found
      · next twice =>
          obtain rfl := Option.some.inj found
          obtain ⟨listed, counted⟩ := (members only).mp (by rw [same]; exact List.mem_cons_self)
          refine ⟨listed, by rw [← counted]; exact twice, ?_⟩
          intro other apart
          rw [← counted]
          have missing : candidates.count other = 0 := absent (by
            intro entry member
            rw [same] at member
            rw [List.mem_singleton.mp member]
            exact apart.symm)
          omega
      · contradiction
  · next first second rest same =>
      split at found
      · next ahead =>
          obtain rfl := Option.some.inj found
          obtain ⟨listed, counted⟩ := (members first).mp (by rw [same]; exact List.mem_cons_self)
          refine ⟨listed, by rw [← counted]; exact ahead.1, ?_⟩
          intro other apart
          rw [← counted]
          by_cases listed : other ∈ candidates
          · have member := (members (other, candidates.count other)).mpr ⟨listed, rfl⟩
            rw [same] at member order
            have later := (List.pairwise_cons.mp (List.pairwise_cons.mp order).2).1
            rcases List.mem_cons.mp member with here | behind
            · exact absurd (congrArg Prod.fst here) apart
            · rcases List.mem_cons.mp behind with next | behind
              · rw [← next] at ahead
                exact ahead.2
              · exact lt_of_le_of_lt (OrderDual.toDual_le_toDual.mp (later _ behind)) ahead.2
          · rw [List.count_eq_zero.mpr listed]
            omega
      · contradiction

end Votes

/-- These are the ids that the aligned words give to a label. -/
def candidatesOf (votes : List (Text × Text)) (label : Text) : List Text :=
  (votes.filter fun vote => vote.1 = label).map Prod.snd

variable {claim : Text × Text}

/-- A label claims the id that prevails among its candidates. -/
theorem mem_rankedClaims {votes : List (Text × Text)} (member : claim ∈ rankedClaims votes) :
    claim.1 ∈ votes.map Prod.fst ∧ claim.2 ∈ candidatesOf votes claim.1 ∧
      Prevails (candidatesOf votes claim.1) claim.2 := by
  obtain ⟨ranked, listed, rfl⟩ := List.mem_map.mp member
  rw [mem_sortedBy] at listed
  obtain ⟨group, grouped, found⟩ := List.mem_filterMap.mp listed
  obtain ⟨best, prevails, rfl⟩ := Option.map_eq_some_iff.mp found
  obtain ⟨labelled, values⟩ := mem_grouped.mp grouped
  have known := bestCanonical_prevails prevails
  rw [values] at known
  exact ⟨labelled, known⟩

/-- The labels of a dictionary have different ids. -/
def Distinguishes (labels : Dict Text Text) : Prop :=
  ∀ first second id, labels.lookup first = some id → labels.lookup second = some id → first = second

variable {id : Text}

theorem Distinguishes.assign {labels : Dict Text Text} (distinct : Distinguishes labels)
    (unused : ∀ label, labels.lookup label ≠ some id) (key : Text) :
    Distinguishes (labels.assign key id) := by
  intro first second found firstFound secondFound
  rw [Dict.lookup_assigned] at firstFound secondFound
  split at firstFound
  · next firstSame =>
      obtain rfl := Option.some.inj firstFound
      split at secondFound
      · next secondSame => rw [firstSame, secondSame]
      · exact absurd secondFound (unused second)
  · split at secondFound
    · obtain rfl := Option.some.inj secondFound
      exact absurd firstFound (unused first)
    · exact distinct first second found firstFound secondFound

/-- The claims so far are distinct entries of the list. -/
structure ClaimsHold (listed : List (Text × Text)) (claims : Dict Text Text × List Text) : Prop where
  known : ∀ label id, claims.1.lookup label = some id → (label, id) ∈ listed
  claimed : ∀ label id, claims.1.lookup label = some id → id ∈ claims.2
  distinct : Distinguishes claims.1

theorem claimLabel_holds {listed : List (Text × Text)} {claims : Dict Text Text × List Text}
    (holds : ClaimsHold listed claims) (member : claim ∈ listed) :
    ClaimsHold listed (claimLabel claims claim) := by
  unfold claimLabel
  split
  · exact holds
  · next free =>
      have unclaimed (label : Text) : claims.1.lookup label ≠ some claim.2 := fun found =>
        free (holds.claimed label claim.2 found)
      constructor
      · intro label id found
        rw [Dict.lookup_assigned] at found
        split at found
        · next same =>
            obtain rfl := Option.some.inj found
            rw [same]
            exact member
        · exact holds.known label id found
      · intro label id found
        rw [Dict.lookup_assigned] at found
        split at found
        · obtain rfl := Option.some.inj found
          exact List.mem_append_right _ List.mem_cons_self
        · exact List.mem_append_left _ (holds.claimed label id found)
      · exact holds.distinct.assign unclaimed claim.1

theorem claimedLabels_holds (votes : List (Text × Text)) :
    ClaimsHold (rankedClaims votes) ((rankedClaims votes).foldl claimLabel (∅, [])) := by
  have start : ClaimsHold (rankedClaims votes) (∅, []) := ⟨nofun, nofun, nofun⟩
  exact List.foldlRecOn (rankedClaims votes) claimLabel start
    fun claims holds claim member => claimLabel_holds holds member

/-- These are the labels after the new ones got their ids from a number on. -/
structure MintHolds (carried : Dict Text Text) (first : Nat) (done : List Text)
    (minted : Dict Text Text × Nat) : Prop where
  counts : first ≤ minted.2
  kept : ∀ label id, carried.lookup label = some id → minted.1.lookup label = some id
  entries : ∀ label id, minted.1.lookup label = some id → carried.lookup label = some id ∨
    carried.lookup label = none ∧ label ∈ done ∧
      ∃ number, first ≤ number ∧ number < minted.2 ∧ id = speakerId number
  total : ∀ label ∈ done, label ∈ minted.1
  distinct : Distinguishes minted.1

variable {table : FoldTable} {carried : Dict Text Text} {first : Nat} {done : List Text} {minted : Dict Text Text × Nat}

/-- Every carried id was minted before. -/
def Older (carried : Dict Text Text) (first : Nat) : Prop :=
  ∀ label id, carried.lookup label = some id → ∃ number, number < first ∧ id = speakerId number

theorem mintLabel_holds (older : Older carried first) (holds : MintHolds carried first done minted)
    (label : Text) : MintHolds carried first (done ++ [label]) (mintLabel minted label) := by
  unfold mintLabel
  split
  · next known =>
      constructor
      · exact holds.counts
      · exact holds.kept
      · intro other id found
        rcases holds.entries other id found with old | ⟨uncarried, listed, minted⟩
        · exact .inl old
        · exact .inr ⟨uncarried, List.mem_append_left _ listed, minted⟩
      · intro other listed
        rcases List.mem_append.mp listed with earlier | last
        · exact holds.total other earlier
        · rw [List.mem_singleton.mp last]
          exact known
      · exact holds.distinct
  · next fresh =>
      have absent : minted.1.lookup label = none := AList.lookup_eq_none.mpr fresh
      have unused (other : Text) : minted.1.lookup other ≠ some (speakerId minted.2) := by
        intro found
        rcases holds.entries other _ found with old | ⟨_, _, number, _, below, same⟩
        · obtain ⟨number, below, same⟩ := older other _ old
          have numbers := speakerId_injective same
          have counts := holds.counts
          omega
        · have numbers := speakerId_injective same
          omega
      have counts := holds.counts
      constructor
      · show first ≤ minted.2 + 1
        omega
      · intro other id found
        have kept := holds.kept other id found
        rw [Dict.lookup_assigned, if_neg]
        · exact kept
        · intro same
          rw [same, absent] at kept
          contradiction
      · intro other id found
        rw [Dict.lookup_assigned] at found
        split at found
        · next same =>
            right
            constructor
            · rw [same]
              apply Option.eq_none_iff_forall_ne_some.mpr
              intro old carriedHere
              rw [holds.kept label old carriedHere] at absent
              contradiction
            · exact ⟨by rw [same]; exact List.mem_append_right _ List.mem_cons_self, minted.2, counts,
                Nat.lt_succ_self _, (Option.some.inj found).symm⟩
        · rcases holds.entries other id found with old | ⟨uncarried, listed, number, above, below, same⟩
          · exact .inl old
          · exact .inr ⟨uncarried, List.mem_append_left _ listed, number, above, Nat.lt_succ_of_lt below,
              same⟩
      · intro other listed
        rw [← AList.lookup_isSome, Dict.lookup_assigned]
        split
        · rfl
        · next apart =>
            rcases List.mem_append.mp listed with earlier | last
            · exact AList.lookup_isSome.mpr (holds.total other earlier)
            · exact absurd (List.mem_singleton.mp last) apart
      · exact holds.distinct.assign unused label

theorem MintHolds.start (distinct : Distinguishes carried) (first : Nat) :
    MintHolds carried first [] (carried, first) where
  counts := le_refl first
  kept := fun _ _ found => found
  entries := fun _ _ found => .inl found
  total := nofun
  distinct := distinct

/-- The labels of a chunk get their ids one after the other. -/
theorem mintLabels_holds (older : Older carried first) (labels : List Text)
    (holds : MintHolds carried first done minted) :
    MintHolds carried first (done ++ labels) (labels.foldl mintLabel minted) := by
  induction labels generalizing done minted with
  | nil =>
      rw [List.append_nil]
      exact holds
  | cons label labels ih =>
      rw [List.append_cons]
      exact ih (mintLabel_holds older holds label)

/-- This is the number of aligned words of the label whose counterparts have the id. -/
def support (table : FoldTable) (previous chunk : ReadChunk) (label id : Text) : Nat :=
  (overlapMatches table (some previous) chunk.span chunk.words).countP fun pair =>
    (chunk.words[pair.2]?).any (fun word => word.label = label) &&
      (previous.words[pair.1]?).any fun prior => previous.labels.lookup prior.label = some id

/-- These are the ids of the speakers of a chunk, given its earlier ones: different labels have
different ids, a minted id is new, and an id that was used before has the evidence of two aligned
words and of more than any other id. -/
structure SpeakerMap (table : FoldTable) (earlier : List ReadChunk) (chunk : ReadChunk) : Prop where
  labelled : ∀ label, label ∈ chunk.labels ↔ label ∈ chunk.words.map GlobalWord.label
  distinct : Distinguishes chunk.labels
  fresh : ∀ label id, chunk.labels.lookup label = some id →
    (carriedLabels table earlier.getLast? chunk.span chunk.words).lookup label = none →
    ∀ used ∈ earlier, ∀ other, used.labels.lookup other ≠ some id
  supported : ∀ label id, chunk.labels.lookup label = some id →
    (∃ used ∈ earlier, ∃ other, used.labels.lookup other = some id) →
    ∃ previous, earlier.getLast? = some previous ∧ 2 ≤ support table previous chunk label id ∧
      ∀ other, other ≠ id →
        support table previous chunk label other < support table previous chunk label id

/-- The votes for an id are its aligned words. -/
theorem count_candidatesOf (table : FoldTable) (previous chunk : ReadChunk) (label id : Text) :
    (candidatesOf (labelVotes previous chunk.words
      (overlapMatches table (some previous) chunk.span chunk.words)) label).countP (· = id) =
        support table previous chunk label id := by
  unfold candidatesOf labelVotes support
  rw [List.countP_map, List.countP_filter, List.countP_filterMap]
  apply List.countP_congr
  intro pair _
  cases previous.words[pair.1]? with
  | none => simp
  | some prior =>
      cases chunk.words[pair.2]? with
      | none => simp
      | some word =>
          cases found : previous.labels.lookup prior.label with
          | none => simp [found]
          | some canonical => simp [found, and_comm]

variable {words : List GlobalWord}

/-- A vote has a label of the chunk and an id of the chunk before it. -/
theorem mem_labelVotes {previous : ReadChunk} {matched : List (Nat × Nat)} {vote : Text × Text}
    (member : vote ∈ labelVotes previous words matched) :
    vote.1 ∈ words.map GlobalWord.label ∧ ∃ other, previous.labels.lookup other = some vote.2 := by
  obtain ⟨pair, _, found⟩ := List.mem_filterMap.mp member
  obtain ⟨prior, _, rest⟩ := Option.bind_eq_some_iff.mp found
  obtain ⟨word, wordAt, rest⟩ := Option.bind_eq_some_iff.mp rest
  obtain ⟨canonical, known, same⟩ := Option.bind_eq_some_iff.mp rest
  obtain rfl := Option.some.inj same
  exact ⟨List.mem_map_of_mem (List.mem_of_getElem? wordAt), prior.label, known⟩

variable {label : Text}

/-- A carried label has the evidence of its aligned words. -/
theorem carriedLabels_supported (previous chunk : ReadChunk)
    (found : (carriedLabels table (some previous) chunk.span chunk.words).lookup label = some id) :
    label ∈ chunk.words.map GlobalWord.label ∧
      (∃ other, previous.labels.lookup other = some id) ∧
      2 ≤ support table previous chunk label id ∧ ∀ other, other ≠ id →
        support table previous chunk label other < support table previous chunk label id := by
  have claim := (claimedLabels_holds _).known label id found
  obtain ⟨labelled, candidate, twice, ahead⟩ := mem_rankedClaims claim
  obtain ⟨vote, voted, rfl⟩ := List.mem_map.mp labelled
  obtain ⟨source, cast, sourced⟩ := List.mem_map.mp candidate
  have counts (other : Text) := count_candidatesOf table previous chunk vote.1 other
  have known := (mem_labelVotes (List.mem_filter.mp cast).1).2
  rw [sourced] at known
  refine ⟨(mem_labelVotes voted).1, known, ?_, ?_⟩
  · rw [← counts]
    exact twice
  · intro other apart
    rw [← counts, ← counts]
    exact ahead other apart

/-- The chunks that were read have sound maps, and their ids were minted. -/
structure Stitching.Holds (table : FoldTable) (state : Stitching) : Prop where
  maps : ∀ index chunk, state.chunks[index]? = some chunk →
    SpeakerMap table (state.chunks.take index) chunk
  older : ∀ chunk ∈ state.chunks, Older chunk.labels state.nextSpeaker

theorem Stitching.Holds.start : Stitching.start.Holds table := ⟨nofun, nofun⟩

variable {state : Stitching}

/-- The ids that the last chunk hands on were minted before. -/
theorem carriedLabels_older (holds : state.Holds table) (span : MediaSpan) (words : List GlobalWord)
    :
    Older (carriedLabels table state.chunks.getLast? span words) state.nextSpeaker := by
  intro label id found
  cases last : state.chunks.getLast? with
  | none =>
      rw [last] at found
      contradiction
  | some previous =>
      rw [last] at found
      obtain ⟨_, ⟨other, known⟩, _⟩ := carriedLabels_supported previous ⟨span, words, ∅⟩ found
      exact holds.older previous (List.mem_of_getLast? last) other id known

theorem carriedLabels_distinct (previous : Option ReadChunk) (span : MediaSpan)
    (words : List GlobalWord) : Distinguishes (carriedLabels table previous span words) := by
  cases previous with
  | none => nofun
  | some previous => exact (claimedLabels_holds _).distinct

/-- Only labels of a chunk are carried into it. -/
theorem carriedLabels_labelled {previous : Option ReadChunk} {span : MediaSpan}
    (found : (carriedLabels table previous span words).lookup label = some id) :
    label ∈ words.map GlobalWord.label := by
  cases previous with
  | none => contradiction
  | some previous => exact (carriedLabels_supported previous ⟨span, words, ∅⟩ found).1

/-- The words of a chunk keep the maps sound. -/
theorem Stitching.take_holds (holds : state.Holds table) (span : MediaSpan)
    (words : List GlobalWord) : (state.take table span words).Holds table := by
  have older := carriedLabels_older holds span words
  have minted := mintLabels_holds older (words.map GlobalWord.label).eraseDups
    (MintHolds.start (carriedLabels_distinct _ _ _) state.nextSpeaker)
  have entries (label id : Text)
      (found : (state.added table span words).labels.lookup label = some id) :=
    minted.entries label id found
  have last : SpeakerMap table state.chunks (state.added table span words) := by
    constructor
    · intro label
      constructor
      · intro member
        obtain ⟨id, found⟩ := Option.isSome_iff_exists.mp (AList.lookup_isSome.mpr member)
        rcases entries label id found with carried | ⟨_, listed, _⟩
        · exact carriedLabels_labelled carried
        · exact List.mem_eraseDups.mp listed
      · intro listed
        exact minted.total label (List.mem_eraseDups.mpr listed)
    · exact minted.distinct
    · intro label id found uncarried used member other known
      rcases entries label id found with carried | ⟨_, _, number, above, _, same⟩
      · cases carried.symm.trans uncarried
      · obtain ⟨earlier, below, equal⟩ := holds.older used member other id known
        have numbers := speakerId_injective (equal.symm.trans same)
        omega
    · intro label id found ⟨used, member, other, known⟩
      rcases entries label id found with carried | ⟨_, _, number, above, _, same⟩
      · cases previous : state.chunks.getLast? with
        | none =>
            rw [previous] at carried
            contradiction
        | some chunk =>
            rw [previous] at carried
            exact ⟨chunk, rfl,
              (carriedLabels_supported chunk (state.added table span words) carried).2.2⟩
      · obtain ⟨earlier, below, equal⟩ := holds.older used member other id known
        have numbers := speakerId_injective (equal.symm.trans same)
        omega
  constructor
  · intro index chunk found
    rcases getElem?_snoc_iff.mp found with earlier | ⟨rfl, rfl⟩
    · have within := (List.getElem?_eq_some_iff.mp earlier).1
      show SpeakerMap table ((state.chunks ++ [_]).take index) chunk
      rw [List.take_append_of_le_length within.le]
      exact holds.maps index chunk earlier
    · show SpeakerMap table ((state.chunks ++ [_]).take state.chunks.length) _
      rw [List.take_left]
      exact last
  · intro chunk member label id found
    rcases List.mem_append.mp member with earlier | newest
    · obtain ⟨number, below, same⟩ := holds.older chunk earlier label id found
      exact ⟨number, below.trans_le minted.counts, same⟩
    · obtain rfl := List.mem_singleton.mp newest
      rcases entries label id found with carried | ⟨_, _, number, _, below, same⟩
      · obtain ⟨number, below, same⟩ := older label id carried
        exact ⟨number, below.trans_le minted.counts, same⟩
      · exact ⟨number, below, same⟩

theorem readChunks_holds {durationMs : Int} {chunks : List ChunkTranscription}
    (read : readChunks table durationMs chunks = .ok state) : state.Holds table :=
  foldlM_keeps (readChunk table durationMs) (Stitching.Holds table) _
    (fun _ _ _ _ holds reads => by
      obtain ⟨words, _, _, rfl⟩ := readChunk_eq_ok reads
      exact Stitching.take_holds holds _ words)
    .start state Stitching.Holds.start (readChunks_eq_ok read).2.2.2

/-- The speakers of every chunk are distinct, and only evidence carries an id on. -/
theorem stitchChunkTranscriptions_speakers (table : FoldTable) (durationMs : Int)
    (chunks : List ChunkTranscription) (words : List StitchedWord)
    (accepted : stitchChunkTranscriptions table durationMs chunks = .ok words) :
    ∃ state, readChunks table durationMs chunks = .ok state ∧ words = state.output durationMs ∧
      (∀ index chunk, state.chunks[index]? = some chunk →
        SpeakerMap table (state.chunks.take index) chunk) ∧
      ∀ word ∈ words, SpokenIn state.chunks word := by
  obtain ⟨state, read, rfl, _⟩ := stitchChunkTranscriptions_eq_ok accepted
  have holds := readChunks_holds read
  refine ⟨state, read, rfl, holds.maps, ?_⟩
  intro word member
  obtain ⟨key, _, found⟩ := List.mem_filterMap.mp ((mem_sortedBy _).mp member)
  exact stitchedWord_spoken found

/-- These are two chunks that share two words. -/
def sharedWords : List ChunkTranscription :=
  [⟨⟨0, 0, 2000⟩, [⟨"well".toList, 1200, 1300, "A".toList, none⟩,
      ⟨"then".toList, 1400, 1500, "A".toList, none⟩]⟩,
    ⟨⟨1, 1000, 3000⟩, [⟨"Well,".toList, 210, 310, "X".toList, none⟩,
      ⟨"then".toList, 400, 490, "X".toList, none⟩, ⟨"yes".toList, 1500, 1600, "Y".toList, none⟩]⟩]

/-- The label `X` keeps the id of `A`, and the label `Y` gets a new one. -/
theorem stitchChunkTranscriptions_speakers_sharedWords :
    ∃ state, readChunks .symbols 3000 sharedWords = .ok state ∧
      [⟨"well".toList, 1200, 1300, "speaker-1".toList, none⟩,
        ⟨"then".toList, 1400, 1500, "speaker-1".toList, none⟩,
        ⟨"yes".toList, 2500, 2600, "speaker-2".toList, none⟩] = state.output 3000 ∧
      (∀ index chunk, state.chunks[index]? = some chunk →
        SpeakerMap .symbols (state.chunks.take index) chunk) ∧
      ∀ word ∈ ([⟨"well".toList, 1200, 1300, "speaker-1".toList, none⟩,
        ⟨"then".toList, 1400, 1500, "speaker-1".toList, none⟩,
        ⟨"yes".toList, 2500, 2600, "speaker-2".toList, none⟩] : List StitchedWord),
        SpokenIn state.chunks word :=
  stitchChunkTranscriptions_speakers .symbols 3000 sharedWords _ (by decide)

end LumenCopilot.Media
