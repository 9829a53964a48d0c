import LumenCopilot.Construction.Ingestion.Chunking

namespace LumenCopilot.Ingestion

open Python

variable {text : Text} {chunkSize overlap windowStart : Nat}

theorem lastCut_bounds {floor hardEnd cut : Nat} {accepts : Char → Bool}
    (found : lastCut text floor hardEnd accepts = some cut) : floor < cut ∧ cut ≤ hardEnd := by
  obtain ⟨place, finds, rfl⟩ := Option.map_eq_some_iff.mp found
  have member := List.mem_of_find?_eq_some finds
  rw [List.mem_reverse, List.mem_range'_1] at member
  omega

/-- A boundary lies in the window. -/
theorem findBoundary_bounds (text : Text) {hardEnd : Nat} (within : windowStart < hardEnd) :
    windowStart < findBoundary text windowStart hardEnd ∧
      findBoundary text windowStart hardEnd ≤ hardEnd := by
  unfold findBoundary
  dsimp only
  split
  · next cut found =>
      have bounds := lastCut_bounds found
      omega
  · cases found : lastCut text (max (windowStart + 1) (hardEnd - (hardEnd - windowStart) / 2)) hardEnd
        isSpace with
    | none => exact ⟨within, Nat.le_refl _⟩
    | some cut =>
        have bounds := lastCut_bounds found
        simp only [Option.getD_some]
        omega

/-- A cut lies after the window's start; before the end of the text it leaves more than the overlap. -/
theorem windowCut_bounds (positive : 0 < chunkSize) (fits : overlap < chunkSize)
    (within : windowStart < text.length) :
    windowStart < windowCut text chunkSize overlap windowStart ∧
    windowCut text chunkSize overlap windowStart ≤ text.length ∧
    (windowCut text chunkSize overlap windowStart < text.length →
      windowStart + overlap < windowCut text chunkSize overlap windowStart) := by
  unfold windowCut
  dsimp only
  split
  · next last =>
      split <;> omega
  · next early =>
      have bounds := findBoundary_bounds text
        (by omega : windowStart < min (windowStart + chunkSize) text.length)
      split <;> omega

/-- These are the windows of a text, the blank ones with them. -/
def windowsFrom (text : Text) (chunkSize overlap : Nat) : Nat → Nat → List (Nat × Nat)
  | 0, _ => []
  | fuel + 1, windowStart =>
      if windowStart < text.length then
        let cut := windowCut text chunkSize overlap windowStart
        (windowStart, cut) ::
          if text.length ≤ cut then [] else windowsFrom text chunkSize overlap fuel (cut - overlap)
      else []

def windows (text : Text) (chunkSize overlap : Nat) : List (Nat × Nat) :=
  windowsFrom text chunkSize overlap text.length 0

/-- The windows tile the text from here to its end: each goes on where the last one ends or earlier. -/
inductive Tiles (total overlap : Nat) : Nat → List (Nat × Nat) → Prop where
  | last (start : Nat) : start < total → Tiles total overlap start [(start, total)]
  | cons (start cut : Nat) (rest : List (Nat × Nat)) : start + overlap < cut → cut < total →
      Tiles total overlap (cut - overlap) rest → Tiles total overlap start ((start, cut) :: rest)

theorem windowsFrom_tiles (positive : 0 < chunkSize) (fits : overlap < chunkSize) (fuel : Nat)
    (windowStart : Nat) (within : windowStart < text.length) (enough : text.length ≤ windowStart + fuel) :
    Tiles text.length overlap windowStart (windowsFrom text chunkSize overlap fuel windowStart) := by
  induction fuel generalizing windowStart with
  | zero => omega
  | succ fuel ih =>
      obtain ⟨after, below, progress⟩ := windowCut_bounds positive fits within
      unfold windowsFrom
      rw [if_pos within]
      dsimp only
      split
      · next last =>
          rw [Nat.le_antisymm below last]
          exact .last windowStart within
      · next early =>
          have progress := progress (by omega)
          exact .cons windowStart _ _ progress (by omega) (ih _ (by omega) (by omega))

/-- A text that is not blank is tiled by its windows. -/
theorem windows_tiles (positive : 0 < chunkSize) (fits : overlap < chunkSize) (filled : text ≠ []) :
    Tiles text.length overlap 0 (windows text chunkSize overlap) :=
  windowsFrom_tiles positive fits text.length 0 (List.length_pos_iff.mpr filled) (by omega)

variable {total : Nat} {spans : List (Nat × Nat)}

theorem Tiles.bounds {start : Nat} (tiles : Tiles total overlap start spans) : ∀ span ∈ spans,
      start ≤ span.1 ∧ span.1 < span.2 ∧ span.2 ≤ total ∧
        (start + overlap < span.2 ∨ span.2 = total) := by
  induction tiles with
  | last start within =>
      intro span member
      obtain rfl := List.mem_singleton.mp member
      exact ⟨Nat.le_refl _, within, Nat.le_refl _, .inr rfl⟩
  | cons start cut rest progress early tiles ih =>
      intro span member
      rcases List.mem_cons.mp member with rfl | member
      · refine ⟨Nat.le_refl _, ?_, ?_, .inl progress⟩ <;> dsimp only <;> omega
      · have bounds := ih span member
        omega

/-- The starts and the ends of the windows go up. -/
theorem Tiles.ascending {start : Nat} (tiles : Tiles total overlap start spans) :
    spans.Pairwise fun first second => first.1 < second.1 ∧ first.2 < second.2 := by
  induction tiles with
  | last start within => exact List.pairwise_singleton _ _
  | cons start cut rest progress early tiles ih =>
      refine List.Pairwise.cons (fun span member => ?_) ih
      have bounds := tiles.bounds span member
      dsimp only
      omega

variable {place : Nat}

/-- Every place lies in a window. -/
theorem Tiles.covers {start : Nat} (tiles : Tiles total overlap start spans) (above : start ≤ place)
    (below : place < total) : ∃ span ∈ spans, span.1 ≤ place ∧ place < span.2 := by
  induction tiles with
  | last start within => exact ⟨_, List.mem_cons_self, above, below⟩
  | cons start cut rest progress early tiles ih =>
      by_cases inside : place < cut
      · exact ⟨_, List.mem_cons_self, above, inside⟩
      · obtain ⟨span, member, bounds⟩ := ih (by omega)
        exact ⟨span, List.mem_cons_of_mem _ member, bounds⟩

/-- The chunks are the windows that are not blank. -/
theorem chunkLoop_spans (fuel windowStart ordinal : Nat) :
    (chunkLoop text chunkSize overlap fuel windowStart ordinal).map
      (fun chunk => (chunk.charStart, chunk.charEnd)) =
    (windowsFrom text chunkSize overlap fuel windowStart).filter fun span =>
      !isBlank (slice text span.1 span.2) := by
  induction fuel generalizing windowStart ordinal with
  | zero => rfl
  | succ fuel ih =>
      unfold chunkLoop windowsFrom
      by_cases within : windowStart < text.length
      · rw [if_pos within, if_pos within]
        dsimp only
        by_cases blank :
            isBlank (slice text windowStart (windowCut text chunkSize overlap windowStart)) = true
        · rw [if_pos blank, List.filter_cons_of_neg (by simp [blank])]
          split
          · rfl
          · exact ih _ _
        · rw [if_neg blank, List.filter_cons_of_pos (by simpa using blank), List.map_cons]
          split
          · rfl
          · rw [ih]
      · rw [if_neg within, if_neg within]
        rfl

/-- Every chunk is an exact slice of the text. -/
theorem chunkLoop_slices (fuel windowStart ordinal : Nat) :
    ∀ chunk ∈ chunkLoop text chunkSize overlap fuel windowStart ordinal,
      chunk.text = slice text chunk.charStart chunk.charEnd := by
  induction fuel generalizing windowStart ordinal with
  | zero => nofun
  | succ fuel ih =>
      intro chunk member
      unfold chunkLoop at member
      dsimp only at member
      split at member
      · split at member
        · split at member
          · contradiction
          · exact ih _ _ chunk member
        · rcases List.mem_cons.mp member with rfl | member
          · rfl
          · split at member
            · contradiction
            · exact ih _ _ chunk member
      · contradiction

/-- The ordinals of the chunks go up. -/
theorem chunkLoop_ords (fuel windowStart ordinal : Nat) :
    (∀ chunk ∈ chunkLoop text chunkSize overlap fuel windowStart ordinal, ordinal ≤ chunk.ord) ∧
    (chunkLoop text chunkSize overlap fuel windowStart ordinal).Pairwise
      fun first second => first.ord < second.ord := by
  induction fuel generalizing windowStart ordinal with
  | zero => exact ⟨nofun, List.Pairwise.nil⟩
  | succ fuel ih =>
      unfold chunkLoop
      dsimp only
      split
      · split
        · split
          · exact ⟨nofun, List.Pairwise.nil⟩
          · exact ih _ ordinal
        · split
          · refine ⟨fun chunk member => ?_, List.pairwise_singleton _ _⟩
            obtain rfl := List.mem_singleton.mp member
            exact Nat.le_refl _
          · obtain ⟨above, sorted⟩ := ih (windowCut text chunkSize overlap windowStart - overlap)
              (ordinal + 1)
            constructor
            · intro chunk member
              rcases List.mem_cons.mp member with rfl | member
              · exact Nat.le_refl _
              · exact Nat.le_of_succ_le (above chunk member)
            · exact List.Pairwise.cons (fun chunk member => above chunk member) sorted
      · exact ⟨nofun, List.Pairwise.nil⟩

/-- The chunks are exact slices of the text, with ascending starts and ends. -/
structure Slices (text : Text) (chunks : List TextChunk) : Prop where
  sliced : ∀ chunk ∈ chunks, chunk.text = slice text chunk.charStart chunk.charEnd
  within : ∀ chunk ∈ chunks, chunk.charStart < chunk.charEnd ∧ chunk.charEnd ≤ text.length
  ascending : chunks.Pairwise fun first second =>
    first.charStart < second.charStart ∧ first.charEnd < second.charEnd

theorem Slices.tail {text : Text} {chunk : TextChunk} {rest : List TextChunk}
    (slices : Slices text (chunk :: rest)) : Slices text rest :=
  ⟨fun other member => slices.sliced other (List.mem_cons_of_mem _ member),
    fun other member => slices.within other (List.mem_cons_of_mem _ member),
    (List.pairwise_cons.mp slices.ascending).2⟩

/-- This place lies in a chunk. -/
def covered (chunks : List TextChunk) (place : Nat) : Bool :=
  chunks.any fun chunk => chunk.charStart ≤ place && place < chunk.charEnd

/-- These are the covered characters from here on, each once and in the order of the text. -/
def coveredFrom (text : Text) (chunks : List TextChunk) (start : Nat) : Text :=
  (List.range' start (text.length - start)).filterMap fun place =>
    if covered chunks place then text[place]? else none

def coveredText (text : Text) (chunks : List TextChunk) : Text := coveredFrom text chunks 0

variable {chunks : List TextChunk} {start stop : Nat}

theorem coveredFrom_step (within : start < text.length) : coveredFrom text chunks start =
    (if covered chunks start then [text[start]] else []) ++ coveredFrom text chunks (start + 1) := by
  unfold coveredFrom
  rw [show text.length - start = (text.length - (start + 1)) + 1 by omega, List.range'_succ,
    List.filterMap_cons]
  by_cases known : covered chunks start = true
  · simp [known, within]
  · simp [known]

/-- Uncovered characters are skipped. -/
theorem coveredFrom_skip (ordered : start ≤ stop) (within : stop ≤ text.length)
    (uncovered : ∀ place, start ≤ place → place < stop → covered chunks place = false) :
    coveredFrom text chunks start = coveredFrom text chunks stop := by
  induction stop, ordered using Nat.le_induction with
  | base => rfl
  | succ stop ordered ih =>
      rw [ih (by omega) fun place above below => uncovered place above (by omega),
        coveredFrom_step (by omega), if_neg (by simp [uncovered stop ordered (by omega)])]
      rfl

theorem slice_snoc (ordered : start ≤ stop) (within : stop < text.length) :
    slice text start (stop + 1) = slice text start stop ++ [text[stop]] := by
  unfold slice
  rw [List.take_add_one, List.getElem?_eq_getElem within, List.drop_append_of_le_length]
  · rfl
  · rw [List.length_take]
    omega

/-- Covered characters come first. -/
theorem coveredFrom_take (ordered : start ≤ stop) (within : stop ≤ text.length)
    (inside : ∀ place, start ≤ place → place < stop → covered chunks place = true) :
    coveredFrom text chunks start = slice text start stop ++ coveredFrom text chunks stop := by
  induction stop, ordered using Nat.le_induction with
  | base => simp [slice]
  | succ stop ordered ih =>
      rw [ih (by omega) fun place above below => inside place above (by omega),
        coveredFrom_step (by omega), if_pos (inside stop ordered (by omega)),
        slice_snoc ordered (by omega), List.append_assoc]

/-- A chunk that ends before does not cover. -/
theorem coveredFrom_past {chunk : TextChunk} (past : chunk.charEnd ≤ start) :
    coveredFrom text (chunk :: chunks) start = coveredFrom text chunks start := by
  unfold coveredFrom
  refine List.filterMap_congr fun place member => ?_
  have above := (List.mem_range'_1.mp member).1
  have out : (chunk.charStart ≤ place && place < chunk.charEnd) = false := by
    simp only [Bool.and_eq_false_iff, decide_eq_false_iff_not]
    omega
  have same : covered (chunk :: chunks) place = covered chunks place := by
    simp only [covered, List.any_cons, out, Bool.false_or]
  rw [same]

theorem slice_length (within : stop ≤ text.length) :
    (slice text start stop).length = stop - start := by
  simp only [slice, List.length_drop, List.length_take]
  omega

theorem slice_drop (count : Nat) : (slice text start stop).drop count = slice text (start + count) stop := by
  simp [slice, List.drop_drop]

/-- The overlap-aware reader returns every covered character once. -/
theorem reassembleFrom_covered (slices : Slices text chunks) {previousEnd : Nat}
    (ahead : ∀ chunk ∈ chunks, previousEnd < chunk.charEnd) :
    reassembleFrom previousEnd chunks = coveredFrom text chunks previousEnd := by
  induction chunks generalizing previousEnd with
  | nil =>
      symm
      exact List.filterMap_eq_nil_iff.mpr fun _ _ => rfl
  | cons chunk rest ih =>
      have ends := ahead chunk List.mem_cons_self
      obtain ⟨begins, within⟩ := slices.within chunk List.mem_cons_self
      obtain ⟨later, ascending⟩ := List.pairwise_cons.mp slices.ascending
      have uncovered : ∀ place, previousEnd ≤ place → place < max previousEnd chunk.charStart →
          covered (chunk :: rest) place = false := by
        intro place above below
        refine List.any_eq_false.mpr fun other member => ?_
        have first : chunk.charStart ≤ other.charStart := by
          rcases List.mem_cons.mp member with rfl | member
          · exact Nat.le_refl _
          · exact Nat.le_of_lt (later other member).1
        simp only [Bool.and_eq_true, decide_eq_true_eq]
        omega
      have inside : ∀ place, max previousEnd chunk.charStart ≤ place → place < chunk.charEnd →
          covered (chunk :: rest) place = true := by
        intro place above below
        refine List.any_eq_true.mpr ⟨chunk, List.mem_cons_self, ?_⟩
        simp only [Bool.and_eq_true, decide_eq_true_eq]
        omega
      rw [coveredFrom_skip (Nat.le_max_left _ _) (by omega) uncovered,
        coveredFrom_take (by omega) within inside, coveredFrom_past (Nat.le_refl _)]
      unfold reassembleFrom
      rw [if_neg (by omega), ih slices.tail fun other member => (later other member).2,
        slices.sliced chunk List.mem_cons_self, slice_drop,
        show chunk.charStart + (previousEnd - chunk.charStart) = max previousEnd chunk.charStart by
          omega]

/-- The joined texts are at least as long as the covered text, and they are it just when no chunk
starts before the end of an earlier one. -/
theorem joined_reassembled (slices : Slices text chunks) {previousEnd : Nat}
    (ahead : ∀ chunk ∈ chunks, previousEnd < chunk.charEnd) :
    (reassembleFrom previousEnd chunks).length ≤ (chunks.flatMap TextChunk.text).length ∧
    (chunks.flatMap TextChunk.text = reassembleFrom previousEnd chunks ↔
      (∀ chunk ∈ chunks, previousEnd ≤ chunk.charStart) ∧
        chunks.Pairwise fun first second => first.charEnd ≤ second.charStart) := by
  induction chunks generalizing previousEnd with
  | nil => exact ⟨Nat.le_refl _, fun _ => ⟨nofun, List.Pairwise.nil⟩, fun _ => rfl⟩
  | cons chunk rest ih =>
      have ends := ahead chunk List.mem_cons_self
      obtain ⟨begins, within⟩ := slices.within chunk List.mem_cons_self
      obtain ⟨later, ascending⟩ := List.pairwise_cons.mp slices.ascending
      obtain ⟨shorter, same⟩ := ih slices.tail fun other member => (later other member).2
      have long : chunk.text.length = chunk.charEnd - chunk.charStart := by
        rw [slices.sliced chunk List.mem_cons_self, slice_length within]
      have unfolds : reassembleFrom previousEnd (chunk :: rest) =
          chunk.text.drop (previousEnd - chunk.charStart) ++ reassembleFrom chunk.charEnd rest := by
        simp only [reassembleFrom]
        rw [if_neg (by omega)]
      rw [unfolds, List.flatMap_cons]
      constructor
      · simp only [List.length_append, List.length_drop]
        omega
      · constructor
        · intro equal
          have lengths := congrArg List.length equal
          simp only [List.length_append, List.length_drop] at lengths
          have first : previousEnd - chunk.charStart = 0 := by omega
          rw [first, List.drop_zero] at equal
          obtain ⟨apart, pairs⟩ := same.mp (List.append_cancel_left equal)
          refine ⟨fun other member => ?_, List.Pairwise.cons apart pairs⟩
          rcases List.mem_cons.mp member with rfl | member
          · omega
          · have above := apart other member
            omega
        · rintro ⟨behind, pairs⟩
          obtain ⟨apart, pairs⟩ := List.pairwise_cons.mp pairs
          have first := behind chunk List.mem_cons_self
          rw [Nat.sub_eq_zero_of_le first, List.drop_zero, same.mpr ⟨apart, pairs⟩]

/-- The windows that are not blank share no place. -/
def Apart (text : Text) (chunkSize overlap : Nat) : Prop :=
  (windows text chunkSize overlap).Pairwise fun first second =>
    isBlank (slice text first.1 first.2) = false → isBlank (slice text second.1 second.2) = false →
      first.2 ≤ second.1

/-- The document is read back: every covered character once and in order, and what no chunk covers
is blank. -/
def ReadsBack (text : Text) (chunks rows : List TextChunk) : Prop :=
  loadDocumentText true rows = some (coveredText text chunks) ∧
    ∀ place c, text[place]? = some c → covered chunks place = false → isSpace c = true

theorem slice_getElem? (above : start ≤ place) (below : place < stop) :
    (slice text start stop)[place - start]? = text[place]? := by
  unfold slice
  rw [List.getElem?_drop, show start + (place - start) = place by omega, List.getElem?_take_of_lt below]

theorem isBlank_slice (blank : isBlank text = true) : isBlank (slice text start stop) = true := by
  refine List.all_eq_true.mpr fun c member => List.all_eq_true.mp blank c ?_
  exact List.mem_of_mem_take (List.mem_of_mem_drop member)

/-- The rows of a document are read in the order of the chunks. -/
theorem loadDocumentText_perm {rows : List TextChunk}
    (ords : chunks.Pairwise fun first second => first.ord < second.ord) (perm : rows.Perm chunks) :
    loadDocumentText true rows = some (chunks.flatMap TextChunk.text) := by
  let before : TextChunk → TextChunk → Bool := fun first second => first.ord ≤ second.ord
  have permuted : (rows.mergeSort before).Perm chunks := (List.mergeSort_perm rows before).trans perm
  have distinct : (chunks.map TextChunk.ord).Nodup :=
    List.pairwise_map.mpr (ords.imp fun below => Nat.ne_of_lt below)
  have ascending : (rows.mergeSort before).Pairwise fun first second => first.ord ≤ second.ord := by
    have trans (first second third : TextChunk) (below : before first second = true)
        (above : before second third = true) : before first third = true :=
      decide_eq_true (Nat.le_trans (of_decide_eq_true below) (of_decide_eq_true above))
    have total (first second : TextChunk) : (before first second || before second first) = true := by
      simpa [before] using Nat.le_total first.ord second.ord
    have pairs := List.pairwise_mergeSort trans total rows
    exact pairs.imp fun known => of_decide_eq_true known
  have sorted : rows.mergeSort before = chunks := by
    refine List.Perm.eq_of_pairwise ?_ ascending (ords.imp Nat.le_of_lt) permuted
    intro first second known member below above
    exact List.inj_on_of_nodup_map distinct (permuted.mem_iff.mp known) member
      (Nat.le_antisymm below above)
  unfold loadDocumentText
  rw [if_pos rfl]
  exact congrArg (fun rows => some (rows.flatMap TextChunk.text)) sorted

/-- These are the chunks of a text that is not blank. -/
def chunksOf (text : Text) (chunkSize overlap : Nat) : List TextChunk :=
  chunkLoop text chunkSize overlap text.length 0 0

theorem chunksOf_spans (text : Text) (chunkSize overlap : Nat) :
    (chunksOf text chunkSize overlap).map (fun chunk => (chunk.charStart, chunk.charEnd)) =
    (windows text chunkSize overlap).filter fun span => !isBlank (slice text span.1 span.2) :=
  chunkLoop_spans _ _ _

theorem chunksOf_slices (positive : 0 < chunkSize) (fits : overlap < chunkSize) (filled : text ≠ []) :
    Slices text (chunksOf text chunkSize overlap) where
  sliced := chunkLoop_slices _ _ _
  within chunk member := by
    have known : (chunk.charStart, chunk.charEnd) ∈ (windows text chunkSize overlap).filter fun span =>
        !isBlank (slice text span.1 span.2) := by
      rw [← chunksOf_spans]
      exact List.mem_map_of_mem member
    have bounds := (windows_tiles positive fits filled).bounds _ (List.mem_of_mem_filter known)
    exact ⟨bounds.2.1, bounds.2.2.1⟩
  ascending := by
    have pairs := (windows_tiles positive fits filled).ascending.filter fun span =>
      !isBlank (slice text span.1 span.2)
    rw [← chunksOf_spans, List.pairwise_map] at pairs
    exact pairs

/-- The windows are apart just when the chunks are. -/
theorem apart_chunksOf (text : Text) (chunkSize overlap : Nat) : Apart text chunkSize overlap ↔
    (chunksOf text chunkSize overlap).Pairwise fun first second =>
      first.charEnd ≤ second.charStart := by
  have mapped : (chunksOf text chunkSize overlap).Pairwise
      (fun first second => first.charEnd ≤ second.charStart) ↔
      ((chunksOf text chunkSize overlap).map fun chunk => (chunk.charStart, chunk.charEnd)).Pairwise
        fun first second => first.2 ≤ second.1 := by
    rw [List.pairwise_map]
  rw [mapped, chunksOf_spans, List.pairwise_filter]
  simp only [Apart, Bool.not_eq_true']

/-- What no chunk covers is blank. -/
theorem uncovered_blank (positive : 0 < chunkSize) (fits : overlap < chunkSize) {c : Char}
    (found : text[place]? = some c)
    (uncovered : covered (chunksOf text chunkSize overlap) place = false) : isSpace c = true := by
  have within : place < text.length := (List.getElem?_eq_some_iff.mp found).1
  have filled : text ≠ [] := List.length_pos_iff.mp (by omega)
  obtain ⟨span, member, above, below⟩ :=
    (windows_tiles positive fits filled).covers (Nat.zero_le place) within
  by_contra plain
  have kept : isBlank (slice text span.1 span.2) = false := by
    refine List.all_eq_false.mpr ⟨c, ?_, plain⟩
    rw [← slice_getElem? above below] at found
    exact List.mem_of_getElem? found
  have known : span ∈ (chunksOf text chunkSize overlap).map fun chunk =>
      (chunk.charStart, chunk.charEnd) := by
    rw [chunksOf_spans]
    exact List.mem_filter.mpr ⟨member, by rw [kept]; rfl⟩
  obtain ⟨chunk, chunkMember, rfl⟩ := List.mem_map.mp known
  have covers : covered (chunksOf text chunkSize overlap) place = true := by
    refine List.any_eq_true.mpr ⟨chunk, chunkMember, ?_⟩
    simp only [Bool.and_eq_true, decide_eq_true_eq]
    exact ⟨above, below⟩
  rw [uncovered] at covers
  contradiction

/-- The joined chunk texts are the covered text just when the windows that are not blank are apart. -/
theorem joined_covered (positive : 0 < chunkSize) (fits : overlap < chunkSize) (filled : text ≠ []) :
    (chunksOf text chunkSize overlap).flatMap TextChunk.text =
      coveredText text (chunksOf text chunkSize overlap) ↔ Apart text chunkSize overlap := by
  have slices := chunksOf_slices positive fits filled
  have ahead : ∀ chunk ∈ chunksOf text chunkSize overlap, 0 < chunk.charEnd := by
    intro chunk member
    have within := slices.within chunk member
    omega
  have same : reassembleFrom 0 (chunksOf text chunkSize overlap) =
      coveredText text (chunksOf text chunkSize overlap) := reassembleFrom_covered slices ahead
  rw [apart_chunksOf, ← same, (joined_reassembled slices ahead).2]
  exact and_iff_right fun chunk _ => Nat.zero_le _

/-- A blank text is apart. -/
theorem apart_blank (blank : isBlank text = true) (chunkSize overlap : Nat) :
    Apart text chunkSize overlap := by
  refine List.pairwise_of_forall fun first second filled => ?_
  rw [isBlank_slice blank] at filled
  contradiction

/-- Without an overlap the windows of every text are apart. -/
theorem Tiles.apart {start : Nat} (tiles : Tiles total 0 start spans) :
    spans.Pairwise fun first second => first.2 ≤ second.1 := by
  induction tiles with
  | last start within => exact List.pairwise_singleton _ _
  | cons start cut rest progress early tiles ih =>
      refine List.Pairwise.cons (fun span member => ?_) ih
      have bounds := tiles.bounds span member
      dsimp only
      omega

variable {size share : Int}

/-- A blank text has no chunks, and another one has those of the loop. -/
theorem chunkText_cases (chunked : chunkText text size share = .ok chunks) :
    (isBlank text = true ∧ chunks = []) ∨
      (0 < size.toNat ∧ share.toNat < size.toNat ∧ text ≠ [] ∧
        chunks = chunksOf text size.toNat share.toNat) := by
  unfold chunkText at chunked
  split at chunked
  · cases chunked
  · split at chunked
    · cases chunked
    · next sized shared =>
        split at chunked
        · next blank => exact Or.inl ⟨blank, (Except.ok.inj chunked).symm⟩
        · next plain =>
            refine Or.inr ⟨by omega, by omega, ?_, (Except.ok.inj chunked).symm⟩
            rintro rfl
            exact plain rfl

/-- The chunks of a text are exact slices of it with ascending starts and ends. -/
theorem chunkText_slices (chunked : chunkText text size share = .ok chunks) :
    Slices text chunks := by
  obtain ⟨_, rfl⟩ | ⟨positive, fits, filled, rfl⟩ := chunkText_cases chunked
  · exact ⟨nofun, nofun, List.Pairwise.nil⟩
  · exact chunksOf_slices positive fits filled

/-- What no chunk of a text covers is blank. -/
theorem chunkText_uncovered (chunked : chunkText text size share = .ok chunks) {c : Char}
    (found : text[place]? = some c) (uncovered : covered chunks place = false) :
    isSpace c = true := by
  obtain ⟨blank, rfl⟩ | ⟨positive, fits, _, rfl⟩ := chunkText_cases chunked
  · exact List.all_eq_true.mp blank c (List.mem_of_getElem? found)
  · exact uncovered_blank positive fits found uncovered

/-- A document is read back just when its windows that are not blank share no place. -/
theorem readsBack_iff {size share : Int} {rows : List TextChunk}
    (chunked : chunkText text size share = .ok chunks) (perm : rows.Perm chunks) :
    ReadsBack text chunks rows ↔ Apart text size.toNat share.toNat := by
  have covers : ∀ place c, text[place]? = some c → covered chunks place = false →
      isSpace c = true := fun place c found uncovered => chunkText_uncovered chunked found uncovered
  obtain ⟨blank, rfl⟩ | ⟨positive, fits, filled, rfl⟩ := chunkText_cases chunked
  · obtain rfl := List.perm_nil.mp perm
    have none : coveredText text [] = [] := List.filterMap_eq_nil_iff.mpr fun _ _ => rfl
    refine ⟨fun _ => apart_blank blank _ _, fun _ => ⟨?_, covers⟩⟩
    rw [none]
    simp [loadDocumentText]
  · have ords : (chunksOf text size.toNat share.toNat).Pairwise
        fun first second => first.ord < second.ord := (chunkLoop_ords _ _ _).2
    unfold ReadsBack
    rw [loadDocumentText_perm ords perm, Option.some.injEq, joined_covered positive fits filled]
    exact and_iff_left covers

/-- Three chunks without overlap are read back from rows in another order. -/
theorem readsBack_iff_words : ∃ chunks, chunkText "one two six".toList 5 0 = .ok chunks ∧
    chunks.length = 3 ∧ ReadsBack "one two six".toList chunks chunks.reverse := by
  have apart : Apart "one two six".toList 5 0 := by
    unfold Apart
    decide
  have chunked : chunkText "one two six".toList 5 0 = .ok
      [⟨0, "one ".toList, 0, 4⟩, ⟨1, "two ".toList, 4, 8⟩, ⟨2, "six".toList, 8, 11⟩] := by
    decide
  exact ⟨_, chunked, rfl, (readsBack_iff chunked (List.reverse_perm _)).mpr apart⟩

/-- Two chunks with an overlap are joined with the overlap repeated. -/
theorem overlap_repeated : ∃ chunks, chunkText "abcdef".toList 4 2 = .ok chunks ∧
    loadDocumentText true chunks = some "abcdcdef".toList ∧
    ¬ ReadsBack "abcdef".toList chunks chunks := by
  have chunked : chunkText "abcdef".toList 4 2 = .ok
      [⟨0, "abcd".toList, 0, 4⟩, ⟨1, "cdef".toList, 2, 6⟩] := by
    decide
  have loaded : loadDocumentText true
      [⟨0, "abcd".toList, 0, 4⟩, ⟨1, "cdef".toList, 2, 6⟩] = some "abcdcdef".toList :=
    loadDocumentText_perm (by decide) (List.Perm.refl _)
  refine ⟨_, chunked, loaded, fun reads => ?_⟩
  have same := loaded.symm.trans reads.1
  revert same
  decide

end LumenCopilot.Ingestion
