import LumenCopilot.Proof.Guard.Withheld
import Mathlib

namespace LumenCopilot.Guard

open Python

/-- No other code point above ASCII has a lower case that contains an ASCII one. -/
def FaithfulTable (table : UnicodeTable) : Prop :=
  ∀ c, isAscii c = false → table.lower c ≠ [] ∧ ∀ d ∈ table.lower c, isAscii d = false

/-- The text ends in an odd run of angle brackets, so its last one waits for a second one. -/
def loneAngle (text : Text) : Bool := text.foldl (fun lone c => c == '<' && !lone) false

/-- An angle bracket starts a candidate that grows past the bound of the buffer. -/
def Overflows (table : UnicodeTable) (text : Text) : Prop :=
  ∃ before rest c after, text = before ++ '<' :: rest ++ c :: after ∧ loneAngle before = false ∧
    isWithheld table ('<' :: rest) = true ∧ ('<' :: rest).length = maxMarkerChars ∧ c ≠ '<'

/-- The text ends in a candidate that the flush takes for a partial marker. -/
def EndsSuspicious (table : UnicodeTable) (text : Text) : Prop :=
  ∃ before rest, text = before ++ '<' :: rest ∧ loneAngle before = false ∧
    isWithheld table ('<' :: rest) = true ∧ suspiciousPartial table ('<' :: rest) = true

/-- No end of the text is a proper start of a marker. -/
def EndsNoMarker (table : UnicodeTable) (text : Text) : Prop :=
  ∀ tail more, tail <:+ text → tail ≠ [] → more ≠ [] → isMarker table (tail ++ more) = false

theorem loneAngle_snoc (text : Text) (c : Char) :
    loneAngle (text ++ [c]) = (c == '<' && !loneAngle text) := by
  simp [loneAngle]

/-- A lower case that starts an ASCII pattern is read by the pattern without its case. -/
theorem dropIgnoreCase_of_lower (table : UnicodeTable) (faithful : FaithfulTable table)
    (pattern text : Text) (ascii : ∀ c ∈ pattern, isAscii c = true)
    (starts : lower table text <+: pattern) :
    text.length ≤ pattern.length ∧
      dropIgnoreCase pattern (text ++ pattern.drop text.length) = some [] := by
  have whole (rest : Text) : dropIgnoreCase rest rest = some [] := by
    induction rest with
    | nil => rfl
    | cons d rest ih => simp [dropIgnoreCase, ignoreCaseEq, ih]
  induction text generalizing pattern with
  | nil => exact ⟨Nat.zero_le _, whole pattern⟩
  | cons c text ih =>
      have spelled : lower table (c :: text) = lowerChar table c ++ lower table text := rfl
      rw [spelled] at starts
      have read (d : Char) (single : lowerChar table c = [d]) (same : ignoreCaseEq d c = true) :
          (c :: text).length ≤ pattern.length ∧
            dropIgnoreCase pattern (c :: text ++ pattern.drop (c :: text).length) = some [] := by
        rw [single, List.singleton_append] at starts
        cases pattern with
        | nil => exact absurd (List.prefix_nil.mp starts) (by simp)
        | cons e pattern =>
            obtain ⟨rfl, later⟩ := List.cons_prefix_cons.mp starts
            obtain ⟨short, matched⟩ :=
              ih pattern (fun f member => ascii f (List.mem_cons_of_mem d member)) later
            refine ⟨Nat.succ_le_succ short, ?_⟩
            simpa [dropIgnoreCase, same] using matched
      have above (d : Char) (member : d ∈ lowerChar table c) (notAscii : isAscii d = false) :
          False := by
        have inside := starts.subset (List.mem_append_left _ member)
        simp [ascii d inside] at notAscii
      by_cases low : isAscii c = true
      · exact read c.toLower (by simp [lowerChar, low]) (by simp [ignoreCaseEq, low])
      · by_cases dotted : c.toNat = 0x130
        · refine (above (Char.ofNat 0x307) ?_ (by decide)).elim
          simp [lowerChar, low, dotted]
        · by_cases kelvin : c.toNat = 0x212A
          · refine read 'k' (by simp [lowerChar, low, kelvin]) ?_
            simp [ignoreCaseEq, kelvin]
          · obtain ⟨nonempty, high⟩ := faithful c (by simpa using low)
            obtain ⟨d, member⟩ := List.exists_mem_of_ne_nil _ nonempty
            refine (above d ?_ (high d member)).elim
            simpa [lowerChar, low, dotted, kelvin] using member

theorem toLower_slash (c : Char) (same : c.toLower = '/') : c = '/' := by
  unfold Char.toLower at same
  split at same
  · next upper =>
      have value := congrArg (fun d : Char => d.val.toNat) same
      have low : 65 ≤ c.val.toNat := UInt32.le_iff_toNat_le.mp upper.1
      have high : c.val.toNat ≤ 90 := UInt32.le_iff_toNat_le.mp upper.2
      simp only [UInt32.toNat_add] at value
      have shift : UInt32.toNat ('a'.val - 'A'.val) = 32 := rfl
      have slash : ('/' : Char).val.toNat = 47 := rfl
      omega
  · exact same

theorem instMatch_of_read (text : Text) (read : dropIgnoreCase "inst]".toList text = some []) :
    instMatch ('[' :: text) = true := by
  have plain : removeStart ['/'] text = text := by
    cases text with
    | nil => rfl
    | cons c text =>
        have notSlash : '/' ≠ c := by
          intro slash
          rw [← slash] at read
          exact absurd read (by simp [dropIgnoreCase, ignoreCaseEq])
        simp [removeStart, startsWith, notSlash]
  rw [instMatch, plain, read]
  rfl

theorem instMatch_of_closing (text : Text)
    (read : dropIgnoreCase "/inst]".toList text = some []) : instMatch ('[' :: text) = true := by
  have split : "/inst]".toList = '/' :: "inst]".toList := rfl
  cases text with
  | nil => simp [dropIgnoreCase] at read
  | cons c text =>
      rw [split, dropIgnoreCase] at read
      split at read
      · next same =>
          have either : c = '/' ∨ (isAscii c = true ∧ c.toLower = '/') := by
            simpa [ignoreCaseEq] using same
          have slash : c = '/' := by
            rcases either with whole | lowered
            · exact whole
            · exact toLower_slash c lowered.2
          have removed : removeStart ['/'] ('/' :: text) = text := rfl
          rw [slash, instMatch, removed, read]
          rfl
      · contradiction

/-- A candidate in square brackets is short and grows to an instruction marker. -/
theorem markerCandidate_square (table : UnicodeTable) (faithful : FaithfulTable table)
    (rest : Text) (candidate : markerCandidate table ('[' :: rest) = true) :
    rest.length ≤ 6 ∧ ∃ more, isMarker table ('[' :: rest ++ more) = true := by
  have spelled : lower table ('[' :: rest) = '[' :: lower table rest := rfl
  have tokens : (["[inst]".toList, "[/inst]".toList].any fun token =>
      startsWith token ('[' :: lower table rest)) = true := by
    rw [markerCandidate, spelled] at candidate
    exact candidate
  rw [List.any_cons, List.any_cons, List.any_nil, Bool.or_false, Bool.or_eq_true] at tokens
  simp only [startsWith, List.isPrefixOf_iff_prefix] at tokens
  have marked (text : Text) (inst : instMatch ('[' :: text) = true) :
      isMarker table ('[' :: text) = true := by
    simp [isMarker, controlMatch, inst]
  rcases tokens with opening | closing
  · have ascii : "inst]".toList.all isAscii = true := by decide
    obtain ⟨short, read⟩ := dropIgnoreCase_of_lower table faithful "inst]".toList rest
      (List.all_eq_true.mp ascii) (List.cons_prefix_cons.mp opening).2
    exact ⟨short.trans (by decide), _, marked _ (instMatch_of_read _ read)⟩
  · have ascii : "/inst]".toList.all isAscii = true := by decide +kernel
    obtain ⟨short, read⟩ := dropIgnoreCase_of_lower table faithful "/inst]".toList rest
      (List.all_eq_true.mp ascii) (List.cons_prefix_cons.mp closing).2
    exact ⟨short, _, marked _ (instMatch_of_closing _ read)⟩

theorem staysAll_append (table : UnicodeTable) (buffer first second : Text) :
    staysAll table buffer (first ++ second) =
      (staysAll table buffer first && staysAll table (buffer ++ first) second) := by
  induction first generalizing buffer with
  | nil => simp [staysAll]
  | cons c rest ih => simp [staysAll, ih, Bool.and_assoc]

/-- A withheld text that one more code point extends is withheld. -/
theorem isWithheld_snoc (table : UnicodeTable) (buffer : Text) (c : Char)
    (held : isWithheld table buffer = true) (stay : stays table buffer c = true) :
    isWithheld table (buffer ++ [c]) = true := by
  cases buffer with
  | nil => simp [isWithheld] at held
  | cons d rest =>
      simp only [isWithheld, Bool.and_eq_true, List.cons_append, staysAll_append] at held ⊢
      exact ⟨held.1, held.2, by simpa [staysAll] using stay⟩

/-- A withheld text is a bracket, or its last code point extended a withheld text. -/
theorem isWithheld_cases (table : UnicodeTable) (buffer : Text)
    (held : isWithheld table buffer = true) :
    (∃ c, buffer = [c] ∧ (c = '<' ∨ c = '[')) ∨
      ∃ start c, buffer = start ++ [c] ∧ stays table start c = true := by
  cases buffer with
  | nil => simp [isWithheld] at held
  | cons c rest =>
      simp only [isWithheld, Bool.and_eq_true, Bool.or_eq_true, beq_iff_eq] at held
      rcases List.eq_nil_or_concat rest with rfl | ⟨start, last, rfl⟩
      · exact Or.inl ⟨c, rfl, held.1⟩
      · rw [List.concat_eq_append, staysAll_append, Bool.and_eq_true] at held
        exact Or.inr ⟨c :: start, last, by simp, by simpa [staysAll] using held.2.2⟩

theorem stays_candidate (table : UnicodeTable) (buffer : Text) (c : Char)
    (stay : stays table buffer c = true) :
    buffer.length < maxMarkerChars ∧ markerCandidate table (buffer ++ [c]) = true := by
  simp only [stays, Bool.and_eq_true, decide_eq_true_eq] at stay
  exact ⟨stay.1.1.2, stay.1.2⟩

/-- A withheld text is a candidate within the bound. -/
theorem isWithheld_candidate (table : UnicodeTable) (buffer : Text)
    (held : isWithheld table buffer = true) :
    buffer.length ≤ maxMarkerChars ∧ markerCandidate table buffer = true := by
  rcases isWithheld_cases table buffer held with ⟨c, rfl, opens⟩ | ⟨start, c, rfl, stay⟩
  · exact ⟨by simp [maxMarkerChars], markerCandidate_open table c opens⟩
  · obtain ⟨short, candidate⟩ := stays_candidate table start c stay
    refine ⟨?_, candidate⟩
    rw [List.length_append, List.length_singleton]
    omega

theorem isWithheld_head (table : UnicodeTable) (buffer : Text)
    (held : isWithheld table buffer = true) :
    ∃ c rest, buffer = c :: rest ∧ (c = '<' ∨ c = '[') := by
  cases buffer with
  | nil => simp [isWithheld] at held
  | cons c rest =>
      simp only [isWithheld, Bool.and_eq_true, Bool.or_eq_true, beq_iff_eq] at held
      exact ⟨c, rest, rfl, held.1⟩

/-- The guard has published or still holds all of the text that it read. -/
structure ReasoningGuard.Follows (table : UnicodeTable) (guard : ReasoningGuard)
    (read published : Text) : Prop where
  running : guard.discard = false
  outside : guard.stack = []
  whole : published ++ guard.sentinelPending ++ guard.pending = read
  lone : guard.pending = ['<'] ↔ loneAngle read = true
  withheld : guard.pending = [] ∨ isWithheld table guard.pending = true
  place : ∀ rest, guard.pending = '<' :: rest →
    loneAngle (published ++ guard.sentinelPending) = false

/-- The guard gave the rest of the text up, because a candidate grew past the bound. -/
structure ReasoningGuard.Lost (table : UnicodeTable) (guard : ReasoningGuard)
    (read published : Text) : Prop where
  stopped : guard.discard = true
  short : published.length < read.length
  overflows : Overflows table read

variable {text : Text} {table : UnicodeTable}

theorem Overflows.append (overflows : Overflows table text) (more : Text) :
    Overflows table (text ++ more) := by
  obtain ⟨before, rest, c, after, split, rest'⟩ := overflows
  exact ⟨before, rest, c, after ++ more, by rw [split]; simp, rest'⟩

theorem not_isMarker_of_suffix {part : Text} (bare : ¬ContainsMarker table text)
    (ends : part <:+ text) : isMarker table part = false := by
  by_contra marker
  obtain ⟨before, split⟩ := ends
  exact bare ⟨before, part, [], by rw [List.append_nil, split], by simpa using marker⟩

/-- Text that is released outside every block is published or held by the matcher. -/
theorem ReasoningGuard.release_whole (table : UnicodeTable) (guard : ReasoningGuard) (text : Text)
    (running : guard.discard = false) (outside : guard.stack = [])
    (free : FreeOfSentinels table (guard.sentinelPending ++ text)) :
    (guard.release table text).1.discard = false ∧ (guard.release table text).1.stack = [] ∧
      (guard.release table text).2 ++ (guard.release table text).1.sentinelPending =
        guard.sentinelPending ++ text := by
  have empty : guard.stack.isEmpty = true := by simp [outside]
  simp only [release, empty, ↓reduceIte]
  have runs := visible_runs table guard text running free
  exact ⟨runs, (visible_stack table guard text).trans outside,
    (visible_shows table guard text).whole runs⟩

theorem ReasoningGuard.visible_withPending (table : UnicodeTable) (guard : ReasoningGuard)
    (pending text : Text) :
    ({ guard with pending := pending } : ReasoningGuard).visible table text =
      ({ (guard.visible table text).1 with pending := pending }, (guard.visible table text).2) := by
  induction text generalizing guard with
  | nil => rfl
  | cons c rest ih =>
      have first : ({ guard with pending := pending } : ReasoningGuard).visibleChar table c =
          ({ (guard.visibleChar table c).1 with pending := pending },
            (guard.visibleChar table c).2) := by
        unfold visibleChar
        by_cases discarded : guard.discard = true
        · simp only [discarded, ↓reduceIte]
        · simp only [discarded, Bool.false_eq_true, ↓reduceIte]
          rcases settleSentinel table (guard.sentinelPending ++ [c]) with ⟨out, kept | kept⟩
          · rfl
          · rfl
      simp only [visible, first, ih]

/-- The withheld buffer takes no part in the release of a text. -/
theorem ReasoningGuard.release_withPending (table : UnicodeTable) (guard : ReasoningGuard)
    (pending text : Text) :
    ({ guard with pending := pending } : ReasoningGuard).release table text =
      ({ (guard.release table text).1 with pending := pending }, (guard.release table text).2) := by
  unfold release
  dsimp only
  split
  · exact visible_withPending table guard pending text
  · rfl

variable {read published : Text} {guard : ReasoningGuard}

/-- Released text leaves an empty buffer, when no bracket waits for a second one. -/
theorem ReasoningGuard.Follows.released {later : Text}
    (follows : guard.Follows table read published) (text : Text)
    (whole : published ++ guard.sentinelPending ++ text = later)
    (free : FreeOfSentinels table later) (quiet : loneAngle later = false) :
    ({ (guard.release table text).1 with pending := [] } : ReasoningGuard).Follows table later
      (published ++ (guard.release table text).2) := by
  have inside : guard.sentinelPending ++ text <:+ later := ⟨published, by rw [← whole]; simp⟩
  obtain ⟨running, outside, shown⟩ := guard.release_whole table text follows.running
    follows.outside (free.mono inside.isInfix)
  refine ⟨running, outside, ?_, by simp [quiet], Or.inl rfl, by simp⟩
  rw [List.append_nil, List.append_assoc, shown, ← whole, List.append_assoc]

/-- A bracket that starts anew leaves a buffer of its own after the released text. -/
theorem ReasoningGuard.Follows.restarted (follows : guard.Follows table read published)
    (free : FreeOfSentinels table read) (quiet : loneAngle read = false) :
    ({ (guard.release table guard.pending).1 with pending := ['<'] } : ReasoningGuard).Follows table
      (read ++ ['<']) (published ++ (guard.release table guard.pending).2) := by
  have base := follows.released guard.pending follows.whole free quiet
  have whole := base.whole
  rw [List.append_nil] at whole
  refine ⟨base.running, base.outside, ?_, ?_, Or.inr rfl, ?_⟩
  · rw [whole]
  · simp [loneAngle_snoc, quiet]
  · intro rest same
    rw [whole]
    exact quiet

theorem ReasoningGuard.complete_ordinary (table : UnicodeTable) (guard : ReasoningGuard)
    (pending : Text) (ordinary : isMarker table pending = false) :
    guard.complete table pending = guard.release table pending := by
  simp only [isMarker, Bool.or_eq_false_iff] at ordinary
  obtain ⟨⟨notOpen, notClose⟩, notControl⟩ := ordinary
  have noOpen : openMatch table pending = none := by simpa using notOpen
  have noClose : closeMatch pending = none := by simpa using notClose
  simp [complete, noOpen, noClose, notControl]

/-- A candidate that does not stay withheld within the bound is finished. -/
theorem finishes_of_candidate (table : UnicodeTable) (buffer : Text) (c : Char)
    (joins : ¬(c = '<' ∧ buffer ≠ ['<'])) (short : buffer.length < maxMarkerChars)
    (candidate : markerCandidate table (buffer ++ [c]) = true)
    (ends : stays table buffer c = false) : finishes table buffer c = true := by
  have joined : (c != '<' || buffer == ['<']) = true := by
    by_cases angle : c = '<'
    · have same : buffer = ['<'] := by
        by_contra other
        exact joins ⟨angle, other⟩
      simp [same]
    · simp [angle]
  have bounded : decide (buffer.length < maxMarkerChars) = true := by simpa using short
  simp only [stays, joined, bounded, candidate, Bool.true_and, Bool.or_eq_false_iff] at ends
  have bracket : (c == '>' || c == ']') = true := by
    by_contra neither
    have other : ¬c = '>' ∧ ¬c = ']' := by simpa using neither
    simp [other.1, other.2] at ends
  simp only [finishes, bracket, bounded, candidate, ends.2, Bool.true_and, Bool.not_false]

/-- One step over ordinary text follows it, or gives it up at the bound of the buffer. -/
theorem ReasoningGuard.Follows.step (faithful : FaithfulTable table)
    (follows : guard.Follows table read published) (c : Char)
    (bare : ¬ContainsMarker table (read ++ [c])) (free : FreeOfSentinels table (read ++ [c])) :
    (guard.feedChar table c).1.Follows table (read ++ [c])
        (published ++ (guard.feedChar table c).2) ∨
      (guard.feedChar table c).1.Lost table (read ++ [c])
        (published ++ (guard.feedChar table c).2) := by
  by_cases idle : guard.pending = []
  · have quiet : loneAngle read = false := by
      have lone := follows.lone
      simpa [idle] using lone
    have whole := follows.whole
    rw [idle, List.append_nil] at whole
    left
    by_cases opens : c = '<' ∨ c = '['
    · have step : guard.feedChar table c = ({ guard with pending := [c] }, []) := by
        unfold feedChar
        simp [follows.running, idle, opens]
      rw [step, List.append_nil]
      refine ⟨follows.running, follows.outside, by rw [whole], ?_, Or.inr ?_, ?_⟩
      · simp [loneAngle_snoc, quiet]
      · simp [isWithheld, staysAll, opens]
      · intro rest same
        rw [whole]
        exact quiet
    · have step := feedChar_plain table guard c idle (not_or.mp opens)
      have kept := follows.released [c] (by rw [whole]) free
        (by simp [loneAngle_snoc, (not_or.mp opens).1])
      have same : ({ (guard.release table [c]).1 with pending := [] } : ReasoningGuard) =
          (guard.release table [c]).1 := by
        have empty := (release_pending table guard [c]).trans idle
        generalize (guard.release table [c]).1 = after at empty ⊢
        rw [← empty]
      rw [step]
      rw [same] at kept
      exact kept
  · have withheld : isWithheld table guard.pending = true := by
      rcases follows.withheld with empty | held
      · exact absurd empty idle
      · exact held
    have occupied : guard.pending.isEmpty = false := by simpa using idle
    by_cases restarts : c = '<' ∧ guard.pending ≠ ['<']
    · obtain ⟨rfl, other⟩ := restarts
      have quiet : loneAngle read = false := by
        by_contra lone
        exact other (follows.lone.mpr (by simpa using lone))
      have step : guard.feedChar table '<' =
          ({ (guard.release table guard.pending).1 with pending := ['<'] },
            (guard.release table guard.pending).2) := by
        unfold feedChar
        simp [follows.running, idle, other]
      rw [step]
      exact Or.inl (follows.restarted (free.mono (List.prefix_append _ _).isInfix) quiet)
    · have quiet : loneAngle (read ++ [c]) = false := by
        rw [loneAngle_snoc]
        by_cases angle : c = '<'
        · have same : guard.pending = ['<'] := by
            by_contra other
            exact restarts ⟨angle, other⟩
          simp [follows.lone.mp same]
        · simp [angle]
      have continues : (c == '<' && guard.pending != ['<']) = false := by
        simpa using restarts
      have grown : published ++ guard.sentinelPending ++ (guard.pending ++ [c]) = read ++ [c] := by
        rw [← List.append_assoc, follows.whole]
      by_cases short : guard.pending.length < maxMarkerChars
      · left
        have bounded : ¬maxMarkerChars < (guard.pending ++ [c]).length := by
          rw [List.length_append, List.length_singleton]
          omega
        cases stay : stays table guard.pending c with
        | true =>
            rw [feedChar_stays table guard c follows.running idle stay, List.append_nil]
            refine ⟨follows.running, follows.outside, grown, ?_,
              Or.inr (isWithheld_snoc table _ c withheld stay), ?_⟩
            · rw [quiet]
              simp [List.append_eq_singleton_iff, idle]
            · intro rest same
              obtain ⟨d, later, split, -⟩ := isWithheld_head table _ withheld
              rw [split] at same
              exact follows.place later (by rw [split, (List.cons.inj same).1])
        | false =>
            cases candidate : markerCandidate table (guard.pending ++ [c]) with
            | false =>
                have step : guard.feedChar table c =
                    ({ (guard.release table (guard.pending ++ [c])).1 with pending := [] },
                      (guard.release table (guard.pending ++ [c])).2) := by
                  unfold feedChar extend
                  simp only [follows.running, occupied, continues, bounded, candidate,
                    Bool.false_eq_true, Bool.not_false, ↓reduceIte]
                rw [step]
                exact follows.released _ grown free quiet
            | true =>
                have finished := finishes_of_candidate table _ c restarts short candidate stay
                have ordinary := not_isMarker_of_suffix bare ⟨_, grown⟩
                rw [feedChar_finishes table guard c follows.running idle finished,
                  complete_ordinary table _ _ ordinary]
                rw [release_withPending]
                exact follows.released _ grown free quiet
      · right
        obtain ⟨bound, candidate⟩ := isWithheld_candidate table _ withheld
        obtain ⟨d, rest, split, opens⟩ := isWithheld_head table _ withheld
        have angle : d = '<' := by
          rcases opens with angle | square
          · exact angle
          · rw [split, square] at candidate
            have few := (markerCandidate_square table faithful rest candidate).1
            rw [split] at short
            simp only [List.length_cons, maxMarkerChars] at short
            omega
        rw [angle] at split
        have full : ('<' :: rest).length = maxMarkerChars := by
          rw [← split]
          omega
        have other : c ≠ '<' := by
          intro same
          apply restarts
          refine ⟨same, ?_⟩
          intro single
          rw [single] at short
          exact short (by decide)
        have step : guard.feedChar table c =
            ({ guard with
                discard := true, blockedBlocks := guard.blockedBlocks + 1, pending := [] }, []) := by
          have long : maxMarkerChars < (guard.pending ++ [c]).length := by
            rw [List.length_append, List.length_singleton]
            omega
          unfold feedChar extend
          simp only [follows.running, occupied, continues, long, Bool.false_eq_true, ↓reduceIte]
        rw [step, List.append_nil]
        have whole := follows.whole
        refine ⟨rfl, ?_, _, rest, c, [], ?_, follows.place rest split, ?_, full, other⟩
        · rw [← whole]
          simp only [List.length_append, List.length_singleton]
          omega
        · rw [← split, whole]
        · rw [← split]
          exact withheld

theorem ReasoningGuard.feed_stopped (table : UnicodeTable) (guard : ReasoningGuard) (text : Text)
    (stopped : guard.discard = true) : guard.feed table text = (guard, []) := by
  induction text with
  | nil => rfl
  | cons c rest ih =>
      have step : guard.feedChar table c = (guard, []) := by simp [feedChar, stopped]
      simp only [feed, step, ih, List.append_nil]

/-- A run over ordinary text follows it to its end, or gives it up on the way. -/
theorem ReasoningGuard.Follows.run (faithful : FaithfulTable table)
    (follows : guard.Follows table read published) (text : Text)
    (bare : ¬ContainsMarker table (read ++ text)) (free : FreeOfSentinels table (read ++ text)) :
    (guard.feed table text).1.Follows table (read ++ text) (published ++ (guard.feed table text).2) ∨
      (guard.feed table text).1.Lost table (read ++ text)
        (published ++ (guard.feed table text).2) := by
  induction text generalizing guard read published with
  | nil =>
      simp only [feed, List.append_nil]
      exact Or.inl follows
  | cons c rest ih =>
      have split : read ++ c :: rest = (read ++ [c]) ++ rest := by simp
      have start : read ++ [c] <+: read ++ c :: rest := by
        rw [split]
        exact List.prefix_append _ _
      have bareStart : ¬ContainsMarker table (read ++ [c]) := by
        intro found
        obtain ⟨before, marker, after, whole, isOne⟩ := found
        exact bare ⟨before, marker, after ++ rest, by rw [split, whole]; simp, isOne⟩
      simp only [feed]
      rw [split] at bare free ⊢
      rw [← List.append_assoc]
      rcases follows.step faithful c bareStart (free.mono (List.prefix_append _ _).isInfix) with
        next' | lost
      · exact ih next' bare free
      · rw [feed_stopped table _ rest lost.stopped, List.append_nil]
        refine Or.inr ⟨lost.stopped, ?_, lost.overflows.append rest⟩
        have shorter := lost.short
        simp only [List.length_append] at shorter ⊢
        omega

theorem ReasoningGuard.Follows.fresh (table : UnicodeTable) :
    ReasoningGuard.fresh.Follows table [] [] :=
  ⟨rfl, rfl, rfl, by decide, Or.inl rfl, by simp [ReasoningGuard.fresh]⟩

/-- A run that reaches the end of its text followed every start of the text. -/
theorem ReasoningGuard.Follows.start {start rest : Text} (faithful : FaithfulTable table)
    (bare : ¬ContainsMarker table (start ++ rest)) (free : FreeOfSentinels table (start ++ rest))
    (running : (ReasoningGuard.fresh.feed table (start ++ rest)).1.discard = false) :
    (ReasoningGuard.fresh.feed table start).1.Follows table start
      (ReasoningGuard.fresh.feed table start).2 := by
  have bareStart : ¬ContainsMarker table start := by
    intro found
    obtain ⟨before, marker, after, whole, isOne⟩ := found
    exact bare ⟨before, marker, after ++ rest, by rw [whole]; simp, isOne⟩
  rcases (Follows.fresh table).run faithful start bareStart
      (free.mono (List.prefix_append _ _).isInfix) with follows | lost
  · exact follows
  · rw [feed_append, feed_stopped table _ rest lost.stopped, lost.stopped] at running
    simp at running

/-- A run over a withheld end leaves that end in the buffer. -/
theorem ReasoningGuard.feed_pending (table : UnicodeTable) (faithful : FaithfulTable table)
    (before rest : Text) (bare : ¬ContainsMarker table (before ++ '<' :: rest))
    (free : FreeOfSentinels table (before ++ '<' :: rest)) (quiet : loneAngle before = false)
    (held : isWithheld table ('<' :: rest) = true)
    (running : (fresh.feed table (before ++ '<' :: rest)).1.discard = false) :
    (fresh.feed table (before ++ '<' :: rest)).1.pending = '<' :: rest := by
  have follows := Follows.start faithful bare free running
  have other : (fresh.feed table before).1.pending ≠ ['<'] := by
    intro single
    simp [follows.lone.mp single] at quiet
  have first : ((fresh.feed table before).1.feedChar table '<').1.pending = ['<'] := by
    unfold feedChar
    by_cases idle : (fresh.feed table before).1.pending = []
    · simp [follows.running, idle]
    · simp [follows.running, idle, other]
  have split : before ++ '<' :: rest = before ++ ['<'] ++ rest := by simp
  have stepped : (fresh.feed table (before ++ ['<'])).1 =
      ((fresh.feed table before).1.feedChar table '<').1 := by
    rw [feed_append]
    rfl
  rw [split] at bare free running ⊢
  have still := (Follows.start faithful bare free running).running
  rw [isWithheld, Bool.and_eq_true] at held
  rw [feed_append]
  dsimp only
  rw [stepped] at still ⊢
  rw [feed_staysAll table _ rest still (by simp [first]) (by rw [first]; exact held.2)]
  simp [first]

/-- A run that follows its whole text met no candidate past the bound. -/
theorem ReasoningGuard.Follows.not_overflows (faithful : FaithfulTable table)
    (bare : ¬ContainsMarker table text) (free : FreeOfSentinels table text)
    (running : (ReasoningGuard.fresh.feed table text).1.discard = false) :
    ¬Overflows table text := by
  intro overflows
  obtain ⟨before, rest, c, after, rfl, quiet, held, full, other⟩ := overflows
  have split : before ++ '<' :: rest ++ c :: after = (before ++ '<' :: rest ++ [c]) ++ after := by
    simp
  rw [split] at bare free running
  have last := (Follows.start faithful bare free running).running
  have bareLast : ¬ContainsMarker table (before ++ '<' :: rest ++ [c]) := by
    intro found
    obtain ⟨start, marker, more, whole, isOne⟩ := found
    exact bare ⟨start, marker, more ++ after, by rw [whole]; simp, isOne⟩
  have freeLast := free.mono (List.prefix_append (before ++ '<' :: rest ++ [c]) after).isInfix
  have still := (Follows.start faithful bareLast freeLast last).running
  have bareBuffer : ¬ContainsMarker table (before ++ '<' :: rest) := by
    intro found
    obtain ⟨start, marker, more, whole, isOne⟩ := found
    exact bareLast ⟨start, marker, more ++ [c], by rw [whole]; simp, isOne⟩
  have freeBuffer := freeLast.mono (List.prefix_append (before ++ '<' :: rest) [c]).isInfix
  have pending := feed_pending table faithful before rest bareBuffer freeBuffer quiet held still
  have stops : ((ReasoningGuard.fresh.feed table (before ++ '<' :: rest)).1.feedChar table
      c).1.discard = true := by
    have long : maxMarkerChars < ('<' :: rest ++ [c]).length := by
      rw [List.length_append, List.length_singleton]
      omega
    unfold feedChar extend
    rw [pending]
    simp only [still, List.isEmpty_cons, beq_eq_false_iff_ne.mpr other, long, Bool.false_and,
      Bool.false_eq_true, ↓reduceIte]
  rw [feed_append] at last
  simp only [feed] at last
  rw [stops] at last
  contradiction

/-- The flush after a followed run shows all of the text, or drops a suspicious end. -/
theorem ReasoningGuard.Follows.flush_whole (follows : guard.Follows table text published)
    (free : FreeOfSentinels table text) :
    published ++ (guard.flush table).2 = text ↔
      ¬(guard.pending ≠ [] ∧ suspiciousPartial table guard.pending = true) := by
  obtain ⟨running, outside, whole, -, -, -⟩ := follows
  rcases guard with ⟨pending, stack, held, discard, blocks⟩
  obtain rfl : discard = false := running
  obtain rfl : stack = [] := outside
  dsimp only at whole ⊢
  have inside : held ++ pending <:+ text := ⟨published, by rw [← whole]; simp⟩
  unfold flush
  simp only [List.isEmpty_nil, Bool.not_true, Bool.or_self, Bool.false_eq_true, ↓reduceIte]
  by_cases idle : pending = []
  · rw [idle, List.append_nil] at whole
    simp [idle, visible, whole]
  · have occupied : pending.isEmpty = false := by simpa using idle
    by_cases suspicious : suspiciousPartial table pending = true
    · simp only [occupied, suspicious, Bool.not_false, Bool.and_self, ↓reduceIte, visible,
        Bool.false_eq_true, List.nil_append]
      constructor
      · intro same
        rw [← whole] at same
        exact absurd (by simpa using same) idle
      · intro none'
        exact absurd ⟨idle, trivial⟩ none'
    · have runs := visible_runs table ⟨[], [], held, false, blocks⟩ pending rfl
        (free.mono inside.isInfix)
      have shown := (visible_shows table ⟨[], [], held, false, blocks⟩ pending).whole runs
      simp only [suspicious, Bool.and_false, Bool.false_eq_true, ↓reduceIte, runs]
      rw [shown, ← List.append_assoc, whole]
      exact ⟨fun _ both => both.2, fun _ => rfl⟩

/-- Ordinary text is published unchanged exactly when no candidate in it outgrows the buffer and
it does not end in a candidate that the flush takes for a partial marker. -/
theorem sanitizeProviderText_ordinary (table : UnicodeTable) (faithful : FaithfulTable table)
    (text : Text) (bare : ¬ContainsMarker table text) (free : FreeOfSentinels table text)
    (ends : EndsNoMarker table text) :
    sanitizeProviderText table text = text ↔
      ¬Overflows table text ∧ ¬EndsSuspicious table text := by
  rw [sanitizeProviderText]
  rcases (ReasoningGuard.Follows.fresh table).run faithful text bare free with follows | lost
  · rw [List.nil_append, List.nil_append] at follows
    have running := follows.running
    rw [follows.flush_whole free]
    constructor
    · intro kept
      refine ⟨ReasoningGuard.Follows.not_overflows faithful bare free running, ?_⟩
      intro suspicious
      obtain ⟨before, rest, split, quiet, held, partial'⟩ := suspicious
      rw [split] at bare free running kept
      have pending := ReasoningGuard.feed_pending table faithful before rest bare free quiet held
        running
      rw [pending] at kept
      exact kept ⟨by simp, partial'⟩
    · intro conditions both
      obtain ⟨idle, suspicious⟩ := both
      have held : isWithheld table (ReasoningGuard.fresh.feed table text).1.pending = true := by
        rcases follows.withheld with empty | held
        · exact absurd empty idle
        · exact held
      have whole := follows.whole
      obtain ⟨c, rest, split, opens⟩ := isWithheld_head table _ held
      rw [split] at held suspicious whole
      rcases opens with rfl | rfl
      · exact conditions.2 ⟨_, rest, whole.symm, follows.place rest split, held, suspicious⟩
      · obtain ⟨-, more, marker⟩ :=
          markerCandidate_square table faithful rest (isWithheld_candidate table _ held).2
        by_cases complete : more = []
        · rw [complete, List.append_nil] at marker
          exact bare ⟨_, '[' :: rest, [], by rw [List.append_nil, whole], marker⟩
        · have partial' := ends ('[' :: rest) more ⟨_, whole⟩ (by simp) complete
          rw [partial'] at marker
          contradiction
  · rw [List.nil_append, List.nil_append] at lost
    have silent : ((ReasoningGuard.fresh.feed table text).1.flush table).2 = [] := by
      unfold ReasoningGuard.flush
      simp [lost.stopped]
    rw [silent, List.append_nil]
    constructor
    · intro same
      have short := lost.short
      rw [same] at short
      omega
    · intro conditions
      exact absurd lost.overflows conditions.1

theorem UnicodeTable.symbols_faithful : FaithfulTable .symbols := by
  intro c high
  refine ⟨by simp [UnicodeTable.symbols], ?_⟩
  intro d member
  rw [List.mem_singleton.mp member]
  exact high

/-- A text without a closing angle bracket and without a square one contains no marker. -/
theorem not_containsMarker_of_open (table : UnicodeTable) (text : Text) (noClose : '>' ∉ text)
    (noSquare : '[' ∉ text) : ¬ContainsMarker table text := by
  intro found
  obtain ⟨before, marker, after, rfl, isOne⟩ := found
  cases marker with
  | nil => simp [isMarker_nil] at isOne
  | cons c rest =>
      rcases isMarker_head table c rest isOne with rfl | rfl
      · have inside := isMarker_close table rest isOne
        simp [inside] at noClose
      · simp at noSquare

/-- A comparison is published unchanged. -/
theorem sanitizeProviderText_ordinary_comparison :
    sanitizeProviderText .symbols "a < b".toList = "a < b".toList := by
  have bare : ¬ContainsMarker .symbols "a < b".toList :=
    not_containsMarker_of_open .symbols _ (by decide) (by decide)
  have free : FreeOfSentinels .symbols "a < b".toList := by
    intro part inside known
    have long : sentinels.all (fun sentinel => decide (5 < sentinel.length)) = true := by
      decide +kernel
    have ascii (c : Char) (member : c ∈ part) : isAscii c = true := by
      have all : "a < b".toList.all isAscii = true := by decide
      exact List.all_eq_true.mp all c (inside.subset member)
    have bound := List.all_eq_true.mp long _ known
    rw [lower_of_ascii .symbols part ascii, List.length_map, decide_eq_true_eq] at bound
    have short : part.length ≤ 5 := inside.length_le
    omega
  have ends : EndsNoMarker .symbols "a < b".toList := by
    intro tail more suffix nonempty more'
    have either : tail ∈ "a < b".toList.tails := by rwa [List.mem_tails]
    have tails : "a < b".toList.tails =
        ["a < b".toList, " < b".toList, "< b".toList, " b".toList, "b".toList, []] := rfl
    rw [tails] at either
    simp only [List.mem_cons, List.not_mem_nil, or_false] at either
    rcases either with rfl | rfl | rfl | rfl | rfl | rfl
    · rfl
    · rfl
    · rfl
    · rfl
    · rfl
    · exact absurd rfl nonempty
  refine (sanitizeProviderText_ordinary .symbols UnicodeTable.symbols_faithful _ bare free
    ends).mpr ⟨?_, ?_⟩
  · intro overflows
    obtain ⟨before, rest, c, after, split, -, -, full, -⟩ := overflows
    have sizes := congrArg List.length split
    have five : "a < b".toList.length = 5 := rfl
    rw [List.length_append, List.length_append, full, five] at sizes
    simp only [maxMarkerChars, List.length_cons] at sizes
    omega
  · intro suspicious
    obtain ⟨before, rest, split, -, held, -⟩ := suspicious
    have quiet : ∀ tail ∈ "a < b".toList.tails, isWithheld .symbols tail = false := by decide
    have tail : '<' :: rest ∈ "a < b".toList.tails := by
      rw [List.mem_tails, split]
      exact List.suffix_append _ _
    rw [quiet _ tail] at held
    contradiction

theorem isMarker_pipe (table : UnicodeTable) (body more : Text) (long : 64 < body.length)
    (letters : ∀ c ∈ body, c ≠ '|') : isMarker table ('<' :: '|' :: body ++ more) = false := by
  have noPipe : pipeMatch ('<' :: '|' :: body ++ more) = false := by
    have taken : ((body ++ more).takeWhile (· != '|')).length ≥ body.length := by
      rw [List.takeWhile_append_of_pos (by simpa using letters), List.length_append]
      omega
    have past : ¬((body ++ more).takeWhile (· != '|')).length ≤ 64 := by omega
    simp [pipeMatch, past]
  have rest : openMatch table ('<' :: '|' :: (body ++ more)) = none ∧
      closeMatch ('<' :: '|' :: (body ++ more)) = none ∧
        turnMatch "s".toList ('<' :: '|' :: (body ++ more)) = false ∧
          turnMatch "start_of_turn".toList ('<' :: '|' :: (body ++ more)) = false ∧
            instMatch ('<' :: '|' :: (body ++ more)) = false ∧
              sysMatch ('<' :: '|' :: (body ++ more)) = false :=
    ⟨rfl, rfl, rfl, rfl, rfl, rfl⟩
  obtain ⟨noOpen, noClose, noSingle, noTurn, noInst, noSys⟩ := rest
  simp only [List.cons_append] at noPipe ⊢
  rw [isMarker, controlMatch, noOpen, noClose, noPipe, noSingle, noTurn, noInst, noSys]
  rfl

/-- A pipeline operator swallows the long text behind it, though it starts no control token. -/
theorem sanitizeProviderText_pipe :
    sanitizeProviderText .symbols ('<' :: '|' :: List.replicate 65 'a') = [] ∧
      ¬∀ text : Text, ¬ContainsMarker .symbols text → FreeOfSentinels .symbols text →
        EndsNoMarker .symbols text → sanitizeProviderText .symbols text = text := by
  have shown : sanitizeProviderText .symbols ('<' :: '|' :: List.replicate 65 'a') = [] := by
    decide
  refine ⟨shown, ?_⟩
  intro kept
  obtain ⟨body, same⟩ : ∃ body, body = List.replicate 65 'a' := ⟨_, rfl⟩
  rw [← same] at shown
  have letters (c : Char) (member : c ∈ body) : c = 'a' := by
    rw [same] at member
    exact List.eq_of_mem_replicate member
  have long : 64 < body.length := by
    rw [same, List.length_replicate]
    decide
  have inside (c : Char) (member : c ∈ '<' :: '|' :: body) : c = '<' ∨ c = '|' ∨ c = 'a' := by
    rcases List.mem_cons.mp member with angle | later
    · exact Or.inl angle
    · rcases List.mem_cons.mp later with bar | letter
      · exact Or.inr (Or.inl bar)
      · exact Or.inr (Or.inr (letters c letter))
  have bare : ¬ContainsMarker .symbols ('<' :: '|' :: body) := by
    apply not_containsMarker_of_open
    · intro member
      have either := inside _ member
      exact absurd either (by decide)
    · intro member
      have either := inside _ member
      exact absurd either (by decide)
  have free : FreeOfSentinels .symbols ('<' :: '|' :: body) := by
    intro part within known
    have spaced : sentinels.all (fun sentinel => sentinel.contains ' ') = true := by decide +kernel
    have member := List.all_eq_true.mp spaced _ known
    rw [List.contains_iff_mem, lower, List.mem_flatMap] at member
    obtain ⟨c, known', space⟩ := member
    rcases inside c (within.subset known') with rfl | rfl | rfl
    · exact absurd space (by decide)
    · exact absurd space (by decide)
    · exact absurd space (by decide)
  have ends : EndsNoMarker .symbols ('<' :: '|' :: body) := by
    intro tail more suffix nonempty more'
    rcases List.suffix_cons_iff.mp suffix with rfl | shorter
    · exact isMarker_pipe .symbols body more long fun c member => by
        rw [letters c member]
        decide
    · cases tail with
      | nil => exact absurd rfl nonempty
      | cons c rest =>
          have later := shorter.subset List.mem_cons_self
          by_contra marker
          rcases isMarker_head .symbols c (rest ++ more) (by simpa using marker) with rfl | rfl
          · rcases List.mem_cons.mp later with bar | letter
            · exact absurd bar (by decide)
            · exact absurd (letters _ letter) (by decide)
          · rcases List.mem_cons.mp later with bar | letter
            · exact absurd bar (by decide)
            · exact absurd (letters _ letter) (by decide)
  have whole := kept _ bare free ends
  rw [shown] at whole
  contradiction

end LumenCopilot.Guard
