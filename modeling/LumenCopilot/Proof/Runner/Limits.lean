import LumenCopilot.Construction.Runner.Execution
import LumenCopilot.Proof.Library.Lists
import LumenCopilot.Proof.Python.Methods
import LumenCopilot.Proof.Python.Numerals

namespace LumenCopilot.Runner

open Python

variable {decoder : IncrementalDecoder} {decode : List UInt8 → Text}

/-- A clip sees one character more than the cap. -/
theorem clip_take (text : Text) : clip (text.take (maxStreamChars + 1)) = clip text := by
  unfold clip
  rw [List.length_take, List.take_take, Nat.min_eq_left (Nat.le_succ maxStreamChars)]
  by_cases fits : text.length ≤ maxStreamChars
  · rw [if_pos (by omega), if_pos fits, List.take_of_length_le (by omega)]
  · rw [if_neg (by omega), if_neg fits]

/-- What a capture holds after some chunks: the start of what its decoder gave so far, and either
the decoder is up to date or the capture is full. -/
structure Capture.Holds (capture : Capture decoder) (chunks : List (List UInt8)) : Prop where
  parts : capture.parts = (decoder.feedAll decoder.start chunks).1.take (maxStreamChars + 1)
  left : capture.left = maxStreamChars + 1 - capture.parts.length
  state : 0 < capture.left → capture.state = (decoder.feedAll decoder.start chunks).2

theorem Capture.Holds.start : (Capture.start : Capture decoder).Holds [] :=
  ⟨rfl, rfl, fun _ => rfl⟩

variable {capture : Capture decoder} {chunks : List (List UInt8)}

theorem Capture.Holds.take (holds : capture.Holds chunks) {chunk : List UInt8} (filled : chunk ≠ [])
    :
    (capture.take chunk).Holds (chunks ++ [chunk]) := by
  have step := decoder.feedAll_append decoder.start chunks [chunk]
  have single : decoder.feedAll (decoder.feedAll decoder.start chunks).2 [chunk] =
      ((decoder.feed (decoder.feedAll decoder.start chunks).2 chunk).1 ++ [],
        (decoder.feed (decoder.feedAll decoder.start chunks).2 chunk).2) := rfl
  rw [single, List.append_nil] at step
  have length := congrArg List.length holds.parts
  rw [List.length_take] at length
  have left := holds.left
  unfold Capture.take
  rw [List.isEmpty_eq_false_iff.mpr filled, Bool.not_false, Bool.true_and]
  by_cases room : 0 < capture.left
  · rw [if_pos (decide_eq_true room), holds.state room]
    have short : (decoder.feedAll decoder.start chunks).1.length ≤ maxStreamChars + 1 := by omega
    have whole : capture.parts = (decoder.feedAll decoder.start chunks).1 := by
      rw [holds.parts, List.take_of_length_le short]
    constructor
    · rw [step, List.take_append, ← whole, List.take_of_length_le (by omega), left]
    · dsimp only
      rw [List.length_append]
      omega
    · intro _
      rw [step]
  · rw [if_neg (by simpa using room)]
    constructor
    · rw [step, List.take_append_of_le_length (by omega)]
      exact holds.parts
    · exact left
    · intro open_
      exact absurd open_ room

theorem Capture.take_nil (capture : Capture decoder) : capture.take [] = capture := rfl

/-- The chunks of one stream that have bytes. -/
def nonempty (chunks : List (List UInt8)) : List (List UInt8) := chunks.filter fun chunk => !chunk.isEmpty

theorem flatten_nonempty (chunks : List (List UInt8)) :
    (nonempty chunks).flatten = chunks.flatten := List.flatten_filter_not_isEmpty

/-- A capture follows its stream. -/
theorem Capture.foldl_holds {before : List (List UInt8)} (holds : capture.Holds before)
    (chunks : List (List UInt8)) :
    (chunks.foldl Capture.take capture).Holds (before ++ nonempty chunks) := by
  induction chunks generalizing capture before with
  | nil =>
      rw [nonempty, List.filter_nil, List.append_nil]
      exact holds
  | cons chunk chunks ih =>
      rw [List.foldl_cons]
      cases chunk with
      | nil =>
          rw [Capture.take_nil]
          exact ih holds
      | cons byte rest =>
          have later := ih (holds.take (List.cons_ne_nil byte rest))
          rw [List.append_assoc] at later
          exact later

/-- The finished capture is the start of the decoded stream. -/
theorem Capture.Holds.finish (agrees : decoder.Agrees decode) (holds : capture.Holds chunks) :
    capture.finish = (decode chunks.flatten).take (maxStreamChars + 1) := by
  have length := congrArg List.length holds.parts
  rw [List.length_take] at length
  have left := holds.left
  rw [← agrees chunks]
  unfold Capture.finish
  by_cases room : 0 < capture.left
  · have short : (decoder.feedAll decoder.start chunks).1.length ≤ maxStreamChars + 1 := by omega
    have whole : capture.parts = (decoder.feedAll decoder.start chunks).1 := by
      rw [holds.parts, List.take_of_length_le short]
    have kept : capture.parts.take (maxStreamChars + 1) = capture.parts :=
      List.take_of_length_le (by omega)
    rw [holds.state room, List.take_append, ← whole, kept, left]
  · have full : capture.left = 0 := Nat.eq_zero_of_not_pos room
    rw [full, List.take_zero, List.append_nil, List.take_append_of_le_length (by omega)]
    exact holds.parts

/-- These are the bytes of the two streams. -/
def outBytes (chunks : List StreamChunk) : List UInt8 := chunks.flatMap StreamChunk.out

def errBytes (chunks : List StreamChunk) : List UInt8 := chunks.flatMap StreamChunk.err

theorem foldl_captures (chunks : List StreamChunk) (first second : Capture decoder) :
    chunks.foldl (fun captures chunk => (captures.1.take chunk.out, captures.2.take chunk.err))
      (first, second) =
    ((chunks.map StreamChunk.out).foldl Capture.take first,
      (chunks.map StreamChunk.err).foldl Capture.take second) := by
  induction chunks generalizing first second with
  | nil => rfl
  | cons chunk chunks ih => exact ih _ _

/-- A captured stream is the clip of its decoding. -/
theorem clip_finish (agrees : decoder.Agrees decode) (chunks : List (List UInt8)) :
    clip (chunks.foldl Capture.take (Capture.start : Capture decoder)).finish =
      clip (decode chunks.flatten) := by
  have holds := Capture.foldl_holds (@Capture.Holds.start decoder) chunks
  rw [holds.finish agrees, List.nil_append, flatten_nonempty, clip_take]

/-- Captured output does not depend on how the streams were cut into chunks. -/
theorem execStreaming_clips (agrees : decoder.Agrees decode) (chunks : List StreamChunk)
    (exitCode : Option Int) : execStreaming decoder chunks exitCode =
      (exitCode.getD 0, clip (decode (outBytes chunks)), clip (decode (errBytes chunks))) := by
  unfold execStreaming outBytes errBytes
  rw [foldl_captures]
  dsimp only
  rw [clip_finish agrees, clip_finish agrees, List.flatMap_def, List.flatMap_def]

/-- Captured output does not depend on chunking, for every decoder that agrees with the decoding of the
whole input, and the UTF-8 decoder does. -/
theorem execStreaming_captures :
    (∀ (decoder : IncrementalDecoder) (decode : List UInt8 → Text), decoder.Agrees decode →
      ∀ (out err : List UInt8) (chunks : List StreamChunk) (exitCode : Option Int),
        outBytes chunks = out → errBytes chunks = err →
          execStreaming decoder chunks exitCode =
            (exitCode.getD 0, clip (decode out), clip (decode err))) ∧
    Utf8.decoder.Agrees Utf8.decode := by
  constructor
  · rintro decoder decode agrees _ _ chunks exitCode rfl rfl
    exact execStreaming_clips agrees chunks exitCode
  · exact Utf8.decoder_agrees

end LumenCopilot.Runner

namespace LumenCopilot.Runner

open Python Library

variable {table : CaseTable} {observed : Observed}

theorem contains_eq_false_iff {part text : Text} (filled : part ≠ []) :
    contains part text = false ↔ ¬ part <:+: text := by
  unfold contains
  rw [Option.isSome_eq_false_iff, Option.isNone_iff_eq_none]
  exact ⟨not_infix_of_find filled, find_eq_none⟩

/-- The engine's test finds no truncation notice. -/
def Unmarked (text : Text) : Prop := contains truncationMark text = false

instance (text : Text) : Decidable (Unmarked text) :=
  inferInstanceAs (Decidable (contains truncationMark text = false))

theorem unmarked_iff {text : Text} : Unmarked text ↔ ¬ truncationMark <:+: text :=
  contains_eq_false_iff (by decide)

/-- A text without an opening bracket is unmarked. -/
theorem Unmarked.of_not_mem {text : Text} (absent : '[' ∉ text) : Unmarked text := by
  apply unmarked_iff.mpr
  intro found
  exact absent (found.subset (by decide))

/-- Two lines are unmarked when both are. -/
theorem Unmarked.lines {first second : Text} (unmarked : Unmarked first) (other : Unmarked second) :
    Unmarked (first ++ '\n' :: second) := by
  apply unmarked_iff.mpr
  intro found
  rcases infix_append_delimiter (by decide) found with inside | beyond
  · exact unmarked_iff.mp unmarked inside
  · exact unmarked_iff.mp other beyond

theorem collectionNote_unmarked (budget : Nat) : Unmarked (collectionNote budget) := by
  apply Unmarked.of_not_mem
  unfold collectionNote
  rw [List.mem_append, List.mem_append, not_or, not_or]
  refine ⟨⟨by decide, natText_not_mem (by decide)⟩, by decide⟩

/-- These are the texts that the program printed. -/
def printedOut (observed : Observed) : Text := Utf8.decode (outBytes observed.chunks)

def printedErr (observed : Observed) : Text := Utf8.decode (errBytes observed.chunks)

/-- Both streams stay below the output cap. -/
structure BelowCap (observed : Observed) : Prop where
  out : (printedOut observed).length ≤ maxStreamChars
  err : (printedErr observed).length ≤ maxStreamChars

theorem BelowCap.captured (below : BelowCap observed) :
    execStreaming Utf8.decoder observed.chunks observed.exitCode =
      (observed.exitCode.getD 0, printedOut observed, printedErr observed) := by
  have out : clip (printedOut observed) = printedOut observed := if_pos below.out
  have err : clip (printedErr observed) = printedErr observed := if_pos below.err
  rw [execStreaming_clips Utf8.decoder_agrees]
  exact congrArg₂ (fun first second => (observed.exitCode.getD 0, first, second)) out err

/-- The program printed no truncation notice. -/
structure Plain (observed : Observed) : Prop where
  out : Unmarked (printedOut observed)
  err : Unmarked (printedErr observed)

/-- The program exited with 0, stayed under every limit and was not cancelled. -/
structure WithinLimits (observed : Observed) : Prop where
  queued : observed.queueExpired = false
  prepared : observed.preparation = none
  ran : observed.failure = none
  exited : observed.exitCode.getD 0 = 0
  running : observed.running = true
  memory : observed.oomKilled = false ∧ observed.oomAfter ≤ observed.oomBefore
  processes : observed.pidsAfter ≤ observed.pidsBefore
  cleaned : observed.cleanup = none
  files : ∃ files, observed.collected = .ok (files, false)
  time : observed.timedOut = false
  printed : BelowCap observed

/-- Every limit that the error text names is one. -/
theorem resourceReason_isLimit {message : Text} {reason : TerminationReason}
    (named : resourceReason table message = some reason) : reason.isLimit = true := by
  unfold resourceReason at named
  dsimp only at named
  split at named
  · rw [← Option.some.inj named]
    decide
  · split at named
    · rw [← Option.some.inj named]
      decide
    · split at named
      · rw [← Option.some.inj named]
        decide
      · cases named

/-- The reason that the error text of a program attributes. -/
def attribution (table : CaseTable) (observed : Observed) : RunStatus × Option TerminationReason :=
  match resourceReason table (printedErr observed) with
  | some reason => (.failed, some reason)
  | none => (.succeeded, some .completed)

/-- Under every limit the attribution by the error text is the only one. -/
theorem verdict_attribution (within : WithinLimits observed) (plain : Plain observed) :
    verdict table observed = .ok (attribution table observed) := by
  obtain ⟨files, collected⟩ := within.files
  have classified : classify table observed (captured observed) =
      ⟨.succeeded, some 0, printedOut observed, printedErr observed, [],
        (resourceReason table (printedErr observed)).or (some .completed)⟩ := by
    have processes := within.processes
    unfold classify captured
    rw [within.printed.captured, within.exited]
    dsimp only
    rw [within.memory.1, Bool.false_or, if_neg (by simpa using within.memory.2),
      if_neg (fun both => both.1 rfl), if_neg (by omega), if_pos rfl, if_pos rfl]
  have body : executeBody table observed =
      .ok { classify table observed (captured observed) with outputFiles := files } := by
    unfold executeBody
    rw [within.prepared, within.ran, within.cleaned]
    show (collect observed (classify table observed (captured observed))).map markTruncated = _
    unfold collect
    rw [classified, if_pos (Or.inl rfl), collected]
    show Except.ok (markTruncated _) = _
    unfold markTruncated
    rw [if_neg]
    · rfl
    · rw [Bool.or_eq_true, not_or, Bool.not_eq_true, Bool.not_eq_true]
      exact ⟨plain.out, plain.err⟩
  unfold verdict executeUnlocked attribution
  rw [within.queued, if_neg Bool.false_ne_true, body, within.time, classified]
  cases reason : resourceReason table (printedErr observed) with
  | none => rfl
  | some named =>
      show Except.ok _ = _
      unfold expire failLimited
      dsimp only
      rw [if_neg Bool.false_ne_true, if_pos ⟨resourceReason_isLimit reason, rfl⟩]
      rfl

/-- Two outcomes with one verdict, neither of them marked by its texts. -/
structure Alike (first second : RunOutcome) : Prop where
  status : first.status = second.status
  reason : first.terminationReason = second.terminationReason
  out : Unmarked first.stdout ∧ Unmarked second.stdout
  err : Unmarked first.stderr ∧ Unmarked second.stderr

/-- Two results with one verdict. -/
inductive AlikeResult : Except Text RunOutcome → Except Text RunOutcome → Prop where
  | error (message : Text) : AlikeResult (.error message) (.error message)
  | ok {first second : RunOutcome} : Alike first second → AlikeResult (.ok first) (.ok second)

/-- This is the same execution with other printed text. -/
def Observed.printing (observed : Observed) (chunks : List StreamChunk) : Observed :=
  { observed with chunks := chunks }

variable {chunks : List StreamChunk}

/-- The classification sees the printed text only through the error text's attribution. -/
theorem classify_alike {code : Int} {out err otherOut otherErr : Text}
    (outs : Unmarked out ∧ Unmarked otherOut) (errs : Unmarked err ∧ Unmarked otherErr)
    (attributed : resourceReason table err = resourceReason table otherErr) :
    Alike (classify table observed (code, out, err)) (classify table observed (code, otherOut, otherErr)) := by
  have exceeded : Unmarked "Code execution exceeded its memory limit and was stopped.".toList := by
    decide
  unfold classify
  dsimp only
  rw [← attributed]
  split
  · exact ⟨rfl, rfl, outs, ⟨exceeded, exceeded⟩⟩
  · split
    · exact ⟨rfl, rfl, ⟨by decide, by decide⟩, ⟨by decide, by decide⟩⟩
    · split
      · exact ⟨rfl, rfl, outs, errs⟩
      · exact ⟨rfl, rfl, outs, errs⟩

/-- The note of a partial collection leaves a text unmarked. -/
theorem noted_unmarked {text : Text} (unmarked : Unmarked text) (budget : Nat) :
    Unmarked (if text.isEmpty then collectionNote budget else text ++ '\n' :: collectionNote budget) := by
  split
  · exact collectionNote_unmarked budget
  · exact unmarked.lines (collectionNote_unmarked budget)

theorem collect_alike {first second : RunOutcome} (alike : Alike first second) :
    AlikeResult (collect observed first) (collect observed second) := by
  unfold collect
  rw [← alike.status, ← alike.reason]
  split
  · cases observed.collected with
    | error message => exact .error message
    | ok found =>
        apply AlikeResult.ok
        dsimp only
        split
        · exact ⟨rfl, rfl, alike.out,
            ⟨noted_unmarked alike.err.1 _, noted_unmarked alike.err.2 _⟩⟩
        · exact ⟨rfl, rfl, alike.out, alike.err⟩
  · exact .ok alike

theorem markTruncated_unmarked {outcome : RunOutcome} (out : Unmarked outcome.stdout)
    (err : Unmarked outcome.stderr) : markTruncated outcome = outcome := by
  unfold markTruncated
  rw [if_neg]
  rw [Bool.or_eq_true, not_or, Bool.not_eq_true, Bool.not_eq_true]
  exact ⟨out, err⟩

theorem AlikeResult.marked {first second : Except Text RunOutcome} (alike : AlikeResult first second) :
    AlikeResult (first.map markTruncated) (second.map markTruncated) := by
  cases alike with
  | error message => exact .error message
  | ok alike =>
      show AlikeResult (.ok (markTruncated _)) (.ok (markTruncated _))
      rw [markTruncated_unmarked alike.out.1 alike.err.1, markTruncated_unmarked alike.out.2 alike.err.2]
      exact .ok alike

section

variable (below : BelowCap observed) (otherBelow : BelowCap (observed.printing chunks))
  (plain : Plain observed) (otherPlain : Plain (observed.printing chunks))
  (attributed : resourceReason table (printedErr observed) =
    resourceReason table (printedErr (observed.printing chunks)))
include below otherBelow plain otherPlain attributed

theorem executeBody_alike :
    AlikeResult (executeBody table observed) (executeBody table (observed.printing chunks)) := by
  have classified : Alike (classify table observed (captured observed))
      (classify table observed (captured (observed.printing chunks))) := by
    unfold captured
    rw [below.captured, otherBelow.captured]
    exact classify_alike ⟨plain.out, otherPlain.out⟩ ⟨plain.err, otherPlain.err⟩ attributed
  have kept : (observed.printing chunks).preparation = observed.preparation ∧
      (observed.printing chunks).failure = observed.failure ∧
      (observed.printing chunks).running = observed.running ∧
      (observed.printing chunks).cleanup = observed.cleanup := ⟨rfl, rfl, rfl, rfl⟩
  unfold executeBody
  rw [kept.1, kept.2.1, kept.2.2.1, kept.2.2.2]
  cases observed.preparation with
  | some message => exact .error message
  | none =>
      cases observed.failure with
      | none =>
          cases observed.cleanup with
          | some message => exact .error message
          | none => exact (collect_alike classified).marked
      | some message =>
          cases observed.running with
          | true => exact .error _
          | false =>
              cases observed.cleanup with
              | some message => exact .error message
              | none =>
                  simp only [Bool.false_eq_true, ↓reduceIte, bind, Except.bind]
                  refine (collect_alike ?_).marked
                  exact ⟨rfl, rfl, ⟨by decide, by decide⟩, ⟨by decide, by decide⟩⟩

/-- The verdict of an execution depends on its printed text only through the attribution. -/
theorem verdict_printing : verdict table (observed.printing chunks) = verdict table observed := by
  have alike := executeBody_alike below otherBelow plain otherPlain attributed
  have kept : (observed.printing chunks).queueExpired = observed.queueExpired ∧
      (observed.printing chunks).timedOut = observed.timedOut := ⟨rfl, rfl⟩
  unfold verdict executeUnlocked
  rw [kept.1, kept.2]
  split
  · rfl
  · generalize executeBody table observed = first at alike
    generalize executeBody table (observed.printing chunks) = second at alike
    cases alike with
    | error message => rfl
    | @ok first second alike =>
        show Except.ok _ = Except.ok _
        rw [Except.ok.injEq]
        unfold expire failLimited
        cases observed.timedOut with
        | true => rfl
        | false =>
            dsimp only
            rw [if_neg Bool.false_ne_true, if_neg Bool.false_ne_true, ← alike.status, ← alike.reason]
            split
            · rw [alike.reason]
            · rw [alike.status, alike.reason]

end

/-- A run that stays under every limit is judged by its exit code and by the error text that the engine
attributes, and two runs that differ in text without such an attribution are judged alike. -/
theorem verdict_unspoofed (table : CaseTable) :
    (∀ observed, WithinLimits observed → Plain observed →
      verdict table observed = .ok (attribution table observed)) ∧
    (∀ observed chunks, BelowCap observed → BelowCap (observed.printing chunks) →
      Plain observed → Plain (observed.printing chunks) →
      resourceReason table (printedErr observed) =
        resourceReason table (printedErr (observed.printing chunks)) →
      verdict table (observed.printing chunks) = verdict table observed) := by
  constructor
  · intro observed within plain
    exact verdict_attribution within plain
  · intro observed chunks below otherBelow plain otherPlain attributed
    exact verdict_printing below otherBelow plain otherPlain attributed

/-- This program prints `MemoryError` as its error text and exits with 0. -/
def printsMemoryError : Observed :=
  { chunks := [.pair none (some [77, 101, 109, 111, 114, 121, 69, 114, 114, 111, 114])] }

theorem printsMemoryError_err : printedErr printsMemoryError = "MemoryError".toList := by
  unfold printedErr
  rw [← Utf8.run_none]
  decide

theorem printsMemoryError_out : printedOut printsMemoryError = [] := by
  unfold printedOut
  rw [← Utf8.run_none]
  decide

/-- The printed text of a program that stays under every limit decides its verdict. -/
theorem printsMemoryError_spoofs :
    WithinLimits printsMemoryError ∧
    verdict .symbols printsMemoryError = .ok (.failed, some .memory) ∧
    BelowCap (printsMemoryError.printing []) ∧
    verdict .symbols (printsMemoryError.printing []) = .ok (.succeeded, some .completed) := by
  have silent : printedOut (printsMemoryError.printing []) = [] ∧
      printedErr (printsMemoryError.printing []) = [] := by
    unfold printedOut printedErr
    rw [← Utf8.run_none, ← Utf8.run_none]
    decide
  have quiet : BelowCap (printsMemoryError.printing []) := by
    constructor
    · rw [silent.1]
      exact Nat.zero_le _
    · rw [silent.2]
      exact Nat.zero_le _
  have loud : BelowCap printsMemoryError := by
    constructor
    · rw [printsMemoryError_out]
      exact Nat.zero_le _
    · rw [printsMemoryError_err]
      decide
  have within : WithinLimits printsMemoryError :=
    ⟨rfl, rfl, rfl, rfl, rfl, ⟨rfl, Nat.le_refl _⟩, Nat.le_refl _, rfl, ⟨[], rfl⟩, rfl, loud⟩
  have under : WithinLimits (printsMemoryError.printing []) :=
    ⟨rfl, rfl, rfl, rfl, rfl, ⟨rfl, Nat.le_refl _⟩, Nat.le_refl _, rfl, ⟨[], rfl⟩, rfl, quiet⟩
  refine ⟨within, ?_, quiet, ?_⟩
  · rw [verdict_attribution within]
    · unfold attribution
      rw [printsMemoryError_err]
      decide
    · constructor
      · rw [printsMemoryError_out]
        decide
      · rw [printsMemoryError_err]
        decide
  · rw [verdict_attribution under]
    · unfold attribution
      rw [silent.2]
      decide
    · constructor
      · rw [silent.1]
        decide
      · rw [silent.2]
        decide

end LumenCopilot.Runner
