import LumenCopilot.Construction.Runner.Results
import Mathlib

namespace LumenCopilot.Runner

/-- The stream is every byte that the source holds. -/
def streamOf (pulls : List Pull) : List UInt8 := pulls.flatMap Pull.bytes

/-- The delivered and the buffered bytes are what the budget allows of the pulled chunks. -/
structure BudgetedReader.Serves (reader : BudgetedReader) (pulls : List Pull) (budget : Nat)
    (delivered : List UInt8) (taken : List Pull) : Prop where
  source : pulls = taken ++ reader.chunks
  running : reader.exhausted = false →
    delivered ++ reader.buffer = streamOf taken ∧
      reader.remaining + (streamOf taken).length = budget
  stopped : reader.exhausted = true →
    delivered ++ reader.buffer = (streamOf taken).take budget ∧
      ∃ before bytes, taken = before ++ [.chunk bytes] ∧ (streamOf before).length ≤ budget ∧
        budget < (streamOf taken).length

theorem streamOf_append (first second : List Pull) :
    streamOf (first ++ second) = streamOf first ++ streamOf second := List.flatMap_append

theorem streamOf_concat (pulls : List Pull) (next : Pull) :
    streamOf (pulls ++ [next]) = streamOf pulls ++ next.bytes := by
  simp [streamOf]

theorem BudgetedReader.start_serves (pulls : List Pull) (budget : Int) :
    (BudgetedReader.start pulls budget).Serves pulls budget.toNat [] [] :=
  ⟨rfl, fun _ => ⟨rfl, rfl⟩, fun stopped => absurd stopped Bool.false_ne_true⟩

/-- The loop keeps the account of the bytes while it pulls chunks. -/
theorem BudgetedReader.pull_serves (size : Int) (pulls chunks : List Pull) (budget : Nat)
    (delivered buffer : List UInt8) (remaining : Nat) (taken : List Pull)
    (serves : (BudgetedReader.mk chunks buffer remaining false).Serves pulls budget delivered
      taken) :
    ∃ more, (BudgetedReader.pull size chunks buffer remaining).1.Serves pulls budget delivered
      (taken ++ more) := by
  induction chunks generalizing buffer remaining taken with
  | nil => exact ⟨[], by simpa [pull] using serves⟩
  | cons next rest ih =>
      obtain ⟨whole, account⟩ : delivered ++ buffer = streamOf taken ∧
          remaining + (streamOf taken).length = budget := serves.running rfl
      have source : pulls = (taken ++ [next]) ++ rest := by
        rw [List.append_assoc]
        exact serves.source
      have stays : ∃ more, (BudgetedReader.mk (next :: rest) buffer remaining false).Serves pulls
          budget delivered (taken ++ more) := ⟨[], by simpa using serves⟩
      have drops (empty : next.bytes = []) :
          (BudgetedReader.mk rest buffer remaining false).Serves pulls budget delivered
            (taken ++ [next]) := by
        refine ⟨source, fun _ => ?_, fun stopped => absurd stopped Bool.false_ne_true⟩
        rw [streamOf_concat, empty, List.append_nil]
        exact ⟨whole, account⟩
      cases next with
      | expired =>
          rw [pull]
          split
          · exact ⟨[.expired], drops rfl⟩
          · exact stays
      | chunk bytes =>
          rw [pull]
          split
          · split
            · next empty =>
                obtain ⟨more, kept⟩ := ih buffer remaining (taken ++ [.chunk bytes])
                  (drops (List.isEmpty_iff.mp empty))
                exact ⟨.chunk bytes :: more, by simpa using kept⟩
            · split
              · next large =>
                  refine ⟨[.chunk bytes], source,
                    fun running => absurd running.symm Bool.false_ne_true, fun _ => ?_⟩
                  have cut : (streamOf taken).length + remaining = budget := by omega
                  refine ⟨?_, taken, bytes, rfl, by omega, ?_⟩
                  · rw [streamOf_concat, ← List.append_assoc, whole, ← cut,
                      List.take_append, List.take_of_length_le (Nat.le_add_right _ _),
                      Nat.add_sub_cancel_left]
                    rfl
                  · rw [streamOf_concat, List.length_append]
                    show budget < (streamOf taken).length + bytes.length
                    omega
              · next fits =>
                  rw [Nat.not_lt] at fits
                  have extended : (BudgetedReader.mk rest (buffer ++ bytes)
                      (remaining - bytes.length) false).Serves pulls budget delivered
                      (taken ++ [.chunk bytes]) := by
                    refine ⟨source, fun _ => ⟨?_, ?_⟩,
                      fun stopped => absurd stopped Bool.false_ne_true⟩
                    · rw [streamOf_concat, ← whole, List.append_assoc]
                      rfl
                    · rw [streamOf_concat, List.length_append]
                      show remaining - bytes.length + ((streamOf taken).length + bytes.length) =
                        budget
                      omega
                  obtain ⟨more, kept⟩ := ih _ _ _ extended
                  exact ⟨.chunk bytes :: more, by simpa using kept⟩
          · exact stays

/-- One read moves bytes from the buffer to the delivered ones. -/
theorem BudgetedReader.read_serves (reader : BudgetedReader) (size : Int) (pulls : List Pull)
    (budget : Nat) (delivered : List UInt8) (taken : List Pull)
    (serves : reader.Serves pulls budget delivered taken) :
    ∃ more, (reader.read size).1.Serves pulls budget
      (delivered ++ (reader.read size).2.getD []) (taken ++ more) := by
  have filled : ∃ more, (if reader.exhausted then (reader, true)
      else BudgetedReader.pull size reader.chunks reader.buffer reader.remaining).1.Serves pulls
        budget delivered (taken ++ more) := by
    split
    · exact ⟨[], by simpa using serves⟩
    · next running =>
        rw [Bool.not_eq_true] at running
        apply pull_serves
        rw [← running]
        exact serves
  obtain ⟨more, kept⟩ := filled
  refine ⟨more, ?_⟩
  unfold read
  generalize (if reader.exhausted then (reader, true)
    else BudgetedReader.pull size reader.chunks reader.buffer reader.remaining) = filled at kept ⊢
  dsimp only
  split
  · refine ⟨kept.source, fun running => ?_, fun stopped => ?_⟩
    · rw [Option.getD_some, List.append_assoc, List.take_append_drop]
      exact kept.running running
    · rw [Option.getD_some, List.append_assoc, List.take_append_drop]
      exact kept.stopped stopped
  · rw [Option.getD_none, List.append_nil]
    exact kept

/-- The account of the bytes holds after every history of reads. -/
theorem BudgetedReader.readAll_serves (reader : BudgetedReader) (sizes : List Int)
    (pulls : List Pull) (budget : Nat) (delivered : List UInt8) (taken : List Pull)
    (serves : reader.Serves pulls budget delivered taken) :
    ∃ more, (reader.readAll sizes).1.Serves pulls budget
      (delivered ++ (reader.readAll sizes).2) (taken ++ more) := by
  induction sizes generalizing reader delivered taken with
  | nil => exact ⟨[], by simpa [readAll] using serves⟩
  | cons size sizes ih =>
      obtain ⟨first, keptFirst⟩ := read_serves reader size pulls budget delivered taken serves
      obtain ⟨second, keptSecond⟩ := ih _ _ _ keptFirst
      refine ⟨first ++ second, ?_⟩
      rw [readAll, ← List.append_assoc, ← List.append_assoc]
      exact keptSecond

/-- The loop ends at the end of the source, at the budget or with enough bytes in the buffer. -/
theorem BudgetedReader.pull_ends (size : Int) (chunks : List Pull) (buffer : List UInt8)
    (remaining : Nat) (ended : (BudgetedReader.pull size chunks buffer remaining).2 = true) :
    let filled := (BudgetedReader.pull size chunks buffer remaining).1
    filled.exhausted = true ∨ filled.chunks = [] ∨ 0 ≤ size ∧ size ≤ filled.buffer.length := by
  induction chunks generalizing buffer remaining with
  | nil => exact Or.inr (Or.inl rfl)
  | cons next rest ih =>
      cases next with
      | expired =>
          rw [pull] at ended ⊢
          split at ended
          · contradiction
          · next enough =>
              simp only [enough, ↓reduceIte]
              omega
      | chunk bytes =>
          rw [pull] at ended ⊢
          by_cases wanting : size < 0 ∨ buffer.length < size
          · simp only [wanting, ↓reduceIte] at ended ⊢
            split at ended
            · next empty =>
                simp only [empty, ↓reduceIte]
                exact ih buffer remaining ended
            · next occupied =>
                simp only [occupied, Bool.false_eq_true, ↓reduceIte] at ended ⊢
                split at ended
                · next large =>
                    simp only [large, ↓reduceIte]
                    exact Or.inl trivial
                · next fits =>
                    simp only [fits, ↓reduceIte]
                    exact ih _ _ ended
          · simp only [wanting, ↓reduceIte]
            omega

/-- An empty answer to a read of at least one byte leaves an empty buffer and no more source. -/
theorem BudgetedReader.read_empty (reader : BudgetedReader) (size : Int) (nonzero : size ≠ 0)
    (empty : (reader.read size).2 = some []) :
    (reader.read size).1.buffer = [] ∧
      ((reader.read size).1.exhausted = true ∨ (reader.read size).1.chunks = []) := by
  unfold read at empty ⊢
  have ends : ∀ filled, (if reader.exhausted then (reader, true)
      else BudgetedReader.pull size reader.chunks reader.buffer reader.remaining) = filled →
      filled.2 = true → filled.1.exhausted = true ∨ filled.1.chunks = [] ∨
        0 ≤ size ∧ size ≤ filled.1.buffer.length := by
    rintro filled rfl done
    split
    · next stopped => exact Or.inl stopped
    · next running =>
        rw [if_neg running] at done
        exact pull_ends size _ _ _ done
  generalize (if reader.exhausted then (reader, true)
    else BudgetedReader.pull size reader.chunks reader.buffer reader.remaining) = filled
      at empty ends ⊢
  have ends := ends filled rfl
  dsimp only at empty ⊢
  split at empty
  · next done =>
      simp only [done, ↓reduceIte]
      rw [Option.some.injEq, List.take_eq_nil_iff] at empty
      have bare : filled.1.buffer = [] := by
        rcases empty with none' | bare
        · split at none'
          · exact List.length_eq_zero_iff.mp none'
          · omega
        · exact bare
      rw [bare, List.drop_nil]
      refine ⟨rfl, ?_⟩
      rcases ends done with stopped | finished | ⟨low, wide⟩
      · exact Or.inl stopped
      · exact Or.inr finished
      · rw [bare, List.length_nil] at wide
        omega
  · contradiction

/-- An exhausted reader pulls nothing more from its source. -/
theorem BudgetedReader.readAll_exhausted (reader : BudgetedReader) (sizes : List Int)
    (stopped : reader.exhausted = true) :
    (reader.readAll sizes).1.exhausted = true ∧ (reader.readAll sizes).1.chunks = reader.chunks := by
  induction sizes generalizing reader with
  | nil => exact ⟨stopped, rfl⟩
  | cons size sizes ih =>
      have first : (reader.read size).1.exhausted = true ∧
          (reader.read size).1.chunks = reader.chunks := by
        simp [read, stopped]
      have rest := ih (reader.read size).1 first.1
      exact ⟨rest.1, rest.2.trans first.2⟩

theorem BudgetedReader.readAll_append (reader : BudgetedReader) (first second : List Int) :
    reader.readAll (first ++ second) =
      (((reader.readAll first).1.readAll second).1,
        (reader.readAll first).2 ++ ((reader.readAll first).1.readAll second).2) := by
  induction first generalizing reader with
  | nil => simp [readAll]
  | cons size sizes ih => simp [readAll, ih]

/-- The reads up to an empty one return the start of the stream that the budget allows. The reader
is exhausted when bytes are dropped, and it pulls nothing beyond the chunk that exceeds the budget. -/
theorem BudgetedReader.readAll_budget (pulls : List Pull) (budget : Int) (sizes : List Int)
    (last : Int) (nonzero : last ≠ 0)
    (empty : (((BudgetedReader.start pulls budget).readAll sizes).1.read last).2 = some []) :
    let done := (BudgetedReader.start pulls budget).readAll (sizes ++ [last])
    (done.2 <+: streamOf pulls ∧ done.2.length = min (streamOf pulls).length budget.toNat) ∧
      (done.1.exhausted = true ↔ budget.toNat < (streamOf pulls).length) ∧
      ∀ before more, ((BudgetedReader.start pulls budget).readAll before).1.exhausted = true →
        ((BudgetedReader.start pulls budget).readAll (before ++ more)).1.chunks =
            ((BudgetedReader.start pulls budget).readAll before).1.chunks ∧
          ∃ pulled bytes, pulls = pulled ++ .chunk bytes ::
              ((BudgetedReader.start pulls budget).readAll before).1.chunks ∧
            (streamOf pulled).length ≤ budget.toNat := by
  have history (sizes : List Int) : ∃ taken, ((BudgetedReader.start pulls budget).readAll sizes).1.Serves
      pulls budget.toNat ((BudgetedReader.start pulls budget).readAll sizes).2 taken :=
    readAll_serves _ sizes _ _ _ _ (start_serves pulls budget)
  obtain ⟨taken, account⟩ := history (sizes ++ [last])
  have finished := read_empty _ last nonzero empty
  have same : ((BudgetedReader.start pulls budget).readAll (sizes ++ [last])).1 =
      (((BudgetedReader.start pulls budget).readAll sizes).1.read last).1 := by
    rw [readAll_append]
    rfl
  rw [← same] at finished
  dsimp only
  generalize (BudgetedReader.start pulls budget).readAll (sizes ++ [last]) = done
    at account finished ⊢
  obtain ⟨bare, ends⟩ := finished
  have source : streamOf pulls = streamOf taken ++ streamOf done.1.chunks := by
    rw [account.source, streamOf_append]
  have lengths := congrArg List.length source
  rw [List.length_append] at lengths
  have result : done.2 = (streamOf pulls).take budget.toNat ∧
      (done.1.exhausted = true ↔ budget.toNat < (streamOf pulls).length) := by
    cases exhausted : done.1.exhausted with
    | true =>
        obtain ⟨served, -, -, -, -, exceeded⟩ := account.stopped exhausted
        rw [bare, List.append_nil] at served
        constructor
        · rw [served, source, List.take_append_of_le_length exceeded.le]
        · exact iff_of_true rfl (by omega)
    | false =>
        obtain ⟨served, spent⟩ := account.running exhausted
        have none' : done.1.chunks = [] := ends.resolve_left (by simp [exhausted])
        rw [bare, List.append_nil] at served
        have source : streamOf pulls = streamOf taken := by
          rw [source, none']
          exact List.append_nil _
        rw [source]
        constructor
        · rw [served, List.take_of_length_le (by omega)]
        · exact iff_of_false Bool.false_ne_true (by omega)
  refine ⟨⟨?_, ?_⟩, result.2, ?_⟩
  · rw [result.1]
    exact List.take_prefix _ _
  · rw [result.1, List.length_take, min_comm]
  · intro before more stopped
    obtain ⟨pulled, kept⟩ := history before
    obtain ⟨-, start, bytes, cut, within, -⟩ := kept.stopped stopped
    constructor
    · rw [readAll_append]
      exact (readAll_exhausted _ more stopped).2
    · refine ⟨start, bytes, ?_, within⟩
      have whole := kept.source
      rw [cut, List.append_assoc] at whole
      exact whole

/-- A budget that ends inside the second chunk, reads of several sizes and an empty chunk. -/
theorem BudgetedReader.readAll_budget_cut :
    let pulls : List Pull := [.chunk [1, 2], .chunk [], .expired, .chunk [3, 4, 5], .chunk [6]]
    let done := (BudgetedReader.start pulls 4).readAll ([1, 4, 3, 0] ++ [2])
    (done.2 <+: streamOf pulls ∧ done.2.length = min (streamOf pulls).length (4 : Int).toNat) ∧
      (done.1.exhausted = true ↔ (4 : Int).toNat < (streamOf pulls).length) :=
  have whole := BudgetedReader.readAll_budget
    [.chunk [1, 2], .chunk [], .expired, .chunk [3, 4, 5], .chunk [6]] 4 [1, 4, 3, 0] 2
    (by decide) (by decide)
  ⟨whole.1, whole.2.1⟩

end LumenCopilot.Runner
