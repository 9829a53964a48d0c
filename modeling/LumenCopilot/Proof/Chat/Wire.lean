import LumenCopilot.Construction.Chat.Runtime
import Mathlib

namespace LumenCopilot.Chat

open Python

def Sent.seq (sent : Sent) : Nat := sent.envelope.seq

def Sent.isTerminal (sent : Sent) : Bool := sent.envelope.payload.isTerminal

/-- This envelope is `done`. -/
def Sent.isDone (sent : Sent) : Bool :=
  match sent.envelope.payload with
  | .done _ _ => true
  | _ => false

theorem Sent.isDone_payload (sent : Sent) (done : sent.isDone = true) :
    ∃ reason pending, sent.envelope.payload = .done reason pending := by
  unfold Sent.isDone at done
  split at done
  · next reason pending is => exact ⟨reason, pending, is⟩
  · contradiction

theorem Sent.isDone_isTerminal (sent : Sent) (done : sent.isDone = true) : sent.isTerminal = true := by
  obtain ⟨reason, pending, is⟩ := sent.isDone_payload done
  unfold Sent.isTerminal
  rw [is]
  rfl

def Sent.isText (sent : Sent) : Bool := sent.envelope.payload.isText

/-- An envelope appends to the answer text, clears it, or leaves it. -/
def Payload.applyText (text : Text) : Payload → Text
  | .delta chunk => text ++ chunk
  | .answerRetract => []
  | _ => text

/-- This is the answer text of a history in which every envelope took effect. -/
def answerText (sent : List Sent) : Text :=
  sent.foldl (fun text sent => sent.envelope.payload.applyText text) []

/-- Every text envelope of the history took effect. -/
def Whole (sent : List Sent) : Prop := ∀ entry ∈ sent, entry.isText = true → entry.taken = true

theorem answerText_append (sent : List Sent) (entry : Sent) :
    answerText (sent ++ [entry]) = entry.envelope.payload.applyText (answerText sent) := by
  simp [answerText, List.foldl_append]

theorem Payload.applyText_other (payload : Payload) (text : Text) (other : payload.isText = false) :
    payload.applyText text = text := by
  cases payload <;> first | rfl | contradiction

theorem clientState_append (sent : List Sent) (entry : Sent) :
    clientState (sent ++ [entry]) =
      if entry.taken then reduceStream (clientState sent) entry.envelope else clientState sent := by
  unfold clientState
  rw [List.filter_append, List.foldl_append]
  cases taken : entry.taken <;> simp [taken]

/-- An envelope repeats the terminal when a terminal precedes it. -/
def Resent (earlier : List Sent) (entry : Sent) : Prop :=
  entry.isTerminal = true ∧ ∃ terminal ∈ earlier, terminal.isTerminal = true

/-- Every envelope but a repeated terminal has a larger number than all earlier ones. -/
def Sequenced (sent : List Sent) : Prop :=
  ∀ earlier entry later, sent = earlier ++ entry :: later → Resent earlier entry ∨
    ∀ before ∈ earlier, before.seq < entry.seq

/-- The history of a stream whose next number is the bound. -/
structure Wire (bound : Nat) (sent : List Sent) : Prop where
  below : ∀ entry ∈ sent, entry.seq < bound
  sequenced : Sequenced sent
  together : ∀ first ∈ sent, ∀ second ∈ sent, first.isTerminal = true → second.isTerminal = true →
    first.seq = second.seq
  final : sent.Pairwise fun earlier later => earlier.isTerminal = true → later.isText = false
  drained : ∀ entry ∈ sent, entry.buffered = []

theorem Wire.nil : Wire 0 [] := by
  refine ⟨by simp, ?_, by simp, List.Pairwise.nil, by simp⟩
  intro earlier entry later split
  simp at split

variable {sent : List Sent} {bound : Nat}

theorem Wire.weaken {larger : Nat} (wire : Wire bound sent) (le : bound ≤ larger) :
    Wire larger sent :=
  ⟨fun entry member => Nat.lt_of_lt_of_le (wire.below entry member) le, wire.sequenced, wire.together,
    wire.final, wire.drained⟩

theorem sequenced_append (sent : List Sent) (entry : Sent) (sequenced : Sequenced sent)
    (fresh : Resent sent entry ∨ ∀ before ∈ sent, before.seq < entry.seq) :
    Sequenced (sent ++ [entry]) := by
  intro earlier other later split
  rcases List.eq_nil_or_concat later with rfl | ⟨front, last, rfl⟩
  · obtain ⟨rfl, same⟩ := List.append_inj' split rfl
    obtain rfl := (List.cons.inj same).1
    exact fresh
  · rw [List.concat_eq_append, ← List.cons_append, ← List.append_assoc] at split
    obtain ⟨rfl, -⟩ := List.append_inj' split rfl
    exact sequenced earlier other front rfl

/-- A newly minted envelope extends the history. -/
theorem Wire.fresh (wire : Wire bound sent) (entry : Sent) (minted : entry.seq = bound)
    (empty : entry.buffered = []) (open' : entry.isTerminal = true ∨ entry.isText = true →
      ∀ before ∈ sent, before.isTerminal = false) : Wire (bound + 1) (sent ++ [entry]) := by
  refine ⟨?_, ?_, ?_, ?_, ?_⟩
  · intro other member
    rcases List.mem_append.mp member with old | new
    · exact Nat.lt_succ_of_lt (wire.below other old)
    · rw [List.mem_singleton.mp new, minted]
      exact Nat.lt_succ_self bound
  · exact sequenced_append sent entry wire.sequenced
      (Or.inr fun before member => minted ▸ wire.below before member)
  · intro first memberFirst second memberSecond firstEnds secondEnds
    rcases List.mem_append.mp memberFirst with oldFirst | newFirst
    · rcases List.mem_append.mp memberSecond with oldSecond | newSecond
      · exact wire.together first oldFirst second oldSecond firstEnds secondEnds
      · rw [List.mem_singleton.mp newSecond] at secondEnds
        simp [open' (Or.inl secondEnds) first oldFirst] at firstEnds
    · rw [List.mem_singleton.mp newFirst] at firstEnds ⊢
      rcases List.mem_append.mp memberSecond with oldSecond | newSecond
      · simp [open' (Or.inl firstEnds) second oldSecond] at secondEnds
      · rw [List.mem_singleton.mp newSecond]
  · rw [List.pairwise_append]
    refine ⟨wire.final, List.pairwise_singleton _ _, ?_⟩
    intro before member last isLast ends
    rw [List.mem_singleton.mp isLast]
    by_contra text
    have unended := open' (Or.inr (by simpa using text)) before member
    simp [unended] at ends
  · exact List.forall_mem_append.mpr ⟨wire.drained, List.forall_mem_singleton.mpr empty⟩

/-- A repeated terminal extends the history under the number of the first. -/
theorem Wire.resend (wire : Wire bound sent) (entry : Sent) (ends : entry.isTerminal = true)
    (empty : entry.buffered = [])
    (first : ∃ terminal ∈ sent, terminal.isTerminal = true ∧ terminal.seq = entry.seq) :
    Wire bound (sent ++ [entry]) := by
  obtain ⟨terminal, there, terminalEnds, same⟩ := first
  refine ⟨?_, ?_, ?_, ?_, ?_⟩
  · refine List.forall_mem_append.mpr ⟨wire.below, List.forall_mem_singleton.mpr ?_⟩
    rw [← same]
    exact wire.below terminal there
  · exact sequenced_append sent entry wire.sequenced (Or.inl ⟨ends, terminal, there, terminalEnds⟩)
  · have all : ∀ other ∈ sent ++ [entry], other.isTerminal = true → other.seq = entry.seq := by
      intro other member otherEnds
      rcases List.mem_append.mp member with old | new
      · exact (wire.together other old terminal there otherEnds terminalEnds).trans same
      · rw [List.mem_singleton.mp new]
    intro one memberOne two memberTwo oneEnds twoEnds
    exact (all one memberOne oneEnds).trans (all two memberTwo twoEnds).symm
  · rw [List.pairwise_append]
    refine ⟨wire.final, List.pairwise_singleton _ _, ?_⟩
    intro before member last isLast beforeEnds
    rw [List.mem_singleton.mp isLast]
    unfold Sent.isTerminal Payload.isTerminal at ends
    unfold Sent.isText Payload.isText
    split at ends <;> simp_all
  · exact List.forall_mem_append.mpr ⟨wire.drained, List.forall_mem_singleton.mpr empty⟩

theorem StreamState.apply_text (state : StreamState) (seq : Nat) (payload : Payload) :
    (state.apply seq payload).text = payload.applyText state.text := by
  unfold StreamState.apply
  cases payload with
  | narration text turn => by_cases valid : 1 ≤ turn <;> simp [valid, Payload.applyText]
  | suggestions items => cases shown : asSuggestions items <;> simp [shown, Payload.applyText]
  | _ => rfl

theorem StreamState.apply_lastSeq (state : StreamState) (seq : Nat) (payload : Payload) :
    (state.apply seq payload).lastSeq = seq := by
  unfold StreamState.apply
  cases payload with
  | narration text turn => by_cases valid : 1 ≤ turn <;> simp [valid]
  | suggestions items => cases shown : asSuggestions items <;> simp [shown]
  | _ => rfl

theorem StreamState.apply_phase (state : StreamState) (seq : Nat) (payload : Payload)
    (settled : (state.apply seq payload).phase.isTerminal = true) :
    state.phase.isTerminal = true ∨ payload.isTerminal = true := by
  unfold StreamState.apply at settled
  cases payload with
  | narration text turn =>
      by_cases valid : 1 ≤ turn <;> simp only [valid, ↓reduceIte] at settled <;> exact Or.inl settled
  | suggestions items =>
      cases shown : asSuggestions items <;> simp only [shown] at settled <;> exact Or.inl settled
  | start | delta text => contradiction
  | done reason pending | error problem | cancelled => exact Or.inr rfl
  | answerRetract | event name | askUser question => exact Or.inl settled

theorem StreamState.applySettled_cases (state : StreamState) (envelope : Envelope) :
    (state.applySettled envelope).text = state.text ∧
      (state.applySettled envelope).phase = state.phase ∧
      ((state.applySettled envelope).lastSeq = state.lastSeq ∨
        (state.applySettled envelope).lastSeq = envelope.seq) := by
  unfold StreamState.applySettled
  split
  · split
    · split <;> simp
    · simp
  · simp

/-- The client applies a fresh envelope, and it never goes back behind an applied one. -/
theorem reduceStream_cases (state : StreamState) (envelope : Envelope) :
    ((reduceStream state envelope).lastSeq = state.lastSeq ∨
      (reduceStream state envelope).lastSeq = envelope.seq) ∧
    ((reduceStream state envelope).phase.isTerminal = true →
      state.phase.isTerminal = true ∨ envelope.payload.isTerminal = true) ∧
    (reduceStream state envelope).text =
      if state.phase.isTerminal ∨ (envelope.seq : Int) ≤ state.lastSeq then state.text
      else envelope.payload.applyText state.text := by
  unfold reduceStream
  by_cases settled : state.phase.isTerminal = true
  · obtain ⟨text, phase, last⟩ := state.applySettled_cases envelope
    simp [settled, text, phase, last]
  · by_cases stale : (envelope.seq : Int) ≤ state.lastSeq
    · simp [settled, stale]
    · simp only [settled, Bool.false_eq_true, ↓reduceIte, stale, or_self]
      exact ⟨Or.inr (state.apply_lastSeq _ _),
        fun ends => Or.inr ((state.apply_phase _ _ ends).resolve_left settled), state.apply_text _ _⟩

theorem Wire.init {entry : Sent} (wire : Wire bound (sent ++ [entry])) : Wire bound sent := by
  refine ⟨?_, ?_, ?_, ?_, ?_⟩
  · exact fun other member => wire.below other (List.mem_append_left _ member)
  · intro earlier other later split
    exact wire.sequenced earlier other (later ++ [entry]) (by simp [split])
  · intro first memberFirst second memberSecond
    exact wire.together first (List.mem_append_left _ memberFirst) second
      (List.mem_append_left _ memberSecond)
  · exact (List.pairwise_append.mp wire.final).1
  · exact fun other member => wire.drained other (List.mem_append_left _ member)

/-- Text follows every earlier envelope in number, and no terminal precedes it. -/
theorem Wire.text_last {entry : Sent} (wire : Wire bound (sent ++ [entry]))
    (text : entry.isText = true) :
    ∀ before ∈ sent, before.seq < entry.seq ∧ before.isTerminal = false := by
  intro before member
  constructor
  · rcases wire.sequenced sent entry [] rfl with resent | larger
    · have ends := resent.1
      unfold Sent.isTerminal Payload.isTerminal at ends
      unfold Sent.isText Payload.isText at text
      split at ends <;> simp_all
    · exact larger before member
  · by_contra ends
    have silent := (List.pairwise_append.mp wire.final).2.2 before member entry
      List.mem_cons_self (by simpa using ends)
    simp [text] at silent

/-- The client shows the text of the envelopes that took effect. -/
theorem Wire.client (wire : Wire bound sent) :
    (clientState sent).text = answerText (sent.filter Sent.taken) ∧
      ((clientState sent).lastSeq = -1 ∨ ∃ entry ∈ sent, (clientState sent).lastSeq = entry.seq) ∧
      ((clientState sent).phase.isTerminal = true → ∃ entry ∈ sent, entry.isTerminal = true) := by
  induction sent using List.reverseRecOn with
  | nil => exact ⟨rfl, Or.inl rfl, by simp [clientState, StreamPhase.isTerminal]⟩
  | append_singleton sent entry ih =>
      obtain ⟨text, last, settled⟩ := ih wire.init
      have kept : ∀ other ∈ sent, other ∈ sent ++ [entry] :=
        fun other member => List.mem_append_left _ member
      rw [clientState_append, List.filter_append]
      by_cases taken : entry.taken = true
      · obtain ⟨lastCases, phaseCases, textCases⟩ := reduceStream_cases (clientState sent) entry.envelope
        rw [if_pos taken, List.filter_cons_of_pos taken, List.filter_nil, answerText_append, ← text]
        refine ⟨?_, ?_, ?_⟩
        · rw [textCases]
          by_cases isText : entry.isText = true
          · have before := wire.text_last isText
            rw [if_neg]
            rintro (ended | stale)
            · obtain ⟨terminal, there, ends⟩ := settled ended
              simp [(before terminal there).2] at ends
            · rcases last with start | ⟨latest, there, latestIs⟩
              · rw [start] at stale
                omega
              · have less := (before latest there).1
                rw [latestIs] at stale
                unfold Sent.seq at less stale
                omega
          · have other : entry.isText = false := by simpa using isText
            rw [Payload.applyText_other _ _ other, ite_self]
        · rcases lastCases with same | applied
          · rw [same]
            exact last.imp id fun ⟨latest, there, is⟩ => ⟨latest, kept latest there, is⟩
          · exact Or.inr ⟨entry, List.mem_append_right _ List.mem_cons_self, applied⟩
        · intro ended
          rcases phaseCases ended with earlier | now
          · obtain ⟨terminal, there, ends⟩ := settled earlier
            exact ⟨terminal, kept terminal there, ends⟩
          · exact ⟨entry, List.mem_append_right _ List.mem_cons_self, now⟩
      · rw [if_neg taken, List.filter_cons_of_neg taken, List.filter_nil, List.append_nil]
        exact ⟨text, last.imp id fun ⟨latest, there, is⟩ => ⟨latest, kept latest there, is⟩,
          fun ended => (settled ended).imp fun terminal there => ⟨kept terminal there.1, there.2⟩⟩

/-- Lost side-band envelopes do not change the answer text. -/
theorem answerText_filter_taken (sent : List Sent) (whole : Whole sent) :
    answerText (sent.filter Sent.taken) = answerText sent := by
  induction sent using List.reverseRecOn with
  | nil => rfl
  | append_singleton sent entry ih =>
      have earlier := ih fun other member => whole other (List.mem_append_left _ member)
      rw [List.filter_append, answerText_append, ← earlier]
      by_cases taken : entry.taken = true
      · rw [List.filter_cons_of_pos taken, List.filter_nil, answerText_append]
      · have other : entry.isText = false := by
          by_contra text
          exact taken (whole entry (List.mem_append_right _ List.mem_cons_self) (by simpa using text))
        rw [List.filter_cons_of_neg taken, List.filter_nil, List.append_nil,
          Payload.applyText_other _ _ other]

/-- When no text envelope was lost, the client shows the answer text of the whole history. -/
theorem Wire.client_whole (wire : Wire bound sent) (whole : Whole sent) :
    (clientState sent).text = answerText sent := by
  rw [wire.client.1, answerText_filter_taken sent whole]

end LumenCopilot.Chat
