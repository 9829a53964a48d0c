import LumenCopilot.Proof.Handles.Cleanup

namespace LumenCopilot.Handles

open Library Python

section
variable {table : UnicodeTable} {parse : MarkdownParser} (reports : ReportsMarkers table parse)
  (answer : Text) (plain : Plain table answer)
include reports plain

/-- Without hollow markers the clean-up keeps its promises. -/
theorem cleansUp_of_solid (available : List Text)
    (solid : ∀ handle, ¬Hollow (isInvalid available) answer handle) :
    CleansUp parse answer available := by
  have shown := visible_cutText answer solid
  have plainCut : Plain table (cutText (isInvalid available) answer) :=
    fun c member => plain c (cutText_mem _ answer c member)
  have selects := selectCitedHandles_plain reports answer plain available
  rw [← shown] at selects
  generalize cutText (isInvalid available) answer = cleaned at shown plainCut selects
  have valid : ∀ handle ∈ visible cleaned, isInvalid available handle = false := by
    intro handle member
    rw [shown, List.mem_filter] at member
    simpa using member.2
  refine ⟨cleaned, _, selects, ?_, rfl, ?_, ?_⟩
  · intro handle shows'
    exact (valid_iff available handle shows'.1).mp
      (valid handle ((mem_visible_iff cleaned handle).mpr shows'))
  · apply selectCitedHandles_again reports cleaned plainCut
    intro handle member
    have isHandle := visible_isHandle cleaned handle member
    have kept := (valid_iff available handle isHandle).mp (valid handle member)
    exact (valid_iff _ handle isHandle).mpr ⟨List.mem_eraseDups.mpr member, kept.2⟩
  · intro evidence stored same runs handle shows'
    have equal := isInvalid_congr same
    have first : selectCitedHandles parse answer evidence.available =
        some (cleaned, (visible cleaned).eraseDups) := by
      rw [selectCitedHandles_plain reports answer plain, equal,
        ← selectCitedHandles_plain reports answer plain available, selects]
    exact storeAnswer_cites reports evidence answer cleaned stored plainCut first
      (equal ▸ valid) runs handle shows'

/-- A clean-up that keeps its promises leaves a hollow marker only for a selected handle. -/
theorem cleansUp_hollow (available : List Text) (cleans : CleansUp parse answer available)
    (gone : Text → Bool) (more : ∀ other, gone other = true → isInvalid available other = true)
    (handle : Text) (hollow : Hollow gone answer handle) :
    handle ∈ visible answer ∧ isInvalid available handle = false := by
  obtain ⟨cleaned, selected, selects, -, exactly, -, -⟩ := cleans
  rw [selectCitedHandles_plain reports answer plain] at selects
  obtain ⟨rfl, same⟩ := Prod.mk.inj (Option.some.inj selects)
  have closed := List.mem_eraseDups.mpr (hollow.closes more)
  rw [← exactly, ← same, List.mem_eraseDups, List.mem_filter] at closed
  exact ⟨closed.1, by simpa using closed.2⟩

end

/-- A match is read again at its start. -/
theorem spansFrom_read (before text : Text) (found : HandleMatch)
    (member : found ∈ spansFrom before.length (items text)) :
    ∃ after, matchHandle ((before ++ text).drop found.start) = some (found.handle, after) := by
  induction text using items_induction generalizing before with
  | nil => simp [spansFrom] at member
  | marker handle after isHandle ih =>
      rw [items_marked handle after isHandle, spansFrom] at member
      rcases List.mem_cons.mp member with rfl | later
      · rw [List.drop_left]
        exact ⟨after, (matchHandle_eq_some_iff _ handle after).mpr ⟨isHandle, rfl⟩⟩
      · have moved := ih (before ++ marked handle [])
        rw [List.length_append, marked_length, List.append_assoc] at moved
        have text : marked handle [] ++ after = marked handle after := by simp [marked]
        rw [text] at moved
        exact moved later
  | char c rest plain ih =>
      rw [items_char c rest plain] at member
      have moved := ih (before ++ [c])
      rw [List.length_append, List.append_assoc] at moved
      exact moved member

/-- This parser takes the whole answer as one paragraph without other inline syntax. -/
def paragraphParser : MarkdownParser := fun text =>
  [⟨text, some (0, 1), (handleMatches text).map HandleMatch.start⟩]

theorem paragraphParser_reports (table : UnicodeTable) : ReportsMarkers table paragraphParser := by
  intro text plain
  refine Or.inr ⟨[], text, [], (handleMatches text).map HandleMatch.start, by simp, by simp,
    by simp, rfl, ?_⟩
  have reads : (handleMatches text).map (fun found => (found.start, found.handle)) =
      (handleMatches text).filterMap fun found => some (found.start, found.handle) :=
    (congrFun List.filterMap_eq_map _).symm
  rw [InlineToken.citationMarkers, List.filterMap_map, reads]
  apply List.filterMap_congr
  intro found member
  rw [handleMatches_items] at member
  obtain ⟨after, read⟩ := spansFrom_read [] text found member
  rw [List.nil_append] at read
  simp [read]

/-- The clean-up of a plain answer keeps its promises for all available handles exactly when no
marker of the answer closes up around other markers; for one set of available handles it suffices
that none closes up around invalid markers, and each that does must name a selected handle. -/
theorem selectCitedHandles_cleansUp (table : UnicodeTable) (parse : MarkdownParser)
    (reports : ReportsMarkers table parse) (answer : Text) (plain : Plain table answer) :
    ((∀ available, CleansUp parse answer available) ↔
      ∀ handle, ¬Hollow (fun _ => true) answer handle) ∧
    ∀ available,
      ((∀ handle, ¬Hollow (isInvalid available) answer handle) →
        CleansUp parse answer available) ∧
      (CleansUp parse answer available → ∀ handle, Hollow (isInvalid available) answer handle →
        handle ∈ visible answer ∧ isInvalid available handle = false) := by
  refine ⟨⟨?_, ?_⟩, ?_⟩
  · intro cleans handle hollow
    have empty (other : Text) : isInvalid [] other = true := by simp [isInvalid]
    have closed := cleansUp_hollow reports answer plain [] (cleans []) (fun _ => true)
      (fun other _ => empty other) handle hollow
    exact Bool.false_ne_true (closed.2.symm.trans (empty handle))
  · intro solid available
    apply cleansUp_of_solid reports answer plain available
    intro handle hollow
    exact solid handle hollow.widen
  · intro available
    exact ⟨cleansUp_of_solid reports answer plain available, fun cleans handle hollow =>
      cleansUp_hollow reports answer plain available cleans _ (fun _ gone => gone) handle hollow⟩

theorem plain_of_all (table : UnicodeTable) (text : Text)
    (all : (text.all fun c => c.isAlphanum || c == ' ' || c == '[' || c == ']') = true) :
    Plain table text := by
  intro c member
  have here := List.all_eq_true.mp all c member
  simp only [Bool.or_eq_true, beq_iff_eq] at here
  rcases here with ((letter | space) | opens) | closes
  · exact Or.inl letter
  · exact Or.inr (Or.inr (Or.inl space))
  · exact Or.inr (Or.inr (Or.inr (Or.inl opens)))
  · exact Or.inr (Or.inr (Or.inr (Or.inr closes)))

/-- A hollow marker needs a second opening bracket. -/
theorem Hollow.brackets {gone : Text → Bool} {text handle : Text}
    (hollow : Hollow gone text handle) : 2 ≤ text.count '[' := by
  obtain ⟨isHandle, before, middle, after, rfl, woven, apart⟩ := hollow
  have inner : middle = handle ∨ 1 ≤ middle.count '[' := by
    clear apart isHandle
    induction woven with
    | nil => exact Or.inl rfl
    | char c rest ih =>
        rw [List.count_cons]
        rcases ih with rfl | more
        · exact Or.inl rfl
        · exact Or.inr (by omega)
    | marker other isHandle leaves rest ih => exact Or.inr (by simp [marked])
  rcases inner with same | more
  · exact absurd same apart
  · simp only [List.count_append, List.count_cons, beq_self_eq_true, ↓reduceIte]
    omega

/-- An answer with one marker is cleaned up for its handle. -/
theorem selectCitedHandles_cleansUp_single :
    CleansUp paragraphParser "The fact holds [S1]".toList ["S1".toList] := by
  have cleans := (selectCitedHandles_cleansUp .symbols paragraphParser
    (paragraphParser_reports .symbols) "The fact holds [S1]".toList
    (plain_of_all _ _ (by decide))).1
  apply cleans.mpr
  intro handle hollow
  exact absurd hollow.brackets (by decide)

def noEvidence : AnswerEvidence where
  corpus := []
  web := []
  reread := []
  distinct := by simp

/-- Both passes leave the marker of a passage that the answer never had. -/
theorem selectCitedHandles_closes_up :
    storeAnswer paragraphParser noEvidence "[S[S[S9]9]1]".toList = some ⟨"[S1]".toList, [], []⟩ ∧
    ¬∀ (table : UnicodeTable) (parse : MarkdownParser), ReportsMarkers table parse →
      ∀ answer, Plain table answer → ∀ available, CleansUp parse answer available := by
  have stored : storeAnswer paragraphParser noEvidence "[S[S[S9]9]1]".toList =
      some ⟨"[S1]".toList, [], []⟩ := by
    decide +kernel
  refine ⟨stored, ?_⟩
  intro cleans
  obtain ⟨cleaned, selected, -, -, -, -, cited⟩ := cleans .symbols paragraphParser
    (paragraphParser_reports .symbols) "[S[S[S9]9]1]".toList (plain_of_all _ _ (by decide +kernel)) []
  have shows' : Shows "[S1]".toList "S1".toList :=
    ⟨⟨'S', '1', [], rfl, rfl, rfl, by simp⟩, [], [], rfl⟩
  have persisted := cited noEvidence _ (by simp [AnswerEvidence.available, noEvidence]) stored
    "S1".toList shows'
  simp at persisted

end LumenCopilot.Handles
