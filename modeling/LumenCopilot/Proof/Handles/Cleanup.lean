import LumenCopilot.Proof.Handles.Selection
import LumenCopilot.Proof.Library.Dict
import LumenCopilot.Proof.Library.Partial

namespace LumenCopilot.Handles

open Library Python

/-- The text contains the marker of the handle. -/
def Shows (text handle : Text) : Prop :=
  IsHandle handle ∧ ∃ before after, text = before ++ marked handle after

/-- The clean-up leaves markers of available passages and pages only, it selects exactly what it
leaves, once more it changes nothing, and an answer that is stored after both passes has a citation
for each of its markers. -/
def CleansUp (parse : MarkdownParser) (answer : Text) (available : List Text) : Prop :=
  ∃ cleaned selected, selectCitedHandles parse answer available = some (cleaned, selected) ∧
    (∀ handle, Shows cleaned handle →
      handle ∈ available ∧ (handle.head? = some 'S' ∨ handle.head? = some 'W')) ∧
    selected = (visible cleaned).eraseDups ∧
    selectCitedHandles parse cleaned selected = some (cleaned, selected) ∧
    ∀ evidence stored, (∀ handle, handle ∈ evidence.available ↔ handle ∈ available) →
      storeAnswer parse evidence answer = some stored → ∀ handle, Shows stored.text handle →
        handle ∈ stored.citations.map GroundedCitation.handle ∨ handle ∈ stored.web

theorem cutText_mem (gone : Text → Bool) (text : Text) (c : Char) (member : c ∈ cutText gone text) :
    c ∈ text := by
  rw [← render_items text]
  obtain ⟨part, kept, inside⟩ := List.mem_flatMap.mp member
  exact List.mem_flatMap.mpr ⟨part, List.mem_of_mem_filter kept, inside⟩

theorem cutText_id (gone : Text → Bool) (text : Text)
    (stays : ∀ handle ∈ visible text, gone handle = false) : cutText gone text = text := by
  have all : (items text).filter (Item.kept gone) = items text := by
    apply List.filter_eq_self.mpr
    intro part member
    cases part with
    | char c => rfl
    | marker handle =>
        have shown : handle ∈ visible text := List.mem_filterMap.mpr ⟨_, member, rfl⟩
        simp [Item.kept, stays handle shown]
  rw [cutText, all, render_items]

theorem visible_isHandle (text handle : Text) (shown : handle ∈ visible text) : IsHandle handle :=
  ((mem_visible_iff text handle).mp shown).1

/-- A valid handle is an available one of a passage or a page. -/
theorem valid_iff (available : List Text) (handle : Text) (isHandle : IsHandle handle) :
    isInvalid available handle = false ↔
      handle ∈ available ∧ (handle.head? = some 'S' ∨ handle.head? = some 'W') := by
  obtain ⟨letter, digit, digits, rfl, letters, -, -⟩ := isHandle
  simp only [isHandleLetter, Bool.or_eq_true, beq_iff_eq] at letters
  simp only [isInvalid, List.head?_cons, Option.some.injEq, Bool.or_eq_false_iff,
    decide_eq_false_iff_not, not_not]
  rcases letters with (rfl | rfl) | rfl
  · simp
  · simp
  · simp

theorem isInvalid_congr {first second : List Text}
    (same : ∀ handle, handle ∈ first ↔ handle ∈ second) : isInvalid first = isInvalid second := by
  funext handle
  simp only [isInvalid, same]

section
variable {table : UnicodeTable} {parse : MarkdownParser} (reports : ReportsMarkers table parse)
include reports

/-- A second selection with the selected handles changes nothing. -/
theorem selectCitedHandles_again (answer : Text) (plain : Plain table answer)
    (allowed : List Text) (valid : ∀ handle ∈ visible answer, isInvalid allowed handle = false) :
    selectCitedHandles parse answer allowed = some (answer, (visible answer).eraseDups) := by
  have all : (visible answer).filter (fun handle => !isInvalid allowed handle) = visible answer := by
    apply List.filter_eq_self.mpr
    intro handle member
    simp [valid handle member]
  rw [selectCitedHandles_plain reports answer plain, cutText_id _ answer valid, all]

end

/-- A text without brackets has no marker to remove, whatever the parser reports. -/
theorem selectCitedHandles_unmarked (parse : MarkdownParser) (answer cleaned : Text)
    (selected : List Text) (bare : '[' ∉ answer)
    (runs : selectCitedHandles parse answer [] = some (cleaned, selected)) : cleaned = answer := by
  have unmatched (start stop : Nat) : handleMatchesIn answer start stop = [] := by
    have hidden : visible ((answer.take stop).drop start) = [] := by
      apply List.eq_nil_iff_forall_not_mem.mpr
      intro handle member
      obtain ⟨-, before, after, same⟩ := (mem_visible_iff _ handle).mp member
      have bracket : '[' ∈ (answer.take stop).drop start := by simp [same, marked]
      exact bare (List.mem_of_mem_take (List.mem_of_mem_drop bracket))
    rw [← spansFrom_handles 0, ← handleMatches_items] at hidden
    rw [handleMatchesIn, List.map_eq_nil_iff.mp hidden]
    rfl
  unfold selectCitedHandles at runs
  obtain ⟨selection, loops, same⟩ := Option.bind_eq_some_iff.mp runs
  obtain ⟨rfl, -⟩ := Prod.mk.inj (Option.some.inj same)
  have kept : selection.removed = [] := by
    refine foldlM_some_keeps _ (fun current => current.removed = []) _ ?_ {} selection rfl loops
    intro current token next _ held step
    unfold selectToken at step
    split at step
    · exact Option.some.inj step ▸ held
    · obtain ⟨start, -, later⟩ := Option.bind_eq_some_iff.mp step
      obtain ⟨stop, -, last⟩ := Option.bind_eq_some_iff.mp later
      dsimp only at last
      rw [unmatched] at last
      split at last
      · contradiction
      · cases markers : token.citationMarkers with
        | nil =>
            rw [markers] at last
            exact Option.some.inj last ▸ held
        | cons marker rest =>
            have refused : selectMarker [] (((handleMatches token.content).map
                HandleMatch.start).zip (([] : List HandleMatch).map fun found =>
                  (found.start, found.stop))) current marker = none := by
              rw [selectMarker, List.map_nil, List.zip_nil_right, if_pos (by simp [isInvalid])]
              rfl
            rw [markers, List.foldlM_cons, refused] at last
            contradiction
  rw [kept]
  rfl

theorem noSourcesFallback_bare : '[' ∉ noSourcesFallback := by decide +kernel

/-- A text without brackets shows no marker. -/
theorem bare_shows_nothing {text : Text} (bare : '[' ∉ text) (handle : Text) :
    ¬Shows text handle := by
  intro shows'
  obtain ⟨-, before, after, same⟩ := shows'
  exact bare (by simp [same, marked])

/-- The dictionary by chunk keeps every chosen citation, when no two of them share a chunk. -/
theorem mem_citedByChunk (selected : List Text) (chosen : List GroundedCitation)
    (apart : ∀ first ∈ chosen, ∀ second ∈ chosen, first.chunkId = second.chunkId → first = second)
    (citation : GroundedCitation) (member : citation ∈ chosen) :
    citation ∈ citedByChunk selected chosen := by
  unfold citedByChunk
  dsimp only
  have sorted : citation ∈ chosen.mergeSort fun first second =>
      decide (selected.idxOf first.handle ≤ selected.idxOf second.handle) :=
    List.mem_mergeSort.mpr member
  have inside : ∀ other ∈ chosen.mergeSort (fun first second =>
      decide (selected.idxOf first.handle ≤ selected.idxOf second.handle)), other ∈ chosen :=
    fun other later => List.mem_mergeSort.mp later
  generalize chosen.mergeSort _ = ordered at sorted inside
  have keeps (rest : List GroundedCitation) (cited : Dict Nat GroundedCitation)
      (sub : ∀ other ∈ rest, other ∈ chosen)
      (sound : ∀ chunk other, cited.lookup chunk = some other →
        other ∈ chosen ∧ other.chunkId = chunk)
      (here : cited.lookup citation.chunkId = some citation ∨ citation ∈ rest) :
      (rest.foldl (fun cited other => Dict.assign cited other.chunkId other) cited).lookup
        citation.chunkId = some citation := by
    induction rest generalizing cited with
    | nil =>
        rcases here with found | absent
        · exact found
        · exact absurd absent List.not_mem_nil
    | cons next later ih =>
        have chosenNext := sub next List.mem_cons_self
        rw [List.foldl_cons]
        apply ih _ fun other inLater => sub other (List.mem_cons_of_mem next inLater)
        · intro chunk other found
          cases before : cited.lookup next.chunkId with
          | some earlier =>
              obtain ⟨known, same⟩ := sound _ _ before
              obtain rfl := apart earlier known next chosenNext same
              rw [Dict.assign_same before] at found
              exact sound chunk other found
          | none =>
              rw [Dict.lookup_assign (AList.lookup_eq_none.mp before)] at found
              split at found
              · next same => exact Option.some.inj found ▸ ⟨chosenNext, same.symm⟩
              · exact sound chunk other found
        · cases before : cited.lookup next.chunkId with
          | some earlier =>
              obtain ⟨known, same⟩ := sound _ _ before
              obtain rfl := apart earlier known next chosenNext same
              rw [Dict.assign_same before]
              rcases here with found | pending
              · exact Or.inl found
              · rcases List.mem_cons.mp pending with rfl | inLater
                · exact Or.inl before
                · exact Or.inr inLater
          | none =>
              rw [Dict.lookup_assign (AList.lookup_eq_none.mp before)]
              rcases here with found | pending
              · left
                rw [if_neg, found]
                intro same
                rw [same, before] at found
                contradiction
              · rcases List.mem_cons.mp pending with rfl | inLater
                · exact Or.inl (if_pos rfl)
                · exact Or.inr inLater
  have found := keeps ordered ∅ inside (by simp) (Or.inr sorted)
  rw [Dict.lookup_eq_some_iff] at found
  exact List.mem_map.mpr ⟨_, found, rfl⟩

/-- A stored answer shows only markers that it has a citation for, when the first selection shows
exactly what it selects. -/
theorem storeAnswer_cites {table : UnicodeTable} {parse : MarkdownParser}
    (reports : ReportsMarkers table parse) (evidence : AnswerEvidence)
    (answer cleaned : Text) (stored : StoredAnswer) (plain : Plain table cleaned)
    (first : selectCitedHandles parse answer evidence.available =
      some (cleaned, (visible cleaned).eraseDups))
    (valid : ∀ handle ∈ visible cleaned, isInvalid evidence.available handle = false)
    (runs : storeAnswer parse evidence answer = some stored) (handle : Text)
    (shows' : Shows stored.text handle) :
    handle ∈ stored.citations.map GroundedCitation.handle ∨ handle ∈ stored.web := by
  unfold storeAnswer at runs
  rw [first, Option.bind_eq_bind, Option.bind_some] at runs
  unfold confirmedSelection at runs
  dsimp only at runs
  split at runs
  · next confirmed =>
      generalize chosenEq : evidence.corpus.filter (fun citation =>
        citation.handle ∈ (visible cleaned).eraseDups) = chosen at runs confirmed
      have chosenMem (citation : GroundedCitation) : citation ∈ chosen ↔
          citation ∈ evidence.corpus ∧ citation.handle ∈ visible cleaned := by
        rw [← chosenEq, List.mem_filter, decide_eq_true_eq, List.mem_eraseDups]
      have covered : ∀ other ∈ visible cleaned,
          other ∈ chosen.map GroundedCitation.handle ∨
            other ∈ (visible cleaned).eraseDups.filter (· ∈ evidence.web) := by
        intro other shown
        have isAvailable := ((valid_iff evidence.available other
          (visible_isHandle cleaned other shown)).mp (valid other shown)).1
        rcases List.mem_append.mp isAvailable with corpus | web
        · obtain ⟨citation, member, rfl⟩ := List.mem_map.mp corpus
          exact Or.inl (List.mem_map_of_mem ((chosenMem citation).mpr ⟨member, shown⟩))
        · right
          rw [List.mem_filter, List.mem_eraseDups, decide_eq_true_eq]
          exact ⟨shown, web⟩
      have allowed : ∀ other ∈ visible cleaned, isInvalid (chosen.map GroundedCitation.handle ++
          (visible cleaned).eraseDups.filter (· ∈ evidence.web)) other = false := by
        intro other shown
        have isHandle := visible_isHandle cleaned other shown
        rw [valid_iff _ other isHandle]
        exact ⟨List.mem_append.mpr (covered other shown),
          ((valid_iff evidence.available other isHandle).mp (valid other shown)).2⟩
      rw [selectCitedHandles_again reports cleaned plain _ allowed, Option.bind_some] at runs
      split at runs
      · have text := congrArg StoredAnswer.text (Option.some.inj runs)
        rw [← text] at shows'
        exact absurd shows' (bare_shows_nothing noSourcesFallback_bare handle)
      · obtain rfl := Option.some.inj runs
        have shown := (mem_visible_iff cleaned handle).mpr shows'
        rcases covered handle shown with corpus | web
        · left
          obtain ⟨citation, member, rfl⟩ := List.mem_map.mp corpus
          apply List.mem_map_of_mem
          apply mem_citedByChunk _ chosen _ citation member
          intro one oneIn two twoIn sameChunk
          have fresh (other : GroundedCitation) (otherIn : other ∈ chosen) :
              ∃ found ∈ evidence.reread, found.handle = other.handle := by
            have agrees := List.all_eq_true.mp confirmed other otherIn
            obtain ⟨found, inside, same⟩ := List.any_eq_true.mp agrees
            simp only [Bool.and_eq_true, decide_eq_true_eq] at same
            exact ⟨found, inside, same.1⟩
          exact evidence.distinct one ((chosenMem one).mp oneIn).1 two ((chosenMem two).mp twoIn).1
            sameChunk (fresh one oneIn) (fresh two twoIn)
        · exact Or.inr web
  · have bare := noSourcesFallback_bare
    generalize noSourcesFallback = fallback at runs bare
    obtain ⟨last, second, ends⟩ := Option.bind_eq_some_iff.mp runs
    simp only [List.map_nil, List.filter_nil, List.append_nil] at second
    have same := selectCitedHandles_unmarked parse fallback last.1 last.2 bare second
    have text : stored.text = fallback := by
      split at ends
      · exact (congrArg StoredAnswer.text (Option.some.inj ends)).symm
      · exact (congrArg StoredAnswer.text (Option.some.inj ends)).symm.trans same
    rw [text] at shows'
    exact absurd shows' (bare_shows_nothing bare handle)

end LumenCopilot.Handles
