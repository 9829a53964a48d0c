import LumenCopilot.Proof.Handles.Markers
import LumenCopilot.Proof.Library.Lists

namespace LumenCopilot.Handles

open Library Python

/-- These are the matches of a text that is taken apart into items. -/
def spansFrom : Nat → List Item → List HandleMatch
  | _, [] => []
  | offset, .char _ :: rest => spansFrom (offset + 1) rest
  | offset, .marker handle :: rest =>
      ⟨offset, offset + (handle.length + 2), handle⟩ ::
        spansFrom (offset + (handle.length + 2)) rest

theorem findHandles_items (steps offset : Nat) (text : Text) (enough : text.length ≤ steps) :
    findHandles steps offset text = spansFrom offset (items text) := by
  induction text using items_induction generalizing steps offset with
  | nil =>
      rw [items_nil]
      cases steps with
      | zero => rfl
      | succ steps => rfl
  | marker handle after isHandle ih =>
      have matched := (matchHandle_eq_some_iff (marked handle after) handle after).mpr
        ⟨isHandle, rfl⟩
      rw [marked_length] at enough
      cases steps with
      | zero => omega
      | succ steps =>
          rw [items_marked handle after isHandle]
          unfold marked at matched ⊢
          rw [findHandles, matched]
          dsimp only
          rw [ih steps (offset + (handle.length + 2)) (by omega)]
          rfl
  | char c rest plain ih =>
      rw [List.length_cons] at enough
      cases steps with
      | zero => omega
      | succ steps =>
          rw [items_char c rest plain, findHandles, plain]
          exact ih steps (offset + 1) (by omega)

theorem handleMatches_items (text : Text) : handleMatches text = spansFrom 0 (items text) :=
  findHandles_items _ 0 text le_rfl

theorem spansFrom_shift (base offset : Nat) (parts : List Item) :
    spansFrom (base + offset) parts = (spansFrom offset parts).map fun found =>
      ⟨base + found.start, base + found.stop, found.handle⟩ := by
  induction parts generalizing offset with
  | nil => rfl
  | cons part rest ih =>
      cases part with
      | char c => exact ih (offset + 1)
      | marker handle =>
          have later := ih (offset + (handle.length + 2))
          rw [← Nat.add_assoc] at later
          rw [spansFrom, spansFrom, later, List.map_cons, Nat.add_assoc]

theorem spansFrom_append (offset : Nat) (first second : List Item) :
    spansFrom offset (first ++ second) =
      spansFrom offset first ++ spansFrom (offset + (render first).length) second := by
  induction first generalizing offset with
  | nil => simp [spansFrom, render]
  | cons part rest ih =>
      cases part with
      | char c =>
          rw [List.cons_append, spansFrom, spansFrom, ih]
          congr 2
          simp [render, Item.text]
          omega
      | marker handle =>
          rw [List.cons_append, spansFrom, spansFrom, ih, List.cons_append]
          congr 3
          simp [render, Item.text, marked]
          omega

theorem spansFrom_handles (offset : Nat) (text : Text) :
    (spansFrom offset (items text)).map HandleMatch.handle = visible text := by
  rw [visible]
  generalize items text = parts
  induction parts generalizing offset with
  | nil => rfl
  | cons part rest ih =>
      cases part with
      | char c => exact ih (offset + 1)
      | marker handle =>
          rw [spansFrom, List.map_cons, ih]
          rfl

/-- The matches start at different places. -/
theorem spansFrom_starts (offset : Nat) (parts : List Item) :
    (∀ found ∈ spansFrom offset parts, offset ≤ found.start) ∧
      ((spansFrom offset parts).map HandleMatch.start).Nodup := by
  induction parts generalizing offset with
  | nil => exact ⟨by simp [spansFrom], List.nodup_nil⟩
  | cons part rest ih =>
      cases part with
      | char c =>
          obtain ⟨low, distinct⟩ := ih (offset + 1)
          refine ⟨?_, distinct⟩
          intro found member
          have bound := low found member
          omega
      | marker handle =>
          obtain ⟨low, distinct⟩ := ih (offset + (handle.length + 2))
          rw [spansFrom]
          constructor
          · intro found member
            rcases List.mem_cons.mp member with rfl | later
            · exact le_rfl
            · have bound := low found later
              omega
          · rw [List.map_cons, List.nodup_cons]
            refine ⟨?_, distinct⟩
            intro member
            obtain ⟨found, later, same⟩ := List.mem_map.mp member
            have bound := low found later
            dsimp only at same
            omega

theorem render_items (text : Text) : render (items text) = text := by
  induction text using items_induction with
  | nil => rw [items_nil]; rfl
  | marker handle after isHandle ih =>
      have later : render (.marker handle :: items after) = marked handle [] ++ render (items after) :=
        rfl
      rw [items_marked handle after isHandle, later, ih]
      simp [marked]
  | char c rest plain ih =>
      have later : render (.char c :: items rest) = c :: render (items rest) := rfl
      rw [items_char c rest plain, later, ih]

/-- The removal of the spans from the last to the first leaves the items that stay. -/
theorem cutSpan_items (gone : Text → Bool) (before : Text) (parts : List Item) :
    (((spansFrom before.length parts).filter fun found => gone found.handle).map
        fun found => (found.start, found.stop)).foldr cutSpan (before ++ render parts) =
      before ++ render (parts.filter (Item.kept gone)) := by
  induction parts generalizing before with
  | nil => rfl
  | cons part rest ih =>
      cases part with
      | char c =>
          have later := ih (before ++ [c])
          rw [List.length_append, List.length_singleton, List.append_assoc,
            List.append_assoc] at later
          exact later
      | marker handle =>
          have size : (before ++ marked handle []).length = before.length + (handle.length + 2) := by
            rw [List.length_append, marked_length]
            rfl
          have later := ih (before ++ marked handle [])
          rw [size, List.append_assoc] at later
          have text : render (.marker handle :: rest) = marked handle [] ++ render rest := rfl
          rw [spansFrom, text]
          cases leaves : gone handle with
          | true =>
              rw [List.filter_cons_of_pos (by simpa using leaves), List.map_cons, List.foldr_cons,
                later, List.filter_cons_of_neg (by simp [Item.kept, leaves]), cutSpan,
                List.append_assoc, List.take_left, ← List.append_assoc, ← size, List.drop_left]
          | false =>
              have stays : render ((Item.marker handle :: rest).filter (Item.kept gone)) =
                  marked handle [] ++ render (rest.filter (Item.kept gone)) := by
                rw [List.filter_cons_of_pos (by simp [Item.kept, leaves])]
                rfl
              rw [List.filter_cons_of_neg (by simp [leaves]), later, stays, List.append_assoc]

/-- The inner loop selects the valid handles once and removes the places of the others. -/
theorem selectMarker_loop (available : List Text) (offsets : List (Nat × (Nat × Nat)))
    (place : HandleMatch → Nat × Nat) (own : List HandleMatch)
    (known : ∀ found ∈ own, offsets.lookup found.start = some (place found)) (seen : List Text)
    (selection : Selection) (before : selection.selected = seen.eraseDups) :
    (own.map fun found => (found.start, found.handle)).foldlM (selectMarker available offsets)
        selection =
      some ⟨(seen ++ (own.map HandleMatch.handle).filter fun handle =>
          !isInvalid available handle).eraseDups,
        selection.removed ++ (own.filter fun found => isInvalid available found.handle).map place⟩ := by
  induction own generalizing seen selection with
  | nil => simp [← before]
  | cons found rest ih =>
      have later := fun next member => known next (List.mem_cons_of_mem found member)
      rw [List.map_cons, List.foldlM_cons, List.map_cons]
      cases invalid : isInvalid available found.handle with
      | true =>
          have step : selectMarker available offsets selection (found.start, found.handle) =
              some { selection with removed := selection.removed ++ [place found] } := by
            rw [selectMarker, invalid, if_pos rfl, known found List.mem_cons_self]
            rfl
          have others := ih later seen
            { selection with removed := selection.removed ++ [place found] } before
          rw [step, Option.bind_eq_bind, Option.bind_some, others, List.filter_cons_of_neg (by simp [invalid]),
            List.filter_cons_of_pos (by simpa using invalid), List.map_cons, List.append_assoc]
          rfl
      | false =>
          have step : selectMarker available offsets selection (found.start, found.handle) =
              some { selection with selected := (seen ++ [found.handle]).eraseDups } := by
            rw [selectMarker, invalid, if_neg Bool.false_ne_true, eraseDups_concat, ← before]
            split
            · rfl
            · rfl
          rw [step, Option.bind_eq_bind, Option.bind_some, ih later (seen ++ [found.handle]) _ rfl,
            List.filter_cons_of_pos (by simp [invalid]), List.filter_cons_of_neg (by simp [invalid]),
            List.append_assoc]
          rfl

theorem lookup_map {κ ν : Type} [DecidableEq κ] (key : HandleMatch → κ) (value : HandleMatch → ν)
    (own : List HandleMatch) (distinct : (own.map key).Nodup) (found : HandleMatch)
    (member : found ∈ own) :
    (own.map fun other => (key other, value other)).lookup (key found) = some (value found) := by
  induction own with
  | nil => contradiction
  | cons first rest ih =>
      obtain ⟨fresh, others⟩ := List.nodup_cons.mp distinct
      rw [List.map_cons, List.lookup_cons]
      rcases List.mem_cons.mp member with rfl | later
      · simp
      · have apart : (key found == key first) = false := by
          rw [beq_eq_false_iff_ne]
          intro same
          exact fresh (same ▸ List.mem_map_of_mem later)
        rw [apart]
        exact ih others later

/-- An answer of letters, digits, spaces and square brackets. -/
def Plain (table : UnicodeTable) (text : Text) : Prop :=
  ∀ c ∈ text, c.isAlphanum = true ∨ (isAscii c = false ∧ table.isAlnum c = true) ∨ c = ' ' ∨
    c = '[' ∨ c = ']'

/-- The Markdown parser reports exactly the matches of the pattern in a plain text, as one inline
token without the surrounding spaces. -/
def ReportsMarkers (table : UnicodeTable) (parse : MarkdownParser) : Prop :=
  ∀ text, Plain table text →
    (parse text = [] ∧ ∀ c ∈ text, c = ' ') ∨
      ∃ lead content trail positions, text = lead ++ (content ++ trail) ∧ (∀ c ∈ lead, c = ' ') ∧
        (∀ c ∈ trail, c = ' ') ∧ parse text = [⟨content, some (0, 1), positions⟩] ∧
        InlineToken.citationMarkers ⟨content, some (0, 1), positions⟩ =
          (handleMatches content).map fun found => (found.start, found.handle)

theorem lineStarts_plain {table : UnicodeTable} (text : Text) (plain : Plain table text) :
    lineStarts text = [0, text.length] := by
  have unbroken (offset : Nat) : lineEnds offset text = [] := by
    induction text generalizing offset with
    | nil => rfl
    | cons c rest ih =>
        have later := ih fun d member => plain d (List.mem_cons_of_mem c member)
        have here : c ≠ '\r' ∧ c ≠ '\n' := by
          constructor
          · rintro rfl
            rcases plain '\r' List.mem_cons_self with letter | ⟨ascii, -⟩ | space | opens | closes
            all_goals contradiction
          · rintro rfl
            rcases plain '\n' List.mem_cons_self with letter | ⟨ascii, -⟩ | space | opens | closes
            all_goals contradiction
        unfold lineEnds
        split
        · contradiction
        · next same => exact absurd (List.cons.inj same).1 here.1
        · next same =>
            obtain ⟨rfl, rfl⟩ := List.cons.inj same
            rw [if_neg (by simp [here]), later]
  rw [lineStarts, unbroken]
  rfl

theorem items_spaces (spaces : Text) (blank : ∀ c ∈ spaces, c = ' ') (offset : Nat) :
    spansFrom offset (items spaces) = [] := by
  induction spaces generalizing offset with
  | nil => rw [items_nil]; rfl
  | cons c rest ih =>
      obtain rfl := blank c List.mem_cons_self
      rw [items_char ' ' rest rfl]
      exact ih (fun d member => blank d (List.mem_cons_of_mem ' ' member)) (offset + 1)

theorem spansFrom_lead (lead text : Text) (blank : ∀ c ∈ lead, c = ' ') (offset : Nat) :
    spansFrom offset (items (lead ++ text)) = spansFrom (offset + lead.length) (items text) := by
  induction lead generalizing offset with
  | nil => rfl
  | cons c rest ih =>
      obtain rfl := blank c List.mem_cons_self
      rw [List.cons_append, items_char ' ' _ rfl]
      refine (ih (fun d member => blank d (List.mem_cons_of_mem ' ' member)) (offset + 1)).trans ?_
      rw [List.length_cons]
      congr 1
      omega

theorem spansFrom_trail (text trail : Text) (blank : ∀ c ∈ trail, c = ' ') (offset : Nat) :
    spansFrom offset (items (text ++ trail)) = spansFrom offset (items text) := by
  cases trail with
  | nil => rw [List.append_nil]
  | cons c rest =>
      obtain rfl := blank c List.mem_cons_self
      rw [items_break space_separates, spansFrom_append, items_spaces _ blank, List.append_nil]

/-- On a plain answer the selection is the cut of the invalid markers. -/
theorem selectCitedHandles_plain {table : UnicodeTable} {parse : MarkdownParser}
    (reports : ReportsMarkers table parse) (answer : Text) (plain : Plain table answer)
    (available : List Text) :
    selectCitedHandles parse answer available =
      some (cutText (isInvalid available) answer,
        ((visible answer).filter fun handle => !isInvalid available handle).eraseDups) := by
  have whole := cutSpan_items (isInvalid available) [] (items answer)
  rw [List.length_nil, List.nil_append, render_items, List.nil_append] at whole
  have shown := spansFrom_handles 0 answer
  rcases reports answer plain with ⟨empty, blank⟩ | ⟨lead, content, trail, positions, text, before,
    after, parsed, reported⟩
  · rw [items_spaces answer blank] at whole shown
    rw [selectCitedHandles, empty, ← shown, cutText, ← whole]
    rfl
  · have original : spansFrom 0 (items answer) = (handleMatches content).map fun found =>
        ⟨lead.length + found.start, lead.length + found.stop, found.handle⟩ := by
      have moved := spansFrom_shift lead.length 0 (items content)
      rw [text, spansFrom_lead lead _ before, spansFrom_trail content trail after,
        handleMatches_items, ← moved, Nat.zero_add, Nat.add_zero]
    have found : handleMatchesIn answer 0 answer.length = spansFrom 0 (items answer) := by
      rw [handleMatchesIn, List.take_length, List.drop_zero, handleMatches_items]
      simp
    have distinct : ((handleMatches content).map HandleMatch.start).Nodup := by
      rw [handleMatches_items]
      exact (spansFrom_starts 0 (items content)).2
    have loop := selectMarker_loop available
      ((handleMatches content).map fun own =>
        (own.start, (lead.length + own.start, lead.length + own.stop)))
      (fun own => (lead.length + own.start, lead.length + own.stop)) (handleMatches content)
      (fun own member => lookup_map _ _ _ distinct own member) [] {} rfl
    have token : selectToken answer available {} ⟨content, some (0, 1), positions⟩ =
        some ⟨((visible answer).filter fun handle => !isInvalid available handle).eraseDups,
          ((spansFrom 0 (items answer)).filter fun own => isInvalid available own.handle).map
            fun own => (own.start, own.stop)⟩ := by
      have first : (lineStarts answer)[0]? = some 0 := rfl
      have last : (lineStarts answer)[1]? = some answer.length := by
        rw [lineStarts_plain answer plain]
        rfl
      have zipped : ((handleMatches content).map HandleMatch.start).zip
          ((spansFrom 0 (items answer)).map fun own => (own.start, own.stop)) =
            (handleMatches content).map fun own =>
              (own.start, (lead.length + own.start, lead.length + own.stop)) := by
        rw [original, List.map_map, List.zip_map']
        rfl
      have same : (handleMatches content).length = (spansFrom 0 (items answer)).length := by
        rw [original, List.length_map]
      have handles : (handleMatches content).map HandleMatch.handle = visible answer := by
        rw [← shown, original, List.map_map]
        rfl
      have places : ((spansFrom 0 (items answer)).filter fun own =>
          isInvalid available own.handle).map (fun own => (own.start, own.stop)) =
            ((handleMatches content).filter fun own => isInvalid available own.handle).map
              fun own => (lead.length + own.start, lead.length + own.stop) := by
        rw [original, List.filter_map, List.map_map]
        rfl
      rw [selectToken]
      dsimp only
      rw [first, last, Option.bind_eq_bind, Option.bind_some, Option.bind_some, found, if_neg (not_not.mpr same), zipped, reported, loop, handles, places]
      rfl
    rw [selectCitedHandles, parsed, List.foldlM_cons, token]
    change some (List.foldr cutSpan answer _, _) = _
    rw [whole]
    rfl

end LumenCopilot.Handles
