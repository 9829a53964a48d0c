import LumenCopilot.Construction.Handles.Citations

namespace LumenCopilot.Handles

open Python

/-- A handle is a letter and a number without leading zeros. -/
def IsHandle (handle : Text) : Prop :=
  ∃ letter digit digits, handle = letter :: digit :: digits ∧ isHandleLetter letter = true ∧
    isLeadDigit digit = true ∧ ∀ c ∈ digits, isDecimal c = true

/-- This is the marker of a handle, before the rest of a text. -/
def marked (handle after : Text) : Text := '[' :: (handle ++ ']' :: after)

theorem isDecimal_bracket {c : Char} (decimal : isDecimal c = true) : c ≠ '[' ∧ c ≠ ']' := by
  constructor
  · rintro rfl
    exact absurd decimal (by decide)
  · rintro rfl
    exact absurd decimal (by decide)

variable {handle : Text}

theorem IsHandle.brackets (isHandle : IsHandle handle) : ∀ c ∈ handle, c ≠ '[' ∧ c ≠ ']' := by
  obtain ⟨letter, digit, digits, rfl, letters, lead, decimals⟩ := isHandle
  intro c member
  rcases List.mem_cons.mp member with rfl | later
  · constructor
    · rintro rfl
      exact absurd letters (by decide)
    · rintro rfl
      exact absurd letters (by decide)
  · rcases List.mem_cons.mp later with rfl | last
    · constructor
      · rintro rfl
        exact absurd lead (by decide)
      · rintro rfl
        exact absurd lead (by decide)
    · exact isDecimal_bracket (decimals c last)

/-- The pattern matches exactly the markers. -/
theorem matchHandle_eq_some_iff (text handle after : Text) :
    matchHandle text = some (handle, after) ↔ IsHandle handle ∧ text = marked handle after := by
  constructor
  · intro found
    unfold matchHandle at found
    split at found
    · next letter digit rest =>
        split at found
        · next legal =>
            rw [Bool.and_eq_true] at legal
            split at found
            · next after' rest' =>
                obtain ⟨rfl, rfl⟩ := Prod.mk.inj (Option.some.inj found)
                refine ⟨⟨letter, digit, _, rfl, legal.1, legal.2, ?_⟩, ?_⟩
                · intro c member
                  exact List.mem_takeWhile_imp member
                · rw [marked, List.cons_append, List.cons_append, ← rest',
                    List.takeWhile_append_dropWhile]
            · contradiction
        · contradiction
    · contradiction
  · intro ⟨isHandle, same⟩
    obtain ⟨letter, digit, digits, rfl, letters, lead, decimals⟩ := isHandle
    have stops : (']' :: after).takeWhile isDecimal = [] := rfl
    have rest : (digits ++ ']' :: after).dropWhile isDecimal = ']' :: after := by
      rw [List.dropWhile_append_of_pos decimals]
      rfl
    have taken : (digits ++ ']' :: after).takeWhile isDecimal = digits := by
      rw [List.takeWhile_append_of_pos decimals, stops, List.append_nil]
    rw [same]
    simp only [marked, List.cons_append, matchHandle, letters, lead, Bool.and_self, ↓reduceIte,
      rest, taken]

theorem marked_length (handle after : Text) :
    (marked handle after).length = handle.length + 2 + after.length := by
  simp only [marked, List.length_cons, List.length_append]
  omega

/-- A text is taken apart into the characters and the markers that the search finds. -/
inductive Item where
  | char (c : Char)
  | marker (handle : Text)

def Item.text : Item → Text
  | .char c => [c]
  | .marker handle => marked handle []

theorem matchHandle_shorter {c : Char} {rest handle after : Text}
    (found : matchHandle (c :: rest) = some (handle, after)) : after.length ≤ rest.length := by
  have size := congrArg List.length ((matchHandle_eq_some_iff _ _ _).mp found).2
  rw [marked_length, List.length_cons] at size
  omega

def items (text : Text) : List Item :=
  match text with
  | [] => []
  | c :: rest =>
      match found : matchHandle (c :: rest) with
      | some (handle, after) =>
          have := matchHandle_shorter found
          .marker handle :: items after
      | none => .char c :: items rest
termination_by text.length

@[simp] theorem items_nil : items [] = [] := by rw [items]

theorem items_char (c : Char) (rest : Text) (plain : matchHandle (c :: rest) = none) :
    items (c :: rest) = .char c :: items rest := by
  rw [items]
  split
  · next handle after found =>
      rw [plain] at found
      contradiction
  · rfl

theorem items_marked (handle after : Text) (isHandle : IsHandle handle) :
    items (marked handle after) = .marker handle :: items after := by
  have matched := (matchHandle_eq_some_iff (marked handle after) handle after).mpr ⟨isHandle, rfl⟩
  unfold marked at matched ⊢
  rw [items]
  split
  · next other after' found =>
      obtain ⟨rfl, rfl⟩ := Prod.mk.inj (Option.some.inj (matched.symm.trans found))
      rfl
  · next found =>
      rw [matched] at found
      contradiction

/-- This is the induction over the items of a text. -/
theorem items_induction {motive : Text → Prop} (nil : motive [])
    (marker : ∀ handle after, IsHandle handle → motive after → motive (marked handle after))
    (char : ∀ c rest, matchHandle (c :: rest) = none → motive rest → motive (c :: rest))
    (text : Text) : motive text := by
  induction size : text.length using Nat.strong_induction_on generalizing text with
  | _ n ih =>
      subst size
      cases text with
      | nil => exact nil
      | cons c rest =>
          cases found : matchHandle (c :: rest) with
          | none => exact char c rest found (ih rest.length (by simp) rest rfl)
          | some result =>
              obtain ⟨isHandle, same⟩ := (matchHandle_eq_some_iff _ result.1 result.2).mp found
              rw [same]
              apply marker _ _ isHandle
              apply ih result.2.length _ result.2 rfl
              rw [same, marked_length]
              omega

/-- These are the handles of the markers, from left to right. -/
def visible (text : Text) : List Text :=
  (items text).filterMap fun item =>
    match item with
    | .char _ => none
    | .marker handle => some handle

theorem visible_char (c : Char) (rest : Text) (plain : matchHandle (c :: rest) = none) :
    visible (c :: rest) = visible rest := by
  rw [visible, items_char c rest plain]
  rfl

theorem visible_marked (handle after : Text) (isHandle : IsHandle handle) :
    visible (marked handle after) = handle :: visible after := by
  rw [visible, items_marked handle after isHandle]
  rfl

/-- The character is in no marker but at its start. -/
def Separates (separator : Char) : Prop :=
  separator ≠ ']' ∧ ∀ handle, IsHandle handle → separator ∉ handle

theorem bracket_separates : Separates '[' :=
  ⟨by decide, fun _ isHandle member => (isHandle.brackets '[' member).1 rfl⟩

theorem space_separates : Separates ' ' := by
  refine ⟨by decide, ?_⟩
  intro handle isHandle member
  obtain ⟨letter, digit, digits, rfl, letters, lead, decimals⟩ := isHandle
  rcases List.mem_cons.mp member with rfl | later
  · exact absurd letters (by decide)
  · rcases List.mem_cons.mp later with rfl | last
    · exact absurd lead (by decide)
    · exact absurd (decimals ' ' last) (by decide)

/-- A handle that closes in a longer text closes before the separator. -/
theorem handle_before {separator : Char} (apart : separator ≠ ']') {rest after tail : Text}
    (absent : separator ∉ handle) (same : rest ++ separator :: after = handle ++ ']' :: tail) :
    ∃ others, rest = handle ++ ']' :: others := by
  induction handle generalizing rest with
  | nil =>
      cases rest with
      | nil => exact absurd (List.cons.inj same).1 apart
      | cons c others =>
          obtain ⟨rfl, -⟩ := List.cons.inj same
          exact ⟨others, rfl⟩
  | cons c handle ih =>
      cases rest with
      | nil =>
          obtain ⟨rfl, -⟩ := List.cons.inj same
          exact absurd List.mem_cons_self absent
      | cons d others =>
          obtain ⟨rfl, later⟩ := List.cons.inj same
          obtain ⟨final, rfl⟩ := ih (fun member => absent (List.mem_cons_of_mem d member)) later
          exact ⟨final, rfl⟩

/-- No marker goes across a separator. -/
theorem items_break {separator : Char} (separates : Separates separator) (before after : Text) :
    items (before ++ separator :: after) = items before ++ items (separator :: after) := by
  induction before using items_induction with
  | nil => rw [items_nil, List.nil_append, List.nil_append]
  | marker handle rest isHandle ih =>
      have joined : marked handle rest ++ separator :: after =
          marked handle (rest ++ separator :: after) := by
        simp [marked]
      rw [joined, items_marked _ _ isHandle, items_marked _ _ isHandle, ih, List.cons_append]
  | char c rest plain ih =>
      have apart : matchHandle (c :: (rest ++ separator :: after)) = none := by
        by_contra found
        obtain ⟨result, matched⟩ := Option.ne_none_iff_exists'.mp found
        obtain ⟨isHandle, same⟩ := (matchHandle_eq_some_iff _ result.1 result.2).mp matched
        obtain ⟨rfl, later⟩ := List.cons.inj same
        obtain ⟨others, rfl⟩ := handle_before separates.1 (separates.2 _ isHandle) later
        have again := (matchHandle_eq_some_iff (marked result.1 others) result.1 others).mpr
          ⟨isHandle, rfl⟩
        exact absurd (again.symm.trans plain) (by simp)
      rw [List.cons_append, items_char _ _ apart, items_char _ _ plain, ih, List.cons_append]

/-- The search finds exactly the markers that the text contains. -/
theorem mem_visible_iff (text handle : Text) :
    handle ∈ visible text ↔ IsHandle handle ∧ ∃ before after, text = before ++ marked handle after := by
  constructor
  · intro member
    induction text using items_induction with
    | nil => simp [visible] at member
    | marker other after isHandle ih =>
        rw [visible_marked _ _ isHandle] at member
        rcases List.mem_cons.mp member with rfl | later
        · exact ⟨isHandle, [], after, rfl⟩
        · obtain ⟨isOther, before, rest, rfl⟩ := ih later
          exact ⟨isOther, marked other before, rest, by simp [marked]⟩
    | char c rest plain ih =>
        rw [visible_char _ _ plain] at member
        obtain ⟨isHandle, before, after, rfl⟩ := ih member
        exact ⟨isHandle, c :: before, after, rfl⟩
  · intro ⟨isHandle, before, after, same⟩
    rw [same, visible, marked, items_break bracket_separates, List.filterMap_append]
    apply List.mem_append_right
    change handle ∈ visible (marked handle after)
    rw [visible_marked _ _ isHandle]
    exact List.mem_cons_self

/-- The cut keeps a character and the marker of a handle that is not gone. -/
def Item.kept (gone : Text → Bool) : Item → Bool
  | .char _ => true
  | .marker handle => !gone handle

def render (parts : List Item) : Text := parts.flatMap Item.text

/-- This is the text without the markers of the gone handles. -/
def cutText (gone : Text → Bool) (text : Text) : Text :=
  render ((items text).filter (Item.kept gone))

theorem cutText_nil (gone : Text → Bool) : cutText gone [] = [] := by
  rw [cutText, items_nil]
  rfl

theorem cutText_char (gone : Text → Bool) (c : Char) (rest : Text)
    (plain : matchHandle (c :: rest) = none) :
    cutText gone (c :: rest) = c :: cutText gone rest := by
  rw [cutText, items_char c rest plain]
  rfl

variable {gone : Text → Bool}

theorem cutText_gone (handle after : Text) (isHandle : IsHandle handle)
    (leaves : gone handle = true) : cutText gone (marked handle after) = cutText gone after := by
  rw [cutText, items_marked handle after isHandle,
    List.filter_cons_of_neg (by simp [Item.kept, leaves])]
  rfl

theorem cutText_stays (handle after : Text) (isHandle : IsHandle handle)
    (stays : gone handle = false) :
    cutText gone (marked handle after) = marked handle (cutText gone after) := by
  rw [cutText, items_marked handle after isHandle,
    List.filter_cons_of_pos (by simp [Item.kept, stays])]
  simp [render, Item.text, marked, cutText]

theorem cutText_break (gone : Text → Bool) (before after : Text) :
    cutText gone (before ++ '[' :: after) = cutText gone before ++ cutText gone ('[' :: after) := by
  simp only [cutText, items_break bracket_separates, render, List.filter_append,
    List.flatMap_append]

/-- The text is the core with markers of gone handles between its characters. -/
inductive Woven (gone : Text → Bool) : Text → Text → Prop
  | nil : Woven gone [] []
  | char {core text : Text} (c : Char) (rest : Woven gone core text) :
      Woven gone (c :: core) (c :: text)
  | marker {core text : Text} (handle : Text) (isHandle : IsHandle handle)
      (leaves : gone handle = true) (rest : Woven gone core text) :
      Woven gone core (marked handle text)

/-- The text has the marker of the handle but for gone markers between its brackets. -/
def Hollow (gone : Text → Bool) (text handle : Text) : Prop :=
  IsHandle handle ∧ ∃ before middle after, text = before ++ '[' :: (middle ++ ']' :: after) ∧
    Woven gone handle middle ∧ middle ≠ handle

variable {core middle : Text}

/-- The characters up to the first closing bracket have no marker between them. -/
theorem Woven.closes (woven : Woven gone core middle) (brackets : ∀ c ∈ core, c ≠ '[' ∧ c ≠ ']')
    {tail after : Text} (bracketsHandle : ∀ c ∈ handle, c ≠ '[' ∧ c ≠ ']')
    (same : middle ++ ']' :: after = handle ++ ']' :: tail) : middle = core := by
  induction woven generalizing handle with
  | nil => rfl
  | char c rest ih =>
      cases handle with
      | nil =>
          obtain ⟨bracket, -⟩ := List.cons.inj same
          exact absurd bracket (brackets c List.mem_cons_self).2
      | cons d handle =>
          obtain ⟨rfl, later⟩ := List.cons.inj same
          rw [ih (fun e member => brackets e (List.mem_cons_of_mem c member))
            (fun e member => bracketsHandle e (List.mem_cons_of_mem c member)) later]
  | marker other isHandle leaves rest ih =>
      cases handle with
      | nil =>
          obtain ⟨bracket, -⟩ := List.cons.inj same
          exact absurd bracket (by decide)
      | cons d handle =>
          obtain ⟨bracket, -⟩ := List.cons.inj same
          exact absurd bracket.symm (bracketsHandle d List.mem_cons_self).1

theorem Woven.cut {leaving : Text → Bool} (woven : Woven gone core middle)
    (more : ∀ handle, gone handle = true → leaving handle = true)
    (brackets : ∀ c ∈ core, c ≠ '[' ∧ c ≠ ']') (after : Text) :
    cutText leaving (middle ++ ']' :: after) = core ++ ']' :: cutText leaving after := by
  have bare (c : Char) (rest : Text) (other : c ≠ '[') : matchHandle (c :: rest) = none := by
    by_contra found
    obtain ⟨result, matched⟩ := Option.ne_none_iff_exists'.mp found
    obtain ⟨-, same⟩ := (matchHandle_eq_some_iff _ result.1 result.2).mp matched
    exact other (List.cons.inj same).1
  induction woven with
  | nil => exact cutText_char leaving ']' after (bare ']' after (by decide))
  | @char core text c rest ih =>
      rw [List.cons_append, cutText_char leaving c _ (bare c _ (brackets c List.mem_cons_self).1),
        ih fun e member => brackets e (List.mem_cons_of_mem c member)]
      rfl
  | @marker core text handle isHandle leaves rest ih =>
      have joined : marked handle text ++ ']' :: after = marked handle (text ++ ']' :: after) := by
        simp [marked]
      rw [joined, cutText_gone handle _ isHandle (more handle leaves), ih brackets]

variable {text : Text}

/-- A hollow marker closes up when the gone markers are cut. -/
theorem Hollow.closes {leaving : Text → Bool} (hollow : Hollow gone text handle)
    (more : ∀ other, gone other = true → leaving other = true) :
    handle ∈ visible (cutText leaving text) := by
  obtain ⟨isHandle, before, middle, after, rfl, woven, apart⟩ := hollow
  have opened : matchHandle ('[' :: (middle ++ ']' :: after)) = none := by
    by_contra found
    obtain ⟨result, matched⟩ := Option.ne_none_iff_exists'.mp found
    obtain ⟨isOther, same⟩ := (matchHandle_eq_some_iff _ result.1 result.2).mp matched
    exact apart (woven.closes isHandle.brackets isOther.brackets (List.cons.inj same).2)
  rw [mem_visible_iff]
  refine ⟨isHandle, cutText leaving before, cutText leaving after, ?_⟩
  rw [cutText_break, cutText_char leaving _ _ opened, woven.cut more isHandle.brackets]
  rfl

/-- A part of the cut text up to a closing bracket was woven with gone markers. -/
theorem cutText_woven (rest handle tail : Text) (brackets : ∀ c ∈ handle, c ≠ '[' ∧ c ≠ ']')
    (same : cutText gone rest = handle ++ ']' :: tail) :
    ∃ middle after, rest = middle ++ ']' :: after ∧ Woven gone handle middle := by
  induction rest using items_induction generalizing handle with
  | nil =>
      rw [cutText_nil] at same
      simp at same
  | marker other after isHandle ih =>
      cases leaves : gone other with
      | true =>
          rw [cutText_gone other after isHandle leaves] at same
          obtain ⟨middle, final, rfl, woven⟩ := ih handle brackets same
          exact ⟨marked other middle, final, by simp [marked], .marker other isHandle leaves woven⟩
      | false =>
          rw [cutText_stays other after isHandle leaves] at same
          cases handle with
          | nil =>
              obtain ⟨bracket, -⟩ := List.cons.inj same
              exact absurd bracket (by decide)
          | cons d handle =>
              obtain ⟨bracket, -⟩ := List.cons.inj same
              exact absurd bracket.symm (brackets d List.mem_cons_self).1
  | char c rest plain ih =>
      rw [cutText_char gone c rest plain] at same
      cases handle with
      | nil =>
          obtain ⟨rfl, -⟩ := List.cons.inj same
          exact ⟨[], rest, rfl, .nil⟩
      | cons d handle =>
          obtain ⟨rfl, later⟩ := List.cons.inj same
          obtain ⟨middle, after, rfl, woven⟩ :=
            ih handle (fun e member => brackets e (List.mem_cons_of_mem c member)) later
          exact ⟨c :: middle, after, rfl, .char c woven⟩

theorem Woven.widen (woven : Woven gone core middle) : Woven (fun _ => true) core middle := by
  induction woven with
  | nil => exact .nil
  | char c rest ih => exact .char c ih
  | marker handle isHandle leaves rest ih => exact .marker handle isHandle rfl ih

theorem Hollow.widen (hollow : Hollow gone text handle) : Hollow (fun _ => true) text handle := by
  obtain ⟨isHandle, before, middle, after, same, woven, apart⟩ := hollow
  exact ⟨isHandle, before, middle, after, same, woven.widen, apart⟩

theorem Hollow.extend (lead : Text) (hollow : Hollow gone text handle) :
    Hollow gone (lead ++ text) handle := by
  obtain ⟨isHandle, before, middle, after, rfl, rest⟩ := hollow
  exact ⟨isHandle, lead ++ before, middle, after, by simp, rest⟩

/-- Without hollow markers the cut text shows exactly the markers that stay. -/
theorem visible_cutText (text : Text) (solid : ∀ handle, ¬Hollow gone text handle) :
    visible (cutText gone text) = (visible text).filter fun handle => !gone handle := by
  induction text using items_induction with
  | nil => rw [cutText_nil, visible, items_nil]; rfl
  | marker handle after isHandle ih =>
      have later := ih fun other hollow => solid other (by
        have extended := hollow.extend (marked handle [])
        simpa [marked] using extended)
      rw [visible_marked handle after isHandle]
      cases leaves : gone handle with
      | true =>
          rw [cutText_gone handle after isHandle leaves, later,
            List.filter_cons_of_neg (by simp [leaves])]
      | false =>
          rw [cutText_stays handle after isHandle leaves, visible_marked _ _ isHandle, later,
            List.filter_cons_of_pos (by simp [leaves])]
  | char c rest plain ih =>
      have later := ih fun other hollow => solid other (hollow.extend [c])
      rw [cutText_char gone c rest plain, visible_char c rest plain, ← later]
      apply visible_char
      by_contra found
      obtain ⟨result, matched⟩ := Option.ne_none_iff_exists'.mp found
      obtain ⟨isHandle, same⟩ := (matchHandle_eq_some_iff _ result.1 result.2).mp matched
      obtain ⟨rfl, closes⟩ := List.cons.inj same
      obtain ⟨middle, after, rfl, woven⟩ := cutText_woven rest result.1 _ isHandle.brackets closes
      by_cases whole : middle = result.1
      · have again := (matchHandle_eq_some_iff (marked result.1 after) result.1 after).mpr
          ⟨isHandle, rfl⟩
        rw [whole] at plain
        exact absurd (again.symm.trans plain) (by simp)
      · exact solid result.1 ⟨isHandle, [], middle, after, rfl, woven, whole⟩

end LumenCopilot.Handles
