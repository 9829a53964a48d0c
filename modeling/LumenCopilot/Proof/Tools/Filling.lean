import LumenCopilot.Proof.Tools.Schema

namespace LumenCopilot.Tools.Schema

open Python

variable {draft : Draft}

/-- These are nulls for the optional fields that an object does not have. -/
def missing (required : List Text) (declarations : List (Text × Schema)) (fields : List (Text × Json)) :
    List (Text × Json) :=
  (declarations.filter fun declaration =>
    !required.contains declaration.1 && !(fields.map Prod.fst).contains declaration.1).map
      fun declaration => (declaration.1, .null)

mutual

/-- Every missing optional field is filled with null, at every depth; a branch that describes the
value is the first one that accepts it. -/
def fillValue (draft : Draft) : Schema → Json → Json
  | ⟨_, properties, required, items, _, anyOf, _⟩, value =>
      fillAny draft anyOf value (match value with
        | .dict fields => .dict (fields.map (fun field =>
            (field.1, fillProperties draft properties field.1 field.2)) ++
              missing required (properties.getD []) fields)
        | .list values => .list (values.map fun value => fillItem draft items value)
        | value => value)

def fillProperties (draft : Draft) : Option (List (Text × Schema)) → Text → Json → Json
  | none, _, item => item
  | some declarations, name, item => fillField draft declarations name item

def fillField (draft : Draft) : List (Text × Schema) → Text → Json → Json
  | [], _, item => item
  | (declared, child) :: rest, name, item =>
      if declared = name then fillValue draft child item else fillField draft rest name item

def fillItem (draft : Draft) : Option Schema → Json → Json
  | none, item => item
  | some child, item => fillValue draft child item

def fillAny (draft : Draft) : List Schema → Json → Json → Json
  | [], _, filled => filled
  | branch :: rest, value, filled =>
      if valid draft branch.closed value then fillValue draft branch value
      else fillAny draft rest value filled

end

/-- This is the first branch that accepts the value. -/
def taken (draft : Draft) (branches : List Schema) (value : Json) : Option Schema :=
  branches.find? fun branch => valid draft branch.closed value

/-- No optional field of the value is null, under the branches that accept it. -/
def NullFree (draft : Draft) (schema : Schema) (value : Json) : Prop :=
  (∀ name item, (name, item) ∈ entries value → ∀ child, (_ : schema.declared name = some child) →
    (name ∉ schema.required → item ≠ .null) ∧ NullFree draft child item) ∧
  (∀ item ∈ elements value, ∀ child, (_ : schema.items = some child) → NullFree draft child item) ∧
  ∀ branch, (_ : taken draft schema.anyOf value = some branch) → NullFree draft branch value
termination_by sizeOf schema
decreasing_by
  · exact sizeOf_declared ‹_›
  · exact sizeOf_items ‹_›
  · exact sizeOf_anyOf (List.mem_of_find?_eq_some ‹_›)

/-- This is the schema of a field; anything is allowed in one that is not declared. -/
def field (schema : Schema) (name : Text) : Schema := (schema.declared name).getD {}

def element (schema : Schema) : Schema := schema.items.getD {}

/-- An object may have the field. -/
def Permits (schema : Schema) (name : Text) : Prop :=
  schema.declared name ≠ none ∨ schema.isOpen = true

/-- The schema declares the field and does not require it. -/
def Optional (schema : Schema) (name : Text) : Prop :=
  schema.declared name ≠ none ∧ name ∉ schema.required

/-- Both schemas have no branches and take a value of the kind. -/
structure Meet (draft : Draft) (first second : Schema) (value : Json) : Prop where
  plain : first.anyOf = []
  alsoPlain : second.anyOf = []
  takes : typed draft first.types value = true
  alsoTakes : typed draft second.types value = true

/-- A field is optional for the first schema, and the second one keeps a null in it, at the same
place. -/
inductive Confuses (draft : Draft) : Schema → Schema → Prop where
  | here {first second : Schema} {name : Text} (meet : Meet draft first second (.dict []))
      (optional : first.Optional name) (permits : second.Permits name)
      (kept : ¬ second.Optional name) (null : Fits draft .closed (second.field name) .null) :
      Confuses draft first second
  | field {first second : Schema} {name : Text} (meet : Meet draft first second (.dict []))
      (permits : first.Permits name) (alsoPermits : second.Permits name)
      (inside : Confuses draft (first.field name) (second.field name)) : Confuses draft first second
  | item {first second : Schema} (meet : Meet draft first second (.list []))
      (inside : Confuses draft first.element second.element) : Confuses draft first second
  | left {first second branch : Schema} (listed : branch ∈ first.anyOf)
      (inside : Confuses draft branch second) : Confuses draft first second
  | right {first second branch : Schema} (listed : branch ∈ second.anyOf)
      (inside : Confuses draft first branch) : Confuses draft first second

/-- Branches have no declarations beside them. -/
def StandsAlone (schema : Schema) : Prop :=
  schema.anyOf ≠ [] → schema.fields = [] ∧ schema.required = [] ∧ schema.items = none ∧
    schema.isOpen = true

/-- No branch keeps a null in an optional field of another one. -/
def Distinct (draft : Draft) (schema : Schema) : Prop :=
  ∀ first ∈ schema.anyOf, ∀ second ∈ schema.anyOf, first ≠ second → ¬ Confuses draft first second

theorem fillField_eq (declarations : List (Text × Schema)) (name : Text) (item : Json) :
    fillField draft declarations name item =
      match declarations.lookup name with
      | some child => fillValue draft child item
      | none => item := by
  induction declarations with
  | nil => rfl
  | cons first rest ih =>
      obtain ⟨first, schema⟩ := first
      rw [fillField, List.lookup_cons]
      by_cases same : first = name
      · simp [same]
      · rw [if_neg same, ih, beq_eq_false_iff_ne.mpr (Ne.symm same)]

/-- This is the filling of the fields and items, without the branches. -/
def filled (draft : Draft) (schema : Schema) : Json → Json
  | .dict fields => .dict (fields.map (fun entry =>
      (entry.1, fillValue draft (schema.field entry.1) entry.2)) ++
        missing schema.required schema.fields fields)
  | .list values => .list (values.map (fillValue draft schema.element))
  | value => value

theorem fillAny_eq (branches : List Schema) (value other : Json) :
    fillAny draft branches value other =
      match taken draft branches value with
      | some branch => fillValue draft branch value
      | none => other := by
  induction branches with
  | nil => rfl
  | cons first rest ih =>
      rw [fillAny, taken, List.find?_cons]
      by_cases here : valid draft first.closed value = true
      · rw [if_pos here, here]
      · rw [if_neg here, Bool.eq_false_iff.mpr here, ih, taken]

/-- The schema without keywords. -/
theorem fillValue_empty (value : Json) : fillValue draft {} value = value := by
  cases value with
  | dict fields => simp [fillValue, fillAny, fillProperties, missing]
  | list values => simp [fillValue, fillAny, fillItem]
  | _ => rfl

theorem fillValue_eq (schema : Schema) (value : Json) :
    fillValue draft schema value = fillAny draft schema.anyOf value (filled draft schema value) := by
  obtain ⟨types, properties, required, items, enum, anyOf, additional⟩ := schema
  cases value with
  | dict fields =>
      have inside : ∀ entry : Text × Json, fillProperties draft properties entry.1 entry.2 =
          fillValue draft (field ⟨types, properties, required, items, enum, anyOf, additional⟩ entry.1)
            entry.2 := by
        intro entry
        cases properties with
        | none => exact (fillValue_empty entry.2).symm
        | some declarations =>
            rw [fillProperties, fillField_eq]
            show _ = fillValue draft ((declarations.lookup entry.1).getD {}) entry.2
            cases declarations.lookup entry.1 with
            | none => exact (fillValue_empty entry.2).symm
            | some child => rfl
      rw [fillValue]
      simp only [inside]
      rfl
  | list values =>
      have inside : ∀ item : Json, fillItem draft items item =
          fillValue draft (element ⟨types, properties, required, items, enum, anyOf, additional⟩)
            item := by
        intro item
        cases items with
        | none => exact (fillValue_empty item).symm
        | some child => rfl
      rw [fillValue]
      simp only [inside]
      rfl
  | _ => rfl

/-- These are the parts of `NullFree`. -/
structure Clear (draft : Draft) (schema : Schema) (value : Json) : Prop where
  known : ∀ name item, (name, item) ∈ entries value → ∀ child, schema.declared name = some child →
    (name ∉ schema.required → item ≠ .null) ∧ NullFree draft child item
  items : ∀ item ∈ elements value, ∀ child, schema.items = some child → NullFree draft child item
  branch : ∀ branch, taken draft schema.anyOf value = some branch → NullFree draft branch value

variable {value : Json} {schema : Schema}

theorem nullFree_iff : NullFree draft schema value ↔ Clear draft schema value := by
  rw [NullFree]
  exact ⟨fun ⟨known, items, branch⟩ => ⟨known, items, branch⟩,
    fun clear => ⟨clear.known, clear.items, clear.branch⟩⟩

theorem fits_empty (reading : Reading) (value : Json) : Fits draft reading {} value := by
  apply fits_iff.mpr
  apply Obeys.mk
  · rfl
  · rfl
  · have none : names reading {} = [] := by
      cases reading <;> rfl
    rw [none]
    exact fun _ _ _ member => absurd member List.not_mem_nil
  · exact fun _ _ _ _ finds => absurd finds nofun
  · exact fun _ _ _ _ => rfl
  · exact fun _ _ _ finds => absurd finds nofun
  · exact Or.inl rfl

theorem nullFree_empty (value : Json) : NullFree draft {} value :=
  nullFree_iff.mpr ⟨fun _ _ _ _ finds => absurd finds nofun, fun _ _ _ finds => absurd finds nofun, nofun⟩

theorem legacyValue_empty (value : Json) : legacyValue draft false {} value = value := by
  cases value with
  | dict fields => simp [legacyValue, legacyAny, legacyProperties]
  | list values => simp [legacyValue, legacyAny, legacyItem]
  | _ => rfl

/-- These are the conditions on every schema that stands in the first one. -/
def Separate (draft : Draft) (schema : Schema) : Prop :=
  ∀ part, Part schema part → part.StandsAlone ∧ part.Distinct draft

theorem separate_empty : Separate draft {} := by
  intro part inside
  cases inside with
  | whole schema => exact ⟨fun branches => absurd rfl branches, fun _ member => absurd member List.not_mem_nil⟩
  | field finds inside => exact absurd finds nofun
  | item finds inside => exact absurd finds nofun
  | branch listed inside => exact absurd listed List.not_mem_nil

theorem Separate.field (separate : Separate draft schema) (name : Text) :
    Separate draft (schema.field name) := by
  rw [Schema.field]
  cases finds : schema.declared name with
  | none => exact separate_empty
  | some child => exact fun part inside => separate part (.field finds inside)

theorem Separate.element (separate : Separate draft schema) : Separate draft schema.element := by
  rw [Schema.element]
  cases finds : schema.items with
  | none => exact separate_empty
  | some child => exact fun part inside => separate part (.item finds inside)

theorem Separate.branch {branch : Schema} (separate : Separate draft schema)
    (listed : branch ∈ schema.anyOf) : Separate draft branch :=
  fun part inside => separate part (.branch listed inside)

variable {name : Text} {item : Json}

theorem Fits.field (fits : Fits draft .closed schema value) (member : (name, item) ∈ entries value)
    :
    schema.Permits name ∧ Fits draft .closed (schema.field name) item := by
  have obeys := fits_iff.mp fits
  rw [Permits, Schema.field]
  cases finds : schema.declared name with
  | none => exact ⟨Or.inr (obeys.unknown name item member finds), fits_empty _ _⟩
  | some child =>
      rcases obeys.known name item member child finds with inside | ⟨closed, -⟩
      · exact ⟨Or.inl nofun, inside⟩
      · exact absurd rfl closed

theorem Fits.element {reading : Reading} (fits : Fits draft reading schema value)
    (member : item ∈ elements value) : Fits draft reading schema.element item := by
  rw [Schema.element]
  cases finds : schema.items with
  | none => exact fits_empty _ _
  | some child => exact (fits_iff.mp fits).items item member child finds

theorem NullFree.field (free : NullFree draft schema value) (member : (name, item) ∈ entries value)
    :
    (schema.Optional name → item ≠ .null) ∧ NullFree draft (schema.field name) item := by
  rw [Schema.field]
  cases finds : schema.declared name with
  | none => exact ⟨fun optional => absurd finds optional.1, nullFree_empty item⟩
  | some child =>
      have clear := (nullFree_iff.mp free).known name item member child finds
      exact ⟨fun optional => clear.1 optional.2, clear.2⟩

theorem NullFree.element (free : NullFree draft schema value) (member : item ∈ elements value) :
    NullFree draft schema.element item := by
  rw [Schema.element]
  cases finds : schema.items with
  | none => exact nullFree_empty item
  | some child => exact (nullFree_iff.mp free).items item member child finds

/-- Without placeholders only nulls are omitted. -/
theorem omits_false (enum : Option (List Scalar)) (value : Json) :
    omits false enum value = true ↔ value = .null := by
  cases value <;> simp [omits]

theorem normalised_eq (schema : Schema) (name : Text) (item : Json)
    (kept : ¬ (schema.Optional name ∧ item = .null)) :
    normalised draft false schema name item =
      some (name, legacyValue draft false (schema.field name) item) := by
  rw [normalised, Schema.field]
  cases finds : schema.declared name with
  | none => exact congrArg some (congrArg (Prod.mk name) (legacyValue_empty item).symm)
  | some child =>
      apply if_neg
      intro omitted
      obtain ⟨optional, null⟩ := (Bool.and_eq_true _ _).mp omitted
      exact kept ⟨⟨by simp [finds], by simpa using optional⟩, (omits_false child.enum item).mp null⟩

theorem normalised_null (optional : schema.Optional name) :
    normalised draft false schema name .null = none := by
  rw [normalised]
  obtain ⟨child, finds⟩ := Option.ne_none_iff_exists'.mp optional.1
  simp [finds, optional.2, omits]

/-- The filling keeps nulls and adds none in their place. -/
theorem fillValue_eq_null (schema : Schema) (value : Json) :
    fillValue draft schema value = .null ↔ value = .null := by
  induction schema using induct with
  | step schema known items branches =>
    rw [fillValue_eq, fillAny_eq]
    cases takes : taken draft schema.anyOf value with
    | none => cases value <;> simp [filled]
    | some branch => exact branches branch (List.mem_of_find?_eq_some takes)

variable {fields : List (Text × Json)}

/-- The fields of the object and the nulls that fill it are normalised to the object. -/
theorem filterMap_filled {filling : Schema}
    (returns : ∀ name item, (name, item) ∈ fields → normalised draft false schema name
      (fillValue draft (filling.field name) item) = some (name, item))
    (drops : ∀ name, filling.Optional name → name ∉ fields.map Prod.fst →
      normalised draft false schema name .null = none) :
    (fields.map (fun entry => (entry.1, fillValue draft (filling.field entry.1) entry.2)) ++
      missing filling.required filling.fields fields).filterMap
        (fun entry => normalised draft false schema entry.1 entry.2) = fields := by
  have dropped : (missing filling.required filling.fields fields).filterMap
      (fun entry => normalised draft false schema entry.1 entry.2) = [] := by
    apply List.filterMap_eq_nil_iff.mpr
    intro entry member
    obtain ⟨⟨name, child⟩, kept, rfl⟩ := List.mem_map.mp member
    obtain ⟨listed, test⟩ := List.mem_filter.mp kept
    simp only [Bool.and_eq_true, Bool.not_eq_true', List.contains_eq_mem, decide_eq_false_iff_not] at test
    apply drops name ⟨?_, test.1⟩ test.2
    intro misses
    exact absurd rfl (List.lookup_eq_none_iff.mp misses (name, child) listed |> bne_iff_ne.mp)
  have returned : fields.filterMap ((fun entry => normalised draft false schema entry.1 entry.2) ∘
      fun entry => (entry.1, fillValue draft (filling.field entry.1) entry.2)) = fields := by
    rw [List.filterMap_congr (fun entry member => returns entry.1 entry.2 member)]
    exact List.filterMap_some
  rw [List.filterMap_append, List.filterMap_map, dropped, returned, List.append_nil]

theorem StandsAlone.shallow (alone : schema.StandsAlone) (branches : schema.anyOf ≠ [])
    (placeholders : Bool) (value : Json) :
    Schema.shallow draft placeholders schema value = value := by
  obtain ⟨fields, -, items, -⟩ := alone branches
  cases value with
  | dict entries =>
      have stays : ∀ entry : Text × Json,
          normalised draft placeholders schema entry.1 entry.2 = some entry := by
        intro entry
        rw [normalised, declared, fields]
        rfl
      rw [Schema.shallow]
      simp only [stays, List.filterMap_some]
  | list values => simp [Schema.shallow, items, legacyItem]
  | _ => rfl

/-- The schema has no keywords for fields and items and no branches. -/
structure Vacant (schema : Schema) : Prop where
  fields : schema.fields = []
  required : schema.required = []
  items : schema.items = none
  anyOf : schema.anyOf = []

variable {placeholders : Bool} {first second : Schema}

theorem Vacant.not_clash_left (vacant : first.Vacant) :
    ¬ Clash draft placeholders first second := by
  intro clash
  induction clash with
  | here required => exact absurd (vacant.required ▸ required) List.not_mem_nil
  | field known => simp [declared, vacant.fields] at known
  | item known => exact absurd (vacant.items.symm.trans known) (by simp)
  | left listed => exact absurd (vacant.anyOf ▸ listed) List.not_mem_nil
  | right listed inside ih => exact ih vacant

theorem Vacant.not_clash_right (vacant : second.Vacant) :
    ¬ Clash draft placeholders first second := by
  intro clash
  induction clash with
  | here required finds => simp [declared, vacant.fields] at finds
  | field known finds => simp [declared, vacant.fields] at finds
  | item known finds => exact absurd (vacant.items.symm.trans finds) (by simp)
  | left listed inside ih => exact ih vacant
  | right listed => exact absurd (vacant.anyOf ▸ listed) List.not_mem_nil

/-- Branches that stand alone agree with the schema. -/
theorem Separate.agrees (separate : Separate draft schema) :
    ∀ part, Part schema part → part.Agrees draft placeholders := by
  intro part inside branch listed
  obtain ⟨fields, required, items, -⟩ :=
    (separate part inside).1 (List.ne_nil_of_mem listed)
  have vacant : part.own.Vacant := ⟨fields, required, items, rfl⟩
  exact ⟨vacant.not_clash_left, vacant.not_clash_right⟩

theorem Fits.typed {reading : Reading} (fits : Fits draft reading schema value) :
    Schema.typed draft schema.types value = true :=
  (fits_iff.mp fits).typed

theorem Fits.taken (fits : Fits draft .closed schema value) (branches : schema.anyOf ≠ []) :
    ∃ branch ∈ schema.anyOf,
      Schema.taken draft schema.anyOf value = some branch ∧ Fits draft .closed branch value := by
  rcases (fits_iff.mp fits).branch with plain | ⟨branch, member, inside⟩
  · exact absurd plain branches
  · cases finds : Schema.taken draft schema.anyOf value with
    | none =>
        have refused := List.find?_eq_none.mp finds branch member
        exact absurd ((valid_close false branch value).mpr inside) refused
    | some first =>
        have accepted := List.find?_some finds
        exact ⟨first, List.mem_of_find?_eq_some finds, rfl, (valid_close false first value).mp accepted⟩

theorem mem_missing (optional : schema.Optional name) (absent : name ∉ fields.map Prod.fst) :
    (name, .null) ∈ missing schema.required schema.fields fields := by
  obtain ⟨child, finds⟩ := Option.ne_none_iff_exists'.mp optional.1
  have listed : (name, child) ∈ schema.fields := by
    obtain ⟨before, after, same, -⟩ := List.lookup_eq_some_iff.mp finds
    rw [same]
    exact List.mem_append_right before List.mem_cons_self
  apply List.mem_map.mpr
  refine ⟨(name, child), List.mem_filter.mpr ⟨listed, ?_⟩, rfl⟩
  simp [optional.2, absent]

theorem legacyItem_eq (schema : Schema) (item : Json) :
    legacyItem draft false schema.items item = legacyValue draft false schema.element item := by
  rw [element]
  cases schema.items with
  | none => exact (legacyValue_empty item).symm
  | some child => rfl

theorem sizeOf_entry (member : (name, item) ∈ fields) :
    sizeOf item < sizeOf (Json.dict fields) := by
  have within := List.sizeOf_lt_of_mem member
  simp at within ⊢
  omega

theorem sizeOf_element {values : List Json} (member : item ∈ values) :
    sizeOf item < sizeOf (Json.list values) := by
  have within := List.sizeOf_lt_of_mem member
  simp
  omega

/-- A schema that accepts the normalised filling of a value under another one recovers the value. -/
theorem legacyValue_other (first second : Schema) (value : Json) (separate : Separate draft first)
    (alsoSeparate : Separate draft second) (apart : ¬ Confuses draft first second)
    (alsoApart : ¬ Confuses draft second first) (fits : Fits draft .closed second value)
    (free : NullFree draft second value)
    (accepted : Fits draft .closed first
      (legacyValue draft false first (fillValue draft second value))) :
    legacyValue draft false first (fillValue draft second value) = value := by
  by_cases plain : first.anyOf = []
  · by_cases alsoPlain : second.anyOf = []
    · have same : legacyValue draft false first (fillValue draft second value) =
          shallow draft false first (filled draft second value) := by
        rw [legacyValue_eq, fillValue_eq, plain, alsoPlain]
        rfl
      rw [same] at accepted ⊢
      have takes := accepted.typed
      have alsoTakes := fits.typed
      cases value with
      | dict fields =>
          have meet : Meet draft first second (.dict []) := ⟨plain, alsoPlain, takes, alsoTakes⟩
          have reverse : Meet draft second first (.dict []) := ⟨alsoPlain, plain, alsoTakes, takes⟩
          have holds : ∀ name item, (name, item) ∈ (filled draft second (.dict fields) |> entries) →
              ¬ (first.Optional name ∧ item = .null) → first.Permits name ∧
                Fits draft .closed (first.field name)
                  (legacyValue draft false (first.field name) item) := by
            intro name item member kept
            apply accepted.field
            exact List.mem_filterMap.mpr ⟨(name, item), member, normalised_eq first name item kept⟩
          refine congrArg Json.dict (filterMap_filled ?_ ?_)
          · intro name item member
            obtain ⟨permits, inside⟩ := fits.field member
            obtain ⟨present, clear⟩ := free.field member
            have kept : ¬ (first.Optional name ∧ fillValue draft (second.field name) item = .null) := by
              rintro ⟨optional, null⟩
              obtain rfl := (fillValue_eq_null _ item).mp null
              exact apart (.here meet optional permits (fun other => present other rfl) inside)
            obtain ⟨alsoPermits, again⟩ := holds name _ (List.mem_append_left _
              (List.mem_map.mpr ⟨(name, item), member, rfl⟩)) kept
            have smaller := sizeOf_entry member
            rw [normalised_eq first name _ kept,
              legacyValue_other (first.field name) (second.field name) item (separate.field name)
                (alsoSeparate.field name)
                (fun confuses => apart (.field meet alsoPermits permits confuses))
                (fun confuses => alsoApart (.field reverse permits alsoPermits confuses)) inside clear
                again]
          · intro name optional absent
            by_cases dropped : first.Optional name
            · exact normalised_null dropped
            · obtain ⟨permits, null⟩ := holds name .null
                (List.mem_append_right _ (mem_missing optional absent)) (fun both => dropped both.1)
              rw [legacyValue_null] at null
              exact absurd (.here reverse optional permits dropped null) alsoApart
      | list values =>
          have meet : Meet draft first second (.list []) := ⟨plain, alsoPlain, takes, alsoTakes⟩
          have reverse : Meet draft second first (.list []) := ⟨alsoPlain, plain, alsoTakes, takes⟩
          apply congrArg Json.list
          rw [List.map_map]
          conv_rhs => rw [← List.map_id values]
          apply List.map_congr_left
          intro item member
          have smaller := sizeOf_element member
          have again : Fits draft .closed first.element
              (legacyItem draft false first.items (fillValue draft second.element item)) :=
            accepted.element (List.mem_map_of_mem (List.mem_map_of_mem member))
          rw [legacyItem_eq] at again
          rw [Function.comp_apply, legacyItem_eq]
          exact legacyValue_other first.element second.element item separate.element
            alsoSeparate.element (fun confuses => apart (.item meet confuses))
            (fun confuses => alsoApart (.item reverse confuses)) (fits.element member)
            (free.element member) again
      | _ => rfl
    · obtain ⟨branch, member, finds, inside⟩ := fits.taken alsoPlain
      have same : fillValue draft second value = fillValue draft branch value := by
        rw [fillValue_eq, fillAny_eq, finds]
      rw [same] at accepted ⊢
      have smaller := sizeOf_anyOf member
      exact legacyValue_other first branch value separate (alsoSeparate.branch member)
        (fun confuses => apart (.right member confuses))
        (fun confuses => alsoApart (.left member confuses)) inside
        ((nullFree_iff.mp free).branch branch finds) accepted
  · have alone := (separate first (.whole first)).1
    have same : legacyValue draft false first (fillValue draft second value) =
        legacyAny draft false first.anyOf (fillValue draft second value) := by
      rw [legacyValue_eq, alone.shallow plain]
    rw [same] at accepted ⊢
    rcases @legacyAny_cases draft false first.anyOf (fillValue draft second value) with
      ⟨branch, member, valid, takes⟩ | ⟨none, stays⟩
    · rw [takes]
      have smaller := sizeOf_anyOf member
      exact legacyValue_other branch second value (separate.branch member) alsoSeparate
        (fun confuses => apart (.left member confuses))
        (fun confuses => alsoApart (.right member confuses)) fits free
        ((valid_close false branch _).mp valid)
    · rw [stays] at accepted
      obtain ⟨branch, member, -, inside⟩ := accepted.taken plain
      have agreed := @Fits.normalise draft branch _ false (separate.branch member).agrees inside.relax
      have refused := none branch member
      rw [closed, (valid_close false branch _).mpr agreed] at refused
      contradiction
termination_by (sizeOf value, sizeOf first + sizeOf second)

theorem typed_fillValue (types : Option (List JsonType)) (schema : Schema) (value : Json) :
    typed draft types (fillValue draft schema value) = typed draft types value := by
  induction schema using induct with
  | step schema known items branches =>
    rw [fillValue_eq, fillAny_eq]
    cases takes : taken draft schema.anyOf value with
    | none => cases value <;> rfl
    | some branch => exact branches branch (List.mem_of_find?_eq_some takes)

theorem listed_fillValue (enum : Option (List Scalar)) (schema : Schema) (value : Json) :
    listed draft enum (fillValue draft schema value) = listed draft enum value := by
  induction schema using induct with
  | step schema known items branches =>
    rw [fillValue_eq, fillAny_eq]
    cases takes : taken draft schema.anyOf value with
    | none => cases value <;> rfl
    | some branch => exact branches branch (List.mem_of_find?_eq_some takes)

/-- A field of the filling is a filled field or a null for an optional one. -/
theorem mem_entries_filled (member : (name, item) ∈ entries (filled draft schema value)) :
    (∃ source, (name, source) ∈ entries value ∧ item = fillValue draft (schema.field name) source) ∨
      schema.Optional name ∧ item = .null := by
  cases value with
  | dict fields =>
      rcases List.mem_append.mp member with member | member
      · obtain ⟨⟨origin, source⟩, listed, same⟩ := List.mem_map.mp member
        obtain ⟨rfl, rfl⟩ := Prod.mk.inj same
        exact Or.inl ⟨source, listed, rfl⟩
      · obtain ⟨⟨origin, child⟩, kept, same⟩ := List.mem_map.mp member
        obtain ⟨rfl, rfl⟩ := Prod.mk.inj same
        obtain ⟨listed, test⟩ := List.mem_filter.mp kept
        simp only [Bool.and_eq_true, Bool.not_eq_true', List.contains_eq_mem,
          decide_eq_false_iff_not] at test
        refine Or.inr ⟨⟨fun misses => ?_, test.1⟩, rfl⟩
        exact bne_iff_ne.mp (List.lookup_eq_none_iff.mp misses (origin, child) listed) rfl
  | _ => exact absurd member List.not_mem_nil

/-- The filled object has every declared field. -/
theorem Obeys.named_filled (obeys : Obeys draft .closed schema value) :
    Named (schema.names .strict) (Schema.filled draft schema value) := by
  cases value with
  | dict fields =>
      intro after same name listed
      obtain rfl := Json.dict.inj same
      rw [List.map_append, List.mem_append, List.map_map]
      have kept : name ∈ fields.map Prod.fst → name ∈ fields.map (Prod.fst ∘ fun entry =>
          (entry.1, fillValue draft (schema.field entry.1) entry.2)) := id
      by_cases present : name ∈ fields.map Prod.fst
      · exact Or.inl (kept present)
      · have optional : name ∉ schema.required := fun required =>
          present (obeys.named fields rfl name required)
        unfold names at listed
        split at listed
        · obtain ⟨⟨origin, child⟩, known, rfl⟩ := List.mem_map.mp listed
          have declares : schema.declared origin ≠ none := fun misses =>
            bne_iff_ne.mp (List.lookup_eq_none_iff.mp misses (origin, child) known) rfl
          exact Or.inr (List.mem_map_of_mem (mem_missing ⟨declares, optional⟩ present))
        · exact absurd listed optional
  | _ => exact fun _ same => absurd same nofun

theorem mem_elements_filled (member : item ∈ elements (filled draft schema value)) :
    ∃ source ∈ elements value, item = fillValue draft schema.element source := by
  cases value with
  | list values =>
      obtain ⟨source, listed, same⟩ := List.mem_map.mp member
      exact ⟨source, listed, same.symm⟩
  | _ => exact absurd member List.not_mem_nil

theorem field_of_declared {child : Schema} (finds : schema.declared name = some child) :
    schema.field name = child := by
  rw [field, finds, Option.getD_some]

theorem element_of_items {child : Schema} (finds : schema.items = some child) :
    schema.element = child := by
  rw [element, finds, Option.getD_some]

/-- The filling of an accepted value obeys the projected schema. -/
theorem Fits.fill (separate : Separate draft schema) (fits : Fits draft .closed schema value) :
    Fits draft .strict schema (fillValue draft schema value) := by
  induction schema using Schema.induct generalizing value with
  | step schema known items branches =>
    have obeys := fits_iff.mp fits
    by_cases plain : schema.anyOf = []
    · have same : fillValue draft schema value = filled draft schema value := by
        rw [fillValue_eq, plain]
        rfl
      apply fits_iff.mpr
      apply Obeys.mk
      · rw [typed_fillValue]
        exact obeys.typed
      · rw [listed_fillValue]
        exact obeys.listed
      · rw [same]
        exact obeys.named_filled
      · intro name item member child finds
        rw [same] at member
        rcases mem_entries_filled member with ⟨source, listed, rfl⟩ | ⟨optional, rfl⟩
        · have inside := (fits.field listed).2
          rw [field_of_declared finds] at inside ⊢
          exact Or.inl (known name child finds
            (fun part within => separate part (.field finds within)) inside)
        · exact Or.inr ⟨by simp, optional.2, rfl⟩
      · intro name item member misses
        rw [same] at member
        rcases mem_entries_filled member with ⟨source, listed, -⟩ | ⟨optional, -⟩
        · exact obeys.unknown name source listed misses
        · exact absurd misses optional.1
      · intro item member child finds
        rw [same] at member
        obtain ⟨source, listed, rfl⟩ := mem_elements_filled member
        rw [element_of_items finds]
        exact items child finds (fun part within => separate part (.item finds within))
          (obeys.items source listed child finds)
      · exact Or.inl plain
    · obtain ⟨branch, member, finds, inside⟩ := fits.taken plain
      obtain ⟨fields, required, noItems, unclosed⟩ := (separate schema (.whole schema)).1 plain
      have same : fillValue draft schema value = fillValue draft branch value := by
        rw [fillValue_eq, fillAny_eq, finds]
      have names : schema.names .strict = [] := by
        have other : schema.isObject = false := by
          have both := (Bool.and_eq_true _ _).mp unclosed
          simpa using both.2
        rw [Schema.names, if_neg (by simp [other]), required]
      apply fits_iff.mpr
      apply Obeys.mk
      · rw [typed_fillValue]
        exact obeys.typed
      · rw [listed_fillValue]
        exact obeys.listed
      · rw [names]
        exact fun _ _ _ listed => absurd listed List.not_mem_nil
      · intro name item _ child finds
        simp [declared, fields] at finds
      · exact fun _ _ _ _ => unclosed
      · exact fun _ _ child finds => absurd (noItems.symm.trans finds) (by simp)
      · rw [same]
        exact Or.inr ⟨branch, member, branches branch member (separate.branch member) inside⟩

/-- The first branch that accepts a value recovers it from its filling. -/
theorem legacyAny_fill {branch : Schema} (separate : Separate draft schema)
    (inside : Fits draft .closed branch value) (free : NullFree draft branch value)
    (member : branch ∈ schema.anyOf)
    (recovers : legacyValue draft false branch (fillValue draft branch value) = value)
    (branches : List Schema) (sublist : ∀ other ∈ branches, other ∈ schema.anyOf)
    (finds : taken draft branches value = some branch) :
    legacyAny draft false branches (fillValue draft branch value) = value := by
  induction branches with
  | nil => contradiction
  | cons first rest ih =>
      have accepted : valid draft branch.closed value = true := (valid_close false branch value).mpr inside
      rw [taken, List.find?_cons] at finds
      rw [legacyAny]
      by_cases here : valid draft first.closed value = true
      · rw [here] at finds
        obtain rfl := Option.some.inj finds
        rw [recovers, if_pos here]
      · rw [Bool.eq_false_iff.mpr here] at finds
        have refused : ¬ valid draft first.closed
            (legacyValue draft false first (fillValue draft branch value)) = true := by
          intro candidate
          have listed := sublist first List.mem_cons_self
          have different : first ≠ branch := fun same => here (same ▸ accepted)
          have distinct := (separate schema (.whole schema)).2
          have same := legacyValue_other first branch value (separate.branch listed)
            (separate.branch member) (distinct first listed branch member different)
            (distinct branch member first listed different.symm) inside free
            ((valid_close false first _).mp candidate)
          exact here (same ▸ candidate)
        rw [if_neg refused]
        exact ih (fun other later => sublist other (.tail _ later)) finds

/-- The normalisation recovers a value from its filling. -/
theorem legacyValue_fill (separate : Separate draft schema) (fits : Fits draft .closed schema value)
    (free : NullFree draft schema value) :
    legacyValue draft false schema (fillValue draft schema value) = value := by
  induction schema using Schema.induct generalizing value with
  | step schema known items branches =>
    by_cases plain : schema.anyOf = []
    · have same : legacyValue draft false schema (fillValue draft schema value) =
          shallow draft false schema (filled draft schema value) := by
        rw [legacyValue_eq, fillValue_eq, plain]
        rfl
      rw [same]
      cases value with
      | dict fields =>
          refine congrArg Json.dict (filterMap_filled ?_ ?_)
          · intro name item member
            have inside := (fits.field member).2
            obtain ⟨present, clear⟩ := free.field member
            have kept : ¬ (schema.Optional name ∧
                fillValue draft (schema.field name) item = .null) := by
              rintro ⟨optional, null⟩
              exact present optional ((fillValue_eq_null _ item).mp null)
            rw [normalised_eq schema name _ kept]
            cases finds : schema.declared name with
            | none => rw [Schema.field, finds, Option.getD_none, fillValue_empty, legacyValue_empty]
            | some child =>
                rw [field_of_declared finds] at inside clear ⊢
                rw [known name child finds (fun part within => separate part (.field finds within))
                  inside clear]
          · exact fun name optional _ => normalised_null optional
      | list values =>
          apply congrArg Json.list
          rw [List.map_map]
          conv_rhs => rw [← List.map_id values]
          apply List.map_congr_left
          intro item member
          have inside : Fits draft .closed schema.element item := fits.element member
          have clear : NullFree draft schema.element item := free.element member
          rw [Function.comp_apply, legacyItem_eq]
          cases finds : schema.items with
          | none => rw [element, finds, Option.getD_none, fillValue_empty, legacyValue_empty]; rfl
          | some child =>
              rw [element_of_items finds] at inside clear ⊢
              exact items child finds (fun part within => separate part (.item finds within)) inside
                clear
      | _ => rfl
    · obtain ⟨branch, member, finds, inside⟩ := fits.taken plain
      have clear := (nullFree_iff.mp free).branch branch finds
      have same : fillValue draft schema value = fillValue draft branch value := by
        rw [fillValue_eq, fillAny_eq, finds]
      have alone := (separate schema (.whole schema)).1
      rw [legacyValue_eq, alone.shallow plain, same]
      exact legacyAny_fill separate inside clear member
        (branches branch member (separate.branch member) inside clear) schema.anyOf (fun _ => id) finds

section Example

/-- These are numbers without integral floats. -/
def plainDraft : Draft := ⟨fun _ => false, fun first second => first = second⟩

/-- A schema is shown for the schemas in it one by one. -/
theorem Part.forall {holds : Schema → Prop} (here : holds schema)
    (fields : ∀ entry ∈ schema.fields, ∀ part, Part entry.2 part → holds part)
    (items : ∀ child, schema.items = some child → ∀ part, Part child part → holds part)
    (branches : ∀ branch ∈ schema.anyOf, ∀ part, Part branch part → holds part) :
    ∀ part, Part schema part → holds part := by
  intro part inside
  cases inside with
  | whole schema => exact here
  | field finds inside =>
      obtain ⟨before, after, same, -⟩ := List.lookup_eq_some_iff.mp finds
      exact fields _ (same ▸ List.mem_append_right before List.mem_cons_self) part inside
  | item finds inside => exact items _ finds part inside
  | branch listed inside => exact branches _ listed part inside

/-- Schemas without a common kind of container do not confuse. -/
theorem not_confuses_of_types (plain : first.anyOf = []) (alsoPlain : second.anyOf = [])
    (objects : (typed draft first.types (.dict []) && typed draft second.types (.dict [])) = false)
    (arrays : (typed draft first.types (.list []) && typed draft second.types (.list [])) = false) :
    ¬ Confuses draft first second := by
  intro confuses
  cases confuses with
  | here meet =>
      rw [meet.takes, meet.alsoTakes] at objects
      contradiction
  | field meet =>
      rw [meet.takes, meet.alsoTakes] at objects
      contradiction
  | item meet =>
      rw [meet.takes, meet.alsoTakes] at arrays
      contradiction
  | left listed => exact absurd (plain ▸ listed) List.not_mem_nil
  | right listed => exact absurd (alsoPlain ▸ listed) List.not_mem_nil

def stringSchema : Schema := { types := some [.string] }

def integerSchema : Schema := { types := some [.integer] }

def nullableSchema : Schema := { types := some [.string, .null] }

/-- An optional note and a required name that may be null. -/
def noteSchema : Schema where
  types := some [.object]
  properties := some [("note".toList, stringSchema), ("name".toList, nullableSchema)]
  required := ["name".toList]

def configSchema : Schema := { anyOf := [noteSchema, nullSchema] }

/-- A nullable object with an optional field stands in a required field. -/
def nestedSchema : Schema where
  types := some [.object]
  properties := some [("config".toList, configSchema), ("limit".toList, integerSchema)]
  required := ["config".toList]

theorem nestedSchema_parts {holds : Schema → Prop} (nested : holds nestedSchema)
    (config : holds configSchema) (note : holds noteSchema) (null : holds nullSchema)
    (string : holds stringSchema) (nullable : holds nullableSchema) (integer : holds integerSchema) :
    ∀ part, Part nestedSchema part → holds part := by
  have leaf : ∀ schema : Schema, holds schema → schema.fields = [] → schema.items = none →
      schema.anyOf = [] → ∀ part, Part schema part → holds part := by
    intro schema here fields items anyOf
    apply Part.forall here
    · rw [fields]
      exact fun _ member => absurd member List.not_mem_nil
    · rw [items]
      exact nofun
    · rw [anyOf]
      exact fun _ member => absurd member List.not_mem_nil
  have inNote : ∀ part, Part noteSchema part → holds part := by
    apply Part.forall note
    · intro entry member
      rcases List.mem_pair.mp member with rfl | rfl
      · exact leaf stringSchema string rfl rfl rfl
      · exact leaf nullableSchema nullable rfl rfl rfl
    · exact nofun
    · exact fun _ member => absurd member List.not_mem_nil
  have inConfig : ∀ part, Part configSchema part → holds part := by
    apply Part.forall config
    · exact fun _ member => absurd member List.not_mem_nil
    · exact nofun
    · intro branch member
      rcases List.mem_pair.mp member with rfl | rfl
      · exact inNote
      · exact leaf nullSchema null rfl rfl rfl
  apply Part.forall nested
  · intro entry member
    rcases List.mem_pair.mp member with rfl | rfl
    · exact inConfig
    · exact leaf integerSchema integer rfl rfl rfl
  · exact nofun
  · exact fun _ member => absurd member List.not_mem_nil

theorem nestedSchema_declares : ∀ part, Part nestedSchema part → part.Declares := by
  apply nestedSchema_parts <;> intro _ name required <;> revert name <;> decide

theorem nestedSchema_separate : Separate plainDraft nestedSchema := by
  have plain : ∀ schema : Schema, schema.anyOf = [] → schema.StandsAlone ∧ schema.Distinct plainDraft := by
    intro schema anyOf
    refine ⟨fun branches => absurd anyOf branches, ?_⟩
    rw [Distinct, anyOf]
    exact fun _ member => absurd member List.not_mem_nil
  apply nestedSchema_parts
  · exact plain _ rfl
  · refine ⟨fun _ => ⟨rfl, rfl, rfl, rfl⟩, ?_⟩
    intro first member second alsoMember different
    have types : ∀ schema ∈ configSchema.anyOf, schema = noteSchema ∨ schema = nullSchema := by
      intro schema listed
      exact List.mem_pair.mp listed
    rcases types first member with rfl | rfl <;> rcases types second alsoMember with rfl | rfl
    · exact absurd rfl different
    · exact not_confuses_of_types rfl rfl rfl rfl
    · exact not_confuses_of_types rfl rfl rfl rfl
    · exact absurd rfl different
  · exact plain _ rfl
  · exact plain _ rfl
  · exact plain _ rfl
  · exact plain _ rfl
  · exact plain _ rfl

theorem nullFree_bare (schema : Schema) (fields : entries value = []) (items : elements value = [])
    : NullFree draft schema value := by
  induction schema using induct with
  | step schema _ _ branches =>
    apply nullFree_iff.mpr
    apply Clear.mk
    · rw [fields]
      exact fun _ _ member => absurd member List.not_mem_nil
    · rw [items]
      exact fun _ member => absurd member List.not_mem_nil
    · exact fun branch takes => branches branch (List.mem_of_find?_eq_some takes)

def namedNote : Json := .dict [("name".toList, .null)]

def namedConfig : Json := .dict [("config".toList, namedNote)]

theorem namedNote_free : NullFree plainDraft configSchema namedNote := by
  apply nullFree_iff.mpr
  apply Clear.mk
  · exact fun _ _ _ _ finds => absurd finds nofun
  · exact fun _ member => absurd member List.not_mem_nil
  · intro branch takes
    have first : taken plainDraft configSchema.anyOf namedNote = some noteSchema := rfl
    obtain rfl := Option.some.inj (first.symm.trans takes)
    apply nullFree_iff.mpr
    apply Clear.mk
    · intro name item member child finds
      obtain ⟨rfl, rfl⟩ := Prod.mk.inj (List.mem_singleton.mp member)
      exact ⟨fun optional => absurd List.mem_cons_self optional, nullFree_bare child rfl rfl⟩
    · exact fun _ member => absurd member List.not_mem_nil
    · exact fun _ takes => absurd takes nofun

theorem namedConfig_free : NullFree plainDraft nestedSchema namedConfig := by
  apply nullFree_iff.mpr
  apply Clear.mk
  · intro name item member child finds
    obtain ⟨rfl, rfl⟩ := Prod.mk.inj (List.mem_singleton.mp member)
    have config : nestedSchema.declared "config".toList = some configSchema := rfl
    obtain rfl := Option.some.inj (config.symm.trans finds)
    exact ⟨fun optional => absurd List.mem_cons_self optional, namedNote_free⟩
  · exact fun _ member => absurd member List.not_mem_nil
  · exact fun _ takes => absurd takes nofun

/-- A branch may require a field that is optional beside it. -/
def requiringSchema : Schema where
  types := some [.object]
  properties := some [("a".toList, stringSchema)]
  anyOf := [{ required := ["a".toList] }]

/-- An object schema may require a field that it does not declare. -/
def undeclaringSchema : Schema := { types := some [.object], required := ["a".toList] }

/-- A branch may declare a field that is not declared beside it. -/
def besideSchema : Schema where
  types := some [.object]
  anyOf := [{ types := some [.object], properties := some [("a".toList, stringSchema)] }]

/-- A branch may require a null that is optional in another one. -/
def confusingSchema : Schema where
  anyOf := [{ types := some [.object], properties := some [("a".toList, nullSchema)]
              required := ["a".toList] },
    { types := some [.object], properties := some [("a".toList, stringSchema)] }]

end Example

end LumenCopilot.Tools.Schema
