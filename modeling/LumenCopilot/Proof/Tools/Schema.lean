import LumenCopilot.Construction.Tools.Schema

namespace LumenCopilot.Tools

open Python

/-- These are the fields of an object. -/
def entries : Json → List (Text × Json)
  | .dict fields => fields
  | _ => []

/-- These are the items of an array. -/
def elements : Json → List Json
  | .list values => values
  | _ => []

/-- An object has all the names. -/
def Named (names : List Text) (value : Json) : Prop :=
  ∀ fields, value = .dict fields → ∀ name ∈ names, name ∈ fields.map Prod.fst

theorem hasNames_eq_true {names : List Text} {value : Json} :
    Schema.hasNames names value = true ↔ Named names value := by
  cases value <;> simp [Schema.hasNames, Named]

/-- A value may obey a schema as it is closed, as it is projected, or as it is closed with nulls for
optional fields. -/
inductive Reading where
  | closed
  | strict
  | lenient
  deriving DecidableEq

namespace Schema

variable {draft : Draft}

def declared (schema : Schema) (name : Text) : Option Schema := schema.fields.lookup name

/-- Undeclared fields are allowed after the closure. -/
def isOpen (schema : Schema) : Bool := schema.additional && !schema.isObject

/-- These are the names that an object must have. -/
def names (reading : Reading) (schema : Schema) : List Text :=
  if reading = .strict ∧ schema.isObject = true then schema.fields.map Prod.fst else schema.required

variable {schema : Schema} {name : Text}

variable {child : Schema}

theorem sizeOf_declared (finds : schema.declared name = some child) :
    sizeOf child < sizeOf schema := by
  obtain ⟨types, properties, required, items, enum, anyOf, additional⟩ := schema
  cases properties with
  | none => simp [declared, fields] at finds
  | some declarations =>
      have smaller : ∀ declarations : List (Text × Schema), declarations.lookup name = some child →
          sizeOf child < sizeOf declarations := by
        intro declarations
        induction declarations with
        | nil => exact nofun
        | cons first rest ih =>
            obtain ⟨first, schema⟩ := first
            intro finds
            rw [List.lookup_cons] at finds
            split at finds
            · obtain rfl := Option.some.inj finds
              simp
              omega
            · have later := ih finds
              simp
              omega
      have within := smaller declarations finds
      simp
      omega

theorem sizeOf_items (finds : schema.items = some child) : sizeOf child < sizeOf schema := by
  obtain ⟨types, properties, required, items, enum, anyOf, additional⟩ := schema
  obtain rfl : items = some child := finds
  simp
  omega

variable {branch : Schema}

theorem sizeOf_anyOf (listed : branch ∈ schema.anyOf) : sizeOf branch < sizeOf schema := by
  obtain ⟨types, properties, required, items, enum, anyOf, additional⟩ := schema
  have within := List.sizeOf_lt_of_mem listed
  simp at within ⊢
  omega

/-- A property of all schemas is shown from the schemas in each. -/
theorem induct {holds : Schema → Prop}
    (step : ∀ schema : Schema, (∀ name child, schema.declared name = some child → holds child) →
      (∀ child, schema.items = some child → holds child) →
      (∀ branch ∈ schema.anyOf, holds branch) → holds schema) (schema : Schema) : holds schema :=
  step schema (fun _ child finds => have := sizeOf_declared finds; induct step child)
    (fun child finds => have := sizeOf_items finds; induct step child)
    (fun branch listed => have := sizeOf_anyOf listed; induct step branch)
termination_by sizeOf schema

/-- The value obeys the schema under the reading. -/
def Fits (draft : Draft) (reading : Reading) (schema : Schema) (value : Json) : Prop :=
  typed draft schema.types value = true ∧ listed draft schema.enum value = true ∧
    Named (schema.names reading) value ∧
    (∀ name item, (name, item) ∈ entries value → ∀ child, (_ : schema.declared name = some child) →
      Fits draft reading child item ∨
        (reading ≠ .closed ∧ name ∉ schema.required ∧ item = .null)) ∧
    (∀ name item, (name, item) ∈ entries value → schema.declared name = none →
      schema.isOpen = true) ∧
    (∀ item ∈ elements value, ∀ child, (_ : schema.items = some child) →
      Fits draft reading child item) ∧
    (schema.anyOf = [] ∨ ∃ branch, ∃ _ : branch ∈ schema.anyOf, Fits draft reading branch value)
termination_by sizeOf schema
decreasing_by
  · exact sizeOf_declared ‹_›
  · exact sizeOf_items ‹_›
  · exact sizeOf_anyOf ‹_›

/-- These are the parts of `Fits`. -/
structure Obeys (draft : Draft) (reading : Reading) (schema : Schema) (value : Json) : Prop where
  typed : typed draft schema.types value = true
  listed : listed draft schema.enum value = true
  named : Named (schema.names reading) value
  known : ∀ name item, (name, item) ∈ entries value → ∀ child, schema.declared name = some child →
    Fits draft reading child item ∨ (reading ≠ .closed ∧ name ∉ schema.required ∧ item = .null)
  unknown : ∀ name item, (name, item) ∈ entries value → schema.declared name = none →
    schema.isOpen = true
  items : ∀ item ∈ elements value, ∀ child, schema.items = some child →
    Fits draft reading child item
  branch : schema.anyOf = [] ∨ ∃ branch ∈ schema.anyOf, Fits draft reading branch value

variable {reading : Reading} {value : Json}

theorem fits_iff : Fits draft reading schema value ↔ Obeys draft reading schema value := by
  rw [Fits]
  constructor
  · rintro ⟨typed, listed, named, known, unknown, items, branch⟩
    refine ⟨typed, listed, named, known, unknown, items, ?_⟩
    rcases branch with plain | ⟨branch, member, fits⟩
    · exact Or.inl plain
    · exact Or.inr ⟨branch, member, fits⟩
  · rintro ⟨typed, listed, named, known, unknown, items, branch⟩
    refine ⟨typed, listed, named, known, unknown, items, ?_⟩
    rcases branch with plain | ⟨branch, member, fits⟩
    · exact Or.inl plain
    · exact Or.inr ⟨branch, member, fits⟩

theorem validField_eq (fields : List (Text × Schema)) (additional : Bool) (name : Text)
    (item : Json) : validField draft fields additional name item =
      match fields.lookup name with
      | some child => valid draft child item
      | none => additional := by
  induction fields with
  | nil => rfl
  | cons first rest ih =>
      obtain ⟨first, schema⟩ := first
      rw [validField, List.lookup_cons]
      by_cases same : first = name
      · simp [same]
      · rw [if_neg same, ih, beq_eq_false_iff_ne.mpr (Ne.symm same)]

theorem validProperties_eq (schema : Schema) (name : Text) (item : Json) :
    validProperties draft schema.properties schema.additional name item =
      match schema.declared name with
      | some child => valid draft child item
      | none => schema.additional := by
  obtain ⟨types, properties, required, items, enum, anyOf, additional⟩ := schema
  cases properties with
  | none => rfl
  | some fields =>
      rw [validProperties, validField_eq]
      rfl

theorem validAny_eq_true {branches : List Schema} :
    validAny draft branches value = true ↔ ∃ branch ∈ branches, valid draft branch value = true := by
  induction branches with
  | nil => simp [validAny]
  | cons first rest ih => simp [validAny, ih]

/-- These are the parts of `valid`. -/
structure Validates (draft : Draft) (schema : Schema) (value : Json) : Prop where
  typed : typed draft schema.types value = true
  listed : listed draft schema.enum value = true
  named : Named schema.required value
  known : ∀ name item, (name, item) ∈ entries value → ∀ child, schema.declared name = some child →
    valid draft child item = true
  unknown : ∀ name item, (name, item) ∈ entries value → schema.declared name = none →
    schema.additional = true
  items : ∀ item ∈ elements value, ∀ child, schema.items = some child → valid draft child item = true
  branch : schema.anyOf = [] ∨ ∃ branch ∈ schema.anyOf, valid draft branch value = true

/-- The conjunction over the fields and the items of the value. -/
theorem valid_inside :
    ((match value with
      | .dict fields => fields.all fun field =>
          validProperties draft schema.properties schema.additional field.1 field.2
      | .list values => values.all fun value => validItem draft schema.items value
      | _ => true) = true) ↔
      (∀ name item, (name, item) ∈ entries value → ∀ child, schema.declared name = some child →
        valid draft child item = true) ∧
      (∀ name item, (name, item) ∈ entries value → schema.declared name = none →
        schema.additional = true) ∧
      ∀ item ∈ elements value, ∀ child, schema.items = some child → valid draft child item = true := by
  cases value with
  | dict fields =>
      simp only [List.all_eq_true, validProperties_eq, entries, elements, List.not_mem_nil, Prod.forall]
      constructor
      · intro all
        refine ⟨fun name item member child finds => ?_, fun name item member misses => ?_, nofun⟩
        · have here := all name item member
          rwa [finds] at here
        · have here := all name item member
          rwa [misses] at here
      · intro parts name item member
        cases finds : schema.declared name with
        | some child => exact parts.1 name item member child finds
        | none => exact parts.2.1 name item member finds
  | list values =>
      simp only [List.all_eq_true, entries, elements, List.not_mem_nil]
      constructor
      · intro all
        refine ⟨nofun, nofun, fun item member child finds => ?_⟩
        have here := all item member
        rwa [finds, validItem] at here
      · intro parts item member
        cases finds : schema.items with
        | none => rfl
        | some child => exact parts.2.2 item member child finds
  | _ => simp [entries, elements]

theorem valid_eq (schema : Schema) (value : Json) : valid draft schema value =
    (typed draft schema.types value && listed draft schema.enum value &&
      hasNames schema.required value &&
      (match value with
        | .dict fields => fields.all fun field =>
            validProperties draft schema.properties schema.additional field.1 field.2
        | .list values => values.all fun value => validItem draft schema.items value
        | _ => true) &&
      (schema.anyOf.isEmpty || validAny draft schema.anyOf value)) := by
  obtain ⟨types, properties, required, items, enum, anyOf, additional⟩ := schema
  cases value <;> rfl

theorem valid_iff : valid draft schema value = true ↔ Validates draft schema value := by
  have unfolded : valid draft schema value = true ↔
      (typed draft schema.types value = true ∧ listed draft schema.enum value = true ∧
        Named schema.required value) ∧
      ((match value with
        | .dict fields => fields.all fun field =>
            validProperties draft schema.properties schema.additional field.1 field.2
        | .list values => values.all fun value => validItem draft schema.items value
        | _ => true) = true) ∧
      (schema.anyOf = [] ∨ ∃ branch ∈ schema.anyOf, valid draft branch value = true) := by
    rw [valid_eq, Bool.and_eq_true, Bool.and_eq_true, Bool.and_eq_true, Bool.and_eq_true,
      Bool.or_eq_true, hasNames_eq_true, validAny_eq_true, List.isEmpty_iff]
    exact ⟨fun ⟨⟨⟨⟨typed, listed⟩, named⟩, inside⟩, branch⟩ => ⟨⟨typed, listed, named⟩, inside, branch⟩,
      fun ⟨⟨typed, listed, named⟩, inside, branch⟩ => ⟨⟨⟨⟨typed, listed⟩, named⟩, inside⟩, branch⟩⟩
  rw [unfolded, valid_inside]
  constructor
  · rintro ⟨⟨typed, listed, named⟩, ⟨known, unknown, items⟩, branch⟩
    exact ⟨typed, listed, named, known, unknown, items, branch⟩
  · rintro ⟨typed, listed, named, known, unknown, items, branch⟩
    exact ⟨⟨typed, listed, named⟩, ⟨known, unknown, items⟩, branch⟩

theorem lookup_closeFields (strict projected : Bool) (required : List Text)
    (fields : List (Text × Schema)) (name : Text) :
    (closeFields strict projected required fields).lookup name =
      (fields.lookup name).map fun child =>
        if projected && !required.contains name then nullable (close strict child)
        else close strict child := by
  induction fields with
  | nil => rfl
  | cons first rest ih =>
      obtain ⟨first, child⟩ := first
      rw [closeFields, List.lookup_cons, List.lookup_cons]
      by_cases same : name = first
      · subst same
        simp
      · rw [beq_eq_false_iff_ne.mpr same]
        exact ih

/-- A declared field is closed, and projected when it is optional. -/
theorem declared_close (strict : Bool) (schema : Schema) (name : Text) :
    (close strict schema).declared name = (schema.declared name).map fun child =>
      if strict && !schema.required.contains name then nullable (close strict child)
      else close strict child := by
  obtain ⟨types, properties, required, items, enum, anyOf, additional⟩ := schema
  cases properties with
  | none =>
      have vacant : ∀ projected : Bool, ((if projected then some ((none : Option (List (Text × Schema))).getD [])
          else none).getD []).lookup name = none := by
        intro projected
        cases projected <;> rfl
      exact vacant _
  | some fields =>
      have closes := lookup_closeFields strict (strict && true) required fields name
      rw [Bool.and_true] at closes
      cases strict <;> simpa [close, declared, Schema.fields, closeProperties] using closes

theorem valid_nullable :
    valid draft (nullable schema) value = true ↔ valid draft schema value = true ∨ value = .null := by
  have null : valid draft nullSchema value = true ↔ value = .null := by
    cases value <;> simp [nullSchema, valid, typed, listed, hasType, hasNames, validProperties, validItem]
  rw [valid_iff, ← null]
  constructor
  · intro validates
    rcases validates.branch with plain | ⟨branch, member, fits⟩
    · contradiction
    · rcases List.mem_pair.mp member with rfl | rfl
      · exact Or.inl fits
      · exact Or.inr fits
  · intro fits
    refine ⟨rfl, rfl, fun _ _ _ member => absurd member List.not_mem_nil, nofun, fun _ _ _ _ => rfl,
      nofun, Or.inr ?_⟩
    rcases fits with fits | fits
    · exact ⟨schema, List.mem_pair.mpr (Or.inl rfl), fits⟩
    · exact ⟨nullSchema, List.mem_pair.mpr (Or.inr rfl), fits⟩

theorem closeAll_eq (strict : Bool) (branches : List Schema) :
    closeAll strict branches = branches.map (close strict) := by
  induction branches with
  | nil => rfl
  | cons first rest ih => rw [closeAll, ih, List.map_cons]

theorem closeItem_eq (strict : Bool) (items : Option Schema) :
    closeItem strict items = items.map (close strict) := by
  cases items <;> rfl

/-- This is the reading of a closure. -/
def readingOf (strict : Bool) : Reading := if strict then .strict else .closed

theorem required_close (strict : Bool) (schema : Schema) :
    (close strict schema).required = schema.names (readingOf strict) := by
  obtain ⟨types, properties, required, items, enum, anyOf, additional⟩ := schema
  cases strict <;> simp [close, names, readingOf, isObject, fields]

theorem close_parts (strict : Bool) (schema : Schema) :
    (close strict schema).types = schema.types ∧ (close strict schema).enum = schema.enum ∧
      (close strict schema).additional = schema.isOpen ∧
      (close strict schema).items = schema.items.map (close strict) ∧
      (close strict schema).anyOf = schema.anyOf.map (close strict) := by
  obtain ⟨types, properties, required, items, enum, anyOf, additional⟩ := schema
  exact ⟨rfl, rfl, rfl, closeItem_eq strict items, closeAll_eq strict anyOf⟩

/-- The closed and the projected schema say what their readings say. -/
theorem valid_close (strict : Bool) (schema : Schema) (value : Json) :
    valid draft (close strict schema) value = true ↔ Fits draft (readingOf strict) schema value := by
  induction schema using induct generalizing value with
  | step schema known items branches =>
    rw [valid_iff, fits_iff]
    have children : ∀ name item, (match (close strict schema).declared name with
        | some child => valid draft child item = true
        | none => True) ↔
      ∀ child, schema.declared name = some child → Fits draft (readingOf strict) child item ∨
        (readingOf strict ≠ .closed ∧ name ∉ schema.required ∧ item = .null) := by
      intro name item
      rw [declared_close]
      cases finds : schema.declared name with
      | none => simp
      | some child =>
          simp only [Option.map_some, Option.some.injEq, forall_eq']
          rw [← known name child finds item]
          cases strict with
          | false => simp [readingOf]
          | true =>
              by_cases needed : name ∈ schema.required
              · simp [needed]
              · simp [needed, readingOf, valid_nullable]
    obtain ⟨types, enum, additional, itemSchema, anyOf⟩ := close_parts strict schema
    constructor
    · intro validates
      apply Obeys.mk
      · exact types ▸ validates.typed
      · exact enum ▸ validates.listed
      · exact required_close strict schema ▸ validates.named
      · intro name item member
        apply (children name item).mp
        cases finds : (close strict schema).declared name with
        | none => trivial
        | some child => exact validates.known name item member child finds
      · intro name item member misses
        rw [← additional]
        apply validates.unknown name item member
        rw [declared_close, misses, Option.map_none]
      · intro item member child finds
        apply (items child finds item).mp
        apply validates.items item member
        rw [itemSchema, finds, Option.map_some]
      · rcases validates.branch with plain | ⟨branch, member, fits⟩
        · rw [anyOf, List.map_eq_nil_iff] at plain
          exact Or.inl plain
        · rw [anyOf] at member
          obtain ⟨source, listed, rfl⟩ := List.mem_map.mp member
          exact Or.inr ⟨source, listed, (branches source listed value).mp fits⟩
    · intro obeys
      apply Validates.mk
      · exact types ▸ obeys.typed
      · exact enum ▸ obeys.listed
      · exact required_close strict schema ▸ obeys.named
      · intro name item member child finds
        have here := (children name item).mpr (obeys.known name item member)
        rwa [finds] at here
      · intro name item member misses
        rw [additional]
        apply obeys.unknown name item member
        rw [declared_close] at misses
        exact Option.map_eq_none_iff.mp misses
      · intro item member child finds
        rw [itemSchema] at finds
        obtain ⟨source, from_, rfl⟩ := Option.map_eq_some_iff.mp finds
        exact (items source from_ item).mpr (obeys.items item member source from_)
      · rcases obeys.branch with plain | ⟨branch, member, fits⟩
        · exact Or.inl (anyOf.trans (List.map_eq_nil_iff.mpr plain))
        · refine Or.inr ⟨close strict branch, ?_, (branches branch member value).mpr fits⟩
          rw [anyOf]
          exact List.mem_map_of_mem member

variable {placeholders : Bool}

/-- This is the normalised field, unless it is omitted. -/
def normalised (draft : Draft) (placeholders : Bool) (schema : Schema) (name : Text) (item : Json) :
    Option (Text × Json) :=
  match schema.declared name with
  | none => some (name, item)
  | some child =>
      if !schema.required.contains name && omits placeholders child.enum item then none
      else some (name, legacyValue draft placeholders child item)

/-- This is the normalisation of the fields and items, without the branches. -/
def shallow (draft : Draft) (placeholders : Bool) (schema : Schema) : Json → Json
  | .dict fields =>
      .dict (fields.filterMap fun field => normalised draft placeholders schema field.1 field.2)
  | .list values => .list (values.map fun value => legacyItem draft placeholders schema.items value)
  | value => value

theorem legacyField_eq (required : List Text) (fields : List (Text × Schema)) (name : Text)
    (item : Json) : legacyField draft placeholders required fields name item =
      match fields.lookup name with
      | none => some (name, item)
      | some child =>
          if !required.contains name && omits placeholders child.enum item then none
          else some (name, legacyValue draft placeholders child item) := by
  induction fields with
  | nil => rfl
  | cons first rest ih =>
      obtain ⟨first, schema⟩ := first
      rw [legacyField, List.lookup_cons]
      by_cases same : first = name
      · subst same
        simp
      · rw [if_neg same, ih, beq_eq_false_iff_ne.mpr (Ne.symm same)]

theorem legacyValue_eq (schema : Schema) (value : Json) :
    legacyValue draft placeholders schema value =
      legacyAny draft placeholders schema.anyOf (shallow draft placeholders schema value) := by
  obtain ⟨types, properties, required, items, enum, anyOf, additional⟩ := schema
  cases value with
  | dict fields =>
      cases properties with
      | none => rfl
      | some declarations =>
          rw [legacyValue]
          simp only [legacyProperties, legacyField_eq]
          rfl
  | _ => rfl

/-- A valid normalisation under a branch is taken, or the value stays. -/
theorem legacyAny_cases (branches : List Schema) (value : Json) :
    (∃ branch ∈ branches,
      valid draft branch.closed (legacyValue draft placeholders branch value) = true ∧
        legacyAny draft placeholders branches value = legacyValue draft placeholders branch value) ∨
      (∀ branch ∈ branches,
        valid draft branch.closed (legacyValue draft placeholders branch value) = false) ∧
          legacyAny draft placeholders branches value = value := by
  induction branches with
  | nil => exact Or.inr ⟨nofun, rfl⟩
  | cons first rest ih =>
      rw [legacyAny]
      by_cases here : valid draft first.closed (legacyValue draft placeholders first value) = true
      · rw [if_pos here]
        exact Or.inl ⟨first, List.mem_cons_self, here, rfl⟩
      · rw [if_neg here]
        rcases ih with ⟨branch, member, fits, same⟩ | ⟨none, same⟩
        · exact Or.inl ⟨branch, .tail _ member, fits, same⟩
        · refine Or.inr ⟨fun branch member => ?_, same⟩
          rcases List.mem_cons.mp member with rfl | member
          · exact Bool.eq_false_iff.mpr here
          · exact none branch member

/-- The first schema requires a field that the second one may omit, at the same place. -/
inductive Clash (draft : Draft) (placeholders : Bool) : Schema → Schema → Prop where
  | here {first second child : Schema} {name : Text} {item : Json} (required : name ∈ first.required)
      (finds : second.declared name = some child) (optional : name ∉ second.required)
      (omitted : omits placeholders child.enum item = true)
      (admits : ∀ own, first.declared name = some own → Fits draft .lenient own item) :
      Clash draft placeholders first second
  | field {first second own child : Schema} {name : Text} (known : first.declared name = some own)
      (finds : second.declared name = some child) (inside : Clash draft placeholders own child) :
      Clash draft placeholders first second
  | item {first second own child : Schema} (known : first.items = some own)
      (finds : second.items = some child) (inside : Clash draft placeholders own child) :
      Clash draft placeholders first second
  | left {first second branch : Schema} (listed : branch ∈ first.anyOf)
      (inside : Clash draft placeholders branch second) : Clash draft placeholders first second
  | right {first second branch : Schema} (listed : branch ∈ second.anyOf)
      (inside : Clash draft placeholders first branch) : Clash draft placeholders first second

theorem names_of_ne_strict (schema : Schema) (other : reading ≠ .strict) :
    schema.names reading = schema.required := by
  rw [names, if_neg fun both => other both.1]

/-- What a closed schema allows is allowed with nulls. -/
theorem Fits.relax (fits : Fits draft .closed schema value) : Fits draft .lenient schema value := by
  induction schema using Schema.induct generalizing value with
  | step schema known items branches =>
    have obeys := fits_iff.mp fits
    apply fits_iff.mpr
    apply Obeys.mk
    · exact obeys.typed
    · exact obeys.listed
    · exact obeys.named
    · intro name item member child finds
      rcases obeys.known name item member child finds with inside | ⟨closed, -⟩
      · exact Or.inl (known name child finds inside)
      · exact absurd rfl closed
    · exact obeys.unknown
    · exact fun item member child finds => items child finds (obeys.items item member child finds)
    · rcases obeys.branch with plain | ⟨branch, member, inside⟩
      · exact Or.inl plain
      · exact Or.inr ⟨branch, member, branches branch member inside⟩

theorem typed_shallow (types : Option (List JsonType)) (schema : Schema) (value : Json) :
    typed draft types (shallow draft placeholders schema value) = typed draft types value := by
  cases value <;> rfl

theorem listed_shallow (enum : Option (List Scalar)) (schema : Schema) (value : Json) :
    listed draft enum (shallow draft placeholders schema value) = listed draft enum value := by
  cases value <;> rfl

variable {item : Json}

/-- A normalised field comes from a field that is not omitted. -/
theorem mem_entries_shallow
    (member : (name, item) ∈ entries (shallow draft placeholders schema value)) :
    ∃ source, (name, source) ∈ entries value ∧
      (schema.declared name = none ∧ item = source ∨ ∃ child, schema.declared name = some child ∧
        (name ∉ schema.required → omits placeholders child.enum source = false) ∧
        item = legacyValue draft placeholders child source) := by
  cases value with
  | dict fields =>
      obtain ⟨⟨origin, source⟩, listed, same⟩ := List.mem_filterMap.mp member
      unfold normalised at same
      split at same
      · next misses =>
        obtain ⟨rfl, rfl⟩ := Prod.mk.inj (Option.some.inj same)
        exact ⟨source, listed, Or.inl ⟨misses, rfl⟩⟩
      · next child finds =>
        split at same
        · contradiction
        · next kept =>
          obtain ⟨rfl, rfl⟩ := Prod.mk.inj (Option.some.inj same)
          refine ⟨source, listed, Or.inr ⟨child, finds, fun optional => ?_, rfl⟩⟩
          simpa [optional] using kept
  | _ => exact absurd member List.not_mem_nil

/-- A field that is not omitted is normalised. -/
theorem mem_names_shallow {fields : List (Text × Json)} (listed : (name, item) ∈ fields)
    (kept : ∀ child, schema.declared name = some child → name ∉ schema.required →
      omits placeholders child.enum item = false) :
    name ∈ (fields.filterMap fun field =>
      normalised draft placeholders schema field.1 field.2).map Prod.fst := by
  have stays : ∃ after, normalised draft placeholders schema name item = some (name, after) := by
    unfold normalised
    cases finds : schema.declared name with
    | none => exact ⟨item, rfl⟩
    | some child =>
        by_cases needed : name ∈ schema.required
        · exact ⟨legacyValue draft placeholders child item, by simp [needed]⟩
        · exact ⟨legacyValue draft placeholders child item, by simp [needed, kept child finds needed]⟩
  obtain ⟨after, same⟩ := stays
  exact List.mem_map.mpr ⟨(name, after), List.mem_filterMap.mpr ⟨(name, item), listed, same⟩, rfl⟩

theorem mem_elements_shallow (member : item ∈ elements (shallow draft placeholders schema value)) :
    ∃ source ∈ elements value, item = legacyItem draft placeholders schema.items source := by
  cases value with
  | list values =>
      obtain ⟨source, listed, same⟩ := List.mem_map.mp member
      exact ⟨source, listed, same.symm⟩
  | _ => exact absurd member List.not_mem_nil

theorem legacyValue_null (schema : Schema) : legacyValue draft placeholders schema .null = .null := by
  induction schema using Schema.induct with
  | step schema known items branches =>
    have stays : shallow draft placeholders schema .null = .null := rfl
    rw [legacyValue_eq, stays]
    rcases @legacyAny_cases draft placeholders schema.anyOf .null with
      ⟨branch, member, -, same⟩ | ⟨-, same⟩
    · rw [same, branches branch member]
    · exact same

variable {second first : Schema}

/-- The normalisation of a schema keeps the values of another one with which it does not clash. -/
theorem Fits.shallow (projected : reading ≠ .strict)
    (known : ∀ name child, second.declared name = some child → ∀ {first value},
      Fits draft reading first value → ¬ Clash draft placeholders first child →
        Fits draft reading first (legacyValue draft placeholders child value))
    (items : ∀ child, second.items = some child → ∀ {first value},
      Fits draft reading first value → ¬ Clash draft placeholders first child →
        Fits draft reading first (legacyValue draft placeholders child value))
    (fits : Fits draft reading first value) (apart : ¬ Clash draft placeholders first second) :
    Fits draft reading first (shallow draft placeholders second value) := by
  induction first using Schema.induct with
  | step first _ _ branches =>
    have obeys := fits_iff.mp fits
    have names := names_of_ne_strict first projected
    apply fits_iff.mpr
    apply Obeys.mk
    · rw [typed_shallow]
      exact obeys.typed
    · rw [listed_shallow]
      exact obeys.listed
    · rw [names]
      intro after same name required
      cases value with
      | dict fields =>
          obtain rfl := Json.dict.inj same
          have present := (names ▸ obeys.named) fields rfl name required
          obtain ⟨⟨_, item⟩, listed, rfl⟩ := List.mem_map.mp present
          apply mem_names_shallow listed
          intro child finds optional
          apply Bool.eq_false_iff.mpr
          intro omitted
          apply apart
          apply Clash.here required finds optional omitted
          intro own declares
          rcases obeys.known _ item listed own declares with inside | ⟨-, absent, -⟩
          · cases reading with
            | closed => exact inside.relax
            | lenient => exact inside
            | strict => exact absurd rfl projected
          · exact absurd required absent
      | _ => contradiction
    · intro name item member own declares
      obtain ⟨source, listed, ⟨-, rfl⟩ | ⟨child, finds, -, rfl⟩⟩ := mem_entries_shallow member
      · exact obeys.known name item listed own declares
      · rcases obeys.known name source listed own declares with inside | ⟨open_, optional, rfl⟩
        · exact Or.inl (known name child finds inside fun clash => apart (.field declares finds clash))
        · exact Or.inr ⟨open_, optional, legacyValue_null child⟩
    · intro name item member misses
      obtain ⟨source, listed, -⟩ := mem_entries_shallow member
      exact obeys.unknown name source listed misses
    · intro item member own declares
      obtain ⟨source, listed, rfl⟩ := mem_elements_shallow member
      have inside := obeys.items source listed own declares
      cases finds : second.items with
      | none => exact inside
      | some child => exact items child finds inside fun clash => apart (.item declares finds clash)
    · rcases obeys.branch with plain | ⟨branch, member, inside⟩
      · exact Or.inl plain
      · exact Or.inr ⟨branch, member,
          branches branch member inside fun clash => apart (.left member clash)⟩

theorem Fits.legacyValue (projected : reading ≠ .strict) (fits : Fits draft reading first value)
    (apart : ¬ Clash draft placeholders first second) :
    Fits draft reading first (legacyValue draft placeholders second value) := by
  induction second using Schema.induct generalizing first value with
  | step second known items branches =>
    rw [legacyValue_eq]
    have inside := Fits.shallow projected
      (fun name child finds _ _ fits apart => known name child finds fits apart)
      (fun child finds _ _ fits apart => items child finds fits apart) fits apart
    rcases @legacyAny_cases draft placeholders second.anyOf
      (Schema.shallow draft placeholders second value) with ⟨branch, member, -, same⟩ | ⟨-, same⟩
    · rw [same]
      exact branches branch member inside fun clash => apart (.right member clash)
    · rw [same]
      exact inside

/-- The second schema is the first one or stands in it. -/
inductive Part : Schema → Schema → Prop where
  | whole (schema : Schema) : Part schema schema
  | field {schema child part : Schema} {name : Text} (finds : schema.declared name = some child)
      (inside : Part child part) : Part schema part
  | item {schema child part : Schema} (finds : schema.items = some child) (inside : Part child part) :
      Part schema part
  | branch {schema branch part : Schema} (listed : branch ∈ schema.anyOf)
      (inside : Part branch part) : Part schema part

/-- An object schema declares the fields that it requires. -/
def Declares (schema : Schema) : Prop :=
  schema.isObject = true → ∀ name ∈ schema.required, name ∈ schema.fields.map Prod.fst

/-- This is the schema without its branches. -/
def own (schema : Schema) : Schema := { schema with anyOf := [] }

theorem own_of_plain (plain : schema.anyOf = []) : schema.own = schema := by
  obtain ⟨types, properties, required, items, enum, anyOf, additional⟩ := schema
  obtain rfl : anyOf = [] := plain
  rfl

theorem legacyValue_own (schema : Schema) (value : Json) :
    legacyValue draft placeholders schema.own value = shallow draft placeholders schema value := by
  rw [legacyValue_eq]
  cases value <;> rfl

/-- A field is not optional in the schema and required by one of its branches, or the other way
round, if the one that requires it would take an omitted value. -/
def Agrees (draft : Draft) (placeholders : Bool) (schema : Schema) : Prop :=
  ∀ branch ∈ schema.anyOf, ¬ Clash draft placeholders schema.own branch ∧
    ¬ Clash draft placeholders branch schema.own

/-- The projection requires what the schema requires. -/
theorem Fits.lenient (declares : ∀ part, Part schema part → part.Declares)
    (fits : Fits draft .strict schema value) : Fits draft .lenient schema value := by
  induction schema using Schema.induct generalizing value with
  | step schema known items branches =>
    have obeys := fits_iff.mp fits
    apply fits_iff.mpr
    apply Obeys.mk
    · exact obeys.typed
    · exact obeys.listed
    · intro fields same name required
      have named := obeys.named fields same
      unfold names at named
      split at named
      · next object => exact named name (declares schema (.whole schema) object.2 name required)
      · exact named name required
    · intro name item member child finds
      rcases obeys.known name item member child finds with inside | ⟨-, optional, null⟩
      · exact Or.inl (known name child finds (fun part within => declares part (.field finds within)) inside)
      · exact Or.inr ⟨nofun, optional, null⟩
    · exact obeys.unknown
    · intro item member child finds
      exact items child finds (fun part within => declares part (.item finds within))
        (obeys.items item member child finds)
    · rcases obeys.branch with plain | ⟨branch, member, inside⟩
      · exact Or.inl plain
      · exact Or.inr ⟨branch, member,
          branches branch member (fun part within => declares part (.branch member within)) inside⟩

/-- The fields and items of the normalisation obey the schema without nulls for optional fields. -/
theorem Obeys.own (obeys : Obeys draft .lenient schema value)
    (known : ∀ name child, schema.declared name = some child → ∀ {item},
      Fits draft .lenient child item →
        Fits draft .closed child (Schema.legacyValue draft placeholders child item))
    (items : ∀ child, schema.items = some child → ∀ {item},
      Fits draft .lenient child item →
        Fits draft .closed child (Schema.legacyValue draft placeholders child item)) :
    Fits draft .closed schema.own (Schema.shallow draft placeholders schema value) := by
  apply fits_iff.mpr
  apply Obeys.mk
  · rw [typed_shallow]
    exact obeys.typed
  · rw [listed_shallow]
    exact obeys.listed
  · intro after same name required
    cases value with
    | dict fields =>
        obtain rfl := Json.dict.inj same
        obtain ⟨⟨_, item⟩, listed, rfl⟩ := List.mem_map.mp (obeys.named fields rfl name required)
        exact mem_names_shallow listed fun _ _ optional => absurd required optional
    | _ => contradiction
  · intro name item member child finds
    obtain ⟨source, listed, ⟨misses, -⟩ | ⟨declared, same, kept, rfl⟩⟩ := mem_entries_shallow member
    · exact absurd (misses.symm.trans finds) nofun
    · obtain rfl := Option.some.inj (same.symm.trans finds)
      rcases obeys.known name source listed declared finds with inside | ⟨-, optional, rfl⟩
      · exact Or.inl (known name declared finds inside)
      · exact absurd (kept optional) (by simp [omits])
  · intro name item member misses
    obtain ⟨source, listed, -⟩ := mem_entries_shallow member
    exact obeys.unknown name source listed misses
  · intro item member child finds
    obtain ⟨source, listed, rfl⟩ := mem_elements_shallow member
    have found : schema.items = some child := finds
    rw [found]
    exact items child found (obeys.items source listed child found)
  · exact Or.inl rfl

/-- The branch of the normalisation completes its own keywords. -/
theorem Fits.join (own : Fits draft reading schema.own value) (listed : branch ∈ schema.anyOf)
    (inside : Fits draft reading branch value) : Fits draft reading schema value := by
  have obeys := fits_iff.mp own
  exact fits_iff.mpr ⟨obeys.typed, obeys.listed, obeys.named, obeys.known, obeys.unknown, obeys.items,
    Or.inr ⟨branch, listed, inside⟩⟩

/-- A value with nulls for optional fields obeys the closed schema after its normalisation. -/
theorem Fits.normalise (agrees : ∀ part, Part schema part → part.Agrees draft placeholders)
    (fits : Fits draft .lenient schema value) :
    Fits draft .closed schema (Schema.legacyValue draft placeholders schema value) := by
  induction schema using Schema.induct generalizing value with
  | step schema known items branches =>
    have obeys := fits_iff.mp fits
    have own : Fits draft .closed schema.own (Schema.shallow draft placeholders schema value) :=
      obeys.own
        (fun name child finds _ => known name child finds fun part within =>
          agrees part (.field finds within))
        (fun child finds _ => items child finds fun part within => agrees part (.item finds within))
    rw [legacyValue_eq]
    rcases obeys.branch with plain | ⟨branch, member, inside⟩
    · rw [own_of_plain plain] at own
      rw [plain, legacyAny]
      exact own
    · have agreement := agrees schema (.whole schema)
      have kept : Fits draft .lenient branch (Schema.legacyValue draft placeholders schema.own value) :=
        inside.legacyValue (by decide) (agreement branch member).2
      rw [legacyValue_own] at kept
      have accepted := branches branch member (fun part within => agrees part (.branch member within)) kept
      rcases @legacyAny_cases draft placeholders schema.anyOf
        (Schema.shallow draft placeholders schema value) with ⟨taken, listed, valid, same⟩ | ⟨none, -⟩
      · rw [same]
        apply Fits.join _ listed ((valid_close false taken _).mp valid)
        exact own.legacyValue (by decide) (agreement taken listed).1
      · have refused := none branch member
        rw [closed, (valid_close false branch _).mpr accepted] at refused
        contradiction

end Schema

end LumenCopilot.Tools
