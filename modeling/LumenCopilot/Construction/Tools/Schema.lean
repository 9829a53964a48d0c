import LumenCopilot.Construction.Python.Json

namespace LumenCopilot.Tools

open Python

/-- These are the names of the keyword `type`. -/
inductive JsonType where
  | null
  | boolean
  | object
  | array
  | number
  | integer
  | string
  deriving DecidableEq

/-- These are the values that are neither objects nor arrays. -/
inductive Scalar where
  | null
  | bool (value : Bool)
  | int (value : Int)
  | float (written : Text)
  | str (text : Text)
  deriving DecidableEq

def scalarOf : Json → Option Scalar
  | .null => some .null
  | .bool value => some (.bool value)
  | .int value => some (.int value)
  | .float written => some (.float written)
  | .str text => some (.str text)
  | .list _ => none
  | .dict _ => none

/-- These are the numbers of `jsonschema`: whether a float counts as an integer, and the equality of
scalars. -/
structure Draft where
  integral : Text → Bool
  equal : Scalar → Scalar → Bool

/-- This is a schema of the keywords `type`, `properties`, `required`, `items`, `enum` and `anyOf`,
and of `additionalProperties`, which is false or absent. -/
structure Schema where
  types : Option (List JsonType) := none
  properties : Option (List (Text × Schema)) := none
  required : List Text := []
  items : Option Schema := none
  enum : Option (List Scalar) := none
  anyOf : List Schema := []
  additional : Bool := true

namespace Schema

/-- This is `schema.get("properties", {})`. -/
def fields (schema : Schema) : List (Text × Schema) := schema.properties.getD []

/-- This is `_object_schema`. -/
def isObject (schema : Schema) : Bool :=
  schema.types.any (fun types => types.contains .object) || schema.properties.isSome

/-- The value has the type. -/
def hasType (draft : Draft) : Json → JsonType → Bool
  | .null, type => type = .null
  | .bool _, type => type = .boolean
  | .int _, type => type = .integer || type = .number
  | .float written, type => type = .number || (type = .integer && draft.integral written)
  | .str _, type => type = .string
  | .list _, type => type = .array
  | .dict _, type => type = .object

def typed (draft : Draft) (types : Option (List JsonType)) (value : Json) : Bool :=
  types.all fun types => types.any (hasType draft value)

/-- The value is one of the scalars. -/
def listed (draft : Draft) (enum : Option (List Scalar)) (value : Json) : Bool :=
  enum.all fun choices => (scalarOf value).any fun scalar => choices.any fun choice =>
    draft.equal choice scalar

/-- An object has the names. -/
def hasNames (required : List Text) : Json → Bool
  | .dict fields => required.all fun name => (fields.map Prod.fst).contains name
  | _ => true

mutual

/-- This is `Draft202012Validator.is_valid`. -/
def valid (draft : Draft) : Schema → Json → Bool
  | ⟨types, properties, required, items, enum, anyOf, additional⟩, value =>
      typed draft types value && listed draft enum value && hasNames required value &&
        (match value with
          | .dict fields => fields.all fun field =>
              validProperties draft properties additional field.1 field.2
          | .list values => values.all fun value => validItem draft items value
          | _ => true) &&
        (anyOf.isEmpty || validAny draft anyOf value)

def validProperties (draft : Draft) :
    Option (List (Text × Schema)) → Bool → Text → Json → Bool
  | none, additional, _, _ => additional
  | some fields, additional, name, value => validField draft fields additional name value

/-- A declared field is valid under its schema, and any other may be allowed. -/
def validField (draft : Draft) : List (Text × Schema) → Bool → Text → Json → Bool
  | [], additional, _, _ => additional
  | (declared, child) :: rest, additional, name, value =>
      if declared = name then valid draft child value
      else validField draft rest additional name value

def validItem (draft : Draft) : Option Schema → Json → Bool
  | none, _ => true
  | some child, value => valid draft child value

def validAny (draft : Draft) : List Schema → Json → Bool
  | [], _ => false
  | branch :: rest, value => valid draft branch value || validAny draft rest value

end

def nullSchema : Schema := { types := some [.null] }

/-- This is the projection of an optional field. -/
def nullable (schema : Schema) : Schema := { anyOf := [schema, nullSchema] }

mutual

/-- This is `_closed`. -/
def close (strict : Bool) : Schema → Schema
  | ⟨types, properties, required, items, enum, anyOf, additional⟩ =>
      let object := types.any (fun types => types.contains .object) || properties.isSome
      let projected := strict && object
      let closed := closeProperties strict projected required properties
      { types, enum
        properties := if projected then some (closed.getD []) else closed
        required := if projected then (properties.getD []).map Prod.fst else required
        items := closeItem strict items
        anyOf := closeAll strict anyOf
        additional := additional && !object }

def closeProperties (strict projected : Bool) (required : List Text) :
    Option (List (Text × Schema)) → Option (List (Text × Schema))
  | none => none
  | some fields => some (closeFields strict projected required fields)

/-- A projected field that is not required is nullable. -/
def closeFields (strict projected : Bool) (required : List Text) :
    List (Text × Schema) → List (Text × Schema)
  | [] => []
  | (name, child) :: rest =>
      (name, if projected && !required.contains name then nullable (close strict child)
        else close strict child) :: closeFields strict projected required rest

def closeItem (strict : Bool) : Option Schema → Option Schema
  | none => none
  | some child => some (close strict child)

def closeAll (strict : Bool) : List Schema → List Schema
  | [] => []
  | branch :: rest => close strict branch :: closeAll strict rest

end

/-- This is the schema that `validate_arguments` validates with. -/
def closed (schema : Schema) : Schema := close false schema

/-- This is `strict_schema`. -/
def strictSchema (schema : Schema) : Schema := close true schema

/-- This is `validate_arguments`, when it has no error to report. -/
def accepts (draft : Draft) (schema : Schema) (arguments : Json) : Bool :=
  valid draft schema.closed arguments

/-- This is `_PLACEHOLDERS`. -/
def isPlaceholder : Json → Bool
  | .str text => text = [] || text = "null".toList
  | .list [] => true
  | _ => false

/-- This is `_placeholder`. -/
def placeholder (enum : Option (List Scalar)) (value : Json) : Bool :=
  isPlaceholder value && !(scalarOf value).any fun scalar => (enum.getD []).contains scalar

/-- An optional field with this value is omitted. -/
def omits (placeholders : Bool) (enum : Option (List Scalar)) : Json → Bool
  | .null => true
  | value => placeholders && placeholder enum value

mutual

/-- This is `_legacy_value`. -/
def legacyValue (draft : Draft) (placeholders : Bool) : Schema → Json → Json
  | ⟨_, properties, required, items, _, anyOf, _⟩, value =>
      legacyAny draft placeholders anyOf (match value with
        | .dict fields => .dict (fields.filterMap fun field =>
            legacyProperties draft placeholders required properties field.1 field.2)
        | .list values => .list (values.map fun value => legacyItem draft placeholders items value)
        | value => value)

def legacyProperties (draft : Draft) (placeholders : Bool) (required : List Text) :
    Option (List (Text × Schema)) → Text → Json → Option (Text × Json)
  | none, name, value => some (name, value)
  | some fields, name, value => legacyField draft placeholders required fields name value

/-- This is the normalised field, unless it is omitted. -/
def legacyField (draft : Draft) (placeholders : Bool) (required : List Text) :
    List (Text × Schema) → Text → Json → Option (Text × Json)
  | [], name, value => some (name, value)
  | (declared, child) :: rest, name, value =>
      if declared = name then
        if !required.contains name && omits placeholders child.enum value then none
        else some (name, legacyValue draft placeholders child value)
      else legacyField draft placeholders required rest name value

def legacyItem (draft : Draft) (placeholders : Bool) : Option Schema → Json → Json
  | none, value => value
  | some child, value => legacyValue draft placeholders child value

/-- The first branch under which its normalisation is valid normalises the value. -/
def legacyAny (draft : Draft) (placeholders : Bool) : List Schema → Json → Json
  | [], value => value
  | branch :: rest, value =>
      let candidate := legacyValue draft placeholders branch value
      if valid draft branch.closed candidate then candidate
      else legacyAny draft placeholders rest value

end

/-- This is `legacy_arguments`. -/
def legacyArguments (draft : Draft) (arguments : Json) (schema : Schema) (placeholders : Bool) : Json :=
  legacyValue draft placeholders schema arguments

end Schema

end LumenCopilot.Tools
