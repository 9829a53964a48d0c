import LumenCopilot.Construction.Python.Bytes

namespace LumenCopilot.Python

/-- A JSON value keeps the order of its object keys; a float is its written form. -/
inductive Json where
  | null
  | bool (value : Bool)
  | int (value : Int)
  | float (written : Text)
  | str (text : Text)
  | list (items : List Json)
  | dict (fields : List (Text × Json))

/-- This is the order of Python strings. -/
def textLt : Text → Text → Bool
  | [], [] => false
  | [], _ :: _ => true
  | _ :: _, [] => false
  | a :: first, b :: second => a.toNat < b.toNat || (a.toNat == b.toNat && textLt first second)

/-- This is `sorted(set(names))` for one further name. -/
def insertSorted (name : Text) : List Text → List Text
  | [] => [name]
  | head :: rest =>
      if name = head then head :: rest
      else if textLt name head then name :: head :: rest
      else head :: insertSorted name rest

/-- This is `sorted(set(names))`. -/
def sortedSet (names : List Text) : List Text := names.foldr insertSorted []

namespace Json

def insertField (field : Text × Json) : List (Text × Json) → List (Text × Json)
  | [] => [field]
  | head :: rest =>
      if textLt head.1 field.1 then head :: insertField field rest else field :: head :: rest

mutual

/-- The option `sort_keys` sorts the keys of every object. -/
def sortKeys : Json → Json
  | .list items => .list (sortItems items)
  | .dict fields => .dict (sortFields fields)
  | value => value

def sortItems : List Json → List Json
  | [] => []
  | value :: rest => sortKeys value :: sortItems rest

def sortFields : List (Text × Json) → List (Text × Json)
  | [] => []
  | (key, value) :: rest => insertField (key, sortKeys value) (sortFields rest)

end

/-- This is one escaped UTF-16 code unit. -/
def escapeUnit (n : Nat) : Text := '\\' :: 'u' :: hexDigits 4 n

/-- This is one code point of a string under `ensure_ascii`. -/
def escapeChar (c : Char) : Text :=
  let n := c.toNat
  if c = '"' then ['\\', '"']
  else if c = '\\' then ['\\', '\\']
  else if c = '\n' then ['\\', 'n']
  else if c = '\r' then ['\\', 'r']
  else if c = '\t' then ['\\', 't']
  else if n = 12 then ['\\', 'f']
  else if n = 8 then ['\\', 'b']
  else if 32 ≤ n && n ≤ 126 then [c]
  else if n < 0x10000 then escapeUnit n
  else escapeUnit (0xD800 + (n - 0x10000) / 1024) ++ escapeUnit (0xDC00 + (n - 0x10000) % 1024)

def quote (text : Text) : Text := '"' :: (text.flatMap escapeChar ++ ['"'])

mutual

/-- This is `json.dumps` with its default separators. -/
def dumps : Json → Text
  | .null => "null".toList
  | .bool value => if value then "true".toList else "false".toList
  | .int value => (toString value).toList
  | .float written => written
  | .str text => quote text
  | .list items => '[' :: (dumpItems items ++ [']'])
  | .dict fields => '\x7b' :: (dumpFields fields ++ ['\x7d'])

def dumpItems : List Json → Text
  | [] => []
  | [value] => dumps value
  | value :: rest => dumps value ++ [',', ' '] ++ dumpItems rest

def dumpFields : List (Text × Json) → Text
  | [] => []
  | [(key, value)] => quote key ++ [':', ' '] ++ dumps value
  | (key, value) :: rest => quote key ++ [':', ' '] ++ dumps value ++ [',', ' '] ++ dumpFields rest

end

/-- This is `json.dumps(value, sort_keys=True)`. -/
def dumpsSorted (value : Json) : Text := value.sortKeys.dumps

example : dumpsSorted (.dict [("role".toList, .str "a\nb".toList), ("name".toList, .list [.null])]) =
    "\x7b\"name\": [null], \"role\": \"a\\nb\"\x7d".toList := by decide

end Json

end LumenCopilot.Python

namespace LumenCopilot.Python.Json

/-- This is one code point of a string without `ensure_ascii`. -/
def escapeControl (c : Char) : Text :=
  let n := c.toNat
  if c = '"' then ['\\', '"']
  else if c = '\\' then ['\\', '\\']
  else if c = '\n' then ['\\', 'n']
  else if c = '\r' then ['\\', 'r']
  else if c = '\t' then ['\\', 't']
  else if n = 12 then ['\\', 'f']
  else if n = 8 then ['\\', 'b']
  else if n < 32 then escapeUnit n
  else [c]

def quoteUnicode (text : Text) : Text := '"' :: (text.flatMap escapeControl ++ ['"'])

mutual

/-- This is `json.dumps(value, ensure_ascii=False)`. -/
def dumpsUnicode : Json → Text
  | .null => "null".toList
  | .bool value => if value then "true".toList else "false".toList
  | .int value => (toString value).toList
  | .float written => written
  | .str text => quoteUnicode text
  | .list items => '[' :: (dumpItemsUnicode items ++ [']'])
  | .dict fields => '\x7b' :: (dumpFieldsUnicode fields ++ ['\x7d'])

def dumpItemsUnicode : List Json → Text
  | [] => []
  | [value] => dumpsUnicode value
  | value :: rest => dumpsUnicode value ++ [',', ' '] ++ dumpItemsUnicode rest

def dumpFieldsUnicode : List (Text × Json) → Text
  | [] => []
  | [(key, value)] => quoteUnicode key ++ [':', ' '] ++ dumpsUnicode value
  | (key, value) :: rest =>
      quoteUnicode key ++ [':', ' '] ++ dumpsUnicode value ++ [',', ' '] ++ dumpFieldsUnicode rest

end

/-- This is `dict.get`. -/
def get (name : Text) : Json → Option Json
  | .dict fields => fields.lookup name
  | _ => none

end LumenCopilot.Python.Json
