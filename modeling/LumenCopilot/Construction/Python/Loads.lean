import LumenCopilot.Construction.Python.Json
import LumenCopilot.Construction.Python.Numerals

namespace LumenCopilot.Python.Json

/-- A reader raises a `ValueError` or a `RecursionError`, or the hook of its objects raises. -/
inductive LoadError where
  | value
  | recursion
  | hook
  deriving DecidableEq

/-- This is the white space of JSON. -/
def isJsonSpace (c : Char) : Bool := c == ' ' || c == '\t' || c == '\n' || c == '\r'

def skipSpace (text : Text) : Text := text.dropWhile isJsonSpace

/-- This is the value of one hexadecimal digit. -/
def hexValue (c : Char) : Option Nat :=
  let n := c.toNat
  if 48 ≤ n && n ≤ 57 then some (n - 48)
  else if 97 ≤ n && n ≤ 102 then some (n - 87)
  else if 65 ≤ n && n ≤ 70 then some (n - 55)
  else none

/-- This is the UTF-16 code unit that four hexadecimal digits write. -/
def unitValue (a b c d : Char) : Option Nat := do
  let a ← hexValue a
  let b ← hexValue b
  let c ← hexValue c
  let d ← hexValue d
  return ((a * 16 + b) * 16 + c) * 16 + d

/-- This is what a backslash and one further code point stand for. -/
def unescape (c : Char) : Option Char :=
  if c = '"' || c = '\\' || c = '/' then some c
  else if c = 'b' then some (Char.ofNat 8)
  else if c = 'f' then some (Char.ofNat 12)
  else if c = 'n' then some '\n'
  else if c = 'r' then some '\r'
  else if c = 't' then some '\t'
  else none

/-- This reads a string after its opening quote and returns the rest; a lone surrogate is no code point of a text. -/
def scanString : Text → Except LoadError (Text × Text)
  | [] => .error .value
  | '"' :: rest => .ok ([], rest)
  | '\\' :: 'u' :: a :: b :: c :: d :: '\\' :: 'u' :: e :: f :: g :: h :: rest =>
      match unitValue a b c d, unitValue e f g h with
      | some high, some low =>
          if 0xD800 ≤ high && high ≤ 0xDBFF && 0xDC00 ≤ low && low ≤ 0xDFFF then
            (scanString rest).map fun scanned =>
              (Char.ofNat (0x10000 + (high - 0xD800) * 1024 + (low - 0xDC00)) :: scanned.1,
                scanned.2)
          else if 0xD800 ≤ high && high ≤ 0xDFFF then .error .value
          else (scanString ('\\' :: 'u' :: e :: f :: g :: h :: rest)).map fun scanned =>
            (Char.ofNat high :: scanned.1, scanned.2)
      | _, _ => .error .value
  | '\\' :: 'u' :: a :: b :: c :: d :: rest =>
      match unitValue a b c d with
      | some unit =>
          if 0xD800 ≤ unit && unit ≤ 0xDFFF then .error .value
          else (scanString rest).map fun scanned => (Char.ofNat unit :: scanned.1, scanned.2)
      | none => .error .value
  | '\\' :: c :: rest =>
      match unescape c with
      | some plain => (scanString rest).map fun scanned => (plain :: scanned.1, scanned.2)
      | none => .error .value
  | c :: rest =>
      if c.toNat < 32 || c = '\\' then .error .value
      else (scanString rest).map fun scanned => (c :: scanned.1, scanned.2)

/-- This is the first part of a number: zero, or digits that do not begin with zero. -/
def scanNatural : Text → Option (Text × Text)
  | '0' :: rest => some (['0'], rest)
  | text =>
      let digits := text.takeWhile Char.isDigit
      if digits.isEmpty then none else some (digits, text.drop digits.length)

/-- This is the fraction of a number, empty where there is none. -/
def scanFraction : Text → Text × Text
  | '.' :: rest =>
      let digits := rest.takeWhile Char.isDigit
      if digits.isEmpty then ([], '.' :: rest) else ('.' :: digits, rest.drop digits.length)
  | text => ([], text)

/-- This is the exponent of a number, empty where there is none. -/
def scanExponent : Text → Text × Text
  | c :: rest =>
      let sign := rest.takeWhile fun d => d == '+' || d == '-'
      let digits := (rest.drop sign.length).takeWhile Char.isDigit
      if (c == 'e' || c == 'E') && sign.length ≤ 1 && !digits.isEmpty then
        (c :: (sign ++ digits), rest.drop (sign.length + digits.length))
      else ([], c :: rest)
  | [] => ([], [])

/-- This reads a number after its sign. -/
def scanUnsigned (sign : Text) (text : Text) : Except LoadError (Json × Text) :=
  match scanNatural text with
  | none => .error .value
  | some (natural, rest) =>
      let (fraction, rest) := scanFraction rest
      let (exponent, rest) := scanExponent rest
      if fraction.isEmpty && exponent.isEmpty then
        match pyInt (fun _ => none) (sign ++ natural) with
        | some value => .ok (.int value, rest)
        | none => .error .value
      else .ok (.float (sign ++ natural ++ fraction ++ exponent), rest)

/-- This reads a constant or a number. -/
def scanAtom (text : Text) : Except LoadError (Json × Text) :=
  let constants : List (Text × Json) :=
    [("null".toList, .null), ("true".toList, .bool true), ("false".toList, .bool false),
      ("NaN".toList, .float "NaN".toList), ("Infinity".toList, .float "Infinity".toList),
      ("-Infinity".toList, .float "-Infinity".toList)]
  match constants.find? fun constant => startsWith text constant.1 with
  | some (name, value) => .ok (value, text.drop name.length)
  | none =>
      match text with
      | '-' :: rest => scanUnsigned ['-'] rest
      | _ => scanUnsigned [] text

/-- This reads the items of a list up to its closing bracket. -/
def scanItems (value : Text → Except LoadError (Json × Text)) :
    Nat → Text → Except LoadError (List Json × Text)
  | 0, _ => .error .value
  | fuel + 1, text => do
      let (head, rest) ← value text
      match skipSpace rest with
      | ']' :: rest => .ok ([head], rest)
      | ',' :: rest => do
          let (tail, rest) ← scanItems value fuel (skipSpace rest)
          .ok (head :: tail, rest)
      | _ => .error .value

/-- This reads the fields of an object up to its closing brace. -/
def scanFields (value : Text → Except LoadError (Json × Text)) :
    Nat → Text → Except LoadError (List (Text × Json) × Text)
  | fuel + 1, '"' :: text => do
      let (key, rest) ← scanString text
      match skipSpace rest with
      | ':' :: rest => do
          let (head, rest) ← value (skipSpace rest)
          match skipSpace rest with
          | '\x7d' :: rest => .ok ([(key, head)], rest)
          | ',' :: rest => do
              let (tail, rest) ← scanFields value fuel (skipSpace rest)
              .ok ((key, head) :: tail, rest)
          | _ => .error .value
      | _ => .error .value
  | _, _ => .error .value

/-- This reads a value; lists and objects nest at most as deep as the interpreter allows. -/
def scanValue (hook : List (Text × Json) → Except LoadError Json) :
    Nat → Text → Except LoadError (Json × Text)
  | _, '"' :: rest => (scanString rest).map fun scanned => (.str scanned.1, scanned.2)
  | 0, c :: rest =>
      if c = '[' || c = '\x7b' then .error .recursion else scanAtom (c :: rest)
  | nesting + 1, '[' :: rest =>
      match skipSpace rest with
      | ']' :: rest => .ok (.list [], rest)
      | items => (scanItems (scanValue hook nesting) items.length items).map fun scanned =>
          (.list scanned.1, scanned.2)
  | nesting + 1, '\x7b' :: rest =>
      match skipSpace rest with
      | '\x7d' :: rest => (hook []).map fun value => (value, rest)
      | fields => do
          let (pairs, rest) ← scanFields (scanValue hook nesting) fields.length fields
          let value ← hook pairs
          .ok (value, rest)
  | _, text => scanAtom text

/-- This is `json.loads(text, object_pairs_hook=hook)`. -/
def loads (hook : List (Text × Json) → Except LoadError Json) (nesting : Nat) (text : Text) :
    Except LoadError Json := do
  if startsWith text [Char.ofNat 0xFEFF] then .error .value
  let (value, rest) ← scanValue hook nesting (skipSpace text)
  if skipSpace rest = [] then .ok value else .error .value

/-- This is `dict(pairs)`: the last value of a key stands at the place of the first. -/
def ofPairs (pairs : List (Text × Json)) : List (Text × Json) :=
  pairs.foldl (fun fields pair =>
    if fields.any (·.1 = pair.1) then
      fields.map fun field => if field.1 = pair.1 then pair else field
    else fields ++ [pair]) []

mutual

/-- This is `json.dumps(value, ensure_ascii=False, separators=(",", ":"))`. -/
def dumpsCompact : Json → Text
  | .null => "null".toList
  | .bool value => if value then "true".toList else "false".toList
  | .int value => (toString value).toList
  | .float written => written
  | .str text => quoteUnicode text
  | .list items => '[' :: (dumpItemsCompact items ++ [']'])
  | .dict fields => '\x7b' :: (dumpFieldsCompact fields ++ ['\x7d'])

def dumpItemsCompact : List Json → Text
  | [] => []
  | [value] => dumpsCompact value
  | value :: rest => dumpsCompact value ++ [','] ++ dumpItemsCompact rest

def dumpFieldsCompact : List (Text × Json) → Text
  | [] => []
  | [(key, value)] => quoteUnicode key ++ [':'] ++ dumpsCompact value
  | (key, value) :: rest =>
      quoteUnicode key ++ [':'] ++ dumpsCompact value ++ [','] ++ dumpFieldsCompact rest

end

end LumenCopilot.Python.Json
