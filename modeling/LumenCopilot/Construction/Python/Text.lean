import LumenCopilot.Construction.Library.Substitution
import Mathlib

namespace LumenCopilot.Python

/-- A Python string is a list of code points. -/
abbrev Text := List Char

instance : LawfulBEq Text := List.instLawfulBEq

/-- The table holds the Unicode data of the code points above ASCII. -/
structure UnicodeTable where
  isAlnum : Char → Bool
  lower : Char → Text

/-- This table treats every code point above ASCII as an uncased symbol. -/
def UnicodeTable.symbols : UnicodeTable := ⟨fun _ => false, fun c => [c]⟩

def isAscii (c : Char) : Bool := c.toNat < 128

/-- This is `str.isspace` of one code point, and the class `\s` of `re`. -/
def isSpace (c : Char) : Bool :=
  let n := c.toNat
  (9 ≤ n && n ≤ 13) || (28 ≤ n && n ≤ 32) || n == 0x85 || n == 0xA0 || n == 0x1680 ||
    (0x2000 ≤ n && n ≤ 0x200A) || n == 0x2028 || n == 0x2029 || n == 0x202F ||
    n == 0x205F || n == 0x3000

/-- This is the class `\w` of `re`. -/
def isWord (table : UnicodeTable) (c : Char) : Bool :=
  if isAscii c then c.isAlphanum || c == '_' else table.isAlnum c

/-- Two code points above ASCII have a lower case that contains an ASCII letter. -/
def lowerChar (table : UnicodeTable) (c : Char) : Text :=
  if isAscii c then [c.toLower]
  else if c.toNat = 0x130 then ['i', Char.ofNat 0x307]
  else if c.toNat = 0x212A then ['k']
  else table.lower c

/-- This is `str.lower`, up to the context rule of the Greek final sigma. -/
def lower (table : UnicodeTable) (text : Text) : Text := text.flatMap (lowerChar table)

/-- This is `str.lstrip` without an argument. -/
def lstrip (text : Text) : Text := text.dropWhile isSpace

/-- This is `str.lstrip` with one stripped code point. -/
def lstripChar (c : Char) (text : Text) : Text := text.dropWhile (· == c)

/-- This is `str.rstrip` without an argument. -/
def rstrip (text : Text) : Text := (text.reverse.dropWhile isSpace).reverse

/-- This is `not text.strip()`. -/
def isBlank (text : Text) : Bool := text.all isSpace

/-- This is `text.startswith(start)`. -/
def startsWith (text start : Text) : Bool := start.isPrefixOf text

/-- This is `text.removeprefix(start)`. -/
def removeStart (start text : Text) : Text :=
  if startsWith text start then text.drop start.length else text

/-- This is `separator.join(parts)`. -/
def join (separator : Text) (parts : List Text) : Text := separator.intercalate parts

/-- This is equality of a lower-case ASCII pattern code point under `re.IGNORECASE`. -/
def ignoreCaseEq (pattern c : Char) : Bool :=
  c == pattern || (isAscii c && c.toLower == pattern) ||
    (pattern == 'i' && (c.toNat == 0x130 || c.toNat == 0x131)) ||
    (pattern == 's' && c.toNat == 0x17F) || (pattern == 'k' && c.toNat == 0x212A)

/-- This function reads a literal under `re.IGNORECASE` and returns the rest. -/
def dropIgnoreCase : Text → Text → Option Text
  | [], text => some text
  | _ :: _, [] => none
  | pattern :: patterns, c :: rest =>
      if ignoreCaseEq pattern c then dropIgnoreCase patterns rest else none

/-- The table has the case properties of the code points as well. -/
structure CaseTable extends UnicodeTable where
  isCased : Char → Bool
  isCaseIgnorable : Char → Bool

/-- This table has the ASCII letters and full stop; the code points above ASCII are uncased symbols. -/
def CaseTable.symbols : CaseTable := ⟨.symbols, fun c => c.isAlpha, fun c => c == '.'⟩

/-- The lower case of this code point depends on its place in a word. -/
def capitalSigma : Char := Char.ofNat 0x3A3

/-- This is the condition of the final sigma; the text before is in reverse. -/
def isFinalSigma (table : CaseTable) (before after : Text) : Bool :=
  (before.dropWhile table.isCaseIgnorable).head?.any table.isCased &&
    !(after.dropWhile table.isCaseIgnorable).head?.any table.isCased

/-- This is `str.lower` of what follows the text before, which is in reverse. -/
def lowerAfter (table : CaseTable) (before : Text) : Text → Text
  | [] => []
  | c :: rest =>
      (if c = capitalSigma then
        [if isFinalSigma table before rest then Char.ofNat 0x3C2 else Char.ofNat 0x3C3]
      else lowerChar table.toUnicodeTable c) ++ lowerAfter table (c :: before) rest

/-- This is `str.lower`. -/
def strLower (table : CaseTable) (text : Text) : Text := lowerAfter table [] text

/-- This is `text.find(part)`, with an absent part as no index. -/
def find (part : Text) : Text → Option Nat
  | [] => if part = [] then some 0 else none
  | c :: rest =>
      if startsWith (c :: rest) part then some 0 else (find part rest).map (· + 1)

/-- This is `text.replace(old, new)` for an old part that is not empty. -/
def replace (old new text : Text) : Text := Library.substitute old new text

end LumenCopilot.Python
