import LumenCopilot.Construction.Python.Text

namespace LumenCopilot.Python

/-- A place has the code points before it, last first, those after it, and the text of the group. -/
structure Place where
  before : Text
  rest : Text
  group : Text
  deriving DecidableEq

/-- This is a regular expression of `re` with greedy repetitions and one group. -/
inductive Regex where
  | empty
  | one (accepts : Char → Bool)
  | seq (first second : Regex)
  | either (first second : Regex)
  | many (body : Regex)
  | group (body : Regex)
  | ahead (body : Regex)
  | begins
  | ends
  | boundary (word : Char → Bool)

/-- These are the ends of greedy repetitions in the order of the search; each one takes one unit of
fuel and at least one code point. -/
def repeatFrom (step : Place → List Place) : Nat → Place → List Place
  | 0, place => [place]
  | fuel + 1, place =>
      (step place).flatMap (fun next =>
        if next.rest.length < place.rest.length then repeatFrom step fuel next else []) ++ [place]

/-- These are the ends of the matches from a place in the order of the search. -/
def Regex.run : Regex → Place → List Place
  | .empty, place => [place]
  | .one accepts, place =>
      match place.rest with
      | [] => []
      | c :: rest => if accepts c then [⟨c :: place.before, rest, place.group⟩] else []
  | .seq first second, place => (first.run place).flatMap second.run
  | .either first second, place => first.run place ++ second.run place
  | .many body, place => repeatFrom body.run place.rest.length place
  | .group body, place => (body.run place).map fun stop =>
      { stop with group := (stop.before.take (stop.before.length - place.before.length)).reverse }
  | .ahead body, place => if (body.run place).isEmpty then [] else [place]
  | .begins, place => if place.before = [] then [place] else []
  | .ends, place => if place.rest = [] ∨ place.rest = ['\n'] then [place] else []
  | .boundary word, place =>
      if place.before.head?.any word != place.rest.head?.any word then [place] else []

/-- This is `regex.search` of the text behind a place. -/
def Regex.searchFrom (regex : Regex) (before : Text) : Text → Option Place
  | [] => (regex.run ⟨before, [], []⟩).head?
  | c :: rest => (regex.run ⟨before, c :: rest, []⟩).head?.or (regex.searchFrom (c :: before) rest)

/-- This is `regex.search(text)`. -/
def Regex.search (regex : Regex) (text : Text) : Option Place := regex.searchFrom [] text

/-- These are the matches of an expression that never matches an empty text, each of which takes one
unit of fuel. -/
def Regex.matchesFrom (regex : Regex) : Nat → Text → Text → List Place
  | 0, _, _ => []
  | fuel + 1, before, text =>
      match regex.searchFrom before text with
      | none => []
      | some found => found :: regex.matchesFrom fuel found.before found.rest

/-- This is `regex.finditer(text)`. -/
def Regex.finditer (regex : Regex) (text : Text) : List Place :=
  regex.matchesFrom (text.length + 1) [] text

/-- This is `regex.fullmatch(text) is not None`. -/
def Regex.fullmatch (regex : Regex) (text : Text) : Bool :=
  (regex.run ⟨[], text, []⟩).any fun stop => stop.rest = []

def Regex.optional (body : Regex) : Regex := .either body .empty

def Regex.some (body : Regex) : Regex := .seq body (.many body)

/-- This is the concatenation of expressions. -/
def Regex.all (parts : List Regex) : Regex := parts.foldr .seq .empty

/-- This is one of the alternatives in their order. -/
def Regex.oneOf (alternatives : List Regex) : Regex := alternatives.foldr .either (.one fun _ => false)

/-- This is a text as an expression. -/
def Regex.exactly (text : String) : Regex := .all (text.toList.map fun c => .one (· == c))

/-- This is a lower-case ASCII text as an expression under `(?i:...)`. -/
def Regex.ignoringCase (text : String) : Regex :=
  .all (text.toList.map fun c => .one (ignoreCaseEq c))

/-- This is a class of listed code points. -/
def Regex.anyOf (listed : String) : Regex := .one fun c => c ∈ listed.toList

def Regex.space : Regex := .one isSpace

end LumenCopilot.Python
