import LumenCopilot.Construction.Python.Text

namespace LumenCopilot.Guard

open Python

/-- These names are `_TAGS`. -/
def tags : List Text :=
  ["think".toList, "thinking".toList, "reasoning".toList, "reflection".toList]

/-- The tail `\b[^>]*>` starts with a non-word code point and ends at its only `>`. -/
def attributeTail (table : UnicodeTable) (tail : Text) : Bool :=
  match tail with
  | [] => false
  | c :: _ => !isWord table c && tail.getLast? == some '>' && !tail.dropLast.contains '>'

/-- This is `_OPEN.fullmatch`; the result is group 1. -/
def openMatch (table : UnicodeTable) : Text → Option Text
  | '<' :: rest =>
      let body := lstrip rest
      tags.findSome? fun tag =>
        match dropIgnoreCase tag body with
        | some tail => if attributeTail table tail then some (body.take tag.length) else none
        | none => none
  | _ => none

/-- This is `_CLOSE.fullmatch`; the result is group 1. -/
def closeMatch : Text → Option Text
  | '<' :: rest =>
      match lstrip rest with
      | '/' :: inner =>
          let body := lstrip inner
          tags.findSome? fun tag =>
            match dropIgnoreCase tag body with
            | some tail => if lstrip tail = ['>'] then some (body.take tag.length) else none
            | none => none
      | _ => none
  | _ => none

/-- The token `<|...|>` holds at most 64 code points and no inner bar. -/
def pipeMatch : Text → Bool
  | '<' :: '|' :: rest =>
      let body := rest.takeWhile (· != '|')
      body.length ≤ 64 && rest.drop body.length == ['|', '>']
  | _ => false

/-- The token `<\s*/?\s*name\s*>` allows one slash before the name. -/
def turnMatch (name : Text) : Text → Bool
  | '<' :: rest =>
      match dropIgnoreCase name (lstrip (removeStart ['/'] (lstrip rest))) with
      | some tail => lstrip tail == ['>']
      | none => false
  | _ => false

/-- The token is `[INST]` or `[/INST]`. -/
def instMatch : Text → Bool
  | '[' :: rest => dropIgnoreCase "inst]".toList (removeStart ['/'] rest) == some []
  | _ => false

/-- The token is `<<\s*/?SYS\s*>>`. -/
def sysMatch : Text → Bool
  | '<' :: '<' :: rest =>
      match dropIgnoreCase "sys".toList (removeStart ['/'] (lstrip rest)) with
      | some tail => lstrip tail == ['>', '>']
      | none => false
  | _ => false

/-- This is `_CONTROL.fullmatch`. -/
def controlMatch (text : Text) : Bool :=
  pipeMatch text || turnMatch "s".toList text || turnMatch "start_of_turn".toList text ||
    instMatch text || sysMatch text

/-- A marker matches one of the three patterns. -/
def isMarker (table : UnicodeTable) (text : Text) : Bool :=
  (openMatch table text).isSome || (closeMatch text).isSome || controlMatch text

/-- This is `re.fullmatch(r"\s*>?", tail)`. -/
def closeTail (tail : Text) : Bool := lstrip tail == [] || lstrip tail == ['>']

/-- This is `re.fullmatch(r"\s*>{0,2}", tail)`. -/
def doubleCloseTail (tail : Text) : Bool := closeTail tail || lstrip tail == ['>', '>']

/-- This is `re.match(r"\W", tail)`. -/
def nonWordStart (table : UnicodeTable) : Text → Bool
  | c :: _ => !isWord table c
  | [] => false

/-- This is `_marker_candidate`. -/
def markerCandidate (table : UnicodeTable) (text : Text) : Bool :=
  let lowered := lower table text
  if startsWith lowered ['['] then
    ["[inst]".toList, "[/inst]".toList].any fun token => startsWith token lowered
  else
    let head := lstrip (lowered.drop 1)
    if startsWith head ['|'] then true
    else if startsWith head ['<'] then
      let head := removeStart ['/'] (lstrip (head.drop 1))
      startsWith "sys".toList head ||
        (startsWith head "sys".toList && doubleCloseTail (head.drop 3))
    else
      let closing := startsWith head ['/']
      let head := lstrip (removeStart ['/'] head)
      (tags ++ ["s".toList, "start_of_turn".toList]).any fun tag =>
        startsWith tag head ||
          (startsWith head tag &&
            (let tail := head.drop tag.length
             if tags.contains tag && !closing then nonWordStart table tail else closeTail tail))

/-- This is `_suspicious_partial`. -/
def suspiciousPartial (table : UnicodeTable) (text : Text) : Bool :=
  if startsWith text ['<'] && (lstrip (lstripChar '/' (lstrip (text.drop 1)))).isEmpty then false
  else markerCandidate table text

/-- The text contains a substring that matches a marker pattern. -/
def ContainsMarker (table : UnicodeTable) (text : Text) : Prop :=
  ∃ before marker after, text = before ++ marker ++ after ∧ isMarker table marker = true

/-- These texts are `_SENTINELS`. -/
def sentinels : List Text :=
  ["you maintain a rolling summary".toList, "output only the summary".toList,
    "[conversation memory".toList, "return only one json object with exactly".toList]

/-- This test is membership in `_PREFIXES`. -/
def isSentinelStart (text : Text) : Bool :=
  !text.isEmpty && sentinels.any fun sentinel => startsWith sentinel text

def maxMarkerChars : Nat := 256

def maxNesting : Nat := 32

/-- The guard holds one withheld marker, the open tags and the sentinel look-behind. -/
structure ReasoningGuard where
  pending : Text
  stack : List Text
  sentinelPending : Text
  discard : Bool
  blockedBlocks : Nat
  deriving DecidableEq

def ReasoningGuard.fresh : ReasoningGuard := ⟨[], [], [], false, 0⟩

def ReasoningGuard.blocked (guard : ReasoningGuard) : Bool := guard.blockedBlocks > 0

/-- A fresh guard may continue only when no hidden state is outstanding. -/
def ReasoningGuard.continuationSafe (guard : ReasoningGuard) : Bool :=
  guard.pending.isEmpty && guard.stack.isEmpty && guard.sentinelPending.isEmpty && !guard.discard

/-- The inner loop of `_visible` releases code points until a sentinel start remains.
The second part is absent when the loop meets a whole sentinel. -/
def settleSentinel (table : UnicodeTable) : Text → Text × Option Text
  | [] => ([], some [])
  | c :: rest =>
      if sentinels.contains (lower table (c :: rest)) then ([], none)
      else if isSentinelStart (lower table (c :: rest)) then ([], some (c :: rest))
      else
        let settled := settleSentinel table rest
        (c :: settled.1, settled.2)

/-- This is one iteration of the loop of `_visible`. -/
def ReasoningGuard.visibleChar (table : UnicodeTable) (guard : ReasoningGuard) (c : Char) :
    ReasoningGuard × Text :=
  if guard.discard then (guard, [])
  else
    match settleSentinel table (guard.sentinelPending ++ [c]) with
    | (out, some rest) => ({ guard with sentinelPending := rest }, out)
    | (out, none) =>
        ({ guard with
            sentinelPending := [], discard := true, blockedBlocks := guard.blockedBlocks + 1 },
          out)

/-- This is `_visible`. -/
def ReasoningGuard.visible (table : UnicodeTable) :
    ReasoningGuard → Text → ReasoningGuard × Text
  | guard, [] => (guard, [])
  | guard, c :: rest =>
      let first := guard.visibleChar table c
      let tail := first.1.visible table rest
      (tail.1, first.2 ++ tail.2)

/-- Text becomes visible only outside the open tags. -/
def ReasoningGuard.release (table : UnicodeTable) (guard : ReasoningGuard) (text : Text) :
    ReasoningGuard × Text :=
  if guard.stack.isEmpty then guard.visible table text else (guard, [])

/-- The guard handles a complete candidate that ends in `>` or `]`. -/
def ReasoningGuard.complete (table : UnicodeTable) (guard : ReasoningGuard) (pending : Text) :
    ReasoningGuard × Text :=
  match openMatch table pending with
  | some tag =>
      if maxNesting ≤ guard.stack.length then
        ({ guard with blockedBlocks := guard.blockedBlocks + 1, discard := true }, [])
      else
        ({ guard with
            blockedBlocks := guard.blockedBlocks + 1, stack := lower table tag :: guard.stack }, [])
  | none =>
      match closeMatch pending with
      | some tag =>
          let stack := match guard.stack with
            | top :: rest => if top = lower table tag then rest else top :: rest
            | [] => []
          ({ guard with blockedBlocks := guard.blockedBlocks + 1, stack := stack }, [])
      | none =>
          if controlMatch pending then
            ({ guard with blockedBlocks := guard.blockedBlocks + 1 }, [])
          else guard.release table pending

/-- The guard extends a withheld marker by one code point. -/
def ReasoningGuard.extend (table : UnicodeTable) (guard : ReasoningGuard) (c : Char) :
    ReasoningGuard × Text :=
  let pending := guard.pending ++ [c]
  if maxMarkerChars < pending.length then
    ({ guard with discard := true, blockedBlocks := guard.blockedBlocks + 1, pending := [] }, [])
  else if !markerCandidate table pending then
    let released := guard.release table pending
    ({ released.1 with pending := [] }, released.2)
  else if c != '>' && c != ']' then ({ guard with pending := pending }, [])
  else if startsWith pending ['<', '<'] && !(['>', '>'].isSuffixOf pending) then
    ({ guard with pending := pending }, [])
  else { guard with pending := [] }.complete table pending

/-- This is one iteration of the loop of `feed`. -/
def ReasoningGuard.feedChar (table : UnicodeTable) (guard : ReasoningGuard) (c : Char) :
    ReasoningGuard × Text :=
  if guard.discard then (guard, [])
  else if guard.pending.isEmpty then
    if c == '<' || c == '[' then ({ guard with pending := [c] }, [])
    else guard.release table [c]
  else if c == '<' && guard.pending != ['<'] then
    let released := guard.release table guard.pending
    ({ released.1 with pending := ['<'] }, released.2)
  else guard.extend table c

/-- This is `feed`. -/
def ReasoningGuard.feed (table : UnicodeTable) :
    ReasoningGuard → Text → ReasoningGuard × Text
  | guard, [] => (guard, [])
  | guard, c :: rest =>
      let first := guard.feedChar table c
      let tail := first.1.feed table rest
      (tail.1, first.2 ++ tail.2)

/-- This is `flush`. -/
def ReasoningGuard.flush (table : UnicodeTable) (guard : ReasoningGuard) :
    ReasoningGuard × Text :=
  if guard.discard || !guard.stack.isEmpty then
    ({ guard with pending := [], stack := [], sentinelPending := [] }, [])
  else
    let suspicious := !guard.pending.isEmpty && suspiciousPartial table guard.pending
    let pending := if suspicious then [] else guard.pending
    let blocks := if suspicious then guard.blockedBlocks + 1 else guard.blockedBlocks
    let shown := { guard with pending := [], blockedBlocks := blocks }.visible table pending
    let rest := if shown.1.discard then [] else shown.1.sentinelPending
    ({ shown.1 with sentinelPending := [] }, shown.2 ++ rest)

/-- This is `sanitize_provider_text`. -/
def sanitizeProviderText (table : UnicodeTable) (text : Text) : Text :=
  let fed := ReasoningGuard.fresh.feed table text
  fed.2 ++ (fed.1.flush table).2

/-- The guard reads a stream chunk by chunk. -/
def ReasoningGuard.feedChunks (table : UnicodeTable) :
    ReasoningGuard → List Text → ReasoningGuard × Text
  | guard, [] => (guard, [])
  | guard, chunk :: rest =>
      let first := guard.feed table chunk
      let tail := first.1.feedChunks table rest
      (tail.1, first.2 ++ tail.2)

/-- The published text is every feed output followed by the flush output. -/
def publishedText (table : UnicodeTable) (chunks : List Text) : Text :=
  let fed := ReasoningGuard.fresh.feedChunks table chunks
  fed.2 ++ (fed.1.flush table).2

end LumenCopilot.Guard
