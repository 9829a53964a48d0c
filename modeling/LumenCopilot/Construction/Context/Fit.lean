import LumenCopilot.Construction.Context.Message

namespace LumenCopilot.Context

open Python

/-- These are the deploy-tunable assembly knobs. -/
structure ContextConfig where
  fallbackMaxInputTokens : Int := 100000
  outputHeadroomTokens : Int := 8000
  compactionDigestChars : Int := 1200
  compactionChunkSize : Int := 4
  proactiveCompactionEnabled : Bool := false

def safetyMarginTokens : Int := 1024

/-- This is `resolve(model) or fallback`; a resolved zero counts as unknown. -/
def inputWindow (config : ContextConfig) (resolved : Option Int) : Int :=
  match resolved with
  | some window => if window = 0 then config.fallbackMaxInputTokens else window
  | none => config.fallbackMaxInputTokens

/-- A degenerate window still yields a positive floor. -/
def inputBudget (config : ContextConfig) (resolved : Option Int) : Int :=
  max (inputWindow config resolved - config.outputHeadroomTokens - safetyMarginTokens) 1

/-- This is `_COMPACTION_MARKER`. -/
def compactionMarker : Text :=
  ("\n[… earlier tool output truncated to fit the context window; " ++
    "the answer's recorded citations preserve the cited evidence …]").toList

/-- This is `needle in text`. -/
def contains (text needle : Text) : Bool := text.tails.any fun tail => startsWith tail needle

/-- This is `_context_digest`. -/
def contextDigest (content : Text) (digestChars : Int) (citedSnippets : List Text) : Text :=
  let size := (max 1 digestChars).toNat
  if content.length ≤ size then content
  else
    let head := rstrip (content.take size)
    let retained := citedSnippets.eraseDups.filter fun snippet =>
      !snippet.isEmpty && !contains head snippet
    let evidence := if retained.isEmpty then []
      else "\n[cited evidence retained verbatim:]".toList ++
        retained.flatMap fun snippet => "\n• ".toList ++ snippet
    head ++ evidence ++ compactionMarker

/-- The map from call ids to cited snippets is a Python dictionary. -/
abbrev CitedSnippets := List (Text × List Text)

def isCited (cited : CitedSnippets) : Option Text → Bool
  | some callId => (cited.lookup callId).isSome
  | none => false

def snippetsOf (cited : CitedSnippets) : Option Text → List Text
  | some callId => (cited.lookup callId).getD []
  | none => []

/-- The current question is a user message that is not a tool result. -/
def ChatMessage.isQuestion (message : ChatMessage) : Bool :=
  message.role = .user && message.toolCallId.isNone

/-- This is `_last_question_index`. -/
def lastQuestionIndex (messages : List ChatMessage) : Nat :=
  match messages.reverse.findIdx? ChatMessage.isQuestion with
  | some back => messages.length - 1 - back
  | none => messages.length

/-- This is `_oldest_sheddable_span`; the first index after the system head exists below the tail. -/
def oldestSheddableSpan (messages : List ChatMessage) (tailStart : Nat) : Option (Nat × Nat) :=
  if tailStart ≤ 1 then none
  else
    messages[1]?.map fun message =>
      if message.toolCalls.isEmpty then (1, 2)
      else
        (1, 2 + (((messages.take tailStart).drop 2).takeWhile (·.toolCallId.isSome)).length)

def ChatMessage.startsToolGroup (message : ChatMessage) : Bool :=
  message.role = .assistant && !message.toolCalls.isEmpty

/-- This is `_last_tool_group_start`. -/
def lastToolGroupStart (messages : List ChatMessage) (tailStart : Nat) : Nat :=
  match (messages.drop tailStart).reverse.findIdx? ChatMessage.startsToolGroup with
  | some back => messages.length - 1 - back
  | none => messages.length

/-- The loops of `fit_transcript` mutate a working list, its costs and their running total.
The last two fields are history variables: the points passed and the results offered. -/
structure FitState where
  working : List ChatMessage
  costs : List Int
  total : Int
  points : List (List ChatMessage × Int) := []
  offered : List Nat := []

/-- The state remembers its working list and total at a loop point. -/
def FitState.mark (state : FitState) : FitState :=
  { state with points := state.points ++ [(state.working, state.total)] }

/-- Every message is costed once before the loops. -/
def FitState.start (count : Text → Nat) (strictSchema : StrictSchema) (messages : List ChatMessage)
    (tools : List ToolSpec) : Except Raised FitState := do
  let costs ← messages.mapM (messageCost count)
  let fixed ← fixedCost count strictSchema tools
  return FitState.mark { working := messages, costs := costs, total := fixed + costs.sum }

/-- One candidate is digested only when that strictly reduces its counted cost. -/
def FitState.digest (count : Text → Nat) (digestChars : Int) (cited : CitedSnippets)
    (state : FitState) (i : Nat) : Except Raised FitState :=
  match state.working[i]?, state.costs[i]? with
  | some message, some cost => do
      let candidate := contextDigest message.content digestChars (snippetsOf cited message.toolCallId)
      let digested := { message with content := candidate }
      let newCost ← messageCost count digested
      if cost ≤ newCost then return state.mark
      else
        return FitState.mark { state with
          working := state.working.set i digested
          costs := state.costs.set i newCost
          total := state.total + (newCost - cost) }
  | _, _ => return state

def isSuperseded (cited : CitedSnippets) (message : ChatMessage) : Bool :=
  message.role = .tool && isCited cited message.toolCallId

/-- This is `_compact_superseded_tool_results`. -/
def compactSupersededToolResults (count : Text → Nat) (digestChars : Int) (cited : CitedSnippets)
    (tailStart : Nat) (state : FitState) : Except Raised FitState :=
  let protectedFrom := lastToolGroupStart state.working tailStart
  (List.range' tailStart (protectedFrom - tailStart)).foldlM
    (fun state i =>
      if state.working[i]?.any (isSuperseded cited) then state.digest count digestChars cited i
      else return state)
    state

/-- The proactive phase runs on request, whatever the budget. -/
def compactProactively (count : Text → Nat) (config : ContextConfig) (cited : CitedSnippets)
    (state : FitState) : Except Raised FitState :=
  if config.proactiveCompactionEnabled && !cited.isEmpty then
    compactSupersededToolResults count config.compactionDigestChars cited
      (lastQuestionIndex state.working) state
  else return state

/-- This removes the span from the working list and its costs from the total. -/
def FitState.shed (state : FitState) (start stop : Nat) : FitState :=
  FitState.mark { state with
    working := state.working.take start ++ state.working.drop stop
    costs := state.costs.take start ++ state.costs.drop stop
    total := state.total - ((state.costs.take stop).drop start).sum }

/-- The shed loop removes the oldest history unit until the total fits; each unit lowers the
start of the tail, so the start of the tail bounds the iterations. -/
def shedHistory (budget : Int) : Nat → Nat → FitState → Nat × FitState
  | 0, tailStart, state => (tailStart, state)
  | fuel + 1, tailStart, state =>
      if state.total ≤ budget then (tailStart, state)
      else
        match oldestSheddableSpan state.working tailStart with
        | none => (tailStart, state)
        | some (start, stop) =>
            shedHistory budget fuel (tailStart - (stop - start)) (state.shed start stop)

/-- The candidates of one tier are the tool results of the live tail, oldest first. -/
def tierCandidates (cited : CitedSnippets) (tailStart : Nat) (tierCited : Bool)
    (working : List ChatMessage) : List Nat :=
  (List.range' tailStart (working.length - tailStart)).filter fun i =>
    working[i]?.any fun message =>
      message.role = .tool && isCited cited message.toolCallId == tierCited

def FitState.offer (count : Text → Nat) (digestChars : Int) (cited : CitedSnippets)
    (state : FitState) (i : Nat) : Except Raised FitState :=
  FitState.digest count digestChars cited { state with offered := state.offered ++ [i] } i

/-- The candidates of one tier go in chunks until the total fits. -/
def compactChunks (count : Text → Nat) (digestChars : Int) (cited : CitedSnippets) (budget : Int)
    (chunkSize : Nat) : Nat → List Nat → FitState → Except Raised FitState
  | 0, _, state => return state
  | fuel + 1, candidates, state =>
      if state.total ≤ budget || candidates.isEmpty then return state
      else do
        let next ← (candidates.take chunkSize).foldlM (FitState.offer count digestChars cited) state
        compactChunks count digestChars cited budget chunkSize fuel (candidates.drop chunkSize) next

def compactTier (count : Text → Nat) (digestChars : Int) (cited : CitedSnippets) (budget : Int)
    (chunkSize tailStart : Nat) (state : FitState) (tierCited : Bool) : Except Raised FitState :=
  let candidates := tierCandidates cited tailStart tierCited state.working
  compactChunks count digestChars cited budget chunkSize candidates.length candidates state

/-- This is `_compact_oldest_tool_results`; the uncited tier goes first. -/
def compactOldestToolResults (count : Text → Nat) (digestChars : Int) (cited : CitedSnippets)
    (budget : Int) (chunkSize tailStart : Nat) (state : FitState) : Except Raised FitState :=
  [false, true].foldlM (compactTier count digestChars cited budget chunkSize tailStart) state

/-- The loops of `fit_transcript` end with the start of the live tail and the last state. -/
def fitLoops (count : Text → Nat) (strictSchema : StrictSchema) (config : ContextConfig)
    (resolved : Option Int) (cited : CitedSnippets) (messages : List ChatMessage)
    (tools : List ToolSpec) : Except Raised (Nat × FitState) := do
  let budget := inputBudget config resolved
  let started ← FitState.start count strictSchema messages tools
  let compacted ← compactProactively count config cited started
  let tailStart := lastQuestionIndex compacted.working
  if compacted.total ≤ budget then return (tailStart, compacted)
  let shed := shedHistory budget tailStart tailStart compacted
  if shed.2.total ≤ budget then return shed
  let last ← compactOldestToolResults count config.compactionDigestChars cited budget
    (max 1 config.compactionChunkSize).toNat shed.1 shed.2
  return (shed.1, last)

def transcriptTooLarge : Raised :=
  .validation ⟨("This answer's context exceeded the model's window even after " ++
    "trimming history. Start a new conversation or choose a " ++
    "larger-context model.").toList, .contextTooLarge⟩

/-- This is `fit_transcript`. -/
def fitTranscript (count : Text → Nat) (strictSchema : StrictSchema) (config : ContextConfig)
    (resolver : Text → Option Int) (cited : CitedSnippets) (model : Text)
    (messages : List ChatMessage) (tools : List ToolSpec) : Except Raised (List ChatMessage) := do
  let fitted ← fitLoops count strictSchema config (resolver model) cited messages tools
  if inputBudget config (resolver model) < fitted.2.total then throw transcriptTooLarge
  return fitted.2.working

end LumenCopilot.Context
