import LumenCopilot.Construction.Python.Json

namespace LumenCopilot.Context

open Python

/-- This is the author of a chat message. -/
inductive Role where
  | system
  | user
  | assistant
  | tool
  deriving DecidableEq

def Role.value : Role → Text
  | .system => "system".toList
  | .user => "user".toList
  | .assistant => "assistant".toList
  | .tool => "tool".toList

/-- A Python dictionary with string keys keeps its insertion order. -/
abbrev Fields := List (Text × Json)

/-- This is a model-requested tool invocation. -/
structure ToolCall where
  id : Text
  name : Text
  arguments : Fields

/-- The source documents are internal data that never reaches the wire. -/
structure ChatMessage where
  role : Role
  content : Text
  toolCalls : List ToolCall := []
  toolCallId : Option Text := none
  name : Option Text := none
  sourceDocumentIds : Option (List (BitVec 128)) := none

/-- This is a tool that the model may call. -/
structure ToolSpec where
  name : Text
  description : Text
  parameters : Fields

inductive ErrorCode where
  | contextTooLarge
  | toolNameCollision
  deriving DecidableEq

/-- This is `ValidationError` of `app.core.errors`. -/
structure ValidationError where
  message : Text
  code : ErrorCode
  deriving DecidableEq

/-- An assembly raises a typed refusal or the code of an invalid summary. -/
inductive Raised where
  | validation (error : ValidationError)
  | summaryValidation (code : Text)
  deriving DecidableEq

def isNameChar (c : Char) : Bool := c.isAlphanum || c == '_'

/-- This is `_SAFE_NAME.fullmatch`. -/
def isSafeName (name : Text) : Bool :=
  1 ≤ name.length && name.length ≤ 64 && name.all isNameChar

/-- The projected name of an unsafe tool name carries a digest of that name. -/
def wireName (name : Text) : Text :=
  if isSafeName name then name
  else
    let spelled := name.flatMap fun c => if c == ':' then ['_', '_'] else [c]
    let readable := spelled.map fun c => if isNameChar c then c else '_'
    let suffix := (Sha256.hexdigest (utf8 name)).take 20
    readable.take 42 ++ ['_', '_'] ++ suffix

/-- The map holds the projected name of every tool name and the reverse. -/
structure ToolNameMap where
  forward : List (Text × Text)
  reverse : List (Text × Text)

def toolNameCollision : Raised :=
  .validation ⟨"Provider tool name collision.".toList, .toolNameCollision⟩

/-- This is one iteration of the loop of `ToolNameMap.__init__`. -/
def ToolNameMap.add (map : ToolNameMap) (name : Text) : Except Raised ToolNameMap :=
  let wire := wireName name
  let extended : ToolNameMap := ⟨(name, wire) :: map.forward, (wire, name) :: map.reverse⟩
  match map.reverse.lookup wire with
  | some other => if other ≠ name then .error toolNameCollision else .ok extended
  | none => .ok extended

/-- This is `ToolNameMap.__init__`. -/
def ToolNameMap.ofNames (names : List Text) : Except Raised ToolNameMap :=
  (sortedSet names).foldlM ToolNameMap.add ⟨[], []⟩

def ToolNameMap.toWire (map : ToolNameMap) (name : Text) : Text :=
  (map.forward.lookup name).getD name

/-- The wire entry of a call serializes its arguments. -/
def ToolCall.entry (map : ToolNameMap) (call : ToolCall) : Json :=
  .dict [("id".toList, .str call.id), ("type".toList, .str "function".toList),
    ("function".toList, .dict [("name".toList, .str (map.toWire call.name)),
      ("arguments".toList, .str (Json.dict call.arguments).dumps)])]

/-- These names meet in the name map of one message. -/
def ChatMessage.toolNames (message : ChatMessage) : List Text :=
  message.toolCalls.map ToolCall.name ++ message.name.toList

/-- This is the wire entry of one message. -/
def ChatMessage.entry (map : ToolNameMap) (message : ChatMessage) : Json :=
  let calls := if message.toolCalls.isEmpty then []
    else [("tool_calls".toList, Json.list (message.toolCalls.map (ToolCall.entry map)))]
  let callId := message.toolCallId.toList.map fun id => ("tool_call_id".toList, Json.str id)
  let name := message.name.toList.map fun name => ("name".toList, Json.str (map.toWire name))
  .dict ([("role".toList, .str message.role.value), ("content".toList, .str message.content)] ++
    calls ++ callId ++ name)

/-- This is `_message_wire_text`. -/
def messageWireText (message : ChatMessage) : Except Raised Text := do
  let map ← ToolNameMap.ofNames message.toolNames
  return (message.entry map).dumpsSorted

/-- The function `strict_schema` closes a parameter schema, or rejects an invalid one. -/
abbrev StrictSchema := Fields → Option Fields

/-- This is `wire_tools`; a tool with an invalid schema is left out. -/
def wireTools (strictSchema : StrictSchema) (tools : List ToolSpec) : Except Raised (List Json) := do
  let map ← ToolNameMap.ofNames (tools.map ToolSpec.name)
  return tools.filterMap fun tool =>
    (strictSchema tool.parameters).map fun parameters =>
      .dict [("type".toList, .str "function".toList),
        ("function".toList, .dict [("name".toList, .str (map.toWire tool.name)),
          ("description".toList, .str tool.description), ("parameters".toList, .dict parameters)])]

/-- This is `_tools_wire_text`. -/
def toolsWireText (strictSchema : StrictSchema) (tools : List ToolSpec) : Except Raised Text := do
  let payload ← wireTools strictSchema tools
  return (Json.list payload).dumpsSorted

def messageFramingTokens : Int := 4

def arrayFramingTokens : Int := 2

/-- The cost of one message is its wire form and the framing of its array entry. -/
def messageCost (count : Text → Nat) (message : ChatMessage) : Except Raised Int := do
  let text ← messageWireText message
  return count text + messageFramingTokens

/-- The tools and the array brackets have a cost that no message changes. -/
def fixedCost (count : Text → Nat) (strictSchema : StrictSchema) (tools : List ToolSpec) :
    Except Raised Int := do
  let text ← toolsWireText strictSchema tools
  return count text + arrayFramingTokens

/-- This is `estimate_message_tokens`. -/
def estimateMessageTokens (count : Text → Nat) (strictSchema : StrictSchema)
    (messages : List ChatMessage) (tools : List ToolSpec) : Except Raised Int := do
  let fixed ← fixedCost count strictSchema tools
  let costs ← messages.mapM (messageCost count)
  return fixed + costs.sum

def ToolNameMap.fromWire (map : ToolNameMap) (name : Text) : Text :=
  (map.reverse.lookup name).getD name

/-- The gateway maps the offered, the called and the result names of one completion. -/
def gatewayNames (messages : List ChatMessage) (tools : List ToolSpec) : List Text :=
  tools.map ToolSpec.name ++
    messages.flatMap (fun message => message.toolCalls.map ToolCall.name) ++
    messages.filterMap ChatMessage.name

/-- This is the provider message of `stream_tools`. -/
def ChatMessage.project (map : ToolNameMap) (message : ChatMessage) : ChatMessage :=
  { message with
    toolCalls := message.toolCalls.map fun call => { call with name := map.toWire call.name }
    name := message.name.map map.toWire }

/-- This is the provider tool of `stream_tools`. -/
def ToolSpec.project (map : ToolNameMap) (tool : ToolSpec) : ToolSpec :=
  { tool with name := map.toWire tool.name }

/-- This is the entry that `_to_wire_messages` renders for a message. -/
def toWireMessage (message : ChatMessage) : Json :=
  let entry := [("role".toList, Json.str message.role.value), ("content".toList, .str message.content)]
  let entry := if message.toolCalls.isEmpty then entry
    else entry ++ [("tool_calls".toList, .list (message.toolCalls.map fun call =>
      .dict [("id".toList, .str call.id), ("type".toList, .str "function".toList),
        ("function".toList, .dict [("name".toList, .str call.name),
          ("arguments".toList, .str (Json.dict call.arguments).dumps)])]))]
  let entry := match message.toolCallId with
    | some id => entry ++ [("tool_call_id".toList, .str id)]
    | none => entry
  let entry := match message.name with
    | some name => entry ++ [("name".toList, .str name)]
    | none => entry
  .dict entry

/-- This is `_to_wire_messages`. -/
def toWireMessages (messages : List ChatMessage) : List Json := messages.map toWireMessage

/-- This is `_to_wire_tools`. -/
def toWireTools (strictSchema : StrictSchema) (tools : List ToolSpec) : Except Raised (List Json) :=
  wireTools strictSchema tools

end LumenCopilot.Context
