import RustyRuntime.Journal.Event

/-!
# Chat messages and their wire form

The messages of `llm.rs` as the journal holds them: what `serde` writes for a message, a tool
call and a response, and what it reads back. A tool call carries its arguments as the text of
a JSON value, so reading it back parses that text.

Serde also reads a struct from an array of its fields. Nothing here writes one, and the
readers below take the object form only.
-/

namespace RustyRuntime

/-! ## Fields of an object -/

namespace Json

theorem lookupField_insertField (key other : String) (value : Json)
    (fields : List (String × Json)) :
    lookupField other (insertField key value fields) =
      if key = other then some value else lookupField other fields := by
  induction fields with
  | nil => rfl
  | cons field rest ih =>
    obtain ⟨k, v⟩ := field
    unfold insertField
    by_cases hKey : k = key
    · subst hKey
      by_cases hOther : k = other
      · simp [lookupField, hOther]
      · simp [lookupField, hOther]
    · rw [if_neg hKey]
      split
      · by_cases hOther : key = other
        · simp [lookupField, hOther]
        · simp [lookupField, hOther]
      · rw [lookupField, ih]
        by_cases hOther : key = other
        · subst hOther
          simp [hKey]
        · simp [lookupField, hOther]

/-- The object of the fields that are there, as serde writes a struct whose absent options it
skips. -/
def sparse (entries : List (String × Option Json)) : Json :=
  object (entries.filterMap fun entry => entry.2.map fun v => (entry.1, v))

/-- `#[serde(default)]` on a field. -/
def fieldOr {α : Type} (key : String) (default : α) (read : Json → Option α) (value : Json) :
    Option α :=
  match value.get key with
  | none => some default
  | some v => read v

/-- What serde reads for an `Option`. -/
def readOption {α : Type} (read : Json → Option α) : Json → Option (Option α)
  | .null => some none
  | v => (read v).map some

end Json

/-! ## Messages -/

inductive Llm.Role where
  | system
  | user
  | assistant
  | tool
  deriving DecidableEq

def Llm.Role.name : Llm.Role → String
  | .system => "system"
  | .user => "user"
  | .assistant => "assistant"
  | .tool => "tool"

def Llm.Role.read : Json → Option Llm.Role
  | .str "system" => some .system
  | .str "user" => some .user
  | .str "assistant" => some .assistant
  | .str "tool" => some .tool
  | _ => none

structure ToolCall where
  id : String
  name : String
  arguments : Json
  deriving DecidableEq

structure ChatMessage where
  role : Llm.Role
  content : Option String := none
  toolCalls : List ToolCall := []
  toolCallId : Option String := none
  name : Option String := none
  deriving DecidableEq

structure ChatResponse where
  message : ChatMessage
  model : Option String := none
  usage : Option Usage := none
  deriving DecidableEq

variable (codec : Codec) (value : Json)

/-- `Serialize for ToolCall`. -/
def toolCallJson (call : ToolCall) : Json :=
  Json.object [("id", .str call.id), ("type", .str "function"),
    ("function", Json.object [("name", .str call.name), ("arguments", .str call.arguments.text)])]

def toolCallsJson : List ToolCall → Option Json
  | [] => none
  | calls => some (.arr (calls.map toolCallJson))

def messageJson (m : ChatMessage) : Json :=
  Json.sparse [("role", some (.str m.role.name)), ("content", m.content.map .str),
    ("tool_calls", toolCallsJson m.toolCalls), ("tool_call_id", m.toolCallId.map .str),
    ("name", m.name.map .str)]

/-- A `Usage` as a value, where `usageJson` is its text: the fields in key order. -/
def usageValue (u : Usage) : Json :=
  Json.sparse [("prompt_tokens", some (u64Json u.promptTokens)),
    ("completion_tokens", some (u64Json u.completionTokens)),
    ("total_tokens", some (u64Json u.totalTokens)), ("cached_tokens", u.cachedTokens.map u64Json),
    ("reasoning_tokens", u.reasoningTokens.map u64Json)]

/-! ## Reading them back -/

/-- `Deserialize for ToolCall`: arguments that are a string are parsed, others are taken as
they are. -/
def decodeToolCall : Option ToolCall := do
  let id ← (← value.get "id").asStr
  let function ← value.get "function"
  let name ← (← function.get "name").asStr
  let arguments ← match ← function.get "arguments" with
    | .str s => codec.fromSlice (Json.utf8 s)
    | other => some other
  return ⟨id, name, arguments⟩

def decodeToolCalls : Json → Option (List ToolCall)
  | .arr items => items.mapM (decodeToolCall codec)
  | _ => none

def decodeMessage : Option ChatMessage := do
  let role ← Llm.Role.read (← value.get "role")
  let content ← value.fieldOr "content" none (Json.readOption Json.asStr)
  let toolCalls ← value.fieldOr "tool_calls" [] (decodeToolCalls codec)
  let toolCallId ← value.fieldOr "tool_call_id" none (Json.readOption Json.asStr)
  let name ← value.fieldOr "name" none (Json.readOption Json.asStr)
  return { role, content, toolCalls, toolCallId, name }

def readU64 : Json → Option UInt64
  | .num (.posInt n) => some n
  | _ => none

def decodeUsage : Option Usage :=
  match value with
  | .obj _ => do
    let promptTokens ← value.fieldOr "prompt_tokens" 0 readU64
    let completionTokens ← value.fieldOr "completion_tokens" 0 readU64
    let totalTokens ← value.fieldOr "total_tokens" 0 readU64
    let cachedTokens ← value.fieldOr "cached_tokens" none (Json.readOption readU64)
    let reasoningTokens ← value.fieldOr "reasoning_tokens" none (Json.readOption readU64)
    return { promptTokens, completionTokens, totalTokens, cachedTokens, reasoningTokens }
  | _ => none

end RustyRuntime
