/-
  Gateway/Adapters.lean --- the provider adapters
  (`internal/gateway/adapters.go`, `vertex.go`, `api/v1beta1/fallback.go`, and
  `costOf` of `budget.go`).

  An adapter is chosen twice for a request: by the path it came in on and by the
  type of the provider it goes to.  No Vertex path is routed, so what the Vertex
  adapter does to a path is left out.
-/
import Kaalm.Foundation.Header
import Kaalm.Gateway.Store
import Kaalm.Translate.Response

namespace Kaalm.Gateway

open Kaalm.Foundation Kaalm.Foundation.Json Kaalm.Translate

/-! ## Types and formats -/

/-- The value of `spec.type`. -/
def ProviderType.text : ProviderType → String
  | .anthropic => "anthropic"
  | .openai => "openai"
  | .openaiCompatible => "openai-compatible"
  | .googleVertex => "google-vertex"

def providerFormat : ProviderType → ProviderType
  | .openaiCompatible => .openai
  | t => t

def translatableFormat : ProviderType → Bool
  | .anthropic | .openai | .openaiCompatible => true
  | .googleVertex => false

def fallbackFormatCompatible (parent child : ProviderType) : Bool :=
  parent = child || (translatableFormat parent && translatableFormat child)

def fallbackCrossesFormat (parent child : ProviderType) : Bool :=
  providerFormat parent ≠ providerFormat child

/-- `formatForType`; none for a type the translator does not speak. -/
def formatForType (t : ProviderType) : Option Format :=
  match providerFormat t with
  | .anthropic => some .anthropic
  | .openai => some .openai
  | _ => none

def canonicalPath : Format → String
  | .anthropic => "/v1/messages"
  | .openai => "/v1/chat/completions"

/-! ## Adapters -/

/-- `providerAdapter`. -/
inductive Adapter where
  | anthropic
  | openai
  | vertex
  deriving DecidableEq, Repr

def adapterForPath (urlPath : String) : Option Adapter :=
  let path := (Text.cut '?' urlPath).elim urlPath Prod.fst
  if path = "/v1/messages" then some .anthropic
  else if path = "/v1/chat/completions" ∨ path = "/v1/completions" then some .openai
  else none

/-- `adapterForProviderType`; the schema admits no other type. -/
def adapterForProviderType : ProviderType → Adapter
  | .anthropic => .anthropic
  | .openai | .openaiCompatible => .openai
  | .googleVertex => .vertex

namespace Adapter

def formatName : Adapter → ProviderType
  | .anthropic => .anthropic
  | .openai => .openai
  | .vertex => .googleVertex

def injectCredential (a : Adapter) (h : Header) (credential : String) : Header :=
  match a with
  | .anthropic => h.set "x-api-key" credential
  | .openai | .vertex => h.set "Authorization" ("Bearer " ++ credential)

def fixupRequestBody (a : Adapter) (body : Obj) : Obj :=
  match a, field body "stream" with
  | .openai, .bool true =>
    if (member? "stream_options" body).isSome then body
    else put body "stream_options" (.obj [("include_usage", .bool true)])
  | _, _ => body

end Adapter

/-! ## Usage -/

/-- `Usage`.  Of the tools only whether there are any is looked at, so a nil map
is the empty list. -/
structure Usage where
  inputTokens : Int := 0
  outputTokens : Int := 0
  serverTools : List (String × Int) := []
  deriving DecidableEq, Repr

def Usage.isZero (u : Usage) : Bool :=
  u.inputTokens = 0 && u.outputTokens = 0 && u.serverTools.isEmpty

/-- `serverToolCounts`; the argument is the raw value, none when it is absent. -/
def serverToolCounts : Option Json → List (String × Int)
  | some (.obj members) =>
    match members.mapM fun (key, v) => (intoInt 0 v).map fun n => (key, n) with
    | none => []
    | some counts =>
      let counts : GoMap String Int := counts.foldl (fun m (key, n) => m.insert key n) ∅
      (counts.entries.filter fun e => 0 < e.2).map fun e =>
        (String.ofList (trimEnd e.1.toList "_requests".toList), e.2)
  | _ => []

/-- `usage` of an Anthropic answer. -/
structure AnthropicTokens where
  inputTokens : Int := 0
  outputTokens : Int := 0
  serverToolUse : Option Json := none

def AnthropicTokens.decode : AnthropicTokens → Json → Option AnthropicTokens :=
  intoStruct ["input_tokens", "output_tokens", "server_tool_use"] fun u name v =>
    if name = "input_tokens" then (intoInt u.inputTokens v).map fun n => { u with inputTokens := n }
    else if name = "output_tokens" then
      (intoInt u.outputTokens v).map fun n => { u with outputTokens := n }
    else some { u with serverToolUse := some v }

/-- An event of an Anthropic stream; `inputTokens` is `message.usage.input_tokens`
and the two others are of `usage`. -/
structure AnthropicStreamEvent where
  type : String := ""
  inputTokens : Int := 0
  outputTokens : Int := 0
  serverToolUse : Option Json := none

def AnthropicStreamEvent.decode : AnthropicStreamEvent → Json → Option AnthropicStreamEvent :=
  intoStruct ["type", "message", "usage"] fun e name v =>
    if name = "type" then (intoString e.type v).map fun s => { e with type := s }
    else if name = "message" then
      intoStruct ["usage"] (fun e _ v =>
        intoStruct ["input_tokens"] (fun (e : AnthropicStreamEvent) _ v =>
          (intoInt e.inputTokens v).map fun n => { e with inputTokens := n }) e v) e v
    else
      intoStruct ["output_tokens", "server_tool_use"] (fun (e : AnthropicStreamEvent) name v =>
        if name = "output_tokens" then
          (intoInt e.outputTokens v).map fun n => { e with outputTokens := n }
        else some { e with serverToolUse := some v }) e v

/-- The pointer `usage` of an OpenAI chunk. -/
def decodeOpenAIChunkUsage : Option OpenAIUsage → Json → Option (Option OpenAIUsage) :=
  intoStruct ["usage"] fun u _ v => intoPtr {} OpenAIUsage.decode u v

/-- `usageMetadata` of a Vertex answer. -/
structure VertexTokens where
  promptTokenCount : Int := 0
  candidatesTokenCount : Int := 0

def VertexTokens.decode : VertexTokens → Json → Option VertexTokens :=
  intoStruct ["promptTokenCount", "candidatesTokenCount"] fun u name v =>
    if name = "promptTokenCount" then
      (intoInt u.promptTokenCount v).map fun n => { u with promptTokenCount := n }
    else (intoInt u.candidatesTokenCount v).map fun n => { u with candidatesTokenCount := n }

/-- A Vertex answer or chunk; a candidate is its `groundingMetadata.webSearchQueries`. -/
structure VertexAnswer where
  usageMetadata : Option VertexTokens := none
  candidates : Slice (Slice String) := .nil

def decodeVertexCandidate : Slice String → Json → Option (Slice String) :=
  intoStruct ["groundingMetadata"] fun queries _ v =>
    intoStruct ["webSearchQueries"] (fun queries _ v => intoSlice "" intoString queries v) queries v

/-- Buffered, `usageMetadata` is a struct and null leaves it; in a chunk it is a
pointer and null clears it. -/
def VertexAnswer.decode (buffered : Bool) : VertexAnswer → Json → Option VertexAnswer :=
  intoStruct ["usageMetadata", "candidates"] fun a name v =>
    if name = "usageMetadata" then
      if buffered then
        (VertexTokens.decode (a.usageMetadata.getD {}) v).map fun u =>
          { a with usageMetadata := some u }
      else (intoPtr {} VertexTokens.decode a.usageMetadata v).map fun u =>
        { a with usageMetadata := u }
    else
      (intoSlice .nil decodeVertexCandidate a.candidates v).map fun c => { a with candidates := c }

def vertexServerTools (candidates : Slice (Slice String)) : List (String × Int) :=
  let queries := (candidates.items.map fun c => c.items.length).sum
  if queries = 0 then [] else [("google_search", queries)]

def Usage.reported (u : Usage) : Option Usage := if u.isZero then none else some u

namespace Adapter

def extractUsage (a : Adapter) (body : String) : Option Usage :=
  (parse body).bind fun v =>
    match a with
    | .anthropic =>
      (intoStruct ["usage"] (fun u _ v => AnthropicTokens.decode u v) {} v).bind fun u =>
        Usage.reported ⟨u.inputTokens, u.outputTokens, serverToolCounts u.serverToolUse⟩
    | .openai =>
      (intoStruct ["usage"] (fun u _ v => OpenAIUsage.decode u v) {} v).bind fun u =>
        Usage.reported ⟨u.promptTokens, u.completionTokens, []⟩
    | .vertex =>
      (VertexAnswer.decode true {} v).bind fun answer =>
        let u := answer.usageMetadata.getD {}
        Usage.reported ⟨u.promptTokenCount, u.candidatesTokenCount,
          vertexServerTools answer.candidates⟩

def accumulateStreamUsage (a : Adapter) (data : String) (u : Usage) : Usage :=
  match a with
  | .anthropic =>
    match (parse data).bind (AnthropicStreamEvent.decode {}) with
    | none => u
    | some evt =>
      if evt.type = "message_start" then { u with inputTokens := evt.inputTokens }
      else if evt.type = "message_delta" then
        let u := if 0 < evt.outputTokens then { u with outputTokens := evt.outputTokens } else u
        let tools := serverToolCounts evt.serverToolUse
        if tools.isEmpty then u else { u with serverTools := tools }
      else u
  | .openai =>
    if Text.trimSpace data = "[DONE]" then u
    else
      match (parse data).bind (decodeOpenAIChunkUsage none) with
      | some (some usage) =>
        { u with inputTokens := usage.promptTokens, outputTokens := usage.completionTokens }
      | _ => u
  | .vertex =>
    match (parse data).bind (VertexAnswer.decode false {}) with
    | none => u
    | some chunk =>
      let tools := vertexServerTools chunk.candidates
      let u := if tools.isEmpty then u else { u with serverTools := tools }
      match chunk.usageMetadata with
      | none => u
      | some usage => { u with inputTokens := usage.promptTokenCount,
                               outputTokens := usage.candidatesTokenCount }

end Adapter

/-! ## The model catalog -/

def costOf (provider : Provider) (modelID : String) (usage : Usage) : ℚ :=
  match provider.models.find? fun m => m.id = modelID with
  | none => 0
  | some m =>
    match parseAmount m.costPer1MInputTokens, parseAmount m.costPer1MOutputTokens with
    | some input, some output =>
      (usage.inputTokens : ℚ) * input / 1000000 + (usage.outputTokens : ℚ) * output / 1000000
    | _, _ => 0

theorem costOf_of_isZero (provider : Provider) (modelID : String) {usage : Usage}
    (h : usage.isZero = true) : costOf provider modelID usage = 0 := by
  simp only [Usage.isZero, Bool.and_eq_true, decide_eq_true_eq] at h
  obtain ⟨⟨hin, hout⟩, _⟩ := h
  unfold costOf
  split
  · rfl
  · split
    · simp [hin, hout]
    · rfl

def maxOutputTokensOf (provider : Provider) (model : String) : Int :=
  ((provider.models.find? fun m => m.id = model ∧ m.maxOutputTokens.isSome).bind
    fun m => m.maxOutputTokens).getD 0

def Provider.offers (provider : Provider) (model : String) : Bool :=
  provider.models.any fun m => m.id = model

end Kaalm.Gateway
