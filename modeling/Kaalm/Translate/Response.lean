/-
  Translate/Response.lean --- buffered answers between the two wire formats.

  Source: src/internal/llmtranslate/response.go.  An answer is decoded into the
  fields its format declares, so a value of another type there refuses the whole
  answer; what `encoding/json` says about it is not kept.
-/
import Kaalm.Translate.Request

namespace Kaalm.Translate

open Kaalm.Foundation Kaalm.Foundation.Json

def stopToFinish (stop : String) : Option String :=
  [("end_turn", "stop"), ("max_tokens", "length"), ("tool_use", "tool_calls"),
    ("stop_sequence", "stop"), ("refusal", "content_filter"), ("pause_turn", "stop")].lookup stop

def finishToStop (finish : String) : Option String :=
  [("stop", "end_turn"), ("length", "max_tokens"), ("tool_calls", "tool_use"),
    ("content_filter", "refusal")].lookup finish

def ofInt (n : Int) : Json := .num (toString n)

/-! ## Anthropic answers -/

/-- `usage` of an Anthropic answer. -/
structure AnthropicUsage where
  inputTokens : Int := 0
  outputTokens : Int := 0
  cacheReadInputTokens : Int := 0
  cacheCreationInputTokens : Int := 0

structure AnthropicResponse where
  id : String := ""
  model : String := ""
  content : Slice Obj := .nil
  stopReason : String := ""
  usage : AnthropicUsage := {}

def AnthropicUsage.decode : AnthropicUsage → Json → Option AnthropicUsage :=
  intoStruct ["input_tokens", "output_tokens", "cache_read_input_tokens",
      "cache_creation_input_tokens"] fun u name v =>
    if name = "input_tokens" then (intoInt u.inputTokens v).map fun n => { u with inputTokens := n }
    else if name = "output_tokens" then
      (intoInt u.outputTokens v).map fun n => { u with outputTokens := n }
    else if name = "cache_read_input_tokens" then
      (intoInt u.cacheReadInputTokens v).map fun n => { u with cacheReadInputTokens := n }
    else
      (intoInt u.cacheCreationInputTokens v).map fun n => { u with cacheCreationInputTokens := n }

def AnthropicResponse.decode : AnthropicResponse → Json → Option AnthropicResponse :=
  intoStruct ["id", "model", "content", "stop_reason", "usage"] fun r name v =>
    if name = "id" then (intoString r.id v).map fun s => { r with id := s }
    else if name = "model" then (intoString r.model v).map fun s => { r with model := s }
    else if name = "content" then (intoSlice [] intoMap r.content v).map fun c =>
      { r with content := c }
    else if name = "stop_reason" then
      (intoString r.stopReason v).map fun s => { r with stopReason := s }
    else (AnthropicUsage.decode r.usage v).map fun u => { r with usage := u }

structure AnswerPieces where
  text : String := ""
  toolCalls : List Json := []

def AnswerPieces.add (acc : AnswerPieces) (block : Obj) : AnswerPieces :=
  match (field block "type").string? with
  | some "text" =>
    match (field block "text").string? with
    | some t => { acc with text := (if acc.text = "" then "" else acc.text ++ "\n") ++ t }
    | none => acc
  | some "tool_use" =>
    { acc with toolCalls := acc.toolCalls ++
      [.obj [("id", field block "id"), ("type", .str "function"),
        ("function", .obj [("name", field block "name"),
          ("arguments", .str (field block "input").render)])]] }
  | _ => acc

def anthropicToOpenAIResponse (created : Int) (body : String) : Option Obj :=
  ((parse body).bind (AnthropicResponse.decode {})).map fun input =>
    let pieces := input.content.items.foldl AnswerPieces.add {}
    let message : Obj := [("role", .str "assistant"),
      ("content", if pieces.text = "" then .null else .str pieces.text)]
    let message := if pieces.toolCalls.isEmpty then message
      else put message "tool_calls" (.arr pieces.toolCalls)
    let prompt := wrapInt64 (input.usage.inputTokens + input.usage.cacheReadInputTokens +
      input.usage.cacheCreationInputTokens)
    [("id", .str input.id), ("object", .str "chat.completion"), ("created", ofInt created),
      ("model", .str input.model),
      ("choices", .arr [.obj [("index", .num "0"), ("message", .obj message),
        ("finish_reason", .str ((stopToFinish input.stopReason).getD "stop"))]]),
      ("usage", .obj [("prompt_tokens", ofInt prompt),
        ("completion_tokens", ofInt input.usage.outputTokens),
        ("total_tokens", ofInt (wrapInt64 (prompt + input.usage.outputTokens)))])]

/-! ## OpenAI answers -/

/-- `function` of a tool call. -/
structure AnswerFunction where
  name : String := ""
  arguments : String := ""
  deriving DecidableEq, Repr

/-- One item of `tool_calls`. -/
structure AnswerCall where
  id : String := ""
  function : AnswerFunction := {}

structure AnswerMessage where
  content : Json := .null
  toolCalls : Slice AnswerCall := .nil

/-- One item of `choices`. -/
structure AnswerChoice where
  message : AnswerMessage := {}
  finishReason : String := ""

/-- `usage`. -/
structure OpenAIUsage where
  promptTokens : Int := 0
  completionTokens : Int := 0
  deriving DecidableEq, Repr

structure OpenAIResponse where
  id : String := ""
  model : String := ""
  choices : Slice AnswerChoice := .nil
  usage : OpenAIUsage := {}

def AnswerFunction.decode : AnswerFunction → Json → Option AnswerFunction :=
  intoStruct ["name", "arguments"] fun f name v =>
    if name = "name" then (intoString f.name v).map fun s => { f with name := s }
    else (intoString f.arguments v).map fun s => { f with arguments := s }

def AnswerCall.decode : AnswerCall → Json → Option AnswerCall :=
  intoStruct ["id", "function"] fun c name v =>
    if name = "id" then (intoString c.id v).map fun s => { c with id := s }
    else (AnswerFunction.decode c.function v).map fun f => { c with function := f }

def AnswerMessage.decode : AnswerMessage → Json → Option AnswerMessage :=
  intoStruct ["content", "tool_calls"] fun m name v =>
    if name = "content" then (intoAny v).map fun c => { m with content := c }
    else (intoSlice {} AnswerCall.decode m.toolCalls v).map fun cs => { m with toolCalls := cs }

def AnswerChoice.decode : AnswerChoice → Json → Option AnswerChoice :=
  intoStruct ["message", "finish_reason"] fun c name v =>
    if name = "message" then (AnswerMessage.decode c.message v).map fun m => { c with message := m }
    else (intoString c.finishReason v).map fun s => { c with finishReason := s }

def OpenAIUsage.decode : OpenAIUsage → Json → Option OpenAIUsage :=
  intoStruct ["prompt_tokens", "completion_tokens"] fun u name v =>
    if name = "prompt_tokens" then
      (intoInt u.promptTokens v).map fun n => { u with promptTokens := n }
    else (intoInt u.completionTokens v).map fun n => { u with completionTokens := n }

def OpenAIResponse.decode : OpenAIResponse → Json → Option OpenAIResponse :=
  intoStruct ["id", "model", "choices", "usage"] fun r name v =>
    if name = "id" then (intoString r.id v).map fun s => { r with id := s }
    else if name = "model" then (intoString r.model v).map fun s => { r with model := s }
    else if name = "choices" then
      (intoSlice {} AnswerChoice.decode r.choices v).map fun cs => { r with choices := cs }
    else (OpenAIUsage.decode r.usage v).map fun u => { r with usage := u }

/-- The input of a tool call; arguments that are no JSON are kept as text. -/
def answerInput (arguments : String) : Json :=
  if arguments = "" then .obj []
  else
    match (parse arguments).bind intoAny with
    | some input => input
    | none => .obj [("_arguments", .str arguments)]

def answerBlocks (choice : AnswerChoice) : List Json × String :=
  let text := contentText choice.message.content
  ((if text = "" then [] else [.obj [("type", .str "text"), ("text", .str text)]]) ++
      choice.message.toolCalls.items.map fun call =>
        .obj [("type", .str "tool_use"), ("id", .str call.id), ("name", .str call.function.name),
          ("input", answerInput call.function.arguments)],
    if choice.message.toolCalls.items.isEmpty then
      (finishToStop choice.finishReason).getD "end_turn"
    else "tool_use")

def openAIToAnthropicResponse (body : String) : Option Obj :=
  ((parse body).bind (OpenAIResponse.decode {})).map fun input =>
    let answer := (input.choices.items.head?.map answerBlocks).getD ([], "end_turn")
    [("id", .str input.id), ("type", .str "message"), ("role", .str "assistant"),
      ("model", .str input.model), ("content", .arr answer.1), ("stop_reason", .str answer.2),
      ("stop_sequence", .null),
      ("usage", .obj [("input_tokens", ofInt input.usage.promptTokens),
        ("output_tokens", ofInt input.usage.completionTokens)])]

/-- `Response`; none when the body is not an answer of its format. -/
def response (source target : Format) (created : Int) (body : String) : Option String :=
  match source, target with
  | .anthropic, .openai => (anthropicToOpenAIResponse created body).map fun out =>
    (Json.obj out).render
  | .openai, .anthropic => (openAIToAnthropicResponse body).map fun out => (Json.obj out).render
  | .anthropic, .anthropic | .openai, .openai => some body

/-! ## Errors -/

/-- `error` of an error body, in either format. -/
structure ErrorDetail where
  type : String := ""
  message : String := ""

def ErrorDetail.decode : ErrorDetail → Json → Option ErrorDetail :=
  intoStruct ["type", "message"] fun e name v =>
    if name = "type" then (intoString e.type v).map fun s => { e with type := s }
    else (intoString e.message v).map fun s => { e with message := s }

/-- The error a body reports, if it reports one with a message. -/
def errorDetail (body : String) : Option ErrorDetail :=
  ((parse body).bind fun j =>
    intoStruct ["error"] (fun (e : ErrorDetail) _ v => ErrorDetail.decode e v) {} j).filter
      fun e => e.message ≠ ""

def error (source target : Format) (body : String) : String :=
  if source = target then body
  else
    let detail := (errorDetail body).getD ⟨"", body⟩
    let errType := if detail.type = "" then "invalid_request_error" else detail.type
    match target with
    | .anthropic =>
      (Json.obj [("type", .str "error"),
        ("error", .obj [("type", .str errType), ("message", .str detail.message)])]).render
    | .openai =>
      (Json.obj [("error", .obj [("message", .str detail.message), ("type", .str errType),
        ("code", .null)])]).render

end Kaalm.Translate
