/-
  Translate/Request.lean --- requests between the two wire formats.

  Source: src/internal/llmtranslate/translate.go.  A body is a `map[string]any`;
  a feature the target cannot express refuses the whole request with the text that
  names it.  Values of no declared type are carried as they are: a type assertion
  that fails reads as the zero value, and a slice that nothing was appended to is
  null when it is encoded.  The arguments of a tool call are a JSON text that is
  decoded here, so that their numbers become float64s here.
-/
import Kaalm.Foundation.Float64
import Kaalm.Foundation.Text

namespace Kaalm.Translate

open Kaalm.Foundation Kaalm.Foundation.Json

/-- `Format`: a wire format. -/
inductive Format where
  | anthropic
  | openai
  deriving DecidableEq, Repr

mutual

/-- `%v` of a value; a number is written as it came. -/
def formatV : Json → String
  | .null => "<nil>"
  | .bool b => if b then "true" else "false"
  | .num lit => lit
  | .str s => s
  | .arr items => "[" ++ " ".intercalate (formatItems items) ++ "]"
  | .obj members =>
    "map[" ++ " ".intercalate ((formatMembers members []).map fun (k, v) => k ++ ":" ++ v) ++ "]"

def formatItems : List Json → List String
  | [] => []
  | v :: vs => formatV v :: formatItems vs

def formatMembers : Obj → List (String × String) → List (String × String)
  | [], sorted => sorted
  | (k, v) :: rest, sorted => formatMembers rest (insertMember k (formatV v) sorted)

end

def copyIf (input out : Obj) (source target : String) : Obj :=
  match member? source input with
  | none | some .null => out
  | some v => put out target v

/-- The strings under `text` of the objects of a list. -/
def textsOf (items : List Json) : List String :=
  items.filterMap fun raw => (field (asObj raw) "text").string?

def contentText : Json → String
  | .str s => s
  | .arr items => "\n".intercalate (textsOf items)
  | _ => ""

/-! ## Anthropic messages as chat completions -/

/-- The request features that a chat completion cannot express. -/
def anthropicOnly : List (String × String) :=
  [("thinking", "extended thinking"), ("mcp_servers", "MCP servers"), ("container", "a container"),
    ("output_format", "structured outputs")]

def anthropicSystemText : Json → Except String String
  | .str s => .ok s
  | .arr items =>
    if items.all fun raw => (field (asObj raw) "type").isStr "text" then
      .ok ("\n\n".intercalate (textsOf items))
    else .error "a non-text system block, which openai cannot express"
  | _ => .ok ""

def anthropicImageURL (block : Obj) : Except String String :=
  let src := asObj (field block "source")
  match (field src "type").string? with
  | some "base64" =>
    .ok ("data:" ++ formatV (field src "media_type") ++ ";base64," ++ formatV (field src "data"))
  | some "url" => .ok ((field src "url").string?.getD "")
  | _ => .error "an image source openai cannot express"

def anthropicToolResultText (block : Obj) : String := contentText (field block "content")

structure OpenAIPieces where
  toolMessages : List Json := []
  parts : List Json := []
  toolCalls : List Json := []

def OpenAIPieces.add (acc : OpenAIPieces) (raw : Json) : Except String OpenAIPieces :=
  let b := asObj raw
  match (field b "type").string? with
  | some "text" =>
    .ok { acc with parts := acc.parts ++ [.obj [("type", .str "text"), ("text", field b "text")]] }
  | some "image" =>
    (anthropicImageURL b).map fun url =>
      { acc with parts := acc.parts ++
          [.obj [("type", .str "image_url"), ("image_url", .obj [("url", .str url)])]] }
  | some "tool_use" =>
    .ok { acc with toolCalls := acc.toolCalls ++
      [.obj [("id", field b "id"), ("type", .str "function"),
        ("function", .obj [("name", field b "name"),
          ("arguments", .str (field b "input").render)])]] }
  | some "tool_result" =>
    let text := anthropicToolResultText b
    let text := match field b "is_error" with
      | .bool true => "[error] " ++ text
      | _ => text
    .ok { acc with toolMessages := acc.toolMessages ++
      [.obj [("role", .str "tool"), ("tool_call_id", field b "tool_use_id"),
        ("content", .str text)]] }
  | some "thinking" | some "redacted_thinking" => .ok acc
  | some "document" => .error "a document block, which openai cannot express"
  | _ => .error ("a " ++ formatV (field b "type") ++ " content block, which openai cannot express")

def OpenAIPieces.addAll (acc : OpenAIPieces) : List Json → Except String OpenAIPieces
  | [] => .ok acc
  | raw :: rest => (acc.add raw).bind fun acc => acc.addAll rest

def joinTextParts (parts : List Json) : String := "\n".intercalate (textsOf parts)

def allText (parts : List Json) : Bool := parts.all fun raw =>
  (field (asObj raw) "type").isStr "text"

def anthropicMessageToOpenAI (role : String) (content : Json) : Except String (List Json) :=
  match content with
  | .str s => .ok [.obj [("role", .str role), ("content", .str s)]]
  | _ =>
    (OpenAIPieces.addAll {} (asArr content)).map fun pieces =>
      pieces.toolMessages ++
        if role = "assistant" then
          let text := joinTextParts pieces.parts
          let msg : Obj := [("role", .str "assistant"),
            ("content", if text = "" then .null else .str text)]
          [.obj (if pieces.toolCalls.isEmpty then msg
            else put msg "tool_calls" (.arr pieces.toolCalls))]
        else if pieces.parts.isEmpty then []
        else if allText pieces.parts then
          [.obj [("role", .str role), ("content", .str (joinTextParts pieces.parts))]]
        else [.obj [("role", .str role), ("content", .arr pieces.parts)]]

def anthropicMessagesToOpenAI : List Json → Except String (List Json)
  | [] => .ok []
  | raw :: rest =>
    let m := asObj raw
    (anthropicMessageToOpenAI ((field m "role").string?.getD "")
      (field m "content")).bind fun converted =>
      (anthropicMessagesToOpenAI rest).map fun more => converted ++ more

def anthropicToolToOpenAI (raw : Json) : Except String Json :=
  let t := asObj raw
  match (field t "type").string? with
  | some typ =>
    if typ ≠ "custom" ∧ typ ≠ "" then
      .error ("the server tool type " ++ quoted typ ++ ", which openai cannot express")
    else .ok (tool t)
  | none => .ok (tool t)
where
  /-- the function of a client tool -/
  tool (t : Obj) : Json :=
    let fn : Obj := [("name", field t "name")]
    let fn := match member? "description" t with
      | none => fn
      | some d => put fn "description" d
    let fn := match member? "input_schema" t with
      | none => fn
      | some schema => put fn "parameters" schema
    .obj [("type", .str "function"), ("function", .obj fn)]

def anthropicToolChoice (out : Obj) (tc : Obj) : Obj :=
  let out := match (field tc "type").string? with
    | some "auto" => put out "tool_choice" (.str "auto")
    | some "any" => put out "tool_choice" (.str "required")
    | some "none" => put out "tool_choice" (.str "none")
    | some "tool" => put out "tool_choice"
        (.obj [("type", .str "function"), ("function", .obj [("name", field tc "name")])])
    | _ => out
  match field tc "disable_parallel_tool_use" with
  | .bool true => put out "parallel_tool_calls" (.bool false)
  | _ => out

/-- The fields that only change their name, and the user. -/
def anthropicScalars (input out : Obj) : Obj :=
  let out := copyIf input out "max_tokens" "max_tokens"
  let out := copyIf input out "temperature" "temperature"
  let out := copyIf input out "top_p" "top_p"
  let out := copyIf input out "stop_sequences" "stop"
  let out := copyIf input out "stream" "stream"
  match member? "user_id" (asObj (field input "metadata")) with
  | none => out
  | some user => put out "user" user

def promptOf (system : String) : List Json :=
  if system = "" then [] else [.obj [("role", .str "system"), ("content", .str system)]]

/-- The choice of a tool, where the request makes one. -/
def chatToolChoice (input out : Obj) : Obj :=
  match field input "tool_choice" with
  | .obj tc => anthropicToolChoice out tc
  | _ => out

def chatFields (input out : Obj) : Except String Obj := do
  let out ← match field input "tools" with
    | .arr tools => do
      let outTools ← tools.mapM anthropicToolToOpenAI
      pure (put out "tools" (ofSlice outTools))
    | _ => pure out
  return anthropicScalars input (chatToolChoice input out)

def anthropicToOpenAIRequest (input : Obj) (model : String) : Except String Obj := do
  match anthropicOnly.find? fun f => (member? f.1 input).isSome with
  | some feature => throw (feature.2 ++ ", which openai cannot express")
  | none => pure ()
  let system ← match member? "system" input with
    | none => pure ""
    | some system => anthropicSystemText system
  let converted ← anthropicMessagesToOpenAI (asArr (field input "messages"))
  chatFields input
    [("model", .str model), ("messages", ofSlice (promptOf system ++ converted))]

/-! ## Chat completions as Anthropic messages -/

/-- The request features that a message cannot express. -/
def openAIOnly : List (String × String) :=
  [("logprobs", "logprobs"), ("top_logprobs", "logprobs"), ("response_format", "response_format"),
    ("functions", "the legacy functions field"),
    ("function_call", "the legacy function_call field")]

/-- A field that is neither null nor false. -/
def isSet (input : Obj) (key : String) : Bool :=
  match member? key input with
  | none | some .null | some (.bool false) => false
  | some _ => true

def openAIUntranslatable (input : Obj) : Except String Unit :=
  if (numberOf (member? "n" input)).any fun n => 1 < n then
    .error "n greater than 1, which anthropic cannot express"
  else
    match openAIOnly.find? fun f => isSet input f.1 with
    | some feature => .error (feature.2 ++ ", which anthropic cannot express")
    | none => .ok ()

/-- `strings.TrimSuffix`. -/
def trimEnd (cs stop : List Char) : List Char :=
  if stop.isSuffixOf cs then cs.take (cs.length - stop.length) else cs

def imageSource (u : String) : Json :=
  match (Text.cutStart "data:" u).bind fun rest => Text.cutAt ',' rest.toList with
  | some (header, data) =>
    .obj [("type", .str "base64"),
      ("media_type", .str (String.ofList (trimEnd header ";base64".toList))),
      ("data", .str (String.ofList data))]
  | none => .obj [("type", .str "url"), ("url", .str u)]

def openAIPartToBlock (raw : Json) : Except String Json :=
  let part := asObj raw
  match (field part "type").string? with
  | some "text" => .ok (.obj [("type", .str "text"), ("text", field part "text")])
  | some "image_url" =>
    .ok (.obj [("type", .str "image"),
      ("source", imageSource ((field (asObj (field part "image_url")) "url").string?.getD ""))])
  | some "input_audio" => .error "audio content, which anthropic cannot express"
  | _ => .error ("a " ++ formatV (field part "type") ++
    " content part, which anthropic cannot express")

def openAIContentToBlocks : Json → Except String (List Json)
  | .str s => .ok [.obj [("type", .str "text"), ("text", .str s)]]
  | .arr parts => parts.mapM openAIPartToBlock
  | _ => .ok []

def openAICallToBlock (raw : Json) : Except String Json :=
  let call := asObj raw
  let fn := asObj (field call "function")
  let block (input : Json) : Json :=
    .obj [("type", .str "tool_use"), ("id", field call "id"), ("name", field fn "name"),
      ("input", input)]
  match (field fn "arguments").string? with
  | none => .ok (block (.obj []))
  | some args =>
    if Text.trimSpace args = "" then .ok (block (.obj []))
    else
      match (parse args).filter finite with
      | some input => .ok (block (held input))
      | none => .error "tool call arguments that are not JSON"

def openAIAssistantBlocks (m : Obj) : Except String (List Json) :=
  let text := contentText (field m "content")
  ((asArr (field m "tool_calls")).mapM openAICallToBlock).map fun calls =>
    (if text = "" then [] else [.obj [("type", .str "text"), ("text", .str text)]]) ++ calls

/-- A message under construction. -/
structure Turn where
  role : String
  content : List Json

/-- `appendUser`: user content joins the user turn before it. -/
def appendUser (turns : List Turn) (blocks : List Json) : List Turn :=
  match turns.getLast? with
  | some last =>
    if last.role = "user" then turns.dropLast ++ [{ last with content := last.content ++ blocks }]
    else turns ++ [⟨"user", blocks⟩]
  | none => turns ++ [⟨"user", blocks⟩]

/-- The system texts and the turns so far. -/
structure Conversation where
  system : List String := []
  turns : List Turn := []

def Conversation.add (c : Conversation) (rawMsg : Json) : Except String Conversation :=
  let m := asObj rawMsg
  let role := (field m "role").string?.getD ""
  if role = "system" ∨ role = "developer" then
    .ok { c with system := c.system ++ [contentText (field m "content")] }
  else if role = "user" then
    (openAIContentToBlocks (field m "content")).map fun blocks =>
      { c with turns := appendUser c.turns blocks }
  else if role = "assistant" then
    (openAIAssistantBlocks m).map fun blocks =>
      { c with turns := c.turns ++ [⟨"assistant", blocks⟩] }
  else if role = "tool" then
    let result : Json := .obj [("type", .str "tool_result"),
      ("tool_use_id", field m "tool_call_id"),
      ("content", .str (contentText (field m "content")))]
    .ok { c with turns := appendUser c.turns [result] }
  else .error ("the " ++ quoted role ++ " message role, which anthropic cannot express")

def Conversation.addAll (c : Conversation) : List Json → Except String Conversation
  | [] => .ok c
  | raw :: rest => (c.add raw).bind fun c => c.addAll rest

def Turn.toJson (t : Turn) : Json := .obj [("role", .str t.role), ("content", ofSlice t.content)]

def openAIMessagesToAnthropic (raw : Json) : Except String (String × List Json) :=
  (Conversation.addAll {} (asArr raw)).map fun c =>
    ("\n\n".intercalate c.system, c.turns.map Turn.toJson)

def openAIToolToAnthropic (raw : Json) : Except String Json :=
  let t := asObj raw
  if (field t "type").isStr "function" then
    let fn := asObj (field t "function")
    let tool : Obj := [("name", field fn "name")]
    let tool := match member? "description" fn with
      | none => tool
      | some d => put tool "description" d
    .ok (.obj (match member? "parameters" fn with
      | some params => put tool "input_schema" params
      | none => put tool "input_schema"
          (.obj [("type", .str "object"), ("properties", .obj [])])))
  else .error ("the tool type " ++ formatV (field t "type") ++ ", which anthropic cannot express")

def openAIToolChoiceToAnthropic (input : Obj) : Option Obj :=
  let toolChoice : Option Obj := match field input "tool_choice" with
    | .str tc =>
      if tc = "auto" then some [("type", .str "auto")]
      else if tc = "required" then some [("type", .str "any")]
      else if tc = "none" then some [("type", .str "none")]
      else none
    | .obj tc => some [("type", .str "tool"), ("name", field (asObj (field tc "function")) "name")]
    | _ => none
  match field input "parallel_tool_calls" with
  | .bool false =>
    some (put (toolChoice.getD [("type", .str "auto")]) "disable_parallel_tool_use" (.bool true))
  | _ => toolChoice

def statedMaxTokens (input : Obj) : Option Int :=
  (numberOf (member? "max_completion_tokens" input)).or (numberOf (member? "max_tokens" input))

def openAIMaxTokens (input : Obj) (model : String) (maxOutputTokens : Int) : Except String Int :=
  match statedMaxTokens input with
  | none =>
    if maxOutputTokens ≤ 0 then
      .error ("no max_tokens, which anthropic requires, and model " ++ quoted model ++
        " declares no maxOutputTokens")
    else .ok maxOutputTokens
  | some maxTokens =>
    if 0 < maxOutputTokens ∧ maxOutputTokens < maxTokens then .ok maxOutputTokens
    else .ok maxTokens

def openAIScalars (input out : Obj) : Obj :=
  let out := copyIf input out "temperature" "temperature"
  let out := copyIf input out "top_p" "top_p"
  let out := copyIf input out "stream" "stream"
  let out := match field input "stop" with
    | .str stop => put out "stop_sequences" (.arr [.str stop])
    | .arr stop => put out "stop_sequences" (.arr stop)
    | _ => out
  match member? "user" input with
  | none => out
  | some user => put out "metadata" (.obj [("user_id", user)])

/-- The choice of a tool, where the request makes one. -/
def messageToolChoice (input out : Obj) : Obj :=
  match openAIToolChoiceToAnthropic input with
  | none => out
  | some toolChoice => put out "tool_choice" (.obj toolChoice)

def messageFields (input : Obj) (model : String) (maxOutputTokens : Int) (out : Obj) :
    Except String Obj := do
  let out ← match field input "tools" with
    | .arr tools => do
      let outTools ← tools.mapM openAIToolToAnthropic
      pure (put out "tools" (ofSlice outTools))
    | _ => pure out
  let maxTokens ← openAIMaxTokens input model maxOutputTokens
  return openAIScalars input
    (put (messageToolChoice input out) "max_tokens" (.num (toString maxTokens)))

def openAIToAnthropicRequest (input : Obj) (model : String) (maxOutputTokens : Int) :
    Except String Obj := do
  openAIUntranslatable input
  let (system, messages) ← openAIMessagesToAnthropic (field input "messages")
  let out : Obj := [("model", .str model)]
  let out := if system = "" then out else put out "system" (.str system)
  messageFields input model maxOutputTokens (put out "messages" (.arr messages))

/-- `Request`; the error is the text of an `Untranslatable`. -/
def request (source target : Format) (body : Obj) (model : String) (maxOutputTokens : Int) :
    Except String Obj :=
  let translated := match source, target with
    | .anthropic, .openai => anthropicToOpenAIRequest body model
    | .openai, .anthropic => openAIToAnthropicRequest body model maxOutputTokens
    | .anthropic, .anthropic | .openai, .openai => .ok (put body "model" (.str model))
  translated.mapError fun feature => "request uses " ++ feature

end Kaalm.Translate
