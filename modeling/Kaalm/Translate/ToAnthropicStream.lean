/-
  Translate/ToAnthropicStream.lean --- OpenAI chunks as Anthropic events.

  Source: src/internal/llmtranslate/stream.go (`openAIToAnthropicStream`).  The
  translator reads an event stream line by line and writes Anthropic events, three
  lines each; `AnthropicEvent.sse` is the text of one.

  THE READER.  `Reader` is an Anthropic client: it expects one message_start, the
  blocks 0, 1, 2, ... one after the other, each delta in the block that is open and
  of its kind, one message_delta and one message_stop.  The translator's flags say
  in which state such a reader is (`readerOf`), and a whole stream is well formed just
  if all of its lines are orderly.
-/
import Kaalm.Foundation.GoMap
import Kaalm.Foundation.Transducer
import Kaalm.Translate.Response

namespace Kaalm.Translate

open Kaalm.Foundation

/-! ## Chunks -/

/-- One item of `tool_calls`. -/
structure CallDelta where
  index : Int := 0
  id : String := ""
  function : Option AnswerFunction := none
  deriving DecidableEq, Repr

def CallDelta.name (call : CallDelta) : String := call.function.elim "" (·.name)

def CallDelta.arguments (call : CallDelta) : String := call.function.elim "" (·.arguments)

/-- `delta` of a choice. -/
structure ChoiceDelta where
  content : Option String := none
  toolCalls : Json.Slice CallDelta := .nil
  deriving DecidableEq, Repr

/-- One item of `choices`. -/
structure ChunkChoice where
  delta : ChoiceDelta := {}
  finishReason : Option String := none
  deriving DecidableEq, Repr

structure OpenAIChunk where
  model : String := ""
  choices : Json.Slice ChunkChoice := .nil
  usage : Option OpenAIUsage := none
  deriving DecidableEq, Repr

def CallDelta.decode : CallDelta → Json → Option CallDelta :=
  Json.intoStruct ["index", "id", "function"] fun c field v =>
    if field = "index" then (Json.intoInt c.index v).map fun n => { c with index := n }
    else if field = "id" then (Json.intoString c.id v).map fun s => { c with id := s }
    else (Json.intoPtr {} AnswerFunction.decode c.function v).map fun f => { c with function := f }

def ChoiceDelta.decode : ChoiceDelta → Json → Option ChoiceDelta :=
  Json.intoStruct ["content", "tool_calls"] fun d field v =>
    if field = "content" then
      (Json.intoPtr "" Json.intoString d.content v).map fun c => { d with content := c }
    else
      (Json.intoSlice {} CallDelta.decode d.toolCalls v).map fun calls =>
        { d with toolCalls := calls }

def ChunkChoice.decode : ChunkChoice → Json → Option ChunkChoice :=
  Json.intoStruct ["delta", "finish_reason"] fun c field v =>
    if field = "delta" then (ChoiceDelta.decode c.delta v).map fun d => { c with delta := d }
    else
      (Json.intoPtr "" Json.intoString c.finishReason v).map fun r => { c with finishReason := r }

def OpenAIChunk.decode : OpenAIChunk → Json → Option OpenAIChunk :=
  Json.intoStruct ["model", "choices", "usage"] fun c field v =>
    if field = "model" then (Json.intoString c.model v).map fun s => { c with model := s }
    else if field = "choices" then
      (Json.intoSlice {} ChunkChoice.decode c.choices v).map fun cs => { c with choices := cs }
    else (Json.intoPtr {} OpenAIUsage.decode c.usage v).map fun u => { c with usage := u }

/-! ## Events -/

inductive Block where
  | text
  | toolUse (id name : String)
  deriving DecidableEq, Repr

def Block.isTool : Block → Bool
  | .text => false
  | .toolUse _ _ => true

inductive BlockDelta where
  | text (text : String)
  | inputJson (partialJson : String)
  deriving DecidableEq, Repr

def BlockDelta.isTool : BlockDelta → Bool
  | .text _ => false
  | .inputJson _ => true

inductive AnthropicEvent where
  | messageStart (id model : String)
  | blockStart (index : Nat) (block : Block)
  | blockDelta (index : Nat) (delta : BlockDelta)
  | blockStop (index : Nat)
  | messageDelta (stopReason : String) (inputTokens outputTokens : Int)
  | messageStop
  deriving DecidableEq, Repr

namespace AnthropicEvent

def name : AnthropicEvent → String
  | .messageStart _ _ => "message_start"
  | .blockStart _ _ => "content_block_start"
  | .blockDelta _ _ => "content_block_delta"
  | .blockStop _ => "content_block_stop"
  | .messageDelta _ _ _ => "message_delta"
  | .messageStop => "message_stop"

def usage (inputTokens outputTokens : Int) : Json :=
  .obj [("input_tokens", .num (toString inputTokens)),
    ("output_tokens", .num (toString outputTokens))]

def blockPayload : Block → Json
  | .text => .obj [("type", .str "text"), ("text", .str "")]
  | .toolUse id name =>
    .obj [("type", .str "tool_use"), ("id", .str id), ("name", .str name), ("input", .obj [])]

def deltaPayload : BlockDelta → Json
  | .text text => .obj [("type", .str "text_delta"), ("text", .str text)]
  | .inputJson part => .obj [("type", .str "input_json_delta"), ("partial_json", .str part)]

/-- The value on the data line. -/
def payload (e : AnthropicEvent) : Json :=
  .obj (("type", .str e.name) :: match e with
    | .messageStart id model =>
      [("message", .obj [("id", .str id), ("type", .str "message"), ("role", .str "assistant"),
        ("model", .str model), ("content", .arr []), ("stop_reason", .null),
        ("stop_sequence", .null), ("usage", usage 0 0)])]
    | .blockStart index block =>
      [("index", .num (toString index)), ("content_block", blockPayload block)]
    | .blockDelta index delta => [("index", .num (toString index)), ("delta", deltaPayload delta)]
    | .blockStop index => [("index", .num (toString index))]
    | .messageDelta stop inputTokens outputTokens =>
      [("delta", .obj [("stop_reason", .str stop), ("stop_sequence", .null)]),
        ("usage", usage inputTokens outputTokens)]
    | .messageStop => [])

/-- `sseEvent`: the lines of an event. -/
def sse (e : AnthropicEvent) : List String :=
  ["event: " ++ e.name, "data: " ++ e.payload.render, ""]

end AnthropicEvent

/-! ## The translator -/

/-- `openAIToAnthropicStream`.  The index map is nil in the source just as long as it
is empty here. -/
structure ToAnthropicStream where
  model : String
  id : String
  started : Bool := false
  blockOpen : Bool := false
  blockIndex : Nat := 0
  blockIsTool : Bool := false
  toolIndexes : GoMap Int Nat := ∅
  finish : String := ""
  deltaSent : Bool := false
  stopped : Bool := false
  outputTokens : Int := 0
  inputTokens : Int := 0
  deriving DecidableEq

namespace ToAnthropicStream

def openBlock (s : ToAnthropicStream) (block : Block) : ToAnthropicStream × List AnthropicEvent :=
  let index := if s.blockOpen then s.blockIndex + 1 else s.blockIndex
  ({ s with blockIndex := index, blockOpen := true, blockIsTool := block.isTool },
    (if s.blockOpen then [.blockStop s.blockIndex] else []) ++ [.blockStart index block])

/-- The stop reason of `messageDelta`. -/
def stopReason (s : ToAnthropicStream) : String :=
  if s.finish = "tool_calls" ∨ (s.toolIndexes ≠ ∅ ∧ s.finish = "stop") then "tool_use"
  else (finishToStop s.finish).getD "end_turn"

def messageDelta (s : ToAnthropicStream) : ToAnthropicStream × List AnthropicEvent :=
  ({ s with blockOpen := false, deltaSent := true },
    (if s.blockOpen then [.blockStop s.blockIndex] else []) ++
      [.messageDelta s.stopReason s.inputTokens s.outputTokens])

def feedContent (s : ToAnthropicStream) (content : Option String) :
    ToAnthropicStream × List AnthropicEvent :=
  match content with
  | none => (s, [])
  | some text =>
    if text = "" then (s, [])
    else
      let opened := if !s.blockOpen || s.blockIsTool then s.openBlock .text else (s, [])
      (opened.1, opened.2 ++ [.blockDelta opened.1.blockIndex (.text text)])

def feedCall (s : ToAnthropicStream) (call : CallDelta) : ToAnthropicStream × List AnthropicEvent :=
  let opened :=
    if (s.toolIndexes.lookup call.index).isSome then (s, [])
    else
      let block := s.openBlock (.toolUse call.id call.name)
      ({ block.1 with toolIndexes := block.1.toolIndexes.insert call.index block.1.blockIndex },
        block.2)
  (opened.1, opened.2 ++
    if call.arguments = "" then []
    else
      [.blockDelta ((opened.1.toolIndexes.lookup call.index).getD 0) (.inputJson call.arguments)])

def feedChoice (s : ToAnthropicStream) (choice : ChunkChoice) :
    ToAnthropicStream × List AnthropicEvent :=
  let content := s.feedContent choice.delta.content
  let calls := feedAll feedCall content.1 choice.delta.toolCalls.items
  let finish := choice.finishReason.getD ""
  (if finish = "" then calls.1 else { calls.1 with finish := finish }, content.2 ++ calls.2)

def begin_ (s : ToAnthropicStream) (chunk : OpenAIChunk) :
    ToAnthropicStream × List AnthropicEvent :=
  if s.started then (s, [])
  else
    let model := if chunk.model = "" then s.model else chunk.model
    ({ s with started := true, model := model }, [.messageStart s.id model])

def takeUsage (s : ToAnthropicStream) (chunk : OpenAIChunk) : ToAnthropicStream :=
  match chunk.usage with
  | none => s
  | some u => { s with inputTokens := u.promptTokens, outputTokens := u.completionTokens }

/-- The delta goes out once the finish reason and the usage are known. -/
def feedTail (s : ToAnthropicStream) (chunk : OpenAIChunk) :
    ToAnthropicStream × List AnthropicEvent :=
  if s.finish ≠ "" ∧ chunk.usage.isSome ∧ s.deltaSent = false then s.messageDelta else (s, [])

def feedChunk (s : ToAnthropicStream) (chunk : OpenAIChunk) :
    ToAnthropicStream × List AnthropicEvent :=
  let begun := s.begin_ chunk
  let choices := feedAll feedChoice (begun.1.takeUsage chunk) chunk.choices.items
  let tail := choices.1.feedTail chunk
  (tail.1, begun.2 ++ choices.2 ++ tail.2)

def finish_ (s : ToAnthropicStream) : ToAnthropicStream × List AnthropicEvent :=
  if s.stopped then (s, [])
  else
    let s := { s with stopped := true }
    if !s.started then (s, [])
    else
      let delta := if s.deltaSent then (s, []) else s.messageDelta
      (delta.1, delta.2 ++ [.messageStop])

inductive Line where
  | done
  | chunk (chunk : OpenAIChunk)
  /-- not a data line, or data that is not a chunk -/
  | other
  deriving DecidableEq, Repr

def readLine (line : String) : Line :=
  match Text.cutStart "data:" line with
  | none => .other
  | some data =>
    if Text.trimSpace data = "[DONE]" then .done
    else
      match (Json.parse (Text.trimSpace data)).bind (OpenAIChunk.decode {}) with
      | none => .other
      | some chunk => .chunk chunk

def feed (s : ToAnthropicStream) (line : String) : ToAnthropicStream × List AnthropicEvent :=
  match readLine line with
  | .done => s.finish_
  | .chunk chunk => s.feedChunk chunk
  | .other => (s, [])

/-- Everything written for the lines of a stream, with what closes it. -/
def transcript (s : ToAnthropicStream) (lines : List String) : List AnthropicEvent :=
  transcriptOf feed (fun s => s.finish_.2) s lines

end ToAnthropicStream

/-! ## The reader of the events -/

/-- A client of an Anthropic stream. -/
inductive Reader where
  /-- nothing read -/
  | start
  /-- inside the message; the next block has this index -/
  | between (next : Nat)
  | inBlock (index : Nat) (isTool : Bool)
  /-- after the message_delta -/
  | closing
  /-- after the message_stop -/
  | ended
  deriving DecidableEq, Repr

/-- The client accepts an event or refuses the stream. -/
def Reader.next : Reader → AnthropicEvent → Option Reader
  | .start, .messageStart _ _ => some (.between 0)
  | .between n, .blockStart index block => if index = n then some (.inBlock n block.isTool)
    else none
  | .inBlock n isTool, .blockDelta index delta =>
    if index = n ∧ delta.isTool = isTool then some (.inBlock n isTool) else none
  | .inBlock n _, .blockStop index => if index = n then some (.between (n + 1)) else none
  | .between _, .messageDelta _ _ _ => some .closing
  | .closing, .messageStop => some .ended
  | _, _ => none

/-- Well formed: empty, or read from the first event to the message_stop. -/
def WellFormed (events : List AnthropicEvent) : Prop :=
  events = [] ∨ reads Reader.next .start events = some .ended

instance (events : List AnthropicEvent) : Decidable (WellFormed events) :=
  inferInstanceAs (Decidable (_ ∨ _))

namespace ToAnthropicStream

def readerOf (s : ToAnthropicStream) : Reader :=
  if !s.started then .start
  else if s.deltaSent then (if s.stopped then .ended else .closing)
  else if s.blockOpen then .inBlock s.blockIndex s.blockIsTool
  else .between s.blockIndex

/-- What the flags say together. -/
structure Sync (s : ToAnthropicStream) : Prop where
  fresh : s.started = false → s.deltaSent = false ∧ s.blockOpen = false
  closed : s.deltaSent = true → s.blockOpen = false
  bare : s.blockOpen = false → s.deltaSent = false → s.blockIndex = 0 ∧ s.toolIndexes = ∅
  indexes : ∀ k n, s.toolIndexes.lookup k = some n →
    n ≤ s.blockIndex ∧ (s.blockOpen = true → n = s.blockIndex → s.blockIsTool = true)
  stopped : s.stopped = true → s.started = true → s.deltaSent = true

/-! ## Orderly input -/

/-- Text comes before the message_delta. -/
def contentOrderly (s : ToAnthropicStream) (content : Option String) : Bool :=
  content.getD "" = "" || !s.deltaSent

/-- A new tool call comes before the message_delta, and the arguments of a known
one while its block is open. -/
def callOrderly (s : ToAnthropicStream) (call : CallDelta) : Bool :=
  match s.toolIndexes.lookup call.index with
  | none => !s.deltaSent
  | some index =>
    call.arguments = "" || (s.blockOpen && index = s.blockIndex)

def choiceOrderly (s : ToAnthropicStream) (choice : ChunkChoice) : Bool :=
  s.contentOrderly choice.delta.content &&
    allOrderly feedCall callOrderly (s.feedContent choice.delta.content).1
      choice.delta.toolCalls.items

/-- No chunk comes after an end that found nothing to close. -/
def chunkOrderly (s : ToAnthropicStream) (chunk : OpenAIChunk) : Bool :=
  (s.started || !s.stopped) &&
    allOrderly feedChoice choiceOrderly ((s.begin_ chunk).1.takeUsage chunk) chunk.choices.items

def lineOrderly (s : ToAnthropicStream) (line : String) : Bool :=
  match readLine line with
  | .chunk chunk => s.chunkOrderly chunk
  | .done | .other => true

/-! ## The pieces of a chunk -/

/-- A step inside a message: it neither begins nor ends one. -/
def Inside {α : Type} (step : ToAnthropicStream → α → ToAnthropicStream × List AnthropicEvent) :
    Prop :=
  ∀ s a, (step s a).1.started = s.started ∧ (step s a).1.stopped = s.stopped ∧
    AnthropicEvent.messageStop ∉ (step s a).2

theorem Inside.feedAll {α : Type}
    {step : ToAnthropicStream → α → ToAnthropicStream × List AnthropicEvent} (h : Inside step) :
    Inside (feedAll step) := by
  intro s as
  have hkeeps := feedAll_keeps
    (I := fun x : ToAnthropicStream => x.started = s.started ∧ x.stopped = s.stopped)
    (fun x a hx => ⟨(h x a).1.trans hx.1, (h x a).2.1.trans hx.2⟩) as s ⟨rfl, rfl⟩
  refine ⟨hkeeps.1, hkeeps.2, fun hmem => ?_⟩
  exact forall_mem_feedAll (P := fun e : AnthropicEvent => e ≠ .messageStop)
    (fun x a e he heq => (h x a).2.2 (heq ▸ he)) as s _ hmem rfl

/-- Inside a message the translator is in step with the reader of its output. -/
abbrev Follows {α : Type} (step : ToAnthropicStream → α → ToAnthropicStream × List AnthropicEvent)
    (orderly : ToAnthropicStream → α → Bool) : Prop :=
  InStep Reader.next readerOf (fun s => Sync s ∧ s.started = true) step orderly

variable {s : ToAnthropicStream}

theorem readerOf_live (hs : s.started = true) (hd : s.deltaSent = false) :
    s.readerOf = if s.blockOpen then .inBlock s.blockIndex s.blockIsTool
      else .between s.blockIndex := by
  simp [readerOf, hs, hd]

theorem reads_blockStart_of_deltaSent (hs : s.started = true) (hd : s.deltaSent = true)
    (index : Nat) (block : Block) (rest : List AnthropicEvent) :
    reads Reader.next s.readerOf (.blockStart index block :: rest) = none := by
  have hreader : s.readerOf = .closing ∨ s.readerOf = .ended := by
    cases hstop : s.stopped <;> simp [readerOf, hs, hd, hstop]
  rcases hreader with h | h <;> rw [h] <;> rfl

theorem reads_openBlock (hs : s.started = true) (hd : s.deltaSent = false) (block : Block) :
    reads Reader.next s.readerOf (s.openBlock block).2 =
      some (.inBlock (s.openBlock block).1.blockIndex block.isTool) := by
  rw [readerOf_live hs hd]
  cases hopen : s.blockOpen <;> simp [openBlock, hopen, reads, Reader.next]

theorem Sync.openBlock (h : Sync s) (hs : s.started = true) (hd : s.deltaSent = false)
    (block : Block) : Sync (s.openBlock block).1 where
  fresh hns := absurd hns (by simp [ToAnthropicStream.openBlock, hs])
  closed hsent := absurd hsent (by simp [ToAnthropicStream.openBlock, hd])
  bare hb := absurd hb (by simp [ToAnthropicStream.openBlock])
  indexes k n hk := by
    have hold : s.toolIndexes.lookup k = some n := hk
    cases hopen : s.blockOpen with
    | false =>
      -- before the first block no tool index is known
      rw [(h.bare hopen hd).2, AList.lookup_empty] at hold
      cases hold
    | true =>
      have hle := (h.indexes k n hold).1
      have hindex : (s.openBlock block).1.blockIndex = s.blockIndex + 1 := by
        simp [ToAnthropicStream.openBlock, hopen]
      exact ⟨by omega, fun _ heq => absurd heq (by omega)⟩
  stopped := h.stopped

theorem feedContent_text {text : String} (ht : text ≠ "") :
    s.feedContent (some text) =
      let opened := if !s.blockOpen || s.blockIsTool then s.openBlock .text else (s, [])
      (opened.1, opened.2 ++ [.blockDelta opened.1.blockIndex (.text text)]) := by
  simp [feedContent, ht]

theorem contentOrderly_text {text : String} (ht : text ≠ "") :
    s.contentOrderly (some text) = !s.deltaSent := by
  simp [contentOrderly, ht]

theorem feedContent_of_empty {content : Option String} (h : content.getD "" = "") :
    s.feedContent content = (s, []) := by
  cases content with
  | none => rfl
  | some text => simp [feedContent, show text = "" from h]

theorem Sync.feedContent (h : Sync s) (hs : s.started = true) {content : Option String}
    (ho : s.contentOrderly content = true) :
    Sync (s.feedContent content).1 := by
  by_cases he : content.getD "" = ""
  · rw [feedContent_of_empty he]
    exact h
  · cases content with
    | none => exact absurd rfl he
    | some text =>
      change text ≠ "" at he
      rw [contentOrderly_text he] at ho
      rw [feedContent_text he]
      split
      · exact h.openBlock hs (by simpa using ho) .text
      · exact h

theorem messageStop_notMem_openBlock (s : ToAnthropicStream) (block : Block) :
    AnthropicEvent.messageStop ∉ (s.openBlock block).2 := by
  cases hopen : s.blockOpen <;> simp [openBlock, hopen]

theorem inside_feedContent : Inside feedContent := by
  intro s content
  unfold ToAnthropicStream.feedContent
  split
  · exact ⟨rfl, rfl, List.not_mem_nil⟩
  · split
    · exact ⟨rfl, rfl, List.not_mem_nil⟩
    · split
      · exact ⟨rfl, rfl, by simp [messageStop_notMem_openBlock]⟩
      · exact ⟨rfl, rfl, by simp⟩

theorem reads_feedContent (h : Sync s) (hs : s.started = true) (content : Option String) :
    reads Reader.next s.readerOf (s.feedContent content).2 =
      if s.contentOrderly content then some (s.feedContent content).1.readerOf else none := by
  by_cases he : content.getD "" = ""
  · rw [feedContent_of_empty he]
    simp [contentOrderly, he, reads]
  cases content with
  | none => exact absurd rfl he
  | some text =>
    change text ≠ "" at he
    rw [contentOrderly_text he, feedContent_text he]
    cases hd : s.deltaSent with
    | true =>
      have hopen := h.closed hd
      simp only [hopen, Bool.not_false, Bool.true_or, if_true, openBlock, Bool.false_eq_true,
        if_false, List.nil_append, List.cons_append]
      exact reads_blockStart_of_deltaSent hs hd _ _ _
    | false =>
      split
      · next hnew =>
        rw [reads_append, reads_openBlock hs hd]
        simp [reads, Reader.next, Block.isTool, BlockDelta.isTool, readerOf, openBlock, hs, hd]
      · next hsame =>
        simp only [Bool.or_eq_true, Bool.not_eq_true', not_or, Bool.not_eq_false,
          Bool.not_eq_true] at hsame
        simp [reads, Reader.next, BlockDelta.isTool, readerOf, hs, hd, hsame]

theorem follows_feedContent : Follows feedContent contentOrderly where
  inv s content hs ho := ⟨hs.1.feedContent hs.2 ho, (inside_feedContent s content).1.trans hs.2⟩
  reads _ content hs := reads_feedContent hs.1 hs.2 content

variable {call : CallDelta}

theorem feedCall_known {index : Nat} (hk : s.toolIndexes.lookup call.index = some index) :
    s.feedCall call = (s, if call.arguments = "" then []
      else [.blockDelta index (.inputJson (call.arguments))]) := by
  simp [feedCall, hk]

/-- The state after the block of a new tool call is open. -/
def openCall (s : ToAnthropicStream) (call : CallDelta) : ToAnthropicStream :=
  let opened := (s.openBlock (.toolUse call.id call.name)).1
  { opened with toolIndexes := opened.toolIndexes.insert call.index opened.blockIndex }

theorem feedCall_new (hk : s.toolIndexes.lookup call.index = none) :
    s.feedCall call = (s.openCall call,
      (s.openBlock (.toolUse call.id call.name)).2 ++
        if call.arguments = "" then []
        else [.blockDelta (s.openCall call).blockIndex (.inputJson (call.arguments))]) := by
  simp [feedCall, hk, openCall]

theorem Sync.openCall (h : Sync s) (hs : s.started = true) (hd : s.deltaSent = false)
    (call : CallDelta) : Sync (s.openCall call) := by
  have hopened := h.openBlock hs hd (.toolUse call.id call.name)
  refine ⟨hopened.fresh, hopened.closed, fun hb => (by cases hb), fun k n hk => ?_, hopened.stopped⟩
  rw [ToAnthropicStream.openCall, GoMap.lookup_insert_eq] at hk
  split at hk
  · cases hk
    exact ⟨le_refl _, fun _ _ => rfl⟩
  · exact hopened.indexes k n hk

theorem inside_feedCall : Inside feedCall := by
  intro s call
  cases hk : s.toolIndexes.lookup call.index with
  | none =>
    rw [feedCall_new hk]
    exact ⟨rfl, rfl, by split <;> simp [messageStop_notMem_openBlock]⟩
  | some index =>
    rw [feedCall_known hk]
    exact ⟨rfl, rfl, by split <;> simp⟩

theorem Sync.feedCall (h : Sync s) (hs : s.started = true) (ho : s.callOrderly call = true) :
    Sync (s.feedCall call).1 := by
  unfold callOrderly at ho
  cases hk : s.toolIndexes.lookup call.index with
  | none =>
    rw [hk] at ho
    rw [feedCall_new hk]
    exact h.openCall hs (by simpa using ho) call
  | some index =>
    rw [feedCall_known hk]
    exact h

theorem reads_feedCall (h : Sync s) (hs : s.started = true) (call : CallDelta) :
    reads Reader.next s.readerOf (s.feedCall call).2 =
      if s.callOrderly call then some (s.feedCall call).1.readerOf else none := by
  unfold callOrderly
  cases hk : s.toolIndexes.lookup call.index with
  | none =>
    rw [feedCall_new hk]
    cases hd : s.deltaSent with
    | true =>
      simp only [openBlock, h.closed hd, Bool.false_eq_true, if_false, List.nil_append,
        List.cons_append, Bool.not_true]
      exact reads_blockStart_of_deltaSent hs hd _ _ _
    | false =>
      rw [reads_append, reads_openBlock hs hd]
      split <;>
        simp [reads, Reader.next, Block.isTool, BlockDelta.isTool, readerOf, openCall, openBlock,
          hs, hd]
  | some index =>
    rw [feedCall_known hk]
    by_cases hargs : call.arguments = ""
    · simp [hargs, reads]
    · simp only [hargs, decide_false, Bool.false_or, if_false]
      cases hd : s.deltaSent with
      | true =>
        cases hstop : s.stopped <;>
          simp [readerOf, hs, hd, hstop, h.closed hd, reads, Reader.next]
      | false =>
        rw [readerOf_live hs hd]
        cases hopen : s.blockOpen with
        | false => simp [reads, Reader.next]
        | true =>
          by_cases hindex : index = s.blockIndex
          · have htool := (h.indexes _ _ hk).2 hopen hindex
            simp [reads, Reader.next, BlockDelta.isTool, hindex, htool]
          · simp [reads, Reader.next, hindex]

theorem follows_feedCall : Follows feedCall callOrderly where
  inv s call hs ho := ⟨hs.1.feedCall hs.2 ho, (inside_feedCall s call).1.trans hs.2⟩
  reads _ call hs := reads_feedCall hs.1 hs.2 call

/-! ## Choices and chunks -/

theorem readerOf_setFinish (s : ToAnthropicStream) (finish : String) :
    readerOf (if finish = "" then s else { s with finish := finish }) = s.readerOf := by
  split <;> rfl

theorem Sync.setFinish (h : Sync s) (finish : String) :
    Sync (if finish = "" then s else { s with finish := finish }) := by
  split
  · exact h
  · exact ⟨h.fresh, h.closed, h.bare, h.indexes, h.stopped⟩

theorem inside_feedChoice : Inside feedChoice := by
  intro s choice
  obtain ⟨hstarted, hstopped, hcontent⟩ := inside_feedContent s choice.delta.content
  obtain ⟨hstarted', hstopped', hcalls⟩ := inside_feedCall.feedAll
    (s.feedContent choice.delta.content).1 choice.delta.toolCalls.items
  refine ⟨?_, ?_, fun hmem => (List.mem_append.mp hmem).elim hcontent hcalls⟩
  all_goals
    unfold feedChoice
    dsimp only
  · split <;> exact hstarted'.trans hstarted
  · split <;> exact hstopped'.trans hstopped

theorem follows_feedChoice : Follows feedChoice choiceOrderly where
  inv s choice hs ho := by
    rw [choiceOrderly, Bool.and_eq_true] at ho
    have hcontent := follows_feedContent.inv s _ hs ho.1
    obtain ⟨hcalls, -⟩ := follows_feedCall.feedAll.inv _ _ hcontent ho.2
    exact ⟨hcalls.setFinish _, (inside_feedChoice s choice).1.trans hs.2⟩
  reads s choice hs := by
    unfold feedChoice choiceOrderly
    rw [reads_append, follows_feedContent.reads s _ hs, readerOf_setFinish]
    cases ho : s.contentOrderly choice.delta.content with
    | false => rfl
    | true => exact follows_feedCall.feedAll.reads _ _ (follows_feedContent.inv s _ hs ho)

theorem readerOf_takeUsage (s : ToAnthropicStream) (chunk : OpenAIChunk) :
    (s.takeUsage chunk).readerOf = s.readerOf := by
  unfold takeUsage
  split <;> rfl

theorem Sync.takeUsage (h : Sync s) (chunk : OpenAIChunk) : Sync (s.takeUsage chunk) := by
  unfold ToAnthropicStream.takeUsage
  split
  · exact h
  · exact ⟨h.fresh, h.closed, h.bare, h.indexes, h.stopped⟩

theorem begun (s : ToAnthropicStream) (chunk : OpenAIChunk) :
    ((s.begin_ chunk).1.takeUsage chunk).started = true ∧
      ((s.begin_ chunk).1.takeUsage chunk).stopped = s.stopped := by
  unfold takeUsage begin_
  cases hs : s.started <;> split <;> simp [hs]

theorem Sync.begin_ (h : Sync s) (halive : (s.started || !s.stopped) = true) (chunk : OpenAIChunk) :
    Sync (s.begin_ chunk).1 := by
  unfold ToAnthropicStream.begin_
  split
  · exact h
  · next hns =>
    simp only [hns, Bool.false_or, Bool.not_eq_true'] at halive
    refine ⟨fun hf => (by cases hf), h.closed, h.bare, h.indexes, fun hstop _ => ?_⟩
    exact absurd hstop (by simp [halive])

theorem reads_begin (h : Sync s) (chunk : OpenAIChunk) :
    reads Reader.next s.readerOf (s.begin_ chunk).2 = some (s.begin_ chunk).1.readerOf := by
  unfold begin_
  split
  · rfl
  · next hns =>
    obtain ⟨hd, hopen⟩ := h.fresh (by simpa using hns)
    simp [readerOf, hns, hd, hopen, (h.bare hopen hd).1, reads, Reader.next]

theorem Sync.messageDelta (h : Sync s) (hs : s.started = true) : Sync s.messageDelta.1 where
  fresh hns := absurd hns (by simp [ToAnthropicStream.messageDelta, hs])
  closed _ := rfl
  bare _ hd := by cases hd
  indexes k n hk := ⟨(h.indexes k n hk).1, fun hopen => (by cases hopen)⟩
  stopped _ _ := rfl

theorem reads_messageDelta (hs : s.started = true) (hd : s.deltaSent = false) :
    reads Reader.next s.readerOf s.messageDelta.2 = some .closing := by
  rw [readerOf_live hs hd]
  cases hopen : s.blockOpen <;> simp [messageDelta, hopen, reads, Reader.next]

theorem stopped_of_live (h : Sync s) (hs : s.started = true) (hd : s.deltaSent = false) :
    s.stopped = false := by
  cases hstop : s.stopped with
  | false => rfl
  | true =>
    rw [h.stopped hstop hs] at hd
    cases hd

theorem inside_feedTail : Inside feedTail := by
  intro s chunk
  unfold ToAnthropicStream.feedTail
  split
  · refine ⟨rfl, rfl, ?_⟩
    unfold ToAnthropicStream.messageDelta
    split <;> simp
  · exact ⟨rfl, rfl, List.not_mem_nil⟩

theorem Sync.feedTail (h : Sync s) (hs : s.started = true) (chunk : OpenAIChunk) :
    Sync (s.feedTail chunk).1 := by
  unfold ToAnthropicStream.feedTail
  split
  · exact h.messageDelta hs
  · exact h

theorem reads_feedTail (h : Sync s) (hs : s.started = true) (chunk : OpenAIChunk) :
    reads Reader.next s.readerOf (s.feedTail chunk).2 = some (s.feedTail chunk).1.readerOf := by
  unfold feedTail
  split
  · next hready =>
    rw [reads_messageDelta hs hready.2.2]
    simp [messageDelta, readerOf, hs, stopped_of_live h hs hready.2.2]
  · rfl

theorem feedChunk_frame (s : ToAnthropicStream) (chunk : OpenAIChunk) :
    (s.feedChunk chunk).1.started = true ∧ (s.feedChunk chunk).1.stopped = s.stopped ∧
      AnthropicEvent.messageStop ∉ (s.feedChunk chunk).2 := by
  obtain ⟨hstarted, hstopped, hchoices⟩ := inside_feedChoice.feedAll
    ((s.begin_ chunk).1.takeUsage chunk) chunk.choices.items
  obtain ⟨hstarted', hstopped', htail⟩ := inside_feedTail
    (feedAll feedChoice ((s.begin_ chunk).1.takeUsage chunk) chunk.choices.items).1 chunk
  refine ⟨hstarted'.trans (hstarted.trans (begun s chunk).1),
    hstopped'.trans (hstopped.trans (begun s chunk).2), fun hmem => ?_⟩
  rcases List.mem_append.mp hmem with hmem | hmem
  · rcases List.mem_append.mp hmem with hmem | hmem
    · unfold begin_ at hmem
      split at hmem <;> simp at hmem
    · exact hchoices hmem
  · exact htail hmem

theorem Sync.feedChunk (h : Sync s) {chunk : OpenAIChunk} (ho : s.chunkOrderly chunk = true) :
    Sync (s.feedChunk chunk).1 := by
  rw [chunkOrderly, Bool.and_eq_true] at ho
  have hbegun := (h.begin_ ho.1 chunk).takeUsage chunk
  obtain ⟨hchoices, hstarted⟩ := follows_feedChoice.feedAll.inv _ _ ⟨hbegun, (begun s chunk).1⟩ ho.2
  exact hchoices.feedTail hstarted chunk

theorem reads_feedChunk (h : Sync s) (halive : (s.started || !s.stopped) = true)
    (chunk : OpenAIChunk) :
    reads Reader.next s.readerOf (s.feedChunk chunk).2 =
      if s.chunkOrderly chunk then some (s.feedChunk chunk).1.readerOf else none := by
  have hbegun := (h.begin_ halive chunk).takeUsage chunk
  have hstarted := (begun s chunk).1
  unfold feedChunk chunkOrderly
  rw [reads_append, reads_append, reads_begin h, Option.bind_some, ← readerOf_takeUsage _ chunk,
    follows_feedChoice.feedAll.reads _ _ ⟨hbegun, hstarted⟩, halive, Bool.true_and]
  cases ho : allOrderly feedChoice choiceOrderly ((s.begin_ chunk).1.takeUsage chunk)
      chunk.choices.items with
  | false => rfl
  | true =>
    obtain ⟨hchoices, hon⟩ := follows_feedChoice.feedAll.inv _ _ ⟨hbegun, hstarted⟩ ho
    exact reads_feedTail hchoices hon chunk

/-! ## The end of a stream -/

theorem Sync.finish_ (h : Sync s) : Sync s.finish_.1 := by
  unfold ToAnthropicStream.finish_
  split
  · exact h
  · dsimp only
    split
    · next hns =>
      exact ⟨h.fresh, h.closed, h.bare, h.indexes, fun _ hs => absurd hs (by simpa using hns)⟩
    · next hs =>
      have hstarted : s.started = true := by simpa using hs
      split
      · next hd => exact ⟨h.fresh, h.closed, h.bare, h.indexes, fun _ _ => hd⟩
      · have hdelta := h.messageDelta hstarted
        exact ⟨hdelta.fresh, hdelta.closed, hdelta.bare, hdelta.indexes, fun _ _ => rfl⟩

theorem finish_started (s : ToAnthropicStream) : s.finish_.1.started = s.started := by
  unfold ToAnthropicStream.finish_
  split
  · rfl
  · dsimp only
    split
    · rfl
    · split <;> rfl

theorem finish_stopped (s : ToAnthropicStream) : s.finish_.1.stopped = true := by
  unfold ToAnthropicStream.finish_
  split
  · assumption
  · dsimp only
    split
    · rfl
    · split <;> rfl

theorem reads_finish (s : ToAnthropicStream) :
    reads Reader.next s.readerOf s.finish_.2 = some s.finish_.1.readerOf := by
  unfold finish_
  split
  · rfl
  · next hstop =>
    dsimp only
    split
    · next hns => simp [reads, readerOf, show s.started = false by simpa using hns]
    · next hs =>
      have hstarted : s.started = true := by simpa using hs
      split
      · next hd => simp [reads, readerOf, hstarted, hd, hstop, Reader.next]
      · next hd =>
        have hd : s.deltaSent = false := by simpa using hd
        have hdelta := reads_messageDelta hstarted hd
        rw [reads_append]
        change ((reads Reader.next s.readerOf s.messageDelta.2).bind _) = _
        rw [hdelta]
        simp [reads, Reader.next, readerOf, messageDelta, hstarted]

theorem readerOf_finish (h : Sync s) (hs : s.started = true) : s.finish_.1.readerOf = .ended := by
  have hstarted := (finish_started s).trans hs
  simp [readerOf, hstarted, finish_stopped s, h.finish_.stopped (finish_stopped s) hstarted]

/-! ## A chunk after an empty end

A stream whose end came before its first chunk is not ended again. -/

theorem messageStop_notMem_transcript (lines : List String) (hstop : s.stopped = true) :
    AnthropicEvent.messageStop ∉ s.transcript lines := by
  induction lines generalizing s with
  | nil => simp [transcript, transcriptOf, feedAll, finish_, hstop]
  | cons line rest ih =>
    intro hmem
    rw [transcript, transcriptOf, feedAll, List.append_assoc] at hmem
    have hfeed : (s.feed line).1.stopped = true ∧
        AnthropicEvent.messageStop ∉ (s.feed line).2 := by
      unfold feed
      split
      · simp [finish_, hstop]
      · exact ⟨(feedChunk_frame s _).2.1.trans hstop, (feedChunk_frame s _).2.2⟩
      · exact ⟨hstop, List.not_mem_nil⟩
    rcases List.mem_append.mp hmem with h | h
    · exact hfeed.2 h
    · exact ih hfeed.1 h

theorem messageStop_mem_of_reads (events : List AnthropicEvent) {r : Reader} (hr : r ≠ .ended)
    (h : reads Reader.next r events = some .ended) : AnthropicEvent.messageStop ∈ events := by
  induction events generalizing r with
  | nil => exact absurd (Option.some.inj h) hr
  | cons e rest ih =>
    obtain ⟨r', hnext, hrest⟩ := Option.bind_eq_some_iff.mp h
    by_cases he : e = .messageStop
    · exact he ▸ List.mem_cons_self
    · refine List.mem_cons_of_mem _ (ih (fun hr' => he ?_) hrest)
      subst hr'
      cases r <;> cases e <;> simp [Reader.next] at hnext ⊢

/-! ## Whole streams -/

theorem transcript_cons (s : ToAnthropicStream) (line : String) (rest : List String) :
    s.transcript (line :: rest) = (s.feed line).2 ++ (s.feed line).1.transcript rest :=
  transcriptOf_cons ..

/-- A chunk that no ended stream forbids, and every other line, is read just if it is
orderly. -/
theorem reads_feed (h : Sync s) (line : String)
    (halive : (s.started || !s.stopped) = true ∨ ∀ chunk, readLine line ≠ .chunk chunk) :
    reads Reader.next s.readerOf (s.feed line).2 =
      if s.lineOrderly line then some (s.feed line).1.readerOf else none := by
  unfold feed lineOrderly
  cases hline : readLine line with
  | done => exact reads_finish s
  | chunk chunk =>
    exact reads_feedChunk h (halive.resolve_right fun hno => hno chunk hline) chunk
  | other => rfl

theorem Sync.feed (h : Sync s) {line : String} (ho : s.lineOrderly line = true) :
    Sync (s.feed line).1 := by
  unfold lineOrderly at ho
  unfold ToAnthropicStream.feed
  split
  · exact h.finish_
  · next chunk hchunk =>
    rw [hchunk] at ho
    exact h.feedChunk ho
  · exact h

theorem feedChunk_ne_nil (hs : s.started = false) (chunk : OpenAIChunk) :
    (s.feedChunk chunk).2 ≠ [] := by
  simp [feedChunk, begin_, hs]

/-- What is accepted from a state: a message that did not begin may stay empty. -/
def Accepted (s : ToAnthropicStream) (events : List AnthropicEvent) : Prop :=
  (s.started = false ∧ events = []) ∨ reads Reader.next s.readerOf events = some .ended

theorem accepted_append {s' : ToAnthropicStream} {out rest : List AnthropicEvent}
    (hread : reads Reader.next s.readerOf out = some s'.readerOf)
    (hbegun : s.started = true → s'.started = true)
    (hout : s.started = false → (out = [] ↔ s'.started = false)) :
    Accepted s (out ++ rest) ↔ Accepted s' rest := by
  have hsplit : reads Reader.next s.readerOf (out ++ rest) =
      reads Reader.next s'.readerOf rest := by
    rw [reads_append, hread]
    rfl
  unfold Accepted
  rw [hsplit, List.append_eq_nil_iff]
  cases hs : s.started with
  | true => simp [hbegun hs]
  | false =>
    have hiff := hout hs
    constructor
    · rintro (⟨-, ho, hr⟩ | h)
      · exact .inl ⟨hiff.mp ho, hr⟩
      · exact .inr h
    · rintro (⟨hs', hr⟩ | h)
      · exact .inl ⟨rfl, hiff.mpr hs', hr⟩
      · exact .inr h

theorem feed_of_not_started (hs : s.started = false) (line : String) :
    (s.feed line).2 = [] ↔ (s.feed line).1.started = false := by
  unfold feed
  split
  · have hnil : s.finish_.2 = [] := by
      unfold finish_
      split
      · rfl
      · simp [hs]
    simp [hnil, finish_started, hs]
  · next chunk _ =>
    simp [feedChunk_ne_nil hs, (feedChunk_frame s chunk).1]
  · simp [hs]

theorem feed_started (hs : s.started = true) (line : String) : (s.feed line).1.started = true := by
  unfold feed
  split
  · exact (finish_started s).trans hs
  · exact (feedChunk_frame s _).1
  · exact hs

/-- From every state in step with its reader, the rest of a stream is accepted just if
all its lines are orderly. -/
theorem accepted_transcript_iff (lines : List String) (h : Sync s) :
    Accepted s (s.transcript lines) ↔ allOrderly feed lineOrderly s lines = true := by
  induction lines generalizing s with
  | nil =>
    have hend : Accepted s s.finish_.2 := by
      cases hs : s.started with
      | true =>
        refine .inr ?_
        rw [reads_finish s, readerOf_finish h hs]
      | false =>
        refine .inl ⟨hs, ?_⟩
        unfold finish_
        split
        · rfl
        · simp [hs]
    simpa [transcript, transcriptOf, feedAll, allOrderly] using hend
  | cons line rest ih =>
    rw [transcript_cons, allOrderly]
    by_cases halive : (s.started || !s.stopped) = true ∨ ∀ chunk, readLine line ≠ .chunk chunk
    · have hread := reads_feed h line halive
      cases ho : s.lineOrderly line with
      | true =>
        rw [ho, if_pos rfl] at hread
        rw [accepted_append hread (fun hs => feed_started hs line)
          (fun hs => feed_of_not_started hs line), ih (h.feed ho), Bool.true_and]
      | false =>
        rw [ho, if_neg Bool.false_ne_true] at hread
        refine ⟨fun hacc => ?_, fun hf => (by cases hf)⟩
        rcases hacc with ⟨-, hnil⟩ | hacc
        · rw [(List.append_eq_nil_iff.mp hnil).1] at hread
          cases hread
        · rw [reads_append, hread] at hacc
          cases hacc
    · -- the stream ended before it began, and now it begins
      obtain ⟨hdead, hchunk⟩ := not_or.mp halive
      obtain ⟨chunk, hchunk⟩ := not_forall_not.mp hchunk
      have hstate : s.started = false ∧ s.stopped = true := by simpa using hdead
      have ho : s.lineOrderly line = false := by
        simp [lineOrderly, hchunk, chunkOrderly, hstate]
      have hfeed : s.feed line = s.feedChunk chunk := by simp [feed, hchunk]
      rw [ho, Bool.false_and]
      refine ⟨fun hacc => ?_, fun hf => (by cases hf)⟩
      rcases hacc with ⟨-, hnil⟩ | hacc
      · rw [hfeed] at hnil
        exact absurd (List.append_eq_nil_iff.mp hnil).1 (feedChunk_ne_nil hstate.1 chunk)
      · have hne : s.readerOf ≠ .ended := by simp [readerOf, hstate.1]
        have hmem := messageStop_mem_of_reads _ hne hacc
        rw [← transcript_cons] at hmem
        exact absurd hmem (messageStop_notMem_transcript _ hstate.2)

/-! ## What the lines have said -/

/-- What the lines of a stream have said so far. -/
structure Seen where
  /-- a chunk came -/
  begun : Bool
  /-- a finish reason came -/
  finish : Bool
  /-- a usage came with it or after it, or the end after a chunk -/
  closed : Bool
  /-- the end came -/
  ended : Bool

def Seen.next (v : Seen) : Line → Seen
  | .other => v
  | .done => { v with closed := v.closed || (v.begun && !v.ended), ended := true }
  | .chunk chunk =>
    let finish := v.finish || chunk.choices.items.any fun c => c.finishReason.getD "" ≠ ""
    { v with begun := true, finish := finish, closed := v.closed || (finish && chunk.usage.isSome) }

def seen (s : ToAnthropicStream) : Seen := ⟨s.started, s.finish ≠ "", s.deltaSent, s.stopped⟩

theorem seen_feedContent (s : ToAnthropicStream) (content : Option String) :
    (s.feedContent content).1.seen = s.seen := by
  unfold feedContent
  repeat' split
  all_goals rfl

theorem seen_feedCall (s : ToAnthropicStream) (call : CallDelta) :
    (s.feedCall call).1.seen = s.seen := by
  unfold feedCall
  dsimp only
  split <;> rfl

theorem seen_feedChoice (s : ToAnthropicStream) (choice : ChunkChoice) :
    (s.feedChoice choice).1.seen =
      { s.seen with finish := s.seen.finish || choice.finishReason.getD "" ≠ "" } := by
  have hcalls := feedAll_keeps (I := fun x : ToAnthropicStream => x.seen = s.seen)
    (fun x call hx => (seen_feedCall x call).trans hx) choice.delta.toolCalls.items _
    (seen_feedContent s choice.delta.content)
  unfold feedChoice
  dsimp only
  split
  · next hnone => simp [hnone, hcalls]
  · next hsome =>
    rw [← hcalls]
    simp [seen, hsome]

theorem seen_feedAll_feedChoice (choices : List ChunkChoice) (s : ToAnthropicStream) :
    (feedAll feedChoice s choices).1.seen = { s.seen with
      finish := s.seen.finish || choices.any fun c => c.finishReason.getD "" ≠ "" } := by
  induction choices generalizing s with
  | nil => simp [feedAll]
  | cons choice choices ih =>
    rw [feedAll, ih, seen_feedChoice]
    simp [Bool.or_assoc]

theorem seen_feedTail (s : ToAnthropicStream) (chunk : OpenAIChunk) :
    (s.feedTail chunk).1.seen =
      { s.seen with closed := s.seen.closed || (s.seen.finish && chunk.usage.isSome) } := by
  unfold feedTail
  split
  · next h => simp [seen, messageDelta, h]
  · next h =>
    simp only [seen, Seen.mk.injEq, true_and, and_true]
    cases hsent : s.deltaSent with
    | true => rfl
    | false => simpa [hsent] using h

theorem seen_begin (s : ToAnthropicStream) (chunk : OpenAIChunk) :
    ((s.begin_ chunk).1.takeUsage chunk).seen = { s.seen with begun := true } := by
  unfold begin_ takeUsage
  repeat' split
  all_goals simp_all [seen]

theorem seen_feed (s : ToAnthropicStream) (line : String) :
    (s.feed line).1.seen = s.seen.next (readLine line) := by
  unfold feed
  cases readLine line with
  | other => rfl
  | done =>
    cases hstop : s.stopped <;> cases hstart : s.started <;> cases hsent : s.deltaSent <;>
      simp [finish_, messageDelta, seen, Seen.next, hstop, hstart, hsent]
  | chunk chunk =>
    simp only [feedChunk, Seen.next, seen_feedTail, seen_feedAll_feedChoice, seen_begin]

theorem seen_feedAll (lines : List String) (s : ToAnthropicStream) :
    (feedAll feed s lines).1.seen = (lines.map readLine).foldl Seen.next s.seen := by
  induction lines generalizing s with
  | nil => rfl
  | cons line rest ih => rw [feedAll, ih, seen_feed, List.map_cons, List.foldl_cons]

/-! ## Whole streams -/

/-- The translator as a relay makes it. -/
def newStream (model id : String) : ToAnthropicStream := { model := model, id := id }

theorem sync_newStream (model id : String) : Sync (newStream model id) where
  fresh _ := ⟨rfl, rfl⟩
  closed hd := by cases hd
  bare _ _ := ⟨rfl, rfl⟩
  indexes k n hk := by cases hk
  stopped hstop := by cases hstop

/-- For every sequence of lines, what the translator writes is a well-formed event
stream just if the input is orderly; and the message_delta that text and new calls may
not follow has gone out just if the lines before them said so. -/
theorem wellFormed_transcript_iff (model id : String) (lines : List String) :
    (WellFormed ((newStream model id).transcript lines) ↔
      allOrderly feed lineOrderly (newStream model id) lines = true) ∧
      ∀ before, (feedAll feed (newStream model id) before).1.deltaSent =
        ((before.map readLine).foldl Seen.next ⟨false, false, false, false⟩).closed := by
  constructor
  · rw [← accepted_transcript_iff lines (sync_newStream model id)]
    exact or_congr (by simp [newStream]) Iff.rfl
  · intro before
    exact congrArg Seen.closed (seen_feedAll before (newStream model id))

example : allOrderly feed lineOrderly (newStream "m" "msg")
    ["data: \x7b\"choices\":[\x7b\"delta\":\x7b\"content\":\"hi\"\x7d\x7d]\x7d", "data: [DONE]"] =
      true := by
  decide +kernel

/-- Text that comes after the finish reason and the usage. -/
def lateLines : List String :=
  ["data:\x7b\"usage\":\x7b\x7d,\"choices\":[\x7b\"finish_reason\":\"stop\"\x7d]\x7d",
    "data:\x7b\"choices\":[\x7b\"delta\":\x7b\"content\":\"hi\"\x7d\x7d]\x7d"]

/-- The block of the late text starts after the message_delta. -/
theorem lateLines_not_wellFormed :
    (newStream "m" "msg").transcript lateLines =
      [.messageStart "msg" "m", .messageDelta "end_turn" 0 0, .blockStart 0 .text,
        .blockDelta 0 (.text "hi"), .messageStop] ∧
      ¬ WellFormed ((newStream "m" "msg").transcript lateLines) := by
  have hwritten : (newStream "m" "msg").transcript lateLines =
      [.messageStart "msg" "m", .messageDelta "end_turn" 0 0, .blockStart 0 .text,
        .blockDelta 0 (.text "hi"), .messageStop] := by decide +kernel
  refine ⟨hwritten, ?_⟩
  rw [hwritten]
  decide

end ToAnthropicStream

end Kaalm.Translate
