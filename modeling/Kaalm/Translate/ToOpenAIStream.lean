/-
  Translate/ToOpenAIStream.lean --- Anthropic events as OpenAI chunks.

  Source: src/internal/llmtranslate/stream.go (`anthropicToOpenAIStream`).  The
  translator reads an event stream line by line and writes data lines.  An event is
  read as a `map[string]any`, so its values pass through as they are.

  WHAT ENDS A STREAM.  message_delta writes the finish reason, message_stop and
  `Finish` the usage and the done marker, an error event its own done marker.  Two
  flags remember what was written.  `Emission` is all that matters of a line, and the
  flags after it are a function of it.
-/
import Kaalm.Foundation.GoMap
import Kaalm.Foundation.Transducer
import Kaalm.Translate.Response

namespace Kaalm.Translate

open Kaalm.Foundation Kaalm.Foundation.Json

/-- What is written for an event. -/
inductive OpenAIPayload where
  | data (payload : Json)
  | done

/-- The lines of a payload: `sseData`, or the end of the stream. -/
def OpenAIPayload.sse : OpenAIPayload → List String
  | .data payload => ["data: " ++ payload.render, ""]
  | .done => ["data: [DONE]", ""]

/-- `anthropicToOpenAIStream`. -/
structure ToOpenAIStream where
  model : String
  id : String
  created : Int
  event : String := ""
  toolIndex : Nat := 0
  blocks : GoMap Int Nat := ∅
  usageIn : Int := 0
  usageOut : Int := 0
  finished : Bool := false
  done : Bool := false

namespace ToOpenAIStream

def chunk (s : ToOpenAIStream) (delta : Obj) (finish : Json) : OpenAIPayload :=
  .data (.obj [("id", .str s.id), ("object", .str "chat.completion.chunk"),
    ("created", ofInt s.created), ("model", .str s.model),
    ("choices", .arr [.obj [("index", .num "0"), ("delta", .obj delta),
      ("finish_reason", finish)]])])

def usageChunk (s : ToOpenAIStream) : OpenAIPayload :=
  .data (.obj [("id", .str s.id), ("object", .str "chat.completion.chunk"),
    ("created", ofInt s.created), ("model", .str s.model), ("choices", .arr []),
    ("usage", .obj [("prompt_tokens", ofInt s.usageIn), ("completion_tokens", ofInt s.usageOut),
      ("total_tokens", ofInt (wrapInt64 (s.usageIn + s.usageOut)))])])

def finish_ (s : ToOpenAIStream) : ToOpenAIStream × List OpenAIPayload :=
  if s.done then (s, [])
  else
    ({ s with done := true },
      (if s.finished then [] else [s.chunk [] (.str "stop")]) ++ [s.usageChunk, .done])

def messageStart (s : ToOpenAIStream) (ev : Obj) : ToOpenAIStream × List OpenAIPayload :=
  let msg := asObj (field ev "message")
  let s := match (field msg "model").string? with
    | some m => if m = "" then s else { s with model := m }
    | none => s
  let s := match field msg "usage" with
    | .obj u => { s with usageIn := (numberOf (member? "input_tokens" u)).getD 0 }
    | _ => s
  (s, [s.chunk [("role", .str "assistant"), ("content", .str "")] .null])

def blockKey (ev : Obj) : Int := (numberOf (member? "index" ev)).getD 0

/-- content_block_start: a tool block becomes a tool call. -/
def blockStart (s : ToOpenAIStream) (ev : Obj) : ToOpenAIStream × List OpenAIPayload :=
  let block := asObj (field ev "content_block")
  if (field block "type").isStr "tool_use" then
    ({ s with blocks := s.blocks.insert (blockKey ev) s.toolIndex, toolIndex := s.toolIndex + 1 },
      [s.chunk [("tool_calls", .arr [.obj [("index", ofInt s.toolIndex), ("id", field block "id"),
        ("type", .str "function"),
        ("function", .obj [("name", field block "name"), ("arguments", .str "")])]])] .null])
  else (s, [])

def blockDelta (s : ToOpenAIStream) (ev : Obj) : ToOpenAIStream × List OpenAIPayload :=
  let delta := asObj (field ev "delta")
  match (field delta "type").string? with
  | some "text_delta" => (s, [s.chunk [("content", field delta "text")] .null])
  | some "input_json_delta" =>
    (s, [s.chunk [("tool_calls", .arr [.obj [
      ("index", ofInt ((s.blocks.lookup (blockKey ev)).getD 0)),
      ("function", .obj [("arguments", field delta "partial_json")])]])] .null])
  | _ => (s, [])

def messageDelta (s : ToOpenAIStream) (ev : Obj) : ToOpenAIStream × List OpenAIPayload :=
  let delta := asObj (field ev "delta")
  let s := match field ev "usage" with
    | .obj u =>
      let s := match numberOf (member? "output_tokens" u) with
        | some n => { s with usageOut := n }
        | none => s
      match numberOf (member? "input_tokens" u) with
      | some n => if 0 < n then { s with usageIn := n } else s
      | none => s
    | _ => s
  let finish := (stopToFinish ((field delta "stop_reason").string?.getD "")).getD "stop"
  ({ s with finished := true }, [s.chunk [] (.str finish)])

def feedEvent (s : ToOpenAIStream) (ev : Obj) : ToOpenAIStream × List OpenAIPayload :=
  let typ := (field ev "type").string?.getD ""
  let typ := if typ = "" then s.event else typ
  if typ = "message_start" then s.messageStart ev
  else if typ = "content_block_start" then s.blockStart ev
  else if typ = "content_block_delta" then s.blockDelta ev
  else if typ = "message_delta" then s.messageDelta ev
  else if typ = "message_stop" then s.finish_
  else if typ = "error" then
    ({ s with done := true }, [.data (.obj [("error", field ev "error")]), .done])
  else (s, [])

def feed (s : ToOpenAIStream) (line : String) : ToOpenAIStream × List OpenAIPayload :=
  match Text.cutStart "event:" line with
  | some name => ({ s with event := Text.trimSpace name }, [])
  | none =>
    match Text.cutStart "data:" line with
    | none => (s, [])
    | some data =>
      match unmarshalMap (Text.trimSpace data) with
      | none => (s, [])
      | some ev => s.feedEvent ev

/-- The translator as a relay makes it. -/
def newStream (model id : String) (created : Int) : ToOpenAIStream :=
  { model := model, id := id, created := created }

/-- Everything written for the lines of a stream, with what closes it. -/
def transcript (s : ToOpenAIStream) (lines : List String) : List OpenAIPayload :=
  transcriptOf feed (fun s => s.finish_.2) s lines

end ToOpenAIStream

/-! ## What a payload carries -/

def OpenAIPayload.choice? : OpenAIPayload → Option Obj
  | .data payload => (asArr (field (asObj payload) "choices")).head?.map asObj
  | .done => none

def isNull : Json → Bool
  | .null => true
  | _ => false

def OpenAIPayload.carriesFinish (p : OpenAIPayload) : Bool :=
  p.choice?.any fun choice => !isNull (field choice "finish_reason")

def OpenAIPayload.carriesContent (p : OpenAIPayload) : Bool :=
  p.choice?.any fun choice =>
    (member? "content" (asObj (field choice "delta"))).isSome ||
      (member? "tool_calls" (asObj (field choice "delta"))).isSome

def OpenAIPayload.isDone : OpenAIPayload → Bool
  | .done => true
  | .data _ => false

/-- The end of a stream as a client needs it: the done marker once and last, at most
one finish reason, exactly one when no error event came, and no content after it. -/
structure EndsOnce (payloads : List OpenAIPayload) (errorFree : Prop) : Prop where
  done : ∃ before, payloads = before ++ [.done] ∧ ∀ p ∈ before, p.isDone = false
  atMostOne : payloads.countP OpenAIPayload.carriesFinish ≤ 1
  exactlyOne : errorFree → payloads.countP OpenAIPayload.carriesFinish = 1
  noneAfter : payloads.Pairwise fun p q => p.carriesFinish = true → q.carriesContent = false

/-! ## Emissions -/

inductive Emission where
  | none
  | content
  | finish
  | stop
  | error
  deriving DecidableEq, Repr

namespace ToOpenAIStream

/-- The type of an event, by its own word or by the event line before it. -/
def typeOf (event : String) (ev : Obj) : String :=
  let typ := (field ev "type").string?.getD ""
  if typ = "" then event else typ

def emissionOf (event : String) (ev : Obj) : Emission :=
  let typ := typeOf event ev
  if typ = "message_start" then .content
  else if typ = "content_block_start" then
    if (field (asObj (field ev "content_block")) "type").isStr "tool_use" then .content else .none
  else if typ = "content_block_delta" then
    if (field (asObj (field ev "delta")) "type").string? = some "text_delta" ∨
      (field (asObj (field ev "delta")) "type").string? = some "input_json_delta" then .content
    else .none
  else if typ = "message_delta" then .finish
  else if typ = "message_stop" then .stop
  else if typ = "error" then .error
  else .none

def emission (event line : String) : Emission :=
  match Text.cutStart "event:" line with
  | some _ => .none
  | none =>
    match Text.cutStart "data:" line with
    | none => .none
    | some data =>
      match unmarshalMap (Text.trimSpace data) with
      | none => .none
      | some ev => emissionOf event ev

def eventAfter (event line : String) : String :=
  ((Text.cutStart "event:" line).map Text.trimSpace).getD event

/-- What the lines say, whatever the translator makes of it. -/
def emissions : String → List String → List Emission
  | _, [] => []
  | event, line :: rest => emission event line :: emissions (eventAfter event line) rest

end ToOpenAIStream

/-- What was written so far. -/
structure Flags where
  finished : Bool
  done : Bool
  deriving DecidableEq, Repr

def ToOpenAIStream.flags (s : ToOpenAIStream) : Flags := ⟨s.finished, s.done⟩

def Flags.after (f : Flags) : Emission → Flags
  | .none | .content => f
  | .finish => { f with finished := true }
  | .stop | .error => { f with done := true }

/-- The payloads an emission may write from given flags. -/
inductive Writes (f : Flags) : Emission → List OpenAIPayload → Prop
  | none : Writes f .none []
  | content (p : OpenAIPayload) : p.isDone = false → p.carriesFinish = false →
      p.carriesContent = true → Writes f .content [p]
  | finish (p : OpenAIPayload) : p.isDone = false → p.carriesFinish = true →
      p.carriesContent = false → Writes f .finish [p]
  | again : f.done = true → Writes f .stop []
  | stop (u : OpenAIPayload) : f.done = false → f.finished = true → u.isDone = false →
      u.carriesFinish = false → u.carriesContent = false → Writes f .stop [u, .done]
  | cut (p u : OpenAIPayload) : f.done = false → f.finished = false → p.isDone = false →
      p.carriesFinish = true → p.carriesContent = false → u.isDone = false →
      u.carriesFinish = false → u.carriesContent = false → Writes f .stop [p, u, .done]
  | error (e : OpenAIPayload) : e.isDone = false → e.carriesFinish = false →
      e.carriesContent = false → Writes f .error [e, .done]

namespace ToOpenAIStream

variable (s : ToOpenAIStream) (ev : Obj)

theorem writes_finish :
    Writes s.flags .stop s.finish_.2 ∧ s.finish_.1.flags = s.flags.after .stop := by
  unfold finish_
  split
  · next hdone => exact ⟨.again hdone, by simp [flags, Flags.after, hdone]⟩
  · next hdone =>
    refine ⟨?_, rfl⟩
    cases hfin : s.finished with
    | true => exact .stop _ (by simpa [flags] using hdone) hfin rfl rfl rfl
    | false => exact .cut _ _ (by simpa [flags] using hdone) hfin rfl rfl rfl rfl rfl rfl

theorem writes_messageStart :
    Writes s.flags .content (s.messageStart ev).2 ∧ (s.messageStart ev).1.flags = s.flags := by
  refine ⟨.content _ rfl rfl rfl, ?_⟩
  unfold messageStart
  dsimp only
  split <;> split <;> try split
  all_goals rfl

theorem writes_blockStart :
    Writes s.flags
        (if (field (asObj (field ev "content_block")) "type").isStr "tool_use" then .content
        else .none) (s.blockStart ev).2 ∧ (s.blockStart ev).1.flags = s.flags := by
  unfold blockStart
  dsimp only
  split
  · exact ⟨.content _ rfl rfl rfl, rfl⟩
  · exact ⟨.none, rfl⟩

theorem writes_blockDelta :
    Writes s.flags
        (if (field (asObj (field ev "delta")) "type").string? = some "text_delta" ∨
          (field (asObj (field ev "delta")) "type").string? = some "input_json_delta" then .content
        else .none) (s.blockDelta ev).2 ∧ (s.blockDelta ev).1.flags = s.flags := by
  unfold blockDelta
  dsimp only
  generalize (field (asObj (field ev "delta")) "type").string? = typ
  by_cases htext : typ = some "text_delta"
  · subst htext
    exact ⟨.content _ rfl rfl rfl, rfl⟩
  by_cases hjson : typ = some "input_json_delta"
  · subst hjson
    exact ⟨.content _ rfl rfl rfl, rfl⟩
  rw [if_neg (not_or.mpr ⟨htext, hjson⟩)]
  split
  · exact absurd rfl htext
  · exact absurd rfl hjson
  · exact ⟨.none, rfl⟩

theorem writes_messageDelta :
    Writes s.flags .finish (s.messageDelta ev).2 ∧
      (s.messageDelta ev).1.flags = s.flags.after .finish := by
  refine ⟨.finish _ rfl rfl rfl, ?_⟩
  have hdone : (s.messageDelta ev).1.done = s.done := by
    unfold messageDelta
    split <;> try split <;> try split <;> try split
    all_goals rfl
  exact congrArg (Flags.mk true) hdone

theorem writes_feedEvent :
    Writes s.flags (emissionOf s.event ev) (s.feedEvent ev).2 ∧
      (s.feedEvent ev).1.flags = s.flags.after (emissionOf s.event ev) := by
  have hfeed : s.feedEvent ev =
      if typeOf s.event ev = "message_start" then s.messageStart ev
      else if typeOf s.event ev = "content_block_start" then s.blockStart ev
      else if typeOf s.event ev = "content_block_delta" then s.blockDelta ev
      else if typeOf s.event ev = "message_delta" then s.messageDelta ev
      else if typeOf s.event ev = "message_stop" then s.finish_
      else if typeOf s.event ev = "error" then
        ({ s with done := true }, [.data (.obj [("error", field ev "error")]), .done])
      else (s, []) := rfl
  rw [hfeed]
  unfold emissionOf
  by_cases hstart : typeOf s.event ev = "message_start"
  · rw [if_pos hstart, if_pos hstart]
    exact s.writes_messageStart ev
  rw [if_neg hstart, if_neg hstart]
  by_cases hblock : typeOf s.event ev = "content_block_start"
  · rw [if_pos hblock, if_pos hblock]
    have hwrites := s.writes_blockStart ev
    refine ⟨hwrites.1, hwrites.2.trans ?_⟩
    split <;> rfl
  rw [if_neg hblock, if_neg hblock]
  by_cases hdelta : typeOf s.event ev = "content_block_delta"
  · rw [if_pos hdelta, if_pos hdelta]
    have hwrites := s.writes_blockDelta ev
    refine ⟨hwrites.1, hwrites.2.trans ?_⟩
    split <;> rfl
  rw [if_neg hdelta, if_neg hdelta]
  by_cases hmessage : typeOf s.event ev = "message_delta"
  · rw [if_pos hmessage, if_pos hmessage]
    exact s.writes_messageDelta ev
  rw [if_neg hmessage, if_neg hmessage]
  by_cases hstop : typeOf s.event ev = "message_stop"
  · rw [if_pos hstop, if_pos hstop]
    exact s.writes_finish
  rw [if_neg hstop, if_neg hstop]
  by_cases herror : typeOf s.event ev = "error"
  · rw [if_pos herror, if_pos herror]
    exact ⟨.error _ rfl rfl rfl, rfl⟩
  rw [if_neg herror, if_neg herror]
  exact ⟨.none, rfl⟩

theorem event_feedEvent : (s.feedEvent ev).1.event = s.event := by
  unfold feedEvent messageStart blockStart blockDelta messageDelta finish_
  dsimp only
  repeat' split
  all_goals rfl

theorem event_feed (line : String) : (s.feed line).1.event = eventAfter s.event line := by
  unfold feed eventAfter
  cases Text.cutStart "event:" line with
  | some name => rfl
  | none =>
    dsimp only
    split
    · rfl
    · split
      · rfl
      · exact s.event_feedEvent _

theorem writes_feed (line : String) :
    Writes s.flags (emission s.event line) (s.feed line).2 ∧
      (s.feed line).1.flags = s.flags.after (emission s.event line) := by
  unfold feed emission
  cases Text.cutStart "event:" line with
  | some name => exact ⟨.none, rfl⟩
  | none =>
    cases Text.cutStart "data:" line with
    | none => exact ⟨.none, rfl⟩
    | some data =>
      dsimp only
      cases unmarshalMap (Text.trimSpace data) with
      | none => exact ⟨.none, rfl⟩
      | some ev => exact s.writes_feedEvent ev

end ToOpenAIStream

/-! ## The end of a stream -/

/-- Content and a finish reason come before both, an error before the end. -/
def Flags.orderly (f : Flags) : Emission → Bool
  | .none | .stop => true
  | .content | .finish => !f.finished && !f.done
  | .error => !f.done

def Flags.allOrderly : Flags → List Emission → Bool
  | _, [] => true
  | f, e :: rest => f.orderly e && (f.after e).allOrderly rest

def Tail (f : Flags) (payloads : List OpenAIPayload) (errorFree : Prop) : Prop :=
  if f.done then payloads = []
  else if f.finished then
    (∃ before, payloads = before ++ [.done] ∧ ∀ p ∈ before, p.isDone = false) ∧
      ∀ p ∈ payloads, p.carriesFinish = false ∧ p.carriesContent = false
  else EndsOnce payloads errorFree

variable {p : OpenAIPayload} {rest : List OpenAIPayload}

theorem ends_cons (hp : p.isDone = false) :
    (∃ before, p :: rest = before ++ [.done] ∧ ∀ q ∈ before, q.isDone = false) ↔
      ∃ before, rest = before ++ [.done] ∧ ∀ q ∈ before, q.isDone = false := by
  constructor
  · rintro ⟨before, heq, hall⟩
    cases before with
    | nil =>
      cases heq
      cases hp
    | cons q before =>
      cases heq
      exact ⟨before, rfl, fun x hx => hall x (List.mem_cons_of_mem _ hx)⟩
  · rintro ⟨before, rfl, hall⟩
    refine ⟨p :: before, rfl, fun q hq => ?_⟩
    rcases List.mem_cons.mp hq with rfl | hq
    · exact hp
    · exact hall q hq

theorem ends_done :
    (∃ before, OpenAIPayload.done :: rest = before ++ [.done] ∧ ∀ q ∈ before, q.isDone = false) ↔
      rest = [] := by
  constructor
  · rintro ⟨before, heq, hall⟩
    cases before with
    | nil => exact (List.cons.inj heq).2
    | cons q before =>
      cases heq
      cases hall _ List.mem_cons_self
  · rintro rfl
    exact ⟨[], rfl, fun q hq => (by cases hq)⟩

theorem ends_pair (hp : p.isDone = false) :
    (∃ before, p :: .done :: rest = before ++ [.done] ∧ ∀ q ∈ before, q.isDone = false) ↔
      rest = [] :=
  (ends_cons hp).trans ends_done

theorem quiet_pair (hf : p.carriesFinish = false) (hc : p.carriesContent = false) :
    ∀ q ∈ [p, .done], q.carriesFinish = false ∧ q.carriesContent = false := by
  intro q hq
  rcases List.mem_cons.mp hq with rfl | hq
  · exact ⟨hf, hc⟩
  · rw [List.mem_singleton.mp hq]
    exact ⟨rfl, rfl⟩

variable {clean : Prop}

theorem endsOnce_content (hd : p.isDone = false) (hf : p.carriesFinish = false) :
    EndsOnce (p :: rest) clean ↔ EndsOnce rest clean := by
  have hcount : (p :: rest).countP OpenAIPayload.carriesFinish =
      rest.countP OpenAIPayload.carriesFinish := List.countP_cons_of_neg (by simp [hf])
  constructor
  · intro h
    exact ⟨(ends_cons hd).mp h.done, hcount ▸ h.atMostOne, fun he => hcount ▸ h.exactlyOne he,
      (List.pairwise_cons.mp h.noneAfter).2⟩
  · intro h
    refine ⟨(ends_cons hd).mpr h.done, hcount ▸ h.atMostOne, fun he => hcount ▸ h.exactlyOne he,
      List.pairwise_cons.mpr ⟨fun q _ hp => ?_, h.noneAfter⟩⟩
    rw [hf] at hp
    cases hp

theorem endsOnce_finish (hd : p.isDone = false) (hf : p.carriesFinish = true) :
    EndsOnce (p :: rest) clean ↔
      (∃ before, rest = before ++ [.done] ∧ ∀ q ∈ before, q.isDone = false) ∧
        ∀ q ∈ rest, q.carriesFinish = false ∧ q.carriesContent = false := by
  have hcount : (p :: rest).countP OpenAIPayload.carriesFinish =
      rest.countP OpenAIPayload.carriesFinish + 1 := List.countP_cons_of_pos hf
  constructor
  · intro h
    refine ⟨(ends_cons hd).mp h.done, fun q hq =>
      ⟨?_, (List.pairwise_cons.mp h.noneAfter).1 q hq hf⟩⟩
    have hzero : rest.countP OpenAIPayload.carriesFinish = 0 := by
      have := h.atMostOne
      omega
    simpa using List.countP_eq_zero.mp hzero q hq
  · rintro ⟨hdone, hall⟩
    have hzero : rest.countP OpenAIPayload.carriesFinish = 0 :=
      List.countP_eq_zero.mpr fun q hq => by simp [(hall q hq).1]
    refine ⟨(ends_cons hd).mpr hdone, by omega, fun _ => by omega,
      List.pairwise_cons.mpr ⟨fun q hq _ => (hall q hq).2, ?_⟩⟩
    exact List.pairwise_of_forall_mem_list fun q _ r hr _ => (hall r hr).2

theorem tail_append {f : Flags} {em : Emission} {out : List OpenAIPayload} (h : Writes f em out) :
    Tail f (out ++ rest) (em ≠ .error ∧ clean) ↔
      f.orderly em = true ∧ Tail (f.after em) rest clean := by
  obtain ⟨finished, done⟩ := f
  cases h with
  | none => simp [Flags.orderly, Flags.after]
  | content p hd hf hc =>
    cases done <;> cases finished <;>
      simp [Tail, Flags.orderly, Flags.after, endsOnce_content hd hf, hc]
  | finish p hd hf hc =>
    cases done <;> cases finished <;>
      simp [Tail, Flags.orderly, Flags.after, endsOnce_finish hd hf, hf]
  | again hdone =>
    cases hdone
    simp [Tail, Flags.orderly, Flags.after]
  | stop u hdone hfin hd hf hc =>
    cases hdone
    cases hfin
    constructor
    · intro htail
      exact ⟨rfl, (ends_pair hd).mp htail.1⟩
    · rintro ⟨-, hrest⟩
      cases hrest
      exact ⟨(ends_pair hd).mpr rfl, quiet_pair hf hc⟩
  | cut p u hdone hfin hd hf hc hd' hf' hc' =>
    cases hdone
    cases hfin
    constructor
    · intro htail
      exact ⟨rfl, (ends_pair hd').mp ((endsOnce_finish hd hf).mp htail).1⟩
    · rintro ⟨-, hrest⟩
      cases hrest
      exact (endsOnce_finish hd hf).mpr ⟨(ends_pair hd').mpr rfl, quiet_pair hf' hc'⟩
  | error e hd hf hc =>
    cases done with
    | true => simp [Tail, Flags.orderly]
    | false =>
      cases finished with
      | true =>
        constructor
        · intro htail
          exact ⟨rfl, (ends_pair hd).mp htail.1⟩
        · rintro ⟨-, hrest⟩
          cases hrest
          exact ⟨(ends_pair hd).mpr rfl, quiet_pair hf hc⟩
      | false =>
        constructor
        · intro htail
          exact ⟨rfl, (ends_pair hd).mp htail.done⟩
        · rintro ⟨-, hrest⟩
          cases hrest
          refine (endsOnce_content hd hf).mpr
            ⟨ends_done.mpr rfl, Nat.zero_le 1, fun he => absurd rfl he.1, ?_⟩
          exact List.pairwise_singleton _ _

namespace ToOpenAIStream

def lineOrderly (s : ToOpenAIStream) (line : String) : Bool :=
  s.flags.orderly (emission s.event line)

def errorFree (s : ToOpenAIStream) (lines : List String) : Bool :=
  allOrderly feed (fun s line => emission s.event line ≠ .error) s lines

theorem transcript_cons (s : ToOpenAIStream) (line : String) (rest : List String) :
    s.transcript (line :: rest) = (s.feed line).2 ++ (s.feed line).1.transcript rest :=
  transcriptOf_cons ..

/-- From every state, what is left is written as its flags demand just if the lines
left are orderly. -/
theorem tail_transcript_iff (lines : List String) (s : ToOpenAIStream) :
    Tail s.flags (s.transcript lines) (s.errorFree lines = true) ↔
      allOrderly feed lineOrderly s lines = true := by
  induction lines generalizing s with
  | nil =>
    obtain ⟨hwrites, -⟩ := s.writes_finish
    have hafter : Tail (s.flags.after .stop) [] True := by simp [Tail, Flags.after]
    have htail := (tail_append hwrites).mpr ⟨rfl, hafter⟩
    simpa [transcript, transcriptOf, feedAll, errorFree, allOrderly] using htail
  | cons line rest ih =>
    obtain ⟨hwrites, hflags⟩ := s.writes_feed line
    have hfree : (s.errorFree (line :: rest) = true) =
        (emission s.event line ≠ .error ∧ (s.feed line).1.errorFree rest = true) := by
      simp [errorFree, allOrderly]
    rw [transcript_cons, hfree, tail_append hwrites, ← hflags, ih, allOrderly, Bool.and_eq_true]
    rfl

theorem allOrderly_eq_emissions (lines : List String) (s : ToOpenAIStream) :
    allOrderly feed lineOrderly s lines = s.flags.allOrderly (emissions s.event lines) := by
  induction lines generalizing s with
  | nil => rfl
  | cons line rest ih =>
    rw [allOrderly, ih, (s.writes_feed line).2, s.event_feed line]
    rfl

/-- For every sequence of lines, the stream that is written ends once just if the
lines are orderly: they say nothing after a finish reason or the end but the end, or
an error before it. -/
theorem endsOnce_transcript_iff (model id : String) (created : Int) (lines : List String) :
    (EndsOnce ((newStream model id created).transcript lines)
        ((newStream model id created).errorFree lines = true) ↔
      allOrderly feed lineOrderly (newStream model id created) lines = true) ∧
      allOrderly feed lineOrderly (newStream model id created) lines =
        Flags.allOrderly ⟨false, false⟩ (emissions "" lines) :=
  ⟨tail_transcript_iff lines (newStream model id created), allOrderly_eq_emissions lines _⟩

def twoErrors : List String :=
  ["data:\x7b\"type\":\"error\"\x7d", "data:\x7b\"type\":\"error\"\x7d"]

theorem twoErrors_not_endsOnce :
    ((newStream "m" "c" 0).transcript twoErrors).countP OpenAIPayload.isDone = 2 ∧
      ¬ EndsOnce ((newStream "m" "c" 0).transcript twoErrors)
        ((newStream "m" "c" 0).errorFree twoErrors = true) := by
  have hcount : ((newStream "m" "c" 0).transcript twoErrors).countP OpenAIPayload.isDone = 2 := by
    decide +kernel
  refine ⟨hcount, fun h => ?_⟩
  obtain ⟨before, heq, hall⟩ := h.done
  have hzero : before.countP OpenAIPayload.isDone = 0 :=
    List.countP_eq_zero.mpr fun p hp => by simp [hall p hp]
  rw [heq, List.countP_append, hzero] at hcount
  exact absurd hcount (by decide)

end ToOpenAIStream

end Kaalm.Translate
