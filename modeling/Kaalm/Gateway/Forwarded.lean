/-
  Gateway/Forwarded.lean --- the requests that go upstream.

  `Forwards` says how a request that goes upstream was built: the caller's body with the
  model's name, or its translation, on the caller's path or the candidate's own, with the
  headers the caller sent and the candidate's credential.  Three properties are read off
  it: what a streamed OpenAI-format request says about usage, which of the caller's headers
  go along, and what a chat completion that crosses into the Anthropic format looks like.
-/
import Mathlib
import Kaalm.Gateway.LlmRun
import Kaalm.Translate.Fields

namespace Kaalm.Gateway

open Kaalm.Foundation Kaalm.Foundation.Json Kaalm.Foundation.Prog Kaalm.Translate

def pendingSend : LlmProg Reply → Option (Provider × UpstreamRequest)
  | .call (.send provider req) _ => some (provider, req)
  | _ => none

variable {s : Store} {cfg : LlmConfig} {c : Caller} {r : LlmRequest} {tr : LlmTrace}
  {rest : LlmProg Reply} {provider : Provider} {req : UpstreamRequest}

theorem forwards_of_pendingSend (h : Reach llmAnswers (handleLLMProxy s cfg c r) tr rest)
    (hsend : pendingSend rest = some (provider, req)) : Forwards cfg c r provider req tr := by
  have hrest := handleLLMProxy_returns.reach h
  cases rest with
  | ret | fail => cases hsend
  | call op k =>
    cases op with
    | send provider' req' =>
      cases hsend
      exact hrest.1.2
    | _ => cases hsend

variable {parsed : Obj}

theorem unmarshalMap_of_readRequest {providerName modelName body : String}
    (h : readRequest cfg r = .ok (parsed, providerName, modelName)) (hbody : r.body = .ok body) :
    unmarshalMap body = some parsed := by
  unfold readRequest at h
  rw [hbody] at h
  dsimp only at h
  split_ifs at h
  split at h
  · cases h
  · rename_i hparsed
    split at h
    · cases h
    · cases h
      exact hparsed

variable {modelID : String} {primary : Provider} {primarySettle : Option Settle}

theorem crosses_openai_of_messages (hpath : adapterForPath r.path = some .anthropic)
    (htype : formatForType provider.type = some .openai) :
    (walkOf cfg c r .anthropic parsed primary modelID primarySettle).crosses provider =
      some (.anthropic, .openai) := by
  have hlegacy : r.path ≠ "/v1/completions" := by
    intro heq
    rw [heq] at hpath
    exact absurd hpath (by decide)
  unfold Walk.crosses walkOf inboundFormatOf
  rw [htype, if_neg hlegacy]
  rfl

theorem not_crosses_openai_of_chat (htype : formatForType provider.type = some .openai) :
    (walkOf cfg c r .openai parsed primary modelID primarySettle).crosses provider = none := by
  unfold Walk.crosses walkOf inboundFormatOf
  split_ifs
  · rfl
  · rw [htype]
    rfl

/-- A chat completion crosses into every candidate of type anthropic, a legacy completion into
none. -/
theorem crosses_anthropic_of_chat (htype : provider.type = .anthropic) :
    (walkOf cfg c r .openai parsed primary modelID primarySettle).crosses provider =
      if r.path = "/v1/completions" then none else some (.openai, .anthropic) := by
  unfold Walk.crosses walkOf inboundFormatOf
  rw [htype]
  split_ifs <;> rfl

theorem adapterForPath_cases {path : String} {adapter : Adapter}
    (h : adapterForPath path = some adapter) : adapter = .anthropic ∨ adapter = .openai := by
  unfold adapterForPath at h
  dsimp only at h
  split_ifs at h <;> cases h
  · exact .inl rfl
  · exact .inr rfl

theorem adapterForProviderType_of_openai {type : ProviderType}
    (h : formatForType type = some .openai) : adapterForProviderType type = .openai := by
  cases type with
  | anthropic | googleVertex => cases h
  | openai | openaiCompatible => rfl

/-! ## Usage of streams -/

/-- `v, _ := body[k].(bool)`. -/
def flag (body : Obj) (k : String) : Bool :=
  match field body k with
  | .bool b => b
  | _ => false

variable {body : Obj} {k : String}

theorem field_of_flag (h : flag body k = true) :
    field body k = .bool true := by
  unfold flag at h
  split at h
  · rename_i b hfield
    rw [hfield, h]
  · cases h

/-- `stream_options.include_usage` is set. -/
def asksForUsage (body : Obj) : Bool := flag (asObj (field body "stream_options")) "include_usage"

theorem asksForUsage_put (body : Obj) (v : Json) (hk : k ≠ "stream_options") :
    asksForUsage (put body k v) = asksForUsage body := by
  rw [asksForUsage, field, member?_put_of_ne body v hk, asksForUsage, field]

theorem member?_of_field_bool {b : Bool} (h : field body k = .bool b) :
    member? k body = some (.bool b) := by
  unfold field at h
  cases hmember : member? k body with
  | none => rw [hmember] at h; cases h
  | some v => rw [hmember] at h; exact congrArg some h

theorem asksForUsage_fixup (hstream : field body "stream" = .bool true) :
    asksForUsage (Adapter.openai.fixupRequestBody body) =
      ((member? "stream_options" body).isNone || asksForUsage body) := by
  unfold Adapter.fixupRequestBody
  rw [hstream]
  cases hoptions : member? "stream_options" body with
  | none =>
    rw [if_neg (by simp), asksForUsage, field_put_self]
    rfl
  | some options => simp

variable {input : Obj} {model : String}

theorem asksForUsage_translated {out : Obj} (h : anthropicToOpenAIRequest input model = .ok out)
    (hstream : field input "stream" = .bool true) :
    asksForUsage (Adapter.openai.fixupRequestBody out) = true := by
  obtain ⟨system, converted, -, -, hfields⟩ := anthropicToOpenAIRequest_ok h
  have hout : field out "stream" = .bool true := by
    obtain ⟨before, rfl, -⟩ := chatFields_ok hfields
    rw [field, member?_stream_anthropicScalars before (member?_of_field_bool hstream),
      Option.getD_some]
  have hnone : member? "stream_options" out = none := member?_chatFields (by decide) hfields
  rw [asksForUsage_fixup hout, hnone]
  rfl

/-- What a candidate of an OpenAI format is told of a streamed request: it is asked for usage,
except where the caller sent a chat completion whose own options do not. -/
theorem stream_asks_for_usage_iff {body : String} {parsed : Obj}
    (h : Reach llmAnswers (handleLLMProxy s cfg c r) tr rest)
    (hsend : pendingSend rest = some (provider, req))
    (htype : formatForType provider.type = some .openai)
    (hbody : r.body = .ok body) (hparsed : unmarshalMap body = some parsed)
    (hstream : flag parsed "stream" = true) :
    asksForUsage req.body = true ↔
      adapterForPath r.path = some .anthropic ∨ member? "stream_options" parsed = none ∨
        asksForUsage parsed = true := by
  obtain ⟨adapter, parsed', providerName, modelName, primary, modelID, primarySettle, model, built,
    credential, hadapter, hread, hbuilt, rfl, -⟩ := (forwards_of_pendingSend h hsend).exists_built
  obtain rfl : parsed' = parsed :=
    Option.some.inj ((unmarshalMap_of_readRequest hread hbody).symm.trans hparsed)
  have hmodel : field (put parsed' "model" (.str modelID)) "stream" = .bool true := by
    rw [field_put_of_ne _ _ (by decide), field_of_flag hstream]
  show asksForUsage built.1 = true ↔ _
  rcases adapterForPath_cases hadapter with rfl | rfl
  · obtain ⟨translated, htranslated, rfl⟩ :=
      hbuilt.crossing _ _ (crosses_openai_of_messages hadapter htype)
    rw [adapterForProviderType_of_openai htype]
    exact iff_of_true (asksForUsage_translated (Fallible.mapError_eq_ok_iff.mp htranslated) hmodel)
      (.inl hadapter)
  · have hfixed : asksForUsage built.1 =
        asksForUsage (Adapter.openai.fixupRequestBody (put parsed' "model" (.str modelID))) := by
      rw [hbuilt.plain (not_crosses_openai_of_chat htype)]
      split_ifs
      · exact asksForUsage_put _ _ (by decide)
      · rfl
    rw [hfixed, asksForUsage_fixup hmodel, member?_put_of_ne _ _ (by decide),
      asksForUsage_put _ _ (by decide), hadapter]
    simp

def streamedChat (includeUsage : String) : String :=
  "\x7b\"model\":\"openai/m\",\"stream\":true,\"stream_options\":\x7b\"include_usage\":" ++
    includeUsage ++ "\x7d\x7d"

/-- A caller that says it wants no usage is not overruled. -/
theorem stream_without_usage :
    ∃ tr rest, Reach llmAnswers
        (handleLLMProxy (cappedStore .openai) ⟨3, 4096⟩ ⟨"team", none⟩
          (plainRequest "/v1/chat/completions" (streamedChat "false"))) tr rest ∧
      ((pendingSend rest).map fun p => (p.1.type, asksForUsage p.2.body)) =
        some (.openai, false) :=
  ⟨_, _, reach_cappedSteps .openai _ _ 3, by decide +kernel⟩

/-- One that says it wants it gets it. -/
theorem stream_asks_for_usage_iff_asked :
    ∃ provider req,
      pendingSend (cappedSteps .openai "/v1/chat/completions" (streamedChat "true") 3).2 =
        some (provider, req) ∧ asksForUsage req.body = true := by
  obtain ⟨⟨provider, req⟩, hsend⟩ := Option.isSome_iff_exists.mp (show (pendingSend
    (cappedSteps .openai "/v1/chat/completions" (streamedChat "true") 3).2).isSome = true by
      decide +kernel)
  obtain ⟨parsed, hparsed⟩ := Option.isSome_iff_exists.mp
    (show (unmarshalMap (streamedChat "true")).isSome = true by decide +kernel)
  have htype : (pendingSend
      (cappedSteps .openai "/v1/chat/completions" (streamedChat "true") 3).2).map
        (fun p => formatForType p.1.type) = some (some .openai) := by decide +kernel
  rw [hsend] at htype
  have hasked : (unmarshalMap (streamedChat "true")).map asksForUsage = some true := by
    decide +kernel
  rw [hparsed] at hasked
  have hstream : (unmarshalMap (streamedChat "true")).map (flag · "stream") = some true := by
    decide +kernel
  rw [hparsed] at hstream
  exact ⟨provider, req, hsend, (stream_asks_for_usage_iff
    (reach_cappedSteps .openai "/v1/chat/completions" (streamedChat "true") 3) hsend
    (Option.some.inj htype) rfl hparsed (Option.some.inj hstream)).mpr
      (.inr (.inr (Option.some.inj hasked)))⟩

/-! ## The caller's headers -/

/-- Dropped whatever the caller says: credentials, hop-by-hop headers and framing. -/
def droppedHeaders : List String :=
  (authMaterialHeaders ++ hopByHopHeaders ++ ["Host", "Content-Length"]).map canonicalHeaderKey

theorem lookup_copyForwardedHeaders (src : Header) (key : String) :
    (copyForwardedHeaders src).lookup key =
      if key = "Accept-Encoding" then some ["identity"]
      else if key ∈ droppedHeaders ∨ key ∈ (connectionNames src).map canonicalHeaderKey then none
      else src.lookup key := by
  have hencoding : canonicalHeaderKey "Accept-Encoding" = "Accept-Encoding" := by decide +kernel
  have hhost : "Accept-Encoding" ≠ canonicalHeaderKey "Host" := by decide +kernel
  have hlength : "Accept-Encoding" ≠ canonicalHeaderKey "Content-Length" := by decide +kernel
  simp only [copyForwardedHeaders, Header.lookup_del, Header.lookup_set, Header.lookup_foldl_del,
    hencoding, droppedHeaders, List.map_append, List.mem_append, List.map_cons, List.map_nil,
    List.mem_cons, List.not_mem_nil, or_false]
  by_cases hkey : key = "Accept-Encoding"
  · simp [hkey, hhost, hlength]
  · grind

/-- The elements of a `Connection` line, as the names of headers. -/
def lineNames (line : String) : List String :=
  (((line.toList.splitOn ',').map fun name => Text.trimSpace (String.ofList name)).filter
    (· ≠ "")).map canonicalHeaderKey

/-- An element of some `Connection` line names the header. -/
def NamedByConnection (src : Header) (key : String) : Prop :=
  ∃ line ∈ (src.lookup "Connection").getD [], key ∈ lineNames line

instance (src : Header) (key : String) : Decidable (NamedByConnection src key) :=
  inferInstanceAs (Decidable (∃ line ∈ _, _))

/-- The contract for what is forwarded: no credentials and nothing that is scoped to one
connection, a fixed `Accept-Encoding`, and every other header with its values as they came. -/
def HopByHop (src dst : Header) : Prop :=
  ∀ key, dst.lookup key =
    if key = "Accept-Encoding" then some ["identity"]
    else if key ∈ (authMaterialHeaders ++ hopByHopHeaders).map canonicalHeaderKey ∨
      NamedByConnection src key then none
    else src.lookup key

/-- The first `Connection` line names what is dropped for being named, and the framing
headers are absent or named. -/
structure FirstLineNames (src : Header) : Prop where
  named : ∀ key ∈ src, NamedByConnection src key → key ≠ "Accept-Encoding" →
    key ∈ droppedHeaders ∨ key ∈ (connectionNames src).map canonicalHeaderKey
  framing : ∀ key ∈ ["Host", "Content-Length"], key ∈ src → NamedByConnection src key

theorem namedByConnection_of_mem {src : Header} {key : String}
    (h : key ∈ (connectionNames src).map canonicalHeaderKey) : NamedByConnection src key := by
  have hname : canonicalHeaderKey "Connection" = "Connection" := by decide +kernel
  have hempty : lineNames "" = [] := by decide +kernel
  change key ∈ lineNames (src.get "Connection") at h
  rw [Header.get, hname] at h
  cases hline : (src.lookup "Connection").bind List.head? with
  | none =>
    rw [hline, Option.getD_none, hempty] at h
    cases h
  | some line =>
    obtain ⟨lines, hlines, hhead⟩ := Option.bind_eq_some_iff.mp hline
    refine ⟨line, ?_, by rwa [hline] at h⟩
    rw [hlines]
    exact List.mem_of_head? hhead

/-- The headers that go upstream, before the credential, keep the contract exactly if the
first `Connection` line says all there is to say. -/
theorem copyForwardedHeaders_hopByHop_iff (src : Header) :
    HopByHop src (copyForwardedHeaders src) ↔ FirstLineNames src := by
  have hdropped : droppedHeaders = (authMaterialHeaders ++ hopByHopHeaders).map
      canonicalHeaderKey ++ ["Host", "Content-Length"] := by decide +kernel
  have hframing : ∀ key ∈ ["Host", "Content-Length"], key ≠ "Accept-Encoding" ∧
      key ∉ (authMaterialHeaders ++ hopByHopHeaders).map canonicalHeaderKey := by decide +kernel
  simp only [HopByHop, lookup_copyForwardedHeaders]
  constructor
  · intro h
    refine ⟨fun key hsrc hnamed hencoding => ?_, fun key hkey hsrc => ?_⟩
    · have heq := h key
      by_contra hother
      rw [if_neg hencoding, if_neg hencoding, if_neg hother, if_pos (.inr hnamed)] at heq
      exact AList.lookup_eq_none.mp heq hsrc
    · have heq := h key
      obtain ⟨hencoding, hother⟩ := hframing key hkey
      by_contra hunnamed
      rw [if_neg hencoding, if_neg hencoding, if_neg (not_or.mpr ⟨hother, hunnamed⟩),
        if_pos (.inl (hdropped ▸ List.mem_append_right _ hkey))] at heq
      exact AList.lookup_eq_none.mp heq.symm hsrc
  · intro h key
    split_ifs with hencoding hdrop hgone hgone
    · rfl
    · rfl
    · rw [not_or] at hgone
      have hkey := (List.mem_append.mp (hdropped ▸ hdrop.resolve_right fun hfirst =>
        hgone.2 (namedByConnection_of_mem hfirst))).resolve_left hgone.1
      exact (AList.lookup_eq_none.mpr fun hsrc => hgone.2 (h.framing key hkey hsrc)).symm
    · refine AList.lookup_eq_none.mpr fun hsrc => hdrop ?_
      rcases hgone with hfixed | hnamed
      · exact .inl (hdropped ▸ List.mem_append_left _ hfixed)
      · exact h.named key hsrc hnamed hencoding
    · rfl

/-- A caller that names its header in a second `Connection` line. -/
def secondLine : Header :=
  (AList.singleton "X-Session" ["s"]).insert "Connection" ["keep-alive", "X-Session"]

theorem secondLine_forwarded :
    NamedByConnection secondLine "X-Session" ∧
      (copyForwardedHeaders secondLine).lookup "X-Session" = some ["s"] ∧
      ¬HopByHop secondLine (copyForwardedHeaders secondLine) := by
  have hnamed : NamedByConnection secondLine "X-Session" := ⟨"X-Session", by decide +kernel⟩
  have hsent : (copyForwardedHeaders secondLine).lookup "X-Session" = some ["s"] := by
    decide +kernel
  refine ⟨hnamed, hsent, fun h => ?_⟩
  rw [h, if_neg (by decide), if_pos (.inr hnamed)] at hsent
  cases hsent

/-! ## Chat completions sent to Anthropic -/

/-- `max_tokens` of an Anthropic request. -/
def tokenLimit (body : Obj) : Option Int :=
  match field body "max_tokens" with
  | .num literal => literal.toInt?
  | _ => none

/-- A request that an Anthropic provider takes, for a caller's chat completion: the path, the
translation with a token limit within what the model declares (0 stands for no declaration, the
schema's least is 1), the key, and the version header that the health probe of such a provider
sends. -/
structure CompleteForAnthropic (provider : Provider) (parsed : Obj) (model credential : String)
    (req : UpstreamRequest) : Prop where
  path : req.url = String.ofList (trimEnd provider.endpoint.toList ['/']) ++ "/v1/messages"
  translated :
    openAIToAnthropicRequest parsed model (maxOutputTokensOf provider model) = .ok req.body
  limit : ∃ maxTokens, tokenLimit req.body = some maxTokens ∧ 0 < maxTokens ∧
    (0 < maxOutputTokensOf provider model → maxTokens ≤ maxOutputTokensOf provider model)
  key : req.header.lookup "X-Api-Key" = some [credential]
  version : req.header.get "anthropic-version" ≠ ""

/-- The caller's header reaches the provider: it is sent, and `Connection` does not name it. -/
def sendsVersion (h : Header) : Bool :=
  h.get "anthropic-version" ≠ "" ∧
    "Anthropic-Version" ∉ (connectionNames h).map canonicalHeaderKey

section Headers

variable (r : LlmRequest) (provider : Provider) (body : Obj) (path credential : String)

theorem lookup_upstreamRequest {key : String} (htype : provider.type = .anthropic)
    (hkey : key ≠ "Content-Type") :
    (upstreamRequest r provider body path credential).header.lookup key =
      if key = "X-Api-Key" then some [credential]
      else (copyForwardedHeaders r.header).lookup key := by
  have hcontent : canonicalHeaderKey "Content-Type" = "Content-Type" := by decide +kernel
  have hname : canonicalHeaderKey "x-api-key" = "X-Api-Key" := by decide +kernel
  unfold upstreamRequest Adapter.injectCredential
  rw [htype]
  dsimp only [adapterForProviderType]
  rw [Header.lookup_set, hcontent, if_neg hkey, Header.lookup_set, hname]

theorem get_version_upstreamRequest (htype : provider.type = .anthropic) :
    (upstreamRequest r provider body path credential).header.get "anthropic-version" ≠ "" ↔
      sendsVersion r.header = true := by
  have hname : canonicalHeaderKey "anthropic-version" = "Anthropic-Version" := by decide +kernel
  rw [Header.get, hname, lookup_upstreamRequest r provider body path credential htype (by decide),
    if_neg (by decide), lookup_copyForwardedHeaders, if_neg (by decide)]
  simp only [show "Anthropic-Version" ∉ droppedHeaders by decide +kernel, false_or]
  unfold sendsVersion
  rw [Header.get, hname]
  split_ifs with hnamed
  · simp [hnamed]
  · simp [hnamed]

end Headers

theorem member?_fixupRequestBody (adapter : Adapter) (body : Obj) (hk : k ≠ "stream_options") :
    member? k (adapter.fixupRequestBody body) = member? k body := by
  unfold Adapter.fixupRequestBody
  split
  · split_ifs
    · rfl
    · exact member?_put_of_ne _ _ (Ne.symm hk)
  · rfl

variable {maxOutputTokens : Int}

theorem openAIMaxTokens_pos_iff {maxTokens : Int}
    (h : openAIMaxTokens input model maxOutputTokens = .ok maxTokens) :
    0 < maxTokens ↔ ∀ stated, statedMaxTokens input = some stated → 0 < stated := by
  unfold openAIMaxTokens at h
  cases hstated : statedMaxTokens input with
  | none =>
    rw [hstated] at h
    split_ifs at h with hceiling
    cases h
    simpa using hceiling
  | some stated =>
    rw [hstated] at h
    dsimp only at h
    simp only [Option.some.injEq, forall_eq']
    split_ifs at h with hceiling <;> cases h
    · exact iff_of_true hceiling.1 (hceiling.1.trans hceiling.2)
    · rfl

theorem openAIMaxTokens_le {maxTokens : Int}
    (h : openAIMaxTokens input model maxOutputTokens = .ok maxTokens) (hpos : 0 < maxOutputTokens) :
    maxTokens ≤ maxOutputTokens := by
  unfold openAIMaxTokens at h
  split at h
  · split_ifs at h
    cases h
    exact le_rfl
  · split_ifs at h with hceiling <;> cases h
    · exact le_rfl
    · exact not_lt.mp fun hlt => hceiling ⟨hpos, hlt⟩

theorem tokenLimit_translated {out : Obj}
    (h : openAIToAnthropicRequest input model maxOutputTokens = .ok out) :
    ∃ maxTokens, openAIMaxTokens input model maxOutputTokens = .ok maxTokens ∧
      tokenLimit out = some maxTokens := by
  obtain ⟨maxTokens, hmax, hfield⟩ := maxTokens_openAIToAnthropicRequest h
  refine ⟨maxTokens, hmax, ?_⟩
  rw [tokenLimit, hfield, Int.toString_eq_repr]
  -- of Std, which only Mathlib as a whole imports
  exact Int.toInt?_repr maxTokens

/-- What an OpenAI-format request becomes on its way to a candidate of type anthropic: complete
exactly when it is not a legacy completion, the caller itself sends the version header, and it
states no limit that is not positive. -/
theorem chat_to_anthropic_complete_iff {body : String} {parsed : Obj}
    (h : Reach llmAnswers (handleLLMProxy s cfg c r) tr rest)
    (hsend : pendingSend rest = some (provider, req)) (htype : provider.type = .anthropic)
    (hpath : adapterForPath r.path = some .openai)
    (hbody : r.body = .ok body) (hparsed : unmarshalMap body = some parsed) :
    ∃ credential, tr.head? = some ⟨.credential provider, .ok (some credential)⟩ ∧
      ((∃ model, provider.offers model = true ∧
          CompleteForAnthropic provider parsed model credential req) ↔
        r.path ≠ "/v1/completions" ∧ sendsVersion r.header = true ∧
          ∀ stated, statedMaxTokens parsed = some stated → 0 < stated) := by
  obtain ⟨adapter, parsed', providerName, modelName, primary, modelID, primarySettle, model, built,
    credential, hadapter, hread, hbuilt, rfl, hhead⟩ :=
      (forwards_of_pendingSend h hsend).exists_built
  obtain rfl : parsed' = parsed :=
    Option.some.inj ((unmarshalMap_of_readRequest hread hbody).symm.trans hparsed)
  obtain rfl : adapter = .openai := Option.some.inj (hadapter.symm.trans hpath)
  have hversion := get_version_upstreamRequest r provider built.1 built.2 credential htype
  refine ⟨credential, hhead, ?_⟩
  by_cases hlegacy : r.path = "/v1/completions"
  · -- the legacy completion keeps its path
    have hplain := hbuilt.plain ((crosses_anthropic_of_chat htype).trans (if_pos hlegacy))
    refine iff_of_false ?_ fun hcond => hcond.1 hlegacy
    rintro ⟨model', -, hcomplete⟩
    have hurl := hcomplete.path
    rw [hplain] at hurl
    have hsuffix : r.path = "/v1/messages" := (String.append_right_inj _).mp hurl
    rw [hlegacy] at hsuffix
    exact absurd hsuffix (by decide)
  · obtain ⟨translated, hok, hbody⟩ :=
      hbuilt.crossing _ _ ((crosses_anthropic_of_chat htype).trans (if_neg hlegacy))
    -- the adapter of the Anthropic format fixes nothing
    obtain rfl : built = (translated, "/v1/messages") := by
      rw [hbody, htype]
      rfl
    have htranslated : openAIToAnthropicRequest parsed' model (maxOutputTokensOf provider model) =
        .ok translated := by
      rw [← Fallible.mapError_eq_ok_iff.mp hok]
      refine openAIToAnthropicRequest_congr (fun k hk => ?_) _ _
      simp only [List.mem_cons, List.not_mem_nil, or_false, not_or] at hk
      exact ((member?_fixupRequestBody _ _ hk.2).trans (member?_put_of_ne _ _ (Ne.symm hk.1))).symm
    obtain ⟨maxTokens, hmax, hlimit⟩ := tokenLimit_translated htranslated
    rw [← openAIMaxTokens_pos_iff hmax, ← hversion]
    constructor
    · rintro ⟨model', -, hcomplete⟩
      obtain ⟨maxTokens', hlimit', hpos, -⟩ := hcomplete.limit
      obtain rfl : maxTokens = maxTokens' := Option.some.inj (hlimit.symm.trans hlimit')
      exact ⟨hlegacy, hcomplete.version, hpos⟩
    · rintro ⟨-, hsends, hpos⟩
      refine ⟨model, hbuilt.eligible.offered, rfl, htranslated,
        ⟨maxTokens, hlimit, hpos, openAIMaxTokens_le hmax⟩, ?_, hsends⟩
      rw [lookup_upstreamRequest _ _ _ _ _ htype (by decide), if_pos rfl]

def chatWith (header : Header) (canonical : ∀ name ∈ header.keys, canonicalHeaderKey name = name) :
    LlmRequest where
  method := "POST"
  path := "/v1/chat/completions"
  header := header
  body := .ok "\x7b\"model\":\"openai/m\",\"messages\":[]\x7d"
  canonical := canonical

/-- The chat completion of a caller that knows nothing of Anthropic, and of one that does. -/
def unversionedChat : LlmRequest := chatWith ∅ canonical_empty

def versionedChat : LlmRequest :=
  chatWith (Header.set ∅ "anthropic-version" "2023-06-01") (by decide +kernel)

/-- Its first steps with a provider of type anthropic. -/
def crossingSteps (r : LlmRequest) : LlmTrace × LlmProg Reply :=
  (handleLLMProxy (cappedStore .anthropic) ⟨3, 4096⟩ ⟨"team", none⟩ r).follow promptAnswers 3 []

theorem reach_crossingSteps (r : LlmRequest) :
    Reach llmAnswers (handleLLMProxy (cappedStore .anthropic) ⟨3, 4096⟩ ⟨"team", none⟩ r)
      (crossingSteps r).1 (crossingSteps r).2 :=
  .follow promptAnswers llmAnswers_prompt 3 .start

/-- The gateway adds no version to the request of a caller that sends none. -/
theorem chat_to_anthropic_without_version :
    ∃ tr rest, Reach llmAnswers
        (handleLLMProxy (cappedStore .anthropic) ⟨3, 4096⟩ ⟨"team", none⟩ unversionedChat) tr rest ∧
      ((pendingSend rest).map fun p =>
          (p.1.type, p.2.url, p.2.header.get "anthropic-version")) =
        some (.anthropic, "https://upstream/v1/messages", "") :=
  ⟨_, _, reach_crossingSteps unversionedChat, by decide +kernel⟩

/-- A caller that sends one gets a complete request. -/
theorem chat_to_anthropic_complete_iff_versioned :
    ∃ provider req parsed model credential,
      pendingSend (crossingSteps versionedChat).2 = some (provider, req) ∧
        CompleteForAnthropic provider parsed model credential req := by
  obtain ⟨⟨provider, req⟩, hsend⟩ := Option.isSome_iff_exists.mp
    (show (pendingSend (crossingSteps versionedChat).2).isSome = true by decide +kernel)
  have htype : (pendingSend (crossingSteps versionedChat).2).map (fun p => p.1.type) =
      some .anthropic := by decide +kernel
  rw [hsend] at htype
  obtain ⟨parsed, hparsed⟩ := Option.isSome_iff_exists.mp (show (unmarshalMap
    "\x7b\"model\":\"openai/m\",\"messages\":[]\x7d").isSome = true by decide +kernel)
  have hstated : (unmarshalMap "\x7b\"model\":\"openai/m\",\"messages\":[]\x7d").map
      statedMaxTokens = some none := by decide +kernel
  rw [hparsed] at hstated
  obtain ⟨credential, -, hiff⟩ := chat_to_anthropic_complete_iff (reach_crossingSteps versionedChat)
    hsend (Option.some.inj htype) (by decide +kernel) rfl hparsed
  obtain ⟨model, -, hcomplete⟩ := hiff.mpr ⟨by decide, by decide +kernel, fun stated hsome => by
    rw [Option.some.inj hstated] at hsome
    cases hsome⟩
  exact ⟨provider, req, parsed, model, credential, hsend, hcomplete⟩

end Kaalm.Gateway
