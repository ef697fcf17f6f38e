/-
  Gateway/LlmProxy.lean --- the LLM proxy (`internal/gateway/proxy.go`, with
  `authorizeRoute` and `splitQualifiedModel` of `routing.go`).

  A request is a program over what the handler asks of the rest of the process:
  the budget ledger, the rate limiter, the credential store, the upstream and the
  caller's connection.  Every answer is open.

  The body that goes upstream is kept as the map that is encoded.  The caller's
  deadline, spans, metrics, the body log, the in-memory spend totals, the activity
  record and what `encoding/json` says about an answer that cannot be translated are
  left out.
-/
import Kaalm.Gateway.Fallback
import Kaalm.Translate.ToAnthropicStream
import Kaalm.Translate.ToOpenAIStream

namespace Kaalm.Gateway

open Kaalm.Foundation Kaalm.Foundation.Json Kaalm.Translate Kaalm.Controller

/-! ## Requests -/

/-- The inbound request; `body` is an error when reading it failed.  The server
puts header names in canonical form. -/
structure LlmRequest where
  method : String
  path : String
  header : Header
  body : Except String String
  canonical : ∀ name ∈ header.keys, canonicalHeaderKey name = name

structure UpstreamRequest where
  method : String
  url : String
  header : Header
  body : Obj

/-- What became of it; an endpoint that is no URL fails as a connection does. -/
inductive Upstream where
  | failed (deadlineExceeded : Bool)
  | answered (resp : UpstreamResponse)

structure LlmConfig where
  maxFallbackDepth : Int
  maxBodyBytes : Nat

inductive Reply where
  | error (e : GatewayError)
  | relayed (status : Nat) (header : Header) (body : String)
  /-- the lines were written as they came -/
  | streamed (status : Nat) (header : Header)

/-- What the handler asks of others. -/
inductive LlmOp where
  /-- `Budget.Admit` -/
  | admission (provider : Provider) (ns workload : String)
  /-- a call of the closure it returned -/
  | settle (handle : Settle) (cost : ℚ)
  /-- `Budget.Add` -/
  | add (provider : Provider) (ns workload : String) (cost : ℚ)
  /-- `RateLimiter.Allow` -/
  | allow (provider : Provider) (ns modelID : String)
  /-- `Store.Credential` -/
  | credential (provider : Provider)
  /-- `upstream().Do` and, but for a stream, reading the body -/
  | send (provider : Provider) (req : UpstreamRequest)
  /-- one line to the caller -/
  | write (line : String)
  /-- `time.Now().UnixNano()` -/
  | unixNano

abbrev LlmOp.Ans : LlmOp → Type
  | .admission .. => BudgetDecision × Option Settle
  | .settle .. | .add .. => Unit
  | .allow .. => Bool
  | .credential .. => Option String
  | .send .. => Upstream
  | .write .. => Bool
  | .unixNano => Int

/-- A part of the handler. -/
abbrev LlmProg (α : Type) : Type := Prog LlmOp LlmOp.Ans Stuck α

/-! ## Headers -/

def authMaterialHeaders : List String := ["Authorization", "X-Api-Key", "Api-Key"]

def hopByHopHeaders : List String :=
  ["Connection", "TE", "Upgrade", "Proxy-Authorization", "Keep-Alive", "Trailer",
    "Transfer-Encoding"]

def connectionNames (src : Header) : List String :=
  (((src.get "Connection").toList.splitOn ',').map fun name =>
    Text.trimSpace (String.ofList name)).filter (· ≠ "")

/-- `copyForwardedHeaders` into an empty header. -/
def copyForwardedHeaders (src : Header) : Header :=
  let dst := authMaterialHeaders.foldl Header.del src
  let dst := (connectionNames src).foldl Header.del dst
  let dst := hopByHopHeaders.foldl Header.del dst
  let dst := dst.set "Accept-Encoding" "identity"
  (dst.del "Host").del "Content-Length"

/-- `copyDownstreamHeaders` into an empty header. -/
def copyDownstreamHeaders (src : Header) : Header :=
  src.entries.foldl (fun dst e =>
    if e.1.toLower ∈ ["connection", "transfer-encoding", "keep-alive"] then dst
    else dst.insert e.1 e.2) ∅

def isSSE (resp : UpstreamResponse) : Bool :=
  (Text.cutStart "text/event-stream" (resp.header.get "Content-Type")).isSome

/-! ## One attempt -/

/-- `candidateRequest`: the body and the path for one candidate.  Neither of the
adapters a path can belong to rewrites it. -/
def candidateRequest (w : Walk) (st : WalkState) (cand : Provider) (inboundPath : String) :
    Obj × String :=
  let model := w.candidateModel st cand
  let body := if model ≠ w.modelID then put w.parsed "model" (.str model) else w.parsed
  match w.crosses cand with
  | none => (body, inboundPath)
  | some (_, target) =>
    match st.translated.lookup cand.name with
    | none => (body, inboundPath)
    | some translated =>
      ((adapterForProviderType cand.type).fixupRequestBody translated, canonicalPath target)

/-- The request `forwardOnce` builds. -/
def upstreamRequest (r : LlmRequest) (provider : Provider) (body : Obj) (path credential : String) :
    UpstreamRequest where
  method := r.method
  url := String.ofList (trimEnd provider.endpoint.toList ['/']) ++ path
  header := ((adapterForProviderType provider.type).injectCredential
    (copyForwardedHeaders r.header) credential).set "Content-Type" "application/json"
  body := body

def forwardOutcome (provider : Provider) : Upstream → ForwardResult
  | .failed deadlineExceeded => .failed (if deadlineExceeded then .timeout else .connect)
  | .answered resp =>
    if !isSSE resp && resp.cut then .failed .connect
    else
      { resp := some resp, fallbackable := (isFallbackable resp.status).1,
        failClass := (isFallbackable resp.status).2, chosen := some provider }

def forwardOnce (r : LlmRequest) (provider : Provider) (body : Obj) (path : String) :
    LlmProg ForwardResult := do
  let credential ← Prog.perform (LlmOp.credential provider)
  match credential with
  | none => pure (.failed .connect)
  | some credential => do
    let req := upstreamRequest r provider body path credential
    let outcome ← Prog.perform (LlmOp.send provider req)
    pure (forwardOutcome provider outcome)

/-- The `attempt` closure. -/
def attemptOnce (r : LlmRequest) (w : Walk) (st : WalkState) (cand : Provider) :
    LlmProg (ForwardResult × WalkState) := do
  let built := candidateRequest w st cand r.path
  let fr ← forwardOnce r cand built.1 built.2
  let fr := { fr with model := w.candidateModel st cand, format := formatForType cand.type }
  pure (fr, fr.failClass.elim st st.observe)

/-- What a walk asks, in the handler's operations. -/
def llmCalls (r : LlmRequest) (w : Walk) : WalkCalls LlmOp LlmOp.Ans where
  admission provider := Prog.perform (LlmOp.admission provider w.ns w.workload)
  release handle := Prog.perform (LlmOp.settle handle 0)
  attempt := attemptOnce r w

/-! ## Accounting -/

def settleZero : Option Settle → LlmProg Unit :=
  releaseSlot fun handle => Prog.perform (LlmOp.settle handle 0)

def settleUsage (provider : Provider) (ns workload modelID : String) (usage : Usage)
    (settle : Option Settle) : LlmProg Unit :=
  let cost := costOf provider modelID usage
  match settle with
  | some handle => Prog.perform (LlmOp.settle handle cost)
  | none => Prog.perform (LlmOp.add provider ns workload cost)

/-! ## Streams -/

/-- `Stream`. -/
inductive Translator where
  | toAnthropic (s : ToAnthropicStream)
  | toOpenAI (s : ToOpenAIStream)

namespace Translator

def feed (line : String) : Translator → Translator × List String
  | toAnthropic s => (toAnthropic (s.feed line).1, (s.feed line).2.flatMap AnthropicEvent.sse)
  | toOpenAI s => (toOpenAI (s.feed line).1, (s.feed line).2.flatMap OpenAIPayload.sse)

def finish : Translator → List String
  | toAnthropic s => s.finish_.2.flatMap AnthropicEvent.sse
  | toOpenAI s => s.finish_.2.flatMap OpenAIPayload.sse

end Translator

def newTranslator (source target : Format) (model : String) : LlmProg (Option Translator) :=
  match source, target with
  | .openai, .anthropic => do
    let nano ← Prog.perform LlmOp.unixNano
    pure (some (.toAnthropic (.newStream model ("msg_" ++ toString nano))))
  | .anthropic, .openai => do
    let nano ← Prog.perform LlmOp.unixNano
    let created ← Prog.perform LlmOp.unixNano
    let id := "chatcmpl-" ++ toString nano
    pure (some (.toOpenAI (.newStream model id (created / 1000000000))))
  | _, _ => pure none

/-- The scanner's limit. -/
def maxTokenSize : Nat := 1048576

/-- `bufio.ScanLines` on what a stream delivers: the lines without their ends, up
to one that does not fit the buffer with its newline. -/
def scanLines (body : String) : List String :=
  let pieces := body.toList.splitOn '\n'
  let pieces := if pieces.getLast? = some [] then pieces.dropLast else pieces
  (pieces.takeWhile fun line => (Text.utf8 (String.ofList line)).length < maxTokenSize).map
    fun line => String.ofList (trimEnd line ['\r'])

def foldUsage (adapter : Adapter) (usage : Usage) (line : String) : Usage :=
  match Text.cutStart "data:" line with
  | some data => adapter.accumulateStreamUsage (Text.trimSpace data) usage
  | none => usage

def relayLine (line : String) : Option Translator → Option Translator × List String
  | none => (none, [line])
  | some t => (some (t.feed line).1, (t.feed line).2)

def writeLines : List String → LlmProg Bool
  | [] => pure true
  | line :: rest => do
    let ok ← Prog.perform (LlmOp.write line)
    if ok then writeLines rest else pure false

/-- The loop of `relayStream`: the usage when it ends. -/
def relayLines (adapter : Adapter) : Option Translator → Usage → List String → LlmProg Usage
  | translator, usage, [] => do
    let _ ← writeLines (translator.elim [] Translator.finish)
    pure usage
  | translator, usage, line :: rest => do
    let usage := foldUsage adapter usage line
    let relayed := relayLine line translator
    let ok ← writeLines relayed.2
    if ok then relayLines adapter relayed.1 usage rest else pure usage

/-- The deferred function of `relayStream`. -/
def settleStream (provider : Provider) (ns workload modelID : String) (usage : Usage)
    (settle : Option Settle) : LlmProg Unit :=
  if usage.isZero then settleZero settle
  else settleUsage provider ns workload modelID usage settle

/-- `relayStream`; what its deferred function does comes after the loop, however
it ended. -/
def relayStream (resp : UpstreamResponse) (adapter : Adapter) (translator : Option Translator)
    (ns workload : String) (provider : Provider) (modelID : String) (settle : Option Settle) :
    LlmProg Reply := do
  let usage ← relayLines adapter translator {} (scanLines resp.body)
  settleStream provider ns workload modelID usage settle
  pure (.streamed resp.status (copyDownstreamHeaders resp.header))

/-! ## The answer -/

/-- `crossing`: from the format of the candidate to the caller's. -/
def crossingBack (format inboundFormat : Option Format) : Option (Format × Format) :=
  match format, inboundFormat with
  | some served, some inbound => if served = inbound then none else some (served, inbound)
  | _, _ => none

/-- An error that is passed back, in the caller's envelope; `forwardOnce` has not read
the body of an event stream. -/
def relayError (resp : UpstreamResponse) (crossing : Option (Format × Format)) : Reply :=
  let header := copyDownstreamHeaders resp.header
  let body := if isSSE resp then "" else resp.body
  match crossing with
  | none => .relayed resp.status header body
  | some (served, inbound) =>
    .relayed resp.status (header.del "Content-Length") (Translate.error served inbound body)

def translatorFor (crossing : Option (Format × Format)) (modelID : String) :
    LlmProg (Option Translator) :=
  match crossing with
  | none => pure none
  | some (served, inbound) => newTranslator served inbound modelID

def settleBuffered (provider : Provider) (ns workload modelID body : String)
    (settle : Option Settle) : LlmProg Unit :=
  match (adapterForProviderType provider.type).extractUsage body with
  | some usage => settleUsage provider ns workload modelID usage settle
  | none => settleZero settle

def relayBuffered (resp : UpstreamResponse) (provider : Provider)
    (crossing : Option (Format × Format)) : LlmProg Reply :=
  let header := copyDownstreamHeaders resp.header
  match crossing with
  | none => pure (.relayed resp.status header resp.body)
  | some (served, inbound) => do
    let nano ← Prog.perform LlmOp.unixNano
    match response served inbound (nano / 1000000000) resp.body with
    | some translated => pure (.relayed resp.status (header.del "Content-Length") translated)
    | none =>
      pure (.error ⟨502, ⟨.providerError,
        "the fallback provider's response could not be translated: ", provider.name,
        false⟩, 0⟩)

/-- `writeWalkResult` of a candidate's answer. -/
def writeAnswer (res : ForwardResult) (resp : UpstreamResponse) (provider : Provider)
    (inboundFormat : Option Format) (ns workload modelID : String) : LlmProg Reply :=
  let crossing := crossingBack res.format inboundFormat
  if !isSuccess resp.status then do
    settleZero res.settle
    pure (relayError resp crossing)
  else if isSSE resp then do
    let translator ← translatorFor crossing modelID
    relayStream resp (adapterForProviderType provider.type) translator ns workload provider modelID
      res.settle
  else do
    settleBuffered provider ns workload modelID resp.body res.settle
    relayBuffered resp provider crossing

def writeWalkResult (res : ForwardResult) (w : Walk) : LlmProg Reply :=
  match res.resp, res.chosen with
  | some resp, some provider =>
    writeAnswer res resp provider w.inboundFormat w.ns w.workload
      (if res.model = "" then w.modelID else res.model)
  | _, _ => .fail .nilResponse

/-! ## The route -/

def splitQualifiedModel (qualified : String) : Option (String × String) :=
  (Text.cut '/' qualified).filter fun parts => parts.1 ≠ "" ∧ parts.2 ≠ ""

/-- The workload gates of `authorizeRoute`. -/
def authorizeWorkload (s : Store) (c : Caller) (providerName : String) : Except RouteDenial Unit :=
  match c.workload with
  | none => .ok ()
  | some workload =>
    match s.workload workload.kind c.ns workload.name with
    | none => .error ⟨403, .accessDenied, kindName workload.kind ++ " " ++ quoted workload.name ++
        " not found in namespace " ++ quoted c.ns⟩
    | some spec =>
      if providerName ∉ spec.providers then
        .error ⟨403, .accessDenied,
          "provider " ++ quoted providerName ++ " is not in the workload's spec.providers"⟩
      else
        match s.class_ spec.agentClassRef with
        | none => .error ⟨403, .accessDenied,
            "AgentClass " ++ quoted spec.agentClassRef ++ " not found"⟩
        | some cls =>
          if providerName ∈ cls.allowedProviders then .ok ()
          else .error ⟨403, .accessDenied, "provider " ++ quoted providerName ++
            " is not in AgentClass " ++ quoted spec.agentClassRef ++ " allowedProviders"⟩

def authorizeRoute (s : Store) (c : Caller) (providerName modelID : String) :
    Except RouteDenial Provider := do
  authorizeWorkload s c providerName
  match s.providerByName providerName with
  | none => throw ⟨400, .invalidRequest, "unknown provider " ++ quoted providerName⟩
  | some provider =>
    if !namespaceGlobAllowed c.ns provider.allowedNamespaces then
      throw ⟨403, .accessDenied, "namespace " ++ quoted c.ns ++
        " is not allowed to use provider " ++ quoted providerName⟩
    else if provider.offers modelID then pure provider
    else throw ⟨400, .invalidRequest, "model " ++ quoted modelID ++
      " is not offered by provider " ++ quoted providerName⟩

def workloadKey (c : Caller) : String :=
  match c.workload with
  | none => "(unattributed)"
  | some workload =>
    match workload.kind with
    | .agentTask => "task/" ++ workload.name
    | .agent => "agent/" ++ workload.name

/-! ## The handler -/

def badRequest (message : String) : GatewayError := ⟨400, ⟨.invalidRequest, message, "", false⟩, 0⟩

def readRequest (cfg : LlmConfig) (r : LlmRequest) : Except GatewayError (Obj × String × String) :=
  match r.body with
  | .error e => .error (badRequest ("reading request body: " ++ e))
  | .ok body =>
    if cfg.maxBodyBytes < body.utf8ByteSize then
      .error ⟨413, ⟨.requestTooLarge,
        "request body exceeds " ++ toString cfg.maxBodyBytes ++ " bytes", "", false⟩, 0⟩
    else
      match unmarshalMap body with
      | none => .error (badRequest "request body is not valid JSON")
      | some parsed =>
        match splitQualifiedModel ((field parsed "model").string?.getD "") with
        | none => .error (badRequest
            "model must be a qualified \"\x7bproviderRef\x7d/\x7bmodelId\x7d\" name")
        | some (providerName, modelID) => .ok (parsed, providerName, modelID)

/-- `applyBudgetDecision`: the answer to a refused request, or the model to serve. -/
def applyBudgetDecision (decision : BudgetDecision) (providerName ns modelID : String) :
    Except GatewayError String :=
  if decision.unavailable then
    .error ⟨503, ⟨.budgetUnavailable, "budget state for provider " ++ providerName ++
        " cannot be verified inside the boundary region; failing closed", providerName, true⟩, 1⟩
  else if decision.throttled then
    .error ⟨429, ⟨.budgetThrottled, "boundary admission for namespace " ++ ns ++ " on provider " ++
      providerName ++ " is busy; retry shortly", providerName, true⟩, 1⟩
  else
    match decision.action with
    | some .block =>
      let ceiling := if decision.ceiling = .cluster then "cluster budget exhausted"
        else "namespace budget exhausted: " ++ ns
      .error ⟨429, ⟨.budgetExhausted, ceiling ++ " on provider " ++ providerName ++ " (" ++
          toString decision.percent ++ "% used)", providerName, true⟩, decision.retryAfter⟩
    | some .degrade => .ok (if decision.degradeTo = "" then modelID else decision.degradeTo)
    | _ => .ok modelID

/-- The format of the request, none for the legacy completions, which never cross. -/
def inboundFormatOf (path : String) (adapter : Adapter) : Option Format :=
  if path = "/v1/completions" then none else formatForType adapter.formatName

def walkOf (cfg : LlmConfig) (c : Caller) (r : LlmRequest) (adapter : Adapter) (parsed : Obj)
    (provider : Provider) (modelID : String) (primarySettle : Option Settle) : Walk where
  primary := provider
  ns := c.ns
  workload := workloadKey c
  modelID := modelID
  maxDepth := cfg.maxFallbackDepth
  primarySettle := primarySettle
  parsed := adapter.fixupRequestBody (put parsed "model" (.str modelID))
  inboundFormat := inboundFormatOf r.path adapter

def forwardAdmitted (s : Store) (r : LlmRequest) (w : Walk) : LlmProg Reply := do
  let walked ← tryWithFallbacks (llmCalls r w) s w (s.providers.length + 2) w.primary w.start
  match walked with
  | (none, st) => pure (.error (exhaustionError st.observed st.maxRetryAfter w.primary.name))
  | (some res, _) => writeWalkResult res w

/-- The handler between the admission of the primary and its deferred settle. -/
def proxyAdmitted (s : Store) (cfg : LlmConfig) (c : Caller) (r : LlmRequest) (adapter : Adapter)
    (parsed : Obj) (provider : Provider) (modelID : String) (decision : BudgetDecision)
    (primarySettle : Option Settle) : LlmProg Reply :=
  match applyBudgetDecision decision provider.name c.ns modelID with
  | .error e => pure (.error e)
  | .ok modelID => do
    let ok ← Prog.perform (LlmOp.allow provider c.ns modelID)
    if ok then
      forwardAdmitted s r (walkOf cfg c r adapter parsed provider modelID primarySettle)
    else
      pure (.error ⟨429, ⟨.rateLimited, "rate limit exceeded for namespace " ++ c.ns ++
        " on model " ++ modelID, provider.name, true⟩, 1⟩)

/-- The handler once the route is authorized; the deferred settle of the primary
comes last on every path. -/
def proxyRoute (s : Store) (cfg : LlmConfig) (c : Caller) (r : LlmRequest) (adapter : Adapter)
    (parsed : Obj) (provider : Provider) (modelID : String) : LlmProg Reply := do
  let (decision, primarySettle) ←
    Prog.perform (LlmOp.admission provider c.ns (workloadKey c))
  let reply ← proxyAdmitted s cfg c r adapter parsed provider modelID decision primarySettle
  settleZero primarySettle
  pure reply

def handleLLMProxy (s : Store) (cfg : LlmConfig) (c : Caller) (r : LlmRequest) : LlmProg Reply :=
  match adapterForPath r.path with
  | none => pure (.error (badRequest ("unrecognized LLM path " ++ r.path)))
  | some adapter =>
    match readRequest cfg r with
    | .error e => pure (.error e)
    | .ok (parsed, providerName, modelID) =>
      match authorizeRoute s c providerName modelID with
      | .error denial => pure (.error ⟨denial.status,
          ⟨denial.errType, denial.message, providerName, false⟩, 0⟩)
      | .ok provider => proxyRoute s cfg c r adapter parsed provider modelID

end Kaalm.Gateway
