/-
  Gateway/McpBroker.lean --- the request half of the MCP broker
  (`internal/gateway/mcpbroker.go`).

  WHAT IS MODELLED.  `handleMCPBroker` from the inbound request to the request it
  sends upstream: the tenancy chain, the method allowlist, the mirrored headers of
  the modern revision, the tool filter.  The answers of the rate limiter, of the
  session check and of the credential store are inputs.

  TWO READERS OF ONE BODY.  In the broker's struct a member finds its field in any
  letter case and the last one wins.  A tool server reads member names as they are
  spelled, and of several spelled alike it may take any.  `governs_iff_sameReading`
  says when every such server reads the call that the broker read.
-/
import Kaalm.Foundation.Base64
import Kaalm.Foundation.Header
import Kaalm.Foundation.Json
import Kaalm.Gateway.Store

namespace Kaalm.Gateway

open Kaalm.Foundation Kaalm.Controller

/-! ## The message -/

structure McpRequest where
  jsonrpc : String := ""
  id : Option Json := none
  method : String := ""
  params : Option Json := none

/-- The field names of `mcpRequest`. -/
def mcpFields : List String := ["jsonrpc", "id", "method", "params"]

/-- A string field: null leaves it as it is, another value is a type error. -/
def stringField (old : String) : Json → Option String
  | .str s => some s
  | .null => some old
  | _ => none

def McpRequest.decodeMember (msg : McpRequest) (name : String) (v : Json) : Option McpRequest :=
  match Json.fieldOf mcpFields name with
  | none => some msg
  | some field =>
    if field = "jsonrpc" then (stringField msg.jsonrpc v).map fun s => { msg with jsonrpc := s }
    else if field = "id" then some { msg with id := some v }
    else if field = "method" then (stringField msg.method v).map fun s => { msg with method := s }
    else some { msg with params := some v }

def McpRequest.decodeMembers (msg : McpRequest) : List (String × Json) → Option McpRequest
  | [] => some msg
  | (name, v) :: rest => (msg.decodeMember name v).bind fun msg => msg.decodeMembers rest

/-- `json.Unmarshal(body, &msg)`. -/
def decodeMcpRequest : Json → Option McpRequest
  | .obj members => McpRequest.decodeMembers {} members
  | .null => some {}
  | _ => none

def methodToolsCall : String := "tools/call"

/-- The name in `params`, with type errors ignored. -/
def decodeName (name : String) : List (String × Json) → String
  | [] => name
  | (k, v) :: rest =>
    decodeName (if Json.fieldOf ["name"] k = some "name" then v.string?.getD name else name) rest

def governedToolName (msg : McpRequest) : String :=
  if msg.method ≠ methodToolsCall then ""
  else ((msg.params.bind Json.members?).map (decodeName "")).getD ""

def isJSONBatch (body : String) : Bool := (Json.skipSpace body.toList).head? = some '['

/-- `strings.HasPrefix`. -/
def startsWith (s start : String) : Bool := start.toList.isPrefixOf s.toList

/-- `strings.TrimPrefix`. -/
def trimStart (s start : String) : String :=
  if startsWith s start then String.ofList (s.toList.drop start.toList.length) else s

def mcpAllowedMethod (method : String) : Bool :=
  ["server/discover", "tools/list", methodToolsCall, "initialize", "ping"].contains method ||
    startsWith method "notifications/"

/-! ## The mirrored headers -/

def modernRevision : String := "2026-07-28"

def isModern (revision : String) : Bool := !decide (revision < modernRevision)

def decodeMCPHeaderValue (v : String) : String :=
  let cs := v.toList
  let start := "=?base64?".toList
  let stop := "?=".toList
  if start.isPrefixOf cs && stop.isSuffixOf cs &&
    decide (start.length + stop.length < cs.length) then
    let inner := (cs.drop start.length).take (cs.length - start.length - stop.length)
    (Base64.decodeText (String.ofList inner)).getD v
  else v

def modernHeaderRejection (modern : Bool) (header : Header) (msg : McpRequest) (toolName : String) :
    String :=
  let m := header.get "Mcp-Method"
  let n := decodeMCPHeaderValue (header.get "Mcp-Name")
  if !modern then ""
  else if m = "" then "Mcp-Method header is required on this protocol revision"
  else if m ≠ msg.method then
    "Mcp-Method header " ++ quoted m ++ " does not match body method " ++ quoted msg.method
  else if msg.method ≠ methodToolsCall then ""
  else if n = "" then "Mcp-Name header is required on tools/call"
  else if n ≠ toolName then
    "Mcp-Name header " ++ quoted n ++ " does not match body tool " ++ quoted toolName
  else ""

/-! ## The tool filter -/

/-- `toolFilter`: none permits every tool. -/
structure ToolFilter where
  allow : Option (List String)
  deriving DecidableEq, Repr

def ToolFilter.permits (f : ToolFilter) (name : String) : Bool := f.allow.all (·.contains name)

def newToolFilter (grantTools catalog : List String) : ToolFilter :=
  if grantTools = [] ∧ catalog = [] then ⟨none⟩
  else if grantTools = [] then ⟨some catalog⟩
  else ⟨some (grantTools.filter fun t => catalog = [] ∨ t ∈ catalog)⟩

theorem newToolFilter_permits_iff {grantTools catalog : List String} {t : String} :
    (newToolFilter grantTools catalog).permits t = true ↔
      (grantTools = [] ∨ t ∈ grantTools) ∧ (catalog = [] ∨ t ∈ catalog) := by
  rw [newToolFilter, ToolFilter.permits]
  by_cases hg : grantTools = [] <;> by_cases hc : catalog = [] <;> simp [hg, hc]

def authorizeToolRoute (s : Store) (c : Caller) (tp : ToolProvider) :
    Except RouteDenial ToolFilter :=
  if !namespaceGlobAllowed c.ns tp.allowedNamespaces then
    .error ⟨403, .accessDenied, "namespace " ++ quoted c.ns ++
      " is not allowed to use tool provider " ++
      quoted tp.name⟩
  else
    match c.workload with
    | none => .ok (newToolFilter [] tp.tools)
    | some w =>
      match s.workload w.kind c.ns w.name with
      | none => .error ⟨403, .accessDenied, "workload not found"⟩
      | some spec =>
        match spec.tools.find? fun g => g.providerRef = tp.name with
        | none => .error ⟨403, .accessDenied,
            "workload has no tool grant for provider " ++ quoted tp.name⟩
        | some grant =>
          match s.class_ spec.agentClassRef with
          | none => .error ⟨403, .accessDenied,
              "AgentClass " ++ quoted spec.agentClassRef ++ " not found"⟩
          | some cls =>
            if tp.name ∈ cls.allowedToolProviders then .ok (newToolFilter grant.tools tp.tools)
            else .error ⟨403, .accessDenied, "tool provider " ++ quoted tp.name ++
              " is not in AgentClass " ++ quoted spec.agentClassRef ++ " allowedToolProviders"⟩

/-! ## The broker -/

/-- The inbound request; `body` is an error when reading it failed. -/
structure McpCall where
  httpMethod : String
  path : String
  header : Header
  body : Except String String

/-- What the broker asks others: the rate limiter, the session check and the
credential store (an unauthenticated server has the empty credential). -/
structure McpAnswers where
  allowTool : Bool
  unwrapSessionID : String → Option String
  credential : Option String

/-- The request that goes upstream, with what the broker checked about it.  `copyMCPHeaders` puts
the session into `Mcp-Session-Id` and the credential into `Authorization`; its other headers are
not modelled. -/
structure McpForward where
  tp : ToolProvider
  body : String
  upstreamSession : String
  credential : String
  msg : McpRequest
  toolName : String
  filter : ToolFilter

/-- How the request half ends. -/
inductive McpOutcome where
  | denied (denial : RouteDenial) (retryAfter : Nat)
  /-- the revision's own error, with the id of the request -/
  | headerMismatch (id : Option Json) (message : String)
  | forwarded (up : McpForward)

/-- `mcpMaxBodyBytes` bounds what is read of a body. -/
def readBody (call : McpCall) (maxBodyBytes : Nat) : Except RouteDenial String :=
  match call.body with
  | .error e => .error ⟨400, .invalidRequest, "reading request body: " ++ e⟩
  | .ok body =>
    if maxBodyBytes < body.utf8ByteSize then
      .error ⟨413, .requestTooLarge,
        "request body exceeds " ++ toString maxBodyBytes ++ " bytes"⟩
    else .ok body

def readMessage (body : String) : Except RouteDenial McpRequest :=
  if isJSONBatch body then
    .error ⟨400, .invalidRequest, "JSON-RPC batch requests are not supported"⟩
  else
    match (Json.parse body).bind decodeMcpRequest with
    | none => .error ⟨400, .invalidRequest, "request body is not a JSON-RPC message"⟩
    | some msg =>
      if mcpAllowedMethod msg.method then .ok msg
      else .error ⟨403, .toolDenied, "method " ++ quoted msg.method ++
        " is not brokered in this version; the tool plane governs the tool surface"⟩

/-- The session id to send on; none when it is not this caller's. -/
def upstreamSession (call : McpCall) (answers : McpAnswers) : Option String :=
  let wrapped := call.header.get "Mcp-Session-Id"
  if wrapped ≠ "" ∧ !isModern (call.header.get "MCP-Protocol-Version") then
    answers.unwrapSessionID wrapped
  else some ""

/-- The checks on a message and the request they let through. -/
def governMessage (call : McpCall) (answers : McpAnswers) (tp : ToolProvider) (filter : ToolFilter)
    (body : String) (msg : McpRequest) : McpOutcome :=
  let toolName := governedToolName msg
  let reject := modernHeaderRejection (isModern (call.header.get "MCP-Protocol-Version"))
    call.header msg toolName
  if reject ≠ "" then .headerMismatch msg.id reject
  else if msg.method = methodToolsCall ∧ !filter.permits toolName then
    .denied ⟨403, .toolDenied, "tool " ++ quoted toolName ++ " is not granted to this workload"⟩ 0
  else
    match upstreamSession call answers with
    | none => .denied ⟨403, .accessDenied, "session id is not owned by this caller"⟩ 0
    | some session =>
      match answers.credential with
      | none => .denied ⟨503, .toolUnavailable, "tool provider credential is unavailable"⟩ 0
      | some credential => .forwarded ⟨tp, body, session, credential, msg, toolName, filter⟩

/-- `handleMCPBroker` up to the upstream call. -/
def handleMCPBroker (s : Store) (maxBodyBytes : Nat) (c : Caller) (call : McpCall)
    (answers : McpAnswers) : McpOutcome :=
  let providerName := trimStart call.path "/v1/mcp/"
  if call.httpMethod ≠ "POST" then
    .denied ⟨405, .invalidRequest, "MCP broker accepts POST only"⟩ 0
  else if providerName = "" ∨ '/' ∈ providerName.toList then
    .denied ⟨400, .invalidRequest, "path must be /v1/mcp/\x7btoolProvider\x7d"⟩ 0
  else
    match s.toolProviderByName providerName with
    | none => .denied ⟨400, .invalidRequest, "unknown tool provider " ++ quoted providerName⟩ 0
    | some tp =>
      match authorizeToolRoute s c tp with
      | .error denial => .denied denial 0
      | .ok filter =>
        if !answers.allowTool then
          .denied ⟨429, .rateLimited, "rate limit exceeded for namespace " ++ c.ns ++
            " on tool provider " ++ tp.name⟩ 1
        else
          match readBody call maxBodyBytes with
          | .error denial => .denied denial 0
          | .ok body =>
            match readMessage body with
            | .error denial => .denied denial 0
            | .ok msg => governMessage call answers tp filter body msg

/-! ## What the broker reads -/

/-- The last member under a name in any letter case. -/
def anyCase? (name : String) : List (String × Json) → Option Json
  | [] => none
  | (k, v) :: rest =>
    (anyCase? name rest).or (if Json.foldName k = Json.foldName name then some v else none)

def anyCaseString? (name : String) : List (String × Json) → Option String
  | [] => none
  | (k, v) :: rest =>
    (anyCaseString? name rest).or
      (if Json.foldName k = Json.foldName name then v.string? else none)

variable {msg : McpRequest}

theorem decodeMember_eq_some {msg' : McpRequest} {k : String} {v : Json}
    (h : msg.decodeMember k v = some msg') :
    msg'.method = (if Json.foldName k = Json.foldName "method" then v.string?.getD msg.method
        else msg.method) ∧
      msg'.params = (if Json.foldName k = Json.foldName "params" then some v else msg.params) := by
  have hselect : ∀ f ∈ mcpFields, Json.foldName k = Json.foldName f ↔
      Json.fieldOf mcpFields k = some f := fun f hf =>
    (Json.fieldOf_eq_some_iff (by decide) hf).symm
  rw [McpRequest.decodeMember] at h
  simp only [hselect "method" (by decide), hselect "params" (by decide)]
  cases hfield : Json.fieldOf mcpFields k with
  | none =>
    rw [hfield] at h
    cases h
    exact ⟨rfl, rfl⟩
  | some f =>
    simp only [hfield, Option.some.injEq] at h ⊢
    split_ifs at h with hjsonrpc hid hmethod
    · obtain ⟨s, -, rfl⟩ := Option.map_eq_some_iff.mp h
      subst hjsonrpc
      exact ⟨rfl, rfl⟩
    · cases h
      subst hid
      exact ⟨rfl, rfl⟩
    · obtain ⟨s, hs, rfl⟩ := Option.map_eq_some_iff.mp h
      subst hmethod
      refine ⟨?_, rfl⟩
      cases v <;> cases hs <;> rfl
    · cases h
      have hparams : f = "params" := by
        have hmem := Json.mem_of_fieldOf hfield
        simp only [mcpFields, List.mem_cons, List.not_mem_nil, or_false] at hmem
        tauto
      subst hparams
      exact ⟨rfl, rfl⟩

/-- The method and the parameters the broker reads are the last of their name in
any letter case. -/
theorem decodeMembers_eq_some {ms : List (String × Json)} :
    ∀ {msg msg' : McpRequest}, msg.decodeMembers ms = some msg' →
      msg'.method = (anyCaseString? "method" ms).getD msg.method ∧
        msg'.params = (anyCase? "params" ms).or msg.params := by
  induction ms with
  | nil =>
    intro msg msg' h
    cases h
    exact ⟨rfl, rfl⟩
  | cons m rest ih =>
    intro msg msg' h
    obtain ⟨mid, hmid, hrest⟩ := Option.bind_eq_some_iff.mp h
    obtain ⟨hmethod, hparams⟩ := decodeMember_eq_some hmid
    obtain ⟨ihmethod, ihparams⟩ := ih hrest
    rw [ihmethod, ihparams, hmethod, hparams]
    constructor
    · simp only [anyCaseString?]
      cases anyCaseString? "method" rest with
      | some s => rfl
      | none => split_ifs <;> rfl
    · simp only [anyCase?]
      cases anyCase? "params" rest with
      | some p => rfl
      | none => split_ifs <;> rfl

theorem decodeName_eq (ms : List (String × Json)) :
    ∀ name, decodeName name ms = (anyCaseString? "name" ms).getD name := by
  have hselect : ∀ k, Json.fieldOf ["name"] k = some "name" ↔
      Json.foldName k = Json.foldName "name" := fun k =>
    Json.fieldOf_eq_some_iff (by decide) (by decide)
  induction ms with
  | nil => intro name; rfl
  | cons m rest ih =>
    intro name
    obtain ⟨k, v⟩ := m
    simp only [decodeName, anyCaseString?, hselect, ih]
    cases anyCaseString? "name" rest with
    | some s => rfl
    | none => split_ifs <;> rfl

/-! ## What a tool server reads -/

/-- A reader that takes member names as they are spelled; of several members of one name it may
take any. -/
structure ExactReader where
  read : String → List (String × Json) → Option Json
  mem : ∀ {name ms v}, read name ms = some v → (name, v) ∈ ms
  found : ∀ {name ms v}, (name, v) ∈ ms → (read name ms).isSome

namespace ExactReader

def string? (r : ExactReader) (name : String) (ms : List (String × Json)) : Option String :=
  (r.read name ms).bind Json.string?

def tool? (r : ExactReader) (ms : List (String × Json)) : Option String :=
  ((r.read "params" ms).bind Json.members?).bind (r.string? "name")

def last : ExactReader where
  read := Json.member?
  mem {name ms v} h := by
    induction ms with
    | nil => cases h
    | cons m rest ih =>
      rcases Option.or_eq_some_iff.mp h with hrest | ⟨-, hhere⟩
      · exact List.mem_cons_of_mem _ (ih hrest)
      · split_ifs at hhere with hname
        cases hhere
        rw [← hname]
        exact List.mem_cons_self
  found {name ms v} h := by
    induction ms with
    | nil => cases h
    | cons m rest ih =>
      rw [Json.member?, Option.isSome_or, Bool.or_eq_true]
      rcases List.mem_cons.mp h with rfl | hrest
      · exact .inr (by simp)
      · exact .inl (ih hrest)

variable (r : ExactReader) {name : String} {ms : List (String × Json)} {v : Json}

open Classical in
/-- The reader that takes this member. -/
noncomputable def taking (h : (name, v) ∈ ms) : ExactReader where
  read n l := if n = name ∧ l = ms then some v else r.read n l
  mem {n l w} hread := by
    split_ifs at hread with hthis
    · cases hread
      rwa [hthis.1, hthis.2]
    · exact r.mem hread
  found {n l w} hmem := by
    split_ifs
    · rfl
    · exact r.found hmem

theorem taking_self (h : (name, v) ∈ ms) : (r.taking h).read name ms = some v :=
  if_pos ⟨rfl, rfl⟩

theorem taking_of_ne (h : (name, v) ∈ ms) {n : String} (hne : n ≠ name)
    (l : List (String × Json)) : (r.taking h).read n l = r.read n l :=
  if_neg fun hthis => hne hthis.1

end ExactReader

def anyCaseTool? (ms : List (String × Json)) : Option String :=
  ((anyCase? "params" ms).bind Json.members?).bind (anyCaseString? "name")

/-- Whichever exact reader the server is, the call that it executes is the call the broker
checked. -/
def Governs (up : McpForward) (ms : List (String × Json)) : Prop :=
  ∀ (server : ExactReader) m, server.string? "method" ms = some m →
    m = up.msg.method ∧ (m = methodToolsCall → ∀ t, server.tool? ms = some t → t = up.toolName)

/-- Every member that is spelled exactly says what the last in any letter case says: the method,
and for a call the tool. -/
structure SameReading (ms : List (String × Json)) : Prop where
  method : ∀ m, ("method", .str m) ∈ ms → anyCaseString? "method" ms = some m
  tool : ("method", .str methodToolsCall) ∈ ms → ∀ ps, ("params", .obj ps) ∈ ms →
    ∀ t, ("name", .str t) ∈ ps → (anyCaseTool? ms).getD "" = t

theorem ExactReader.mem_of_string? {server : ExactReader} {name m : String}
    {ms : List (String × Json)} (h : server.string? name ms = some m) : (name, .str m) ∈ ms := by
  obtain ⟨v, hv, hm⟩ := Option.bind_eq_some_iff.mp h
  cases v <;> cases hm
  exact server.mem hv

variable {up : McpForward}

theorem governMessage_forwarded {call : McpCall} {answers : McpAnswers} {tp : ToolProvider}
    {filter : ToolFilter} {body : String}
    (h : governMessage call answers tp filter body msg = .forwarded up) :
    up.body = body ∧ up.msg = msg ∧ up.toolName = governedToolName msg ∧
      (msg.method = methodToolsCall → up.filter.permits (governedToolName msg) = true) := by
  unfold governMessage at h
  dsimp only at h
  split_ifs at h with hreject hdenied
  split at h
  · cases h
  · split at h
    · cases h
    · cases h
      refine ⟨rfl, rfl, rfl, fun hm => ?_⟩
      by_contra hno
      exact hdenied ⟨hm, by simpa using hno⟩

theorem readMessage_ok {body : String} (h : readMessage body = .ok msg) :
    ∃ ms, Json.parse body = some (.obj ms) ∧ McpRequest.decodeMembers {} ms = some msg ∧
      mcpAllowedMethod msg.method = true := by
  unfold readMessage at h
  split_ifs at h
  split at h
  · cases h
  · rename_i hmsg
    split_ifs at h with hallowed
    cases h
    obtain ⟨j, hj, hdecode⟩ := Option.bind_eq_some_iff.mp hmsg
    cases j with
    | obj ms => exact ⟨ms, hj, hdecode, hallowed⟩
    | null =>
      cases hdecode
      exact absurd hallowed (by decide)
    | bool | num | str | arr => cases hdecode

theorem handleMCPBroker_forwarded {s : Store} {maxBodyBytes : Nat} {c : Caller} {call : McpCall}
    {answers : McpAnswers} (h : handleMCPBroker s maxBodyBytes c call answers = .forwarded up) :
    ∃ tp filter body msg, call.body = .ok body ∧ readMessage body = .ok msg ∧
      governMessage call answers tp filter body msg = .forwarded up := by
  unfold handleMCPBroker at h
  dsimp only at h
  split at h
  · cases h
  split at h
  · cases h
  split at h
  · cases h
  rename_i tp _
  split at h
  · cases h
  rename_i filter _
  split at h
  · cases h
  split at h
  · cases h
  rename_i body hbody
  split at h
  · cases h
  rename_i msg hmsg
  refine ⟨tp, filter, body, msg, ?_, hmsg, h⟩
  unfold readBody at hbody
  split at hbody
  · cases hbody
  · rename_i text htext
    split_ifs at hbody
    cases hbody
    exact htext

/-- Governance: for every request the broker forwards, the body goes on unchanged,
what the broker checked is allowed and granted, and the server executes what was
checked exactly if the exact names and the names in any letter case say the same. -/
theorem governs_iff_sameReading (s : Store) (maxBodyBytes : Nat) (c : Caller) (call : McpCall)
    (answers : McpAnswers) (up : McpForward)
    (h : handleMCPBroker s maxBodyBytes c call answers = .forwarded up) :
    call.body = .ok up.body ∧ mcpAllowedMethod up.msg.method = true ∧
      (up.msg.method = methodToolsCall → up.filter.permits up.toolName = true) ∧
      ∃ ms, Json.parse up.body = some (.obj ms) ∧ (Governs up ms ↔ SameReading ms) := by
  obtain ⟨tp, filter, body, msg, hbody, hmsg, hgovern⟩ := handleMCPBroker_forwarded h
  obtain ⟨ms, hparse, hdecode, hallowed⟩ := readMessage_ok hmsg
  obtain ⟨rfl, rfl, htool, hpermits⟩ := governMessage_forwarded hgovern
  obtain ⟨hmethod, hparams⟩ := decodeMembers_eq_some hdecode
  rw [Option.or_none] at hparams
  refine ⟨hbody, hallowed, fun hm => htool ▸ hpermits hm, ms, hparse, ?_⟩
  -- an allowed method is not empty, so the broker found one
  have hread : anyCaseString? "method" ms = some up.msg.method := by
    cases hcase : anyCaseString? "method" ms with
    | some m => rw [hmethod, hcase]; rfl
    | none =>
      rw [hmethod, hcase] at hallowed
      exact absurd hallowed (by decide)
  have hname : up.msg.method = methodToolsCall → up.toolName = (anyCaseTool? ms).getD "" := by
    intro hm
    rw [htool, governedToolName, if_neg (not_not.mpr hm), hparams, anyCaseTool?]
    cases (anyCase? "params" ms).bind Json.members? with
    | none => rfl
    | some ps => exact decodeName_eq ps ""
  constructor
  · intro hgov
    refine ⟨fun m hm => ?_, fun hcall ps hps t ht => ?_⟩
    · have hstring : (ExactReader.last.taking hm).string? "method" ms = some m := by
        rw [ExactReader.string?, ExactReader.taking_self]
        rfl
      rw [hread, (hgov _ m hstring).1]
    · -- the server that takes these three members
      let server := ((ExactReader.last.taking hcall).taking hps).taking ht
      have hstring : server.string? "method" ms = some methodToolsCall := by
        rw [ExactReader.string?, ExactReader.taking_of_ne _ _ (by decide),
          ExactReader.taking_of_ne _ _ (by decide), ExactReader.taking_self]
        rfl
      have hname' : server.tool? ms = some t := by
        rw [ExactReader.tool?, ExactReader.taking_of_ne _ _ (by decide), ExactReader.taking_self]
        show server.string? "name" ps = some t
        rw [ExactReader.string?, ExactReader.taking_self]
        rfl
      obtain ⟨hsame, hcallee⟩ := hgov server _ hstring
      rw [hcallee rfl t hname', hname hsame.symm]
  · intro hsame server m hm
    have hmember := ExactReader.mem_of_string? hm
    have hchecked : m = up.msg.method :=
      Option.some.inj ((hsame.method m hmember).symm.trans hread)
    refine ⟨hchecked, fun hcall t ht => ?_⟩
    obtain ⟨ps, hps, hstring⟩ := Option.bind_eq_some_iff.mp ht
    obtain ⟨j, hj, hobj⟩ := Option.bind_eq_some_iff.mp hps
    rw [hname (hchecked ▸ hcall)]
    exact (hsame.tool (hcall ▸ hmember) ps (Json.eq_obj hobj ▸ server.mem hj) t
      (ExactReader.mem_of_string? hstring)).symm

def McpOutcome.forward? : McpOutcome → Option McpForward
  | .forwarded up => some up
  | .denied _ _ | .headerMismatch _ _ => none

theorem McpOutcome.eq_forwarded {o : McpOutcome} (h : o.forward? = some up) :
    o = .forwarded up := by
  cases o <;> cases h
  rfl

def gitStore : Store where
  providers := []
  toolProviders := [⟨"git", "https://git.test/mcp", ["team"], ["read"]⟩]
  workload _ _ _ := none
  class_ _ := none

/-- A call of a namespace-wide caller with a body. -/
def gitOutcome (body : String) : McpOutcome :=
  handleMCPBroker gitStore 65536 ⟨"team", none⟩ ⟨"POST", "/v1/mcp/git", ∅, .ok body⟩
    ⟨true, fun _ => none, some ""⟩

def readCall : String :=
  "\x7b\"jsonrpc\": \"2.0\", \"id\": 1, \"method\": \"tools/call\", " ++
    "\"params\": \x7b\"name\": \"read\"\x7d\x7d"

/-- The condition, checked member by member. -/
def sameReading? (ms : List (String × Json)) : Bool :=
  ms.all fun m =>
    (m.1 ≠ "method" || m.2.string? = anyCaseString? "method" ms) &&
    (m.1 ≠ "params" || (m.2.members?.getD []).all fun n =>
      n.1 ≠ "name" || n.2.string? = some ((anyCaseTool? ms).getD ""))

theorem sameReading_of_check {ms : List (String × Json)} (h : sameReading? ms = true) :
    SameReading ms where
  method m hm := by
    have hcheck := List.all_eq_true.mp h _ hm
    simp only [Json.string?, ne_eq, not_true_eq_false, decide_false, Bool.false_or,
      Bool.and_eq_true] at hcheck
    exact (of_decide_eq_true hcheck.1).symm
  tool _ ps hps t ht := by
    have hcheck := List.all_eq_true.mp h _ hps
    simp only [Json.members?, ne_eq, not_true_eq_false, decide_false, Bool.false_or,
      Bool.and_eq_true, Option.getD_some, List.all_eq_true] at hcheck
    have hname := hcheck.2 _ ht
    simp only [Json.string?, not_true_eq_false, decide_false, Bool.false_or, decide_eq_true_eq,
      Option.some.injEq] at hname
    exact hname.symm

/-- Every server executes the call that was checked. -/
theorem governs_iff_sameReading_readCall :
    ∃ up ms, gitOutcome readCall = .forwarded up ∧ Json.parse up.body = some (.obj ms) ∧
      up.toolName = "read" ∧ Governs up ms := by
  have hcheck : ((gitOutcome readCall).forward?.any fun up => up.toolName = "read" &&
      ((Json.parse up.body).bind Json.members?).any sameReading?) = true := by decide +kernel
  obtain ⟨up, hup, hcheck⟩ := (Option.any_eq_true _ _).mp hcheck
  rw [Bool.and_eq_true, decide_eq_true_eq] at hcheck
  obtain ⟨ms, hms, hsame⟩ := (Option.any_eq_true _ _).mp hcheck.2
  obtain ⟨j, hj, hobj⟩ := Option.bind_eq_some_iff.mp hms
  have hforward := McpOutcome.eq_forwarded hup
  have hparse := Json.eq_obj hobj ▸ hj
  obtain ⟨-, -, -, ms', hms', hiff⟩ := governs_iff_sameReading _ _ _ _ _ _ hforward
  cases hparse.symm.trans hms'
  exact ⟨up, ms, hforward, hparse, hcheck.1, hiff.mpr (sameReading_of_check hsame)⟩

/-- The same call with a second `Params`: the first is what the server reads. -/
def shadowedCall : String :=
  "\x7b\"jsonrpc\": \"2.0\", \"id\": 1, \"method\": \"tools/call\", " ++
    "\"params\": \x7b\"name\": \"delete\"\x7d, \"Params\": \x7b\"name\": \"read\"\x7d\x7d"

/-- The broker forwards a call of a tool that it would not permit. -/
theorem shadowedCall_forwarded :
    ∃ up ms, gitOutcome shadowedCall = .forwarded up ∧ Json.parse up.body = some (.obj ms) ∧
      ExactReader.last.string? "method" ms = some methodToolsCall ∧
      ExactReader.last.tool? ms = some "delete" ∧
      up.toolName = "read" ∧ up.filter.permits "delete" = false := by
  have hcheck : ((gitOutcome shadowedCall).forward?.any fun up =>
      ((Json.parse up.body).bind Json.members?).any fun ms =>
        ExactReader.last.string? "method" ms = some methodToolsCall &&
          ExactReader.last.tool? ms = some "delete" && up.toolName = "read" &&
            !up.filter.permits "delete") = true := by decide +kernel
  obtain ⟨up, hup, hcheck⟩ := (Option.any_eq_true _ _).mp hcheck
  obtain ⟨ms, hms, hcheck⟩ := (Option.any_eq_true _ _).mp hcheck
  obtain ⟨j, hj, hobj⟩ := Option.bind_eq_some_iff.mp hms
  simp only [Bool.and_eq_true, decide_eq_true_eq, Bool.not_eq_true'] at hcheck
  obtain ⟨⟨⟨hmethod, htool⟩, hname⟩, hpermits⟩ := hcheck
  exact ⟨up, ms, McpOutcome.eq_forwarded hup, Json.eq_obj hobj ▸ hj, hmethod, htool, hname,
    hpermits⟩

end Kaalm.Gateway
