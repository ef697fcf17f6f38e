/-
  Gateway/McpSession.lean --- ownership of MCP sessions
  (`internal/gateway/mcpsession.go`, the session part of `mcpbroker.go`).

  The broker hands a caller the session id of a tool server as
  `base64url(id) "." base64url(HMAC(key, id 0x00 identity))` and takes it back only
  from the identity in the tag; nothing is stored.  The tag does not name the tool
  server that issued the id.

  TWO ENCODINGS HAVE TO BE UNAMBIGUOUS.  The identity text, across the two tiers of
  callers (`callerIdentity_eq_iff`), and the tagged message, for ids that contain
  the separator byte (`sessionMessage_inj`): an identity has no zero byte.
-/
import Kaalm.Foundation.Run
import Kaalm.Gateway.McpBroker

namespace Kaalm.Gateway

open Kaalm.Foundation Kaalm.Controller

/-! ## Identities -/

def callerIdentity (c : Caller) : String :=
  match c.workload with
  | some w => c.ns ++ "/" ++ kindName w.kind ++ "/" ++ w.name
  | none => "ns/" ++ c.ns

/-- A character of a Kubernetes object name. -/
def isNameChar (c : Char) : Bool := c.isLower || c.isDigit || c == '-' || c == '.'

/-- The caller's names are Kubernetes names. -/
def Caller.valid (c : Caller) : Bool :=
  c.ns.toList.all isNameChar && c.workload.all fun w => w.name.toList.all isNameChar

def SameCaller (c₁ c₂ : Caller) : Prop :=
  c₁.ns = c₂.ns ∧ c₁.workload.map (fun w => (w.kind, w.name)) =
    c₂.workload.map (fun w => (w.kind, w.name))

theorem notMem_of_isNameChar {s : String} {c : Char} (h : s.toList.all isNameChar = true)
    (hc : isNameChar c = false) : c ∉ s.toList := by
  intro hmem
  rw [List.all_eq_true] at h
  exact Bool.false_ne_true (hc.symm.trans (h c hmem))

theorem Caller.valid_ns {c : Caller} (h : c.valid = true) : c.ns.toList.all isNameChar = true :=
  (Bool.and_eq_true_iff.mp h).1

theorem slash_notMem_kindName (k : WorkloadKind) : '/' ∉ (kindName k).toList := by
  cases k <;> decide

theorem kindName_injective : Function.Injective kindName := by
  intro a b h
  cases a <;> cases b <;> first | rfl | exact absurd h (by decide)

theorem toList_callerIdentity (c : Caller) :
    (callerIdentity c).toList =
      match c.workload with
      | some w => c.ns.toList ++ '/' :: ((kindName w.kind).toList ++ '/' :: w.name.toList)
      | none => ['n', 's'] ++ '/' :: c.ns.toList := by
  unfold callerIdentity
  cases c.workload <;> simp

/-- The identity text of a caller determines the caller: a workload's has two
slashes, a namespace's one. -/
theorem callerIdentity_eq_iff {c₁ c₂ : Caller} (h₁ : c₁.valid = true) (h₂ : c₂.valid = true) :
    callerIdentity c₁ = callerIdentity c₂ ↔ SameCaller c₁ c₂ := by
  have hns₁ := notMem_of_isNameChar (c := '/') (Caller.valid_ns h₁) (by decide)
  have hns₂ := notMem_of_isNameChar (c := '/') (Caller.valid_ns h₂) (by decide)
  constructor
  · intro h
    have hlist := congrArg String.toList h
    rw [toList_callerIdentity, toList_callerIdentity] at hlist
    cases hw₁ : c₁.workload with
    | none =>
      cases hw₂ : c₂.workload with
      | none =>
        rw [hw₁, hw₂] at hlist
        obtain ⟨-, hns⟩ := Text.eq_of_append_sep (by decide) (by decide) hlist
        exact ⟨String.toList_inj.mp hns, by rw [hw₁, hw₂]⟩
      | some w =>
        rw [hw₁, hw₂] at hlist
        obtain ⟨-, hrest⟩ := Text.eq_of_append_sep (by decide) hns₂ hlist
        exact absurd (hrest ▸ by simp) hns₁
    | some w₁ =>
      cases hw₂ : c₂.workload with
      | none =>
        rw [hw₁, hw₂] at hlist
        obtain ⟨-, hrest⟩ := Text.eq_of_append_sep hns₁ (by decide) hlist
        exact absurd (hrest ▸ by simp) hns₂
      | some w₂ =>
        rw [hw₁, hw₂] at hlist
        obtain ⟨hns, hrest⟩ := Text.eq_of_append_sep hns₁ hns₂ hlist
        obtain ⟨hkind, hname⟩ := Text.eq_of_append_sep (slash_notMem_kindName _)
          (slash_notMem_kindName _) hrest
        refine ⟨String.toList_inj.mp hns, ?_⟩
        rw [hw₁, hw₂, Option.map_some, Option.map_some,
          kindName_injective (String.toList_inj.mp hkind), String.toList_inj.mp hname]
  · rintro ⟨hns, hwork⟩
    unfold callerIdentity
    cases hw₁ : c₁.workload with
    | none =>
      cases hw₂ : c₂.workload with
      | none => simp only [hns]
      | some w => rw [hw₁, hw₂] at hwork; cases hwork
    | some w₁ =>
      cases hw₂ : c₂.workload with
      | none => rw [hw₁, hw₂] at hwork; cases hwork
      | some w₂ =>
        rw [hw₁, hw₂] at hwork
        obtain ⟨hkind, hname⟩ := Prod.mk.inj (Option.some.inj hwork)
        simp only [hns, hkind, hname]

theorem zero_notMem_callerIdentity {c : Caller} (h : c.valid = true) :
    0 ∉ Text.utf8 (callerIdentity c) := by
  have hns := notMem_of_isNameChar (c := '\x00') (Caller.valid_ns h) (by decide)
  refine Text.zero_notMem_utf8 ?_
  rw [toList_callerIdentity]
  cases hw : c.workload with
  | none => simpa using hns
  | some w =>
    have hall := (Bool.and_eq_true_iff.mp h).2
    rw [hw] at hall
    have hname := notMem_of_isNameChar (c := '\x00') hall (by decide)
    have hkind : '\x00' ∉ (kindName w.kind).toList := by cases w.kind <;> decide
    simp [hns, hname, hkind]

/-! ## Wrapping -/

section Session

-- HMAC-SHA256: a key and a message to a tag
variable (hmac : List UInt8 → List UInt8 → List UInt8)

/-- What `sessionMAC` writes into the hash. -/
def sessionMessage (upstreamID : List UInt8) (identity : String) : List UInt8 :=
  upstreamID ++ 0 :: Text.utf8 identity

def sessionMAC (key upstreamID : List UInt8) (identity : String) : List UInt8 :=
  hmac key (sessionMessage upstreamID identity)

def wrapSessionID (key upstreamID : List UInt8) (identity : String) : String :=
  Base64.encodeRawURL upstreamID ++ "." ++
    Base64.encodeRawURL (sessionMAC hmac key upstreamID identity)

def unwrapSessionID (key : List UInt8) (wrapped identity : String) : Option (List UInt8) :=
  match Text.cut '.' wrapped with
  | none => none
  | some (idPart, macPart) =>
    match Base64.decodeRawURL idPart, Base64.decodeRawURL macPart with
    | some upstreamID, some mac =>
      if mac = sessionMAC hmac key upstreamID identity then some upstreamID else none
    | _, _ => none

variable {hmac} {key upstreamID : List UInt8} {c₁ c₂ : Caller}

theorem sessionMessage_inj {id₁ id₂ : List UInt8} (h₁ : c₁.valid = true) (h₂ : c₂.valid = true)
    (h : sessionMessage id₁ (callerIdentity c₁) = sessionMessage id₂ (callerIdentity c₂)) :
    id₁ = id₂ ∧ callerIdentity c₁ = callerIdentity c₂ := by
  obtain ⟨hid, hident⟩ := Text.eq_of_append_last_sep (zero_notMem_callerIdentity h₁)
    (zero_notMem_callerIdentity h₂) h
  exact ⟨hid, Text.utf8_injective hident⟩

/-- What unwrapping an id that was wrapped for one identity gives another. -/
theorem unwrapSessionID_wrapSessionID (i₁ i₂ : String) :
    unwrapSessionID hmac key (wrapSessionID hmac key upstreamID i₁) i₂ =
      if sessionMAC hmac key upstreamID i₁ = sessionMAC hmac key upstreamID i₂
      then some upstreamID else none := by
  have hcut : Text.cut '.' (wrapSessionID hmac key upstreamID i₁) =
      some (Base64.encodeRawURL upstreamID,
        Base64.encodeRawURL (sessionMAC hmac key upstreamID i₁)) :=
    Text.cut_append '.' _ _ (Base64.dot_notMem_encodeRawURL _)
  simp only [unwrapSessionID, hcut, Base64.decodeRawURL_encodeRawURL]

theorem unwrapSessionID_eq_some {wrapped identity : String} {got : List UInt8}
    (h : unwrapSessionID hmac key wrapped identity = some got) :
    ∃ idPart macPart, Text.cut '.' wrapped = some (idPart, macPart) ∧
      Base64.decodeRawURL idPart = some got ∧
      Base64.decodeRawURL macPart = some (sessionMAC hmac key got identity) := by
  unfold unwrapSessionID at h
  split at h
  · cases h
  · rename_i idPart macPart hcut
    split at h
    · rename_i id mac hid hmac
      split_ifs at h with heq
      cases h
      exact ⟨idPart, macPart, hcut, hid, heq ▸ hmac⟩
    · cases h

/-- A session belongs to its caller: an id wrapped for one caller unwraps for
another exactly if they are the same, and then to the id; and whatever unwraps
carries the tag that wrapping would have given it. -/
theorem session_belongs_to_caller (hmac : List UInt8 → List UInt8 → List UInt8)
    (hinj : ∀ key, Function.Injective (hmac key)) (key upstreamID : List UInt8) (c₁ c₂ : Caller)
    (h₁ : c₁.valid = true) (h₂ : c₂.valid = true) :
    (∀ got, unwrapSessionID hmac key (wrapSessionID hmac key upstreamID (callerIdentity c₁))
        (callerIdentity c₂) = some got ↔ SameCaller c₁ c₂ ∧ got = upstreamID) ∧
      ∀ wrapped got, unwrapSessionID hmac key wrapped (callerIdentity c₂) = some got →
        ∃ idPart macPart wrapPart, Text.cut '.' wrapped = some (idPart, macPart) ∧
          Text.cut '.' (wrapSessionID hmac key got (callerIdentity c₂)) =
            some (Base64.encodeRawURL got, wrapPart) ∧
          Base64.decodeRawURL idPart = some got ∧
          Base64.decodeRawURL macPart = Base64.decodeRawURL wrapPart := by
  have hmac_iff : sessionMAC hmac key upstreamID (callerIdentity c₁) =
      sessionMAC hmac key upstreamID (callerIdentity c₂) ↔ SameCaller c₁ c₂ := by
    rw [← callerIdentity_eq_iff h₁ h₂]
    constructor
    · intro h
      exact (sessionMessage_inj h₁ h₂ (hinj key h)).2
    · intro h
      rw [h]
  refine ⟨fun got => ?_, fun wrapped got h => ?_⟩
  · rw [unwrapSessionID_wrapSessionID]
    split_ifs with hsame
    · simp [hmac_iff.mp hsame, eq_comm]
    · have hnot : ¬ SameCaller c₁ c₂ := fun h => hsame (hmac_iff.mpr h)
      simp [hnot]
  · obtain ⟨idPart, macPart, hcut, hid, htag⟩ := unwrapSessionID_eq_some h
    refine ⟨idPart, macPart, _, hcut,
      Text.cut_append '.' _ _ (Base64.dot_notMem_encodeRawURL _), hid, ?_⟩
    rw [htag, Base64.decodeRawURL_encodeRawURL]

def buildAgent : Caller := ⟨"team", some ⟨"team", "build", .agent⟩⟩
def buildTask : Caller := ⟨"team", some ⟨"team", "build", .agentTask⟩⟩

/-- The session of an agent, with a dot in its id, under a keyed hash that is injective. -/
def buildSession : String :=
  wrapSessionID (fun _ m => m) [1] [0, 46] (callerIdentity buildAgent)

theorem session_belongs_to_caller_build :
    unwrapSessionID (fun _ m => m) [1] buildSession (callerIdentity buildAgent) = some [0, 46] ∧
      unwrapSessionID (fun _ m => m) [1] buildSession (callerIdentity buildTask) ≠
        some [0, 46] := by
  have hbelongs := fun c h => (session_belongs_to_caller (fun _ m => m) (fun _ _ _ h => h) [1]
    [0, 46] buildAgent c (by decide) h).1 [0, 46]
  refine ⟨(hbelongs buildAgent (by decide)).mpr ⟨⟨rfl, rfl⟩, rfl⟩, fun h => ?_⟩
  exact absurd ((hbelongs buildTask (by decide)).mp h).1.2 (by decide)

end Session

/-! ## The broker's runs

The tool servers answer in any order, and any number of replicas share the key:
they keep no state, so one run is the interleaving of all of them. -/

/-- A request on its way to a tool server. -/
structure McpFlight where
  provider : String
  caller : Caller
  deriving DecidableEq, Repr

/-- A session id that a tool server returned, and whether the broker wrapped it for
the caller. -/
structure ReturnedSession where
  provider : String
  caller : Caller
  sid : List UInt8
  relayed : Bool
  deriving DecidableEq, Repr

/-- What happened so far. -/
structure SessionHistory where
  inFlight : List McpFlight
  returned : List ReturnedSession
  deriving DecidableEq, Repr

/-- A step of the broker: a request of an authenticated caller under the store of
the moment, or the answer of a tool server to one of the requests in flight. -/
inductive SessionEvent where
  | request (store : Store) (caller : Caller) (call : McpCall) (allowTool : Bool)
      (credential : Option String)
  /-- `sid` is the `Mcp-Session-Id` of the answer, empty when it has none -/
  | response (flight : McpFlight) (status : Nat) (sid : List UInt8)

section Runs

variable (hmac : List UInt8 → List UInt8 → List UInt8) (key : List UInt8) (maxBodyBytes : Nat)

def sessionCheck (caller : Caller) (wrapped : String) : Option String :=
  (unwrapSessionID hmac key wrapped (callerIdentity caller)).map Text.byteText

def brokerRequest (store : Store) (caller : Caller) (call : McpCall) (allowTool : Bool)
    (credential : Option String) : McpOutcome :=
  handleMCPBroker store maxBodyBytes caller call
    ⟨allowTool, sessionCheck hmac key caller, credential⟩

/-- The answers whose headers the broker relays: a rejected credential and a failing
server end in its own denial. -/
def relaysAnswer (status : Nat) : Bool := status ≠ 401 && status ≠ 403 && decide (status < 500)

def SessionHistory.step (s : SessionHistory) : SessionEvent → Option SessionHistory
  | .request store caller call allowTool credential =>
    match brokerRequest hmac key maxBodyBytes store caller call allowTool credential with
    | .forwarded up => some { s with inFlight := ⟨up.tp.name, caller⟩ :: s.inFlight }
    | _ => some s
  | .response flight status sid =>
    if flight ∈ s.inFlight then
      some { inFlight := s.inFlight.erase flight,
             returned := if sid = [] then s.returned
               else ⟨flight.provider, flight.caller, sid, relaysAnswer status⟩ :: s.returned }
    else none

/-- Tags are not forged: a caller presents a tag that checks only if the broker has
wrapped an id under a tag of the same message before.  Callers have Kubernetes
names. -/
def Unforged (s : SessionHistory) : SessionEvent → Prop
  | .request _ caller call _ _ =>
    caller.valid = true ∧ ∀ id, unwrapSessionID hmac key (call.header.get "Mcp-Session-Id")
      (callerIdentity caller) = some id →
      ∃ r ∈ s.returned, r.relayed = true ∧
        sessionMessage r.sid (callerIdentity r.caller) =
          sessionMessage id (callerIdentity caller)
  | .response _ _ _ => True

variable {hmac key maxBodyBytes} {s : SessionHistory} {store : Store} {caller : Caller}
  {call : McpCall} {allowTool : Bool} {credential : Option String} {up : McpForward}

theorem governMessage_session {answers : McpAnswers} {tp : ToolProvider} {filter : ToolFilter}
    {body : String} {msg : McpRequest}
    (h : governMessage call answers tp filter body msg = .forwarded up) :
    upstreamSession call answers = some up.upstreamSession := by
  unfold governMessage at h
  dsimp only at h
  split_ifs at h
  split at h
  · cases h
  · rename_i session hsession
    split at h
    · cases h
    · cases h
      exact hsession

theorem unwrapSessionID_of_forwarded
    (hup : brokerRequest hmac key maxBodyBytes store caller call allowTool credential =
      .forwarded up) (hcarries : up.upstreamSession ≠ "") :
    ∃ id, unwrapSessionID hmac key (call.header.get "Mcp-Session-Id") (callerIdentity caller) =
      some id ∧ Text.byteText id = up.upstreamSession := by
  obtain ⟨tp, filter, body, msg, -, -, hgovern⟩ := handleMCPBroker_forwarded hup
  have hsession := governMessage_session hgovern
  unfold upstreamSession at hsession
  dsimp only at hsession
  split_ifs at hsession with hpresent
  · exact Option.map_eq_some_iff.mp hsession
  · exact absurd (Option.some.inj hsession).symm hcarries

/-- Every caller in the history has Kubernetes names. -/
structure ValidCallers (s : SessionHistory) : Prop where
  inFlight : ∀ f ∈ s.inFlight, f.caller.valid = true
  returned : ∀ r ∈ s.returned, r.caller.valid = true

theorem ValidCallers.step {e : SessionEvent} {s' : SessionHistory} (h : ValidCallers s)
    (hguard : Unforged hmac key s e) (hstep : s.step hmac key maxBodyBytes e = some s') :
    ValidCallers s' := by
  cases e with
  | request store caller call allowTool credential =>
    simp only [SessionHistory.step] at hstep
    split at hstep
    · cases hstep
      exact ⟨List.forall_mem_cons.mpr ⟨hguard.1, h.inFlight⟩, h.returned⟩
    · cases hstep
      exact h
  | response flight status sid =>
    simp only [SessionHistory.step] at hstep
    split_ifs at hstep with hmem hsid
    · cases hstep
      exact ⟨fun f hf => h.inFlight f (List.mem_of_mem_erase hf), h.returned⟩
    · cases hstep
      exact ⟨fun f hf => h.inFlight f (List.mem_of_mem_erase hf),
        List.forall_mem_cons.mpr ⟨h.inFlight flight hmem, h.returned⟩⟩

/-- In every run without forged tags, a request that carries a session id carries
one that a tool server returned before on a response to the same caller; and if the
caller presents what it was handed for a returned session, that session's id. -/
theorem session_returned_to_caller (hmac : List UInt8 → List UInt8 → List UInt8)
    (key : List UInt8) (maxBodyBytes : Nat) (es : List SessionEvent) (s : SessionHistory)
    (hrun : Run (SessionHistory.step hmac key maxBodyBytes) (Unforged hmac key) ⟨[], []⟩ es s)
    (store : Store) (caller : Caller) (call : McpCall) (allowTool : Bool)
    (credential : Option String)
    (hguard : Unforged hmac key s (.request store caller call allowTool credential))
    (up : McpForward)
    (hup : brokerRequest hmac key maxBodyBytes store caller call allowTool credential =
      .forwarded up) (hcarries : up.upstreamSession ≠ "") :
    (∃ r ∈ s.returned, r.relayed = true ∧ SameCaller r.caller caller ∧
        Text.byteText r.sid = up.upstreamSession) ∧
      ∀ r ∈ s.returned, SameCaller r.caller caller →
        call.header.get "Mcp-Session-Id" = wrapSessionID hmac key r.sid (callerIdentity r.caller) →
        Text.byteText r.sid = up.upstreamSession := by
  have hvalid : ValidCallers s :=
    hrun.invariant (I := ValidCallers) (fun s e s' hs hg hst => hs.step hg hst)
      ⟨by simp, by simp⟩
  obtain ⟨id, hunwrap, hid⟩ := unwrapSessionID_of_forwarded hup hcarries
  constructor
  · obtain ⟨r, hr, hrelayed, hmsg⟩ := hguard.2 id hunwrap
    obtain ⟨hsid, hident⟩ := sessionMessage_inj (hvalid.returned r hr) hguard.1 hmsg
    exact ⟨r, hr, hrelayed, (callerIdentity_eq_iff (hvalid.returned r hr) hguard.1).mp hident,
      hsid ▸ hid⟩
  · intro r hr hsame hheader
    have hident := (callerIdentity_eq_iff (hvalid.returned r hr) hguard.1).mpr hsame
    rw [hheader, hident, unwrapSessionID_wrapSessionID, if_pos rfl] at hunwrap
    rw [← hid, Option.some.inj hunwrap]

end Runs

/-! ## A session at another server -/

def twoServers : Store where
  providers := []
  toolProviders := [⟨"a", "https://a.test/mcp", ["team"], []⟩,
    ⟨"b", "https://b.test/mcp", ["team"], []⟩]
  workload _ _ _ := none
  class_ _ := none

def pingCall (path : String) (header : Header) : McpCall :=
  ⟨"POST", path, header, .ok "\x7b\"method\":\"ping\"\x7d"⟩

/-- The request half with messages as their own tags, which nobody forges. -/
def pingOutcome (path : String) (header : Header) : McpOutcome :=
  brokerRequest (fun _ m => m) [] 100 twoServers ⟨"team", none⟩ (pingCall path header) true
    (some "")

/-- What the caller is handed for the session `s` of a server. -/
def handedID : String := wrapSessionID (fun _ m => m) [] [115] "ns/team"

def handedHeader : Header := Header.set ∅ "Mcp-Session-Id" handedID

/-- The history after the first server opened the session. -/
def sessionOpened : SessionHistory := ⟨[], [⟨"a", ⟨"team", none⟩, [115], true⟩]⟩

def openSession : List SessionEvent :=
  [.request twoServers ⟨"team", none⟩ (pingCall "/v1/mcp/a" ∅) true (some ""),
    .response ⟨"a", ⟨"team", none⟩⟩ 200 [115]]

theorem exists_forwarded {path : String} {header : Header} {provider session : String}
    (h : (pingOutcome path header).forward?.map (fun up => (up.tp.name, up.upstreamSession)) =
      some (provider, session)) :
    ∃ up, pingOutcome path header = .forwarded up ∧ up.tp.name = provider ∧
      up.upstreamSession = session := by
  obtain ⟨up, hup, hread⟩ := Option.map_eq_some_iff.mp h
  obtain ⟨hname, hsession⟩ := Prod.mk.inj hread
  exact ⟨up, McpOutcome.eq_forwarded hup, hname, hsession⟩

theorem run_openSession :
    Run (SessionHistory.step (fun _ m => m) [] 100) (Unforged (fun _ m => m) [])
      ⟨[], []⟩ openSession
      sessionOpened := by
  obtain ⟨up, hup, hname, -⟩ := exists_forwarded
    (show (pingOutcome "/v1/mcp/a" ∅).forward?.map _ = some ("a", "") by decide +kernel)
  have hsend : SessionHistory.step (fun _ m => m) [] 100 ⟨[], []⟩
      (.request twoServers ⟨"team", none⟩ (pingCall "/v1/mcp/a" ∅) true (some "")) =
        some ⟨[⟨"a", ⟨"team", none⟩⟩], []⟩ := by
    unfold pingOutcome at hup
    simp only [SessionHistory.step, hup, hname]
  have hnone : unwrapSessionID (fun _ m => m) []
      ((pingCall "/v1/mcp/a" ∅).header.get "Mcp-Session-Id") (callerIdentity ⟨"team", none⟩) =
        none := by decide +kernel
  refine .cons ⟨by decide, fun id hid => ?_⟩ hsend (.cons trivial (by rfl) (.nil _))
  cases hid

theorem unforged_handed (path : String) :
    Unforged (fun _ m => m) [] sessionOpened
      (.request twoServers ⟨"team", none⟩ (pingCall path handedHeader) true (some "")) := by
  have hunwrap : unwrapSessionID (fun _ m => m) [] (handedHeader.get "Mcp-Session-Id")
      (callerIdentity ⟨"team", none⟩) = some [115] := by decide +kernel
  refine ⟨by decide, fun id hid => ?_⟩
  have heq : some [115] = some id := hunwrap.symm.trans hid
  cases heq
  exact ⟨_, List.mem_singleton_self _, rfl, rfl⟩

theorem session_returned_to_caller_handed :
    ∃ up, pingOutcome "/v1/mcp/a" handedHeader = .forwarded up ∧
      ∃ r ∈ sessionOpened.returned, r.relayed = true ∧ SameCaller r.caller ⟨"team", none⟩ ∧
        Text.byteText r.sid = up.upstreamSession := by
  obtain ⟨up, hup, -, hsession⟩ := exists_forwarded
    (show (pingOutcome "/v1/mcp/a" handedHeader).forward?.map _ = some ("a", "s") by decide +kernel)
  exact ⟨up, hup, (session_returned_to_caller _ _ _ _ _ run_openSession _ _ _ _ _
    (unforged_handed _) up hup (by rw [hsession]; decide)).1⟩

/-- The id that server `a` issued is sent to server `b`, which never issued one. -/
theorem session_sent_to_other_server :
    ∃ up, Run (SessionHistory.step (fun _ m => m) [] 100) (Unforged (fun _ m => m) []) ⟨[], []⟩
        openSession sessionOpened ∧
      Unforged (fun _ m => m) [] sessionOpened
        (.request twoServers ⟨"team", none⟩ (pingCall "/v1/mcp/b" handedHeader) true (some "")) ∧
      brokerRequest (fun _ m => m) [] 100 twoServers ⟨"team", none⟩
        (pingCall "/v1/mcp/b" handedHeader) true (some "") = .forwarded up ∧
      up.tp.name = "b" ∧ up.upstreamSession = "s" ∧
      ∀ r ∈ sessionOpened.returned, r.provider ≠ "b" := by
  obtain ⟨up, hup, hname, hsession⟩ := exists_forwarded
    (show (pingOutcome "/v1/mcp/b" handedHeader).forward?.map _ = some ("b", "s") by decide +kernel)
  exact ⟨up, run_openSession, unforged_handed _, hup, hname, hsession, by decide⟩

end Kaalm.Gateway
