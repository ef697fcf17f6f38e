/-
  Gateway/Webhook.lean --- the inbound route of channels
  (`internal/gateway/user.go`, `platform.go`, `discord.go`, `whatsapp.go`).

  WHAT IS MODELLED.  `handleWebhook` from the raw request to the answer of every
  request that is not authenticated, and to the hand-over of those that are.  The
  WhatsApp handshake answers in place.

  WHAT IS COMPARED.  Two stores under one request without a valid credential.  The
  answer depends on the store only through `betrays`: for a POST not at all, for
  any other method through whether the path is live and, for a GET, whether
  WhatsApp is behind it.
-/
import Kaalm.Gateway.Channel
import Kaalm.Gateway.Store

namespace Kaalm.Gateway

open Kaalm.Foundation

/-! ## Requests and answers -/

/-- The inbound request with its parsed query; `body` is an error when reading it
failed. -/
structure ChannelRequest where
  method : String
  path : String
  query : List (String × String)
  header : Header
  body : Except String (List UInt8)

/-- `Query().Get`. -/
def ChannelRequest.queryGet (r : ChannelRequest) (key : String) : String :=
  (r.query.lookup key).getD ""

/-- A body: the error envelope, or text. -/
inductive ChannelBody where
  | error (type : ErrorType) (message : String)
  | text (s : String)
  deriving DecidableEq, Repr

structure ChannelAnswer where
  status : Nat
  body : ChannelBody
  deriving DecidableEq, Repr

def unauthorized (message : String) : ChannelAnswer := ⟨401, .error .unauthorized message⟩

/-- `forbidden`, as the handshake calls it. -/
def verificationFailed : ChannelAnswer := ⟨403, .error .unauthorized "verification failed"⟩

/-- The answer of a path that is not registered, and of a failed authentication. -/
def notRegistered : ChannelAnswer := unauthorized "auth failed or path not registered"

/-- The answer to a method the channel does not take. -/
def unknownPath : ChannelAnswer := unauthorized "unknown path"

/-- How the route ends: with an answer, or with an authenticated message for the
pipeline of the channel. -/
inductive ChannelOutcome where
  | answered (a : ChannelAnswer)
  | authenticated (ch : AgentChannel) (body : List UInt8)
  deriving DecidableEq

/-! ## The adapters -/

section Route

variable (crypto : Crypto) (s : ChannelStore) (now : Time)

/-- `discordAdapter.Handle`. -/
def discordHandle (r : ChannelRequest) (ch : AgentChannel) (d : AgentChannelPlatform)
    (body : List UInt8) : ChannelOutcome :=
  if r.method ≠ "POST" then .answered unknownPath
  else
    match discordPublicKey s ch d with
    | none => .answered notRegistered
    | some publicKey =>
      if verifyDiscordSignature crypto publicKey (r.header.get "X-Signature-Ed25519")
          (r.header.get "X-Signature-Timestamp") body now then .authenticated ch body
      else .answered notRegistered

/-- `handleVerification`. -/
def whatsAppVerification (r : ChannelRequest) (ch : AgentChannel) (w : AgentChannelPlatform) :
    ChannelOutcome :=
  match s.secretValue ch.ns w.credentialsRef "verifyToken" with
  | none => .answered verificationFailed
  | some token =>
    if r.queryGet "hub.mode" ≠ "subscribe" ∨ r.queryGet "hub.verify_token" ≠ token then
      .answered verificationFailed
    else .answered ⟨200, .text (r.queryGet "hub.challenge")⟩

/-- `handleEvent`. -/
def whatsAppEvent (r : ChannelRequest) (ch : AgentChannel) (w : AgentChannelPlatform)
    (body : List UInt8) : ChannelOutcome :=
  match s.secretValue ch.ns w.credentialsRef "appSecret" with
  | none => .answered notRegistered
  | some secret =>
    if verifyHMACHeader (r.header.get whatsAppHMAC.header) whatsAppHMAC
        (crypto.hmac whatsAppHMAC.algorithm (Text.utf8 secret) body) then .authenticated ch body
    else .answered notRegistered

/-- `whatsAppAdapter.Handle`. -/
def whatsAppHandle (r : ChannelRequest) (ch : AgentChannel) (w : AgentChannelPlatform)
    (body : List UInt8) : ChannelOutcome :=
  if r.method = "GET" then whatsAppVerification s r ch w
  else if r.method = "POST" then whatsAppEvent crypto s r ch w body
  else .answered unknownPath

/-! ## The route -/

/-- `platformAdapterFor`: the adapter's half of the route, if the channel has one. -/
def platformHandle (r : ChannelRequest) (ch : AgentChannel) (body : List UInt8) :
    Option ChannelOutcome :=
  match ch.type with
  | .discord => ch.discord.map fun d => discordHandle crypto s now r ch d body
  | .whatsApp => ch.whatsApp.map fun w => whatsAppHandle crypto s r ch w body
  | .webhook => none

/-- The generic receiver. -/
def webhookHandle (r : ChannelRequest) (ch : AgentChannel) (body : List UInt8) : ChannelOutcome :=
  match ch.webhook with
  | none => .answered unknownPath
  | some webhook =>
    if r.method ≠ "POST" then .answered unknownPath
    else if authenticateWebhook crypto s ch webhook r.header body then .authenticated ch body
    else .answered notRegistered

/-- The channel a request reaches: routed and not on its way out. -/
def ChannelStore.live (s : ChannelStore) (path : String) : Option AgentChannel :=
  (s.channelByPath path).bind fun ch => if ch.phase = some .terminating then none else some ch

/-- Reading the body of a POST, before the path is looked at. -/
def readChannelBody (maxBodyBytes : Nat) (r : ChannelRequest) : Except ChannelAnswer (List UInt8) :=
  if r.method ≠ "POST" then .ok []
  else
    match r.body with
    | .error e => .error ⟨400, .error .invalidRequest ("reading request body: " ++ e)⟩
    | .ok body =>
      if maxBodyBytes < body.length then
        .error ⟨413, .error .requestTooLarge
          ("request body exceeds " ++ toString maxBodyBytes ++ " bytes")⟩
      else .ok body

def channelHandle (r : ChannelRequest) (ch : AgentChannel) (body : List UInt8) : ChannelOutcome :=
  (platformHandle crypto s now r ch body).getD (webhookHandle crypto s r ch body)

def handleWebhook (maxBodyBytes : Nat) (r : ChannelRequest) : ChannelOutcome :=
  match readChannelBody maxBodyBytes r with
  | .error answer => .answered answer
  | .ok body =>
    match s.live r.path with
    | none => .answered notRegistered
    | some ch => channelHandle crypto s now r ch body

/-! ## Requests without a credential -/

/-- The body the checks see: nothing is read unless the method is POST. -/
def bodyRead (r : ChannelRequest) : List UInt8 :=
  if r.method = "POST" then r.body.toOption.getD [] else []

/-- The request carries a credential of the channel, whatever its method. -/
def credentialValid (r : ChannelRequest) (ch : AgentChannel) : Bool :=
  match ch.type, ch.discord, ch.whatsApp with
  | .discord, some d, _ => (discordPublicKey s ch d).any fun publicKey =>
    verifyDiscordSignature crypto publicKey (r.header.get "X-Signature-Ed25519")
      (r.header.get "X-Signature-Timestamp") (bodyRead r) now
  | .whatsApp, _, some w =>
    ((s.secretValue ch.ns w.credentialsRef "verifyToken").any fun token =>
      r.queryGet "hub.mode" = "subscribe" && r.queryGet "hub.verify_token" = token) ||
    ((s.secretValue ch.ns w.credentialsRef "appSecret").any fun secret =>
      verifyHMACHeader (r.header.get whatsAppHMAC.header) whatsAppHMAC
        (crypto.hmac whatsAppHMAC.algorithm (Text.utf8 secret) (bodyRead r)))
  | _, _, _ => ch.webhook.any fun webhook =>
    authenticateWebhook crypto s ch webhook r.header (bodyRead r)

/-- The request carries no valid credential for any channel of the store. -/
def NoCredential (r : ChannelRequest) : Prop :=
  ∀ ch ∈ s.channels.getD [], credentialValid crypto s now r ch = false

instance (r : ChannelRequest) : Decidable (NoCredential crypto s now r) :=
  inferInstanceAs (Decidable (∀ ch ∈ s.channels.getD [], credentialValid crypto s now r ch = false))

def AgentChannel.isWhatsApp (ch : AgentChannel) : Bool := ch.type = .whatsApp && ch.whatsApp.isSome

/-- What the answer to a request other than a POST lets its sender see: whether the
path is live, and for a GET whether WhatsApp is behind it. -/
def ChannelStore.betrays (s : ChannelStore) (r : ChannelRequest) : Option Bool :=
  (s.live r.path).map fun ch => r.method = "GET" && ch.isWhatsApp

def betrayal : Option Bool → ChannelAnswer
  | none => notRegistered
  | some true => verificationFailed
  | some false => unknownPath

variable {crypto s now} {r : ChannelRequest} {ch : AgentChannel}

theorem mem_of_live (h : s.live r.path = some ch) :
    ch ∈ s.channels.getD [] ∧ channelPathAllowed ch = true := by
  obtain ⟨found, hfound, hphase⟩ := Option.bind_eq_some_iff.mp h
  split_ifs at hphase
  cases hphase
  obtain ⟨channels, hchannels, hfind⟩ := Option.bind_eq_some_iff.mp hfound
  have hmem := List.mem_of_find?_eq_some hfind
  have hcheck := List.find?_some hfind
  simp only [Bool.and_eq_true] at hcheck
  exact ⟨by rw [hchannels]; exact hmem, hcheck.1.2⟩

theorem exists_route (h : channelPathAllowed ch = true) :
    (∃ d, ch.type = .discord ∧ ch.discord = some d) ∨
      (∃ w, ch.type = .whatsApp ∧ ch.whatsApp = some w) ∨
      ((ch.type = .discord → ch.discord = none) ∧ (ch.type = .whatsApp → ch.whatsApp = none) ∧
        ∃ webhook, ch.webhook = some webhook) := by
  cases htype : ch.type <;> cases hd : ch.discord <;> cases hw : ch.whatsApp <;>
    cases hweb : ch.webhook <;> simp_all [channelPathAllowed, AgentChannel.path]

theorem channelHandle_of_noCredential (hpath : channelPathAllowed ch = true)
    (hno : credentialValid crypto s now r ch = false) :
    channelHandle crypto s now r ch (bodyRead r) = .answered (
      if r.method = "POST" then notRegistered
      else betrayal (some (r.method = "GET" && ch.isWhatsApp))) := by
  rcases exists_route hpath with ⟨d, htype, hd⟩ | ⟨w, htype, hw⟩ | ⟨hdiscord, hwhats, webhook, hweb⟩
  · have hkind : ch.isWhatsApp = false := by simp [AgentChannel.isWhatsApp, htype]
    have hhandle : channelHandle crypto s now r ch (bodyRead r) =
        discordHandle crypto s now r ch d (bodyRead r) := by
      simp [channelHandle, platformHandle, htype, hd]
    rw [hhandle, discordHandle, hkind, Bool.and_false]
    by_cases hpost : r.method = "POST"
    · rw [if_neg (not_not.mpr hpost), if_pos hpost]
      simp only [credentialValid, htype, hd] at hno
      cases hkey : discordPublicKey s ch d with
      | none => rfl
      | some publicKey =>
        rw [hkey, Option.any_some] at hno
        simp [hno]
    · rw [if_pos hpost, if_neg hpost, betrayal]
  · have hkind : ch.isWhatsApp = true := by simp [AgentChannel.isWhatsApp, htype, hw]
    have hhandle : channelHandle crypto s now r ch (bodyRead r) =
        whatsAppHandle crypto s r ch w (bodyRead r) := by
      simp [channelHandle, platformHandle, htype, hw]
    simp only [credentialValid, htype, hw, Bool.or_eq_false_iff] at hno
    rw [hhandle, whatsAppHandle, hkind, Bool.and_true]
    by_cases hget : r.method = "GET"
    · have hpost : r.method ≠ "POST" := by rw [hget]; decide
      rw [if_pos hget, if_neg hpost, decide_eq_true hget, betrayal, whatsAppVerification]
      cases htoken : s.secretValue ch.ns w.credentialsRef "verifyToken" with
      | none => rfl
      | some token =>
        rw [htoken, Option.any_some] at hno
        have hwrong : r.queryGet "hub.mode" ≠ "subscribe" ∨
            r.queryGet "hub.verify_token" ≠ token := by
          simpa [or_iff_not_imp_left] using hno.1
        simp [hwrong]
    · rw [if_neg hget, decide_eq_false hget, betrayal]
      by_cases hpost : r.method = "POST"
      · rw [if_pos hpost, if_pos hpost, whatsAppEvent]
        cases hsecret : s.secretValue ch.ns w.credentialsRef "appSecret" with
        | none => rfl
        | some secret =>
          rw [hsecret, Option.any_some] at hno
          simp [hno.2]
      · rw [if_neg hpost, if_neg hpost]
  · have hkind : ch.isWhatsApp = false := by
      cases htype : ch.type <;> simp_all [AgentChannel.isWhatsApp]
    have hhandle : channelHandle crypto s now r ch (bodyRead r) =
        webhookHandle crypto s r ch (bodyRead r) := by
      cases htype : ch.type <;> simp_all [channelHandle, platformHandle]
    have hauth : authenticateWebhook crypto s ch webhook r.header (bodyRead r) = false := by
      cases htype : ch.type <;> simp_all [credentialValid]
    rw [hhandle, webhookHandle, hweb, hkind, Bool.and_false, betrayal]
    by_cases hpost : r.method = "POST" <;> simp [hpost, hauth]

/-- The answer to a request without a credential, as a function of the request and of
what the store betrays. -/
theorem handleWebhook_of_noCredential (maxBodyBytes : Nat) (hno : NoCredential crypto s now r) :
    handleWebhook crypto s now maxBodyBytes r = .answered (
      match readChannelBody maxBodyBytes r with
      | .error answer => answer
      | .ok _ => if r.method = "POST" then notRegistered else betrayal (s.betrays r)) := by
  unfold handleWebhook
  cases hread : readChannelBody maxBodyBytes r with
  | error answer => rfl
  | ok body =>
    have hbody : body = bodyRead r := by
      unfold readChannelBody at hread
      unfold bodyRead
      cases hb : r.body with
      | error e =>
        rw [hb] at hread
        split_ifs at hread with hmethod
        cases hread
        rw [if_neg hmethod]
      | ok bytes =>
        rw [hb] at hread
        split at hread
        · rename_i hmethod
          cases hread
          rw [if_neg hmethod]
        · rename_i hmethod
          dsimp only at hread
          split_ifs at hread
          cases hread
          rw [if_pos (not_not.mp hmethod)]
          rfl
    subst hbody
    cases hlive : s.live r.path with
    | none => simp [ChannelStore.betrays, hlive, betrayal]
    | some ch =>
      obtain ⟨hmem, hpath⟩ := mem_of_live hlive
      simp only [ChannelStore.betrays, hlive, Option.map_some]
      exact channelHandle_of_noCredential hpath (hno ch hmem)

theorem betrayal_injective : Function.Injective betrayal := by
  intro a b h
  rcases a with _ | _ | _ <;> rcases b with _ | _ | _ <;> first | rfl | exact absurd h (by decide)

/-- What two stores answer one request that carries no valid credential in either:
the same exactly if it is a POST, or both betray the same about its path. -/
theorem handleWebhook_eq_iff (crypto : Crypto) (a b : ChannelStore) (now : Time)
    (maxBodyBytes : Nat) (r : ChannelRequest) (ha : NoCredential crypto a now r)
    (hb : NoCredential crypto b now r) :
    handleWebhook crypto a now maxBodyBytes r = handleWebhook crypto b now maxBodyBytes r ↔
      r.method = "POST" ∨ a.betrays r = b.betrays r := by
  rw [handleWebhook_of_noCredential maxBodyBytes ha, handleWebhook_of_noCredential maxBodyBytes hb]
  by_cases hpost : r.method = "POST"
  · simp [hpost]
  · have hread : readChannelBody maxBodyBytes r = .ok [] := if_pos hpost
    simp only [hread, hpost, if_false, false_or, ChannelOutcome.answered.injEq]
    exact betrayal_injective.eq_iff

end Route

/-! ## A registered path seen from outside -/

/-- Nothing is verified here: no signature, no tag. -/
def noCrypto : Crypto := ⟨fun _ _ _ => [], fun _ _ _ => false⟩

def oneChannel : ChannelStore where
  channels := some [{
    ns := "team"
    name := "hooks"
    type := .webhook
    webhook := some ⟨"/channels/team/hooks", .bearer, some ⟨"s", "token"⟩, none⟩
    discord := none
    whatsApp := none
    phase := some .active
    ready := true }]
  secretData _ _ _ := some "secret"

def noChannels : ChannelStore := ⟨some [], fun _ _ _ => none⟩

def bareRequest (method : String) : ChannelRequest :=
  ⟨method, "/channels/team/hooks", [], ∅, .ok []⟩

theorem handleWebhook_eq_iff_bareRequest :
    handleWebhook noCrypto oneChannel 0 100 (bareRequest "POST") =
      handleWebhook noCrypto noChannels 0 100 (bareRequest "POST") :=
  (handleWebhook_eq_iff noCrypto oneChannel noChannels 0 100 (bareRequest "POST")
    (by decide +kernel) (by decide +kernel)).mpr (.inl rfl)

/-- A GET tells a registered path from one that is not. -/
theorem get_betrays_path :
    NoCredential noCrypto oneChannel 0 (bareRequest "GET") ∧
      NoCredential noCrypto noChannels 0 (bareRequest "GET") ∧
      handleWebhook noCrypto oneChannel 0 100 (bareRequest "GET") =
        .answered ⟨401, .error .unauthorized "unknown path"⟩ ∧
      handleWebhook noCrypto noChannels 0 100 (bareRequest "GET") =
        .answered ⟨401, .error .unauthorized "auth failed or path not registered"⟩ := by
  refine ⟨?_, ?_, ?_, ?_⟩ <;> decide +kernel

end Kaalm.Gateway
