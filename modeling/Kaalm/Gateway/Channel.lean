/-
  Gateway/Channel.lean --- channels as the gateway sees them, and their
  authentication (`api/v1beta1/agentchannel_types.go`,
  `internal/gateway/kubestore.go`, `channelauth.go`).

  A channel is kept as the fields the inbound route reads.  The hash functions and
  the signature check are an argument, `Crypto`: nothing here depends on what they
  compute.
-/
import Kaalm.Foundation.Base64
import Kaalm.Foundation.Float64
import Kaalm.Foundation.Header
import Kaalm.Gateway.Period
import Kaalm.Gateway.RateLimit

namespace Kaalm.Gateway

open Kaalm.Foundation

/-! ## Objects -/

/-- How long an asynchronous response can be polled. -/
def asyncTTL : Duration := 3600 * second

/-- `spec.type`. -/
inductive ChannelType where
  | webhook
  | discord
  | whatsApp
  deriving DecidableEq, Repr, Inhabited

/-- `status.phase`; a channel not reconciled yet has none. -/
inductive ChannelPhase where
  | active
  | degraded
  | failed
  | terminating
  deriving DecidableEq, Repr, Inhabited

structure SecretKeyReference where
  name : String
  key : String
  deriving DecidableEq, Repr, Inhabited

/-- `hmac.algorithm`. -/
inductive HashAlgorithm where
  | sha1
  | sha256
  deriving DecidableEq, Repr, Inhabited

/-- `hmac.encoding`. -/
inductive SignatureEncoding where
  | hex
  | base64
  deriving DecidableEq, Repr, Inhabited

structure ChannelHMAC where
  header : String
  algorithm : HashAlgorithm
  secretRef : SecretKeyReference
  signaturePrefix : Option String
  encoding : SignatureEncoding
  deriving DecidableEq, Repr, Inhabited

inductive ChannelAuthType where
  | bearer
  | hmac
  deriving DecidableEq, Repr, Inhabited

structure ChannelAuth where
  type : ChannelAuthType
  secretRef : Option SecretKeyReference
  hmac : Option ChannelHMAC
  deriving DecidableEq, Repr, Inhabited

structure AgentChannelWebhook where
  path : String
  auth : ChannelAuth
  deriving DecidableEq, Repr, Inhabited

/-- `AgentChannelDiscord` and `AgentChannelWhatsApp`: the path and the Secret with the
credentials. -/
structure AgentChannelPlatform where
  path : String
  credentialsRef : String
  deriving DecidableEq, Repr, Inhabited

structure AgentChannel where
  ns : String
  name : String
  type : ChannelType
  webhook : Option AgentChannelWebhook
  discord : Option AgentChannelPlatform
  whatsApp : Option AgentChannelPlatform
  phase : Option ChannelPhase
  /-- the Ready condition is True -/
  ready : Bool
  deriving DecidableEq, Repr, Inhabited

def AgentChannel.path (ch : AgentChannel) : String :=
  match ch.type, ch.discord, ch.whatsApp, ch.webhook with
  | .discord, some d, _, _ => d.path
  | .whatsApp, _, some w, _ => w.path
  | _, _, _, some w => w.path
  | _, _, _, none => ""

def channelPathAllowed (ch : AgentChannel) : Bool :=
  ("/channels/" ++ ch.ns ++ "/").toList.isPrefixOf ch.path.toList

/-! ## The store -/

/-- What the inbound route reads of the cluster; `channels` is missing when they
cannot be listed, a Secret's key when it cannot be read. -/
structure ChannelStore where
  channels : Option (List AgentChannel)
  secretData : (ns name key : String) → Option String

namespace ChannelStore

def channelByPath (s : ChannelStore) (path : String) : Option AgentChannel :=
  s.channels.bind fun channels =>
    channels.find? fun ch => ch.path = path && channelPathAllowed ch && ch.ready

/-- `SecretValue`: an empty value is a missing one. -/
def secretValue (s : ChannelStore) (ns name key : String) : Option String :=
  (s.secretData ns name key).bind fun v => if v = "" then none else some v

end ChannelStore

/-! ## Authentication -/

/-- `crypto/hmac` over the two hashes and `ed25519.Verify`. -/
structure Crypto where
  hmac : HashAlgorithm → (key message : List UInt8) → List UInt8
  ed25519Verify : (publicKey message signature : List UInt8) → Bool

def bearerToken (header : String) : Option String :=
  (Text.cutStart "Bearer " header).bind fun token => if token = "" then none else some token

def verifyHMACHeader (value : String) (cfg : ChannelHMAC) (expected : List UInt8) : Bool :=
  if value = "" then false
  else
    let signature := match cfg.signaturePrefix with
      | some start => Text.cutStart start value
      | none => some value
    let supplied := signature.bind fun v =>
      match cfg.encoding with
      | .base64 => Base64.decodeStd v
      | .hex => Hex.decode (String.ofList (v.toList.map Char.toLower))
    supplied = some expected

def channelSecret (s : ChannelStore) (ns : String) (auth : ChannelAuth) : Option String :=
  match auth.type with
  | .bearer => auth.secretRef.bind fun ref => s.secretValue ns ref.name ref.key
  | .hmac => auth.hmac.bind fun h => s.secretValue ns h.secretRef.name h.secretRef.key

def authenticateWebhook (crypto : Crypto) (s : ChannelStore) (ch : AgentChannel)
    (webhook : AgentChannelWebhook) (header : Header) (body : List UInt8) : Bool :=
  match channelSecret s ch.ns webhook.auth with
  | none => false
  | some secret =>
    match webhook.auth.type, webhook.auth.hmac with
    | .bearer, _ => bearerToken (header.get "Authorization") = some secret
    | .hmac, some cfg => verifyHMACHeader (header.get cfg.header) cfg
        (crypto.hmac cfg.algorithm (Text.utf8 secret) body)
    | .hmac, none => false

/-- `strconv.ParseInt` in base ten to 64 bits. -/
def parseInt64 (s : String) : Option Int :=
  match s.toList with
  | '+' :: '-' :: _ => none
  | '+' :: digits => Json.int64? (String.ofList digits)
  | _ => Json.int64? s

/-- `time.Unix(ts, 0)`. -/
def unixTime (ts : Int) : Time := wrapInt64 (ts + 62135596800) * second

def discordTimestampSkew : Duration := 300 * second

def verifyDiscordSignature (crypto : Crypto) (publicKey : List UInt8) (sigHex timestamp : String)
    (body : List UInt8) (now : Time) : Bool :=
  match Hex.decode sigHex, parseInt64 timestamp with
  | some sig, some ts =>
    let skew := sinceClamped now (unixTime ts)
    -- the negation of the least duration is itself
    let skew := if skew < 0 then wrapInt64 (-skew) else skew
    sig.length = 64 && !decide (discordTimestampSkew < skew) &&
      crypto.ed25519Verify publicKey (Text.utf8 timestamp ++ body) sig
  | _, _ => false

def discordPublicKey (s : ChannelStore) (ch : AgentChannel) (d : AgentChannelPlatform) :
    Option (List UInt8) :=
  ((s.secretValue ch.ns d.credentialsRef "publicKey").bind Hex.decode).bind fun key =>
    if key.length = 32 then some key else none

def whatsAppHMAC : ChannelHMAC where
  header := "X-Hub-Signature-256"
  algorithm := .sha256
  secretRef := ⟨"", ""⟩
  signaturePrefix := some "sha256="
  encoding := .hex

end Kaalm.Gateway
