/-
  Controller/ChannelPaths.lean --- the paths of channels: their validation, their
  route and the sessions under them (`validateChannel` of
  `internal/controller/agentchannel_controller.go`, `ChannelByPath` of
  `internal/gateway/kubestore.go`, `SessionID` of `envelope.go`).

  The reconciler lets the older of two channels have a path, the gateway takes the
  first ready one it finds.  `path_routes_to_one` says over every set of channels that
  the two agree.  `sessions_distinct_iff` says which paths share no session.
-/
import Kaalm.Gateway.Channel
import Kaalm.Gateway.Store
import Mathlib.Data.List.Find

namespace Kaalm.Controller

open Kaalm.Foundation Kaalm.Gateway

/-! ## Validation -/

structure DatedChannel extends AgentChannel where
  creationTimestamp : Time
  deriving DecidableEq

inductive ChannelReason where
  | agentServiceDisabled
  | invalidPath
  | pathConflict
  | invalidReference
  | credentialsMissing
  | credentialsInvalid
  | callbackInvalid
  deriving DecidableEq, Repr

/-- What validation finds beside the other channels: the Agent, and the first fault of
the credential Role, the Secrets and the callback URL. -/
structure ChannelChecks where
  agentName : String
  serviceEnabled : Bool
  credentials : Option (ChannelReason × String)

def channelType (ch : AgentChannel) : String :=
  match ch.type with
  | .webhook => "webhook"
  | .discord => "discord"
  | .whatsApp => "whatsapp"

/-- The earliest creation wins, the name breaks a tie. -/
def DatedChannel.older (other ch : DatedChannel) : Prop :=
  other.creationTimestamp < ch.creationTimestamp ∨
    other.creationTimestamp = ch.creationTimestamp ∧ other.name < ch.name

instance (other ch : DatedChannel) : Decidable (other.older ch) :=
  inferInstanceAs (Decidable (_ ∨ _ ∧ _))

/-- `validateChannel`; `listed` is missing when the channels cannot be listed. -/
def validateChannel (listed : Option (List DatedChannel)) (checks : ChannelChecks)
    (ch : DatedChannel) : Option (ChannelReason × String) :=
  if !checks.serviceEnabled then
    some (.agentServiceDisabled, "Agent " ++ quoted checks.agentName ++
      " has service.enabled=false; channels need a delivery target")
  else if ch.path = "" then
    some (.invalidPath, "spec." ++ channelType ch.toAgentChannel ++ " is not set for type " ++
      quoted (channelType ch.toAgentChannel))
  else if !channelPathAllowed ch.toAgentChannel then
    some (.invalidPath, channelType ch.toAgentChannel ++ ".path must begin with " ++
      quoted ("/channels/" ++ ch.ns ++ "/"))
  else
    match (listed.getD []).find? fun other =>
        other.ns = ch.ns && other.name ≠ ch.name && other.path = ch.path && other.older ch with
    | some other => some (.pathConflict, "path " ++ quoted ch.path ++
        " is already registered by the older channel " ++ quoted other.name)
    | none => checks.credentials

/-! ## Routes -/

/-- A set of channels after a pass over each of them against the whole set. -/
structure Validated (channels : List DatedChannel) (checks : DatedChannel → ChannelChecks) :
    Prop where
  /-- a name is given once in a namespace -/
  named : ∀ a ∈ channels, ∀ b ∈ channels, a.ns = b.ns → a.name = b.name → a = b
  /-- a namespace is a DNS label -/
  label : ∀ ch ∈ channels, '/' ∉ ch.ns.toList
  ready : ∀ ch ∈ channels,
    ch.ready = true ↔ validateChannel (some channels) (checks ch) ch = none

/-- What `ChannelByPath` looks for. -/
def DatedChannel.registered (ch : DatedChannel) (path : String) : Bool :=
  ch.path = path && channelPathAllowed ch.toAgentChannel && ch.ready

section Routes

variable {channels : List DatedChannel} {checks : DatedChannel → ChannelChecks}
  {a b ch other : DatedChannel} {path : String}

theorem older_of_valid (h : validateChannel (some channels) (checks ch) ch = none)
    (hother : other ∈ channels) (hns : other.ns = ch.ns) (hpath : other.path = ch.path)
    (hne : other.name ≠ ch.name) : ch.older other := by
  unfold validateChannel at h
  split_ifs at h
  split at h
  · cases h
  · next hnone =>
    have hyounger : ¬other.older ch := by
      simpa [hns, hpath, hne] using List.find?_eq_none.mp hnone other hother
    unfold DatedChannel.older at hyounger ⊢
    rw [not_or, not_lt, not_and] at hyounger
    rcases hyounger.1.lt_or_eq with hlt | heq
    · exact .inl hlt
    · refine .inr ⟨heq, ?_⟩
      by_contra hnot
      exact hne (String.le_antisymm (String.not_lt.mp hnot)
        (String.not_lt.mp (hyounger.2 heq.symm)))

theorem ns_eq_of_allowed (ha : '/' ∉ a.ns.toList) (hb : '/' ∉ b.ns.toList)
    (hpath : a.path = b.path) (hallowa : channelPathAllowed a.toAgentChannel = true)
    (hallowb : channelPathAllowed b.toAgentChannel = true) : a.ns = b.ns := by
  obtain ⟨x, hx⟩ := List.isPrefixOf_iff_prefix.mp hallowa
  obtain ⟨y, hy⟩ := List.isPrefixOf_iff_prefix.mp hallowb
  rw [hpath, ← hy] at hx
  simp only [String.toList_append, List.append_assoc, List.append_cancel_left_eq] at hx
  exact String.toList_injective (Text.eq_of_append_sep ha hb hx).1

theorem eq_of_registered (h : Validated channels checks) (ha : a ∈ channels) (hb : b ∈ channels)
    (hrega : a.registered path = true) (hregb : b.registered path = true) : a = b := by
  simp only [DatedChannel.registered, Bool.and_eq_true, decide_eq_true_eq] at hrega hregb
  obtain ⟨⟨hpatha, hallowa⟩, hreadya⟩ := hrega
  obtain ⟨⟨hpathb, hallowb⟩, hreadyb⟩ := hregb
  have hpath : a.path = b.path := hpatha.trans hpathb.symm
  have hns := ns_eq_of_allowed (h.label a ha) (h.label b hb) hpath hallowa hallowb
  refine h.named a ha b hb hns ?_
  by_contra hne
  have hab := older_of_valid ((h.ready a ha).mp hreadya) hb hns.symm hpath.symm (Ne.symm hne)
  have hba := older_of_valid ((h.ready b hb).mp hreadyb) ha hns hpath hne
  rcases hab with hlt | ⟨heq, hlt⟩
  · rcases hba with hlt' | ⟨heq', -⟩
    · exact absurd hlt' hlt.not_gt
    · exact absurd heq' hlt.ne'
  · rcases hba with hlt' | ⟨-, hlt'⟩
    · exact absurd heq hlt'.ne'
    · exact String.lt_irrefl _ (String.lt_trans hlt hlt')

/-- At most one ready channel passes the lookup of a path, it is the oldest of its namespace under
the path, and the lookup finds it in whatever order the channels are listed. -/
theorem path_routes_to_one (channels : List DatedChannel) (checks : DatedChannel → ChannelChecks)
    (h : Validated channels checks) (path : String) :
    (∀ a ∈ channels, ∀ b ∈ channels, a.registered path = true → b.registered path = true → a = b) ∧
      (∀ ch ∈ channels, ch.registered path = true → ∀ other ∈ channels, other.ns = ch.ns →
        other.path = path → other ≠ ch → ch.older other) ∧
      ∀ (order : List DatedChannel) (secrets : String → String → String → Option String),
        order.Perm channels →
        ChannelStore.channelByPath ⟨some (order.map DatedChannel.toAgentChannel), secrets⟩ path =
          (channels.find? fun ch => ch.registered path).map DatedChannel.toAgentChannel := by
  refine ⟨fun a ha b hb => eq_of_registered h ha hb, ?_, ?_⟩
  · intro ch hch hreg other hother hns hpath hne
    simp only [DatedChannel.registered, Bool.and_eq_true, decide_eq_true_eq] at hreg
    refine older_of_valid ((h.ready ch hch).mp hreg.2) hother hns (hpath.trans hreg.1.1.symm) ?_
    exact fun hname => hne (h.named other hother ch hch hns hname)
  · intro order secrets hperm
    have hone : {ch | ch ∈ order ∧ ch.registered path = true}.Subsingleton := fun a ha b hb =>
      eq_of_registered h (hperm.mem_iff.mp ha.1) (hperm.mem_iff.mp hb.1) ha.2 hb.2
    rw [← List.find?_eq_find?_of_perm hperm hone]
    simp only [ChannelStore.channelByPath, Option.bind_some, List.find?_map]
    rfl

end Routes

def teamChannel (name path : String) (ready : Bool) : DatedChannel where
  ns := "team"
  name := name
  type := .webhook
  webhook := some ⟨path, .bearer, some ⟨"s", "token"⟩, none⟩
  discord := none
  whatsApp := none
  phase := some .active
  ready := ready
  creationTimestamp := 0

/-- Nothing else is wrong with a channel. -/
def noFault : DatedChannel → ChannelChecks := fun _ => ⟨"agent", true, none⟩

/-- Two channels that were created together under one path. -/
def tiedChannels : List DatedChannel :=
  [teamChannel "b" "/channels/team/hooks" false, teamChannel "a" "/channels/team/hooks" true]

theorem path_routes_to_one_tied :
    ChannelStore.channelByPath
        ⟨some (tiedChannels.map DatedChannel.toAgentChannel), fun _ _ _ => none⟩
        "/channels/team/hooks" =
      some (teamChannel "a" "/channels/team/hooks" true).toAgentChannel :=
  (path_routes_to_one tiedChannels noFault ⟨by decide +kernel, by decide +kernel, by decide +kernel⟩
    "/channels/team/hooks").2.2 tiedChannels _ (.refl _)

/-! ## Sessions -/

def sessionNamespaceUUID : String := "f6a7d3c2-1b4e-5f8a-9c0d-2e3f4a5b6c7d"

section Sessions

variable {UUID : Type} (uuidV5 : String → List UInt8 → UUID)

/-- `SessionID`; the user id is whatever the caller has sent, and a colon is joined in between. -/
def sessionID (channelID : String) (userID : List UInt8) : UUID :=
  uuidV5 sessionNamespaceUUID (Text.utf8 channelID ++ 58 :: userID)

/-- The path is the other one, a colon and something more. -/
def extendsPath (longer shorter : String) : Prop := Text.utf8 shorter ++ [58] <+: Text.utf8 longer

/-- Under two paths distinct users have distinct sessions, exactly if neither path extends the
other after a colon. -/
theorem sessions_distinct_iff (hfree : Function.Injective (uuidV5 sessionNamespaceUUID))
    (a b : DatedChannel) :
    (∀ u v, sessionID uuidV5 a.path u = sessionID uuidV5 b.path v → a.path = b.path ∧ u = v) ↔
      ¬extendsPath a.path b.path ∧ ¬extendsPath b.path a.path := by
  simp only [sessionID, hfree.eq_iff]
  constructor
  · intro hdistinct
    constructor
    · rintro ⟨rest, hrest⟩
      have := hdistinct [] (rest ++ [58]) (by rw [← hrest]; simp)
      rw [this.1] at hrest
      simp at hrest
    · rintro ⟨rest, hrest⟩
      have := hdistinct (rest ++ [58]) [] (by rw [← hrest]; simp)
      rw [this.1] at hrest
      simp at hrest
  · rintro ⟨hab, hba⟩ u v h
    rcases List.append_eq_append_iff.mp h with ⟨rest, hlonger, hrest⟩ | ⟨rest, hlonger, hrest⟩
    · cases rest with
      | nil => exact ⟨Text.utf8_injective (by simpa using hlonger.symm), by simpa using hrest⟩
      | cons c rest =>
        obtain rfl := (List.cons.inj hrest).1
        exact absurd ⟨rest, by rw [hlonger]; simp⟩ hba
    · cases rest with
      | nil => exact ⟨Text.utf8_injective (by simpa using hlonger), by simpa using hrest.symm⟩
      | cons c rest =>
        obtain rfl := (List.cons.inj hrest).1
        exact absurd ⟨rest, by rw [hlonger]; simp⟩ hab

end Sessions

theorem sessions_distinct_iff_plain :
    ¬extendsPath "/channels/team/a" "/channels/team/b" ∧
      ∀ u v : List UInt8, sessionID (fun _ name => name) "/channels/team/a" u =
        sessionID (fun _ name => name) "/channels/team/b" v →
        "/channels/team/a" = "/channels/team/b" ∧ u = v :=
  ⟨by unfold extendsPath; decide +kernel,
    (sessions_distinct_iff (fun _ name => name) (fun _ _ h => h)
      (teamChannel "x" "/channels/team/a" true) (teamChannel "y" "/channels/team/b" true)).mpr
      ⟨by unfold extendsPath; decide +kernel, by unfold extendsPath; decide +kernel⟩⟩

/-- Two valid channels, one of whose paths has a colon in it. -/
def colonChannels : List DatedChannel :=
  [teamChannel "x" "/channels/team/a" true, teamChannel "y" "/channels/team/a:b" true]

theorem colon_shares_session :
    Validated colonChannels noFault ∧ ∀ uuidV5 : String → List UInt8 → String,
      sessionID uuidV5 "/channels/team/a" (Text.utf8 "b:c") =
        sessionID uuidV5 "/channels/team/a:b" (Text.utf8 "c") := by
  refine ⟨⟨by decide +kernel, by decide +kernel, by decide +kernel⟩, fun uuidV5 => ?_⟩
  unfold sessionID
  congr 1

end Kaalm.Controller
