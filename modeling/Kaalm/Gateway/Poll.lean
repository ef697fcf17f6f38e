/-
  Gateway/Poll.lean --- the polling endpoint of asynchronous channels
  (`internal/gateway/async.go`, `channelauth.go`).

  A poll names its channel by path, and the path of a channel may belong to any of the
  three types; the authenticator of polls reads the webhook block.  A nil dereference is
  an outcome of its own here (`Panic`): the server drops the connection without an
  answer.  `poll_safe_iff` says for every store that the schema admits which polls are
  answered, and that those without a credential are then answered as if the store had no
  channel at all.
-/
import Kaalm.Gateway.Webhook

namespace Kaalm.Gateway

open Kaalm.Foundation

/-! ## Objects -/

structure AsyncRecord where
  createdAt : Time
  channelNamespace : String
  channelName : String
  payload : Option String
  deriving DecidableEq, Repr

/-- Rule 39 of the schema: the type selects the one block that is set. -/
@[mk_iff]
structure AgentChannel.Valid (ch : AgentChannel) : Prop where
  webhook : ch.type = .webhook ↔ ch.webhook.isSome = true
  discord : ch.type = .discord ↔ ch.discord.isSome = true
  whatsApp : ch.type = .whatsApp ↔ ch.whatsApp.isSome = true

/-- What ends a handler without an answer. -/
inductive Panic where
  | nilDereference
  deriving DecidableEq, Repr

inductive PollAnswer where
  | refused (a : ChannelAnswer)
  /-- 503 with a retry after a second -/
  | unavailable (message : String)
  /-- 404 without a body -/
  | notFound
  /-- 202 -/
  | pending (retryAfter : Int)
  | payload (p : String)
  deriving DecidableEq, Repr

/-! ## Authentication -/

def maxTimestampSkew : Duration := 300 * second

section Handler

variable (crypto : Crypto) (s : ChannelStore) (now : Time)

/-- The check of a poll's signature. -/
def verifyPollHMAC (cfg : ChannelHMAC) (secret : String) (header : Header) (requestID : String) :
    Bool :=
  let ts := header.get "X-Kaalm-Timestamp"
  match parseInt64 ts with
  | none => false
  | some unix =>
    let skew := sinceClamped now (unixTime unix)
    if maxTimestampSkew < skew ∨ skew < -maxTimestampSkew then false
    else
      Hex.decode (String.ofList ((header.get cfg.header).toList.map Char.toLower)) =
        some (crypto.hmac cfg.algorithm (Text.utf8 secret) (Text.utf8 (requestID ++ "\n" ++ ts)))

/-- `authenticatePoll` with the block it reads. -/
def verifyPoll (ch : AgentChannel) (webhook : AgentChannelWebhook) (header : Header)
    (requestID : String) : Bool :=
  match channelSecret s ch.ns webhook.auth with
  | none => false
  | some secret =>
    match webhook.auth.type, webhook.auth.hmac with
    | .bearer, _ => bearerToken (header.get "Authorization") = some secret
    | .hmac, some cfg => verifyPollHMAC crypto now cfg secret header requestID
    | .hmac, none => false

def authenticatePoll (ch : AgentChannel) (header : Header) (requestID : String) :
    Except Panic Bool :=
  match ch.webhook with
  | none => .error .nilDereference
  | some webhook => .ok (verifyPoll crypto s now ch webhook header requestID)

/-! ## The handler -/

def pollRetryAfter (elapsed : Duration) : Int :=
  if elapsed < 2 * second then 2
  else if elapsed < 6 * second then 4
  else if elapsed < 14 * second then 8
  else if elapsed < 30 * second then 16
  else 30

def answerRecord (ch : AgentChannel) (record : AsyncRecord) (later : Time) : PollAnswer :=
  if record.channelNamespace ≠ ch.ns ∨ record.channelName ≠ ch.name then .notFound
  else
    let elapsed := sinceClamped later record.createdAt
    if asyncTTL < elapsed then .notFound
    else
      match record.payload with
      | none => .pending (pollRetryAfter elapsed)
      | some p => .payload p

def answerRead (ch : AgentChannel) (later : Time) : Except String (Option AsyncRecord) → PollAnswer
  | .error _ => .unavailable "reading the polling record failed"
  | .ok none => .notFound
  | .ok (some record) => answerRecord ch record later

def pollRequestID (r : ChannelRequest) : Option String :=
  let requestID := (Text.cutStart "/v1/channels/responses/" r.path).getD r.path
  if requestID = "" ∨ '/' ∈ requestID.toList then none else some requestID

/-- `handlePoll`; `records` is what the record store answers, `later` the clock when it
has. -/
def handlePoll (records : String → Except String (Option AsyncRecord)) (later : Time)
    (r : ChannelRequest) : Except Panic PollAnswer :=
  if r.method ≠ "GET" then .ok (.refused unknownPath)
  else
    match pollRequestID r with
    | none => .ok (.refused ⟨404, .error .invalidRequest "not found"⟩)
    | some requestID =>
      let channelPath := r.queryGet "channelPath"
      if channelPath = "" then
        .ok (.refused ⟨400, .error .invalidRequest "channelPath query parameter is required"⟩)
      else
        match s.channelByPath channelPath with
        | none => .ok (.refused (unauthorized "auth failed"))
        | some ch =>
          (authenticatePoll crypto s now ch r.header requestID).map fun authenticated =>
            if !authenticated then .refused (unauthorized "auth failed")
            else answerRead ch later (records requestID)

/-! ## Safety -/

/-- The poll carries no valid credential of any channel; platform channels have none. -/
def NoPollCredential (r : ChannelRequest) : Prop :=
  ∀ requestID ∈ pollRequestID r, ∀ ch ∈ s.channels.getD [], ∀ webhook ∈ ch.webhook,
    verifyPoll crypto s now ch webhook r.header requestID = false

/-- The poll is answered, and without a credential as if there were no channel. -/
structure PollSafe (records : String → Except String (Option AsyncRecord)) (later : Time)
    (r : ChannelRequest) : Prop where
  answered : ∃ answer, handlePoll crypto s now records later r = .ok answer
  blind : NoPollCredential crypto s now r →
    handlePoll crypto s now records later r = handlePoll crypto noChannels now records later r

def ChannelStore.polled (s : ChannelStore) (r : ChannelRequest) : Option AgentChannel :=
  if r.method = "GET" ∧ (pollRequestID r).isSome = true then
    s.channelByPath (r.queryGet "channelPath") else none

variable {crypto s now} {r : ChannelRequest} {ch : AgentChannel}

theorem mem_of_channelByPath {path : String} (h : s.channelByPath path = some ch) :
    ch ∈ s.channels.getD [] ∧ ch.path = path ∧ channelPathAllowed ch = true := by
  obtain ⟨channels, hchannels, hfind⟩ := Option.bind_eq_some_iff.mp h
  have hcheck := List.find?_some hfind
  simp only [Bool.and_eq_true, decide_eq_true_eq] at hcheck
  refine ⟨?_, hcheck.1⟩
  rw [hchannels]
  exact List.mem_of_find?_eq_some hfind

theorem channelByPath_empty : s.channelByPath "" = none := by
  cases hfound : s.channelByPath "" with
  | none => rfl
  | some ch =>
    obtain ⟨-, hpath, hallowed⟩ := mem_of_channelByPath hfound
    unfold channelPathAllowed at hallowed
    rw [hpath] at hallowed
    simp at hallowed

section Reached

variable {records : String → Except String (Option AsyncRecord)} {later : Time}

theorem handlePoll_of_polled_none (h : s.polled r = none) :
    handlePoll crypto s now records later r = handlePoll crypto noChannels now records later r := by
  unfold ChannelStore.polled at h
  unfold handlePoll
  split_ifs with hmethod
  · rfl
  · rw [not_not] at hmethod
    cases hid : pollRequestID r with
    | none => rfl
    | some requestID =>
      rw [if_pos ⟨hmethod, by rw [hid]; rfl⟩] at h
      dsimp only
      rw [h]
      rfl

theorem noChannels_refused :
    ∃ refusal, handlePoll crypto noChannels now records later r = .ok (.refused refusal) := by
  unfold handlePoll
  split_ifs
  · exact ⟨_, rfl⟩
  · split
    · exact ⟨_, rfl⟩
    · dsimp only
      split_ifs <;> exact ⟨_, rfl⟩

theorem handlePoll_of_polled_some (h : s.polled r = some ch) :
    ∃ requestID, pollRequestID r = some requestID ∧
      handlePoll crypto s now records later r =
        ((authenticatePoll crypto s now ch r.header requestID).map fun authenticated =>
          if !authenticated then .refused (unauthorized "auth failed")
          else answerRead ch later (records requestID)) ∧
      handlePoll crypto noChannels now records later r =
        .ok (.refused (unauthorized "auth failed")) := by
  unfold ChannelStore.polled at h
  split_ifs at h with hreaches
  obtain ⟨hmethod, hid⟩ := hreaches
  obtain ⟨requestID, hid⟩ := Option.isSome_iff_exists.mp hid
  have hpath : r.queryGet "channelPath" ≠ "" := by
    intro hempty
    rw [hempty, channelByPath_empty] at h
    cases h
  refine ⟨requestID, hid, ?_, ?_⟩
  · unfold handlePoll
    rw [if_neg (not_not.mpr hmethod), hid]
    dsimp only
    rw [if_neg hpath, h]
  · unfold handlePoll
    rw [if_neg (not_not.mpr hmethod), hid]
    dsimp only
    rw [if_neg hpath]
    rfl

theorem mem_of_polled (h : s.polled r = some ch) : ch ∈ s.channels.getD [] := by
  unfold ChannelStore.polled at h
  split_ifs at h
  exact (mem_of_channelByPath h).1

/-- Over every store the schema admits: a poll is safe exactly when the path it names is not that
of a Discord or WhatsApp channel. -/
theorem poll_safe_iff (crypto : Crypto) (s : ChannelStore) (now later : Time)
    (records : String → Except String (Option AsyncRecord)) (r : ChannelRequest)
    (hvalid : ∀ ch ∈ s.channels.getD [], ch.Valid) :
    PollSafe crypto s now records later r ↔ ∀ ch, s.polled r = some ch → ch.type = .webhook := by
  cases hpolled : s.polled r with
  | none =>
    have hsame : handlePoll crypto s now records later r =
        handlePoll crypto noChannels now records later r := handlePoll_of_polled_none hpolled
    refine iff_of_true ⟨?_, fun _ => hsame⟩ (by simp)
    rw [hsame]
    obtain ⟨refusal, hrefused⟩ : ∃ refusal,
      handlePoll crypto noChannels now records later r = .ok (.refused refusal) :=
        noChannels_refused
    exact ⟨_, hrefused⟩
  | some ch =>
    have hmem := mem_of_polled hpolled
    obtain ⟨requestID, hid, hhandled, hnothing⟩ :
      ∃ requestID, pollRequestID r = some requestID ∧ _ ∧ _ := handlePoll_of_polled_some hpolled
    have htype := (hvalid ch hmem).webhook
    cases hwebhook : ch.webhook with
    | none =>
      rw [hwebhook] at htype
      have hpanic : handlePoll crypto s now records later r = .error .nilDereference := by
        rw [hhandled, authenticatePoll, hwebhook]
        rfl
      refine iff_of_false (fun hsafe => ?_) fun hall => ?_
      · obtain ⟨answer, hanswer⟩ := hsafe.answered
        rw [hpanic] at hanswer
        cases hanswer
      · simpa using htype.mp (hall ch rfl)
    | some webhook =>
      rw [hwebhook] at htype
      rw [authenticatePoll, hwebhook] at hhandled
      dsimp only at hhandled
      refine iff_of_true ⟨⟨_, hhandled⟩, fun hno => ?_⟩ fun found hfound => ?_
      · have hverify := hno requestID hid ch hmem webhook hwebhook
        rw [hhandled, hnothing, hverify]
        rfl
      · cases hfound
        exact htype.mpr rfl

end Reached

end Handler

/-! ## Isolation -/

/-- What the record store has for the channel: the records of others are missing ones. -/
def AgentChannel.ownRecord (ch : AgentChannel) (read : Except String (Option AsyncRecord)) :
    Except String (Option AsyncRecord) :=
  read.map (Option.filter fun record =>
    record.channelNamespace = ch.ns && record.channelName = ch.name)

section Isolation

variable {ch : AgentChannel} {later : Time}

theorem answerRead_ownRecord (read : Except String (Option AsyncRecord)) :
    answerRead ch later (ch.ownRecord read) = answerRead ch later read := by
  rcases read with e | _ | record
  · rfl
  · rfl
  · by_cases hown : record.channelNamespace = ch.ns ∧ record.channelName = ch.name
    · simp [AgentChannel.ownRecord, Except.map, Option.filter, hown]
    · have hforeign : answerRecord ch record later = .notFound := by
        rw [answerRecord, if_pos (by simpa [or_iff_not_imp_left] using hown)]
      simp [AgentChannel.ownRecord, Except.map, Option.filter, hown, answerRead, hforeign]

theorem eq_of_answerRead_payload {read : Except String (Option AsyncRecord)} {p : String}
    (h : answerRead ch later read = .payload p) :
    ∃ record, read = .ok (some record) ∧ record.payload = some p ∧
      record.channelNamespace = ch.ns ∧ record.channelName = ch.name ∧
      later ≤ record.createdAt + 3600 * second := by
  rcases read with e | _ | record
  · cases h
  · cases h
  · simp only [answerRead, answerRecord] at h
    split_ifs at h with hforeign hlate
    rw [not_or, not_not, not_not] at hforeign
    cases hpayload : record.payload with
    | none => simp [hpayload] at h
    | some q =>
      rw [hpayload] at h
      cases h
      refine ⟨record, rfl, hpayload, hforeign.1, hforeign.2, ?_⟩
      exact le_of_sinceClamped_le (by decide) (not_lt.mp hlate)

/-- A poll is answered by the records of the channel it names alone, and with a payload only
in the first hour of its record. -/
theorem poll_isolated (crypto : Crypto) (s : ChannelStore) (now later : Time)
    (a b : String → Except String (Option AsyncRecord)) (r : ChannelRequest)
    (hagree : ∀ ch, s.polled r = some ch → ∀ id, ch.ownRecord (a id) = ch.ownRecord (b id)) :
    handlePoll crypto s now a later r = handlePoll crypto s now b later r ∧
      ∀ p, handlePoll crypto s now a later r = .ok (.payload p) →
        ∃ ch id record, s.polled r = some ch ∧ pollRequestID r = some id ∧
          a id = .ok (some record) ∧ record.payload = some p ∧
          record.channelNamespace = ch.ns ∧ record.channelName = ch.name ∧
          later ≤ record.createdAt + 3600 * second := by
  cases hpolled : s.polled r with
  | none =>
    rw [handlePoll_of_polled_none hpolled, handlePoll_of_polled_none hpolled]
    refine ⟨rfl, fun p hp => ?_⟩
    obtain ⟨refusal, hrefused⟩ : ∃ refusal,
      handlePoll crypto noChannels now a later r = .ok (.refused refusal) := noChannels_refused
    simp [hrefused] at hp
  | some ch =>
    obtain ⟨id, hid, ha, -⟩ : ∃ id, pollRequestID r = some id ∧
      handlePoll crypto s now a later r = _ ∧ _ := handlePoll_of_polled_some hpolled
    obtain ⟨id', hid', hb, -⟩ : ∃ id, pollRequestID r = some id ∧
      handlePoll crypto s now b later r = _ ∧ _ := handlePoll_of_polled_some hpolled
    cases hid.symm.trans hid'
    have hread : answerRead ch later (a id) = answerRead ch later (b id) := by
      rw [← answerRead_ownRecord, hagree ch hpolled, answerRead_ownRecord]
    constructor
    · rw [ha, hb, hread]
    · intro p hp
      rw [ha] at hp
      cases hauth : authenticatePoll crypto s now ch r.header id with
      | error e => rw [hauth] at hp; cases hp
      | ok authenticated =>
        rw [hauth] at hp
        cases authenticated
        · cases hp
        · obtain ⟨record, hrecord⟩ := eq_of_answerRead_payload (Except.ok.inj hp)
          exact ⟨ch, id, record, rfl, hid, hrecord⟩

end Isolation

/-! ## A Discord channel -/

def oneDiscord : ChannelStore where
  channels := some [{
    ns := "team"
    name := "bot"
    type := .discord
    webhook := none
    discord := some ⟨"/channels/team/bot", "discord-credentials"⟩
    whatsApp := none
    phase := some .active
    ready := true }]
  secretData _ _ _ := some "secret"

def pollOf (channelPath : String) : ChannelRequest :=
  ⟨"GET", "/v1/channels/responses/req-1", [("channelPath", channelPath)], ∅, .ok []⟩

def noRecords : String → Except String (Option AsyncRecord) := fun _ => .ok none

theorem oneDiscord_valid : ∀ ch ∈ oneDiscord.channels.getD [], ch.Valid := by
  simp [oneDiscord, AgentChannel.valid_iff]

theorem poll_safe_iff_other :
    PollSafe noCrypto oneDiscord 0 noRecords 0 (pollOf "/channels/team/other") := by
  have hnobody : oneDiscord.polled (pollOf "/channels/team/other") = none := by decide +kernel
  refine (poll_safe_iff noCrypto oneDiscord 0 0 noRecords _ oneDiscord_valid).mpr fun ch hch => ?_
  cases hch

def authenticPoll : ChannelRequest :=
  ⟨"GET", "/v1/channels/responses/req-1", [("channelPath", "/channels/team/hooks")],
    (∅ : Header).set "Authorization" "Bearer secret", .ok []⟩

def foreignRecord : String → Except String (Option AsyncRecord) :=
  fun _ => .ok (some ⟨0, "team", "other", some "answer"⟩)

theorem poll_isolated_foreign :
    handlePoll noCrypto oneChannel 0 foreignRecord 0 authenticPoll =
        handlePoll noCrypto oneChannel 0 noRecords 0 authenticPoll ∧
      handlePoll noCrypto oneChannel 0 noRecords 0 authenticPoll = .ok .notFound := by
  refine ⟨(poll_isolated noCrypto oneChannel 0 0 foreignRecord noRecords authenticPoll ?_).1,
    by decide +kernel⟩
  intro ch hch id
  have hone : oneChannel.polled authenticPoll = oneChannel.channels.bind List.head? := by
    decide +kernel
  cases hch
  rfl

/-- The path of the Discord channel gets no answer, another one the refusal. -/
theorem poll_of_discord_panics :
    (∀ ch ∈ oneDiscord.channels.getD [], ch.Valid) ∧
      handlePoll noCrypto oneDiscord 0 noRecords 0 (pollOf "/channels/team/bot") =
        .error .nilDereference ∧
      handlePoll noCrypto oneDiscord 0 noRecords 0 (pollOf "/channels/team/other") =
        .ok (.refused ⟨401, .error .unauthorized "auth failed"⟩) := by
  exact ⟨oneDiscord_valid, by decide +kernel, by decide +kernel⟩

end Kaalm.Gateway
