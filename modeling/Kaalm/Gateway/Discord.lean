/-
  Gateway/Discord.lean --- the Discord adapter: its key, its replay window and its
  replies (`internal/gateway/discord.go`, `platform.go`, `validateDiscordPublicKey` of
  `internal/controller/agentchannel_controller.go`).

  Three bounds that are each checked in one place and used in another.  The reconciler
  trims the key that the adapter then reads untrimmed; the window is tested on a
  duration that saturates; a reply is cut to the length of a message before the bot
  puts a mention in front of it.
-/
import Kaalm.Gateway.Channel

namespace Kaalm.Gateway

open Kaalm.Foundation

/-! ## The public key -/

/-- The characters of `unicode.IsSpace`. -/
def spaceChars : List Char :=
  ([0x09, 0x0a, 0x0b, 0x0c, 0x0d, 0x20, 0x85, 0xa0, 0x1680, 0x2028, 0x2029, 0x202f, 0x205f,
    0x3000] ++ List.range' 0x2000 11).map Char.ofNat

/-- The bytes after the encodings they start with; every turn drops one. -/
def dropStarts (encodings : List (List UInt8)) : Nat → List UInt8 → List UInt8
  | 0, bytes => bytes
  | fuel + 1, bytes =>
    match encodings.find? (·.isPrefixOf bytes) with
    | some e => dropStarts encodings fuel (bytes.drop e.length)
    | none => bytes

/-- `strings.TrimSpace` of any bytes: only whole encodings of a space are dropped. -/
def trimSpaceBytes (bytes : List UInt8) : List UInt8 :=
  let encodings := spaceChars.map String.utf8EncodeChar
  let bytes := dropStarts encodings bytes.length bytes
  (dropStarts (encodings.map List.reverse) bytes.length bytes.reverse).reverse

/-- `publicKey` of the adapter, on the stored bytes. -/
def decodePublicKey (stored : List UInt8) : Option (List UInt8) :=
  (Hex.decode (Text.byteText stored)).filter fun key => key.length = 32

/-- What `validateDiscordPublicKey` has against a key. -/
inductive KeyProblem where
  | notHex
  | wrongLength (bytes : Nat)
  deriving DecidableEq, Repr

/-- `validateDiscordPublicKey`: the problem, or the bytes it has accepted. -/
def validateDiscordPublicKey (stored : List UInt8) : Except KeyProblem (List UInt8) :=
  match Hex.decode (Text.byteText (trimSpaceBytes stored)) with
  | none => .error .notHex
  | some key => if key.length = 32 then .ok key else .error (.wrongLength key.length)

theorem validateDiscordPublicKey_eq_ok {stored key : List UInt8} :
    validateDiscordPublicKey stored = .ok key ↔
      decodePublicKey (trimSpaceBytes stored) = some key := by
  unfold validateDiscordPublicKey decodePublicKey
  cases Hex.decode (Text.byteText (trimSpaceBytes stored)) with
  | none => simp
  | some bytes => by_cases h : bytes.length = 32 <;> simp [Option.filter, h]

theorem digit?_isSome_of_decodePairs {cs : List Char} {key : List UInt8}
    (h : Hex.decodePairs cs = some key) : ∀ c ∈ cs, (hexDigit? c).isSome = true := by
  induction cs using Hex.decodePairs.induct generalizing key with
  | case1 => simp
  | case2 a b rest ih =>
    simp only [Hex.decodePairs, Option.bind_eq_bind, Option.bind_eq_some_iff] at h
    obtain ⟨x, hx, y, hy, bytes, hbytes, -⟩ := h
    simpa [hx, hy] using ih hbytes
  | case3 cs hnil hcons => simp [Hex.decodePairs] at h

theorem dropStarts_eq_self {encodings : List (List UInt8)} {bytes : List UInt8} (fuel : Nat)
    (hne : ∀ e ∈ encodings, e ≠ []) (h : ∀ e ∈ encodings, ∀ b ∈ e, b ∉ bytes) :
    dropStarts encodings fuel bytes = bytes := by
  cases fuel with
  | zero => rfl
  | succ fuel =>
    have hnone : encodings.find? (·.isPrefixOf bytes) = none := by
      refine List.find?_eq_none.mpr fun e he hstart => ?_
      obtain ⟨b, hb⟩ := List.exists_mem_of_ne_nil e (hne e he)
      exact h e he b hb ((List.isPrefixOf_iff_prefix.mp hstart).subset hb)
    rw [dropStarts, hnone]

theorem trimSpaceBytes_of_decode {stored key : List UInt8} (h : decodePublicKey stored = some key) :
    trimSpaceBytes stored = stored := by
  have hhex := digit?_isSome_of_decodePairs (Option.filter_eq_some_iff.mp h).1
  have hspaces : ∀ e ∈ spaceChars.map String.utf8EncodeChar, e ≠ [] ∧
      ∀ b ∈ e, hexDigit? (Char.ofNat b.toNat) = none := by decide +kernel
  have hout : ∀ e ∈ spaceChars.map String.utf8EncodeChar, ∀ b ∈ e, b ∉ stored := by
    intro e he b hb hmem
    have hdigit := hhex (Char.ofNat b.toNat) (by
      simpa [Text.byteText] using ⟨b, hmem, rfl⟩)
    simp [(hspaces e he).2 b hb] at hdigit
  unfold trimSpaceBytes
  dsimp only
  rw [dropStarts_eq_self _ (fun e he => (hspaces e he).1) hout,
    dropStarts_eq_self, List.reverse_reverse]
  · intro e he
    obtain ⟨e, hmem, rfl⟩ := List.mem_map.mp he
    simpa using (hspaces e hmem).1
  · intro e he b hb
    obtain ⟨e, hmem, rfl⟩ := List.mem_map.mp he
    simpa using hout e hmem b (by simpa using hb)

/-- The two halves agree on a stored key, bytes included, exactly if it has no spaces around it
or is not a key without them. -/
theorem discordKey_agrees_iff (stored : List UInt8) :
    (∀ key, validateDiscordPublicKey stored = .ok key ↔ decodePublicKey stored = some key) ↔
      trimSpaceBytes stored = stored ∨ decodePublicKey (trimSpaceBytes stored) = none := by
  simp only [validateDiscordPublicKey_eq_ok]
  constructor
  · intro hagree
    cases hkey : decodePublicKey (trimSpaceBytes stored) with
    | none => exact .inr rfl
    | some key => exact .inl (trimSpaceBytes_of_decode ((hagree key).mp hkey))
  · rintro (hsame | hnone) key
    · rw [hsame]
    · refine iff_of_false (by simp [hnone]) fun hkey => ?_
      rw [trimSpaceBytes_of_decode hkey, hkey] at hnone
      cases hnone

/-- A key with a newline after it is accepted and then not decoded. -/
theorem discordKey_with_newline :
    (validateDiscordPublicKey (List.replicate 64 48 ++ [10])).toOption.isSome = true ∧
      decodePublicKey (List.replicate 64 48 ++ [10]) = none := by
  decide +kernel

/-! ## The replay window -/

/-- The signature header holds a signature of the timestamp and the body. -/
def DiscordSigned (crypto : Crypto) (publicKey : List UInt8) (sigHex timestamp : String)
    (body : List UInt8) : Prop :=
  ∃ sig, Hex.decode sigHex = some sig ∧ sig.length = 64 ∧
    crypto.ed25519Verify publicKey (Text.utf8 timestamp ++ body) sig = true

/-- The test of the window passes inside of it, and where the difference saturates below. -/
theorem skew_le_iff {t u d : Int} (hd : 0 ≤ d) (hmax : d < 2 ^ 63 - 1) :
    (if sinceClamped t u < 0 then wrapInt64 (-sinceClamped t u) else sinceClamped t u) ≤ d ↔
      |t - u| ≤ d ∨ t + 2 ^ 63 ≤ u := by
  have hwrap : ∀ k : Int, -(2 ^ 63) ≤ k → k < 0 →
      wrapInt64 (-k) = if k = -(2 ^ 63) then k else -k := by
    intro k hleast hneg
    unfold wrapInt64
    rw [Int.bmod_def]
    split_ifs <;> omega
  rw [abs_le]
  by_cases hneg : sinceClamped t u < 0
  · rw [if_pos hneg, hwrap _ (by unfold sinceClamped; omega) hneg]
    unfold sinceClamped at hneg ⊢
    split_ifs <;> omega
  · unfold sinceClamped at hneg ⊢
    omega

theorem verifyDiscordSignature_iff {crypto : Crypto} {publicKey : List UInt8}
    {sigHex timestamp : String} {body : List UInt8} {now : Time} {ts : Int}
    (hts : parseInt64 timestamp = some ts) :
    verifyDiscordSignature crypto publicKey sigHex timestamp body now = true ↔
      DiscordSigned crypto publicKey sigHex timestamp body ∧
        (|now - unixTime ts| ≤ 300 * second ∨ now + 2 ^ 63 ≤ unixTime ts) := by
  have hskew := skew_le_iff (t := now) (u := unixTime ts) (d := discordTimestampSkew) (by decide)
    (by decide)
  unfold verifyDiscordSignature DiscordSigned
  rw [hts]
  cases Hex.decode sigHex with
  | none => simp
  | some sig =>
    simp only [Bool.and_eq_true, Bool.not_eq_true', decide_eq_true_eq, Option.some.injEq,
      exists_eq_left']
    rw [decide_eq_false_iff_not, not_lt, hskew, and_right_comm]
    rfl

/-- An accepted interaction is signed and inside the window, exactly if it is not signed at all or
its time is less than the longest duration ahead. -/
theorem discord_replay_window_iff (crypto : Crypto) (publicKey : List UInt8)
    (sigHex timestamp : String) (body : List UInt8) (now : Time) (ts : Int)
    (hts : parseInt64 timestamp = some ts) :
    (verifyDiscordSignature crypto publicKey sigHex timestamp body now = true →
        |now - unixTime ts| ≤ 300 * second ∧
          DiscordSigned crypto publicKey sigHex timestamp body) ↔
      unixTime ts < now + 2 ^ 63 ∨ ¬DiscordSigned crypto publicKey sigHex timestamp body := by
  rw [verifyDiscordSignature_iff hts, ← not_le]
  constructor
  · intro hsafe
    by_cases hsigned : DiscordSigned crypto publicKey sigHex timestamp body
    · refine .inl fun hahead => ?_
      have hnear := (hsafe ⟨hsigned, .inr hahead⟩).1
      rw [abs_le] at hnear
      have hwindow : (300 : Int) * second < 2 ^ 63 := by decide
      linarith [hnear.1]
    · exact .inr hsigned
  · rintro (hnot | hunsigned) ⟨hsigned, hnear | hahead⟩
    · exact ⟨hnear, hsigned⟩
    · exact absurd hahead hnot
    · exact absurd hsigned hunsigned
    · exact absurd hsigned hunsigned

/-- Every signature verifies. -/
def signsAll : Crypto := ⟨fun _ _ _ => [], fun _ _ _ => true⟩

/-- A signature header of the right length. -/
def zeroSignature : String := String.ofList (List.replicate 128 '0')

theorem discord_replay_window_iff_now :
    |unixTime 1790000000 - unixTime 1790000000| ≤ 300 * second ∧
      DiscordSigned signsAll [] zeroSignature "1790000000" [] :=
  (discord_replay_window_iff signsAll [] zeroSignature "1790000000" [] (unixTime 1790000000)
    1790000000 (by decide +kernel)).mpr (.inl (by decide +kernel)) (by decide +kernel)

/-- A timestamp five centuries ahead is accepted. -/
theorem far_timestamp_accepted :
    parseInt64 "20000000000" = some 20000000000 ∧
      verifyDiscordSignature signsAll [] zeroSignature "20000000000" [] (unixTime 1790000000) =
        true ∧
      ¬|unixTime 1790000000 - unixTime 20000000000| ≤ 300 * second := by
  refine ⟨by decide +kernel, by decide +kernel, by decide +kernel⟩

/-! ## Chunks -/

/-- Where the window of the next chunk ends: after the last newline of its second half, or at
the limit. -/
def chunkCut (limit : Nat) (runes : List Char) : Nat :=
  match (List.range' (limit / 2) (limit - limit / 2)).reverse.find?
    fun i => runes[i]? = some '\n' with
  | some i => i + 1
  | none => limit

/-- The loop of `splitChunks`, for as many turns as there is fuel. -/
def splitRunes (limit : Nat) : Nat → List Char → Option (List (List Char))
  | 0, _ => none
  | fuel + 1, runes =>
    if limit < runes.length then
      let cut := chunkCut limit runes
      (splitRunes limit fuel (runes.drop cut)).map (runes.take cut :: ·)
    else some (if runes = [] then [] else [runes])

/-- `splitChunks`; none is a loop that takes more turns than there are runes. -/
def splitChunks (text : String) (limit : Nat) : Option (List String) :=
  if text.length ≤ limit then some [text]
  else (splitRunes limit (text.length + 1) text.toList).map (·.map String.ofList)

structure Chunked (limit : Nat) (text : String) (chunks : List String) : Prop where
  joined : chunks.flatMap String.toList = text.toList
  bounded : ∀ c ∈ chunks, c.length ≤ limit
  nonempty : text ≠ "" → ∀ c ∈ chunks, c ≠ ""
  full : ∀ c ∈ chunks.dropLast, c.length = limit ∨ c.toList.getLast? = some '\n'
  count : chunks.length ≤ 2 * (text.length / limit) + 1

/-- A cut is in the second half of the window, and at its end or after a newline. -/
theorem chunkCut_spec {limit : Nat} (runes : List Char) (hlimit : 1 ≤ limit) :
    limit + 1 ≤ 2 * chunkCut limit runes ∧ chunkCut limit runes ≤ limit ∧
      (chunkCut limit runes = limit ∨
        (runes.take (chunkCut limit runes)).getLast? = some '\n') := by
  unfold chunkCut
  cases hfind : (List.range' (limit / 2) (limit - limit / 2)).reverse.find?
      fun i => runes[i]? = some '\n' with
  | none =>
    dsimp only
    exact ⟨by omega, by omega, .inl rfl⟩
  | some i =>
    have hmem : i ∈ List.range' (limit / 2) (limit - limit / 2) :=
      List.mem_reverse.mp (List.mem_of_find?_eq_some hfind)
    have hnewline : runes[i]? = some '\n' := by simpa using List.find?_some hfind
    rw [List.mem_range'_1] at hmem
    dsimp only
    refine ⟨by omega, by omega, .inr ?_⟩
    simp only [List.take_add_one, hnewline, Option.toList_some, List.getLast?_concat]

/-- What the loop makes of runes that are left. -/
structure Pieces (limit : Nat) (runes : List Char) (pieces : List (List Char)) : Prop where
  joined : pieces.flatten = runes
  bounded : ∀ p ∈ pieces, p ≠ [] ∧ p.length ≤ limit
  full : ∀ p ∈ pieces.dropLast, p.length = limit ∨ p.getLast? = some '\n'
  count : limit < runes.length → pieces.length * (limit + 1) ≤ 2 * runes.length
  rest : runes.length ≤ limit → pieces.length ≤ 1

theorem splitRunes_spec {limit : Nat} (hlimit : 1 ≤ limit) (fuel : Nat) (runes : List Char)
    (hfuel : runes.length < fuel) :
    ∃ pieces, splitRunes limit fuel runes = some pieces ∧ Pieces limit runes pieces := by
  induction fuel generalizing runes with
  | zero => omega
  | succ fuel ih =>
    rw [splitRunes]
    split_ifs with hlong hempty
    · obtain ⟨hhalf, hle, hend⟩ := chunkCut_spec runes hlimit
      obtain ⟨pieces, hpieces, hrest⟩ := ih (runes.drop (chunkCut limit runes)) (by
        rw [List.length_drop]
        omega)
      have htake : (runes.take (chunkCut limit runes)).length = chunkCut limit runes :=
        List.length_take_of_le (by omega)
      have hdrop : (runes.drop (chunkCut limit runes)).length =
          runes.length - chunkCut limit runes := List.length_drop
      have hne : pieces ≠ [] := by
        rintro rfl
        have := hrest.joined
        rw [List.flatten_nil, eq_comm, List.drop_eq_nil_iff] at this
        omega
      dsimp only
      rw [hpieces]
      refine ⟨_, rfl, ?_, ?_, ?_, fun _ => ?_, fun h => by omega⟩
      · rw [List.flatten_cons, hrest.joined, List.take_append_drop]
      · rintro p (_ | ⟨_, hp⟩)
        · exact ⟨List.ne_nil_of_length_pos (by omega), by omega⟩
        · exact hrest.bounded p hp
      · rw [List.dropLast_cons_of_ne_nil hne]
        rintro p (_ | ⟨_, hp⟩)
        · rwa [htake]
        · exact hrest.full p hp
      · rw [List.length_cons, Nat.add_mul]
        rcases Nat.lt_or_ge limit (runes.drop (chunkCut limit runes)).length with hmore | hlast
        · have := hrest.count hmore
          omega
        · have := Nat.mul_le_mul_right (limit + 1) (hrest.rest hlast)
          omega
    · exact ⟨_, rfl, by simp [hempty], by simp, by simp, fun h => absurd h hlong, by simp⟩
    · exact ⟨_, rfl, by simp, by simp [hempty]; omega, by simp, fun h => absurd h hlong, by simp⟩

theorem splitChunks_bounded (text : String) {limit : Nat} (hlimit : 1 ≤ limit) :
    ∃ chunks, splitChunks text limit = some chunks ∧ ∀ c ∈ chunks, c.length ≤ limit := by
  unfold splitChunks
  split_ifs with hshort
  · exact ⟨_, rfl, by simpa⟩
  · obtain ⟨pieces, hpieces, h⟩ := splitRunes_spec hlimit (text.length + 1) text.toList
      (Nat.lt_succ_of_le (Nat.le_of_eq String.length_toList))
    exact ⟨_, by rw [hpieces]; rfl, by simpa using fun p hp => (h.bounded p hp).2⟩

/-- Splitting ends, loses nothing and stays within the limit. -/
theorem splitChunks_lossless (text : String) (limit : Nat) (hlimit : 1 ≤ limit) :
    ∃ chunks, splitChunks text limit = some chunks ∧ Chunked limit text chunks := by
  unfold splitChunks
  split_ifs with hshort
  · exact ⟨_, rfl, by simp, by simpa, by simp, by simp, by simp⟩
  · obtain ⟨pieces, hpieces, h⟩ := splitRunes_spec hlimit (text.length + 1) text.toList
      (Nat.lt_succ_of_le (Nat.le_of_eq String.length_toList))
    refine ⟨_, by rw [hpieces]; rfl, ?_, ?_, fun _ => ?_, ?_, ?_⟩
    · rw [List.flatMap_map]
      simpa [List.flatMap_id'] using h.joined
    · simpa using fun p hp => (h.bounded p hp).2
    · simpa using fun p hp => (h.bounded p hp).1
    · intro c hc
      rw [← List.map_dropLast] at hc
      obtain ⟨p, hp, rfl⟩ := List.mem_map.mp hc
      simpa using h.full p hp
    · have hcount := h.count (by rw [String.length_toList]; exact not_le.mp hshort)
      rw [String.length_toList] at hcount
      rw [List.length_map]
      have hdiv := Nat.div_add_mod text.length limit
      have hmod := Nat.mod_lt text.length hlimit
      nlinarith

theorem splitChunks_lossless_newline :
    splitChunks "ab\ncd" 3 = some ["ab\n", "cd"] ∧
      ∃ chunks, splitChunks "ab\ncd" 3 = some chunks ∧ Chunked 3 "ab\ncd" chunks :=
  ⟨by decide +kernel, splitChunks_lossless "ab\ncd" 3 (by decide)⟩

/-! ## Replies -/

/-- What an interaction leaves for its reply. -/
structure DiscordReply where
  applicationID : String
  token : String
  channelID : String
  userID : String
  received : Time
  deriving DecidableEq, Repr

/-- A request to the platform; `mentions` is `allowed_mentions.users`. -/
structure DiscordRequest where
  method : String
  target : String
  authorization : String
  content : String
  mentions : Option (List String)
  deriving DecidableEq, Repr

inductive ReplyBucket where
  | delivered
  | terminal
  | retried
  deriving DecidableEq, Repr

/-- How the schedule of a request ended; the status is 0 when nothing was answered. -/
structure ReplyResult where
  bucket : ReplyBucket
  status : Nat
  deriving DecidableEq, Repr

inductive CallbackOutcome where
  | delivered
  | rejected
  | exhausted
  deriving DecidableEq, Repr

def replyRefused (res : ReplyResult) : CallbackOutcome :=
  if res.bucket = .retried then .exhausted else .rejected

def discordSnowflake (s : String) : Bool :=
  s ≠ "" && (Text.utf8 s).length ≤ 20 && s.toList.all fun c => '0' ≤ c && c ≤ '9'

def discordTokenShape (s : String) : Bool :=
  s ≠ "" && (Text.utf8 s).length ≤ 512 && s.toList.all fun c =>
    ('a' ≤ c && c ≤ 'z') || ('A' ≤ c && c ≤ 'Z') || ('0' ≤ c && c ≤ '9') || c = '_' || c = '-' ||
      c = '.'

def discordChunkLimit : Nat := 2000

def discordTokenWindow : Duration := 900 * second

def discordEmptyReply : String := "(empty reply)"

/-- The chunks of a reply that were put to the platform, by the way they went. -/
structure PostedReply where
  webhook : List String
  bot : List String
  outcome : CallbackOutcome
  deriving DecidableEq, Repr

section Send

/-! `botToken` is what the Secret has under that key; `answers` are the ends of the requests, in
the order they are made. -/

variable (botToken : Option String) (answers : Nat → ReplyResult) (now : Time) (rc : DiscordReply)

/-- One request a chunk, the first of them the `i`th, until one is not delivered: the chunks put to
the platform, and the end that was not a delivery. -/
def postAll : Nat → List String → List String × Option (Nat × ReplyResult)
  | _, [] => ([], none)
  | i, chunk :: rest =>
    if (answers i).bucket = .delivered then
      let posted := postAll (i + 1) rest
      (chunk :: posted.1, posted.2)
    else ([chunk], some (i, answers i))

/-- `sendViaBot` after `start` requests. -/
def sendViaBot (start : Nat) (chunks : List String) : List String × CallbackOutcome :=
  if !discordSnowflake rc.channelID then ([], .rejected)
  else if botToken.getD "" = "" then ([], .rejected)
  else
    let posted := postAll answers start chunks
    (posted.1, posted.2.elim .delivered fun failed => replyRefused failed.2)

/-- The chunks go by the webhook while its token lasts. -/
def sendChunks (chunks : List String) : PostedReply :=
  if discordTokenWindow < sinceClamped now rc.received then
    let bot := sendViaBot botToken answers rc 0 chunks
    ⟨[], bot.1, bot.2⟩
  else
    let posted := postAll answers 0 chunks
    match posted.2 with
    | none => ⟨posted.1, [], .delivered⟩
    | some (i, res) =>
      if res.status = 404 ∧ i = 0 then
        let bot := sendViaBot botToken answers rc 1 chunks
        ⟨posted.1, bot.1, bot.2⟩
      else ⟨posted.1, [], replyRefused res⟩

def sendReply (text : String) : Option PostedReply :=
  let text := if text = "" then discordEmptyReply else text
  if !discordSnowflake rc.applicationID || !discordTokenShape rc.token then some ⟨[], [], .rejected⟩
  else (splitChunks text discordChunkLimit).map (sendChunks botToken answers now rc)

/-- The requests that carried the chunks; `base` is the platform's URL.  Ids and tokens of their
shapes have nothing to escape. -/
def PostedReply.requests (base : String) (posted : PostedReply) : List DiscordRequest :=
  let webhook := base ++ "/webhooks/" ++ rc.applicationID ++ "/" ++ rc.token
  posted.webhook.mapIdx (fun i chunk =>
    if i = 0 then ⟨"PATCH", webhook ++ "/messages/@original", "", chunk, none⟩
    else ⟨"POST", webhook, "", chunk, none⟩) ++
  posted.bot.map fun chunk =>
    ⟨"POST", base ++ "/channels/" ++ rc.channelID ++ "/messages", "Bot " ++ botToken.getD "",
      "<@" ++ rc.userID ++ "> " ++ chunk, some [rc.userID]⟩

/-- The number of the bot's first request, where a reply goes by the bot: the ids have their
shapes, there is a bot token, and the interaction token has expired or the first edit is answered
404. -/
def botStart : Option Nat :=
  if !discordSnowflake rc.applicationID || !discordTokenShape rc.token then none
  else if discordSnowflake rc.channelID ∧ botToken.getD "" ≠ "" then
    if discordTokenWindow < sinceClamped now rc.received then some 0
    else if (answers 0).bucket ≠ .delivered ∧ (answers 0).status = 404 then some 1
    else none
  else none

variable {botToken answers now rc}

/-- A chunk is put to the platform when the requests for the chunks before it were delivered. -/
theorem mem_postAll_iff {chunk : String} {chunks : List String} {start : Nat} :
    chunk ∈ (postAll answers start chunks).1 ↔ ∃ i, chunks[i]? = some chunk ∧
      ∀ j < i, (answers (start + j)).bucket = .delivered := by
  induction chunks generalizing start with
  | nil => simp [postAll]
  | cons first rest ih =>
    rw [postAll]
    split_ifs with hdelivered
    · rw [List.mem_cons, ih]
      constructor
      · rintro (rfl | ⟨i, hi, hall⟩)
        · exact ⟨0, rfl, fun j hj => absurd hj (Nat.not_lt_zero j)⟩
        · refine ⟨i + 1, hi, fun j hj => ?_⟩
          cases j with
          | zero => exact hdelivered
          | succ j => exact Nat.add_right_comm start j 1 ▸ hall j (Nat.lt_of_succ_lt_succ hj)
      · rintro ⟨_ | i, hi, hall⟩
        · exact .inl (Option.some.inj hi).symm
        · exact .inr ⟨i, hi, fun j hj =>
            Nat.add_right_comm start j 1 ▸ hall (j + 1) (Nat.succ_lt_succ hj)⟩
    · rw [List.mem_singleton]
      constructor
      · rintro rfl
        exact ⟨0, rfl, fun j hj => absurd hj (Nat.not_lt_zero j)⟩
      · rintro ⟨_ | i, hi, hall⟩
        · exact (Option.some.inj hi).symm
        · exact absurd (hall 0 (Nat.succ_pos i)) hdelivered

theorem postAll_failed {chunks : List String} {start i : Nat} {res : ReplyResult}
    (h : (postAll answers start chunks).2 = some (i, res)) :
    start ≤ i ∧ res = answers i ∧ (answers i).bucket ≠ .delivered := by
  induction chunks generalizing start with
  | nil => cases h
  | cons first rest ih =>
    rw [postAll] at h
    split_ifs at h with hdelivered
    · obtain ⟨hle, hres⟩ := ih h
      exact ⟨Nat.le_of_succ_le hle, hres⟩
    · cases h
      exact ⟨Nat.le_refl _, rfl, hdelivered⟩

theorem sendViaBot_fst (start : Nat) (chunks : List String) :
    (sendViaBot botToken answers rc start chunks).1 =
      if discordSnowflake rc.channelID ∧ botToken.getD "" ≠ "" then (postAll answers start chunks).1
      else [] := by
  unfold sendViaBot
  by_cases hid : discordSnowflake rc.channelID = true <;>
    by_cases htoken : botToken.getD "" = "" <;>
    simp [hid, htoken]

/-- On the webhook go some of the chunks, by the bot those that `botStart` says. -/
theorem sendChunks_spec (chunks : List String)
    (hshape : ¬(!discordSnowflake rc.applicationID || !discordTokenShape rc.token) = true) :
    (∀ chunk ∈ (sendChunks botToken answers now rc chunks).webhook, chunk ∈ chunks) ∧
    (sendChunks botToken answers now rc chunks).bot =
      (botStart botToken answers now rc).elim [] fun start => (postAll answers start chunks).1 := by
  have hposted : ∀ chunk ∈ (postAll answers 0 chunks).1, chunk ∈ chunks := by
    intro chunk h
    obtain ⟨i, hi, -⟩ := mem_postAll_iff.mp h
    exact List.mem_of_getElem? hi
  rw [botStart, if_neg hshape]
  unfold sendChunks
  dsimp only
  split_ifs with hexpired hready hready hgone
  · exact ⟨by simp, by rw [sendViaBot_fst, if_pos hready]; rfl⟩
  · exact ⟨by simp, by rw [sendViaBot_fst, if_neg hready]; rfl⟩
  · cases chunks with
    | nil => exact ⟨hposted, rfl⟩
    | cons first rest =>
      have hfirst : postAll answers 0 (first :: rest) = ([first], some (0, answers 0)) := by
        rw [postAll, if_neg hgone.1]
      rw [hfirst]
      dsimp only
      rw [if_pos ⟨hgone.2, rfl⟩, sendViaBot_fst, if_pos hready]
      exact ⟨by simp, rfl⟩
  all_goals split
  · exact ⟨hposted, rfl⟩
  · next i res hfailed =>
    obtain ⟨-, rfl, hbucket⟩ := postAll_failed hfailed
    have hlater : ¬((answers i).status = 404 ∧ i = 0) := by
      rintro ⟨hstatus, rfl⟩
      exact hgone ⟨hbucket, hstatus⟩
    rw [if_neg hlater]
    exact ⟨hposted, rfl⟩
  · exact ⟨hposted, rfl⟩
  · split_ifs
    · exact ⟨hposted, by rw [sendViaBot_fst, if_neg hready]; rfl⟩
    · exact ⟨hposted, rfl⟩

/-- No message of a reply is longer than the platform takes, exactly if every chunk that goes by
the bot leaves room for the mention in front of it: where the reply goes by the bot, each chunk of
the text before which every request was delivered. -/
theorem discord_messages_bounded_iff (botToken : Option String) (answers : Nat → ReplyResult)
    (now : Time) (rc : DiscordReply) (text base : String) :
    ∃ chunks posted, splitChunks (if text = "" then discordEmptyReply else text) discordChunkLimit =
        some chunks ∧ sendReply botToken answers now rc text = some posted ∧
      ((∀ m ∈ posted.requests botToken rc base, m.content.length ≤ 2000) ↔
        ∀ start, botStart botToken answers now rc = some start →
          ∀ i chunk, chunks[i]? = some chunk →
          (∀ j < i, (answers (start + j)).bucket = .delivered) →
          rc.userID.length + 4 + chunk.length ≤ 2000) := by
  obtain ⟨chunks, hsplit, hchunks⟩ :=
    splitChunks_bounded (if text = "" then discordEmptyReply else text)
      (show 1 ≤ discordChunkLimit by decide)
  unfold sendReply
  dsimp only
  rw [hsplit]
  by_cases hshape : (!discordSnowflake rc.applicationID || !discordTokenShape rc.token) = true
  · rw [if_pos hshape, botStart, if_pos hshape]
    exact ⟨_, _, rfl, rfl, by simp [PostedReply.requests]⟩
  rw [if_neg hshape]
  refine ⟨chunks, _, rfl, rfl, ?_⟩
  obtain ⟨hwebhook, hbot⟩ := @sendChunks_spec botToken answers now rc chunks hshape
  have hmention : ∀ chunk : String, ("<@" ++ rc.userID ++ "> " ++ chunk).length =
      rc.userID.length + 4 + chunk.length := by
    simp only [String.length_append]
    rw [show "<@".length = 2 from rfl, show "> ".length = 2 from rfl]
    omega
  unfold PostedReply.requests
  rw [List.forall_mem_append, List.forall_mem_map, and_iff_right, hbot]
  · cases botStart botToken answers now rc with
    | none => simp
    | some start =>
      simp only [Option.elim_some, mem_postAll_iff, hmention, Option.some.injEq, forall_eq',
        forall_exists_index, and_imp]
      exact forall_comm
  · intro m hm
    obtain ⟨i, hi, rfl⟩ := List.mem_mapIdx.mp hm
    split_ifs <;> exact hchunks _ (hwebhook _ (List.getElem_mem hi))

end Send

/-- A reply of exactly one message. -/
def fullText : String := String.ofList (List.replicate 2000 'a')

def webhookGone (i : Nat) : ReplyResult := if i = 0 then ⟨.terminal, 404⟩ else ⟨.delivered, 200⟩

/-- The mention pushes a full message past the limit. -/
theorem mention_exceeds_limit :
    ∃ posted, sendReply (some "b") webhookGone 0 ⟨"1", "t", "2", "3", 0⟩ fullText = some posted ∧
      ∃ m ∈ posted.requests (some "b") ⟨"1", "t", "2", "3", 0⟩ "", m.content.length = 2005 := by
  have hlength : fullText.length = 2000 := String.length_ofList.trans List.length_replicate
  have hsplit : splitChunks fullText discordChunkLimit = some [fullText] := if_pos hlength.le
  have hne : fullText ≠ "" := by
    intro hempty
    rw [hempty] at hlength
    cases hlength
  refine ⟨⟨[fullText], [fullText], .delivered⟩, ?_, ?_⟩
  · simp only [sendReply, hne, if_false, hsplit]
    rfl
  · refine ⟨_, List.mem_append_right _ List.mem_cons_self, ?_⟩
    simp only [String.length_append, hlength]
    rfl

end Kaalm.Gateway
