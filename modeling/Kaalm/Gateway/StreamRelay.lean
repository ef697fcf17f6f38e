/-
  Gateway/StreamRelay.lean --- what the caller of a stream receives.

  `relayStream` reads the lines of an upstream through `bufio.Scanner` with a buffer of one
  MiB.  The bytes arrive in reads of any size; by `scans_iff` the scanner finds the same lines
  whatever they are (`fitting`).  A caller that takes every write receives each of these
  lines, ended by LF, and the line that fills the buffer ends the relay and its accounting.
-/
import Kaalm.Foundation.LineScanner
import Kaalm.Gateway.StreamCharge

namespace Kaalm.Gateway

open Kaalm.Foundation Kaalm.Foundation.Prog Kaalm.Foundation.LineScanner Kaalm.Translate

/-! ## The lines of a stream -/

def lineBytes (line : List Char) : List UInt8 := Text.utf8 (String.ofList line)

/-- The lines with an LF or a CRLF taken off, or one without either at the end. -/
def streamLines (body : String) : List String :=
  (lines '\n' body.toList).map fun line => String.ofList (trimEnd line ['\r'])

/-- The lines before one that fills the buffer, a CR at their end not yet dropped. -/
def fitting (body : String) : List (List Char) :=
  (lines '\n' body.toList).takeWhile fun line => (lineBytes line).length < maxTokenSize

theorem scanLines_eq (body : String) :
    scanLines body = (fitting body).map fun line => String.ofList (trimEnd line ['\r']) := rfl

/-- In whatever reads the bytes of a body arrive, the scanner finds its fitting lines. -/
theorem scans_iff (body : String) (tokens : List (List UInt8)) :
    Scan 10 maxTokenSize [] (Text.utf8 body) tokens ↔ tokens = (fitting body).map lineBytes := by
  have hlines : lines (10 : UInt8) (Text.utf8 body) = (lines '\n' body.toList).map lineBytes := by
    have hother : ∀ c, c ≠ '\n' → (10 : UInt8) ∉ String.utf8EncodeChar c := fun c hc =>
      Text.notMem_utf8EncodeChar (by decide) hc
    rw [Text.utf8, lines_flatMap (by decide) hother fun c => String.utf8EncodeChar_ne_nil]
    refine List.map_congr_left fun line _ => ?_
    rw [lineBytes, Text.utf8, String.toList_ofList]
  rw [scan_iff (by decide) (Nat.zero_le _), List.nil_append, hlines, List.takeWhile_map]
  rfl

theorem fitting_eq_iff (body : String) : (fitting body).length = (lines '\n' body.toList).length ↔
    ∀ line ∈ lines '\n' body.toList, (lineBytes line).length < maxTokenSize := by
  constructor
  · intro h line hline
    rw [← (List.takeWhile_prefix _).eq_of_length h] at hline
    simpa using List.mem_takeWhile_imp hline
  · intro h
    rw [fitting, List.takeWhile_eq_self_iff.mpr fun line hline => decide_eq_true (h line hline)]

/-! ## The caller -/

/-- A caller that takes every write, with what it has received; a relay asks for nothing
else but its accounting. -/
def listen : (op : LlmOp) → List String → Except Stuck op.Ans × List String
  | .write line, got => (.ok true, got ++ [line ++ "\n"])
  | .settle _ _, got => (.ok (), got)
  | .add _ _ _ _, got => (.ok (), got)
  | .admission _ _ _, got => (.error .nilResponse, got)
  | .allow _ _ _, got => (.error .nilResponse, got)
  | .credential _, got => (.error .nilResponse, got)
  | .send _ _, got => (.error .nilResponse, got)
  | .unixNano, got => (.error .nilResponse, got)

theorem play_relayLines_listen (adapter : Adapter) (relayed : List String) :
    ∀ (usage : Usage) (got : List String),
      (relayLines adapter none usage relayed).play listen got =
        (.ok (relayed.foldl (foldUsage adapter) usage), got ++ relayed.map (· ++ "\n")) := by
  induction relayed with
  | nil =>
    intro usage got
    rw [List.map_nil, List.append_nil]
    rfl
  | cons line rest ih =>
    intro usage got
    have hrest := ih (foldUsage adapter usage line) (got ++ [line ++ "\n"])
    rw [List.append_assoc, List.singleton_append] at hrest
    exact hrest

theorem play_settleStream_listen (provider : Provider) (ns workload modelID : String)
    (usage : Usage) (settle : Option Settle) (got : List String) :
    (settleStream provider ns workload modelID usage settle).play listen got = (.ok (), got) := by
  unfold settleStream
  split_ifs <;> cases settle <;> rfl

section Relay

variable (resp : UpstreamResponse) (adapter : Adapter) (ns workload : String) (provider : Provider)
  (modelID : String) (settle : Option Settle)

/-- What the caller of a stream receives, write by write. -/
def received : List String :=
  ((relayStream resp adapter none ns workload provider modelID settle).play listen []).2

theorem received_eq : received resp adapter ns workload provider modelID settle =
    (scanLines resp.body).map (· ++ "\n") := by
  unfold received relayStream
  rw [play_bind_ok (play_relayLines_listen adapter (scanLines resp.body) {} []),
    play_bind_ok (play_settleStream_listen provider ns workload modelID _ settle _), play_pure,
    List.nil_append]

/-- In whatever reads a stream arrives, its fitting lines are found; and the caller receives
every line in order, ended by LF, and is charged for the usage of all of them, exactly when
every line fits the scanner's buffer. -/
theorem stream_relay_complete_iff :
    (∀ tokens, Scan 10 maxTokenSize [] (Text.utf8 resp.body) tokens ↔
      tokens = (fitting resp.body).map lineBytes) ∧
    ((received resp adapter ns workload provider modelID settle =
          (streamLines resp.body).map (· ++ "\n") ∧
        streamCharge resp adapter none ns workload provider modelID settle none =
          costOf provider modelID (usageOf adapter (streamLines resp.body))) ↔
      ∀ line ∈ lines '\n' resp.body.toList, (lineBytes line).length < maxTokenSize) := by
  refine ⟨scans_iff resp.body, ?_⟩
  rw [received_eq, streamCharge_eq, readUntil_none, ← fitting_eq_iff]
  constructor
  · rintro ⟨hreceived, -⟩
    simpa [scanLines_eq, streamLines] using congrArg List.length hreceived
  · intro h
    have hscan : scanLines resp.body = streamLines resp.body := by
      rw [scanLines_eq, fitting, (List.takeWhile_prefix _).eq_of_length h, streamLines]
    exact ⟨by rw [hscan], by rw [hscan]⟩

end Relay

/-- A line that reports the usage of a million prompt tokens. -/
def usageLine : List Char := "data: \x7b\"usage\":\x7b\"prompt_tokens\":1000000\x7d\x7d".toList

/-- A line of one MiB before it. -/
def longLine : UpstreamResponse where
  status := 200
  header := ∅
  body := String.ofList (List.replicate maxTokenSize 'x' ++ '\n' :: (usageLine ++ ['\n']))
  cut := false

theorem lines_longLine :
    lines '\n' longLine.body.toList = [List.replicate maxTokenSize 'x', usageLine] := by
  rw [longLine, String.toList_ofList, lines_append_cons (by simp [List.mem_replicate]),
    lines_append_cons (by decide)]
  rfl

/-- The caller receives nothing of the stream and pays nothing for it. -/
theorem long_line_ends_stream :
    received longLine .openai "team" "Agent/a" (cappedProvider .openai) "m" none = [] ∧
      streamCharge longLine .openai none "team" "Agent/a" (cappedProvider .openai) "m" none none =
        0 ∧
      (streamLines longLine.body).length = 2 ∧
      costOf (cappedProvider .openai) "m" (usageOf .openai (streamLines longLine.body)) = 1 := by
  have hother : ∀ c, c ≠ 'x' → c ∉ List.replicate maxTokenSize 'x' := fun c hc h =>
    hc (List.eq_of_mem_replicate h)
  have hscan : scanLines longLine.body = [] := by
    have hbytes : (lineBytes (List.replicate maxTokenSize 'x')).length = maxTokenSize := by
      rw [lineBytes, Text.utf8, String.toList_ofList, List.length_flatMap]
      simp [show 'x'.utf8Size = 1 by decide]
    rw [scanLines_eq, fitting, lines_longLine, List.takeWhile_cons_of_neg (by simp [hbytes])]
    rfl
  have hall : streamLines longLine.body =
      [String.ofList (List.replicate maxTokenSize 'x'), String.ofList usageLine] := by
    have htrim : trimEnd (List.replicate maxTokenSize 'x') ['\r'] =
        List.replicate maxTokenSize 'x' :=
      if_neg fun h => hother '\r' (by decide) ((List.isSuffixOf_iff_suffix.mp h).subset (by simp))
    rw [streamLines, lines_longLine, List.map_cons, htrim]
    rfl
  have hfirst : foldUsage .openai {} (String.ofList (List.replicate maxTokenSize 'x')) = {} := by
    have hcut : Text.cutStart "data:" (String.ofList (List.replicate maxTokenSize 'x')) = none := by
      refine if_neg fun h => hother 'd' (by decide) ?_
      rw [@String.toList_ofList (List.replicate maxTokenSize 'x')] at h
      exact (List.isPrefixOf_iff_prefix.mp h).subset (by decide)
    rw [foldUsage, hcut]
  refine ⟨by rw [received_eq, hscan]; rfl, ?_, by rw [hall]; rfl, ?_⟩
  · rw [streamCharge_eq, readUntil_none, hscan]
    decide +kernel
  · rw [hall, usageOf, List.foldl_cons, hfirst]
    decide +kernel

end Kaalm.Gateway
