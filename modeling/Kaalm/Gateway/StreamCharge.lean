/-
  Gateway/StreamCharge.lean --- what a stream costs a caller that hangs up.

  The usage of a stream is folded in the loop that writes it, and the loop ends with the
  first write that fails.  `meter` is a caller that stays for a number of writes;
  `readUntil` are the lines the gateway has read when the caller is gone, and what is
  charged is the cost of those lines (`streamCharge_eq`).  Of the lines that are not read
  only the last that sets a count matters; the OpenAI format reports its usage in the
  last line of all.
-/
import Kaalm.Gateway.LlmRun

namespace Kaalm.Gateway

open Kaalm.Foundation Kaalm.Foundation.Json Kaalm.Foundation.Prog Kaalm.Translate

/-! ## Callers -/

/-- The writes a caller still takes, none for one that stays, and its charge so far. -/
structure Connection where
  left : Option Nat
  charged : ℚ

/-- The caller's connection and the ledger; a relay asks for nothing else. -/
def meter : (op : LlmOp) → Connection → Except Stuck op.Ans × Connection
  | .write _, s =>
    match s.left with
    | none => (.ok true, s)
    | some 0 => (.ok false, s)
    | some (n + 1) => (.ok true, { s with left := some n })
  | .settle _ cost, s => (.ok (), { s with charged := s.charged + cost })
  | .add _ _ _ cost, s => (.ok (), { s with charged := s.charged + cost })
  | .admission _ _ _, s => (.error .nilResponse, s)
  | .allow _ _ _, s => (.error .nilResponse, s)
  | .credential _, s => (.error .nilResponse, s)
  | .send _ _, s => (.error .nilResponse, s)
  | .unixNano, s => (.error .nilResponse, s)

def takes (left : Option Nat) (writes : Nat) : Bool := left.all (writes ≤ ·)

def after (left : Option Nat) (writes : Nat) : Option Nat := left.map (· - writes)

def readUntil : Option Translator → List String → Option Nat → List String
  | _, [], _ => []
  | translator, line :: rest, left =>
    let relayed := relayLine line translator
    line :: if takes left relayed.2.length then
      readUntil relayed.1 rest (after left relayed.2.length) else []

theorem readUntil_none (lines : List String) (translator : Option Translator) :
    readUntil translator lines none = lines := by
  induction lines generalizing translator with
  | nil => rfl
  | cons line rest ih => exact congrArg (line :: ·) (ih _)

theorem readUntil_isPrefix (lines : List String) (translator : Option Translator)
    (left : Option Nat) : readUntil translator lines left <+: lines := by
  induction lines generalizing translator left with
  | nil => exact List.nil_prefix
  | cons line rest ih =>
    rw [readUntil]
    refine (List.prefix_cons_inj line).mpr ?_
    split_ifs
    · exact ih _ _
    · exact List.nil_prefix

/-! ## Counts -/

def SetsOrLeaves (count : Usage → Int) (f : Usage → Usage) : Prop :=
  (∃ n, ∀ u, count (f u) = n) ∨ ∀ u, count (f u) = count u

/-- The count that something sets, none where it leaves it: only then do different counts stay
different. -/
def setCount (count : Usage → Int) (f : Usage → Usage) : Option Int :=
  if count (f ⟨0, 0, []⟩) = count (f ⟨1, 1, []⟩) then some (count (f ⟨0, 0, []⟩)) else none

theorem SetsOrLeaves.eq {count : Usage → Int} {f : Usage → Usage} (h : SetsOrLeaves count f)
    (hcount : count ⟨0, 0, []⟩ ≠ count ⟨1, 1, []⟩) (u : Usage) :
    count (f u) = (setCount count f).getD (count u) := by
  unfold setCount
  rcases h with ⟨n, hn⟩ | hsame
  · rw [hn, hn, hn, if_pos rfl, Option.getD_some]
  · rw [hsame, hsame, hsame, if_neg hcount, Option.getD_none]

theorem foldUsage_setsOrLeaves (adapter : Adapter) (line : String) :
    SetsOrLeaves Usage.inputTokens (foldUsage adapter · line) ∧
      SetsOrLeaves Usage.outputTokens (foldUsage adapter · line) := by
  unfold foldUsage
  cases Text.cutStart "data:" line with
  | none => exact ⟨.inr fun _ => rfl, .inr fun _ => rfl⟩
  | some data =>
    cases adapter <;> dsimp only [Adapter.accumulateStreamUsage]
    · split
      · exact ⟨.inr fun _ => rfl, .inr fun _ => rfl⟩
      · split_ifs
        · exact ⟨.inl ⟨_, fun _ => rfl⟩, .inr fun _ => rfl⟩
        all_goals first
          | exact ⟨.inr fun _ => rfl, .inr fun _ => rfl⟩
          | exact ⟨.inr fun _ => rfl, .inl ⟨_, fun _ => rfl⟩⟩
    · split_ifs
      · exact ⟨.inr fun _ => rfl, .inr fun _ => rfl⟩
      · split
        · exact ⟨.inl ⟨_, fun _ => rfl⟩, .inl ⟨_, fun _ => rfl⟩⟩
        · exact ⟨.inr fun _ => rfl, .inr fun _ => rfl⟩
    · split
      · exact ⟨.inr fun _ => rfl, .inr fun _ => rfl⟩
      · split
        · split_ifs <;> exact ⟨.inr fun _ => rfl, .inr fun _ => rfl⟩
        · exact ⟨.inl ⟨_, fun _ => rfl⟩, .inl ⟨_, fun _ => rfl⟩⟩

def lastCount (adapter : Adapter) (count : Usage → Int) (lines : List String) : Option Int :=
  (lines.filterMap fun line => setCount count (foldUsage adapter · line)).getLast?

theorem lastCount_append (adapter : Adapter) (count : Usage → Int) (xs ys : List String) :
    lastCount adapter count (xs ++ ys) =
      (lastCount adapter count ys).or (lastCount adapter count xs) := by
  rw [lastCount, List.filterMap_append, List.getLast?_append]
  rfl

def usageOf (adapter : Adapter) (lines : List String) : Usage := lines.foldl (foldUsage adapter) {}

theorem count_usageOf {adapter : Adapter} {count : Usage → Int}
    (h : ∀ line, SetsOrLeaves count (foldUsage adapter · line))
    (hcount : count ⟨0, 0, []⟩ ≠ count ⟨1, 1, []⟩) (lines : List String) :
    count (usageOf adapter lines) = (lastCount adapter count lines).getD (count {}) := by
  induction lines using List.reverseRecOn with
  | nil => rfl
  | append_singleton lines line ih =>
    have hline := (h line).eq hcount (usageOf adapter lines)
    rw [ih] at hline
    rw [usageOf, List.foldl_concat, lastCount_append]
    refine hline.trans ?_
    cases hset : setCount count (foldUsage adapter · line) with
    | none => simp [lastCount, hset]
    | some n => simp [lastCount, hset]

theorem count_usageOf_append_iff {adapter : Adapter} {count : Usage → Int}
    (h : ∀ line, SetsOrLeaves count (foldUsage adapter · line))
    (hcount : count ⟨0, 0, []⟩ ≠ count ⟨1, 1, []⟩) (xs ys : List String) :
    count (usageOf adapter xs) = count (usageOf adapter (xs ++ ys)) ↔
      ∀ n, lastCount adapter count ys = some n →
        n = (lastCount adapter count xs).getD (count {}) := by
  rw [count_usageOf h hcount, count_usageOf h hcount, lastCount_append]
  cases lastCount adapter count ys with
  | none => simp
  | some n => simp [eq_comm]

/-! ## The relay -/

theorem play_writeLines (lines : List String) (left : Option Nat) (charged : ℚ) :
    (writeLines lines).play meter ⟨left, charged⟩ =
      (.ok (takes left lines.length), ⟨after left lines.length, charged⟩) := by
  induction lines generalizing left with
  | nil => cases left <;> rfl
  | cons line rest ih =>
    cases left with
    | none => exact ih none
    | some n =>
      cases n with
      | zero =>
        show (Except.ok false, (⟨some 0, charged⟩ : Connection)) = _
        simp [takes, after]
      | succ n =>
        have hrest := ih (some n)
        show (writeLines rest).play meter ⟨some n, charged⟩ = _
        simp [takes, after, hrest]

/-- One line: it is folded, and the loop goes on while the caller takes what is written for
it. -/
theorem play_relayLines (adapter : Adapter) (lines : List String) :
    ∀ (translator : Option Translator) (usage : Usage) (left : Option Nat) (charged : ℚ),
      ∃ left', (relayLines adapter translator usage lines).play meter ⟨left, charged⟩ =
        (.ok ((readUntil translator lines left).foldl (foldUsage adapter) usage),
          ⟨left', charged⟩) := by
  induction lines with
  | nil =>
    intro translator usage left charged
    exact ⟨_, play_bind_ok (play_writeLines _ left charged)⟩
  | cons line rest ih =>
    intro translator usage left charged
    have hwritten := play_writeLines (relayLine line translator).2 left charged
    by_cases htakes : takes left (relayLine line translator).2.length = true
    · obtain ⟨left', hrest⟩ := ih (relayLine line translator).1 (foldUsage adapter usage line)
        (after left (relayLine line translator).2.length) charged
      refine ⟨left', (play_bind_ok hwritten).trans ?_⟩
      rw [if_pos htakes, hrest, readUntil, if_pos htakes, List.foldl_cons]
    · refine ⟨after left (relayLine line translator).2.length,
        (play_bind_ok hwritten).trans ?_⟩
      rw [if_neg htakes, readUntil, if_neg htakes]
      rfl

section Settle

variable (provider : Provider) (ns workload modelID : String) (usage : Usage)
  (settle : Option Settle) (left : Option Nat)

theorem play_settleZero :
    (settleZero settle).play meter ⟨left, 0⟩ = (.ok (), ⟨left, 0⟩) := by
  cases settle with
  | none => rfl
  | some handle => exact play_perform (by simp [meter])

theorem play_settleUsage :
    (settleUsage provider ns workload modelID usage settle).play meter ⟨left, 0⟩ =
      (.ok (), ⟨left, costOf provider modelID usage⟩) := by
  cases settle with
  | none | some => exact play_perform (by simp [meter])

theorem play_settleStream :
    (settleStream provider ns workload modelID usage settle).play meter ⟨left, 0⟩ =
      (.ok (), ⟨left, costOf provider modelID usage⟩) := by
  unfold settleStream
  split_ifs with hzero
  · rw [costOf_of_isZero provider modelID hzero, play_settleZero]
  · exact play_settleUsage _ _ _ _ _ _ _

end Settle

/-! ## Charges -/

section Charge

variable (resp : UpstreamResponse) (adapter : Adapter) (translator : Option Translator)
  (ns workload : String) (provider : Provider) (modelID : String) (settle : Option Settle)

/-- What a stream is charged when the caller takes so many writes. -/
def streamCharge (left : Option Nat) : ℚ :=
  ((relayStream resp adapter translator ns workload provider modelID settle).play meter
    ⟨left, 0⟩).2.charged

theorem streamCharge_eq (left : Option Nat) :
    streamCharge resp adapter translator ns workload provider modelID settle left =
      costOf provider modelID
        (usageOf adapter (readUntil translator (scanLines resp.body) left)) := by
  obtain ⟨left', hlines⟩ := play_relayLines adapter (scanLines resp.body) translator {} left 0
  have hsettled := play_settleStream provider ns workload modelID
    (usageOf adapter (readUntil translator (scanLines resp.body) left)) settle left'
  unfold usageOf at hsettled ⊢
  unfold streamCharge relayStream
  rw [play_bind_ok hlines, play_bind_ok hsettled, play_pure]

end Charge

/-- The lines that are left unread when the caller takes so many writes. -/
def unread (translator : Option Translator) (lines : List String) (writes : Nat) : List String :=
  lines.drop (readUntil translator lines (some writes)).length

/-- The last count that the unread lines set, if they set one, is the one in force. -/
def KeepsCount (adapter : Adapter) (count : Usage → Int) (translator : Option Translator)
    (lines : List String) (writes : Nat) : Prop :=
  ∀ n, lastCount adapter count (unread translator lines writes) = some n →
    n = (lastCount adapter count (readUntil translator lines (some writes))).getD 0

def pricedAt (input output : String) : Provider :=
  { cappedProvider .openai with models := [⟨"m", none, input, output⟩] }

theorem costOf_pricedAt (usage : Usage) :
    costOf (pricedAt "1000000" "0") "m" usage = usage.inputTokens ∧
      costOf (pricedAt "0" "1000000") "m" usage = usage.outputTokens := by
  have hmillion : parseAmount "1000000" = some 1000000 := by decide +kernel
  have hzero : parseAmount "0" = some 0 := by decide +kernel
  simp [costOf, pricedAt, hmillion, hzero]

theorem costOf_congr {usage usage' : Usage} (hin : usage.inputTokens = usage'.inputTokens)
    (hout : usage.outputTokens = usage'.outputTokens) (provider : Provider) (modelID : String) :
    costOf provider modelID usage = costOf provider modelID usage' := by
  unfold costOf
  rw [hin, hout]

/-- A caller that hangs up is charged as one that stays, whatever the prices, exactly when the
lines after the one whose write fails end on the counts that were in force: so it is where none
of them sets a count. -/
theorem hangup_charge_iff (resp : UpstreamResponse) (adapter : Adapter)
    (translator : Option Translator) (writes : Nat) :
    (∀ ns workload provider modelID settle,
      streamCharge resp adapter translator ns workload provider modelID settle (some writes) =
        streamCharge resp adapter translator ns workload provider modelID settle none) ↔
      KeepsCount adapter Usage.inputTokens translator (scanLines resp.body) writes ∧
        KeepsCount adapter Usage.outputTokens translator (scanLines resp.body) writes := by
  have hsplit : readUntil translator (scanLines resp.body) (some writes) ++
      unread translator (scanLines resp.body) writes = scanLines resp.body :=
    List.prefix_iff_eq_append.mp (readUntil_isPrefix _ _ _)
  have hin := count_usageOf_append_iff (fun line => (foldUsage_setsOrLeaves adapter line).1)
    (by decide)
    (readUntil translator (scanLines resp.body) (some writes))
    (unread translator (scanLines resp.body) writes)
  have hout := count_usageOf_append_iff (fun line => (foldUsage_setsOrLeaves adapter line).2)
    (by decide)
    (readUntil translator (scanLines resp.body) (some writes))
    (unread translator (scanLines resp.body) writes)
  rw [hsplit] at hin hout
  simp only [streamCharge_eq, readUntil_none]
  constructor
  · -- two catalogs tell the counts apart
    intro h
    have hinput := h "" "" (pricedAt "1000000" "0") "m" none
    have houtput := h "" "" (pricedAt "0" "1000000") "m" none
    rw [(costOf_pricedAt _).1, (costOf_pricedAt _).1] at hinput
    rw [(costOf_pricedAt _).2, (costOf_pricedAt _).2] at houtput
    exact ⟨hin.mp (by exact_mod_cast hinput), hout.mp (by exact_mod_cast houtput)⟩
  · rintro ⟨hinput, houtput⟩ - - provider modelID -
    exact costOf_congr (hin.mpr hinput) (hout.mpr houtput) provider modelID

/-- An OpenAI-format stream: a chunk, and the usage of a million prompt tokens. -/
def lateUsage : UpstreamResponse where
  status := 200
  header := ∅
  body :=
    "data: \x7b\"choices\":[]\x7d\ndata: \x7b\"usage\":\x7b\"prompt_tokens\":1000000\x7d\x7d\n"
  cut := false

/-- A caller that hangs up at the first chunk pays nothing. -/
theorem hangup_is_free :
    streamCharge lateUsage .openai none "team" "Agent/a" (cappedProvider .openai) "m" none none =
      1 ∧
      streamCharge lateUsage .openai none "team" "Agent/a" (cappedProvider .openai) "m" none
        (some 0) = 0 := by
  decide +kernel

end Kaalm.Gateway
