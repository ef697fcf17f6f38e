/-
  Controller/Refund.lean --- recorded spend inside a period.

  What is booked for an answer is its tokens at the prices of its model, so the own
  counter of a namespace falls just where that is negative.  Nothing rules it out:
  `validateHardPricing` asks for prices that parse, and the adapters take the token
  counts of an upstream as they are.  `spend_never_falls` is what holds while neither a
  price nor a count is negative.
-/
import Kaalm.Controller.Objects
import Kaalm.Gateway.Slots
import Kaalm.Gateway.StreamCharge

namespace Kaalm.Controller

open Kaalm.Foundation Kaalm.Gateway

/-- The error of `strconv.ParseFloat`. -/
def parseFails (text : String) : Bool :=
  match parseFloat text with
  | none | some (.range _) => true
  | _ => false

def validateHardPricing (mp : Provider) : List String :=
  if mp.budget.enforcement ≠ .hard then []
  else mp.models.filterMap fun m =>
    if parseFails m.costPer1MInputTokens || parseFails m.costPer1MOutputTokens then
      some ("model " ++ quoted m.id ++
        " is unpriced; hard budget enforcement requires a fully priced catalog (rule 33)")
    else none

/-! ## What an answer is charged -/

/-- A 2xx answer of an upstream: a body, or an event stream and the writes its caller takes. -/
inductive Answer where
  | buffered (body : String)
  | streamed (resp : UpstreamResponse) (translator : Option Translator) (left : Option Nat)

section Answer

variable (mp : Provider)

def Answer.usage : Answer → Usage
  | .buffered body => ((adapterForProviderType mp.type).extractUsage body).getD {}
  | .streamed resp translator left =>
    usageOf (adapterForProviderType mp.type) (readUntil translator (scanLines resp.body) left)

variable (ns workload modelID : String) (settle : Option Settle)

def Answer.charge : Answer → ℚ
  | .buffered body =>
    ((settleBuffered mp ns workload modelID body settle).play meter ⟨none, 0⟩).2.charged
  | .streamed resp translator left =>
    streamCharge resp (adapterForProviderType mp.type) translator ns workload mp modelID settle left

theorem Answer.charge_eq (answer : Answer) :
    answer.charge mp ns workload modelID settle = costOf mp modelID (answer.usage mp) := by
  cases answer with
  | streamed resp translator left => exact streamCharge_eq _ _ _ _ _ _ _ _ _
  | buffered body =>
    rw [Answer.charge, Answer.usage, settleBuffered]
    cases (adapterForProviderType mp.type).extractUsage body with
    | none => rw [play_settleZero, Option.getD_none, costOf_of_isZero mp modelID rfl]
    | some usage => rw [play_settleUsage, Option.getD_some]

end Answer

/-! ## Signs -/

/-- Every price that can be read is a number, and not negative. -/
def NonnegPrices (mp : Provider) : Prop :=
  ∀ m ∈ mp.models, ∀ text ∈ [m.costPer1MInputTokens, m.costPer1MOutputTokens], ∀ f,
    parseFloat text = some f → ∃ q, f = .finite q ∧ 0 ≤ q

/-- Everything that is booked for the provider is what an answer is charged, and the answer
reports no negative count. -/
def BooksAnswers (mp : Provider) (s : LedgerState) (e : LedgerEvent) : Prop :=
  ∀ call ∈ spendCalls s e, call.provider = mp.name →
    ∃ (answer : Answer) (ns workload modelID : String) (settle : Option Settle),
      call.cost = answer.charge mp ns workload modelID settle ∧
      0 ≤ (answer.usage mp).inputTokens ∧ 0 ≤ (answer.usage mp).outputTokens

section Signs

variable {mp : Provider} (hhard : mp.budget.enforcement = .hard)
  (hvalid : validateHardPricing mp = []) (hprices : NonnegPrices mp)
include hhard hvalid hprices

theorem exists_price {m : ProviderModel} (hm : m ∈ mp.models) {text : String}
    (htext : text ∈ [m.costPer1MInputTokens, m.costPer1MOutputTokens]) :
    ∃ q, parseAmount text = some q ∧ 0 ≤ q := by
  have hpass : parseFails text = false := by
    have hnone := List.filterMap_eq_nil_iff.mp
      ((if_neg (not_not.mpr hhard)).symm.trans hvalid) m hm
    simp only [ite_eq_right_iff, reduceCtorEq, imp_false, Bool.or_eq_true, not_or,
      Bool.not_eq_true] at hnone
    simp only [List.mem_cons, List.not_mem_nil, or_false] at htext
    rcases htext with rfl | rfl
    · exact hnone.1
    · exact hnone.2
  cases hparse : parseFloat text with
  | none => simp [parseFails, hparse] at hpass
  | some f =>
    obtain ⟨q, rfl, hq⟩ := hprices m hm text htext f hparse
    exact ⟨q, by rw [parseAmount, hparse], hq⟩

theorem costOf_nonneg (modelID : String) {usage : Usage} (hin : 0 ≤ usage.inputTokens)
    (hout : 0 ≤ usage.outputTokens) : 0 ≤ costOf mp modelID usage := by
  unfold costOf
  cases hfind : mp.models.find? fun m => m.id = modelID with
  | none => exact le_rfl
  | some m =>
    have hm := List.mem_of_find?_eq_some hfind
    obtain ⟨input, hinput, hin'⟩ := exists_price hhard hvalid hprices hm (List.mem_cons_self ..)
    obtain ⟨output, houtput, hout'⟩ := exists_price hhard hvalid hprices hm
      (List.mem_cons_of_mem _ (List.mem_cons_self ..))
    simp only [hinput, houtput]
    have hin'' : (0 : ℚ) ≤ usage.inputTokens := by exact_mod_cast hin
    have hout'' : (0 : ℚ) ≤ usage.outputTokens := by exact_mod_cast hout
    positivity

theorem own_step {σ : PeriodScheme} {s s' : LedgerState} {e : LedgerEvent} {u : Time}
    (hc : Coherent mp.name σ s) (hs : SameScheme mp.name σ s e) (he : BooksAnswers mp s e)
    (hst : ledgerStep s e = some s') (hu : s'.now ≤ u) (ns : String) :
    (s.view mp.name σ u).own.at0 ns ≤ (s'.view mp.name σ u).own.at0 ns := by
  rcases (step_reads hc hs hst hu).spent with hspent | ⟨-, hsame⟩
  · have hpos : 0 ≤ spentIn (spendCalls s e) mp.name ns σ u := by
      refine List.sum_nonneg fun x hx => ?_
      obtain ⟨call, hcall, rfl⟩ := List.mem_map.mp hx
      obtain ⟨hmem, hmatch⟩ := List.mem_filter.mp hcall
      obtain ⟨answer, ns', workload, modelID, settle, hcost, hin, hout⟩ :=
        he call hmem (of_decide_eq_true hmatch).1
      rw [hcost, Answer.charge_eq]
      exact costOf_nonneg hhard hvalid hprices modelID hin hout
    rw [hspent]
    linarith
  · rw [hsame]

end Signs

/-- In every run that books answers without a negative count, at prices of which none is
negative, the recorded spend of every namespace at a reading is at least what it was at any
earlier one of the period. -/
theorem spend_never_falls (mp : Provider) (hhard : mp.budget.enforcement = .hard)
    (hvalid : validateHardPricing mp = []) (hprices : NonnegPrices mp) {t : Time}
    {es₀ es : List LedgerEvent} {s s' : LedgerState}
    (hstart : Run ledgerStep (SameScheme mp.name mp.budget.period) (.initial t) es₀ s)
    (hrun : Run ledgerStep (fun s e => SameScheme mp.name mp.budget.period s e ∧
      BooksAnswers mp s e) s es s') {v u : Time} (hu : s'.now ≤ u)
    (hperiod : periodKey mp.budget.period v = periodKey mp.budget.period u) (ns : String) :
    (s.view mp.name mp.budget.period v).own.at0 ns ≤
      (s'.view mp.name mp.budget.period u).own.at0 ns := by
  have hcoherent : Coherent mp.name mp.budget.period s :=
    hstart.invariant (I := Coherent mp.name mp.budget.period)
      (fun x e x' hx hg hst => coherent_step hx hg hst) (coherent_initial _ _ _)
  -- the counter as the last reading finds it
  refine (hrun.invariant (I := fun x => Coherent mp.name mp.budget.period x ∧ (x.now ≤ u →
    (s.view mp.name mp.budget.period v).own.at0 ns ≤
      (x.view mp.name mp.budget.period u).own.at0 ns)) ?_ ⟨hcoherent, fun _ => ?_⟩).2 hu
  · rintro x e x' ⟨hx, hle⟩ ⟨hs, he⟩ hst
    refine ⟨coherent_step hx hs hst, fun hu' => ?_⟩
    exact (hle ((step_now_le hst).trans hu')).trans
      (own_step hhard hvalid hprices hx hs he hst hu' ns)
  · rw [LedgerState.view, s.ledger.ledgerFor_eq_of_key mp.name hperiod, LedgerState.view]

/-! ## A refund -/

/-- An answer in OpenAI format that reports so many prompt tokens. -/
def promptAnswer (tokens : String) : Answer :=
  .buffered ("\x7b\"usage\":\x7b\"prompt_tokens\":" ++ tokens ++ ",\"completion_tokens\":0\x7d\x7d")

def booking (cost : ℚ) (t : Time) : LedgerEvent :=
  .add (cappedProvider .openai).toModelProvider "team" "agent/a" cost (.still t)

def cappedCharge (answer : Answer) : ℚ :=
  answer.charge (cappedProvider .openai) "team" "agent/a" "m" none

/-- Seven dollars are spent, and then an upstream gives a million tokens back. -/
theorem upstream_refunds_spend :
    validateHardPricing (cappedProvider .openai) = [] ∧
      (promptAnswer "-1000000").usage (cappedProvider .openai) = ⟨-1000000, 0, []⟩ ∧
      cappedCharge (promptAnswer "7000000") = 7 ∧ cappedCharge (promptAnswer "-1000000") = -1 ∧
      (exec ledgerStep (.initial march2026) [booking 7 march2026]).map (fun s =>
        (s.view "openai" .monthly march2026).own.at0 "team") = some 7 ∧
      (exec ledgerStep (.initial march2026)
        [booking 7 march2026, booking (-1) (march2026 + 1)]).map (fun s =>
        (s.view "openai" .monthly (march2026 + 1)).own.at0 "team") = some 6 := by
  refine ⟨?_, ?_, ?_, ?_, ?_, ?_⟩ <;> decide +kernel

theorem cappedProvider_nonnegPrices : NonnegPrices (cappedProvider .openai) := by
  have hone : parseFloat "1" = some (.finite 1) := by decide +kernel
  have htwo : parseFloat "2" = some (.finite 2) := by decide +kernel
  intro m hm text htext f hf
  simp only [cappedProvider, List.mem_singleton] at hm
  subst hm
  simp only [List.mem_cons, List.not_mem_nil, or_false] at htext
  rcases htext with rfl | rfl
  · exact ⟨1, Option.some.inj (hf.symm.trans hone), by norm_num⟩
  · exact ⟨2, Option.some.inj (hf.symm.trans htwo), by norm_num⟩

/-- Seven dollars are recorded, and no less than before. -/
theorem spend_never_falls_capped :
    ∃ s, ledgerStep (.initial march2026) (booking 7 march2026) = some s ∧
      (s.view "openai" .monthly march2026).own.at0 "team" = 7 ∧
      ((LedgerState.initial march2026).view "openai" .monthly march2026).own.at0 "team" ≤
        (s.view "openai" .monthly march2026).own.at0 "team" := by
  have hseven : (ledgerStep (.initial march2026) (booking 7 march2026)).map
      (fun s => (s.view "openai" .monthly march2026).own.at0 "team") = some 7 := by decide +kernel
  obtain ⟨s, hs, hspent⟩ := Option.map_eq_some_iff.mp hseven
  have hcharge : (7 : ℚ) = cappedCharge (promptAnswer "7000000") := by decide +kernel
  have hbooks : BooksAnswers (cappedProvider .openai) (.initial march2026)
      (booking 7 march2026) := by
    intro call hcall _
    rw [List.mem_singleton.mp hcall]
    exact ⟨promptAnswer "7000000", "team", "agent/a", "m", none, hcharge, by decide +kernel,
      by decide +kernel⟩
  have hscheme : SameScheme "openai" .monthly (.initial march2026) (booking 7 march2026) :=
    fun _ => rfl
  have hnow : s.now = march2026 := (step_reading rfl hs).2
  exact ⟨s, hs, hspent, spend_never_falls (cappedProvider .openai) rfl (by decide +kernel)
    cappedProvider_nonnegPrices (.nil (LedgerState.initial march2026))
    (.cons ⟨hscheme, hbooks⟩ hs (.nil s)) hnow.le rfl "team"⟩

end Kaalm.Controller
