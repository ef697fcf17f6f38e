/-
  Gateway/BudgetCap.lean --- when a hard block threshold is a cap.

  The ladder lets the single highest threshold reached decide, the boundary code
  defends the lowest block threshold.  The two agree exactly when every policy
  threshold from the lowest block upward is headed by a block policy: of two
  policies at one threshold the first listed wins.

  `hard_cap_iff` is that equivalence over every provider the API schema accepts
  and every ledger state.
-/
import Kaalm.Gateway.Admission
import Mathlib.Data.Int.ConditionallyCompleteOrder

namespace Kaalm.Gateway

open Kaalm.Foundation

/-! ## The ladder -/

variable {policies : List BudgetPolicy} {worst : ℚ}

/-- The winner is the first of the highest thresholds reached. -/
theorem ladder_eq_argmax (policies : List BudgetPolicy) (worst : ℚ) :
    ladder policies worst =
      (policies.filter fun p => (p.atPercent : ℚ) ≤ worst).argmax BudgetPolicy.atPercent := by
  unfold ladder List.argmax
  rw [List.foldl_filter]
  congr 1
  funext w p
  cases w <;> simp [ladderStep, List.argAux]

/-- The winner is reached, is the highest threshold reached, and is the first
policy listed at its threshold. -/
theorem ladder_spec {q : BudgetPolicy} (h : ladder policies worst = some q) :
    (q.atPercent : ℚ) ≤ worst ∧
      (∀ p ∈ policies, (p.atPercent : ℚ) ≤ worst → p.atPercent ≤ q.atPercent) ∧
      policies.find? (fun p => p.atPercent = q.atPercent) = some q := by
  rw [ladder_eq_argmax, List.argmax_eq_some_iff] at h
  obtain ⟨hmem, hmax, hfirst⟩ := h
  have hreached : (q.atPercent : ℚ) ≤ worst := of_decide_eq_true (List.mem_filter.mp hmem).2
  refine ⟨hreached, fun p hp hle => hmax p (List.mem_filter.mpr ⟨hp, decide_eq_true hle⟩), ?_⟩
  have hfind : (policies.filter fun p => (p.atPercent : ℚ) ≤ worst).find?
      (fun p => p.atPercent = q.atPercent) = some q := by
    obtain ⟨before, after, heq, hnot⟩ := List.eq_append_cons_of_mem hmem
    rw [heq] at hfirst ⊢
    refine List.find?_eq_some_iff_append.mpr ⟨decide_eq_true rfl, before, after, rfl, fun p hp =>
      ?_⟩
    have hindex := hfirst p (List.mem_append_left _ hp)
    rw [List.idxOf_append_of_notMem hnot, List.idxOf_append_of_mem hp] at hindex
    have := List.idxOf_lt_length_of_mem hp
    simp only [Bool.not_eq_true', decide_eq_false_iff_not]
    intro hsame
    omega
  rw [← hfind, List.find?_filter]
  congr 1
  funext p
  by_cases hp : p.atPercent = q.atPercent
  · simp [hp, hreached]
  · simp [hp]

variable {p : BudgetPolicy}

theorem ladder_isSome (hp : p ∈ policies) (hr : (p.atPercent : ℚ) ≤ worst) :
    ∃ q, ladder policies worst = some q := by
  cases h : ladder policies worst with
  | none =>
    rw [ladder_eq_argmax, List.argmax_eq_none, List.filter_eq_nil_iff] at h
    exact absurd (decide_eq_true hr) (h p hp)
  | some q => exact ⟨q, rfl⟩

theorem ladder_at_threshold (hp : p ∈ policies) :
    ladder policies p.atPercent = policies.find? (fun r => r.atPercent = p.atPercent) := by
  obtain ⟨q, hq⟩ := ladder_isSome hp (le_refl (p.atPercent : ℚ))
  obtain ⟨hle, hmax, hfirst⟩ := ladder_spec hq
  have heq : q.atPercent = p.atPercent := le_antisymm (by exact_mod_cast hle) (hmax p hp le_rfl)
  rw [hq, ← hfirst, heq]

/-! ## The lowest block threshold -/

variable {budget : ModelProviderBudget}

theorem le_minBlockAt_iff {x : ℚ} : x ≤ minBlockAt budget ↔
    x ≤ 101 ∧ ∀ p ∈ budget.policies, p.action = .block → x ≤ p.atPercent := by
  unfold minBlockAt
  generalize (101 : ℚ) = acc
  induction budget.policies generalizing acc with
  | nil => simp
  | cons p ps ih => grind

theorem minBlockAt_le (hp : p ∈ budget.policies) (hb : p.action = .block) :
    minBlockAt budget ≤ p.atPercent :=
  (le_minBlockAt_iff.mp le_rfl).2 p hp hb

theorem minBlockAt_mem (hacc : budget.Accepted) (hhard : budget.enforcement = .hard) :
    ∃ p ∈ budget.policies, p.action = .block ∧ (p.atPercent : ℚ) = minBlockAt budget := by
  obtain ⟨p, hp, hb⟩ := hacc.rule32 hhard
  cases hq : (budget.policies.filter (·.action = .block)).argmin BudgetPolicy.atPercent with
  | none =>
    rw [List.argmin_eq_none, List.filter_eq_nil_iff] at hq
    exact absurd (decide_eq_true hb) (hq p hp)
  | some q =>
    obtain ⟨hmem, hblock⟩ := List.mem_filter.mp (List.argmin_mem hq)
    refine ⟨q, hmem, of_decide_eq_true hblock, le_antisymm (le_minBlockAt_iff.mpr ⟨?_, ?_⟩)
      (minBlockAt_le hmem (of_decide_eq_true hblock))⟩
    · exact_mod_cast (hacc.atPercent q hmem).2.trans (by decide)
    · intro p hp hb
      exact_mod_cast List.le_of_mem_argmin (List.mem_filter.mpr ⟨hp, decide_eq_true hb⟩) hq

/-! ## Utilization -/

variable {c : ℚ}

def Ceiling.usd? : Ceiling → Option ℚ
  | .usd c => some c
  | .infinite => none

def ModelProviderBudget.nsFinite (budget : ModelProviderBudget) : Option ℚ :=
  budget.nsCeiling.bind Ceiling.usd?

def ModelProviderBudget.clFinite (budget : ModelProviderBudget) : Option ℚ :=
  budget.clCeiling.bind Ceiling.usd?

theorem ceilingOf_pos {text : String} (h : (ceilingOf text).bind Ceiling.usd? = some c) :
    0 < c := by
  unfold ceilingOf at h
  split at h
  · split_ifs at h with hpos
    · rw [← Option.some.inj h]
      exact hpos
    · cases h
  · cases h
  · cases h

theorem nsFinite_pos (h : budget.nsFinite = some c) : 0 < c := ceilingOf_pos h

theorem clFinite_pos (h : budget.clFinite = some c) : 0 < c := by
  obtain ⟨ceiling, hceiling, hfinite⟩ := Option.bind_eq_some_iff.mp h
  obtain ⟨text, _, htext⟩ := Option.bind_eq_some_iff.mp hceiling
  exact ceilingOf_pos (by rw [htext, Option.bind_some, hfinite])

theorem isSome_of_clFinite (h : budget.clFinite = some c) : budget.clCeiling.isSome := by
  obtain ⟨ceiling, hceiling, _⟩ := Option.bind_eq_some_iff.mp h
  rw [hceiling]
  rfl

/-- Percent of a finite ceiling used, zero without one. -/
def pctOf (ceiling : Option ℚ) (spent : ℚ) : ℚ :=
  match ceiling with
  | some c => spent / c * 100
  | none => 0

theorem Ceiling.percent_eq (ceiling : Ceiling) (spent : ℚ) :
    ceiling.percent spent = pctOf ceiling.usd? spent := by
  cases ceiling <;> rfl

theorem pctOf_mono {ceiling : Option ℚ} (hpos : ∀ c, ceiling = some c → 0 < c) {a b : ℚ}
    (h : a ≤ b) : pctOf ceiling a ≤ pctOf ceiling b := by
  cases ceiling with
  | none => exact le_rfl
  | some c =>
    have hc := hpos c rfl
    simp only [pctOf]
    gcongr

section Utilization

variable (budget : ModelProviderBudget) (l : ProviderLedger) (ns : String)

theorem utilization_ceilings :
    let u := utilizationLocked budget l ns
    u.nsPct = pctOf budget.nsFinite (l.spent ns) ∧ u.nsUSD = budget.nsCeiling ∧
      u.clPct = pctOf budget.clFinite l.clusterSpent ∧ u.clUSD = budget.clCeiling := by
  unfold utilizationLocked ModelProviderBudget.nsFinite ModelProviderBudget.clFinite
  cases budget.clCeiling with
  | none => cases budget.nsCeiling <;> simp [Ceiling.percent_eq, pctOf]
  | some c =>
    cases budget.nsCeiling <;> simp only [] <;> split_ifs <;> simp [Ceiling.percent_eq, pctOf]

/-- The worse of the two ratios; the cluster ratio counts when that ceiling is
in force. -/
theorem utilization_worst :
    (utilizationLocked budget l ns).worst =
      if budget.clCeiling.isSome then
        max (pctOf budget.nsFinite (l.spent ns)) (pctOf budget.clFinite l.clusterSpent)
      else pctOf budget.nsFinite (l.spent ns) := by
  unfold utilizationLocked ModelProviderBudget.nsFinite ModelProviderBudget.clFinite
  cases budget.clCeiling with
  | none => cases budget.nsCeiling <;> simp [Ceiling.percent_eq, pctOf]
  | some c =>
    rw [if_pos (show (some c).isSome = true from rfl)]
    cases budget.nsCeiling <;> simp only [] <;> split_ifs with hgt
    all_goals simp only [Option.bind_some, Option.bind_none, Ceiling.percent_eq, pctOf] at hgt ⊢
    all_goals first
      | exact (max_eq_right (le_of_lt hgt)).symm
      | exact (max_eq_left (not_lt.mp hgt)).symm

end Utilization

/-- One ledger has spent no more than another, against both ceilings. -/
structure SpendLE (l l' : ProviderLedger) (ns : String) : Prop where
  ns : l.spent ns ≤ l'.spent ns
  cluster : l.clusterSpent ≤ l'.clusterSpent

variable {l l' : ProviderLedger} {ns : String}

theorem utilization_mono (budget : ModelProviderBudget) (h : SpendLE l l' ns) :
    let u := utilizationLocked budget l ns
    let u' := utilizationLocked budget l' ns
    u.worst ≤ u'.worst ∧ u.nsPct ≤ u'.nsPct ∧ u.clPct ≤ u'.clPct ∧
      u.nsUSD = u'.nsUSD ∧ u.clUSD = u'.clUSD := by
  have hns := pctOf_mono (fun c hc => @nsFinite_pos budget c hc) h.ns
  have hcl := pctOf_mono (fun c hc => @clFinite_pos budget c hc) h.cluster
  obtain ⟨h₁, h₂, h₃, h₄⟩ := utilization_ceilings budget l ns
  obtain ⟨k₁, k₂, k₃, k₄⟩ := utilization_ceilings budget l' ns
  refine ⟨?_, ?_, ?_, h₂.trans k₂.symm, h₄.trans k₄.symm⟩
  · rw [utilization_worst, utilization_worst]
    split_ifs
    · exact max_le_max hns hcl
    · exact hns
  · rw [h₁, k₁]
    exact hns
  · rw [h₃, k₃]
    exact hcl

def ModelProviderBudget.hasCeiling (budget : ModelProviderBudget) : Bool :=
  budget.nsFinite.isSome || budget.clFinite.isSome

theorem worst_eq_zero (h : budget.hasCeiling = false) (l : ProviderLedger) (ns : String) :
    (utilizationLocked budget l ns).worst = 0 := by
  simp only [ModelProviderBudget.hasCeiling, Bool.or_eq_false_iff,
    Option.isSome_eq_false_iff, Option.isNone_iff_eq_none] at h
  rw [utilization_worst, h.1, h.2]
  simp [pctOf]

/-! ## The cap -/

/-- At every policy threshold from the lowest block upward that utilization can
reach, the first policy listed is a block, and budget tracking is on.  Without a
finite ceiling in force utilization stays at zero. -/
def ModelProviderBudget.CapLadder (budget : ModelProviderBudget) : Prop :=
  budget.hasCeiling = true ∨ minBlockAt budget ≤ 0 →
    budget.period ≠ .none ∧
      ∀ p ∈ budget.policies, minBlockAt budget ≤ p.atPercent →
        budget.hasCeiling = true ∨ p.atPercent ≤ 0 →
        ∃ q, budget.policies.find? (fun r => r.atPercent = p.atPercent) = some q ∧
          q.action = .block

/-- `Admit` refuses whenever the worse utilization is at or above the lowest
block threshold. -/
def RefusesAtCap (provider : ModelProvider) : Prop :=
  ∀ (b : BudgetLedger) (ns workload : String) (clock : Clock) (wall : Time),
    minBlockAt provider.budget ≤ (utilizationLocked provider.budget
      (b.ledgerFor provider.name provider.budget.period clock.t1) ns).worst →
    (b.admitRequest provider ns workload clock wall).decision.admitted = false

/-- Raising spend turns no refusal into an admission. -/
def RefusalMonotone (provider : ModelProvider) : Prop :=
  ∀ (b : BudgetLedger) (ns workload : String) (clock : Clock) (wall : Time)
    (own peers : GoMap String ℚ),
    let l := b.ledgerFor provider.name provider.budget.period clock.t1
    let l' := { l with own := own, peers := peers }
    SpendLE l l' ns →
    (b.admitRequest provider ns workload clock wall).decision.admitted = false →
    ((b.put provider.name l').admitRequest provider ns workload clock wall).decision.admitted =
      false

theorem decideBudget_action (budget : ModelProviderBudget) (u : Utilization) (now wall : Time) :
    (decideBudget budget u now wall).action = (ladder budget.policies u.worst).map (·.action) := by
  unfold decideBudget
  cases ladder budget.policies u.worst with
  | none => rfl
  | some w => cases hw : w.action <;> simp [hw]

theorem block_of_capLadder (hacc : budget.Accepted) (hhard : budget.enforcement = .hard)
    (hcap : budget.CapLadder) (now wall : Time)
    (h : minBlockAt budget ≤ (utilizationLocked budget l ns).worst) :
    budget.period ≠ .none ∧
      (decideBudget budget (utilizationLocked budget l ns) now wall).action = some .block := by
  obtain ⟨p, hp, hpb, hpe⟩ := minBlockAt_mem hacc hhard
  obtain ⟨q, hq⟩ := ladder_isSome hp (hpe ▸ h)
  obtain ⟨hreach, hmax, hfirst⟩ := ladder_spec hq
  have hBq : minBlockAt budget ≤ q.atPercent := by
    rw [← hpe]
    exact_mod_cast hmax p hp (hpe ▸ h)
  have hlow : budget.hasCeiling = true ∨ q.atPercent ≤ 0 := by
    cases hc : budget.hasCeiling with
    | true => exact Or.inl rfl
    | false =>
      rw [worst_eq_zero hc] at hreach
      exact Or.inr (by exact_mod_cast hreach)
  have hlow' : budget.hasCeiling = true ∨ minBlockAt budget ≤ 0 :=
    hlow.imp_right fun h0 => hBq.trans (by exact_mod_cast h0)
  obtain ⟨hperiod, hall⟩ := hcap hlow'
  obtain ⟨q', hq', hblock⟩ := hall q (List.mem_of_find?_eq_some hfirst) hBq hlow
  have hsame : q' = q := Option.some.inj (hq'.symm.trans hfirst)
  refine ⟨hperiod, ?_⟩
  rw [decideBudget_action, hq, Option.map_some, ← hsame, hblock]

theorem minBlockAt_le_of_block {u : Utilization} {now wall : Time}
    (h : (decideBudget budget u now wall).action = some .block) :
    minBlockAt budget ≤ u.worst := by
  rw [decideBudget_action] at h
  obtain ⟨q, hq, hqa⟩ := Option.map_eq_some_iff.mp h
  obtain ⟨hreach, _, hfirst⟩ := ladder_spec hq
  exact (minBlockAt_le (List.mem_of_find?_eq_some hfirst) hqa).trans hreach

variable {provider : ModelProvider}

theorem hardActive_of_accepted (hacc : provider.budget.Accepted)
    (hhard : provider.budget.enforcement = .hard) : hardActive provider = true := by
  obtain ⟨p, hp, hpb⟩ := hacc.rule32 hhard
  simp only [hardActive, hhard, decide_true, Bool.true_and, List.any_eq_true,
    decide_eq_true_eq]
  exact ⟨p, hp, hpb⟩

/-! ## Reaching a threshold exactly -/

def ModelProviderBudget.tightest (budget : ModelProviderBudget) : ℚ :=
  match budget.nsFinite, budget.clFinite with
  | some c, some c' => min c c'
  | some c, none => c
  | none, some c => c
  | none, none => 0

/-- A provider ledger that has spent `x` in one namespace and has just been
folded. -/
def spentLedger (period ns : String) (x : ℚ) (t : Time) : ProviderLedger :=
  { ProviderLedger.new period with own := (∅ : GoMap String ℚ).addTo ns x, lastFoldOK := some t }

def spentState (provider : ModelProvider) (ns : String) (x : ℚ) (t : Time) : BudgetLedger :=
  newBudgetLedger.put provider.name (spentLedger (periodKey provider.budget.period t) ns x t)

variable {v : ℚ}

/-- Spending the fraction `v / 100` of the tightest ceiling puts utilization at
exactly `v`. -/
theorem worst_spentLedger (hc : budget.hasCeiling = true) (period ns : String) (hv : 0 ≤ v)
    (t : Time) :
    (utilizationLocked budget (spentLedger period ns (v / 100 * budget.tightest) t) ns).worst
      = v := by
  have hspent : ∀ x, (spentLedger period ns x t).spent ns = x := by
    simp [spentLedger, ProviderLedger.spent, ProviderLedger.new]
  have hcluster : ∀ x, (spentLedger period ns x t).clusterSpent = x := by
    intro x
    simp [spentLedger, ProviderLedger.clusterSpent, ProviderLedger.new, GoMap.addTo,
      GoMap.total, AList.insert]
  have hfull : ∀ c : ℚ, 0 < c → v / 100 * c / c * 100 = v := by
    intro c hpos
    field_simp
  have hpart : ∀ c m : ℚ, 0 < c → m ≤ c → v / 100 * m / c * 100 ≤ v := by
    intro c m hpos hm
    calc v / 100 * m / c * 100 ≤ v / 100 * c / c * 100 := by gcongr
      _ = v := hfull c hpos
  rw [utilization_worst, hspent, hcluster]
  unfold ModelProviderBudget.tightest
  cases hn : budget.nsFinite with
  | none =>
    cases hcl : budget.clFinite with
    | none => simp [ModelProviderBudget.hasCeiling, hn, hcl] at hc
    | some c =>
      rw [if_pos (isSome_of_clFinite hcl)]
      simp [pctOf, hfull c (clFinite_pos hcl), hv]
  | some c =>
    have hcpos := nsFinite_pos hn
    cases hcl : budget.clFinite with
    | none => simp [pctOf, hfull c hcpos, hv]
    | some c' =>
      have hcpos' := clFinite_pos hcl
      rw [if_pos (isSome_of_clFinite hcl)]
      simp only [pctOf]
      rcases le_total c c' with hle | hle
      · rw [min_eq_left hle, hfull c hcpos]
        exact max_eq_left (hpart c' c hcpos' hle)
      · rw [min_eq_right hle, hfull c' hcpos']
        exact max_eq_right (hpart c c' hcpos hle)

theorem exists_worst (hv : 0 ≤ v) (h : budget.hasCeiling = true ∨ v ≤ 0) (period ns : String)
    (t : Time) :
    ∃ x, (utilizationLocked budget (spentLedger period ns x t) ns).worst = v := by
  cases hc : budget.hasCeiling with
  | true => exact ⟨_, worst_spentLedger hc period ns hv t⟩
  | false =>
    refine ⟨0, ?_⟩
    rw [worst_eq_zero hc]
    rcases h with h | h
    · rw [hc] at h
      exact absurd h (by decide)
    · exact le_antisymm hv h

/-! ## The equivalence -/

section Ladder

variable (hacc : provider.budget.Accepted) (hhard : provider.budget.enforcement = .hard)
  (hcap : provider.budget.CapLadder)
include hacc hhard hcap

theorem refusesAtCap_of_capLadder : RefusesAtCap provider := by
  intro b ns workload clock wall hw
  obtain ⟨hperiod, hblock⟩ := block_of_capLadder hacc hhard hcap clock.t2 wall hw
  rw [← Bool.not_eq_true,
    admitted_iff ns workload wall hperiod (hardActive_of_accepted hacc hhard) rfl]
  exact fun hadmitted => hadmitted.1 hblock

/-- Two states that differ in spend alone: where the one that has spent more
admits, the other does. -/
theorem admitted_antitone (hperiod : provider.budget.period ≠ .none) {b b' : BudgetLedger}
    {workload : String}
    {clock : Clock} {wall : Time}
    (hl : b.ledgerFor provider.name provider.budget.period clock.t1 = l)
    (hl' : b'.ledgerFor provider.name provider.budget.period clock.t1 = l') (hadm : l'.adm = l.adm)
    (hfresh : b'.fresh l' clock.t3 = b.fresh l clock.t3)
    (hmargin : ∀ ceiling configured, b'.effectiveMarginPct l' ceiling configured =
      b.effectiveMarginPct l ceiling configured) (hle : SpendLE l l' ns)
    (h : (b'.admitRequest provider ns workload clock wall).decision.admitted = true) :
    (b.admitRequest provider ns workload clock wall).decision.admitted = true := by
  have hactive := hardActive_of_accepted hacc hhard
  rw [admitted_iff ns workload wall hperiod hactive hl'] at h
  rw [admitted_iff ns workload wall hperiod hactive hl]
  obtain ⟨hblock, hslot, hbound⟩ := h
  obtain ⟨hworst, hns, hcl, hnsUSD, hclUSD⟩ := utilization_mono provider.budget hle
  refine ⟨?_, ?_, ?_⟩
  · intro hb
    have hB := (minBlockAt_le_of_block hb).trans hworst
    exact hblock (block_of_capLadder hacc hhard hcap clock.t2 wall hB).2
  · simpa only [ProviderLedger.slotHeld, hclUSD, hadm] using hslot
  · rcases hbound with ⟨hout₁, hout₂⟩ | hf
    · refine Or.inl ⟨?_, ?_⟩
      · simp only [BudgetLedger.inBoundaryNS, Bool.and_eq_false_iff, decide_eq_false_iff_not,
          not_le, ge_iff_le, hmargin, ← hnsUSD] at hout₁ ⊢
        exact hout₁.imp_right fun h => lt_of_le_of_lt hns h
      · simp only [BudgetLedger.inBoundaryCL, Bool.and_eq_false_iff, decide_eq_false_iff_not,
          not_le, ge_iff_le, hmargin, ← hclUSD] at hout₂ ⊢
        exact hout₂.imp_right fun h => lt_of_le_of_lt hcl h
    · exact Or.inr (hfresh ▸ hf)

theorem refusalMonotone_of_capLadder : RefusalMonotone provider := by
  intro b ns workload clock wall own peers l l' hle hrefused
  by_cases hnone : provider.budget.period = .none
  · -- tracking off admits always
    rw [BudgetLedger.admitRequest] at hrefused
    simp [hnone, periodKey, BudgetDecision.admitted] at hrefused
  have hl' : (b.put provider.name l').ledgerFor provider.name provider.budget.period clock.t1
      = l' := by
    apply BudgetLedger.ledgerFor_eq_of_period (BudgetLedger.lookup_put_self _ _ _)
    exact BudgetLedger.ledgerFor_period _ _ _ _
  rw [← Bool.not_eq_true] at hrefused ⊢
  exact fun h => hrefused (admitted_antitone hacc hhard hcap hnone rfl hl' rfl rfl
    (fun _ _ => rfl) hle h)

end Ladder

/-- A provider that refuses at its cap blocks at every utilization from the cap
upward: otherwise a freshly folded ledger at that utilization is admitted. -/
theorem block_of_refusesAtCap (href : RefusesAtCap provider) (hactive : hardActive provider = true)
    (ns : String) (t : Time) (hv : 0 ≤ v) (hr : provider.budget.hasCeiling = true ∨ v ≤ 0)
    (hB : minBlockAt provider.budget ≤ v) :
    provider.budget.period ≠ .none ∧
      ∃ q, ladder provider.budget.policies v = some q ∧ q.action = .block := by
  obtain ⟨x, hx⟩ := exists_worst hv hr (periodKey provider.budget.period t) ns t
  have hl : (spentState provider ns x t).ledgerFor provider.name provider.budget.period
      (Clock.still t).t1 = spentLedger (periodKey provider.budget.period t) ns x t :=
    BudgetLedger.ledgerFor_eq_of_period (BudgetLedger.lookup_put_self _ _ _) rfl
  have hrefused := href (spentState provider ns x t) ns "" (.still t) t
    (by rw [hl, hx]; exact hB)
  have hperiod : provider.budget.period ≠ .none := by
    intro hnone
    rw [BudgetLedger.admitRequest] at hrefused
    simp [hnone, periodKey, BudgetDecision.admitted] at hrefused
  refine ⟨hperiod, ?_⟩
  by_contra hcon
  have hnb : (decideBudget provider.budget (utilizationLocked provider.budget
      (spentLedger (periodKey provider.budget.period t) ns x t) ns)
      (Clock.still t).t2 t).action ≠ some .block := by
    rw [decideBudget_action, hx]
    intro hmap
    obtain ⟨q, hq, hqa⟩ := Option.map_eq_some_iff.mp hmap
    exact hcon ⟨q, hq, hqa⟩
  have hiff := admitted_iff (b := spentState provider ns x t) ns "" t hperiod hactive hl
  rw [hrefused] at hiff
  refine absurd (hiff.mpr ⟨hnb, ?_, Or.inr ?_⟩) Bool.false_ne_true
  · simp [ProviderLedger.slotHeld, spentLedger, ProviderLedger.new]
  · simp [BudgetLedger.fresh, spentLedger, ProviderLedger.new, spentState, BudgetLedger.put,
      newBudgetLedger, defaultPublishInterval, second, Clock.still]

theorem capLadder_of_refusesAtCap (hacc : provider.budget.Accepted)
    (hhard : provider.budget.enforcement = .hard) (href : RefusesAtCap provider) (ns : String)
    (t : Time) : provider.budget.CapLadder := by
  intro hreach
  have hactive := hardActive_of_accepted hacc hhard
  have hB100 : minBlockAt provider.budget ≤ 100 := by
    obtain ⟨p, hp, _, hpe⟩ := minBlockAt_mem hacc hhard
    rw [← hpe]
    exact_mod_cast (hacc.atPercent p hp).2
  refine ⟨?_, ?_⟩
  · rcases hreach with hc | h0
    · exact (block_of_refusesAtCap href hactive ns t (by norm_num) (Or.inl hc) hB100).1
    · exact (block_of_refusesAtCap href hactive ns t le_rfl (Or.inr le_rfl) h0).1
  · intro p hp hBp hlow
    have hp0 : (0 : ℚ) ≤ p.atPercent := by exact_mod_cast (hacc.atPercent p hp).1
    obtain ⟨_, q, hq, hqa⟩ := block_of_refusesAtCap href hactive ns t hp0
      (hlow.imp_right fun h => by exact_mod_cast h) hBp
    exact ⟨q, ladder_at_threshold hp ▸ hq, hqa⟩

/-- A hard block threshold is a cap exactly when the ladder caps. -/
theorem hard_cap_iff (provider : ModelProvider) (hacc : provider.budget.Accepted)
    (hhard : provider.budget.enforcement = .hard) :
    (RefusesAtCap provider ∧ RefusalMonotone provider) ↔ provider.budget.CapLadder := by
  constructor
  · rintro ⟨href, _⟩
    exact capLadder_of_refusesAtCap hacc hhard href "" 0
  · intro hcap
    exact ⟨refusesAtCap_of_capLadder hacc hhard hcap,
      refusalMonotone_of_capLadder hacc hhard hcap⟩

/-- A monthly hard budget of 10 USD a namespace under the given policies. -/
def tenDollars (policies : List BudgetPolicy) : ModelProvider where
  name := "openai"
  budget :=
    { period := .monthly
      perNamespaceUSD := "10"
      policies := policies
      clusterUSD := none
      enforcement := .hard
      hard := none }

/-- Block at 90 percent, and warn at 100: a reviewer of the spend reads both. -/
def blockThenWarn : ModelProvider := tenDollars [⟨90, .block, none⟩, ⟨100, .warn, none⟩]

theorem blockThenWarn_accepted : blockThenWarn.budget.Accepted where
  atPercent := by decide
  margin := by intro h hh; cases hh
  rule32 := by decide
  rule34 := by intro h hh; cases hh

/-- The equivalence at a schema-valid provider. -/
theorem hard_cap_blockThenWarn :
    (RefusesAtCap blockThenWarn ∧ RefusalMonotone blockThenWarn) ↔
      blockThenWarn.budget.CapLadder :=
  hard_cap_iff blockThenWarn blockThenWarn_accepted rfl

/-- At 100 percent the warn policy outranks the block at 90: the schema accepts
the provider, a namespace at its whole ceiling is admitted, and the same
namespace at 95 percent was blocked. -/
theorem blockThenWarn_admits_past_cap :
    blockThenWarn.budget.Accepted ∧ blockThenWarn.budget.enforcement = .hard ∧
      minBlockAt blockThenWarn.budget ≤ (utilizationLocked blockThenWarn.budget
        ((spentState blockThenWarn "team" 10 march2026).ledgerFor "openai" .monthly march2026)
          "team").worst ∧
      ((spentState blockThenWarn "team" 10 march2026).admitRequest blockThenWarn "team" "agent/a"
        (.still march2026) march2026).decision.admitted = true ∧
      ((spentState blockThenWarn "team" (19 / 2) march2026).admitRequest blockThenWarn "team"
        "agent/a" (.still march2026) march2026).decision.admitted = false := by
  refine ⟨blockThenWarn_accepted, rfl, ?_, ?_, ?_⟩ <;> decide +kernel

end Kaalm.Gateway
