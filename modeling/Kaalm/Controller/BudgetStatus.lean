/-
  Controller/BudgetStatus.lean --- the budget half of a provider's status
  (`internal/controller/modelprovider_budget.go`).

  WHAT IS MODELLED.  The half of `reconcileBudget` after the update: the usage per
  namespace with the state its policies give it, the archived entries beside them, and
  the cluster total.

  THE STATE.  A policy counts when the namespace's own ratio has reached it, and a block
  policy counts over a degrade policy whatever their thresholds.  A replica decides by
  the highest policy that the worse of two ratios has reached.  The two agree exactly
  under `StrongestWins`.
-/
import Kaalm.Controller.BudgetReducer
import Kaalm.Gateway.BudgetCap
import Mathlib.Data.List.Sort

namespace Kaalm.Controller

open Kaalm.Foundation Kaalm.Gateway

/-- The values of `status.budgetUsage[].state`. -/
inductive BudgetState where
  | normal
  | throttled
  | blocked
  deriving DecidableEq, Repr

/-- `ModelProviderBudgetUsage`. -/
structure BudgetUsage where
  namespace_ : String
  period : String
  spentUSD : String
  percentUsed : Int
  state : BudgetState
  deriving DecidableEq

/-- `int32(v)` of a float64 on amd64: out of range is the least value. -/
def int32Of (v : ℚ) : Int :=
  let whole := v.num.tdiv v.den
  if -2 ^ 31 ≤ whole ∧ whole < 2 ^ 31 then whole else -2 ^ 31

/-- The positive ceiling.  The error of `ParseFloat` is dropped, so an amount past the range
is `+Inf`. -/
def reportCeiling (budget : ModelProviderBudget) : Option Ceiling :=
  match parseFloat budget.perNamespaceUSD with
  | some (.range false) => some .infinite
  | _ => budget.nsCeiling

/-- The ratio against the ceiling, where there is one. -/
def usagePercent (budget : ModelProviderBudget) (spent : ℚ) : Option ℚ :=
  (reportCeiling budget).map (·.percent spent)

def stateStep (percent : ℚ) (state : BudgetState) (p : BudgetPolicy) : BudgetState :=
  if percent < p.atPercent then state
  else
    match p.action with
    | .block => .blocked
    | .degrade => if state ≠ .blocked then .throttled else state
    | .warn => state

/-- One entry of `budgetUsageEntries`. -/
def usageEntry (budget : ModelProviderBudget) (spend : GoMap String ℚ) (period ns : String) :
    BudgetUsage where
  namespace_ := ns
  period := period
  spentUSD := formatFixed2 (spend.at0 ns)
  percentUsed := (usagePercent budget (spend.at0 ns)).elim 0 int32Of
  state := (usagePercent budget (spend.at0 ns)).elim .normal fun percent =>
    budget.policies.foldl (stateStep percent) .normal

def budgetUsageEntries (budget : ModelProviderBudget) (spend : GoMap String ℚ) (period : String) :
    List BudgetUsage :=
  (spend.keys.insertionSort (· ≤ ·)).map (usageEntry budget spend period)

structure BudgetStatus where
  budgetUsage : List BudgetUsage
  clusterSpentUSD : String

/-- `reconcileBudget` after its update. -/
def reconcileBudgetStatus (budget : ModelProviderBudget) (data : GoMap String RawValue)
    (order : List (Sigma fun _ : String => RawValue)) (live : String → Bool)
    (currentPeriod : String) : BudgetStatus :=
  let fold := foldBudgetKeys data order live currentPeriod
  let current := fold.current.addAll fold.retired
  let usage := budgetUsageEntries budget current currentPeriod
  { budgetUsage :=
      if fold.previousPeriod ≠ "" then
        usage ++ budgetUsageEntries budget fold.previous fold.previousPeriod
      else usage
    clusterSpentUSD := formatFixed2 current.total }

section Usage

variable {budget : ModelProviderBudget} {spend : GoMap String ℚ} {period ns : String}

theorem mem_budgetUsageEntries {u : BudgetUsage} :
    u ∈ budgetUsageEntries budget spend period ↔
      ∃ ns ∈ spend, usageEntry budget spend period ns = u := by
  simp only [budgetUsageEntries, List.mem_map, List.mem_insertionSort, AList.mem_keys]

/-! ## The reported state -/

theorem state_blocked_iff (policies : List BudgetPolicy) (percent : ℚ) :
    policies.foldl (stateStep percent) .normal = .blocked ↔
      ∃ p ∈ policies, (p.atPercent : ℚ) ≤ percent ∧ p.action = .block := by
  have hstep : ∀ state p, stateStep percent state p = .blocked ↔
      state = .blocked ∨ (p.atPercent : ℚ) ≤ percent ∧ p.action = .block := by
    intro state p
    unfold stateStep
    by_cases hreach : percent < p.atPercent
    · simp [hreach, not_le.mpr hreach]
    · rw [if_neg hreach]
      cases state <;> cases p.action <;> simp [not_lt.mp hreach]
  have hloop := GoMap.foldl_iff_exists (fun state => state = BudgetState.blocked) _ hstep policies
    .normal
  simpa using hloop

theorem state_normal_iff (policies : List BudgetPolicy) (percent : ℚ) :
    policies.foldl (stateStep percent) .normal = .normal ↔
      ∀ p ∈ policies, (p.atPercent : ℚ) ≤ percent → p.action = .warn := by
  have hstep : ∀ state p, stateStep percent state p ≠ .normal ↔
      state ≠ .normal ∨ (p.atPercent : ℚ) ≤ percent ∧ p.action ≠ .warn := by
    intro state p
    unfold stateStep
    by_cases hreach : percent < p.atPercent
    · simp [hreach, not_le.mpr hreach]
    · rw [if_neg hreach]
      cases state <;> cases p.action <;> simp [not_lt.mp hreach]
  have hloop := GoMap.foldl_iff_exists (fun state => state ≠ BudgetState.normal) _ hstep policies
    .normal
  rw [← not_iff_not, ← ne_eq, hloop]
  simp

/-- A policy that the namespace's own ratio has reached. -/
def Reached (budget : ModelProviderBudget) (spend : GoMap String ℚ) (ns : String)
    (p : BudgetPolicy) : Prop :=
  ns ∈ spend ∧ ∃ percent, usagePercent budget (spend.at0 ns) = some percent ∧
    (p.atPercent : ℚ) ≤ percent

/-- What the status says of a namespace; one that it does not list is as one that is
`Normal`. -/
def ReportsState (usage : List BudgetUsage) (ns : String) (state : BudgetState) : Prop :=
  ∃ u ∈ usage, u.namespace_ = ns ∧ u.state = state

theorem reportsState_iff (state : BudgetState) :
    ReportsState (budgetUsageEntries budget spend period) ns state ↔
      ns ∈ spend ∧ (usageEntry budget spend period ns).state = state := by
  constructor
  · rintro ⟨u, hu, rfl, hstate⟩
    obtain ⟨ns, hns, rfl⟩ := mem_budgetUsageEntries.mp hu
    exact ⟨hns, hstate⟩
  · rintro ⟨hns, hstate⟩
    exact ⟨_, mem_budgetUsageEntries.mpr ⟨ns, hns, rfl⟩, rfl, hstate⟩

variable (budget spend period ns)

theorem reportsState_blocked_iff :
    ReportsState (budgetUsageEntries budget spend period) ns .blocked ↔
    ∃ p ∈ budget.policies, Reached budget spend ns p ∧ p.action = .block := by
  rw [reportsState_iff]
  unfold Reached usageEntry
  cases hpercent : usagePercent budget (spend.at0 ns) with
  | none => simp
  | some percent =>
    simp only [Option.elim_some, state_blocked_iff, Option.some.injEq, exists_eq_left']
    constructor
    · rintro ⟨hns, p, hp, hreach, hblock⟩
      exact ⟨p, hp, ⟨hns, hreach⟩, hblock⟩
    · rintro ⟨p, hp, ⟨hns, hreach⟩, hblock⟩
      exact ⟨hns, p, hp, hreach, hblock⟩

theorem reportsState_unique
    (hblocked : ReportsState (budgetUsageEntries budget spend period) ns .blocked) :
    ¬ReportsState (budgetUsageEntries budget spend period) ns .throttled := by
  rw [reportsState_iff] at hblocked ⊢
  rintro ⟨-, hstate⟩
  rw [hblocked.2] at hstate
  cases hstate

theorem not_reportsState_iff :
    (¬ReportsState (budgetUsageEntries budget spend period) ns .blocked ∧
      ¬ReportsState (budgetUsageEntries budget spend period) ns .throttled) ↔
    ∀ p ∈ budget.policies, Reached budget spend ns p → p.action = .warn := by
  rw [reportsState_iff, reportsState_iff]
  by_cases hns : ns ∈ spend
  · have hnormal : (¬(usageEntry budget spend period ns).state = .blocked ∧
        ¬(usageEntry budget spend period ns).state = .throttled) ↔
        (usageEntry budget spend period ns).state = .normal := by
      cases (usageEntry budget spend period ns).state <;> simp
    simp only [hns, true_and, hnormal, Reached]
    unfold usageEntry
    cases hpercent : usagePercent budget (spend.at0 ns) with
    | none => simp
    | some percent => simp [state_normal_iff]
  · simp [hns, Reached]

theorem reportsState_throttled_iff :
    ReportsState (budgetUsageEntries budget spend period) ns .throttled ↔
      (∃ p ∈ budget.policies, Reached budget spend ns p ∧ p.action = .degrade) ∧
        ∀ p ∈ budget.policies, Reached budget spend ns p → p.action ≠ .block := by
  have hblocked := reportsState_blocked_iff budget spend period ns
  have hnone := not_reportsState_iff budget spend period ns
  have hone := reportsState_unique budget spend period ns
  -- of the three actions only a warning leaves the state as it is
  have hwarn : (∀ p ∈ budget.policies, Reached budget spend ns p → p.action = .warn) ↔
      (∀ p ∈ budget.policies, Reached budget spend ns p → p.action ≠ .block) ∧
        ¬∃ p ∈ budget.policies, Reached budget spend ns p ∧ p.action = .degrade := by
    have hcases : ∀ a : BudgetAction, a = .warn ↔ a ≠ .block ∧ a ≠ .degrade := by
      intro a
      cases a <;> simp
    simp only [hcases, imp_and, forall_and, not_exists, not_and, ne_eq]
  have hblock : (∀ p ∈ budget.policies, Reached budget spend ns p → p.action ≠ .block) ↔
      ¬ReportsState (budgetUsageEntries budget spend period) ns .blocked := by
    grind
  rw [hwarn, hblock, and_congr_right_iff] at hnone
  rw [hblock, ← and_iff_right_of_imp fun h hb => hone hb h, and_comm, and_congr_left_iff]
  exact fun hb => not_iff_not.mp (hnone hb)

end Usage

/-! ## The state and the decision -/

/-- The spend has reached the policy's share of one of the two ceilings. -/
def SpendReaches (budget : ModelProviderBudget) (spend : GoMap String ℚ) (ns : String)
    (p : BudgetPolicy) : Prop :=
  (p.atPercent : ℚ) ≤ pctOf budget.nsFinite (spend.at0 ns) ∨
    budget.clCeiling.isSome ∧ (p.atPercent : ℚ) ≤ pctOf budget.clFinite spend.total

structure SeesSpend (l : ProviderLedger) (spend : GoMap String ℚ) : Prop where
  spent : ∀ ns, l.spent ns = spend.at0 ns
  clusterSpent : l.clusterSpent = spend.total

/-- The policy is the first listed at the highest threshold that the spend has reached. -/
structure Tops (budget : ModelProviderBudget) (spend : GoMap String ℚ) (ns : String)
    (w : BudgetPolicy) : Prop where
  reached : SpendReaches budget spend ns w
  highest : ∀ p ∈ budget.policies, SpendReaches budget spend ns p → p.atPercent ≤ w.atPercent
  first : budget.policies.find? (fun p => p.atPercent = w.atPercent) = some w

section Enforce

variable {b : BudgetLedger} {provider : ModelProvider} {clock : Clock} {spend : GoMap String ℚ}
  (hperiod : periodKey provider.budget.period clock.t0 ≠ "")
  (h : SeesSpend (b.ledgerFor provider.name provider.budget.period clock.t1) spend) (ns : String)
  (wall : Time)
include hperiod h

theorem action_enforce : ∃ worst : ℚ,
    (∀ p : BudgetPolicy, (p.atPercent : ℚ) ≤ worst ↔ SpendReaches provider.budget spend ns p) ∧
      (b.enforce provider ns clock wall).2.action =
        (ladder provider.budget.policies worst).map (·.action) := by
  refine ⟨(utilizationLocked provider.budget
    (b.ledgerFor provider.name provider.budget.period clock.t1) ns).worst, fun p => ?_, ?_⟩
  · rw [utilization_worst, h.spent, h.clusterSpent, SpendReaches]
    split_ifs with hcluster
    · simp [hcluster]
    · simp [hcluster]
  · unfold BudgetLedger.enforce
    by_cases hpolicies : provider.budget.policies = []
    · simp [hpolicies, ladder]
    · simp only [hperiod, hpolicies, or_self, if_false]
      rw [decideBudget_action]

theorem enforce_cases :
    ((b.enforce provider ns clock wall).2.action = none ∧
      ∀ p ∈ provider.budget.policies, ¬SpendReaches provider.budget spend ns p) ∨
    ∃ w ∈ provider.budget.policies, (b.enforce provider ns clock wall).2.action = some w.action ∧
      ∀ w', Tops provider.budget spend ns w' ↔ w' = w := by
  obtain ⟨worst, hworst, haction⟩ := action_enforce hperiod h ns wall
  cases hladder : ladder provider.budget.policies worst with
  | none =>
    refine Or.inl ⟨by rw [haction, hladder]; rfl, fun p hp hreach => ?_⟩
    obtain ⟨q, hq⟩ := ladder_isSome hp ((hworst p).mpr hreach)
    rw [hladder] at hq
    cases hq
  | some w =>
    obtain ⟨hreach, hmax, hfirst⟩ := ladder_spec hladder
    have hmem := List.mem_of_find?_eq_some hfirst
    have htops : Tops provider.budget spend ns w :=
      ⟨(hworst w).mp hreach, fun p hp hreached => hmax p hp ((hworst p).mpr hreached), hfirst⟩
    refine Or.inr ⟨w, hmem, by rw [haction, hladder]; rfl, fun w' => ⟨fun h' => ?_, ?_⟩⟩
    · have hsame : w'.atPercent = w.atPercent :=
        le_antisymm (htops.highest w' (List.mem_of_find?_eq_some h'.first) h'.reached)
          (h'.highest w hmem htops.reached)
      exact Option.some.inj (h'.first.symm.trans (hsame ▸ hfirst))
    · rintro rfl
      exact htops

end Enforce

theorem Reached.spendReaches {budget : ModelProviderBudget} {spend : GoMap String ℚ} {ns : String}
    {p : BudgetPolicy} (h : Reached budget spend ns p) : SpendReaches budget spend ns p := by
  obtain ⟨-, percent, hpercent, hle⟩ := h
  obtain ⟨ceiling, hceiling, rfl⟩ := Option.map_eq_some_iff.mp hpercent
  refine Or.inl (hle.trans_eq ?_)
  unfold reportCeiling at hceiling
  split at hceiling
  · next hrange =>
    cases hceiling
    simp [Ceiling.percent, ModelProviderBudget.nsFinite, ModelProviderBudget.nsCeiling, ceilingOf,
      hrange, pctOf]
  · rw [Ceiling.percent_eq, ModelProviderBudget.nsFinite, hceiling, Option.bind_some]

/-- How much an action takes away. -/
def strength : BudgetAction → Nat
  | .warn => 0
  | .degrade => 1
  | .block => 2

/-- Nothing that the namespace has reached by its own ratio is stronger than the top policy,
and something that it has reached so is as strong. -/
def StrongestWins (budget : ModelProviderBudget) (spend : GoMap String ℚ) (ns : String) : Prop :=
  ∀ w, Tops budget spend ns w →
    (∀ p ∈ budget.policies, Reached budget spend ns p →
      strength p.action ≤ strength w.action) ∧
    (w.action = .warn ∨ ∃ p ∈ budget.policies, Reached budget spend ns p ∧ p.action = w.action)

/-- The status says of a namespace what a decision does to it. -/
structure StateAgrees (usage : List BudgetUsage) (d : BudgetDecision) (ns : String) : Prop where
  blocked : ReportsState usage ns .blocked ↔ d.action = some .block
  throttled : ReportsState usage ns .throttled ↔ d.action = some .degrade
  /-- of every other namespace it says `Normal` -/
  normal : d.action ≠ some .block → d.action ≠ some .degrade →
    ∀ u ∈ usage, u.namespace_ = ns → u.state = .normal

theorem stateAgrees_iff (usage : List BudgetUsage) (d : BudgetDecision) (ns : String) :
    StateAgrees usage d ns ↔ (ReportsState usage ns .blocked ↔ d.action = some .block) ∧
      (ReportsState usage ns .throttled ↔ d.action = some .degrade) := by
  refine ⟨fun h => ⟨h.blocked, h.throttled⟩, fun ⟨hblocked, hthrottled⟩ => ⟨hblocked, hthrottled,
    fun hb ht u hu hns => ?_⟩⟩
  cases hstate : u.state with
  | normal => rfl
  | throttled => exact absurd (hthrottled.mp ⟨u, hu, hns, hstate⟩) ht
  | blocked => exact absurd (hblocked.mp ⟨u, hu, hns, hstate⟩) hb

/-- The reported state of a namespace agrees with what `Enforce` decides for it exactly if
the strongest of its own policies is the one that decides. -/
theorem reported_state_agrees_iff (b : BudgetLedger) (provider : ModelProvider) (ns : String)
    (clock : Clock) (wall : Time) (spend : GoMap String ℚ) (period : String)
    (hperiod : periodKey provider.budget.period clock.t0 ≠ "")
    (h : SeesSpend (b.ledgerFor provider.name provider.budget.period clock.t1) spend) :
    StateAgrees (budgetUsageEntries provider.budget spend period)
      (b.enforce provider ns clock wall).2 ns ↔ StrongestWins provider.budget spend ns := by
  have hblocked := reportsState_blocked_iff provider.budget spend period ns
  have hthrottled := reportsState_throttled_iff provider.budget spend period ns
  have hnone := not_reportsState_iff provider.budget spend period ns
  have hone := reportsState_unique provider.budget spend period ns
  rw [stateAgrees_iff]
  unfold StrongestWins
  rcases enforce_cases hperiod h ns wall with ⟨hnothing, hunreached⟩ | ⟨w, hw, haction, htop⟩
  · have hwarn := hnone.mpr fun p hp hreach => absurd hreach.spendReaches (hunreached p hp)
    simp only [hnothing, hwarn, reduceCtorEq, and_self, true_iff]
    exact fun w hw => absurd hw.reached (hunreached w (List.mem_of_find?_eq_some hw.first))
  · simp only [haction, htop, forall_eq, Option.some.injEq]
    cases hwa : w.action with
    | block =>
      simp only [← hblocked, iff_true, reduceCtorEq, iff_false, false_or]
      have hweaker : ∀ a : BudgetAction, strength a ≤ strength .block := by
        intro a
        cases a <;> decide
      exact ⟨fun h => ⟨fun p _ _ => hweaker p.action, h.1⟩, fun h => ⟨h.2, hone h.2⟩⟩
    | degrade =>
      have hweaker : ∀ a : BudgetAction, strength a ≤ strength .degrade ↔ a ≠ .block := by
        intro a
        cases a <;> decide
      simp only [hweaker, iff_true, reduceCtorEq, iff_false, false_or]
      rw [hthrottled, and_comm (a := ∃ p ∈ _, _)]
      refine and_iff_right_of_imp fun hdegrade hb => ?_
      obtain ⟨p, hp, hreach, hblock⟩ := hblocked.mp hb
      exact hdegrade.1 p hp hreach hblock
    | warn =>
      have hweaker : ∀ a : BudgetAction, strength a ≤ strength .warn ↔ a = .warn := by
        intro a
        cases a <;> decide
      simpa [hweaker] using hnone

/-- Two namespaces with 60 dollars each. -/
def bothAtSixty : GoMap String ℚ := AList.insert "a" 60 (AList.insert "b" 60 ∅)

/-- A ceiling of 100 dollars on each namespace and on both together. -/
def blockAt100 : ModelProvider where
  name := "p"
  budget :=
    { period := .monthly, perNamespaceUSD := "100", policies := [⟨100, .block, none⟩],
      clusterUSD := some "100", enforcement := .soft, hard := none }

def servedBoth : BudgetLedger :=
  newBudgetLedger.put "p"
    { ProviderLedger.new (periodKey .monthly march2026) with own := bothAtSixty }

theorem seesSpend_servedBoth :
    SeesSpend (servedBoth.ledgerFor blockAt100.name blockAt100.budget.period
      (Clock.still march2026).t1) bothAtSixty := by
  have hledger : servedBoth.ledgerFor blockAt100.name blockAt100.budget.period
      (Clock.still march2026).t1 =
      { ProviderLedger.new (periodKey .monthly march2026) with own := bothAtSixty } :=
    BudgetLedger.ledgerFor_eq_of_period (BudgetLedger.lookup_put_self _ _ _) rfl
  exact ⟨fun ns => add_zero _, add_zero _⟩

theorem servedBoth_blocks :
    (servedBoth.enforce blockAt100 "a" (.still march2026) march2026).2.action = some .block := by
  decide +kernel

theorem servedBoth_reportsState (state : BudgetState) :
    ReportsState (budgetUsageEntries blockAt100.budget bothAtSixty "2026-03") "a" state ↔
      state = .normal := by
  have hnormal : (usageEntry blockAt100.budget bothAtSixty "2026-03" "a").state = .normal := by
    decide +kernel
  have hmem : "a" ∈ bothAtSixty := by decide +kernel
  rw [reportsState_iff, hnormal, eq_comm]
  exact and_iff_right hmem

theorem not_strongestWins_served : ¬StrongestWins blockAt100.budget bothAtSixty "a" := by
  rw [← reported_state_agrees_iff servedBoth blockAt100 "a" (.still march2026) march2026 bothAtSixty
    "2026-03" (by decide +kernel) seesSpend_servedBoth]
  intro h
  cases (servedBoth_reportsState _).mp (h.blocked.mpr servedBoth_blocks)

/-- Both are blocked at 120 percent of the cluster ceiling and reported as `Normal`. -/
theorem cluster_block_reported_normal :
    SeesSpend (servedBoth.ledgerFor blockAt100.name blockAt100.budget.period
      (Clock.still march2026).t1) bothAtSixty ∧
    (servedBoth.enforce blockAt100 "a" (.still march2026) march2026).2.action = some .block ∧
    ReportsState (budgetUsageEntries blockAt100.budget bothAtSixty "2026-03") "a" .normal ∧
    ¬StateAgrees (budgetUsageEntries blockAt100.budget bothAtSixty "2026-03")
      (servedBoth.enforce blockAt100 "a" (.still march2026) march2026).2 "a" := by
  refine ⟨seesSpend_servedBoth, servedBoth_blocks, (servedBoth_reportsState _).mpr rfl, fun h => ?_⟩
  cases (servedBoth_reportsState _).mp (h.blocked.mpr servedBoth_blocks)

end Kaalm.Controller
