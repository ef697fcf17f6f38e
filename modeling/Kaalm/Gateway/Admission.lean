/-
  Gateway/Admission.lean --- what one ledger operation does.

  Each operation of `Gateway/Ledger.lean` gets its specification here, once:
  `AdmitOutcome` says everything `Admit` can do, the `land` lemmas say what a
  settled cost changes.  Everything about runs cites these and unfolds no operation.
-/
import Kaalm.Gateway.Ledger

namespace Kaalm.Gateway

open Kaalm.Foundation

/-! ## Stored ledgers -/

variable (b : BudgetLedger) (l : ProviderLedger)

@[simp] theorem BudgetLedger.lookup_put_self (n : String) (l : ProviderLedger) :
    (b.put n l).providers.lookup n = some l := by
  simp [BudgetLedger.put]

theorem BudgetLedger.lookup_put_ne {n n' : String} (h : n' ≠ n) :
    (b.put n l).providers.lookup n' = b.providers.lookup n' := by
  simp [BudgetLedger.put, AList.lookup_insert_ne h]

@[simp] theorem BudgetLedger.ledgerFor_period (n : String) (scheme : PeriodScheme) (t : Time) :
    (b.ledgerFor n scheme t).period = periodKey scheme t := by
  simp only [BudgetLedger.ledgerFor]
  split_ifs with h
  · rfl
  · exact not_ne_iff.mp h

theorem BudgetLedger.ledgerFor_eq_of_period {b : BudgetLedger} {n : String}
    {scheme : PeriodScheme} {t : Time} {l : ProviderLedger}
    (hl : b.providers.lookup n = some l) (hp : l.period = periodKey scheme t) :
    b.ledgerFor n scheme t = l := by
  simp [BudgetLedger.ledgerFor, BudgetLedger.stored, hl, hp]

/-! ## Landing a cost -/

theorem ProviderLedger.track_frame (cost : ℚ) (now : Time) :
    ∃ maxCost start sum peak, l.track cost now =
      { l with
        maxCostPerCall := maxCost, rateBucketStart := start,
        rateBucketSum := sum, peakRatePerSec := peak } := by
  unfold ProviderLedger.track
  split_ifs
  · exact ⟨_, _, _, _, rfl⟩
  · dsimp only
    split
    · exact ⟨_, _, _, _, rfl⟩
    · split_ifs <;> exact ⟨_, _, _, _, rfl⟩
  · dsimp only
    split
    · exact ⟨_, _, _, _, rfl⟩
    · split_ifs <;> exact ⟨_, _, _, _, rfl⟩

theorem ProviderLedger.track_largest (cost : ℚ) (now : Time) :
    l.maxCostPerCall ≤ (l.track cost now).maxCostPerCall ∧
      (0 < cost → cost ≤ (l.track cost now).maxCostPerCall) := by
  unfold ProviderLedger.track
  by_cases hcost : cost ≤ 0
  · rw [if_pos hcost]
    exact ⟨le_rfl, fun h => absurd h (not_lt.mpr hcost)⟩
  · rw [if_neg hcost]
    have hmax : l.maxCostPerCall ≤
          (if cost > l.maxCostPerCall then { l with maxCostPerCall := cost }
            else l).maxCostPerCall ∧
        cost ≤ (if cost > l.maxCostPerCall then { l with maxCostPerCall := cost }
          else l).maxCostPerCall := by
      split_ifs with hlarger
      · exact ⟨le_of_lt hlarger, le_rfl⟩
      · exact ⟨le_rfl, not_lt.mp hlarger⟩
    generalize
      (if cost > l.maxCostPerCall then { l with maxCostPerCall := cost } else l) = l' at hmax
    dsimp only
    split
    · exact ⟨hmax.1, fun _ => hmax.2⟩
    · split_ifs <;> exact ⟨hmax.1, fun _ => hmax.2⟩

theorem ProviderLedger.land_frame (ns workload : String) (cost : ℚ) (t t' : Time) :
    ∃ maxCost start sum peak, l.land ns workload cost t t' =
      { l with
        own := l.own.addTo ns cost, ownW := l.ownW.addTo (ns ++ "/" ++ workload) cost
        maxCostPerCall := maxCost, rateBucketStart := start, rateBucketSum := sum
        peakRatePerSec := peak, dirtySince := some (l.dirtySince.getD t') } := by
  obtain ⟨maxCost, start, sum, peak, h⟩ := ProviderLedger.track_frame
    { l with
      own := l.own.addTo ns cost
      ownW := l.ownW.addTo (ns ++ "/" ++ workload) cost } cost t
  exact ⟨maxCost, start, sum, peak, by simp only [ProviderLedger.land, h]⟩

section Land

variable (ns workload : String) (cost : ℚ) (t t' : Time)

@[simp] theorem ProviderLedger.land_period : (l.land ns workload cost t t').period = l.period := by
  obtain ⟨_, _, _, _, h⟩ := l.land_frame ns workload cost t t'
  rw [h]

@[simp] theorem ProviderLedger.land_own :
    (l.land ns workload cost t t').own = l.own.addTo ns cost := by
  obtain ⟨_, _, _, _, h⟩ := l.land_frame ns workload cost t t'
  rw [h]

@[simp] theorem ProviderLedger.land_peers : (l.land ns workload cost t t').peers = l.peers := by
  obtain ⟨_, _, _, _, h⟩ := l.land_frame ns workload cost t t'
  rw [h]

@[simp] theorem ProviderLedger.land_adm : (l.land ns workload cost t t').adm = l.adm := by
  obtain ⟨_, _, _, _, h⟩ := l.land_frame ns workload cost t t'
  rw [h]

end Land

/-! ## Slots -/

theorem lookup_acquire (keys : List String) (token : UInt64) (k : String)
    (adm : GoMap String UInt64) :
    (acquire adm keys token).lookup k = if k ∈ keys then some token else adm.lookup k := by
  induction keys generalizing adm with
  | nil => simp [acquire]
  | cons key keys ih =>
    have hstep : acquire adm (key :: keys) token = acquire (adm.insert key token) keys token :=
      rfl
    rw [hstep, ih, GoMap.lookup_insert_eq]
    by_cases hk : k = key <;> by_cases hmem : k ∈ keys <;> simp [hk, hmem]

theorem lookup_release (keys : List String) (token : UInt64) (k : String)
    (adm : GoMap String UInt64) : (release adm keys token).lookup k =
      if k ∈ keys ∧ adm.lookup k = some token then none else adm.lookup k := by
  induction keys generalizing adm with
  | nil => simp [release]
  | cons key keys ih =>
    have hstep : release adm (key :: keys) token = release
        (if (adm.lookup key).getD 0 = token then adm.erase key else adm) keys token := rfl
    rw [hstep, ih]
    by_cases hk : k = key
    · subst hk
      cases hl : adm.lookup k with
      | none => split_ifs <;> simp_all
      | some t => by_cases ht : t = token <;> simp_all
    · split_ifs <;> simp_all

/-! ## Admission -/

/-- Everything `Admit` can do, with the facts its branch established.  `l` is
the ledger `ledgerFor` handed out. -/
inductive AdmitOutcome (b : BudgetLedger) (provider : ModelProvider) (ns workload : String)
    (clock : Clock) (wall : Time) (l : ProviderLedger) (u : Utilization) : AdmitResult → Prop
  /-- budget tracking is off for this provider -/
  | off (h : provider.budget.period = .none ∨ provider.budget.policies = []) :
      AdmitOutcome b provider ns workload clock wall l u ⟨b, {}, none⟩
  /-- soft enforcement: the ladder's decision -/
  | soft (h : hardActive provider = false) :
      AdmitOutcome b provider ns workload clock wall l u
        ⟨b.put provider.name l, decideBudget provider.budget u clock.t2 wall, none⟩
  /-- refused: blocked, throttled or unavailable -/
  | refused (d : BudgetDecision) (hd : d.admitted = false)
      (h : hardActive provider = true) :
      AdmitOutcome b provider ns workload clock wall l u ⟨b.put provider.name l, d, none⟩
  /-- admitted without a slot, outside every boundary region -/
  | plain (h : hardActive provider = true)
      (hb : (decideBudget provider.budget u clock.t2 wall).action ≠ some .block)
      (hs : l.slotHeld u ns = false) (hns : b.inBoundaryNS provider.budget l u = false)
      (hcl : b.inBoundaryCL provider.budget l u = false) :
      AdmitOutcome b provider ns workload clock wall l u
        ⟨b.put provider.name l, decideBudget provider.budget u clock.t2 wall, none⟩
  /-- admitted with the slots of the boundary regions it is in -/
  | slotted (raised raisedNow : Bool) (h : hardActive provider = true)
      (hb : (decideBudget provider.budget u clock.t2 wall).action ≠ some .block)
      (hs : l.slotHeld u ns = false)
      (hin : b.inBoundaryNS provider.budget l u = true ∨
        b.inBoundaryCL provider.budget l u = true) :
      AdmitOutcome b provider ns workload clock wall l u
        ⟨b.put provider.name { l with
            marginRaised := raised
            nextToken := l.nextToken + 1
            adm := acquire l.adm (slotKeys (b.inBoundaryNS provider.budget l u)
              (b.inBoundaryCL provider.budget l u) ns) (l.nextToken + 1) },
          { decideBudget provider.budget u clock.t2 wall with
            boundaryEngaged := true, marginRaisedNow := raisedNow },
          some
            { providerName := provider.name, scheme := provider.budget.period,
              capturedPeriod := l.period, namespace_ := ns, workload := workload,
              keys := slotKeys (b.inBoundaryNS provider.budget l u)
                (b.inBoundaryCL provider.budget l u) ns,
              token := l.nextToken + 1 }⟩

theorem decideBudget_flags (budget : ModelProviderBudget) (u : Utilization) (now wall : Time) :
    (decideBudget budget u now wall).throttled = false ∧
      (decideBudget budget u now wall).unavailable = false := by
  unfold decideBudget
  cases ladder budget.policies u.worst with
  | none => exact ⟨rfl, rfl⟩
  | some w => cases hw : w.action <;> simp [hw]

theorem admit_outcome (provider : ModelProvider) (ns workload : String) (clock : Clock)
    (wall : Time) :
    AdmitOutcome b provider ns workload clock wall
      (b.ledgerFor provider.name provider.budget.period clock.t1)
      (utilizationLocked provider.budget
        (b.ledgerFor provider.name provider.budget.period clock.t1) ns)
      (b.admitRequest provider ns workload clock wall) := by
  unfold BudgetLedger.admitRequest
  simp only []
  split_ifs with hoff hblock hslot hout hfresh
  · exact .off (by rwa [periodKey_eq_empty_iff] at hoff)
  · cases hh : hardActive provider with
    | false => exact .soft hh
    | true =>
      refine .refused _ ?_ hh
      have : (decideBudget provider.budget (utilizationLocked provider.budget
        (b.ledgerFor provider.name provider.budget.period clock.t1) ns)
        clock.t2 wall).action = some .block := by simpa [hh] using hblock
      simp [BudgetDecision.admitted, this]
  all_goals
    have hh : hardActive provider = true := by simp_all
    have hb : (decideBudget provider.budget (utilizationLocked provider.budget
        (b.ledgerFor provider.name provider.budget.period clock.t1) ns)
        clock.t2 wall).action ≠ some .block := by simp_all
  · exact .refused _ (by simp [BudgetDecision.admitted]) hh
  · exact .plain hh hb (by simpa using hslot) (by simp_all) (by simp_all)
  · exact .refused _ (by simp [BudgetDecision.admitted]) hh
  · exact .slotted _ _ hh hb (by simpa using hslot) (by
      by_contra hcon
      simp_all)

/-- When a tracked hard provider admits: the ladder does not block, no slot is
in the way, and inside a boundary region the replica's state is fresh. -/
theorem admitted_iff {b : BudgetLedger} {provider : ModelProvider} (ns workload : String)
    {clock : Clock} (wall : Time) {l : ProviderLedger}
    (hperiod : provider.budget.period ≠ .none) (hactive : hardActive provider = true)
    (hl : b.ledgerFor provider.name provider.budget.period clock.t1 = l) :
    (b.admitRequest provider ns workload clock wall).decision.admitted = true ↔
      (decideBudget provider.budget (utilizationLocked provider.budget l ns)
        clock.t2 wall).action ≠ some .block ∧
      l.slotHeld (utilizationLocked provider.budget l ns) ns = false ∧
      (b.inBoundaryNS provider.budget l (utilizationLocked provider.budget l ns) = false ∧
        b.inBoundaryCL provider.budget l (utilizationLocked provider.budget l ns) = false ∨
        b.fresh l clock.t3 = true) := by
  obtain ⟨hthr, hun⟩ := decideBudget_flags provider.budget
    (utilizationLocked provider.budget l ns) clock.t2 wall
  have hkey : periodKey provider.budget.period clock.t0 ≠ "" := by
    rwa [ne_eq, periodKey_eq_empty_iff]
  have hpol : provider.budget.policies ≠ [] := by
    intro hnil
    simp [hardActive, hnil] at hactive
  unfold BudgetLedger.admitRequest
  simp only [hl, hkey, hpol, or_self, if_false, hactive]
  split_ifs with hblock hslot hout hstale <;>
    simp_all [BudgetDecision.admitted]

/-- Outside its boundary regions hard mode is soft mode: an admission without a slot
that is neither throttled nor unavailable is `Enforce` at the same readings, and
leaves nothing behind but the rollover.  Every provider without an active hard mode
comes out so, and every other one outside both regions with no slot in its way. -/
theorem admitRequest_eq_enforce (b : BudgetLedger) (provider : ModelProvider)
    (ns workload : String) (clock : Clock) (wall : Time) :
    let r := b.admitRequest provider ns workload clock wall
    let l := b.ledgerFor provider.name provider.budget.period clock.t1
    let u := utilizationLocked provider.budget l ns
    (r.settle = none ∧ r.decision.throttled = false ∧ r.decision.unavailable = false →
      (r.ledger, r.decision) = b.enforce provider ns clock wall ∧
        (r.ledger = b ∨ r.ledger = b.put provider.name l)) ∧
    (hardActive provider = false ∨ l.slotHeld u ns = false ∧
        b.inBoundaryNS provider.budget l u = false ∧ b.inBoundaryCL provider.budget l u = false →
      r.settle = none ∧ r.decision.throttled = false ∧ r.decision.unavailable = false) := by
  obtain ⟨hthrottled, hunavailable⟩ := decideBudget_flags provider.budget
    (utilizationLocked provider.budget
      (b.ledgerFor provider.name provider.budget.period clock.t1) ns) clock.t2 wall
  unfold BudgetLedger.admitRequest BudgetLedger.enforce
  dsimp only
  split_ifs with hoff hblock hslot hout hstale
  · exact ⟨fun _ => ⟨rfl, .inl rfl⟩, fun _ => ⟨rfl, rfl, rfl⟩⟩
  · exact ⟨fun _ => ⟨rfl, .inr rfl⟩, fun _ => ⟨rfl, hthrottled, hunavailable⟩⟩
  · -- a slot is held: throttled
    refine ⟨fun h => (by cases h.2.1), ?_⟩
    rintro (hsoft | ⟨hfree, -⟩)
    · simp [hsoft] at hblock
    · rw [hslot] at hfree
      cases hfree
  · exact ⟨fun _ => ⟨rfl, .inr rfl⟩, fun _ => ⟨rfl, hthrottled, hunavailable⟩⟩
  all_goals
    refine ⟨fun h => ?_, ?_⟩
    · first | cases h.2.2 | cases h.1
    · rintro (hsoft | ⟨-, hns, hcl⟩)
      · simp [hsoft] at hblock
      · simp [hns, hcl] at hout

end Kaalm.Gateway
