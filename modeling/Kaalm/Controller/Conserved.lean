/-
  Controller/Conserved.lean --- a reducer pass conserves the spend of the period
  (`internal/controller/modelprovider_budget.go`, `modelprovider_agentspend.go`).

  The two reducers differ in what they do to a `_retired` they cannot read and in what
  they archive.  `Reduces` says what an iteration does to the ConfigMap and to the two
  totals; both loops have it, and everything after is proved from it.  What a pass leaves
  is all kept by the next one, so that the text of `_canonical` is the same.
-/
import Kaalm.Controller.AgentSpend

namespace Kaalm.Controller

open Kaalm.Foundation Kaalm.Gateway

/-- Outside `_retired` the loop over workloads is the loop over the budget without its
archive and its flag. -/
theorem foldAgentKey_of_ne (live : String → Bool) (P : String) (f : BudgetFold) {k : String}
    (raw : RawValue) (hk : k ≠ retiredKey) : foldAgentKey live P f k raw =
      { foldBudgetKey live P f k raw with
        previous := f.previous
        previousPeriod := f.previousPeriod
        marginRaised := f.marginRaised } := by
  unfold foldAgentKey foldBudgetKey
  split_ifs
  · rfl
  · cases parseBudgetPartial raw with
    | none => rfl
    | some p =>
      dsimp only
      split_ifs <;> rfl
  · cases parseBudgetPartial raw with
    | none => rfl
    | some p =>
      dsimp only
      split_ifs <;> rfl

theorem reduces_foldAgentKey (live : String → Bool) (P : String) (f : BudgetFold) (k : String)
    (raw : RawValue) : Reduces false live P f k raw (foldAgentKey live P f k raw) := by
  by_cases hretired : k = retiredKey
  · have hne : retiredKey ≠ canonicalKey := by decide
    subst hretired
    rw [foldAgentKey, if_neg hne, if_pos rfl]
    cases hparse : parseBudgetPartial raw with
    | none =>
      constructor <;> simp [keeps, prunes, isReplica, spendIn, addAll_empty, BudgetFold.drop,
        hne, hparse]
    | some p =>
      by_cases hp : p.period = P <;> constructor <;>
        simp [keeps, prunes, isReplica, spendIn, addAll_empty, BudgetFold.drop, hne, hparse, hp]
  · have hkeeps : keeps false live P k raw = keeps true live P k raw := by
      simp [keeps, hretired]
    obtain ⟨hdata, hchanged, hpruned, hcurrent, hsum⟩ := reduces_foldBudgetKey live P f k raw
    rw [foldAgentKey_of_ne live P f raw hretired]
    rw [← hkeeps] at hdata hchanged
    exact ⟨hdata, hchanged, hpruned, hcurrent, hsum⟩

/-! ## A pass -/

section Pass

variable {unreadable : Bool} {live : String → Bool} {P : String} {f : BudgetFold} {k : String}
  {raw : RawValue} {m : GoMap String ℚ}

theorem isReplica_of_not_isFlag (h : isFlag k = false) : isReplica k = true := by
  have hcanonical : k ≠ canonicalKey := by
    rintro rfl
    exact absurd h (by decide)
  have hretired : k ≠ retiredKey := by
    rintro rfl
    exact absurd h (by decide)
  simp [isReplica, hcanonical, hretired]

theorem parse_retiredPartial (hkeys : ∀ ns ∈ m, isSpendKey ns = true) :
    ∃ p, parseBudgetPartial (.object (retiredPartial P m).marshalJSON) = some p ∧ p.period = P ∧
      ∀ ns, p.spend.lookup ns = (m.lookup ns).bind fun v => parseAmount (formatFixed2 v) := by
  obtain ⟨p, hp, hperiod, hspend⟩ := parsed_of_object (retiredPartial P m).marshalJSON
  have hmem : ∀ ns, ns ∉ m → (retiredPartial P m).spend.lookup ns = none := fun ns hns => by
    rw [retiredPartial, formatSpend, GoMap.lookup_mapValues, AList.lookup_eq_none.mpr hns]
    rfl
  refine ⟨p, hp, ?_, fun ns => ?_⟩
  · have htag : "period" ∉ (retiredPartial P m).spend := by
      refine AList.lookup_eq_none.mp (hmem _ fun h => ?_)
      exact absurd (hkeys _ h) (by decide)
    rw [hperiod, period_marshalJSON htag]
    rfl
  · rw [hspend]
    split_ifs with hkey
    · rw [lookup_of_isSpendKey _ hkey, retiredPartial, formatSpend, GoMap.lookup_mapValues,
        Option.bind_map]
      rfl
    · rw [AList.lookup_eq_none.mpr fun h => hkey (hkeys ns h)]
      rfl

theorem lookup_finish (hk : k ≠ canonicalKey) :
    (f.finish P).data.lookup k = (f.retire P).lookup k := by
  unfold BudgetFold.finish
  dsimp only
  split_ifs
  · rfl
  · exact AList.lookup_insert_ne hk

theorem lookup_finish_of_isReplica (hk : isReplica k = true) :
    (f.finish P).data.lookup k = f.data.lookup k := by
  simp only [isReplica, Bool.and_eq_true, decide_eq_true_eq] at hk
  rw [lookup_finish hk.1, BudgetFold.retire]
  split_ifs
  · exact AList.lookup_insert_ne hk.2
  · rfl

theorem current_finish : (f.finish P).current = f.current.addAll f.retired := by
  unfold BudgetFold.finish
  dsimp only
  split_ifs <;> rfl

theorem lookup_finish_retired : (f.finish P).data.lookup retiredKey =
    if f.retiredChanged then some (.object (retiredPartial P f.retired).marshalJSON)
    else f.data.lookup retiredKey := by
  rw [lookup_finish (by decide), BudgetFold.retire]
  split_ifs
  · exact AList.lookup_insert _
  · rfl

theorem not_prunes_of_keeps (h : keeps unreadable live P k raw = true) :
    prunes live P k raw = false := by
  unfold keeps at h
  unfold prunes isReplica
  split_ifs at h with hcanonical hretired
  · simp [hcanonical]
  · simp [hretired]
  · simp [(Bool.and_eq_true_iff.mp h).1]

end Pass

/-! ## What a pass conserves -/

structure Conserved (live : String → Bool) (P : String) (data : GoMap String RawValue)
    (r : Reduction) : Prop where
  /-- every live replica folds what it folded before -/
  folds : ∀ own, live own = true → isFlag own = false → ∀ ns,
    (foldPartials r.data own P).at0 ns = (foldPartials data own P).at0 ns
  /-- `_canonical` is what the live replicas hold and the new `_retired` -/
  canonical : ∃ raw m, r.data.lookup canonicalKey = some raw ∧ canonicalSpend raw = some m ∧
    ∀ ns, m.at0 ns = liveSpend live P data ns + spendAt P r.data retiredKey ns
  /-- a partial of the period under a live replica's key stays as it is -/
  untouched : ∀ k raw, live k = true → isFlag k = false → data.lookup k = some raw →
    isCurrent P raw = true → r.data.lookup k = some raw

/-- A pass over the ConfigMap, in any order, writes nothing. -/
def Stable (reduce : GoMap String RawValue → List (Sigma fun _ : String => RawValue) → Reduction)
    (data : GoMap String RawValue) : Prop :=
  ∀ order, order.Perm data.entries →
    (reduce data order).changed = false ∧ (reduce data order).data = data

section Conserve

variable {unreadable : Bool} {live : String → Bool} {P : String} {data : GoMap String RawValue}
  {f : BudgetFold} (h : Looped unreadable live P data f) (hcents : CentsOn P data)
  (hrange : ∀ ns, spendOn P data ns < floatLimit)

include h hcents hrange in
theorem Looped.lt_floatLimit (ns : String) :
    (f.finish P).current.at0 ns < floatLimit ∧ f.retired.at0 ns < floatLimit := by
  have htotal := (reduced_finish h.folded hcents).total ns
  have hlt := hrange ns
  have hnonneg := (h.folded.cents hcents ns).1.nonneg
  rw [← htotal, current_finish, GoMap.at0_addAll] at hlt
  exact ⟨htotal ▸ hrange ns, by linarith⟩

include h hcents hrange in
theorem Looped.spendOn_finish (ns : String) : spendOn P (f.finish P).data ns = spendOn P data ns :=
  (reduced_finish h.folded hcents).eq (fun ns => (h.lt_floatLimit hcents hrange ns).1) ns

include h hcents hrange in
theorem Looped.conserved : Conserved live P data (f.finish P) := by
  refine ⟨fun own hown hflag ns => ?_, ?_, fun k raw hk hflag hraw hcurrent => ?_⟩
  · have hreplica := isReplica_of_not_isFlag hflag
    have hne : own ≠ canonicalKey := by
      simp only [isReplica, Bool.and_eq_true, decide_eq_true_eq] at hreplica
      exact hreplica.1
    have hown : spendAt P (f.finish P).data own ns = spendAt P data own ns := by
      rw [spendAt, lookup_finish_of_isReplica hreplica]
      exact h.spendAt_eq (.inr hown) ns
    have hbefore := foldPartials_add_spendAt data P ns hne
    have hafter := foldPartials_add_spendAt (f.finish P).data P ns hne
    rw [h.spendOn_finish hcents hrange, hown, ← hbefore] at hafter
    exact add_right_cancel hafter
  · obtain ⟨raw, hraw, htext⟩ := (reduced_finish h.folded hcents).canonical
    obtain ⟨c, hc, hlookup⟩ := canonicalSpend_of_isText htext
    refine ⟨raw, c, hraw, hc, fun ns => ?_⟩
    have hfold := h.folded.cents hcents
    have hlt := h.lt_floatLimit hcents hrange
    have hsum : (f.finish P).current.at0 ns = f.current.at0 ns + f.retired.at0 ns := by
      rw [current_finish, GoMap.at0_addAll]
    have hwhole : WholeCents ((f.finish P).current.at0 ns) := by
      rw [hsum]
      exact (hfold ns).1.add (hfold ns).2
    have hretired : spendAt P (f.finish P).data retiredKey ns = f.retired.at0 ns := by
      rw [spendAt, lookup_finish (by decide)]
      exact (h.folded.spendAt_retire (fun ns => (hfold ns).2) ns).2 fun ns => (hlt ns).2
    rw [hretired, ← h.at0_current, ← hsum, GoMap.at0, hlookup, amount_eq hwhole (hlt ns).1,
      GoMap.at0]
  · rw [lookup_finish_of_isReplica (isReplica_of_not_isFlag hflag)]
    exact (h.lookup k raw).mpr ⟨hraw, keeps_of_isCurrent hcurrent (.inr hk)⟩

/-! ### A second pass -/

def NamedOn (P : String) (data : GoMap String RawValue) (ns : String) : Prop :=
  ∃ k raw, data.lookup k = some raw ∧ k ≠ canonicalKey ∧ ns ∈ spendIn P raw

theorem isReplica_of_ne {k : String} (hcanonical : k ≠ canonicalKey) (hretired : k ≠ retiredKey) :
    isReplica k = true := by
  simp [isReplica, hcanonical, hretired]

include h in
theorem Looped.mem_current_finish (ns : String) :
    ns ∈ (f.finish P).current ↔ NamedOn P data ns := by
  rw [current_finish, GoMap.mem_addAll, h.mem_current, h.mem_retired]
  constructor
  · rintro (⟨k, raw, hraw, hk, hns⟩ | ⟨k, raw, hraw, hk, hns⟩)
    · refine ⟨k, raw, hraw, ?_, hns⟩
      rintro rfl
      exact absurd (Bool.and_eq_true_iff.mp hk).1 (by decide)
    · refine ⟨k, raw, hraw, ?_, hns⟩
      rintro rfl
      rcases hk with hk | hk
      · exact absurd hk (by decide)
      · exact absurd (Bool.and_eq_true_iff.mp hk).1 (by decide)
  · rintro ⟨k, raw, hraw, hk, hns⟩
    by_cases hretired : k = retiredKey
    · exact .inr ⟨k, raw, hraw, .inl hretired, hns⟩
    · cases hlive : live k with
      | true => exact .inl ⟨k, raw, hraw, by simp [isReplica_of_ne hk hretired, hlive], hns⟩
      | false =>
        exact .inr ⟨k, raw, hraw, .inr (by simp [isReplica_of_ne hk hretired, hlive]), hns⟩

include h hcents hrange in
theorem Looped.mem_spendIn_retiredPartial (ns : String) :
    ns ∈ spendIn P (.object (retiredPartial P f.retired).marshalJSON) ↔ ns ∈ f.retired := by
  obtain ⟨p, hp, hperiod, hlookup⟩ := parse_retiredPartial (P := P) h.folded.retiredKeys
  have hmem : ns ∈ p.spend ↔ ns ∈ f.retired := by
    rw [← AList.lookup_isSome, ← AList.lookup_isSome, hlookup,
      amount_eq (h.folded.cents hcents ns).2 (h.lt_floatLimit hcents hrange ns).2]
  rw [← hmem]
  constructor
  · intro h
    obtain ⟨q, hq, -, hns⟩ := mem_spendIn h
    obtain rfl := Option.some.inj (hp.symm.trans hq)
    exact hns
  · exact fun h => by simpa [spendIn, hp, hperiod] using h

include h hcents hrange in
theorem Looped.namedOn_finish (ns : String) :
    NamedOn P (f.finish P).data ns ↔ NamedOn P data ns := by
  have hretired := h.mem_spendIn_retiredPartial hcents hrange ns
  constructor
  · rintro ⟨k, raw, hraw, hk, hns⟩
    by_cases hkr : k = retiredKey
    · subst hkr
      rw [lookup_finish_retired] at hraw
      split_ifs at hraw
      · -- the text was written from the retired total
        obtain rfl := Option.some.inj hraw
        rw [← h.mem_current_finish, current_finish, GoMap.mem_addAll]
        exact .inr (hretired.mp hns)
      · exact ⟨retiredKey, raw, ((h.lookup _ _).mp hraw).1, hk, hns⟩
    · rw [lookup_finish_of_isReplica (isReplica_of_ne hk hkr)] at hraw
      exact ⟨k, raw, ((h.lookup _ _).mp hraw).1, hk, hns⟩
  · rintro ⟨k, raw, hraw, hk, hns⟩
    obtain ⟨p, hparse, hp, -⟩ := mem_spendIn hns
    have hcurrent : isCurrent P raw = true := by simp [isCurrent, hparse, hp]
    have hstays : k = retiredKey ∨ live k = true → f.data.lookup k = some raw := fun hk =>
      (h.lookup k raw).mpr ⟨hraw, keeps_of_isCurrent hcurrent hk⟩
    by_cases hkr : k = retiredKey
    · subst hkr
      have hmem := (h.mem_retired ns).mpr ⟨_, raw, hraw, .inl rfl, hns⟩
      cases hchanged : f.retiredChanged with
      | true => exact ⟨_, _, lookup_finish_retired.trans (if_pos hchanged), hk, hretired.mpr hmem⟩
      | false =>
        refine ⟨_, raw, ?_, hk, hns⟩
        rw [lookup_finish_retired, hchanged]
        exact hstays (.inl rfl)
    · have hreplica := isReplica_of_ne hk hkr
      cases hlive : live k with
      | true =>
        exact ⟨k, raw, (lookup_finish_of_isReplica hreplica).trans (hstays (.inr hlive)), hk, hns⟩
      | false =>
        -- a replica that is gone: its spend is in the new `_retired`
        have hgone : (isReplica k && !live k) = true := by simp [hreplica, hlive]
        have hmem := (h.mem_retired ns).mpr ⟨k, raw, hraw, .inr hgone, hns⟩
        have hchanged := h.retiredChanged.mpr ⟨k, raw, hraw, by simp [prunes, hgone, hcurrent]⟩
        exact ⟨retiredKey, _, lookup_finish_retired.trans (if_pos hchanged), by decide,
          hretired.mpr hmem⟩

include h in
theorem Looped.keeps_finish {k : String} {raw : RawValue}
    (hraw : (f.finish P).data.lookup k = some raw) : keeps unreadable live P k raw = true := by
  by_cases hcanonical : k = canonicalKey
  · simp [keeps, hcanonical]
  · by_cases hretired : k = retiredKey
    · subst hretired
      rw [lookup_finish_retired] at hraw
      split_ifs at hraw
      · obtain rfl := Option.some.inj hraw
        obtain ⟨p, hp, hperiod, -⟩ := parse_retiredPartial (P := P) h.folded.retiredKeys
        exact keeps_of_isCurrent (by simp [isCurrent, hp, hperiod]) (.inl rfl)
      · exact ((h.lookup _ _).mp hraw).2
    · rw [lookup_finish_of_isReplica (isReplica_of_ne hcanonical hretired)] at hraw
      exact ((h.lookup _ _).mp hraw).2

include h hcents hrange in
theorem Looped.stable {f' : BudgetFold} (h' : Looped unreadable live P (f.finish P).data f') :
    (f'.finish P).changed = false ∧ (f'.finish P).data = (f.finish P).data := by
  have hreduced := reduced_finish h.folded hcents
  have hchanged : f'.changed = false := by
    rw [← Bool.not_eq_true, h'.changed]
    rintro ⟨k, raw, hraw, hkeep⟩
    rw [h.keeps_finish hraw] at hkeep
    cases hkeep
  have hpruned : f'.retiredChanged = false := by
    rw [← Bool.not_eq_true, h'.retiredChanged]
    rintro ⟨k, raw, hraw, hprune⟩
    rw [not_prunes_of_keeps (h.keeps_finish hraw)] at hprune
    cases hprune
  have hdata : f'.retire P = (f.finish P).data := by
    rw [BudgetFold.retire, hpruned]
    exact h'.unchanged hchanged
  -- the totals are the same map, so `_canonical` has the same text
  have hlookup : ∀ ns, (f.finish P).current.lookup ns = (f'.finish P).current.lookup ns := by
    intro ns
    refine GoMap.lookup_eq_of_at0 ?_ ?_
    · rw [h'.mem_current_finish, h.mem_current_finish, h.namedOn_finish hcents hrange]
    · rw [hreduced.total, (reduced_finish h'.folded hreduced.cents).total,
        h.spendOn_finish hcents hrange]
  have htext : ∀ raw : RawValue, raw.isText (formatSpend (f.finish P).current) = true →
      raw.isText (formatSpend (f'.current.addAll f'.retired)) = true := by
    intro raw hraw
    cases raw with
    | malformed => cases hraw
    | object flat =>
      refine List.isPerm_iff.mpr ((List.isPerm_iff.mp hraw).trans ?_)
      refine GoMap.entries_perm_of_lookup fun ns => ?_
      rw [formatSpend, formatSpend, GoMap.lookup_mapValues, GoMap.lookup_mapValues, hlookup,
        current_finish]
  obtain ⟨raw, hraw, hcanonical⟩ := hreduced.canonical
  have hfinish : f'.finish P = ⟨(f.finish P).data, false, f'.current.addAll f'.retired,
      f'.marginRaised⟩ := by
    unfold BudgetFold.finish at hdata hraw hcanonical ⊢
    rw [hdata, hraw, hchanged, hpruned]
    simp only [Option.elim_some, htext raw hcanonical, if_true, Bool.or_self]
  rw [hfinish]
  exact ⟨rfl, rfl⟩

end Conserve

/-- A pass of either reducer conserves the spend of the period, and a second pass with the
same live replicas writes nothing. -/
theorem reducer_passes_conserve (live : String → Bool) (P : String) (data : GoMap String RawValue)
    (order : List (Sigma fun _ : String => RawValue)) (horder : order.Perm data.entries)
    (hcents : CentsOn P data) (hrange : ∀ ns, spendOn P data ns < floatLimit) :
    (Conserved live P data (reconcileBudget data order live P) ∧
      Stable (fun data order => reconcileBudget data order live P)
        (reconcileBudget data order live P).data) ∧
    Conserved live P data (reconcileAgentSpend data order live P) ∧
      Stable (fun data order => reconcileAgentSpend data order live P)
        (reconcileAgentSpend data order live P).data := by
  have hbudget : ∀ {data : GoMap String RawValue} {order}, order.Perm data.entries →
      Looped true live P data (foldBudgetKeys data order live P) :=
    looped_runLoop (reduces_foldBudgetKey live P)
  have hagent : ∀ {data : GoMap String RawValue} {order}, order.Perm data.entries →
      Looped false live P data (runLoop (foldAgentKey live P) data order) :=
    looped_runLoop (reduces_foldAgentKey live P)
  exact ⟨⟨(hbudget horder).conserved hcents hrange,
      fun _ horder' => (hbudget horder).stable hcents hrange (hbudget horder')⟩,
    (hagent horder).conserved hcents hrange,
    fun _ horder' => (hagent horder).stable hcents hrange (hagent horder')⟩

def oneDollar : GoMap String ℚ := AList.insert "team" 1 ∅

theorem at0_oneDollar (ns : String) : oneDollar.at0 ns = if ns = "team" then 1 else 0 := by
  rw [oneDollar, GoMap.at0, GoMap.lookup_insert_eq, AList.lookup_empty]
  split_ifs <;> rfl

def dollarPartial : RawValue := .object (retiredPartial "2026-11" oneDollar).marshalJSON

/-- Two replicas published a dollar each; the second is gone. -/
def oneGone : GoMap String RawValue :=
  (AList.singleton "gw-0" dollarPartial).insert "gw-1" dollarPartial

theorem currentSpend_dollarPartial (ns : String) :
    currentSpend "2026-11" dollarPartial ns ≤ 1 ∧
      WholeCents (currentSpend "2026-11" dollarPartial ns) := by
  have hcents : ∀ ns, WholeCents (oneDollar.at0 ns) := by
    intro ns
    rw [at0_oneDollar]
    split_ifs
    · exact ⟨100, by norm_num⟩
    · exact .zero
  have hspend : (retiredPartial "2026-11" oneDollar).spend = formatSpend oneDollar := rfl
  obtain ⟨-, hle, hwhole⟩ := currentSpend_rendered (P := "2026-11") hspend hcents ns
  refine ⟨hle.trans ?_, hwhole⟩
  rw [at0_oneDollar]
  split_ifs <;> norm_num

theorem reducer_passes_conserve_gone :
    Conserved (fun replica => replica = "gw-0") "2026-11" oneGone
      (reconcileBudget oneGone oneGone.entries (fun replica => replica = "gw-0") "2026-11") := by
  refine (reducer_passes_conserve _ _ _ _ (.refl _) (fun k raw hraw _ ns => ?_) fun ns => ?_).1.1
  · obtain rfl : raw = dollarPartial := by
      rw [oneGone, GoMap.lookup_insert_eq] at hraw
      split_ifs at hraw
      · exact (Option.some.inj hraw).symm
      · exact (by simpa using AList.mem_lookup_iff.mp hraw : k = "gw-0" ∧ raw = dollarPartial).2
    exact (currentSpend_dollarPartial ns).2
  · have hle : spendOn "2026-11" oneGone ns ≤ 2 := by
      have hone := (currentSpend_dollarPartial ns).1
      have hsum : spendOn "2026-11" oneGone ns =
          currentSpend "2026-11" dollarPartial ns + currentSpend "2026-11" dollarPartial ns := by
        have hentries : oneGone.entries = [⟨"gw-1", dollarPartial⟩, ⟨"gw-0", dollarPartial⟩] := rfl
        simp [spendOn, GoMap.sumOver, hentries, show "gw-0" ≠ canonicalKey by decide,
          show "gw-1" ≠ canonicalKey by decide]
      linarith
    exact hle.trans_lt (by decide +kernel)

end Kaalm.Controller
