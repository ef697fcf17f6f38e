/-
  Controller/BudgetReducer.lean --- the reducer over the budget partials
  (`internal/controller/modelprovider_budget.go`).

  WHAT IS MODELLED.  `foldBudgetKeys` and the half of `reconcileBudget` that
  rewrites the ConfigMap; the other half is in `Controller/BudgetStatus.lean`.

  THE ORDER OF A MAP.  The loop runs over the ConfigMap in the order Go happens to
  choose, and takes keys out while it runs.  The order is a parameter.

  WHAT A PASS KEEPS.  A pass moves the spend of a pruned key to `_retired`, so the
  spend on the ConfigMap stays and `_canonical` is exactly that spend.
-/
import Kaalm.Gateway.Partials

namespace Kaalm.Controller

open Kaalm.Foundation Kaalm.Gateway

/-- `budgetFold`, with the ConfigMap the loop edits. -/
structure BudgetFold where
  current : GoMap String ℚ := ∅
  retired : GoMap String ℚ := ∅
  previous : GoMap String ℚ := ∅
  previousPeriod : String := ""
  changed : Bool := false
  retiredChanged : Bool := false
  marginRaised : Bool := false
  data : GoMap String RawValue

/-- An entry of another period: archived. -/
def BudgetFold.archive (f : BudgetFold) (p : ParsedPartial) : BudgetFold :=
  { f with previousPeriod := p.period, previous := f.previous.addAll p.spend }

/-- `delete(cm.Data, k)`. -/
def BudgetFold.drop (f : BudgetFold) (k : String) : BudgetFold :=
  { f with data := f.data.erase k, changed := true }

def foldBudgetKey (live : String → Bool) (currentPeriod : String) (f : BudgetFold) (k : String)
    (raw : RawValue) : BudgetFold :=
  if k = canonicalKey then f
  else if k = retiredKey then
    match parseBudgetPartial raw with
    | none => f
    | some p =>
      if p.period = currentPeriod then { f with retired := f.retired.addAll p.spend }
      else (f.archive p).drop k
  else if !live k then
    match parseBudgetPartial raw with
    | none => f.drop k
    | some p =>
      if p.period = currentPeriod then
        ({ f with retired := f.retired.addAll p.spend, retiredChanged := true } : BudgetFold).drop k
      else (f.archive p).drop k
  else
    match parseBudgetPartial raw with
    | none => f
    | some p =>
      if p.period = currentPeriod then
        { f with
          current := f.current.addAll p.spend
          marginRaised := f.marginRaised || p.marginExceeded }
      else (f.archive p).drop k

/-- `foldBudgetKeys`, over the entries in the order of the loop. -/
def foldBudgetKeys (data : GoMap String RawValue) (order : List (Sigma fun _ : String => RawValue))
    (live : String → Bool) (currentPeriod : String) : BudgetFold :=
  order.foldl (fun f e => foldBudgetKey live currentPeriod f e.1 e.2) { data := data }

/-- What `reconcileBudget` is about to write. -/
structure Reduction where
  data : GoMap String RawValue
  changed : Bool
  /-- the spend everyone must see: live partials and retired -/
  current : GoMap String ℚ
  marginRaised : Bool

/-- `reconcileBudget` up to its update. -/
def reconcileBudget (data : GoMap String RawValue)
    (order : List (Sigma fun _ : String => RawValue)) (live : String → Bool)
    (currentPeriod : String) : Reduction :=
  let fold := foldBudgetKeys data order live currentPeriod
  let current := fold.current.addAll fold.retired
  let data := if fold.retiredChanged then
      fold.data.insert retiredKey (.object (retiredPartial currentPeriod fold.retired).marshalJSON)
    else fold.data
  let changed := fold.changed || fold.retiredChanged
  let canonical := formatSpend current
  if ((data.lookup canonicalKey).elim false fun raw => raw.isText canonical) then
    ⟨data, changed, current, fold.marginRaised⟩
  else ⟨data.insert canonicalKey (.object canonical), true, current, fold.marginRaised⟩

/-! ## An iteration -/

def isReplica (k : String) : Bool := k ≠ canonicalKey && k ≠ retiredKey

def isCurrent (P : String) (raw : RawValue) : Bool :=
  (parseBudgetPartial raw).elim false fun p => p.period = P

def spendIn (P : String) (raw : RawValue) : GoMap String ℚ :=
  (parseBudgetPartial raw).elim ∅ fun p => if p.period = P then p.spend else ∅

/-- The entries that stay: what cannot be read, and what is of the period; of replicas
that are gone, nothing. -/
def keeps (unreadableRetired : Bool) (live : String → Bool) (P k : String)
    (raw : RawValue) : Bool :=
  if k = canonicalKey then true
  else if k = retiredKey then
    (parseBudgetPartial raw).elim unreadableRetired fun p => p.period = P
  else live k && (parseBudgetPartial raw).elim true fun p => p.period = P

/-- A replica that is gone, with spend of the period. -/
def prunes (live : String → Bool) (P k : String) (raw : RawValue) : Bool :=
  isReplica k && !live k && isCurrent P raw

/-- What an iteration of a reducer does. -/
structure Reduces (unreadableRetired : Bool) (live : String → Bool) (P : String) (f : BudgetFold)
    (k : String) (raw : RawValue) (f' : BudgetFold) : Prop where
  data : f'.data = if keeps unreadableRetired live P k raw then f.data else f.data.erase k
  changed : f'.changed = (f.changed || !keeps unreadableRetired live P k raw)
  retiredChanged : f'.retiredChanged = (f.retiredChanged || prunes live P k raw)
  current : f'.current =
    if isReplica k && live k then f.current.addAll (spendIn P raw) else f.current
  retired : f'.retired =
    if k = retiredKey ∨ (isReplica k && !live k) = true then f.retired.addAll (spendIn P raw)
    else f.retired

theorem addAll_empty (m : GoMap String ℚ) : m.addAll ∅ = m := rfl

theorem reduces_foldBudgetKey (live : String → Bool) (P : String) (f : BudgetFold) (k : String)
    (raw : RawValue) : Reduces true live P f k raw (foldBudgetKey live P f k raw) := by
  have hne : canonicalKey ≠ retiredKey := by decide
  unfold foldBudgetKey
  split_ifs with hcanonical hretired hlive
  · constructor <;> simp [keeps, prunes, isReplica, hcanonical, hne]
  all_goals
    cases hparse : parseBudgetPartial raw with
    | none =>
      constructor <;> simp_all [keeps, prunes, isReplica, isCurrent, spendIn, addAll_empty,
        BudgetFold.drop]
    | some p =>
      by_cases hp : p.period = P <;> constructor <;>
        simp_all [keeps, prunes, isReplica, isCurrent, spendIn, addAll_empty, BudgetFold.drop,
          BudgetFold.archive]

variable {unreadable : Bool} {live : String → Bool} {P : String} {k : String} {raw : RawValue}
  {p : ParsedPartial}

theorem currentSpend_of_not_isCurrent (h : isCurrent P raw = false) (ns : String) :
    currentSpend P raw ns = 0 := by
  unfold isCurrent at h
  cases hparse : parseBudgetPartial raw with
  | none => simp [currentSpend, hparse]
  | some p =>
    rw [hparse] at h
    simp [currentSpend, hparse, of_decide_eq_false h]

theorem keeps_of_isCurrent (h : isCurrent P raw = true) (hk : k = retiredKey ∨ live k = true) :
    keeps unreadable live P k raw = true := by
  unfold isCurrent at h
  unfold keeps
  cases hparse : parseBudgetPartial raw with
  | none =>
    rw [hparse] at h
    cases h
  | some p =>
    rw [hparse, Option.elim_some] at h
    rcases hk with rfl | hk
    · simp [h]
    · simp [h, hk]

theorem currentSpend_of_not_keeps (h : keeps unreadable live P k raw = false)
    (hk : k = retiredKey ∨ live k = true) (ns : String) : currentSpend P raw ns = 0 := by
  refine currentSpend_of_not_isCurrent (Bool.eq_false_iff.mpr fun hcurrent => ?_) ns
  rw [keeps_of_isCurrent hcurrent hk] at h
  cases h

theorem at0_spendIn (P : String) (raw : RawValue) (ns : String) :
    (spendIn P raw).at0 ns = currentSpend P raw ns := by
  unfold spendIn currentSpend
  cases parseBudgetPartial raw with
  | none => exact GoMap.at0_empty ns
  | some p =>
    dsimp only [Option.elim]
    split_ifs
    · rfl
    · exact GoMap.at0_empty ns

theorem mem_spendIn {ns : String} (h : ns ∈ spendIn P raw) :
    ∃ p, parseBudgetPartial raw = some p ∧ p.period = P ∧ ns ∈ p.spend := by
  unfold spendIn at h
  cases hparse : parseBudgetPartial raw with
  | none =>
    rw [hparse] at h
    exact absurd h (AList.notMem_empty ns)
  | some p =>
    rw [hparse] at h
    dsimp only [Option.elim] at h
    split_ifs at h with hp
    · exact ⟨p, rfl, hp, h⟩
    · exact absurd h (AList.notMem_empty ns)

theorem isSpendKey_of_parsed (h : parseBudgetPartial raw = some p) {ns : String}
    (hns : ns ∈ p.spend) :
    isSpendKey ns = true := by
  cases raw with
  | malformed => cases h
  | object flat =>
    obtain ⟨q, hq, -, hlookup⟩ := parsed_of_object flat
    rw [hq] at h
    cases h
    by_contra hkey
    have hnone : p.spend.lookup ns = none := by rw [hlookup, if_neg hkey]
    exact AList.lookup_eq_none.mp hnone hns

/-! ## The loop -/

def liveOn (P : String) (data : GoMap String RawValue) (ns : String) : ℚ :=
  data.sumOver fun k raw => if k = canonicalKey ∨ k = retiredKey then 0 else currentSpend P raw ns

def liveSpend (live : String → Bool) (P : String) (data : GoMap String RawValue)
    (ns : String) : ℚ :=
  data.sumOver fun k raw => if isReplica k && live k then currentSpend P raw ns else 0

theorem spendOn_eq (P : String) (data : GoMap String RawValue) (ns : String) :
    spendOn P data ns = spendAt P data retiredKey ns + liveOn P data ns := by
  rw [spendOn, liveOn, spendAt_eq_sumOver, ← GoMap.sumOver_add]
  refine GoMap.sumOver_congr fun k raw _ => ?_
  by_cases hretired : k = retiredKey
  · simp [hretired, show retiredKey ≠ canonicalKey by decide]
  · simp [hretired]

theorem liveOn_insert {data : GoMap String RawValue} {ns : String}
    (hk : k = canonicalKey ∨ k = retiredKey) :
    liveOn P (data.insert k raw) ns = liveOn P data ns := by
  rw [liveOn, GoMap.sumOver_insert, liveOn, GoMap.sumOver_eq_add_erase data _ k]
  cases data.lookup k <;> simp [hk]

/-- The spend on a ConfigMap is a number of cents, entry by entry. -/
def CentsOn (P : String) (data : GoMap String RawValue) : Prop :=
  ∀ k raw, data.lookup k = some raw → k ≠ canonicalKey → ∀ ns, WholeCents (currentSpend P raw ns)

/-- What a loop over the entries leaves: the totals account for what was there before it. -/
structure Folded (P : String) (data : GoMap String RawValue) (f : BudgetFold) : Prop where
  kept : ∀ k, f.data.lookup k = data.lookup k ∨ f.data.lookup k = none
  unchanged : f.changed = false → f.data = data
  live : ∀ ns, f.current.at0 ns = liveOn P f.data ns
  total : ∀ ns, f.current.at0 ns + f.retired.at0 ns = spendOn P data ns
  retired : f.retiredChanged = false → ∀ ns, f.retired.at0 ns = spendAt P f.data retiredKey ns
  retiredKeys : ∀ ns ∈ f.retired, isSpendKey ns = true
  cents : CentsOn P data → ∀ ns, WholeCents (f.current.at0 ns) ∧ WholeCents (f.retired.at0 ns)

variable {step : BudgetFold → String → RawValue → BudgetFold} {data : GoMap String RawValue}
  {order : List (Sigma fun _ : String => RawValue)}

def runLoop (step : BudgetFold → String → RawValue → BudgetFold) (data : GoMap String RawValue)
    (order : List (Sigma fun _ : String => RawValue)) : BudgetFold :=
  order.foldl (fun f e => step f e.1 e.2) { data := data }

theorem runLoop_iff_exists (Q : BudgetFold → Prop) (brings : String → RawValue → Prop)
    (hQ : ∀ f k raw, Q (step f k raw) ↔ Q f ∨ brings k raw) (horder : order.Perm data.entries) :
    Q (runLoop step data order) ↔
      Q { data := data } ∨ ∃ k raw, data.lookup k = some raw ∧ brings k raw := by
  have hentry : (∃ e ∈ order, brings e.1 e.2) ↔
      ∃ k raw, data.lookup k = some raw ∧ brings k raw := by
    constructor
    · rintro ⟨e, he, hbrings⟩
      exact ⟨e.1, e.2, List.mem_dlookup data.nodupKeys (horder.mem_iff.mp he), hbrings⟩
    · rintro ⟨k, raw, hraw, hbrings⟩
      exact ⟨⟨k, raw⟩, horder.mem_iff.mpr (List.of_mem_dlookup hraw), hbrings⟩
  rw [← hentry]
  exact GoMap.foldl_iff_exists Q (fun e : Sigma fun _ : String => RawValue => brings e.1 e.2)
    (fun f e => hQ f e.1 e.2) order { data := data }

section Total

-- one of the two totals, and the keys whose spend goes there
variable {total : BudgetFold → GoMap String ℚ} {on : String → Prop} [DecidablePred on]
  (hzero : total { data := data } = ∅)
  (htotal : ∀ f k raw, total (step f k raw) =
    if on k then (total f).addAll (spendIn P raw) else total f)
  (horder : order.Perm data.entries)

include hzero htotal horder

theorem mem_total_runLoop (ns : String) : ns ∈ total (runLoop step data order) ↔
    ∃ k raw, data.lookup k = some raw ∧ on k ∧ ns ∈ spendIn P raw := by
  have hloop := runLoop_iff_exists (fun f => ns ∈ total f) (fun k raw => on k ∧ ns ∈ spendIn P raw)
    (fun f k raw => by
      rw [htotal]
      split_ifs with hk
      · rw [GoMap.mem_addAll, and_iff_right hk]
      · exact (or_iff_left fun h => hk h.1).symm) horder
  rw [hloop, hzero, or_iff_right (AList.notMem_empty ns)]

theorem at0_total_runLoop (ns : String) : (total (runLoop step data order)).at0 ns =
    data.sumOver fun k raw => if on k then currentSpend P raw ns else 0 := by
  have hloop : ∀ (rest : List (Sigma fun _ : String => RawValue)) (f : BudgetFold),
      (total (rest.foldl (fun f e => step f e.1 e.2) f)).at0 ns = (total f).at0 ns +
        (rest.map fun e => if on e.1 then currentSpend P e.2 ns else 0).sum := by
    intro rest
    induction rest with
    | nil => intro f; simp
    | cons e rest ih =>
      intro f
      rw [List.foldl_cons, ih, htotal, List.map_cons, List.sum_cons]
      split_ifs
      · rw [GoMap.at0_addAll, at0_spendIn]
        ring
      · ring
  rw [runLoop, hloop, hzero, GoMap.at0_empty, zero_add, (horder.map _).sum_eq]
  rfl

end Total

theorem CentsOn.sumOver (h : CentsOn P data) (on : String → Prop) [DecidablePred on]
    (hon : ¬ on canonicalKey) (ns : String) :
    WholeCents (data.sumOver fun k raw => if on k then currentSpend P raw ns else 0) := by
  refine List.sum_induction WholeCents (fun _ _ => WholeCents.add) .zero fun q hq => ?_
  obtain ⟨e, he, rfl⟩ := List.mem_map.mp hq
  dsimp only
  split_ifs with hk
  · refine h e.1 e.2 (List.mem_dlookup data.nodupKeys he) (fun hkey => hon ?_) ns
    rwa [hkey] at hk
  · exact .zero

theorem CentsOn.spendOn (h : CentsOn P data) (ns : String) : WholeCents (spendOn P data ns) := by
  have hsum := h.sumOver (fun k => k ≠ canonicalKey) (by simp) ns
  simpa only [Gateway.spendOn, ne_eq, ite_not] using hsum

theorem lookup_runLoop (hstep : ∀ f k raw, Reduces unreadable live P f k raw (step f k raw))
    (horder : order.Perm data.entries) (k : String) (raw : RawValue) :
    (runLoop step data order).data.lookup k = some raw ↔
      data.lookup k = some raw ∧ keeps unreadable live P k raw = true := by
  have hloop := runLoop_iff_exists (fun f => f.data.lookup k ≠ some raw)
    (fun k' raw' => k' = k ∧ keeps unreadable live P k' raw' = false)
    (fun f k' raw' => by
      rw [(hstep f k' raw').data]
      cases hkeep : keeps unreadable live P k' raw' with
      | true => simp
      | false =>
        rw [if_neg (by simp), GoMap.lookup_erase_eq]
        by_cases hk : k = k'
        · simp [hk]
        · simp [hk, Ne.symm hk]) horder
  rw [← not_iff_not, ← ne_eq, hloop, not_and_or, Bool.not_eq_true]
  constructor
  · rintro (hne | ⟨k', raw', hraw', rfl, hkeep⟩)
    · exact .inl hne
    · by_cases hraw : data.lookup k' = some raw
      · obtain rfl := Option.some.inj (hraw'.symm.trans hraw)
        exact .inr hkeep
      · exact .inl hraw
  · rintro (hne | hkeep)
    · exact .inl hne
    · by_cases hraw : data.lookup k = some raw
      · exact .inr ⟨k, raw, hraw, rfl, hkeep⟩
      · exact .inl hraw

/-- What a loop over the entries does, in whatever order. -/
structure Looped (unreadable : Bool) (live : String → Bool) (P : String)
    (data : GoMap String RawValue) (f : BudgetFold) : Prop where
  lookup : ∀ k raw, f.data.lookup k = some raw ↔
    data.lookup k = some raw ∧ keeps unreadable live P k raw = true
  changed : f.changed = true ↔
    ∃ k raw, data.lookup k = some raw ∧ keeps unreadable live P k raw = false
  unchanged : f.changed = false → f.data = data
  retiredChanged : f.retiredChanged = true ↔
    ∃ k raw, data.lookup k = some raw ∧ prunes live P k raw = true
  mem_current : ∀ ns, ns ∈ f.current ↔
    ∃ k raw, data.lookup k = some raw ∧ (isReplica k && live k) = true ∧ ns ∈ spendIn P raw
  mem_retired : ∀ ns, ns ∈ f.retired ↔ ∃ k raw, data.lookup k = some raw ∧
    (k = retiredKey ∨ (isReplica k && !live k) = true) ∧ ns ∈ spendIn P raw
  at0_current : ∀ ns, f.current.at0 ns = liveSpend live P data ns
  at0_retired : ∀ ns, f.retired.at0 ns = data.sumOver fun k raw =>
    if k = retiredKey ∨ (isReplica k && !live k) = true then currentSpend P raw ns else 0

theorem looped_runLoop (hstep : ∀ f k raw, Reduces unreadable live P f k raw (step f k raw))
    (horder : order.Perm data.entries) :
    Looped unreadable live P data (runLoop step data order) where
  lookup := lookup_runLoop hstep horder
  changed := by
    have hloop := runLoop_iff_exists (fun f => f.changed = true)
      (fun k raw => keeps unreadable live P k raw = false)
      (fun f k raw => by rw [(hstep f k raw).changed]; simp) horder
    simpa using hloop
  unchanged hchanged := by
    have hloop : (runLoop step data order).changed = true ∨
        (runLoop step data order).data = data := by
      refine List.foldlRecOn (motive := fun f : BudgetFold => f.changed = true ∨ f.data = data)
        order _ (.inr rfl) fun f hf e _ => ?_
      rw [(hstep f e.1 e.2).changed, (hstep f e.1 e.2).data]
      cases keeps unreadable live P e.1 e.2 with
      | true => simpa using hf
      | false => exact .inl (by simp)
    exact hloop.resolve_left (by simp [hchanged])
  retiredChanged := by
    have hloop := runLoop_iff_exists (fun f => f.retiredChanged = true)
      (fun k raw => prunes live P k raw = true)
      (fun f k raw => by rw [(hstep f k raw).retiredChanged]; simp) horder
    simpa using hloop
  mem_current := mem_total_runLoop rfl (fun f k raw => (hstep f k raw).current) horder
  mem_retired := mem_total_runLoop rfl (fun f k raw => (hstep f k raw).retired) horder
  at0_current := at0_total_runLoop rfl (fun f k raw => (hstep f k raw).current) horder
  at0_retired := at0_total_runLoop rfl (fun f k raw => (hstep f k raw).retired) horder

variable {f : BudgetFold}

theorem Looped.spendAt_eq (h : Looped unreadable live P data f)
    (hk : k = retiredKey ∨ live k = true) (ns : String) :
    spendAt P f.data k ns = spendAt P data k ns := by
  rw [spendAt_eq_sumOver, spendAt_eq_sumOver, GoMap.sumOver_of_lookup_iff h.lookup]
  refine GoMap.sumOver_congr fun k' raw _ => ?_
  split_ifs with hkeep hkey hkey
  · rfl
  · rfl
  · exact (currentSpend_of_not_keeps (Bool.eq_false_iff.mpr hkeep) (hkey ▸ hk) ns).symm
  · rfl

theorem Looped.folded (h : Looped unreadable live P data f) : Folded P data f where
  kept k := by
    cases hraw : f.data.lookup k with
    | none => exact .inr rfl
    | some raw => exact .inl ((h.lookup k raw).mp hraw).1.symm
  unchanged := h.unchanged
  live ns := by
    rw [h.at0_current, liveSpend, liveOn, GoMap.sumOver_of_lookup_iff h.lookup]
    refine GoMap.sumOver_congr fun k raw _ => ?_
    by_cases hspecial : k = canonicalKey ∨ k = retiredKey
    · rcases hspecial with rfl | rfl <;> simp [isReplica]
    · rw [if_neg hspecial]
      rw [not_or] at hspecial
      cases hlive : live k with
      | false => simp [keeps, hspecial, hlive]
      | true =>
        rw [isReplica, if_pos (by simp [hspecial])]
        split_ifs with hkeep
        · rfl
        · exact currentSpend_of_not_keeps (Bool.eq_false_iff.mpr hkeep) (.inr hlive) ns
  total ns := by
    rw [h.at0_current, h.at0_retired, liveSpend, ← GoMap.sumOver_add, spendOn]
    refine GoMap.sumOver_congr fun k raw _ => ?_
    by_cases hcanonical : k = canonicalKey
    · simp [isReplica, hcanonical, show canonicalKey ≠ retiredKey by decide]
    · by_cases hretired : k = retiredKey
      · simp [isReplica, hretired, show retiredKey ≠ canonicalKey by decide]
      · cases live k <;> simp [isReplica, hcanonical, hretired]
  retired hchanged ns := by
    rw [h.spendAt_eq (.inl rfl), h.at0_retired, spendAt_eq_sumOver]
    refine GoMap.sumOver_congr fun k raw hraw => ?_
    by_cases hretired : k = retiredKey
    · simp [hretired]
    · split_ifs with hgone
      · -- nothing was pruned: the partial of a replica that is gone is of another period
        refine currentSpend_of_not_isCurrent (Bool.eq_false_iff.mpr fun hcurrent => ?_) ns
        have hprunes : prunes live P k raw = true := by
          rw [prunes, hgone.resolve_left hretired, hcurrent]
          rfl
        rw [h.retiredChanged.mpr ⟨k, raw, hraw, hprunes⟩] at hchanged
        cases hchanged
      · rfl
  retiredKeys ns hns := by
    obtain ⟨-, raw, -, -, hspend⟩ := (h.mem_retired ns).mp hns
    obtain ⟨p, hparse, -, hmem⟩ := mem_spendIn hspend
    exact isSpendKey_of_parsed hparse hmem
  cents hcents ns := by
    rw [h.at0_current, h.at0_retired]
    exact ⟨hcents.sumOver _ (by simp [isReplica]) ns,
      hcents.sumOver _ (by simp [isReplica, show canonicalKey ≠ retiredKey by decide]) ns⟩

/-! ## A pass -/

/-- What a pass over a ConfigMap leaves. -/
structure Reduced (P : String) (data : GoMap String RawValue) (r : Reduction) : Prop where
  /-- the canonical total is the spend that was on the ConfigMap -/
  total : ∀ ns, r.current.at0 ns = spendOn P data ns
  canonical : ∃ raw, r.data.lookup canonicalKey = some raw ∧
    raw.isText (formatSpend r.current) = true
  kept : ∀ k, k ≠ canonicalKey → k ≠ retiredKey →
    r.data.lookup k = data.lookup k ∨ r.data.lookup k = none
  unchanged : r.changed = false → r.data = data
  cents : CentsOn P r.data
  /-- no spend is added -/
  le : ∀ ns, spendOn P r.data ns ≤ spendOn P data ns
  /-- and none is lost while the amounts are in range -/
  eq : (∀ ns, r.current.at0 ns < floatLimit) → ∀ ns, spendOn P r.data ns = spendOn P data ns

/-- The ConfigMap after the retired accumulator is written. -/
def BudgetFold.retire (f : BudgetFold) (P : String) : GoMap String RawValue :=
  if f.retiredChanged then
    f.data.insert retiredKey (.object (retiredPartial P f.retired).marshalJSON)
  else f.data

theorem Folded.spendAt_retire (h : Folded P data f)
    (hcents : ∀ ns, WholeCents (f.retired.at0 ns)) (ns : String) :
    spendAt P (f.retire P) retiredKey ns ≤ f.retired.at0 ns ∧
      ((∀ ns, f.retired.at0 ns < floatLimit) →
        spendAt P (f.retire P) retiredKey ns = f.retired.at0 ns) := by
  unfold BudgetFold.retire
  cases hch : f.retiredChanged with
  | false =>
    have hold := h.retired hch ns
    exact ⟨hold.ge, fun _ => hold.symm⟩
  | true =>
    exact ⟨(currentSpend_rendered rfl hcents ns).2.1, fun hrange =>
      currentSpend_rendered_eq rfl hcents hrange h.retiredKeys rfl ns⟩

theorem liveOn_retire (ns : String) : liveOn P (f.retire P) ns = liveOn P f.data ns := by
  unfold BudgetFold.retire
  split
  · exact liveOn_insert (.inr rfl)
  · rfl

theorem Folded.cents_retire (h : Folded P data f) (hdata : CentsOn P data)
    (hcents : ∀ ns, WholeCents (f.retired.at0 ns)) : CentsOn P (f.retire P) := by
  have hkept : CentsOn P f.data := by
    intro k raw hraw
    rcases h.kept k with heq | hnone
    · exact hdata k raw (heq ▸ hraw)
    · rw [hnone] at hraw
      cases hraw
  unfold BudgetFold.retire
  split
  · intro k raw hraw hk ns
    rw [GoMap.lookup_insert_eq] at hraw
    split_ifs at hraw with hkey
    · cases hraw
      exact (currentSpend_rendered rfl hcents ns).2.2
    · exact hkept k raw hraw hk ns
  · exact hkept

theorem spendOn_insert_canonical (P : String) (data : GoMap String RawValue) (raw : RawValue)
    (ns : String) : spendOn P (data.insert canonicalKey raw) ns = spendOn P data ns := by
  rw [spendOn_eq, spendOn_eq, liveOn_insert (.inl rfl), spendAt, GoMap.lookup_insert_eq,
    if_neg (show retiredKey ≠ canonicalKey by decide)]
  rfl

/-- `_retired` and `_canonical` written after the loop. -/
def BudgetFold.finish (f : BudgetFold) (P : String) : Reduction :=
  let current := f.current.addAll f.retired
  if ((f.retire P).lookup canonicalKey).elim false fun raw => raw.isText (formatSpend current) then
    ⟨f.retire P, f.changed || f.retiredChanged, current, f.marginRaised⟩
  else ⟨(f.retire P).insert canonicalKey (.object (formatSpend current)), true, current,
    f.marginRaised⟩

theorem reduced_finish (hfold : Folded P data f) (hdata : CentsOn P data) :
    Reduced P data (f.finish P) := by
  have hret : ∀ ns, WholeCents (f.retired.at0 ns) := fun ns => (hfold.cents hdata ns).2
  have htotal : ∀ ns, f.retired.at0 ns + liveOn P f.data ns = spendOn P data ns := fun ns => by
    rw [← hfold.live, add_comm, hfold.total]
  have hcurrent : ∀ ns, (f.current.addAll f.retired).at0 ns = spendOn P data ns := fun ns => by
    rw [GoMap.at0_addAll, hfold.total]
  have hle : ∀ ns, spendOn P (f.retire P) ns ≤ spendOn P data ns := fun ns => by
    rw [spendOn_eq, liveOn_retire, ← htotal]
    linarith [(hfold.spendAt_retire hret ns).1]
  have heq : (∀ ns, (f.current.addAll f.retired).at0 ns < floatLimit) →
      ∀ ns, spendOn P (f.retire P) ns = spendOn P data ns := fun hrange ns => by
    have hrange' : ∀ ns, f.retired.at0 ns < floatLimit := fun ns => by
      have := hrange ns
      rw [GoMap.at0_addAll] at this
      linarith [(hfold.cents hdata ns).1.nonneg]
    rw [spendOn_eq, liveOn_retire, ← htotal, (hfold.spendAt_retire hret ns).2 hrange']
  have hkept : ∀ k, k ≠ canonicalKey → k ≠ retiredKey →
      (f.retire P).lookup k = data.lookup k ∨ (f.retire P).lookup k = none := by
    intro k _ hk
    unfold BudgetFold.retire
    split
    · rw [AList.lookup_insert_ne hk]
      exact hfold.kept k
    · exact hfold.kept k
  have hunchanged : (f.changed || f.retiredChanged) = false → f.retire P = data := by
    intro hch
    rw [Bool.or_eq_false_iff] at hch
    unfold BudgetFold.retire
    rw [hch.2]
    exact hfold.unchanged hch.1
  have hretcents := hfold.cents_retire hdata hret
  unfold BudgetFold.finish
  dsimp only
  split_ifs with hsame
  · refine ⟨hcurrent, ?_, hkept, hunchanged, hretcents, hle, heq⟩
    cases hraw : (f.retire P).lookup canonicalKey with
    | none => simp [hraw] at hsame
    | some raw => exact ⟨raw, rfl, by simpa [hraw] using hsame⟩
  · refine ⟨hcurrent, ⟨_, AList.lookup_insert _, List.isPerm_iff.mpr (.refl _)⟩, fun k hk hk' => ?_,
      fun h => Bool.noConfusion h, fun k raw hraw hk => ?_, fun ns => ?_, fun hrange ns => ?_⟩
    · rw [AList.lookup_insert_ne hk]
      exact hkept k hk hk'
    · rw [AList.lookup_insert_ne hk] at hraw
      exact hretcents k raw hraw hk
    · rw [spendOn_insert_canonical]
      exact hle ns
    · rw [spendOn_insert_canonical]
      exact heq hrange ns

theorem reduced_reconcileBudget (live : String → Bool) (horder : order.Perm data.entries)
    (hdata : CentsOn P data) : Reduced P data (reconcileBudget data order live P) :=
  reduced_finish (looped_runLoop (reduces_foldBudgetKey live P) horder).folded hdata

end Kaalm.Controller
