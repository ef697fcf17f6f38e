/-
  Controller/BudgetArchive.lean --- the archived totals of the previous period
  (`internal/controller/modelprovider_budget.go`).

  WHAT A PASS ARCHIVES.  The loop adds every readable entry of another period to one map
  and keeps the tag of the last one it met, in the order of the map.  The entries are
  deleted with the pass, and the next pass builds the status anew from what it finds.

  WHEN THAT IS RIGHT.  Under every order, the status holds the totals of the previous
  period exactly if nothing of other periods is mixed in and the entries are still there
  (`Archivable`).
-/
import Kaalm.Controller.BudgetStatus
import Kaalm.Controller.Conserved

namespace Kaalm.Controller

open Kaalm.Foundation Kaalm.Gateway

def stalePartial (P : String) (e : Sigma fun _ : String => RawValue) : Option ParsedPartial :=
  if e.1 = canonicalKey then none
  else (parseBudgetPartial e.2).filter fun p => p.period ≠ P

def staleOn (P : String) (data : GoMap String RawValue) : List ParsedPartial :=
  data.entries.filterMap (stalePartial P)

def sumSpend (partials : List ParsedPartial) : GoMap String ℚ :=
  partials.foldl (fun m p => m.addAll p.spend) ∅

/-! ## The loop -/

theorem previous_foldBudgetKey (live : String → Bool) (P : String) (f : BudgetFold) (k : String)
    (raw : RawValue) :
    (foldBudgetKey live P f k raw).previous =
      (stalePartial P ⟨k, raw⟩).elim f.previous (fun p => f.previous.addAll p.spend) ∧
    (foldBudgetKey live P f k raw).previousPeriod =
      (stalePartial P ⟨k, raw⟩).elim f.previousPeriod (·.period) := by
  unfold foldBudgetKey stalePartial
  split_ifs with hcanonical hretired hlive
  · exact ⟨rfl, rfl⟩
  all_goals
    cases hparse : parseBudgetPartial raw with
    | none => exact ⟨rfl, rfl⟩
    | some p =>
      by_cases hp : p.period = P <;>
        simp [Option.filter, hp, BudgetFold.archive, BudgetFold.drop]

theorem previous_foldBudgetKeys (data : GoMap String RawValue) (live : String → Bool) (P : String)
    (order : List (Sigma fun _ : String => RawValue)) :
    (foldBudgetKeys data order live P).previous = sumSpend (order.filterMap (stalePartial P)) ∧
    (foldBudgetKeys data order live P).previousPeriod =
      (order.filterMap (stalePartial P)).getLast?.elim "" (·.period) := by
  have hloop : ∀ (rest : List (Sigma fun _ : String => RawValue)) (f : BudgetFold),
      (rest.foldl (fun f e => foldBudgetKey live P f e.1 e.2) f).previous =
        (rest.filterMap (stalePartial P)).foldl (fun m p => m.addAll p.spend) f.previous ∧
      (rest.foldl (fun f e => foldBudgetKey live P f e.1 e.2) f).previousPeriod =
        (rest.filterMap (stalePartial P)).getLast?.elim f.previousPeriod (·.period) := by
    intro rest
    induction rest with
    | nil => exact fun f => ⟨rfl, rfl⟩
    | cons e rest ih =>
      intro f
      obtain ⟨hprevious, hperiod⟩ := previous_foldBudgetKey live P f e.1 e.2
      rw [List.foldl_cons, (ih _).1, (ih _).2, hprevious, hperiod]
      cases hstale : stalePartial P e with
      | none =>
        rw [List.filterMap_cons_none hstale]
        exact ⟨rfl, rfl⟩
      | some p =>
        rw [List.filterMap_cons_some hstale, List.foldl_cons]
        refine ⟨rfl, ?_⟩
        cases hlast : (rest.filterMap (stalePartial P)).getLast? with
        | none =>
          rw [List.getLast?_eq_none_iff.mp hlast]
          rfl
        | some q => rw [List.getLast?_cons, hlast]; rfl
  exact hloop order { data := data }

section Sums

variable {partials partials' : List ParsedPartial}

theorem mem_sumSpend (partials : List ParsedPartial) (ns : String) :
    ns ∈ sumSpend partials ↔ ∃ p ∈ partials, ns ∈ p.spend := by
  have hloop := GoMap.foldl_iff_exists (fun m : GoMap String ℚ => ns ∈ m)
    (fun p : ParsedPartial => ns ∈ p.spend) (fun _ _ => GoMap.mem_addAll) partials ∅
  rw [or_iff_right (AList.notMem_empty ns)] at hloop
  exact hloop

theorem at0_sumSpend (partials : List ParsedPartial) (ns : String) :
    (sumSpend partials).at0 ns = (partials.map fun p => p.spend.at0 ns).sum := by
  have hloop : ∀ (rest : List ParsedPartial) (m : GoMap String ℚ),
      (rest.foldl (fun m p => m.addAll p.spend) m).at0 ns =
        m.at0 ns + (rest.map fun p => p.spend.at0 ns).sum := by
    intro rest
    induction rest with
    | nil => intro m; simp
    | cons p rest ih =>
      intro m
      rw [List.foldl_cons, ih, GoMap.at0_addAll, List.map_cons, List.sum_cons, add_assoc]
  rw [sumSpend, hloop, GoMap.at0_empty, zero_add]

theorem lookup_sumSpend_perm (h : partials.Perm partials') (ns : String) :
    (sumSpend partials).lookup ns = (sumSpend partials').lookup ns := by
  refine GoMap.lookup_eq_of_at0 ?_ ?_
  · rw [mem_sumSpend, mem_sumSpend]
    simp only [h.mem_iff]
  · rw [at0_sumSpend, at0_sumSpend, (h.map _).sum_eq]

end Sums

/-! ## The archive -/

/-- Under the tag, the usage holds exactly these amounts. -/
def ArchivesAs (usage : List BudgetUsage) (tag : String) (amounts : GoMap String ℚ) : Prop :=
  ∀ ns text, (∃ u ∈ usage, u.period = tag ∧ u.namespace_ = ns ∧ u.spentUSD = text) ↔
    (amounts.lookup ns).map formatFixed2 = some text

def SameAmounts (m m' : GoMap String ℚ) : Prop :=
  ∀ ns, (m.lookup ns).map formatFixed2 = (m'.lookup ns).map formatFixed2

section Archive

variable {budget : ModelProviderBudget} {P prev : String} {data : GoMap String RawValue}
  {amounts : GoMap String ℚ}

theorem period_of_mem_entries {spend : GoMap String ℚ} {tag : String} {u : BudgetUsage}
    (h : u ∈ budgetUsageEntries budget spend tag) : u.period = tag := by
  obtain ⟨ns, -, rfl⟩ := mem_budgetUsageEntries.mp h
  rfl

theorem archivesAs_entries (budget : ModelProviderBudget) (tag : String) (spend : GoMap String ℚ) :
    ArchivesAs (budgetUsageEntries budget spend tag) tag spend := by
  intro ns text
  constructor
  · rintro ⟨u, hu, -, rfl, rfl⟩
    obtain ⟨ns, hns, rfl⟩ := mem_budgetUsageEntries.mp hu
    obtain ⟨v, hv⟩ := Option.isSome_iff_exists.mp (AList.lookup_isSome.mpr hns)
    simp [usageEntry, GoMap.at0, hv]
  · intro h
    cases hv : spend.lookup ns with
    | none =>
      rw [hv] at h
      cases h
    | some v =>
      refine ⟨_, mem_budgetUsageEntries.mpr ⟨ns, ?_, rfl⟩, rfl, rfl, ?_⟩
      · exact AList.lookup_isSome.mp (by rw [hv]; rfl)
      · simpa [usageEntry, GoMap.at0, hv] using h

/-- The entries of a pass that it archives under the tag: all or none. -/
def archivedAs (tag : String) (stale : List ParsedPartial) : List ParsedPartial :=
  if stale.getLast?.elim "" (·.period) = tag then stale else []

theorem archivesAs_reconcileBudgetStatus (hne : prev ≠ P) (hprev : prev ≠ "")
    (live : String → Bool) (order : List (Sigma fun _ : String => RawValue)) :
    ArchivesAs (reconcileBudgetStatus budget data order live P).budgetUsage prev
      (sumSpend (archivedAs prev (order.filterMap (stalePartial P)))) := by
  obtain ⟨hprevious, hperiod⟩ := previous_foldBudgetKeys data live P order
  -- only the entries of the archive can have the tag
  have hcurrent : ∀ u : BudgetUsage, u.period = prev → u ∉ budgetUsageEntries budget
      ((foldBudgetKeys data order live P).current.addAll
        (foldBudgetKeys data order live P).retired) P := fun u hu h =>
    hne (hu.symm.trans (period_of_mem_entries h))
  intro ns text
  rw [archivedAs, ← hperiod]
  split_ifs with htag
  · rw [← hprevious, ← archivesAs_entries budget prev _ ns text]
    refine exists_congr fun u => and_congr_left fun hu => ?_
    simp only [reconcileBudgetStatus, htag, ne_eq, hprev, not_false_eq_true, if_true,
      List.mem_append, hcurrent u hu.1, false_or]
  · refine iff_of_false ?_ nofun
    rintro ⟨u, hmem, hu, -⟩
    simp only [reconcileBudgetStatus] at hmem
    split_ifs at hmem
    · rcases List.mem_append.mp hmem with h | h
      · exact hcurrent u hu h
      · exact htag ((period_of_mem_entries h).symm.trans hu)
    · exact hcurrent u hu hmem

theorem archivesAs_iff (hne : prev ≠ P) (hprev : prev ≠ "") (live : String → Bool)
    (order : List (Sigma fun _ : String => RawValue)) :
    ArchivesAs (reconcileBudgetStatus budget data order live P).budgetUsage prev amounts ↔
      SameAmounts (sumSpend (archivedAs prev (order.filterMap (stalePartial P)))) amounts := by
  constructor
  · exact fun h ns => Option.ext fun text =>
      (archivesAs_reconcileBudgetStatus hne hprev live order ns text).symm.trans (h ns text)
  · intro h ns text
    rw [archivesAs_reconcileBudgetStatus hne hprev live order ns text, h ns]

/-- When the amounts come out under every order: nothing of an older period is there,
and the entries of the previous one add up to the amounts.  Where entries of an older
period are there, only empty totals do. -/
structure Archivable (P prev : String) (data : GoMap String RawValue) (amounts : GoMap String ℚ) :
    Prop where
  only : (∀ p ∈ staleOn P data, p.period = prev) →
    SameAmounts (sumSpend (staleOn P data)) amounts
  older : ∀ p ∈ staleOn P data, p.period ≠ prev → (∀ ns, ns ∉ amounts) ∧
    ((∃ q ∈ staleOn P data, q.period = prev) → ∀ q ∈ staleOn P data, ∀ ns, ns ∉ q.spend)

theorem exists_order_last {p : ParsedPartial} (hp : p ∈ staleOn P data) :
    ∃ order : List (Sigma fun _ : String => RawValue), order.Perm data.entries ∧
      (order.filterMap (stalePartial P)).getLast? = some p := by
  obtain ⟨e, he, hstale⟩ := List.mem_filterMap.mp hp
  obtain ⟨before, after, hsplit⟩ := List.append_of_mem he
  refine ⟨before ++ after ++ [e], ?_, ?_⟩
  · rw [hsplit]
    exact (List.perm_append_singleton e _).trans List.perm_middle.symm
  · rw [List.filterMap_append, List.filterMap_cons_some hstale, List.filterMap_nil,
      List.getLast?_concat]

theorem sameAmounts_empty_iff {m : GoMap String ℚ} : SameAmounts ∅ m ↔ ∀ ns, ns ∉ m := by
  refine forall_congr' fun ns => ?_
  rw [AList.lookup_empty, ← AList.lookup_eq_none, Option.map_none, eq_comm, Option.map_eq_none_iff]

theorem SameAmounts.trans {m₁ m₂ m₃ : GoMap String ℚ} (h : SameAmounts m₁ m₂)
    (h' : SameAmounts m₂ m₃) : SameAmounts m₁ m₃ := fun ns => (h ns).trans (h' ns)

theorem SameAmounts.symm {m m' : GoMap String ℚ} (h : SameAmounts m m') : SameAmounts m' m :=
  fun ns => (h ns).symm

/-- A pass over the ConfigMap archives the amounts, under every order, exactly if they can
be archived. -/
theorem archivesAs_all_orders_iff (hne : prev ≠ P) (hprev : prev ≠ "") :
    (∀ (live : String → Bool) (order : List (Sigma fun _ : String => RawValue)),
      order.Perm data.entries →
        ArchivesAs (reconcileBudgetStatus budget data order live P).budgetUsage prev amounts) ↔
      Archivable P prev data amounts := by
  simp only [archivesAs_iff hne hprev]
  -- where every entry has the tag, all are archived
  have hown : ∀ stale : List ParsedPartial, (∀ p ∈ stale, p.period = prev) →
      archivedAs prev stale = stale := by
    intro stale hall
    unfold archivedAs
    cases hend : stale.getLast? with
    | none => simp [List.getLast?_eq_none_iff.mp hend]
    | some p => exact if_pos (hall p (List.mem_of_getLast? hend))
  constructor
  · intro h
    refine ⟨fun hall => ?_, fun p hp hold => ?_⟩
    · have hcase := h (fun _ => true) data.entries (.refl _)
      rwa [← staleOn, hown _ hall] at hcase
    · obtain ⟨order, horder, hlast⟩ := exists_order_last hp
      have hcase := h (fun _ => true) order horder
      rw [archivedAs, hlast, Option.elim_some, if_neg hold] at hcase
      refine ⟨sameAmounts_empty_iff.mp hcase, fun ⟨q, hq, htag⟩ r hr ns hns => ?_⟩
      obtain ⟨order, horder, hlast⟩ := exists_order_last hq
      have hsame := h (fun _ => true) order horder
      rw [archivedAs, hlast, Option.elim_some, if_pos htag] at hsame
      refine sameAmounts_empty_iff.mp (hcase.trans hsame.symm) ns
        ((mem_sumSpend _ ns).mpr ⟨r, ?_, hns⟩)
      exact (horder.filterMap _).mem_iff.mpr hr
  · intro h live order horder
    have hperm : (order.filterMap (stalePartial P)).Perm (staleOn P data) := horder.filterMap _
    by_cases hall : ∀ q ∈ staleOn P data, q.period = prev
    · rw [hown _ fun q hq => hall q (hperm.mem_iff.mp hq)]
      intro ns
      rw [lookup_sumSpend_perm hperm]
      exact h.only hall ns
    · simp only [not_forall] at hall
      obtain ⟨q, hq, hold⟩ := hall
      obtain ⟨hnone, hnames⟩ := h.older q hq hold
      refine SameAmounts.trans (SameAmounts.symm (sameAmounts_empty_iff.mpr fun ns hns => ?_))
        (sameAmounts_empty_iff.mpr hnone)
      obtain ⟨r, hr, hns⟩ := (mem_sumSpend _ ns).mp hns
      unfold archivedAs at hr
      split_ifs at hr with htag
      · cases hend : (order.filterMap (stalePartial P)).getLast? with
        | none => simp [hend, hprev.symm] at htag
        | some p =>
          rw [hend] at htag
          exact hnames ⟨p, hperm.mem_iff.mp (List.mem_of_getLast? hend), htag⟩ r
            (hperm.mem_iff.mp hr) ns hns
      · cases hr

end Archive

def totalsOf (P prev : String) (data : GoMap String RawValue) : GoMap String ℚ :=
  sumSpend ((staleOn P data).filter fun p => p.period = prev)

/-- Over any contents that the passes of a period find, the status archives the previous
period's totals of the first one, after each of them and under every order, exactly if they
can be archived from each of the contents. -/
theorem archive_correct_iff (budget : ModelProviderBudget) (P prev : String) (hne : prev ≠ P)
    (hprev : prev ≠ "") (first : GoMap String RawValue) (later : List (GoMap String RawValue)) :
    (∀ data ∈ first :: later, ∀ (live : String → Bool)
      (order : List (Sigma fun _ : String => RawValue)), order.Perm data.entries →
        ArchivesAs (reconcileBudgetStatus budget data order live P).budgetUsage prev
          (totalsOf P prev first)) ↔
      ∀ data ∈ first :: later, Archivable P prev data (totalsOf P prev first) :=
  forall₂_congr fun _ _ => archivesAs_all_orders_iff hne hprev

/-- A pass leaves nothing that another pass of the period could archive. -/
theorem staleOn_reconcileBudget {data : GoMap String RawValue}
    {order : List (Sigma fun _ : String => RawValue)} (horder : order.Perm data.entries)
    (live : String → Bool) (P : String) :
    staleOn P (reconcileBudget data order live P).data = [] := by
  refine List.filterMap_eq_nil_iff.mpr fun e he => ?_
  have hkeep : keeps true live P e.1 e.2 = true :=
    (looped_runLoop (reduces_foldBudgetKey live P) horder).keeps_finish
      (List.mem_dlookup (reconcileBudget data order live P).data.nodupKeys he)
  unfold stalePartial
  split_ifs with hcanonical
  · rfl
  · cases hparse : parseBudgetPartial e.2 with
    | none => rfl
    | some p =>
      have hperiod : p.period = P := by
        simp only [keeps, if_neg hcanonical, hparse] at hkeep
        split_ifs at hkeep <;> simp_all
      simp [Option.filter, hperiod]

/-- One replica with five dollars of October, and no spend of November yet. -/
def october : GoMap String RawValue :=
  AList.singleton "gw-0" (.object (retiredPartial "2026-10" (AList.singleton "team" 5)).marshalJSON)

theorem archive_correct_iff_october :
    (staleOn "2026-11" october).length = 1 ∧ ∀ data ∈ [october], ∀ (live : String → Bool)
      (order : List (Sigma fun _ : String => RawValue)), order.Perm data.entries →
        ArchivesAs (reconcileBudgetStatus blockAt100.budget data order live "2026-11").budgetUsage
          "2026-10" (totalsOf "2026-11" "2026-10" october) := by
  have hall : ∀ p ∈ staleOn "2026-11" october, p.period = "2026-10" := by decide +kernel
  have htotals : totalsOf "2026-11" "2026-10" october = sumSpend (staleOn "2026-11" october) :=
    congrArg sumSpend (List.filter_eq_self.mpr fun p hp => decide_eq_true (hall p hp))
  refine ⟨by decide +kernel, (archive_correct_iff blockAt100.budget "2026-11" "2026-10"
    (by decide) (by decide) october []).mpr fun data hdata => ?_⟩
  rw [List.mem_singleton.mp hdata, htotals]
  exact ⟨fun _ _ => rfl, fun p hp hold => absurd (hall p hp) hold⟩

/-- The first pass of November archives October; the second one, over what the first left,
has nothing of October in the status. -/
theorem second_pass_drops_archive :
    "team" ∈ totalsOf "2026-11" "2026-10" october ∧
    ¬ArchivesAs (reconcileBudgetStatus blockAt100.budget
        (reconcileBudget october october.entries (fun _ => true) "2026-11").data
        (reconcileBudget october october.entries (fun _ => true) "2026-11").data.entries
        (fun _ => true) "2026-11").budgetUsage "2026-10"
      (totalsOf "2026-11" "2026-10" october) := by
  have hteam : "team" ∈ totalsOf "2026-11" "2026-10" october := by decide +kernel
  refine ⟨hteam, fun h => ?_⟩
  rw [archivesAs_iff (by decide) (by decide)] at h
  have hstale := staleOn_reconcileBudget (.refl october.entries) (fun _ => true) "2026-11"
  rw [staleOn] at hstale
  exact sameAmounts_empty_iff.mp h "team" hteam

end Kaalm.Controller
