/-
  Gateway/Counters.lean --- the counters beside the enforcement maps.

  THE ROWS.  Every cost lands on the counter of its namespace and on the row of its
  workload, and a rollover clears both.  A row belongs to one namespace because a
  namespace name holds no slash.

  THE TRACKER.  `rateBuckets` splits the settled costs of a period into buckets of
  ten seconds, each opened by the first cost after the one before has ended.  The
  tracker closes a bucket when it opens the next, so the peak is the fastest bucket
  but the newest (`Tracks`).
-/
import Kaalm.Foundation.Text
import Kaalm.Gateway.BudgetCap
import Kaalm.Gateway.Effect

namespace Kaalm.Gateway

open Kaalm.Foundation Kaalm.Foundation.Text

/-! ## Rows -/

/-- A namespace name holds no slash. -/
def isNamespace (ns : String) : Bool := !ns.toList.contains '/'

/-- The row is one of the namespace, as `WorkloadSpend` finds it. -/
def isRowOf (ns key : String) : Bool := (cutStart (ns ++ "/") key).isSome

def rowsOf (ns : String) (rows : GoMap String ℚ) : ℚ :=
  rows.sumOver fun key v => if isRowOf ns key then v else 0

variable {ns ns' key : String}

theorem isRowOf_iff : isRowOf ns key = true ↔ ∃ rest, key.toList = ns.toList ++ '/' :: rest := by
  have hlist : (ns ++ "/").toList = ns.toList ++ ['/'] := by simp
  rw [isRowOf, cutStart, hlist]
  split_ifs with h
  · obtain ⟨rest, hrest⟩ := List.isPrefixOf_iff_prefix.mp h
    simp [← hrest]
  · refine iff_of_false (by simp) ?_
    rintro ⟨rest, hrest⟩
    exact h (List.isPrefixOf_iff_prefix.mpr ⟨rest, by simp [hrest]⟩)

theorem namespace_unique (hns : isNamespace ns = true) (hns' : isNamespace ns' = true)
    (h : isRowOf ns key = true) (h' : isRowOf ns' key = true) : ns = ns' := by
  obtain ⟨rest, hrest⟩ := isRowOf_iff.mp h
  obtain ⟨rest', hrest'⟩ := isRowOf_iff.mp h'
  exact String.toList_inj.mp (eq_of_append_sep (by simpa [isNamespace] using hns)
    (by simpa [isNamespace] using hns') (hrest.symm.trans hrest')).1

theorem isRowOf_row (hns : isNamespace ns = true) (hns' : isNamespace ns' = true)
    (workload : String) : isRowOf ns (ns' ++ "/" ++ workload) = decide (ns = ns') := by
  have hself : isRowOf ns' (ns' ++ "/" ++ workload) = true := isRowOf_iff.mpr ⟨_, by simp; rfl⟩
  rw [Bool.eq_iff_iff, decide_eq_true_eq]
  exact ⟨fun h => namespace_unique hns hns' h hself, fun h => h ▸ hself⟩

theorem rowsOf_addTo (rows : GoMap String ℚ) (key : String) (cost : ℚ) :
    rowsOf ns (rows.addTo key cost) = rowsOf ns rows + if isRowOf ns key then cost else 0 := by
  have hold : (rows.lookup key).elim 0 (fun v => if isRowOf ns key then v else 0) =
      if isRowOf ns key then rows.at0 key else 0 := by
    cases h : rows.lookup key <;> simp [GoMap.at0, h]
  rw [rowsOf, rowsOf, GoMap.addTo, GoMap.sumOver_insert, GoMap.sumOver_eq_add_erase rows _ key,
    hold]
  split_ifs <;> ring

def RowsSum (l : ProviderLedger) : Prop :=
  ∀ ns, isNamespace ns = true → l.own.at0 ns = rowsOf ns l.ownW

variable {l : ProviderLedger} {b : BudgetLedger}

theorem RowsSum.land (h : RowsSum l) (hns : isNamespace ns = true) (workload : String) (cost : ℚ)
    (t t' : Time) : RowsSum (l.land ns workload cost t t') := by
  intro ns' hns'
  obtain ⟨_, _, _, _, hland⟩ := l.land_frame ns workload cost t t'
  rw [hland]
  show (l.own.addTo ns cost).at0 ns' = rowsOf ns' (l.ownW.addTo (ns ++ "/" ++ workload) cost)
  rw [GoMap.at0_addTo, rowsOf_addTo, isRowOf_row hns' hns, h ns' hns']
  simp

/-- So they do for every provider. -/
def BudgetLedger.RowsSum (b : BudgetLedger) : Prop :=
  ∀ n l, b.providers.lookup n = some l → Gateway.RowsSum l

namespace BudgetLedger.RowsSum

theorem put (h : b.RowsSum) (n : String) (hl : Gateway.RowsSum l) : (b.put n l).RowsSum := by
  intro m l' hm
  by_cases hn : m = n
  · subst hn
    rw [b.lookup_put_self] at hm
    cases hm
    exact hl
  · rw [b.lookup_put_ne l hn] at hm
    exact h m l' hm

theorem ledgerFor (h : b.RowsSum) (n : String) (scheme : PeriodScheme) (t : Time) :
    Gateway.RowsSum (b.ledgerFor n scheme t) := by
  unfold BudgetLedger.ledgerFor
  dsimp only
  split_ifs
  · exact fun _ _ => rfl
  · unfold stored
    cases hl : b.providers.lookup n with
    | none => exact fun _ _ => rfl
    | some l => exact h n l hl

theorem add (h : b.RowsSum) (provider : ModelProvider) (hns : isNamespace ns = true)
    (workload : String) (cost : ℚ) (clock : Clock) :
    (b.add provider ns workload cost clock).RowsSum := by
  simp only [BudgetLedger.add]
  split_ifs
  · exact h
  · exact h.put _ ((h.ledgerFor _ _ _).land hns _ _ _ _)

theorem settle (h : b.RowsSum) {handle : Settle} (hns : isNamespace handle.namespace_ = true)
    (cost : ℚ) (clock : Clock) : (b.settle handle cost clock).RowsSum := by
  obtain ⟨l, hl, hstored⟩ := b.settle_providers handle cost clock
  have hread : Gateway.RowsSum l := hl ▸ h.ledgerFor handle.providerName handle.scheme clock.t0
  rw [BudgetLedger.RowsSum, hstored]
  refine h.put handle.providerName ?_
  split_ifs
  · exact hread
  · exact hread.land hns _ _ _ _

theorem admitRequest (h : b.RowsSum) (provider : ModelProvider) (ns workload : String)
    (clock : Clock) (wall : Time) :
    (b.admitRequest provider ns workload clock wall).ledger.RowsSum := by
  have hout := admit_outcome b provider ns workload clock wall
  generalize b.admitRequest provider ns workload clock wall = res at hout
  cases hout with
  | off => exact h
  | soft | refused | plain | slotted =>
    exact h.put _ (h.ledgerFor provider.name provider.budget.period clock.t1)

theorem markPublished (h : b.RowsSum) (n : String) (snapshot : Time) :
    (b.markPublished n snapshot).RowsSum := by
  intro m l' hm
  rcases b.markPublished_lookup n snapshot m with hsame | ⟨l, hl, hmarked⟩
  · exact h m l' (hsame ▸ hm)
  · rw [Option.some.inj (hm.symm.trans hmarked)]
    exact h m l hl

end BudgetLedger.RowsSum

def namespaceOf? : LedgerEvent → Option String
  | .admission _ ns _ _ _ | .add _ ns _ _ _ => some ns
  | _ => none

/-- What every step keeps: the sums, and requests of namespaces. -/
structure RowsOk (s : LedgerState) : Prop where
  rows : s.ledger.RowsSum
  requests : ∀ r ∈ s.requests, isNamespace r.ns = true

variable {s s' : LedgerState} {e : LedgerEvent}

theorem RowsOk.requests_close (h : RowsOk s) {i : Nat} {r : Request}
    (hi : s.requests[i]? = some r) :
    ∀ r' ∈ s.requests.set i r.close, isNamespace r'.ns = true := by
  intro r' hr'
  rcases List.mem_or_eq_of_mem_set hr' with hold | rfl
  · exact h.requests r' hold
  · exact h.requests r (List.mem_of_getElem? hi)

theorem RowsOk.step (h : RowsOk s) (hns : (namespaceOf? e).all isNamespace = true)
    (hst : ledgerStep s e = some s') : RowsOk s' := by
  cases e with
  | admission provider ns workload clock wall =>
    obtain ⟨-, rfl⟩ := step_applied rfl rfl hst
    refine ⟨h.rows.admitRequest provider ns workload clock wall, fun r hr => ?_⟩
    simp only [LedgerState.admitted] at hr
    split_ifs at hr
    · rcases List.mem_append.mp hr with hold | hnew
      · exact h.requests r hold
      · rw [List.mem_singleton.mp hnew]
        exact hns
    · exact h.requests r hr
  | settle i cost clock =>
    obtain ⟨r, handle, hi, hh, -, ⟨-, rfl⟩ | ⟨-, rfl⟩⟩ := step_settle hst
    · exact ⟨h.rows, h.requests⟩
    · have hr := h.requests r (List.mem_of_getElem? hi)
      rw [← (r.belongs handle hh).2.2.1] at hr
      exact ⟨h.rows.settle hr cost clock, h.requests_close hi⟩
  | finish i cost clock =>
    obtain ⟨r, hi, -, -, -, rfl⟩ := step_finish hst
    have hr := h.requests r (List.mem_of_getElem? hi)
    exact ⟨h.rows.add r.provider hr r.workload cost clock, h.requests_close hi⟩
  | add provider ns workload cost clock =>
    obtain ⟨-, rfl⟩ := step_applied rfl rfl hst
    exact ⟨h.rows.add provider hns workload cost clock, h.requests⟩
  | enforce provider ns clock wall =>
    obtain ⟨-, rfl⟩ := step_applied rfl rfl hst
    refine ⟨?_, h.requests⟩
    simp only [BudgetLedger.enforce]
    split_ifs
    · exact h.rows
    · exact h.rows.put _ (h.rows.ledgerFor _ _ _)
  | foldPeers provider peers clock | foldWorkloadPeers provider peers clock =>
    obtain ⟨-, rfl⟩ := step_applied rfl rfl hst
    have hread := h.rows.ledgerFor provider.name provider.budget.period clock.t0
    exact ⟨h.rows.put _ hread, h.requests⟩
  | markPublished m snapshot =>
    cases hst
    exact ⟨h.rows.markPublished m snapshot, h.requests⟩
  | setReplicas count =>
    cases hst
    exact ⟨h.rows, h.requests⟩

/-- In every state of a ledger the rows of a namespace sum to its counter, and no row
belongs to two namespaces. -/
theorem workload_rows_sum {t₀ : Time} {es : List LedgerEvent}
    (hrun : Run ledgerStep (fun _ e => (namespaceOf? e).all isNamespace = true) (.initial t₀) es s)
    (n : String) (hl : s.ledger.providers.lookup n = some l) :
    (∀ ns, isNamespace ns = true → l.own.at0 ns = rowsOf ns l.ownW) ∧
      ∀ key ∈ l.ownW, ∀ ns ns', isNamespace ns = true → isNamespace ns' = true →
        isRowOf ns key = true → isRowOf ns' key = true → ns = ns' := by
  have hstart : RowsOk (.initial t₀) :=
    ⟨fun m l' hm => (by cases hm), fun r hr => absurd hr List.not_mem_nil⟩
  have hok : RowsOk s := hrun.invariant (fun _ _ _ h hns hst => h.step hns hst) hstart
  exact ⟨hok.rows n l hl, fun _ _ _ _ hns hns' h h' => namespace_unique hns hns' h h'⟩

/-- Two workloads of a namespace, and one of another. -/
def bookedEvents : List LedgerEvent :=
  [.add (tenDollars []) "team" "agent/a" 1 (.still march2026),
    .add (tenDollars []) "team" "task/b" 2 (.still march2026),
    .add (tenDollars []) "other" "agent/a" 4 (.still march2026)]

theorem workload_rows_sum_booked :
    ∃ s l, Run ledgerStep (fun _ e => (namespaceOf? e).all isNamespace = true) (.initial march2026)
        bookedEvents s ∧ s.ledger.providers.lookup "openai" = some l ∧
      l.ownW.keys.length = 3 ∧ rowsOf "team" l.ownW = 3 ∧
        l.own.at0 "team" = rowsOf "team" l.ownW := by
  have hrun : Run ledgerStep (fun _ e => (namespaceOf? e).all isNamespace = true)
      (.initial march2026) bookedEvents _ := run_getD (by decide +kernel)
  exact ⟨_, _, hrun, rfl, by decide +kernel, by decide +kernel,
    (workload_rows_sum hrun "openai" rfl).1 "team" rfl⟩

/-! ## The tracker -/

structure RateBucket where
  start : Time
  cost : ℚ

def RateBucket.rate (bucket : RateBucket) : ℚ := bucket.cost / seconds rateBucketWidth

def RateBucket.ended (bucket : RateBucket) (t : Time) : Prop := t - bucket.start ≥ rateBucketWidth

instance (bucket : RateBucket) (t : Time) : Decidable (bucket.ended t) :=
  inferInstanceAs (Decidable (_ ≥ _))

/-- A cost settles in the newest bucket, or opens the next once that one has ended. -/
def joinBucket (bs : List RateBucket) (x : Time × ℚ) : List RateBucket :=
  if x.2 ≤ 0 then bs
  else
    match bs with
    | [] => [⟨x.1, x.2⟩]
    | newest :: older =>
      if newest.ended x.1 then ⟨x.1, x.2⟩ :: newest :: older
      else ⟨newest.start, newest.cost + x.2⟩ :: older

/-- The buckets of some settled costs, the newest first. -/
def rateBuckets (xs : List (Time × ℚ)) : List RateBucket := xs.foldl joinBucket []

def ProviderLedger.trackAll (l : ProviderLedger) (xs : List (Time × ℚ)) : ProviderLedger :=
  xs.foldl (fun l x => l.track x.2 x.1) l

/-- The tracker after its buckets: the newest is open, the others are in the peak. -/
structure Tracks (l : ProviderLedger) (bs : List RateBucket) : Prop where
  start : l.rateBucketStart = bs.head?.map (·.start)
  sum : l.rateBucketSum = bs.head?.elim 0 (·.cost)
  peak : ∀ r, 0 < r → (r ≤ l.peakRatePerSec ↔ ∃ bucket ∈ bs.tail, r ≤ bucket.rate)
  pos : ∀ bucket ∈ bs, 0 < bucket.cost

theorem Tracks.step {bs : List RateBucket} (h : Tracks l bs) (x : Time × ℚ) :
    Tracks (l.track x.2 x.1) (joinBucket bs x) ∧
      l.peakRatePerSec ≤ (l.track x.2 x.1).peakRatePerSec := by
  obtain ⟨hstart, hsum, hpeak, hpos⟩ := h
  simp only [joinBucket, ProviderLedger.track]
  by_cases hx : x.2 ≤ 0
  · rw [if_pos hx, if_pos hx]
    exact ⟨⟨hstart, hsum, hpeak, hpos⟩, le_rfl⟩
  rw [if_neg hx, if_neg hx]
  have hx' := not_le.mp hx
  -- the largest cost is not read here
  have hmax : (if x.2 > l.maxCostPerCall then { l with maxCostPerCall := x.2 } else l) =
      { l with maxCostPerCall := if x.2 > l.maxCostPerCall then x.2 else l.maxCostPerCall } := by
    split_ifs <;> rfl
  simp only [hmax]
  cases bs with
  | nil =>
    simp only [hstart, List.head?_nil, Option.map_none]
    exact ⟨⟨rfl, by simp, hpeak, by simpa using hx'⟩, le_rfl⟩
  | cons newest older =>
    simp only [hstart, List.head?_cons, Option.map_some]
    obtain ⟨hnew, hold⟩ := List.forall_mem_cons.mp hpos
    by_cases hended : x.1 - newest.start ≥ rateBucketWidth
    · rw [if_pos hended, if_pos (show newest.ended x.1 from hended)]
      have hrate : l.rateBucketSum / seconds rateBucketWidth = newest.rate := by rw [hsum]; rfl
      simp only [hrate, gt_iff_lt, ← max_def_lt]
      refine ⟨⟨rfl, zero_add _, fun r hr => ?_, List.forall_mem_cons.mpr ⟨hx', hpos⟩⟩,
        le_max_left _ _⟩
      rw [le_max_iff, hpeak r hr, or_comm]
      simp
    · rw [if_neg hended, if_neg (show ¬newest.ended x.1 from hended)]
      exact ⟨⟨rfl, by simp [hsum], hpeak, List.forall_mem_cons.mpr ⟨add_pos hnew hx', hold⟩⟩,
        le_rfl⟩

theorem Tracks.run {bs : List RateBucket} (h : Tracks l bs) (xs : List (Time × ℚ)) :
    Tracks (l.trackAll xs) (xs.foldl joinBucket bs) ∧
      l.peakRatePerSec ≤ (l.trackAll xs).peakRatePerSec := by
  induction xs generalizing l bs with
  | nil => exact ⟨h, le_rfl⟩
  | cons x xs ih =>
    obtain ⟨hstep, hle⟩ := h.step x
    exact (ih hstep).imp_right hle.trans

theorem Tracks.rollover (period : String) : Tracks (l.rollover period) [] where
  start := rfl
  sum := rfl
  peak r hr := by simpa [ProviderLedger.rollover] using hr
  pos := by simp

theorem Tracks.covers_iff {bs : List RateBucket} (h : Tracks l bs) (t : Time) :
    (∀ bucket ∈ bs, bucket.ended t → bucket.rate ≤ l.peakRatePerSec) ↔
      ∀ newest older, bs = newest :: older → newest.ended t →
        ∃ bucket ∈ older, newest.rate ≤ bucket.rate := by
  have hpeak := fun bucket hb => h.peak (RateBucket.rate bucket)
    (div_pos (h.pos bucket hb) (by decide +kernel))
  constructor
  · rintro hall newest older rfl hended
    exact (hpeak newest List.mem_cons_self).mp (hall newest List.mem_cons_self hended)
  · intro hfast bucket hb hended
    rw [hpeak bucket hb]
    cases bs with
    | nil => cases hb
    | cons newest older =>
      rcases List.mem_cons.mp hb with rfl | hold
      · exact hfast bucket older rfl hended
      · exact ⟨bucket, hold, le_rfl⟩

/-- The peak covers the buckets that have ended exactly when the newest has not, or an
earlier one of the period was as fast.  It never falls. -/
theorem peak_covers_iff (l : ProviderLedger) (period : String) (xs : List (Time × ℚ)) (t : Time) :
    ((∀ bucket ∈ rateBuckets xs, bucket.ended t →
        bucket.rate ≤ ((l.rollover period).trackAll xs).peakRatePerSec) ∧
      ∀ ys, ((l.rollover period).trackAll xs).peakRatePerSec ≤
        ((l.rollover period).trackAll (xs ++ ys)).peakRatePerSec) ↔
      ∀ newest older, rateBuckets xs = newest :: older → newest.ended t →
        ∃ bucket ∈ older, newest.rate ≤ bucket.rate := by
  have htracks : Tracks _ (rateBuckets xs) := ((Tracks.rollover (l := l) period).run xs).1
  rw [htracks.covers_iff t, and_iff_left]
  · intro ys
    rw [ProviderLedger.trackAll, ProviderLedger.trackAll, List.foldl_append]
    exact (htracks.run ys).2

/-- A dollar, and nothing in the twenty seconds after it. -/
theorem ended_bucket_uncovered :
    rateBuckets [(march2026, 1)] = [⟨march2026, 1⟩] ∧
      RateBucket.ended ⟨march2026, 1⟩ (march2026 + 20 * second) ∧
      (((ProviderLedger.new "2026-03").rollover "2026-03").trackAll
        [(march2026, 1)]).peakRatePerSec <
        RateBucket.rate ⟨march2026, 1⟩ :=
  ⟨rfl, by decide +kernel, by decide +kernel⟩

end Kaalm.Gateway
