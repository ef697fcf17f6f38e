/-
  Gateway/Slots.lean --- admission slots over whole runs.

  `Books` is the invariant of a provider whose period scheme is stable, stated
  for every reading a later operation can take: the slot table is the lock table
  of the open requests issued in the reading's period (`Foundation/Locks.lean`),
  and the own counters are the costs landed in that period.  `Effect` reduces
  its preservation to one case per kind of step; what the run properties need is
  read off it.
-/
import Kaalm.Foundation.Locks
import Kaalm.Gateway.BudgetCap
import Kaalm.Gateway.Effect

namespace Kaalm.Gateway

open Kaalm.Foundation

/-! ## Who holds what -/

/-- Request `i` is an open request of the provider, issued in period `P`, that
acquired the slot `k`. -/
def Holding (s : LedgerState) (n P : String) (i : Nat) (k : String) : Prop :=
  ∃ r h, s.requests[i]? = some r ∧ r.provider.name = n ∧ r.settled = false ∧
    r.handle = some h ∧ h.capturedPeriod = P ∧ k ∈ h.keys

def LedgerState.tokenOf (s : LedgerState) (i : Nat) : UInt64 :=
  ((s.requests[i]?.bind (·.handle)).map (·.token)).getD 0

variable {s s' : LedgerState} {n P : String} {r : Request} {i o : Nat} {k : String}

theorem mem_slotsIn {handle : Option Settle} :
    k ∈ slotsIn handle P ↔ ∃ h, handle = some h ∧ h.capturedPeriod = P ∧ k ∈ h.keys := by
  cases handle with
  | none => simp [slotsIn]
  | some h => by_cases hcap : h.capturedPeriod = P <;> simp [slotsIn, hcap]

theorem holding_iff : Holding s n P i k ↔ ∃ r, s.requests[i]? = some r ∧ r.provider.name = n ∧
    r.settled = false ∧ k ∈ slotsIn r.handle P := by
  simp only [Holding, mem_slotsIn, exists_and_left]

theorem holding_self (hi : s.requests[i]? = some r) (hn : r.provider.name = n)
    (hopen : r.settled = false) : Holding s n P i k ↔ k ∈ slotsIn r.handle P := by
  simp [holding_iff, hi, hn, hopen]

theorem tokenOf_self (hi : s.requests[i]? = some r) : s.tokenOf i = slotToken r.handle := by
  rw [LedgerState.tokenOf, hi]
  rfl

theorem holding_set (hi : s.requests[i]? = some r)
    (hreq : s'.requests = s.requests.set i r.close) :
    Holding s' n P o k ↔ Holding s n P o k ∧ o ≠ i := by
  rw [holding_iff, holding_iff, hreq]
  by_cases hio : i = o
  · subst hio
    simp [(List.getElem?_eq_some_iff.mp hi).1, Request.close]
  · rw [List.getElem?_set_ne hio, and_iff_left (Ne.symm hio)]

theorem tokenOf_set (hi : s.requests[i]? = some r)
    (hreq : s'.requests = s.requests.set i r.close) : s'.tokenOf o = s.tokenOf o := by
  obtain ⟨hlt, _⟩ := List.getElem?_eq_some_iff.mp hi
  unfold LedgerState.tokenOf
  rw [hreq, List.getElem?_set]
  split_ifs with hio
  · subst hio
    rw [hi]
    rfl
  · rfl

theorem holding_append (hn : r.provider.name = n) (hopen : r.settled = false)
    (hreq : s'.requests = s.requests ++ [r]) :
    Holding s' n P o k ↔
      Holding s n P o k ∨ o = s.requests.length ∧ k ∈ slotsIn r.handle P := by
  rw [holding_iff, holding_iff, hreq]
  rcases lt_trichotomy o s.requests.length with hlt | rfl | hgt
  · simp [List.getElem?_append_left hlt, hlt.ne]
  · simp [hn, hopen]
  · simp [List.getElem?_append_right hgt.le, List.getElem?_eq_none hgt.le, hgt.ne',
      Nat.sub_ne_zero_of_lt hgt]

theorem tokenOf_append (hreq : s'.requests = s.requests ++ [r]) (h : Holding s n P o k) :
    s'.tokenOf o = s.tokenOf o := by
  obtain ⟨_, _, hget, _⟩ := h
  have hlt := (List.getElem?_eq_some_iff.mp hget).1
  unfold LedgerState.tokenOf
  rw [hreq, List.getElem?_append_left hlt]

/-! ## The invariant -/

/-- The books of provider `n` under the stable scheme `σ`, for every reading a
later operation can take. -/
structure Books (n : String) (σ : PeriodScheme) (s : LedgerState) : Prop where
  coherent : Coherent n σ s
  slots : ∀ u, s.now ≤ u →
    Locked (Holding s n (periodKey σ u)) s.tokenOf (s.view n σ u).adm
  own : ∀ u, s.now ≤ u → ∀ ns,
    (s.view n σ u).own.at0 ns = landedIn s.landed n ns (periodKey σ u)

theorem books_initial (n : String) (σ : PeriodScheme) (t : Time) : Books n σ (.initial t) := by
  have hview : ∀ u, ((LedgerState.initial t).view n σ u).Clean := fun u =>
    BudgetLedger.clean_of_ne fun l hl => by simp [LedgerState.initial, newBudgetLedger] at hl
  refine ⟨coherent_initial n σ t, ?_, ?_⟩
  · intro u _
    rw [(hview u).adm]
    refine .empty fun o k hk => ?_
    obtain ⟨r, _, hget, _⟩ := hk
    simp [LedgerState.initial] at hget
  · intro u _ ns
    rw [(hview u).own, GoMap.at0_empty]
    rfl

variable {σ : PeriodScheme} {e : LedgerEvent}

theorem Books.slots_step (hb : Books n σ s) (heff : Effect n σ s e s')
    (hnow : s.now ≤ s'.now) (u : Time) (hu : s'.now ≤ u) :
    Locked (Holding s' n (periodKey σ u)) s'.tokenOf (s'.view n σ u).adm := by
  have hold := hb.slots u (hnow.trans hu)
  cases heff with
  | idle hreq hadm =>
    rw [hadm u hu]
    have hiff : ∀ o k, Holding s' n (periodKey σ u) o k ↔ Holding s n (periodKey σ u) o k := by
      intro o k
      constructor
      · rintro ⟨r, h, hget, hn, hrest⟩
        exact ⟨r, h, (hreq.get o r hn).mp hget, hn, hrest⟩
      · rintro ⟨r, h, hget, hn, hrest⟩
        exact ⟨r, h, (hreq.get o r hn).mpr hget, hn, hrest⟩
    refine hold.congr hiff ?_
    rintro o k ⟨r, h, hget, hn, _⟩
    rw [tokenOf_self hget, tokenOf_self ((hreq.get o r hn).mp hget)]
  | opened r clock wall he hn hopen hadmitted hreq hadm =>
    obtain ⟨hfree, htaken⟩ := hadm u hu
    have htok : s'.tokenOf s.requests.length = slotToken r.handle :=
      tokenOf_self (by rw [hreq]; simp)
    refine (hold.congr (fun _ _ => .rfl) fun o k hk => tokenOf_append hreq hk).acquire
      (fun k ⟨_, _, hget, _⟩ => by simp at hget) hfree (fun k => ?_) fun o k =>
        holding_append hn hopen hreq
    rw [htaken, lookup_acquire, htok]
  | closed i r cost clock he hi hn hopen hcalls hreq hadm =>
    refine (hold.congr (fun _ _ => .rfl) fun o k _ => tokenOf_set hi hreq).release (fun k hk => ?_)
      (fun k hk => ?_) fun o k => holding_set hi hreq
    · have hentry := hold.entry i k hk
      rw [tokenOf_self hi] at hentry
      rw [hadm u hu k, if_pos ⟨(holding_self hi hn hopen).mp hk, hentry⟩]
    · rw [hadm u hu k, if_neg fun hcon => hk ((holding_self hi hn hopen).mpr hcon.1)]

theorem books_step (hb : Books n σ s) (hs : SameScheme n σ s e)
    (hst : ledgerStep s e = some s') : Books n σ s' where
  coherent := coherent_step hb.coherent hs hst
  slots := hb.slots_step (step_effect hb.coherent hs hst) (step_now_le hst)
  own u hu ns := by
    obtain ⟨extra, hland, hown⟩ := (step_reads hb.coherent hs hst hu).own
    rw [hown, hb.own u ((step_now_le hst).trans hu), hland, landedIn_append]

theorem books_run {es : List LedgerEvent} (hb : Books n σ s)
    (hrun : Run ledgerStep (SameScheme n σ) s es s') :
    Books n σ s' ∧ ∃ later, s'.landed = s.landed ++ later := by
  refine hrun.invariant (I := fun x => Books n σ x ∧ ∃ later, x.landed = s.landed ++ later)
    ?_ ⟨hb, [], by simp⟩
  rintro x e x' ⟨hx, later, hlater⟩ hg hst
  refine ⟨books_step hx hg hst, ?_⟩
  obtain ⟨extra, hextra, -⟩ := (step_reads hx.coherent hg hst le_rfl).own
  exact ⟨later ++ extra, by rw [hextra, hlater, List.append_assoc]⟩

/-! ## The discipline of the slots -/

/-- What holds in a state about the slots of provider `n`, its closures and the
costs they land.  `u` is any reading from now on. -/
structure SlotDiscipline (n : String) (σ : PeriodScheme) (s : LedgerState) : Prop where
  /-- one open request of the current period per slot -/
  exclusive : ∀ u, s.now ≤ u → ∀ i j k,
    Holding s n (periodKey σ u) i k → Holding s n (periodKey σ u) j k → i = j
  /-- the first call of a closure frees the slots its own request holds, and no
  other: a closure of a past period holds none -/
  frees_own : ∀ i r cost clock s', s.requests[i]? = some r → r.provider.name = n →
    r.settled = false → ledgerStep s (.settle i cost clock) = some s' →
    ∀ k, (Holding s n (periodKey σ clock.t0) i k →
        (s'.view n σ clock.t0).adm.lookup k = none) ∧
      (¬ Holding s n (periodKey σ clock.t0) i k →
        (s'.view n σ clock.t0).adm.lookup k = (s.view n σ clock.t0).adm.lookup k)
  /-- the first call lands the cost on its namespace, once -/
  lands : ∀ i r cost clock s', s.requests[i]? = some r → r.provider.name = n →
    r.settled = false → ledgerStep s (.settle i cost clock) = some s' →
    ∀ ns, (s'.view n σ clock.t0).own.at0 ns =
      (s.view n σ clock.t0).own.at0 ns + if ns = r.ns then cost else 0
  /-- later calls do nothing -/
  idempotent : ∀ i r cost clock s', s.requests[i]? = some r → r.settled = true →
    ledgerStep s (.settle i cost clock) = some s' → s'.ledger = s.ledger ∧
      s'.requests = s.requests ∧ s'.landed = s.landed
  /-- every later `Admit` of the period decides on a utilization whose own counter
  is the costs landed before, this one, and the costs landed since -/
  counted : ∀ i r cost clock s', s.requests[i]? = some r → r.provider.name = n →
    r.settled = false → ledgerStep s (.settle i cost clock) = some s' →
    ∀ es s'', Run ledgerStep (SameScheme n σ) s' es s'' →
    ∀ provider ns workload clock' wall, provider.name = n → provider.budget.period = σ →
    s''.now ≤ clock'.t1 → periodKey σ clock'.t1 = periodKey σ clock.t0 →
    AdmitOutcome s''.ledger provider ns workload clock' wall (s''.view n σ clock'.t1)
        (utilizationLocked provider.budget (s''.view n σ clock'.t1) ns)
        (s''.ledger.admitRequest provider ns workload clock' wall) ∧
      ∃ later, s''.landed = s'.landed ++ later ∧
        (s''.view n σ clock'.t1).own.at0 r.ns =
          landedIn s.landed n r.ns (periodKey σ clock.t0) + cost +
            landedIn later n r.ns (periodKey σ clock.t0)
  /-- once every request of the period has settled, no slot is held -/
  drained : ∀ u, s.now ≤ u →
    (∀ r ∈ s.requests, r.provider.name = n → ∀ h, r.handle = some h →
      h.capturedPeriod = periodKey σ u → r.settled = true) →
    (s.view n σ u).adm = ∅

variable {clock : Clock} {cost : ℚ}

theorem settle_first (hi : s.requests[i]? = some r) (hopen : r.settled = false)
    (hst : ledgerStep s (.settle i cost clock) = some s') :
    ∃ h, r.handle = some h ∧ s.now ≤ clock.t0 ∧
      s'.ledger = s.ledger.settle h cost clock ∧
      s'.landed = s.landed ++ settleEntry h cost clock := by
  obtain ⟨r', h, hi', hh, hnow, hcase⟩ := step_settle hst
  obtain rfl := Option.some.inj (hi.symm.trans hi')
  rcases hcase with ⟨hdone, -⟩ | ⟨-, rfl⟩
  · cases hopen.symm.trans hdone
  · exact ⟨h, hh, hnow, rfl, rfl⟩

theorem settle_again (hi : s.requests[i]? = some r) (hdone : r.settled = true)
    (hst : ledgerStep s (.settle i cost clock) = some s') :
    s'.ledger = s.ledger ∧ s'.requests = s.requests ∧ s'.landed = s.landed := by
  obtain ⟨r', h, hi', -, -, hcase⟩ := step_settle hst
  obtain rfl := Option.some.inj (hi.symm.trans hi')
  rcases hcase with ⟨-, rfl⟩ | ⟨hopen, -⟩
  · exact ⟨rfl, rfl, rfl⟩
  · cases hopen.symm.trans hdone

section First

-- the first call of a closure
variable (hb : Books n σ s) (hi : s.requests[i]? = some r) (hn : r.provider.name = n)
  (hopen : r.settled = false) (hst : ledgerStep s (.settle i cost clock) = some s')

include hb hi hn hopen hst

theorem Books.frees_own (k : String) :
    (Holding s n (periodKey σ clock.t0) i k → (s'.view n σ clock.t0).adm.lookup k = none) ∧
      (¬ Holding s n (periodKey σ clock.t0) i k →
        (s'.view n σ clock.t0).adm.lookup k = (s.view n σ clock.t0).adm.lookup k) := by
  obtain ⟨h, hh, hnow, hledger, _⟩ := settle_first hi hopen hst
  have hfrees := (settled_view (u := clock.t0) hb.coherent hnow (List.mem_of_getElem? hi) hn hh
    hledger le_rfl).1 k
  rw [hfrees, holding_self hi hn hopen]
  constructor
  · intro hk
    have hentry := (hb.slots clock.t0 hnow).entry i k ((holding_self hi hn hopen).mpr hk)
    rw [tokenOf_self hi] at hentry
    exact if_pos ⟨hk, hentry⟩
  · exact fun hk => if_neg fun hcon => hk hcon.1

theorem Books.lands (ns : String) :
    (s'.view n σ clock.t0).own.at0 ns =
      (s.view n σ clock.t0).own.at0 ns + if ns = r.ns then cost else 0 := by
  obtain ⟨h, hh, hnow, hledger, _⟩ := settle_first hi hopen hst
  exact (settled_view hb.coherent hnow (List.mem_of_getElem? hi) hn hh hledger le_rfl).2 rfl ns

theorem Books.counted {es : List LedgerEvent} {s'' : LedgerState}
    (hrun : Run ledgerStep (SameScheme n σ) s' es s'') {u : Time} (hu : s''.now ≤ u)
    (hkey : periodKey σ u = periodKey σ clock.t0) :
    ∃ later, s''.landed = s'.landed ++ later ∧
      (s''.view n σ u).own.at0 r.ns =
        landedIn s.landed n r.ns (periodKey σ clock.t0) + cost +
          landedIn later n r.ns (periodKey σ clock.t0) := by
  obtain ⟨h, hh, _, _, hland⟩ := settle_first hi hopen hst
  obtain ⟨hname, hscheme, hns, _⟩ := r.belongs h hh
  rw [settleEntry, hname, hscheme, hns, hn, hb.coherent.scheme r (List.mem_of_getElem? hi) hn]
    at hland
  obtain ⟨hb'', later, hlater⟩ := books_run
    (books_step (e := .settle i cost clock) hb trivial hst) hrun
  refine ⟨later, hlater, ?_⟩
  rw [hb''.own u hu, hlater, hland, landedIn_append, landedIn_append, hkey, landedIn_entry,
    if_pos rfl]

end First

/-- Under a stable period scheme every reachable state has disciplined slots:
they are exclusive, a closure frees only its own, its cost lands once and counts
at every later admission of the period, and none is left when all have settled. -/
theorem slot_discipline (n : String) (σ : PeriodScheme) (t : Time) {es : List LedgerEvent}
    {s : LedgerState} (hrun : Run ledgerStep (SameScheme n σ) (.initial t) es s) :
    SlotDiscipline n σ s := by
  obtain ⟨hb, _⟩ := books_run (books_initial n σ t) hrun
  refine ⟨?_, ?_, ?_, ?_, ?_, ?_⟩
  · intro u hu i j k hi hj
    exact (hb.slots u hu).exclusive i j k hi hj
  · intro i r cost clock s' hi hn hopen hst k
    exact hb.frees_own hi hn hopen hst k
  · intro i r cost clock s' hi hn hopen hst ns
    exact hb.lands hi hn hopen hst ns
  · intro i r cost clock s' hi hdone hst
    exact settle_again hi hdone hst
  · intro i r cost clock s' hi hn hopen hst es' s'' hrun' provider ns workload clock' wall
      hname hscheme hu hkey
    refine ⟨?_, hb.counted hi hn hopen hst hrun' hu hkey⟩
    have hout := admit_outcome s''.ledger provider ns workload clock' wall
    rw [hname, hscheme] at hout
    exact hout
  · intro u hu hall
    refine (hb.slots u hu).eq_empty ?_
    rintro i k ⟨r, h, hi, hn, hopen, hh, hcap, _⟩
    rw [hall r (List.mem_of_getElem? hi) hn h hh hcap] at hopen
    cases hopen

/-- A namespace at 96 percent of its ceiling, and a request for it. -/
def boundarySchedule : List LedgerEvent :=
  [.foldPeers (tenDollars [⟨100, .block, none⟩]) ∅ (.still 0),
   .add (tenDollars [⟨100, .block, none⟩]) "team" "agent/a" (48 / 5) (.still 0),
   .admission (tenDollars [⟨100, .block, none⟩]) "team" "agent/a" (.still 0) 0]

def boundaryState : LedgerState := (exec ledgerStep (.initial 0) boundarySchedule).getD (.initial 0)

/-- The discipline in a state in which a slot is held. -/
theorem slot_discipline_boundary :
    SlotDiscipline "openai" .monthly boundaryState ∧
      (boundaryState.view "openai" .monthly 0).adm.lookup "team" = some 1 := by
  have hguard : ∀ s, ∀ e ∈ boundarySchedule, SameScheme "openai" .monthly s e := by
    intro s e he
    simp only [boundarySchedule, List.mem_cons, List.not_mem_nil, or_false] at he
    rcases he with rfl | rfl | rfl <;> exact fun _ => rfl
  exact ⟨slot_discipline "openai" .monthly 0 (run_getD_of_guard hguard (by decide +kernel)),
    by decide +kernel⟩

end Kaalm.Gateway
