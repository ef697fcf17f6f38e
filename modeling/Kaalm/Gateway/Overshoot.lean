/-
  Gateway/Overshoot.lean --- how far hard enforcement overshoots its cap.

  THE GUARANTEE.  With one replica, no peers and one period, spend is meant to
  pass the cap `C * B / 100` by at most the largest call `m`.  The slots of the
  boundary region serialize admissions there, but a request admitted below the
  region takes no slot and is counted nowhere until its cost lands.

  WHAT DECIDES IT.  `exposure` is the recorded spend plus `m` for every request
  of the namespace in flight; only an admission raises it, by `m`.  `Admit` keeps it
  within the cap while the slot is held, while nothing is in flight, and while one
  request is in flight below the boundary region; beyond that the requests in flight
  have to fit under the cap.  An admission without such `Room` can be continued past
  the bound.
-/
import Kaalm.Gateway.BudgetCap
import Kaalm.Gateway.Effect

namespace Kaalm.Gateway

open Kaalm.Foundation

/-! ## Exposure -/

/-- The requests of a namespace that have been admitted and not settled. -/
def LedgerState.inflight (s : LedgerState) (n ns : String) : Nat :=
  s.requests.countP fun r => r.provider.name = n && r.ns = ns && !r.settled

def LedgerState.recorded (s : LedgerState) (p : ModelProvider) (ns : String) : ℚ :=
  (s.view p.name p.budget.period s.now).spent ns

/-- The recorded spend, and `m` for every request in flight. -/
def LedgerState.exposure (s : LedgerState) (p : ModelProvider) (ns : String) (m : ℚ) : ℚ :=
  s.recorded p ns + m * s.inflight p.name ns

/-- The block ceiling in USD: `C * B / 100`. -/
def capUSD (p : ModelProvider) (ceiling : ℚ) : ℚ := ceiling * minBlockAt p.budget / 100

def Clock.Within (clock : Clock) (σ : PeriodScheme) (P : String) : Prop :=
  periodKey σ clock.t0 = P ∧ periodKey σ clock.t1 = P ∧ periodKey σ clock.t2 = P ∧
    periodKey σ clock.t3 = P

/-- One replica, no peers, one period, one version of the provider, and requests
that cost at most `m`. -/
def OneReplica (p : ModelProvider) (m : ℚ) (P : String) (s : LedgerState) (e : LedgerEvent) :
    Prop :=
  (∀ clock, e.clock? = some clock → clock.Within p.budget.period P) ∧
  match e with
  | .admission provider _ _ _ _ => provider.name = p.name → provider = p
  | .settle i cost _ =>
    ∀ r, s.requests[i]? = some r → r.provider.name = p.name → cost ≤ m
  | .finish i cost _ =>
    ∀ r, s.requests[i]? = some r → r.provider.name = p.name → cost ≤ m
  | .add provider _ _ _ _ => provider.name ≠ p.name
  | .enforce provider _ _ _ => provider.name = p.name → provider = p
  | .foldPeers provider peers _ => provider.name = p.name → provider = p ∧ peers = ∅
  | .foldWorkloadPeers provider _ _ => provider.name = p.name → provider = p
  | .markPublished _ _ => True
  | .setReplicas count => ∀ c, count = some c → c ≤ 1

/-- There is room for a further request of the namespace: its slot is held and `Admit` refuses;
nothing of it is in flight and the ladder caps; one request is in flight below the boundary region;
or all that are in flight fit under the cap at `m` each. -/
def Room (p : ModelProvider) (ns : String) (ceiling m : ℚ) (s : LedgerState) (clock : Clock) :
    Prop :=
  let l := s.view p.name p.budget.period clock.t1
  (l.adm.lookup ns).isSome ∨
  p.budget.CapLadder ∧ s.inflight p.name ns = 0 ∨
  s.inflight p.name ns = 1 ∧
    s.ledger.inBoundaryNS p.budget l (utilizationLocked p.budget l ns) = false ∨
  s.recorded p ns + m * s.inflight p.name ns ≤ capUSD p ceiling

/-- The assumptions, and room for every request of the namespace that calls `Admit`. -/
def FewInFlight (p : ModelProvider) (ns : String) (ceiling m : ℚ) (P : String)
    (s : LedgerState) (e : LedgerEvent) : Prop :=
  OneReplica p m P s e ∧ ∀ workload clock wall, e = .admission p ns workload clock wall →
    Room p ns ceiling m s clock

/-- The event is an admission of the namespace that `Admit` lets through. -/
def Admits (p : ModelProvider) (ns : String) (s : LedgerState) (e : LedgerEvent) : Prop :=
  ∃ workload clock wall, e = .admission p ns workload clock wall ∧
    (s.ledger.admitRequest p ns workload clock wall).decision.admitted = true

/-- A state of one replica without peers inside the period. -/
structure InPeriod (p : ModelProvider) (P : String) (s : LedgerState) : Prop where
  coherent : Coherent p.name p.budget.period s
  reading : periodKey p.budget.period s.now = P
  provider : ∀ r ∈ s.requests, r.provider.name = p.name → r.provider = p
  peers : (s.view p.name p.budget.period s.now).peers = ∅
  replicas : ∀ c, s.ledger.replicas = some c → c ≤ 1
  tracked : ∀ x ∈ s.landed, x.provider = p.name → x.period = P → 0 < x.cost →
    x.cost ≤ (s.view p.name p.budget.period s.now).maxCostPerCall

theorem OneReplica.sameScheme {p : ModelProvider} {m : ℚ} {P : String} {s : LedgerState}
    {e : LedgerEvent} (h : OneReplica p m P s e) : SameScheme p.name p.budget.period s e := by
  obtain ⟨_, h⟩ := h
  cases e with
  | admission provider ns workload clock wall => exact fun hn => by rw [h hn]
  | add provider ns workload cost clock => exact fun hn => absurd hn h
  | enforce provider ns clock wall => exact fun hn => by rw [h hn]
  | foldPeers provider peers clock => exact fun hn => by rw [(h hn).1]
  | foldWorkloadPeers provider peers clock => exact fun hn => by rw [h hn]
  | settle | finish | markPublished | setReplicas => trivial

/-! ## What a step does to the exposure -/

variable {s s' : LedgerState} {n : String} (ns : String) {r : Request} {i : Nat}

theorem inflight_append (hreq : s'.requests = s.requests ++ [r]) (hn : r.provider.name = n)
    (hopen : r.settled = false) :
    s'.inflight n ns = s.inflight n ns + if r.ns = ns then 1 else 0 := by
  simp [LedgerState.inflight, hreq, List.countP_append, List.countP_singleton, hn, hopen]

theorem inflight_set (hi : s.requests[i]? = some r)
    (hreq : s'.requests = s.requests.set i r.close) (hn : r.provider.name = n)
    (hopen : r.settled = false) :
    s'.inflight n ns + (if r.ns = ns then 1 else 0) = s.inflight n ns := by
  obtain ⟨hlt, hget⟩ := List.getElem?_eq_some_iff.mp hi
  have hmem : r ∈ s.requests := List.mem_of_getElem? hi
  have hpos : r.ns = ns → 0 < s.inflight n ns := fun hns =>
    List.countP_pos_iff.mpr ⟨r, hmem, by simp [hn, hns, hopen]⟩
  have hset : s'.inflight n ns = s.inflight n ns - if r.ns = ns then 1 else 0 := by
    unfold LedgerState.inflight
    rw [hreq, List.countP_set hlt, hget]
    simp [hn, hopen, Request.close]
  rw [hset]
  split_ifs with hns
  · have := hpos hns
    omega
  · omega

/-- What a step does to the recorded spend and the requests in flight. -/
inductive Move (p : ModelProvider) (ns : String) (m : ℚ) (s : LedgerState) (e : LedgerEvent)
    (s' : LedgerState) : Prop
  | same (hrec : s'.recorded p ns = s.recorded p ns)
      (hin : s'.inflight p.name ns = s.inflight p.name ns)
  | opened (hadm : Admits p ns s e) (hrec : s'.recorded p ns = s.recorded p ns)
      (hin : s'.inflight p.name ns = s.inflight p.name ns + 1)
  | closed (i : Nat) (cost : ℚ) (clock : Clock)
      (he : e = .settle i cost clock ∨ e = .finish i cost clock) (hcost : cost ≤ m)
      (hrec : s'.recorded p ns = s.recorded p ns + cost ∨
        p.budget.period = .none ∧ s'.recorded p ns = s.recorded p ns)
      (hin : s'.inflight p.name ns + 1 = s.inflight p.name ns)

variable {p : ModelProvider} {ns P : String} {m : ℚ} {e : LedgerEvent}

theorem InPeriod.reading_step (h : InPeriod p P s) (hg : OneReplica p m P s e)
    (hst : ledgerStep s e = some s') : periodKey p.budget.period s'.now = P := by
  rcases step_now hst with hnow | ⟨clock, he, hnow⟩
  · rw [hnow]
    exact h.reading
  · rw [hnow]
    exact (hg.1 clock he).2.2.2

theorem InPeriod.view_eq (h : InPeriod p P s) {u : Time}
    (hu : periodKey p.budget.period u = P) :
    s.view p.name p.budget.period u = s.view p.name p.budget.period s.now :=
  s.ledger.ledgerFor_eq_of_key p.name (hu.trans h.reading.symm)

theorem InPeriod.peers_step (h : InPeriod p P s) (hg : OneReplica p m P s e)
    (hst : ledgerStep s e = some s') : (s'.view p.name p.budget.period s'.now).peers = ∅ := by
  have hkey := h.reading_step hg hst
  cases hfold : foldsPeers p.name e with
  | false =>
    rw [(step_reads h.coherent hg.sameScheme hst le_rfl).peers hfold, h.view_eq hkey]
    exact h.peers
  | true =>
    cases e with
    | foldPeers provider peers clock =>
      obtain ⟨rfl, rfl⟩ := hg.2 (of_decide_eq_true hfold)
      exact peers_fold hst (hkey.trans (hg.1 clock rfl).1.symm)
    | _ => cases hfold

theorem replicas_add (b : BudgetLedger) (provider : ModelProvider) (ns workload : String) (cost : ℚ)
    (clock : Clock) : (b.add provider ns workload cost clock).replicas = b.replicas := by
  unfold BudgetLedger.add
  dsimp only
  split_ifs <;> rfl

theorem replicas_markPublished (b : BudgetLedger) (n : String) (snapshot : Time) :
    (b.markPublished n snapshot).replicas = b.replicas := by
  unfold BudgetLedger.markPublished
  split
  · rfl
  · split
    · split_ifs <;> rfl
    · rfl

theorem step_replicas (hst : ledgerStep s e = some s') :
    s'.ledger.replicas = s.ledger.replicas ∨ e = .setReplicas s'.ledger.replicas := by
  cases e with
  | admission provider ns workload clock wall =>
    obtain ⟨-, rfl⟩ := step_applied rfl rfl hst
    have hout := admit_outcome s.ledger provider ns workload clock wall
    left
    dsimp only
    generalize s.ledger.admitRequest provider ns workload clock wall = res at hout
    cases hout <;> rfl
  | settle i cost clock =>
    obtain ⟨r, h, -, -, -, ⟨-, rfl⟩ | ⟨-, rfl⟩⟩ := step_settle hst
    · exact .inl rfl
    · left
      unfold BudgetLedger.settle
      dsimp only
      split_ifs <;> rfl
  | finish i cost clock =>
    obtain ⟨r, -, -, -, -, rfl⟩ := step_finish hst
    exact .inl (replicas_add ..)
  | add provider ns workload cost clock =>
    obtain ⟨-, rfl⟩ := step_applied rfl rfl hst
    exact .inl (replicas_add ..)
  | enforce provider ns clock wall =>
    obtain ⟨-, rfl⟩ := step_applied rfl rfl hst
    rcases s.ledger.enforce_ledger provider ns clock wall with hb | hb
    · exact .inl (congrArg (·.replicas) hb)
    · exact .inl (congrArg (·.replicas) hb)
  | foldPeers | foldWorkloadPeers =>
    obtain ⟨-, rfl⟩ := step_applied rfl rfl hst
    exact .inl rfl
  | markPublished m snapshot =>
    cases hst
    exact .inl (replicas_markPublished ..)
  | setReplicas count =>
    cases hst
    exact .inr rfl

theorem InPeriod.step (h : InPeriod p P s) (hg : OneReplica p m P s e)
    (hst : ledgerStep s e = some s') : InPeriod p P s' where
  coherent := coherent_step h.coherent hg.sameScheme hst
  reading := h.reading_step hg hst
  provider r hr hn := by
    rcases (step_effect h.coherent hg.sameScheme hst).provider hr hn with
      ⟨r₀, hr₀, heq⟩ | ⟨_, _, _, _, rfl⟩
    · rw [← heq] at hn ⊢
      exact h.provider r₀ hr₀ hn
    · exact hg.2 hn
  peers := h.peers_step hg hst
  replicas c hc := by
    rcases step_replicas hst with hsame | rfl
    · exact h.replicas c (hsame ▸ hc)
    · exact hg.2 c hc
  tracked x hx hn hP hpos := by
    have hkey := h.reading_step hg hst
    have hreads := step_reads h.coherent hg.sameScheme hst le_rfl
    rcases hreads.tracked x hx with hold | hnew
    · have hle := h.tracked x hold hn hP hpos
      rw [← h.view_eq hkey] at hle
      exact hle.trans hreads.largest
    · exact hnew hn (hP.trans hkey.symm) hpos

theorem InPeriod.recorded_eq (h : InPeriod p P s) (ns : String) {u : Time}
    (hu : periodKey p.budget.period u = P) :
    s.recorded p ns = (s.view p.name p.budget.period u).own.at0 ns := by
  rw [LedgerState.recorded, ProviderLedger.spent, h.peers, GoMap.at0_empty, add_zero,
    h.view_eq hu]

theorem move_closed {cost : ℚ} {clock : Clock}
    (he : e = .settle i cost clock ∨ e = .finish i cost clock) (hcost : cost ≤ m)
    (hi : s.requests[i]? = some r) (hreq : s'.requests = s.requests.set i r.close)
    (hn : r.provider.name = p.name) (hopen : r.settled = false)
    (hrec : s'.recorded p ns = s.recorded p ns + (if ns = r.ns then cost else 0) ∨
      p.budget.period = .none ∧ s'.recorded p ns = s.recorded p ns) :
    Move p ns m s e s' := by
  have hin := inflight_set ns hi hreq hn hopen
  by_cases hns : r.ns = ns
  · rw [if_pos hns] at hin
    rw [if_pos hns.symm] at hrec
    exact .closed i cost clock he hcost hrec hin
  · rw [if_neg hns] at hin
    rw [if_neg (Ne.symm hns), add_zero] at hrec
    exact .same (hrec.elim id And.right) hin

theorem move_opened {clock : Clock} {wall : Time} (hr : r.provider = p) (hopen : r.settled = false)
    (hadm : (s.ledger.admitRequest r.provider r.ns r.workload clock wall).decision.admitted
      = true) (hreq : s'.requests = s.requests ++ [r]) (hrec : s'.recorded p ns = s.recorded p ns) :
    Move p ns m s (.admission r.provider r.ns r.workload clock wall) s' := by
  have hin := inflight_append (n := p.name) ns hreq (by rw [hr]) hopen
  by_cases hns : r.ns = ns
  · rw [if_pos hns] at hin
    rw [hr, hns] at hadm ⊢
    exact .opened ⟨r.workload, clock, wall, rfl, hadm⟩ hrec hin
  · rw [if_neg hns] at hin
    exact .same hrec hin

section Step

variable (ns) (h : InPeriod p P s) (hg : OneReplica p m P s e) (hst : ledgerStep s e = some s')
include h hg hst

theorem InPeriod.recorded_step :
    s'.recorded p ns = s.recorded p ns +
        spentIn (spendCalls s e) p.name ns p.budget.period s'.now ∨
      p.budget.period = .none ∧ s'.recorded p ns = s.recorded p ns := by
  have hkey := h.reading_step hg hst
  rw [h.recorded_eq ns hkey, (h.step hg hst).recorded_eq ns hkey]
  rcases (step_reads h.coherent hg.sameScheme hst le_rfl).spent with hspent | ⟨hnone, hsame⟩
  · exact .inl (hspent ns)
  · exact .inr ⟨hnone, by rw [hsame]⟩

/-- The three things a step can do to the recorded spend and the requests in
flight. -/
theorem step_move : Move p ns m s e s' := by
  have hrec := h.recorded_step ns hg hst
  have hsame : (∀ c ∈ spendCalls s e, c.provider ≠ p.name) →
      s'.recorded p ns = s.recorded p ns := by
    intro hcalls
    rw [spentIn_eq_zero fun c hc hn => absurd hn (hcalls c hc), add_zero] at hrec
    exact hrec.elim id And.right
  cases step_effect h.coherent hg.sameScheme hst with
  | idle hreq hadm hcalls =>
    refine .same (hsame fun c hc hn => ?_) (hreq.count _ fun r hr => ?_)
    · obtain ⟨provider, ns', workload, clock, rfl, hname⟩ := hcalls c hc hn
      exact hg.2 hname
    · simp only [Bool.and_eq_true, decide_eq_true_eq] at hr
      exact hr.1.1
  | opened r clock wall he hn hopen hadmitted hreq =>
    subst he
    exact move_opened (hg.2 hn) hopen hadmitted hreq (hsame nofun)
  | closed i r cost clock he hi hn hopen hcalls hreq =>
    obtain ⟨t, h0, h3, hcall⟩ := hcalls
    have hclock : e.clock? = some clock := by rcases he with rfl | rfl <;> rfl
    have hcost : cost ≤ m := by rcases he with rfl | rfl <;> exact hg.2 r hi hn
    have hkey : periodKey p.budget.period s'.now = periodKey p.budget.period t := by
      obtain ⟨ht0, -, -, ht3⟩ := hg.1 clock hclock
      rw [h.reading_step hg hst, periodKey_convex h0 h3 (ht0.trans ht3.symm), ht0]
    rw [hcall, spentIn_congr hkey, spentIn_singleton] at hrec
    exact move_closed he hcost hi hreq hn hopen hrec

theorem exposure_step (hm : 0 ≤ m) :
    s'.exposure p ns m ≤ s.exposure p ns m ∨
      Admits p ns s e ∧ s'.exposure p ns m = s.exposure p ns m + m := by
  unfold LedgerState.exposure
  cases step_move ns h hg hst with
  | same hrec hin => exact Or.inl (by rw [hrec, hin])
  | opened hadm hrec hin =>
    refine Or.inr ⟨hadm, ?_⟩
    rw [hrec, hin, Nat.cast_add, Nat.cast_one]
    ring
  | closed i cost clock he hcost hrec hin =>
    left
    rw [← hin, Nat.cast_add, Nat.cast_one]
    rcases hrec with hrec | ⟨_, hrec⟩
    · linarith
    · rw [hrec]
      linarith

end Step

/-! ## Admissions past the cap can be continued past the bound -/

theorem exists_close (hi : s.requests[i]? = some r) (hopen : r.settled = false) (cost : ℚ) :
    ∃ e s', (e = .settle i cost (.still s.now) ∨ e = .finish i cost (.still s.now)) ∧
      ledgerStep s e = some s' ∧ s'.requests = s.requests.set i r.close := by
  cases hh : r.handle with
  | some h =>
    refine ⟨.settle i cost (.still s.now),
      { ledger := s.ledger.settle h cost (.still s.now)
        now := s.now
        requests := s.requests.set i r.close
        landed := s.landed ++ settleEntry h cost (.still s.now) }, Or.inl rfl, ?_, rfl⟩
    · simp only [ledgerStep, LedgerEvent.clock?, Clock.still, le_refl, if_true,
        LedgerState.apply, hi, hh, hopen, Bool.false_eq_true, if_false, Option.map_some]
  | none =>
    refine ⟨.finish i cost (.still s.now),
      { ledger := s.ledger.add r.provider r.ns r.workload cost (.still s.now)
        now := s.now
        requests := s.requests.set i r.close
        landed := s.landed ++ addEntry r.provider r.ns cost (.still s.now) },
      Or.inr rfl, ?_, rfl⟩
    · simp only [ledgerStep, LedgerEvent.clock?, Clock.still, le_refl, if_true,
        LedgerState.apply, hi, hh, hopen, Option.isSome_none, Bool.or_self,
        Bool.false_eq_true, if_false, Option.map_some]

/-- An open request of the namespace can land the cost `m`: the exposure turns
into recorded spend. -/
theorem InPeriod.exists_land (h : InPeriod p P s) (m : ℚ) (ns : String)
    (htracked : p.budget.period ≠ .none)
    (hpos : 0 < s.inflight p.name ns) :
    ∃ e s', OneReplica p m P s e ∧ ledgerStep s e = some s' ∧
      s'.exposure p ns m = s.exposure p ns m ∧
      s'.inflight p.name ns + 1 = s.inflight p.name ns := by
  obtain ⟨r, hr, hq⟩ := List.countP_pos_iff.mp hpos
  simp only [Bool.and_eq_true, decide_eq_true_eq, Bool.not_eq_true'] at hq
  obtain ⟨⟨hn, hns⟩, hopen⟩ := hq
  obtain ⟨i, hi⟩ := List.mem_iff_getElem?.mp hr
  obtain ⟨e, s', he, hst, hreq⟩ := exists_close hi hopen m
  have hg : OneReplica p m P s e := by
    have hwithin : (Clock.still s.now).Within p.budget.period P :=
      ⟨h.reading, h.reading, h.reading, h.reading⟩
    rcases he with rfl | rfl
    · exact ⟨fun clock hc => by cases hc; exact hwithin, fun _ _ _ => le_rfl⟩
    · exact ⟨fun clock hc => by cases hc; exact hwithin, fun _ _ _ => le_rfl⟩
  have hin := inflight_set ns hi hreq hn hopen
  rw [if_pos hns] at hin
  refine ⟨e, s', hg, hst, ?_, hin⟩
  unfold LedgerState.exposure
  cases step_move ns h hg hst with
  | same | opened => omega
  | closed j cost clock he' hcost hrec _ =>
    have hcm : cost = m := by
      rcases he with rfl | rfl
      · rcases he' with he' | he' <;> cases he'
        rfl
      · rcases he' with he' | he' <;> cases he'
        rfl
    rcases hrec with hrec | ⟨hnone, _⟩
    · rw [hrec, hcm, ← hin, Nat.cast_add, Nat.cast_one]
      ring
    · exact absurd hnone htracked

/-- All requests in flight can land the cost `m`, after which the recorded spend
is the exposure. -/
theorem InPeriod.exists_land_all (m : ℚ) (ns : String) (htracked : p.budget.period ≠ .none)
    (k : Nat) (h : InPeriod p P s) (hk : s.inflight p.name ns = k) :
    ∃ es s', Run ledgerStep (OneReplica p m P) s es s' ∧ s'.recorded p ns = s.exposure p ns m := by
  induction k generalizing s with
  | zero =>
    refine ⟨[], s, .nil s, ?_⟩
    rw [LedgerState.exposure, hk, Nat.cast_zero, mul_zero, add_zero]
  | succ k ih =>
    obtain ⟨e, s₁, hg, hst, hexp, hin⟩ := h.exists_land m ns htracked (by omega)
    obtain ⟨es, s', hrun, hrec⟩ := ih (h.step hg hst) (by omega)
    exact ⟨e :: es, s', .cons hg hst hrun, hrec.trans hexp⟩

/-! ## The bound -/

/-- Where the guarantee starts: a tracked hard provider with a namespace ceiling,
one replica without peers, the namespace below its cap, and a call of cost `m`
settled in the period. -/
structure StartsBelow (p : ModelProvider) (ns : String) (ceiling m : ℚ) (P : String)
    (s : LedgerState) : Prop where
  accepted : p.budget.Accepted
  hard : p.budget.enforcement = .hard
  nsCeiling : p.budget.nsCeiling = some (.usd ceiling)
  tracked : p.budget.period ≠ .none
  cost_nonneg : 0 ≤ m
  inPeriod : InPeriod p P s
  below : s.recorded p ns < capUSD p ceiling
  settledCall : ∃ x ∈ s.landed, x.provider = p.name ∧ x.period = P ∧ x.cost = m

theorem StartsBelow.exposure_le {ceiling : ℚ} (h : StartsBelow p ns ceiling m P s)
    (h0 : s.inflight p.name ns = 0) :
    s.exposure p ns m ≤ capUSD p ceiling + m := by
  rw [LedgerState.exposure, h0, Nat.cast_zero, mul_zero, add_zero]
  linarith [h.below, h.cost_nonneg]

/-- In the period, and the call of cost `m` is on the books. -/
structure Later (p : ModelProvider) (m : ℚ) (P : String) (s : LedgerState) : Prop where
  inPeriod : InPeriod p P s
  settledCall : ∃ x ∈ s.landed, x.provider = p.name ∧ x.period = P ∧ x.cost = m

theorem Later.step (h : Later p m P s) (hg : OneReplica p m P s e)
    (hst : ledgerStep s e = some s') : Later p m P s' := by
  obtain ⟨extra, hland, -⟩ :=
    (step_reads h.inPeriod.coherent hg.sameScheme hst le_rfl).own
  obtain ⟨x, hx, hcall⟩ := h.settledCall
  exact ⟨h.inPeriod.step hg hst, x, hland ▸ List.mem_append_left _ hx, hcall⟩

section Room

variable {ceiling : ℚ} {s₀ : LedgerState} {clock : Clock} (hstart : StartsBelow p ns ceiling m P s₀)
  (h : Later p m P s)
include hstart h

/-- The margin in force covers a call of cost `m`: the configured one is a floor, and the tracker
has seen the call. -/
theorem Later.margin_covers (hkey : periodKey p.budget.period clock.t1 = P) :
    m / ceiling * 100 ≤ s.ledger.effectiveMarginPct (s.view p.name p.budget.period clock.t1)
      (some (.usd ceiling)) (configuredMarginPercent p.budget) := by
  have hpos : 0 < ceiling :=
    nsFinite_pos (by rw [ModelProviderBudget.nsFinite, hstart.nsCeiling]; rfl)
  have hconfigured : 0 ≤ configuredMarginPercent p.budget := by
    unfold configuredMarginPercent
    split
    · next hard hhard => exact_mod_cast (hstart.accepted.margin hard hhard).1
    · norm_num
  have hone : s.ledger.replicasCount = 1 := by
    unfold BudgetLedger.replicasCount
    split
    · rfl
    · next c hc => exact if_neg (not_lt.mpr (h.inPeriod.replicas c hc))
  obtain ⟨x, hx, hn, hP, rfl⟩ := h.settledCall
  have hmax : x.cost ≤ (s.view p.name p.budget.period clock.t1).maxCostPerCall ∨ x.cost = 0 := by
    rcases hstart.cost_nonneg.lt_or_eq with hcost | hzero
    · left
      rw [h.inPeriod.view_eq hkey]
      exact h.inPeriod.tracked x hx hn hP hcost
    · exact .inr hzero.symm
  unfold BudgetLedger.effectiveMarginPct
  simp only [hone, Int.cast_one, one_mul, sub_self, zero_mul, add_zero, Ceiling.percent]
  generalize (s.view p.name p.budget.period clock.t1).maxCostPerCall = largest at hmax ⊢
  have hfloor : ∀ a b : ℚ, (if a > b then a else b) = max b a := by
    intro a b
    rcases lt_or_ge b a with hlt | hge
    · rw [if_pos hlt, max_eq_right hlt.le]
    · rw [if_neg (not_lt.mpr hge), max_eq_left hge]
  rw [hfloor]
  rcases hmax with hle | hzero
  · refine le_max_of_le_right ?_
    gcongr
  · rw [hzero]
    simpa using le_max_of_le_left hconfigured

/-- Where there is room, `Admit` lets a request through from an exposure within the cap only. -/
theorem Later.exposure_le (hclock : clock.Within p.budget.period P) {workload : String}
    {wall : Time} (hroom : Room p ns ceiling m s clock)
    (hadm : (s.ledger.admitRequest p ns workload clock wall).decision.admitted = true) :
    s.exposure p ns m ≤ capUSD p ceiling := by
  have hfinite : p.budget.nsFinite = some ceiling := by
    rw [ModelProviderBudget.nsFinite, hstart.nsCeiling]
    rfl
  have hpos := nsFinite_pos hfinite
  have hspent : (s.view p.name p.budget.period clock.t1).spent ns = s.recorded p ns := by
    rw [LedgerState.recorded, h.inPeriod.view_eq hclock.2.1]
  obtain ⟨hnsPct, hnsUSD, -, -⟩ := utilization_ceilings p.budget
    (s.view p.name p.budget.period clock.t1) ns
  rw [hfinite, hspent, pctOf] at hnsPct
  rw [admitted_iff ns workload wall hstart.tracked
    (hardActive_of_accepted hstart.accepted hstart.hard) rfl] at hadm
  obtain ⟨hblock, hslot, -⟩ := hadm
  rcases hroom with hheld | ⟨hcap, hnone⟩ | ⟨hone, hout⟩ | hfit
  · -- the slot is held
    simp only [ProviderLedger.slotHeld, Bool.or_eq_false_iff] at hslot
    exact absurd (hheld.symm.trans hslot.1) (by decide)
  · -- at the cap the ladder blocks
    rw [LedgerState.exposure, hnone, Nat.cast_zero, mul_zero, add_zero]
    by_contra hover
    refine hblock (block_of_capLadder hstart.accepted hstart.hard hcap clock.t2 wall ?_).2
    have hworst : pctOf p.budget.nsFinite (s.recorded p ns) ≤ (utilizationLocked p.budget
        (s.view p.name p.budget.period clock.t1) ns).worst := by
      rw [utilization_worst, hspent]
      split_ifs
      · exact le_max_left _ _
      · exact le_rfl
    refine le_trans ?_ hworst
    rw [hfinite, pctOf, div_mul_eq_mul_div, le_div_iff₀ hpos]
    rw [capUSD, not_le, div_lt_iff₀ (by norm_num)] at hover
    linarith
  · -- below the region the margin leaves a call of cost `m`
    have hmargin := Later.margin_covers hstart h hclock.2.1
    rw [LedgerState.exposure, hone, Nat.cast_one, mul_one]
    simp only [BudgetLedger.inBoundaryNS, hnsUSD, hstart.nsCeiling, Option.isSome_some,
      Bool.true_and, decide_eq_false_iff_not, ge_iff_le, not_le, hnsPct] at hout
    have hsum : (s.recorded p ns + m) / ceiling * 100 < minBlockAt p.budget := by
      rw [add_div, add_mul]
      linarith
    rw [div_mul_eq_mul_div, div_lt_iff₀ hpos] at hsum
    rw [capUSD, le_div_iff₀ (by norm_num)]
    linarith
  · exact hfit

theorem Later.exposure_run {es : List LedgerEvent}
    (hrun : Run ledgerStep (FewInFlight p ns ceiling m P) s es s')
    (hle : s.exposure p ns m ≤ capUSD p ceiling + m) :
    s'.exposure p ns m ≤ capUSD p ceiling + m := by
  refine (hrun.invariant (I := fun x => Later p m P x ∧
    x.exposure p ns m ≤ capUSD p ceiling + m) ?_ ⟨h, hle⟩).2
  rintro x e x' ⟨hx, hle⟩ ⟨hg, hroom⟩ hst
  refine ⟨hx.step hg hst, ?_⟩
  rcases exposure_step ns hx.inPeriod hg hst hstart.cost_nonneg with
    hdown | ⟨⟨workload, clock, wall, rfl, hadm⟩, hup⟩
  · exact hdown.trans hle
  · have hcap := Later.exposure_le hstart hx (hg.1 clock rfl) (hroom workload clock wall rfl) hadm
    linarith

end Room

/-- The overshoot is at most `m` in every run in which `Admit` is called where there is room;
and a request let through without can always be continued to a larger overshoot. -/
theorem overshoot_le_iff_room (p : ModelProvider) (ns : String) (ceiling m : ℚ) (P : String)
    (s₀ : LedgerState) (hstart : StartsBelow p ns ceiling m P s₀)
    (hflight : s₀.exposure p ns m ≤ capUSD p ceiling + m) :
    (∀ es s, Run ledgerStep (FewInFlight p ns ceiling m P) s₀ es s →
      s.recorded p ns ≤ capUSD p ceiling + m) ∧
    (∀ es s, Run ledgerStep (OneReplica p m P) s₀ es s →
      ∀ workload clock wall s', OneReplica p m P s (.admission p ns workload clock wall) →
      ledgerStep s (.admission p ns workload clock wall) = some s' →
      (s.ledger.admitRequest p ns workload clock wall).decision.admitted = true →
      ¬Room p ns ceiling m s clock →
      ∃ es' s'', Run ledgerStep (OneReplica p m P) s' es' s'' ∧
        capUSD p ceiling + m < s''.recorded p ns) := by
  have hlater : Later p m P s₀ := ⟨hstart.inPeriod, hstart.settledCall⟩
  constructor
  · intro es s hrun
    exact (le_add_of_nonneg_right (mul_nonneg hstart.cost_nonneg (Nat.cast_nonneg _))).trans
      (hlater.exposure_run hstart hrun hflight)
  · intro es s hrun workload clock wall s' hg hst hadmitted hroom
    have hs : InPeriod p P s :=
      hrun.invariant (I := InPeriod p P) (fun x _ x' hx hg hst => hx.step hg hst) hstart.inPeriod
    have hover : capUSD p ceiling < s.exposure p ns m :=
      not_le.mp fun hfit => hroom (.inr (.inr (.inr hfit)))
    obtain ⟨es', s'', hrun', hrec⟩ :=
      InPeriod.exists_land_all m ns hstart.tracked _ (hs.step hg hst) rfl
    refine ⟨es', s'', hrun', ?_⟩
    have hup : s'.exposure p ns m = s.exposure p ns m + m := by
      unfold LedgerState.exposure
      have hreq : s'.requests = s.requests ++ [s.request p ns workload clock wall] := by
        obtain ⟨_, rfl⟩ := step_applied rfl rfl hst
        exact if_pos hadmitted
      have hin := inflight_append (n := p.name) ns hreq rfl rfl
      rw [if_pos (show (s.request p ns workload clock wall).ns = ns from rfl)] at hin
      cases step_move ns hs hg hst with
      | same hrec hsame => omega
      | opened _ hrec _ =>
        rw [hrec, hin, Nat.cast_add, Nat.cast_one]
        ring
      | closed i cost clock he hcost hrec hdown => omega
    linarith

/-- Block at 100 percent of 10 USD. -/
def blockAtCeiling : ModelProvider := tenDollars [⟨100, .block, none⟩]

theorem blockAtCeiling_accepted : blockAtCeiling.budget.Accepted where
  atPercent := by decide
  margin := by intro h hh; cases hh
  rule32 := by decide
  rule34 := by intro h hh; cases hh

/-- Eight calls of 1 USD and one of 0.90. -/
def nineCalls : List LedgerEvent :=
  .foldPeers blockAtCeiling ∅ (.still march2026) ::
    .add blockAtCeiling "team" "agent/a" (9 / 10) (.still march2026) ::
    List.replicate 8 (.add blockAtCeiling "team" "agent/a" 1 (.still march2026))

/-- The namespace at 89 percent, just below the boundary region. -/
def nearBoundary : LedgerState :=
  (exec ledgerStep (.initial march2026) nineCalls).getD (.initial march2026)

/-- Three requests admitted one after the other, and then three costs of 1 USD. -/
def threeAtOnce : List LedgerEvent :=
  List.replicate 3 (.admission blockAtCeiling "team" "agent/a" (.still march2026) march2026) ++
    [.finish 0 1 (.still march2026), .finish 1 1 (.still march2026), .finish 2 1 (.still march2026)]

theorem nearBoundary_coherent : Coherent "openai" .monthly nearBoundary := by
  have hrun : Run ledgerStep (SameScheme "openai" .monthly) (.initial march2026) nineCalls
      nearBoundary := by
    refine run_getD_of_guard (fun s e he => ?_) (by decide +kernel)
    simp only [nineCalls, List.mem_cons, List.mem_replicate] at he
    rcases he with rfl | rfl | ⟨_, rfl⟩ <;> exact fun _ => rfl
  exact hrun.invariant (I := Coherent "openai" .monthly)
    (fun s e s' hs hg hst => coherent_step hs hg hst) (coherent_initial _ _ _)

theorem nearBoundary_starts :
    StartsBelow blockAtCeiling "team" 10 1 (periodKey .monthly march2026) nearBoundary where
  accepted := blockAtCeiling_accepted
  hard := rfl
  nsCeiling := by decide +kernel
  tracked := by decide
  cost_nonneg := zero_le_one
  inPeriod :=
    { coherent := nearBoundary_coherent
      reading := by decide +kernel
      provider := by
        have hnil : nearBoundary.requests = [] := List.length_eq_zero_iff.mp (by decide +kernel)
        intro r hr
        cases hr
      peers := AList.ext (by decide +kernel)
      replicas := by
        have hnone : nearBoundary.ledger.replicas = none := by decide +kernel
        intro c hc
        rw [hnone] at hc
        cases hc
      tracked := by decide +kernel }
  below := by decide +kernel
  settledCall := ⟨⟨"openai", "team", periodKey .monthly march2026, 1⟩, by decide +kernel, rfl, rfl,
    rfl⟩

/-- The bound at a namespace just below its boundary region. -/
theorem overshoot_nearBoundary :
    nearBoundary.exposure blockAtCeiling "team" 1 ≤ capUSD blockAtCeiling 10 + 1 ∧
      ∀ es s, Run ledgerStep (FewInFlight blockAtCeiling "team" 10 1 (periodKey .monthly march2026))
        nearBoundary es s → s.recorded blockAtCeiling "team" ≤ capUSD blockAtCeiling 10 + 1 :=
  have hexp := nearBoundary_starts.exposure_le (by decide +kernel)
  ⟨hexp, (overshoot_le_iff_room blockAtCeiling "team" 10 1
    (periodKey .monthly march2026) nearBoundary
    nearBoundary_starts hexp).1⟩

/-- Three requests of 1 USD admitted together below the boundary region take no
slot: spend ends at 11.90, more than the largest call above the cap of 10. -/
theorem overshoot_threeAtOnce :
    StartsBelow blockAtCeiling "team" 10 1 (periodKey .monthly march2026) nearBoundary ∧
      nearBoundary.inflight "openai" "team" = 0 ∧
      ∃ s, Run ledgerStep (OneReplica blockAtCeiling 1 (periodKey .monthly march2026)) nearBoundary
          threeAtOnce s ∧
        capUSD blockAtCeiling 10 + 1 < s.recorded blockAtCeiling "team" := by
  refine ⟨nearBoundary_starts, by decide +kernel,
    (exec ledgerStep nearBoundary threeAtOnce).getD nearBoundary,
    run_getD_of_guard (fun s e he => ?_) (by decide +kernel), by decide +kernel⟩
  have hwithin : (Clock.still march2026).Within .monthly (periodKey .monthly march2026) :=
    ⟨rfl, rfl, rfl, rfl⟩
  simp only [threeAtOnce, List.mem_append, List.mem_replicate, List.mem_cons,
    List.not_mem_nil, or_false] at he
  rcases he with ⟨_, rfl⟩ | rfl | rfl | rfl
  · exact ⟨fun clock hc => by cases hc; exact hwithin, fun _ => rfl⟩
  all_goals exact ⟨fun clock hc => by cases hc; exact hwithin, fun _ _ _ => le_rfl⟩

end Kaalm.Gateway
