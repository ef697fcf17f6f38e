/-
  Gateway/LedgerRun.lean --- the ledger under concurrent requests.

  WHAT A STEP IS.  Every ledger operation runs under the ledger's mutex, so an
  interleaving of requests is a sequence of whole operations.  The state is the
  ledger, the latest clock reading, the requests admitted so far and, as a ghost,
  the costs that have landed.

  WHAT A REQUEST IS.  `Admit`, and when it is admitted either the returned settle
  closure (called any number of times, `sync.Once` inside) or, without one, a
  single `Add`.
-/
import Kaalm.Foundation.Run
import Kaalm.Gateway.Admission

namespace Kaalm.Gateway

open Kaalm.Foundation

/-! ## Requests -/

/-- A settle closure belongs to the request it was returned to. -/
def Settle.BelongsTo (h : Settle) (provider : ModelProvider) (ns workload : String) : Prop :=
  h.providerName = provider.name ∧ h.scheme = provider.budget.period ∧
    h.namespace_ = ns ∧ h.workload = workload

structure Request where
  provider : ModelProvider
  ns : String
  workload : String
  handle : Option Settle
  /-- the closure has run, or the cost was added -/
  settled : Bool
  belongs : ∀ h, handle = some h → h.BelongsTo provider ns workload

variable {b : BudgetLedger} {clock : Clock} {provider : ModelProvider}

theorem admit_belongsTo {ns workload : String} {wall : Time} {h : Settle}
    (hs : (b.admitRequest provider ns workload clock wall).settle = some h) :
    h.BelongsTo provider ns workload := by
  have hout := admit_outcome b provider ns workload clock wall
  generalize b.admitRequest provider ns workload clock wall = res at hs hout
  cases hout with
  | off | soft | refused | plain => cases hs
  | slotted =>
    cases hs
    exact ⟨rfl, rfl, rfl, rfl⟩

structure Landed where
  provider : String
  ns : String
  period : String
  cost : ℚ
  deriving DecidableEq

structure LedgerState where
  ledger : BudgetLedger
  now : Time
  requests : List Request
  landed : List Landed

def LedgerState.initial (now : Time) : LedgerState where
  ledger := newBudgetLedger
  now := now
  requests := []
  landed := []

/-! ## Steps -/

/-- One operation under the mutex. -/
inductive LedgerEvent where
  | admission (provider : ModelProvider) (ns workload : String) (clock : Clock) (wall : Time)
  | settle (i : Nat) (cost : ℚ) (clock : Clock)
  /-- the `Add` of a request admitted without a settle closure -/
  | finish (i : Nat) (cost : ℚ) (clock : Clock)
  | add (provider : ModelProvider) (ns workload : String) (cost : ℚ) (clock : Clock)
  | enforce (provider : ModelProvider) (ns : String) (clock : Clock) (wall : Time)
  | foldPeers (provider : ModelProvider) (peers : GoMap String ℚ) (clock : Clock)
  | foldWorkloadPeers (provider : ModelProvider) (peers : GoMap String ℚ) (clock : Clock)
  | markPublished (providerName : String) (snapshot : Time)
  | setReplicas (count : Option Int)

def LedgerEvent.clock? : LedgerEvent → Option Clock
  | .admission _ _ _ clock _ => some clock
  | .settle _ _ clock => some clock
  | .finish _ _ clock => some clock
  | .add _ _ _ _ clock => some clock
  | .enforce _ _ clock _ => some clock
  | .foldPeers _ _ clock => some clock
  | .foldWorkloadPeers _ _ clock => some clock
  | .markPublished _ _ => none
  | .setReplicas _ => none

def addEntry (provider : ModelProvider) (ns : String) (cost : ℚ) (clock : Clock) : List Landed :=
  if periodKey provider.budget.period clock.t0 = "" ∨ cost = 0 then []
  else [⟨provider.name, ns, periodKey provider.budget.period clock.t1, cost⟩]

def settleEntry (h : Settle) (cost : ℚ) (clock : Clock) : List Landed :=
  if cost = 0 then [] else [⟨h.providerName, h.namespace_, periodKey h.scheme clock.t0, cost⟩]

/-- The request an `Admit` lets through. -/
def LedgerState.request (s : LedgerState) (provider : ModelProvider) (ns workload : String)
    (clock : Clock) (wall : Time) : Request where
  provider := provider
  ns := ns
  workload := workload
  handle := (s.ledger.admitRequest provider ns workload clock wall).settle
  settled := false
  belongs := fun _ h => admit_belongsTo h

/-- The requests after an `Admit`. -/
def LedgerState.admitted (s : LedgerState) (provider : ModelProvider) (ns workload : String)
    (clock : Clock) (wall : Time) : List Request :=
  if (s.ledger.admitRequest provider ns workload clock wall).decision.admitted then
    s.requests ++ [s.request provider ns workload clock wall]
  else s.requests

def Request.close (r : Request) : Request := { r with settled := true }

/-- The effect of an event once its clock readings are accepted. -/
def LedgerState.apply (s : LedgerState) : LedgerEvent → Option LedgerState
  | .admission provider ns workload clock wall =>
    some { s with
      ledger := (s.ledger.admitRequest provider ns workload clock wall).ledger
      requests := s.admitted provider ns workload clock wall }
  | .settle i cost clock =>
    match s.requests[i]? with
    | none => none
    | some r =>
      match r.handle with
      | none => none
      | some h =>
        if r.settled then some s
        else some { s with
          ledger := s.ledger.settle h cost clock
          requests := s.requests.set i r.close
          landed := s.landed ++ settleEntry h cost clock }
  | .finish i cost clock =>
    match s.requests[i]? with
    | none => none
    | some r =>
      if r.handle.isSome || r.settled then none
      else some { s with
        ledger := s.ledger.add r.provider r.ns r.workload cost clock
        requests := s.requests.set i r.close
        landed := s.landed ++ addEntry r.provider r.ns cost clock }
  | .add provider ns workload cost clock =>
    some { s with
      ledger := s.ledger.add provider ns workload cost clock
      landed := s.landed ++ addEntry provider ns cost clock }
  | .enforce provider ns clock wall =>
    some { s with ledger := (s.ledger.enforce provider ns clock wall).1 }
  | .foldPeers provider peers clock =>
    some { s with ledger := s.ledger.foldPeers provider peers clock }
  | .foldWorkloadPeers provider peers clock =>
    some { s with ledger := s.ledger.foldWorkloadPeers provider peers clock }
  | .markPublished providerName snapshot =>
    some { s with ledger := s.ledger.markPublished providerName snapshot }
  | .setReplicas count => some { s with ledger := { s.ledger with replicas := count } }

/-- One step: the clock never goes back. -/
def ledgerStep (s : LedgerState) (e : LedgerEvent) : Option LedgerState :=
  match e.clock? with
  | none => s.apply e
  | some clock =>
    if s.now ≤ clock.t0 then (s.apply e).map fun s' => { s' with now := clock.t3 } else none

/-! ## What the clock does to a stored ledger -/

/-- Counters of a period in which nothing has happened yet. -/
structure ProviderLedger.Clean (l : ProviderLedger) : Prop where
  own : l.own = ∅
  peers : l.peers = ∅
  adm : l.adm = ∅
  largest : l.maxCostPerCall = 0

variable {l : ProviderLedger} {n : String}

theorem BudgetLedger.ledgerFor_congr {b' : BudgetLedger}
    (h : b'.providers.lookup n = b.providers.lookup n) (scheme : PeriodScheme) (t : Time) :
    b'.ledgerFor n scheme t = b.ledgerFor n scheme t := by
  have hs : b'.stored n (periodKey scheme t) = b.stored n (periodKey scheme t) := by
    unfold BudgetLedger.stored
    rw [h]
  simp only [BudgetLedger.ledgerFor]
  rw [hs]

variable {scheme : PeriodScheme} {t : Time}

theorem BudgetLedger.clean_of_ne
    (h : ∀ l, b.providers.lookup n = some l → l.period ≠ periodKey scheme t) :
    (b.ledgerFor n scheme t).Clean := by
  cases hl : b.providers.lookup n with
  | none =>
    constructor <;> simp [BudgetLedger.ledgerFor, BudgetLedger.stored, hl, ProviderLedger.new]
  | some l =>
    have hne := h l hl
    constructor <;>
      simp [BudgetLedger.ledgerFor, BudgetLedger.stored, hl, hne, ProviderLedger.rollover]

/-- Every stored ledger of the provider carries the key of an earlier reading. -/
def BudgetLedger.Anchored (b : BudgetLedger) (n : String) (scheme : PeriodScheme) (t : Time) :
    Prop :=
  ∀ l, b.providers.lookup n = some l → ∃ tl ≤ t, l.period = periodKey scheme tl

variable {u : Time}

theorem BudgetLedger.ledgerFor_eq_of_key (b : BudgetLedger) (n : String)
    (h : periodKey scheme u = periodKey scheme t) :
    b.ledgerFor n scheme u = b.ledgerFor n scheme t := by
  simp only [BudgetLedger.ledgerFor, h]

/-- The stored ledger of the provider is not one of a period to come. -/
def BudgetLedger.Current (b : BudgetLedger) (n : String) (scheme : PeriodScheme) (t : Time) :
    Prop :=
  ∀ l, b.providers.lookup n = some l → ∀ u, t ≤ u → l.period = periodKey scheme u →
    periodKey scheme u = periodKey scheme t

theorem BudgetLedger.Anchored.current (h : b.Anchored n scheme t) : b.Current n scheme t := by
  intro l hl u hu heq
  obtain ⟨tl, htl, hp⟩ := h l hl
  exact heq.symm.trans (hp.trans (periodKey_convex htl hu (hp.symm.trans heq)).symm)

theorem BudgetLedger.Current.mono (h : b.Current n scheme t) (htu : t ≤ u) :
    b.Current n scheme u := by
  intro l hl v hv heq
  have hkey := h l hl v (htu.trans hv) heq
  rw [hkey, periodKey_convex htu hv hkey.symm]

/-- What a later reading sees of an operation at reading `t` that stored `l'`:
inside the period `l'`, after it clean counters, stored or not. -/
theorem BudgetLedger.ledgerFor_later {b' : BudgetLedger} {l' : ProviderLedger}
    (hcur : b.Current n scheme t) (htu : t ≤ u) (hl : b'.providers.lookup n = some l')
    (hp : l'.period = periodKey scheme t) :
    (periodKey scheme u = periodKey scheme t ∧ b'.ledgerFor n scheme u = l' ∧
        b.ledgerFor n scheme u = b.ledgerFor n scheme t) ∨
      (periodKey scheme u ≠ periodKey scheme t ∧ (b'.ledgerFor n scheme u).Clean ∧
        (b.ledgerFor n scheme u).Clean) := by
  by_cases h : periodKey scheme u = periodKey scheme t
  · exact Or.inl ⟨h, BudgetLedger.ledgerFor_eq_of_period hl (hp.trans h.symm),
      b.ledgerFor_eq_of_key n h⟩
  · refine Or.inr ⟨h, BudgetLedger.clean_of_ne fun l hl' heq => ?_,
      BudgetLedger.clean_of_ne fun l hl' heq => h (hcur l hl' u htu heq)⟩
    rw [hl] at hl'
    cases hl'
    exact h (heq.symm.trans hp)

/-! ## What each operation stores -/

structure ProviderLedger.Lands (l : ProviderLedger) (ns : String) (cost : ℚ)
    (l' : ProviderLedger) : Prop where
  period : l'.period = l.period
  own : ∀ ns', l'.own.at0 ns' = l.own.at0 ns' + if ns' = ns then cost else 0
  peers : l'.peers = l.peers
  largest : l.maxCostPerCall ≤ l'.maxCostPerCall
  tracked : 0 < cost → cost ≤ l'.maxCostPerCall

theorem ProviderLedger.land_lands (l : ProviderLedger) (ns workload : String) (cost : ℚ)
    (t t' : Time) : l.Lands ns cost (l.land ns workload cost t t') where
  period := by simp
  own ns' := by rw [ProviderLedger.land_own, GoMap.at0_addTo]
  peers := by simp
  largest := (ProviderLedger.track_largest
    { l with
      own := l.own.addTo ns cost
      ownW := l.ownW.addTo (ns ++ "/" ++ workload) cost } cost t).1
  tracked := (ProviderLedger.track_largest
    { l with
      own := l.own.addTo ns cost
      ownW := l.ownW.addTo (ns ++ "/" ++ workload) cost } cost t).2

theorem BudgetLedger.add_spec (b : BudgetLedger) (ns workload : String) {cost : ℚ}
    (h : ¬ (periodKey provider.budget.period clock.t0 = "" ∨ cost = 0)) :
    ∃ l', (b.add provider ns workload cost clock).providers.lookup provider.name = some l' ∧
      (b.ledgerFor provider.name provider.budget.period clock.t1).Lands ns cost l' ∧
      l'.adm = (b.ledgerFor provider.name provider.budget.period clock.t1).adm := by
  refine ⟨_, ?_, ProviderLedger.land_lands _ ns workload cost clock.t2 clock.t3, by simp⟩
  simp only [BudgetLedger.add, if_neg h, BudgetLedger.lookup_put_self]

theorem BudgetLedger.add_frame (b : BudgetLedger) (ns workload : String) (cost : ℚ) (clock : Clock)
    (hn : n ≠ provider.name) :
    (b.add provider ns workload cost clock).providers.lookup n = b.providers.lookup n := by
  unfold BudgetLedger.add
  dsimp only
  split_ifs
  · rfl
  · exact b.lookup_put_ne _ hn

theorem BudgetLedger.settle_providers (b : BudgetLedger) (h : Settle) (cost : ℚ) (clock : Clock) :
    ∃ l, l = { b.ledgerFor h.providerName h.scheme clock.t0 with
        adm := if periodKey h.scheme clock.t0 = h.capturedPeriod then
            release (b.ledgerFor h.providerName h.scheme clock.t0).adm h.keys h.token
          else (b.ledgerFor h.providerName h.scheme clock.t0).adm } ∧
      (b.settle h cost clock).providers = (b.put h.providerName (if cost = 0 then l
        else l.land h.namespace_ h.workload cost clock.t1 clock.t2)).providers := by
  refine ⟨_, rfl, ?_⟩
  unfold BudgetLedger.settle
  rw [← b.ledgerFor_period h.providerName h.scheme clock.t0]
  generalize b.ledgerFor h.providerName h.scheme clock.t0 = l
  have hfreed : (if l.period = h.capturedPeriod then
      { l with adm := release l.adm h.keys h.token } else l) =
      { l with adm := if l.period = h.capturedPeriod then release l.adm h.keys h.token
        else l.adm } := by
    split_ifs <;> rfl
  dsimp only
  rw [hfreed]
  by_cases hc : cost = 0
  · rw [if_pos hc, if_pos hc]
  · rw [if_neg hc, if_neg hc]
    split_ifs <;> rfl

theorem BudgetLedger.settle_spec (b : BudgetLedger) (h : Settle) (cost : ℚ) (clock : Clock) :
    ∃ l', (b.settle h cost clock).providers.lookup h.providerName = some l' ∧
      (b.ledgerFor h.providerName h.scheme clock.t0).Lands h.namespace_ cost l' ∧
      l'.adm = if periodKey h.scheme clock.t0 = h.capturedPeriod then
          release (b.ledgerFor h.providerName h.scheme clock.t0).adm h.keys h.token
        else (b.ledgerFor h.providerName h.scheme clock.t0).adm := by
  obtain ⟨l, hl, hstored⟩ := b.settle_providers h cost clock
  rw [hstored]
  refine ⟨_, b.lookup_put_self _ _, ?_⟩
  by_cases hc : cost = 0
  · rw [if_pos hc, hl, hc]
    exact ⟨⟨rfl, fun ns' => by simp, rfl, le_rfl, fun h => absurd h (lt_irrefl _)⟩, rfl⟩
  · have hland := l.land_lands h.namespace_ h.workload cost clock.t1 clock.t2
    rw [if_neg hc, ProviderLedger.land_adm]
    rw [hl] at hland ⊢
    exact ⟨⟨hland.period, hland.own, hland.peers, hland.largest, hland.tracked⟩, rfl⟩

theorem BudgetLedger.settle_frame (b : BudgetLedger) (h : Settle) (cost : ℚ) (clock : Clock)
    (hn : n ≠ h.providerName) :
    (b.settle h cost clock).providers.lookup n = b.providers.lookup n := by
  obtain ⟨_, -, hstored⟩ := b.settle_providers h cost clock
  rw [hstored, b.lookup_put_ne _ hn]

theorem BudgetLedger.enforce_ledger (b : BudgetLedger) (provider : ModelProvider) (ns : String)
    (clock : Clock) (wall : Time) :
    (b.enforce provider ns clock wall).1 = b ∨ (b.enforce provider ns clock wall).1 =
      b.put provider.name (b.ledgerFor provider.name provider.budget.period clock.t1) := by
  unfold BudgetLedger.enforce
  dsimp only
  split_ifs
  · exact .inl rfl
  · exact .inr rfl

theorem BudgetLedger.markPublished_lookup (b : BudgetLedger) (m : String) (snapshot : Time)
    (n : String) :
    (b.markPublished m snapshot).providers.lookup n = b.providers.lookup n ∨
      ∃ l, b.providers.lookup n = some l ∧
        (b.markPublished m snapshot).providers.lookup n =
          some { l with dirtySince := none } := by
  unfold BudgetLedger.markPublished
  cases hm : b.providers.lookup m with
  | none => exact Or.inl rfl
  | some l =>
    dsimp only
    cases hd : l.dirtySince with
    | none => exact Or.inl rfl
    | some d =>
      dsimp only
      split_ifs
      · by_cases hn : n = m
        · subst hn
          exact Or.inr ⟨l, hm, b.lookup_put_self _ _⟩
        · exact Or.inl (b.lookup_put_ne _ hn)
      · exact Or.inl rfl

theorem slotKeys_free {budget : ModelProviderBudget} {u : Utilization} {ns k : String}
    (hs : l.slotHeld u ns = false)
    (hk : k ∈ slotKeys (b.inBoundaryNS budget l u) (b.inBoundaryCL budget l u) ns) :
    l.adm.lookup k = none := by
  simp only [ProviderLedger.slotHeld, Bool.or_eq_false_iff, Bool.and_eq_false_iff,
    Option.isSome_eq_false_iff, Option.isNone_iff_eq_none] at hs
  rcases List.mem_append.mp hk with hk | hk
  · split_ifs at hk
    · rw [List.mem_singleton.mp hk]
      exact hs.1
    · cases hk
  · split_ifs at hk with hcl
    · rw [List.mem_singleton.mp hk]
      rcases hs.2 with h | h
      · exact h
      · simp [BudgetLedger.inBoundaryCL, h] at hcl
    · cases hk

def slotsIn (handle : Option Settle) (P : String) : List String :=
  handle.elim [] fun h => if h.capturedPeriod = P then h.keys else []

def slotToken (handle : Option Settle) : UInt64 := (handle.map (·.token)).getD 0

/-- A closure takes the slots it holds in the period, all of which were free. -/
structure TakesSlots (handle : Option Settle) (P : String) (adm adm' : GoMap String UInt64) :
    Prop where
  free : ∀ k ∈ slotsIn handle P, adm.lookup k = none
  taken : adm' = acquire adm (slotsIn handle P) (slotToken handle)

theorem TakesSlots.refl {handle : Option Settle} {P : String} (h : slotsIn handle P = [])
    (adm : GoMap String UInt64) : TakesSlots handle P adm adm := by
  constructor
  · simp [h]
  · rw [h]; rfl

/-- A closure gives back the slots it holds in the period, as far as they are under its token. -/
def FreesSlots (handle : Option Settle) (P : String) (adm adm' : GoMap String UInt64) : Prop :=
  ∀ k, adm'.lookup k = if k ∈ slotsIn handle P ∧ adm.lookup k = some (slotToken handle) then none
    else adm.lookup k

theorem BudgetLedger.admitRequest_spec (b : BudgetLedger) (provider : ModelProvider)
    (ns workload : String) (clock : Clock) (wall : Time)
    (hl : b.ledgerFor provider.name provider.budget.period clock.t1 = l) :
    ((b.admitRequest provider ns workload clock wall).settle = none ∧
      (b.admitRequest provider ns workload clock wall).ledger.providers.lookup provider.name =
        b.providers.lookup provider.name) ∨
    ∃ l', (b.admitRequest provider ns workload clock wall).ledger.providers.lookup provider.name =
        some l' ∧
      l'.period = l.period ∧ l'.own = l.own ∧ l'.peers = l.peers ∧
      l'.maxCostPerCall = l.maxCostPerCall ∧
      (∀ h, (b.admitRequest provider ns workload clock wall).settle = some h →
        h.capturedPeriod = l.period ∧
          (b.admitRequest provider ns workload clock wall).decision.admitted = true) ∧
      TakesSlots (b.admitRequest provider ns workload clock wall).settle l.period l.adm l'.adm := by
  have hout := admit_outcome b provider ns workload clock wall
  rw [hl] at hout
  generalize b.admitRequest provider ns workload clock wall = res at hout
  cases hout with
  | off => exact Or.inl ⟨rfl, rfl⟩
  | soft | refused | plain =>
    exact Or.inr ⟨l, b.lookup_put_self _ _, rfl, rfl, rfl, rfl, nofun, .refl rfl _⟩
  | slotted raised raisedNow h hb hs hin =>
    refine Or.inr ⟨_, b.lookup_put_self _ _, rfl, rfl, rfl, rfl, fun h' hh' => ?_, fun k hk =>
      ?_, ?_⟩
    · cases hh'
      obtain ⟨hthr, hun⟩ := decideBudget_flags provider.budget
        (utilizationLocked provider.budget l ns) clock.t2 wall
      exact ⟨rfl, by simp [BudgetDecision.admitted, hthr, hun, hb]⟩
    · rw [slotsIn, Option.elim_some, if_pos rfl] at hk
      exact slotKeys_free hs hk
    · rw [slotsIn, Option.elim_some, if_pos rfl]
      rfl

theorem BudgetLedger.admitRequest_frame (b : BudgetLedger) (provider : ModelProvider)
    (ns workload : String) (clock : Clock) (wall : Time) (hn : n ≠ provider.name) :
    (b.admitRequest provider ns workload clock wall).ledger.providers.lookup n =
      b.providers.lookup n := by
  have hout := admit_outcome b provider ns workload clock wall
  generalize b.admitRequest provider ns workload clock wall = res at hout
  cases hout with
  | off => rfl
  | soft | refused | plain | slotted => exact b.lookup_put_ne _ hn

end Kaalm.Gateway
