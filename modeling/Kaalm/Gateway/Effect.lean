/-
  Gateway/Effect.lean --- what one step does to the books of one provider.

  `Stores` is the inversion of `ledgerStep` for what is kept of a provider: the
  ledger there was, or the ledger of one of the step's readings with its costs.
  Under a stable period scheme `Reads` says what every later reading finds of it, and
  `Effect` what becomes of the provider's requests and their slots, so no invariant
  has to reason about rollovers again.
-/
import Kaalm.Gateway.LedgerRun

namespace Kaalm.Gateway

open Kaalm.Foundation

/-- The provider's ledger as a reading `t` finds it. -/
def LedgerState.view (s : LedgerState) (n : String) (σ : PeriodScheme) (t : Time) :
    ProviderLedger :=
  s.ledger.ledgerFor n σ t

/-! ## Events of one provider -/

def SameScheme (n : String) (σ : PeriodScheme) : LedgerState → LedgerEvent → Prop
  | _, .admission provider _ _ _ _ => provider.name = n → provider.budget.period = σ
  | _, .add provider _ _ _ _ => provider.name = n → provider.budget.period = σ
  | _, .enforce provider _ _ _ => provider.name = n → provider.budget.period = σ
  | _, .foldPeers provider _ _ => provider.name = n → provider.budget.period = σ
  | _, .foldWorkloadPeers provider _ _ => provider.name = n → provider.budget.period = σ
  | _, .settle _ _ _ | _, .finish _ _ _ | _, .markPublished _ _ | _, .setReplicas _ => True

def providerOf? : LedgerEvent → Option ModelProvider
  | .admission provider _ _ _ _ | .add provider _ _ _ _ | .enforce provider _ _ _
  | .foldPeers provider _ _ | .foldWorkloadPeers provider _ _ => some provider
  | _ => none

variable {e : LedgerEvent} {s : LedgerState}

theorem sameScheme_of_providerOf {mp : ModelProvider} (h : ((providerOf? e).all fun provider =>
      provider.name ≠ mp.name || provider.budget.period = mp.budget.period) = true) :
    SameScheme mp.name mp.budget.period s e := by
  cases e with
  | settle | finish | markPublished | setReplicas => trivial
  | admission provider ns workload clock wall | add provider ns workload cost clock
  | enforce provider ns clock wall | foldPeers provider peers clock
  | foldWorkloadPeers provider peers clock =>
    intro hn
    simpa [providerOf?, hn] using h

def clockWithin (σ : PeriodScheme) (P : String) (clock : Clock) : Bool :=
  periodKey σ clock.t0 = P && periodKey σ clock.t3 = P

variable {clock : Clock} {t : Time} {σ : PeriodScheme}

theorem key_of_clockWithin {P : String} (h : clockWithin σ P clock = true) (h0 : clock.t0 ≤ t)
    (h3 : t ≤ clock.t3) :
    periodKey σ t = P := by
  simp only [clockWithin, Bool.and_eq_true, decide_eq_true_eq] at h
  rw [periodKey_convex h0 h3 (h.1.trans h.2.symm), h.1]

/-- What the scheme's stability gives in every state: stored keys come from past
readings, and the provider's requests carry the scheme. -/
structure Coherent (n : String) (σ : PeriodScheme) (s : LedgerState) : Prop where
  anchored : s.ledger.Anchored n σ s.now
  scheme : ∀ r ∈ s.requests, r.provider.name = n → r.provider.budget.period = σ

theorem coherent_initial (n : String) (σ : PeriodScheme) (t : Time) :
    Coherent n σ (.initial t) where
  anchored l hl := by simp [LedgerState.initial, newBudgetLedger] at hl
  scheme r hr := by simp [LedgerState.initial] at hr

structure SameRequests (n : String) (rs rs' : List Request) : Prop where
  get : ∀ (i : Nat) (r : Request), r.provider.name = n → (rs'[i]? = some r ↔ rs[i]? = some r)
  count : ∀ q : Request → Bool, (∀ r, q r = true → r.provider.name = n) →
    rs'.countP q = rs.countP q

namespace SameRequests

variable {n : String} {rs : List Request} {r : Request}

theorem refl (n : String) (rs : List Request) : SameRequests n rs rs :=
  ⟨fun _ _ _ => Iff.rfl, fun _ _ => rfl⟩

theorem append (hr : r.provider.name ≠ n) : SameRequests n rs (rs ++ [r]) where
  get i r' hr' := by
    rw [List.getElem?_append]
    split_ifs with hi
    · rfl
    · constructor
      · intro h
        rw [List.getElem?_singleton] at h
        split_ifs at h
        cases h
        exact absurd hr' hr
      · intro h
        exact absurd (List.getElem?_eq_some_iff.mp h).1 hi
  count q hq := by
    have : q r = false := by
      cases h : q r with
      | false => rfl
      | true => exact absurd (hq r h) hr
    simp [List.countP_append, this]

theorem set {i : Nat} (hi : rs[i]? = some r) (hr : r.provider.name ≠ n) :
    SameRequests n rs (rs.set i r.close) where
  get j r' hr' := by
    rw [List.getElem?_set]
    split_ifs with hij hlt
    · subst hij
      constructor
      · intro h
        cases h
        exact absurd hr' hr
      · intro h
        rw [hi] at h
        cases h
        exact absurd hr' hr
    · exact absurd (List.getElem?_eq_some_iff.mp hi).1 hlt
    · rfl
  count q hq := by
    obtain ⟨hlt, hget⟩ := List.getElem?_eq_some_iff.mp hi
    have hfalse : ∀ r' : Request, r'.provider.name ≠ n → q r' = false := fun r' h' => by
      cases h : q r' with
      | false => rfl
      | true => exact absurd (hq r' h) h'
    rw [List.countP_set hlt, hget, hfalse r hr, hfalse r.close hr]
    simp

end SameRequests

/-! ## What one operation books -/

variable {s' : LedgerState}

/-- A step that reads the clock starts after the last reading and ends at its
own last one. -/
theorem step_clocked (he : e.clock? = some clock) (h : ledgerStep s e = some s') :
    s.now ≤ clock.t0 ∧ ∃ s₁, s.apply e = some s₁ ∧ s' = { s₁ with now := clock.t3 } := by
  unfold ledgerStep at h
  rw [he] at h
  dsimp only at h
  split_ifs at h with hnow
  obtain ⟨s₁, h₁, h₂⟩ := Option.map_eq_some_iff.mp h
  exact ⟨hnow, s₁, h₁, h₂.symm⟩

theorem step_applied {s₁ : LedgerState} (he : e.clock? = some clock) (ha : s.apply e = some s₁)
    (h : ledgerStep s e = some s') : s.now ≤ clock.t0 ∧ s' = { s₁ with now := clock.t3 } := by
  obtain ⟨hnow, s₂, ha', rfl⟩ := step_clocked he h
  cases ha.symm.trans ha'
  exact ⟨hnow, rfl⟩

variable {i : Nat} {cost : ℚ}

theorem step_settle (hst : ledgerStep s (.settle i cost clock) = some s') :
    ∃ r h, s.requests[i]? = some r ∧ r.handle = some h ∧ s.now ≤ clock.t0 ∧
      ((r.settled = true ∧ s' = { s with now := clock.t3 }) ∨
       (r.settled = false ∧ s' = ⟨s.ledger.settle h cost clock, clock.t3,
          s.requests.set i r.close, s.landed ++ settleEntry h cost clock⟩)) := by
  obtain ⟨hnow, s₁, h₁, rfl⟩ := step_clocked rfl hst
  simp only [LedgerState.apply] at h₁
  split at h₁
  · cases h₁
  · next r hi =>
    split at h₁
    · cases h₁
    · next h hh =>
      refine ⟨r, h, hi, hh, hnow, ?_⟩
      split_ifs at h₁ with hsettled
      · cases h₁
        exact .inl ⟨hsettled, rfl⟩
      · cases h₁
        exact .inr ⟨Bool.eq_false_iff.mpr hsettled, rfl⟩

theorem step_finish (hst : ledgerStep s (.finish i cost clock) = some s') :
    ∃ r, s.requests[i]? = some r ∧ r.handle = none ∧ r.settled = false ∧ s.now ≤ clock.t0 ∧
      s' = ⟨s.ledger.add r.provider r.ns r.workload cost clock, clock.t3,
        s.requests.set i r.close, s.landed ++ addEntry r.provider r.ns cost clock⟩ := by
  obtain ⟨hnow, s₁, h₁, rfl⟩ := step_clocked rfl hst
  simp only [LedgerState.apply] at h₁
  split at h₁
  · cases h₁
  · next r hi =>
    split_ifs at h₁ with hopen
    cases h₁
    simp only [Bool.or_eq_true, not_or, Bool.not_eq_true, Option.isSome_eq_false_iff,
      Option.isNone_iff_eq_none] at hopen
    exact ⟨r, hi, hopen.1, hopen.2, hnow, rfl⟩

theorem Clock.t0_within (clock : Clock) : clock.t0 ≤ clock.t0 ∧ clock.t0 ≤ clock.t3 :=
  ⟨le_rfl, clock.le01.trans (clock.le12.trans clock.le23)⟩

theorem Clock.t1_within (clock : Clock) : clock.t0 ≤ clock.t1 ∧ clock.t1 ≤ clock.t3 :=
  ⟨clock.le01, clock.le12.trans clock.le23⟩

theorem step_now (hst : ledgerStep s e = some s') :
    s'.now = s.now ∨ ∃ clock, e.clock? = some clock ∧ s'.now = clock.t3 := by
  cases he : e.clock? with
  | some clock =>
    obtain ⟨_, s₁, _, rfl⟩ := step_clocked he hst
    exact Or.inr ⟨clock, rfl, rfl⟩
  | none =>
    left
    cases e with
    | markPublished | setReplicas => cases hst; rfl
    | admission | settle | finish | add | enforce | foldPeers | foldWorkloadPeers => cases he

theorem step_reading (he : e.clock? = some clock) (hst : ledgerStep s e = some s') :
    s.now ≤ clock.t0 ∧ s'.now = clock.t3 := by
  obtain ⟨hnow, s₁, -, rfl⟩ := step_clocked he hst
  exact ⟨hnow, rfl⟩

theorem step_now_le (hst : ledgerStep s e = some s') : s.now ≤ s'.now := by
  rcases step_now hst with hnow | ⟨clock, he, hnow⟩
  · exact hnow.ge
  · rw [hnow]
    exact (step_reading he hst).1.trans clock.t0_within.2

/-- A settle or an `Add`: for whom, the clock reading it is booked at, the cost. -/
structure SpendCall where
  provider : String
  ns : String
  bookedAt : Time
  cost : ℚ
  deriving DecidableEq

/-- The call an event makes.  A settle closure that has run does nothing. -/
def spendCalls (s : LedgerState) : LedgerEvent → List SpendCall
  | .settle i cost clock =>
    match s.requests[i]? with
    | some r =>
      match r.handle with
      | some h => if r.settled then [] else [⟨h.providerName, h.namespace_, clock.t0, cost⟩]
      | none => []
    | none => []
  | .finish i cost clock =>
    match s.requests[i]? with
    | some r => [⟨r.provider.name, r.ns, clock.t1, cost⟩]
    | none => []
  | .add provider ns _ cost clock => [⟨provider.name, ns, clock.t1, cost⟩]
  | _ => []

/-- The provider an operation works on and the scheme it carries. -/
def schemeUsed (s : LedgerState) : LedgerEvent → Option (String × PeriodScheme)
  | .admission provider _ _ _ _ => some (provider.name, provider.budget.period)
  | .add provider _ _ _ _ => some (provider.name, provider.budget.period)
  | .enforce provider _ _ _ => some (provider.name, provider.budget.period)
  | .foldPeers provider _ _ => some (provider.name, provider.budget.period)
  | .foldWorkloadPeers provider _ _ => some (provider.name, provider.budget.period)
  | .settle i _ _ =>
    match s.requests[i]? with
    | some r => if r.settled then none else r.handle.map fun h => (h.providerName, h.scheme)
    | none => none
  | .finish i _ _ => s.requests[i]?.map fun r => (r.provider.name, r.provider.budget.period)
  | .markPublished _ _ | .setReplicas _ => none

def spentIn (calls : List SpendCall) (n ns : String) (σ : PeriodScheme) (u : Time) : ℚ :=
  ((calls.filter fun c => c.provider = n ∧ c.ns = ns ∧
    periodKey σ c.bookedAt = periodKey σ u).map (·.cost)).sum

theorem spentIn_singleton (n ns ns' : String) (σ : PeriodScheme) (t : Time) (cost : ℚ) :
    spentIn [⟨n, ns, t, cost⟩] n ns' σ t = if ns' = ns then cost else 0 := by
  by_cases h : ns' = ns
  · subst h; simp [spentIn]
  · simp [spentIn, h, Ne.symm h]

variable {n ns : String}

theorem spentIn_congr {calls : List SpendCall} {u : Time} (h : periodKey σ u = periodKey σ t) :
    spentIn calls n ns σ u = spentIn calls n ns σ t := by
  simp only [spentIn, h]

theorem spentIn_eq_zero {calls : List SpendCall} {u : Time} (h : ∀ c ∈ calls,
      c.provider = n → periodKey σ c.bookedAt = periodKey σ u → c.cost = 0) :
    spentIn calls n ns σ u = 0 := by
  refine List.sum_eq_zero fun x hx => ?_
  obtain ⟨c, hc, rfl⟩ := List.mem_map.mp hx
  obtain ⟨hmem, hmatch⟩ := List.mem_filter.mp hc
  obtain ⟨hn, -, hkey⟩ := of_decide_eq_true hmatch
  exact h c hmem hn hkey

def landedIn (landed : List Landed) (n ns P : String) : ℚ :=
  ((landed.filter fun x => x.provider = n ∧ x.ns = ns ∧ x.period = P).map (·.cost)).sum

theorem landedIn_append (xs ys : List Landed) (n ns P : String) :
    landedIn (xs ++ ys) n ns P = landedIn xs n ns P + landedIn ys n ns P := by
  simp [landedIn]

theorem landedIn_eq_zero {xs : List Landed} {P : String}
    (h : ∀ x ∈ xs, x.provider = n → x.period ≠ P) : landedIn xs n ns P = 0 := by
  have : xs.filter (fun x => x.provider = n ∧ x.ns = ns ∧ x.period = P) = [] := by
    refine List.filter_eq_nil_iff.mpr fun x hx hcon => ?_
    simp only [decide_eq_true_eq] at hcon
    exact h x hx hcon.1 hcon.2.2
  rw [landedIn, this]
  rfl

theorem landedIn_entry (n ns ns' P : String) (cost : ℚ) :
    landedIn (if cost = 0 then [] else [⟨n, ns, P, cost⟩]) n ns' P =
      if ns' = ns then cost else 0 := by
  by_cases hcost : cost = 0
  · simp [landedIn, hcost]
  · by_cases hns : ns' = ns
    · subst hns; simp [landedIn, hcost]
    · simp [landedIn, hcost, hns, Ne.symm hns]

/-! ## What is stored -/

def foldsPeers (n : String) : LedgerEvent → Bool
  | .foldPeers provider _ _ => provider.name = n
  | _ => false

/-- The operations that take slots and give them back. -/
def movesSlots : LedgerEvent → Bool
  | .admission _ _ _ _ _ | .settle _ _ _ => true
  | _ => false

/-- What a step leaves stored for provider `n`, and what lands for it: the ledger there was, up to
its mark, or that of one of the step's readings with the costs on top. -/
inductive Stores (n : String) (σ : PeriodScheme) (s : LedgerState) (e : LedgerEvent)
    (s' : LedgerState) : Prop
  | same (extra : List Landed) (hland : s'.landed = s.landed ++ extra)
      (hextra : ∀ x ∈ extra, x.provider ≠ n)
      (hstored : s'.ledger.providers.lookup n = s.ledger.providers.lookup n ∨
        ∃ l, s.ledger.providers.lookup n = some l ∧
          s'.ledger.providers.lookup n = some { l with dirtySince := none })
      (hcalls : ∀ c ∈ spendCalls s e, c.provider = n → σ = .none ∨ c.cost = 0)
  | wrote (clock : Clock) (t : Time) (l' : ProviderLedger) (extra : List Landed)
      (he : e.clock? = some clock) (hread : clock.t0 ≤ t ∧ t ≤ clock.t3)
      (hstored : s'.ledger.providers.lookup n = some l') (hperiod : l'.period = periodKey σ t)
      (hland : s'.landed = s.landed ++ extra)
      (hextra : ∀ x ∈ extra, x.provider = n ∧ x.period = periodKey σ t)
      (hown : ∀ ns, l'.own.at0 ns =
        (s.view n σ t).own.at0 ns + landedIn extra n ns (periodKey σ t))
      (hpeers : foldsPeers n e = false → l'.peers = (s.view n σ t).peers)
      (hadm : movesSlots e = false → l'.adm = (s.view n σ t).adm)
      (hcalls : ∀ c ∈ spendCalls s e, c.bookedAt = t)
      (hspent : ∀ ns, spentIn (spendCalls s e) n ns σ t = landedIn extra n ns (periodKey σ t))
      (hlargest : (s.view n σ t).maxCostPerCall ≤ l'.maxCostPerCall)
      (htracked : ∀ x ∈ extra, 0 < x.cost → x.cost ≤ l'.maxCostPerCall)

section Stored

variable {l' : ProviderLedger}

theorem Stores.same_lookup {extra : List Landed} (hland : s'.landed = s.landed ++ extra)
    (hextra : ∀ x ∈ extra, x.provider ≠ n)
    (hlookup : s'.ledger.providers.lookup n = s.ledger.providers.lookup n)
    (hcalls : ∀ c ∈ spendCalls s e, c.provider = n → σ = .none ∨ c.cost = 0) :
    Stores n σ s e s' :=
  .same extra hland hextra (.inl hlookup) hcalls

theorem Stores.untouched (hland : s'.landed = s.landed)
    (hlookup : s'.ledger.providers.lookup n = s.ledger.providers.lookup n)
    (hcalls : spendCalls s e = []) : Stores n σ s e s' :=
  .same_lookup (by rw [hland, List.append_nil]) (fun _ h => absurd h List.not_mem_nil) hlookup
    (by simp [hcalls])

section Write

variable (he : e.clock? = some clock) (hread : clock.t0 ≤ t ∧ t ≤ clock.t3)
  (hstored : s'.ledger.providers.lookup n = some l')
  (hadm : movesSlots e = false → l'.adm = (s.view n σ t).adm)
include he hread hstored hadm

theorem Stores.reading (hperiod : l'.period = (s.view n σ t).period)
    (hown : l'.own = (s.view n σ t).own)
    (hmax : l'.maxCostPerCall = (s.view n σ t).maxCostPerCall)
    (hpeers : foldsPeers n e = false → l'.peers = (s.view n σ t).peers)
    (hland : s'.landed = s.landed) (hcalls : spendCalls s e = []) : Stores n σ s e s' :=
  .wrote clock t l' [] he hread hstored (hperiod.trans (s.ledger.ledgerFor_period _ _ _))
    (by rw [hland, List.append_nil]) (fun _ h => absurd h List.not_mem_nil)
    (fun ns => by rw [hown, landedIn_eq_zero (by simp), add_zero]) hpeers hadm (by simp [hcalls])
    (fun ns => by rw [hcalls]; rfl) hmax.ge fun _ h => absurd h List.not_mem_nil

theorem Stores.landed (hlands : (s.view n σ t).Lands ns cost l')
    (hland : s'.landed = s.landed ++ if cost = 0 then [] else [⟨n, ns, periodKey σ t, cost⟩])
    (hcalls : spendCalls s e = [⟨n, ns, t, cost⟩]) : Stores n σ s e s' := by
  refine .wrote clock t l' _ he hread hstored
    (hlands.period.trans (s.ledger.ledgerFor_period _ _ _)) hland (fun x hx => ?_) (fun ns' => ?_)
    (fun _ => hlands.peers) hadm (by simp [hcalls]) (fun ns' => ?_) hlands.largest fun x hx => ?_
  · split_ifs at hx
    · cases hx
    · rw [List.mem_singleton.mp hx]
      exact ⟨rfl, rfl⟩
  · rw [hlands.own, landedIn_entry]
  · rw [hcalls, spentIn_singleton, landedIn_entry]
  · split_ifs at hx
    · cases hx
    · rw [List.mem_singleton.mp hx]
      exact hlands.tracked

end Write

variable {provider : ModelProvider}

theorem stores_add {workload : String} (he : e.clock? = some clock)
    (hσ : provider.name = n → provider.budget.period = σ)
    (hledger : s'.ledger = s.ledger.add provider ns workload cost clock)
    (hland : s'.landed = s.landed ++ addEntry provider ns cost clock)
    (hcalls : spendCalls s e = [⟨provider.name, ns, clock.t1, cost⟩]) : Stores n σ s e s' := by
  by_cases hn : provider.name = n
  · by_cases hzero : periodKey provider.budget.period clock.t0 = "" ∨ cost = 0
    · rw [addEntry, if_pos hzero] at hland
      refine .same_lookup hland (by simp)
        (by rw [hledger, BudgetLedger.add, if_pos hzero]) fun c hc _ => ?_
      rw [hcalls, List.mem_singleton] at hc
      subst hc
      rwa [periodKey_eq_empty_iff, hσ hn] at hzero
    · rw [addEntry, if_neg hzero, hn, hσ hn] at hland
      obtain ⟨l, hstored, hlands, hadm⟩ := s.ledger.add_spec ns workload hzero
      rw [hn, hσ hn] at hlands hadm
      rw [hn, ← hledger] at hstored
      rw [not_or] at hzero
      exact .landed he clock.t1_within hstored (fun _ => hadm) hlands
        (by rw [if_neg hzero.2]; exact hland) (hn ▸ hcalls)
  · refine .same_lookup hland (by rw [addEntry]; split_ifs <;> simp [hn]) ?_ (by simp [hcalls, hn])
    rw [hledger, s.ledger.add_frame ns workload cost clock (Ne.symm hn)]

theorem stores_settle {h : Settle} (he : e.clock? = some clock)
    (hmoves : movesSlots e = true) (hσ : h.providerName = n → h.scheme = σ)
    (hledger : s'.ledger = s.ledger.settle h cost clock)
    (hland : s'.landed = s.landed ++ settleEntry h cost clock)
    (hcalls : spendCalls s e = [⟨h.providerName, h.namespace_, clock.t0, cost⟩]) :
    Stores n σ s e s' := by
  by_cases hn : h.providerName = n
  · obtain ⟨l, hstored, hlands, -⟩ := s.ledger.settle_spec h cost clock
    rw [hn, hσ hn] at hlands
    rw [hn, ← hledger] at hstored
    rw [settleEntry, hn, hσ hn] at hland
    exact .landed he clock.t0_within hstored (by simp [hmoves]) hlands hland (hn ▸ hcalls)
  · refine .same_lookup hland (by rw [settleEntry]; split_ifs <;> simp [hn]) ?_
      (by simp [hcalls, hn])
    rw [hledger, s.ledger.settle_frame h cost clock (Ne.symm hn)]

theorem stores_admission {workload : String} {wall : Time} (he : e.clock? = some clock)
    (hmoves : movesSlots e = true) (hσ : provider.name = n → provider.budget.period = σ)
    (hledger : s'.ledger = (s.ledger.admitRequest provider ns workload clock wall).ledger)
    (hland : s'.landed = s.landed) (hcalls : spendCalls s e = []) : Stores n σ s e s' := by
  by_cases hn : provider.name = n
  · rcases s.ledger.admitRequest_spec provider ns workload clock wall rfl with
      ⟨-, hsame⟩ | ⟨l, hread, hperiod, hown, hpeers, hmax, -, -⟩
    · rw [hn, ← hledger] at hsame
      exact .untouched hland hsame hcalls
    · rw [hn, ← hledger] at hread
      rw [hn, hσ hn] at hperiod hown hpeers hmax
      exact .reading he clock.t1_within hread (by simp [hmoves]) hperiod hown hmax (fun _ => hpeers)
        hland hcalls
  · refine .untouched hland ?_ hcalls
    rw [hledger, s.ledger.admitRequest_frame provider ns workload clock wall (Ne.symm hn)]

theorem step_stores (huse : ∀ σ', schemeUsed s e = some (n, σ') → σ' = σ)
    (hst : ledgerStep s e = some s') : Stores n σ s e s' := by
  cases e with
  | admission provider ns workload clock wall =>
    obtain ⟨-, rfl⟩ := step_applied rfl rfl hst
    exact stores_admission rfl rfl (fun hn => huse _ (by rw [schemeUsed, hn])) rfl rfl rfl
  | settle i cost clock =>
    obtain ⟨r, h, hi, hh, -, ⟨hsettled, rfl⟩ | ⟨hsettled, rfl⟩⟩ := step_settle hst
    · exact .untouched rfl rfl (by simp [spendCalls, hi, hh, hsettled])
    · refine stores_settle rfl rfl (fun hn => huse _ ?_) rfl rfl ?_
      · simp [schemeUsed, hi, hh, hsettled, hn]
      · simp [spendCalls, hi, hh, hsettled]
  | finish i cost clock =>
    obtain ⟨r, hi, -, -, -, rfl⟩ := step_finish hst
    exact stores_add rfl (fun hn => huse _ (by simp [schemeUsed, hi, hn])) rfl rfl
      (by simp [spendCalls, hi])
  | add provider ns workload cost clock =>
    obtain ⟨-, rfl⟩ := step_applied rfl rfl hst
    exact stores_add rfl (fun hn => huse _ (by rw [schemeUsed, hn])) rfl rfl rfl
  | enforce provider ns clock wall =>
    obtain ⟨-, rfl⟩ := step_applied rfl rfl hst
    rcases s.ledger.enforce_ledger provider ns clock wall with hb | hb
    · exact .untouched rfl (congrArg (·.providers.lookup n) hb) rfl
    · have hread := congrArg (·.providers.lookup n) hb
      by_cases hn : provider.name = n
      · subst hn
        rw [← huse _ rfl]
        exact .reading rfl clock.t1_within (hread.trans (s.ledger.lookup_put_self _ _))
          (fun _ => rfl) rfl rfl rfl (fun _ => rfl) rfl rfl
      · exact .untouched rfl (hread.trans (s.ledger.lookup_put_ne _ (Ne.symm hn))) rfl
  | foldPeers provider peers clock | foldWorkloadPeers provider peers clock =>
    obtain ⟨-, rfl⟩ := step_applied rfl rfl hst
    by_cases hn : provider.name = n
    · subst hn
      rw [← huse _ rfl]
      exact .reading rfl clock.t0_within (s.ledger.lookup_put_self _ _) (fun _ => rfl) rfl
        rfl rfl (by simp [foldsPeers, LedgerState.view]) rfl rfl
    · exact .untouched rfl (BudgetLedger.lookup_put_ne _ _ (Ne.symm hn)) rfl
  | markPublished m snapshot =>
    cases hst
    exact .same [] (List.append_nil _).symm (fun _ h => absurd h List.not_mem_nil)
      (s.ledger.markPublished_lookup m snapshot n) (fun _ h => absurd h List.not_mem_nil)
  | setReplicas count =>
    cases hst
    exact .untouched rfl rfl rfl

theorem schemeUsed_eq (hc : Coherent n σ s) (hs : SameScheme n σ s e) {σ' : PeriodScheme}
    (h : schemeUsed s e = some (n, σ')) : σ' = σ := by
  cases e with
  | admission | add | enforce | foldPeers | foldWorkloadPeers => cases h; exact hs rfl
  | markPublished | setReplicas => cases h
  | settle i cost clock =>
    simp only [schemeUsed] at h
    split at h
    · rename_i r hi
      split_ifs at h
      obtain ⟨handle, hh, heq⟩ := Option.map_eq_some_iff.mp h
      obtain ⟨hname, hscheme, -⟩ := r.belongs handle hh
      cases heq
      rw [hscheme]
      exact hc.scheme r (List.mem_of_getElem? hi) hname.symm
    · cases h
  | finish i cost clock =>
    obtain ⟨r, hi, heq⟩ := Option.map_eq_some_iff.mp h
    cases heq
    exact hc.scheme r (List.mem_of_getElem? hi) rfl

/-! ## What later readings find -/

/-- What the reading `u` finds after a step. -/
structure Reads (n : String) (σ : PeriodScheme) (s : LedgerState) (e : LedgerEvent)
    (s' : LedgerState) (u : Time) : Prop where
  own : ∃ extra, s'.landed = s.landed ++ extra ∧ ∀ ns, (s'.view n σ u).own.at0 ns =
    (s.view n σ u).own.at0 ns + landedIn extra n ns (periodKey σ u)
  spent : (∀ ns, (s'.view n σ u).own.at0 ns =
      (s.view n σ u).own.at0 ns + spentIn (spendCalls s e) n ns σ u) ∨
    σ = .none ∧ (s'.view n σ u).own = (s.view n σ u).own
  peers : foldsPeers n e = false → (s'.view n σ u).peers = (s.view n σ u).peers
  adm : movesSlots e = false → (s'.view n σ u).adm = (s.view n σ u).adm
  largest : (s.view n σ u).maxCostPerCall ≤ (s'.view n σ u).maxCostPerCall
  tracked : ∀ x ∈ s'.landed, x ∈ s.landed ∨ (x.provider = n → x.period = periodKey σ u →
    0 < x.cost → x.cost ≤ (s'.view n σ u).maxCostPerCall)

theorem view_eq_of_lookup (h : s'.ledger.providers.lookup n = s.ledger.providers.lookup n)
    (u : Time) : s'.view n σ u = s.view n σ u :=
  BudgetLedger.ledgerFor_congr h σ u

theorem view_of_marked (h : s'.ledger.providers.lookup n = s.ledger.providers.lookup n ∨
      ∃ l, s.ledger.providers.lookup n = some l ∧
        s'.ledger.providers.lookup n = some { l with dirtySince := none }) (u : Time) :
    (s'.view n σ u).own = (s.view n σ u).own ∧ (s'.view n σ u).peers = (s.view n σ u).peers ∧
      (s'.view n σ u).adm = (s.view n σ u).adm ∧
      (s'.view n σ u).maxCostPerCall = (s.view n σ u).maxCostPerCall := by
  rcases h with hsame | ⟨l, hl, hmarked⟩
  · rw [view_eq_of_lookup hsame]
    exact ⟨rfl, rfl, rfl, rfl⟩
  · simp only [LedgerState.view, BudgetLedger.ledgerFor, BudgetLedger.stored, hmarked, hl,
      Option.getD_some]
    split_ifs
    · exact ⟨rfl, rfl, rfl, rfl⟩
    · exact ⟨rfl, rfl, rfl, rfl⟩

variable {u : Time}

theorem Stores.reads (h : Stores n σ s e s') (hst : ledgerStep s e = some s')
    (hcur : s.ledger.Current n σ s.now) (hu : s'.now ≤ u) : Reads n σ s e s' u := by
  cases h with
  | same extra hland hextra hstored hcalls =>
    have hview := view_of_marked (σ := σ) hstored u
    refine ⟨⟨extra, hland, fun ns => ?_⟩, ?_, fun _ => hview.2.1, fun _ => hview.2.2.1,
      hview.2.2.2.ge, fun x hx => ?_⟩
    · rw [hview.1, landedIn_eq_zero fun x hx hn => absurd hn (hextra x hx), add_zero]
    · by_cases hσ : σ = .none
      · exact .inr ⟨hσ, hview.1⟩
      · refine .inl fun ns => ?_
        rw [hview.1, spentIn_eq_zero fun c hc hn _ => (hcalls c hc hn).resolve_left hσ, add_zero]
    · rw [hland] at hx
      exact (List.mem_append.mp hx).imp_right fun h hn => absurd hn (hextra x h)
  | wrote clock t l' extra he hread hstored hperiod hland hextra hown hpeers hadm hcalls hspent
      hlargest htracked =>
    obtain ⟨hfirst, hlast⟩ := step_reading he hst
    have htu : t ≤ u := (hread.2.trans hlast.ge).trans hu
    rcases BudgetLedger.ledgerFor_later (hcur.mono (hfirst.trans hread.1)) htu hstored hperiod with
      ⟨hkey, hnew, hold⟩ | ⟨hkey, hnew, hold⟩
    · refine ⟨⟨extra, hland, fun ns => ?_⟩, .inl fun ns => ?_, ?_, ?_, ?_, fun x hx => ?_⟩
      · rw [LedgerState.view, hnew, hown, LedgerState.view, LedgerState.view, hold, hkey]
      · rw [LedgerState.view, hnew, hown, ← hspent, LedgerState.view, LedgerState.view, hold,
          spentIn_congr hkey]
      · rwa [LedgerState.view, hnew, LedgerState.view, hold]
      · rwa [LedgerState.view, hnew, LedgerState.view, hold]
      · rwa [LedgerState.view, hold, LedgerState.view, hnew]
      · rw [hland] at hx
        rw [LedgerState.view, hnew]
        exact (List.mem_append.mp hx).imp_right fun h _ _ => htracked x h
    · refine ⟨⟨extra, hland, fun ns => ?_⟩, .inl fun ns => ?_,
        fun _ => hnew.peers.trans hold.peers.symm,
        fun _ => hnew.adm.trans hold.adm.symm, (hold.largest.trans hnew.largest.symm).le,
        fun x hx => ?_⟩
      · rw [LedgerState.view, hnew.own, LedgerState.view, hold.own,
          landedIn_eq_zero fun x hx _ hp => hkey (hp.symm.trans (hextra x hx).2), add_zero]
      · rw [LedgerState.view, hnew.own, LedgerState.view, hold.own, spentIn_eq_zero, add_zero]
        exact fun c hc _ hp => absurd (hcalls c hc ▸ hp).symm hkey
      · rw [hland] at hx
        exact (List.mem_append.mp hx).imp_right fun h _ hp =>
          absurd (hp.symm.trans (hextra x h).2) hkey

theorem Stores.adm_booked (h : Stores n σ s e s') (hmoves : movesSlots e = false) {c : SpendCall}
    (hc : c ∈ spendCalls s e) :
    (s'.view n σ c.bookedAt).adm = (s.view n σ c.bookedAt).adm := by
  cases h with
  | same extra hland hextra hstored => exact (view_of_marked hstored _).2.2.1
  | wrote clock t l' extra he hread hstored hperiod hland hextra hown hpeers hadm hcalls =>
    rw [hcalls c hc, LedgerState.view, BudgetLedger.ledgerFor_eq_of_period hstored hperiod]
    exact hadm hmoves

theorem stored_of_marked (h : s'.ledger.providers.lookup n = s.ledger.providers.lookup n ∨
      ∃ l, s.ledger.providers.lookup n = some l ∧
        s'.ledger.providers.lookup n = some { l with dirtySince := none })
    (hl : s'.ledger.providers.lookup n = some l') :
    ∃ l, s.ledger.providers.lookup n = some l ∧ l'.period = l.period ∧ l'.own = l.own := by
  rcases h with hsame | ⟨l, hold, hmarked⟩
  · exact ⟨l', hsame ▸ hl, rfl, rfl⟩
  · refine ⟨l, hold, ?_⟩
    rw [Option.some.inj (hl.symm.trans hmarked)]
    exact ⟨rfl, rfl⟩

theorem Stores.current (h : Stores n σ s e s') (hst : ledgerStep s e = some s')
    (hcur : s.ledger.Current n σ s.now) : s'.ledger.Current n σ s'.now := by
  cases h with
  | same extra hland hextra hstored hcalls =>
    intro l' hl'
    obtain ⟨l, hl, hperiod, -⟩ := stored_of_marked hstored hl'
    rw [hperiod]
    exact hcur.mono (step_now_le hst) l hl
  | wrote clock t l' extra he hread hstored hperiod =>
    intro l hl u hu heq
    rw [Option.some.inj (hl.symm.trans hstored), hperiod] at heq
    have ht : t ≤ s'.now := hread.2.trans (step_reading he hst).2.ge
    rw [← heq, periodKey_convex ht hu heq]

/-- The stored period is the old one, or the key of a reading of the step. -/
def StoredFrom (n : String) (σ : PeriodScheme) (s : LedgerState) (e : LedgerEvent)
    (l' : ProviderLedger) : Prop :=
  (∃ l, s.ledger.providers.lookup n = some l ∧ l'.period = l.period) ∨
    ∃ clock t, e.clock? = some clock ∧ clock.t0 ≤ t ∧ t ≤ clock.t3 ∧ l'.period = periodKey σ t

theorem stored_step (hc : Coherent n σ s) (hs : SameScheme n σ s e)
    (hst : ledgerStep s e = some s') (hl : s'.ledger.providers.lookup n = some l') :
    StoredFrom n σ s e l' := by
  cases step_stores (fun _ => schemeUsed_eq hc hs) hst with
  | same extra hland hextra hstored hcalls =>
    obtain ⟨l, hold, hperiod, -⟩ := stored_of_marked hstored hl
    exact .inl ⟨l, hold, hperiod⟩
  | wrote clock t l extra he hread hstored hperiod =>
    rw [Option.some.inj (hl.symm.trans hstored)]
    exact .inr ⟨clock, t, he, hread.1, hread.2, hperiod⟩

theorem step_reads (hc : Coherent n σ s) (hs : SameScheme n σ s e) (hst : ledgerStep s e = some s')
    (hu : s'.now ≤ u) : Reads n σ s e s' u :=
  (step_stores (fun _ => schemeUsed_eq hc hs) hst).reads hst hc.anchored.current hu

theorem peers_fold {mp : ModelProvider} {peers : GoMap String ℚ}
    (hst : ledgerStep s (.foldPeers mp peers clock) = some s')
    (hu : periodKey mp.budget.period u = periodKey mp.budget.period clock.t0) :
    (s'.view mp.name mp.budget.period u).peers = peers := by
  obtain ⟨-, rfl⟩ := step_applied rfl rfl hst
  have hstored : (s.ledger.foldPeers mp peers clock).providers.lookup mp.name = some _ :=
    s.ledger.lookup_put_self _ _
  rw [LedgerState.view, BudgetLedger.ledgerFor_eq_of_period hstored
    ((s.ledger.ledgerFor_period _ _ _).trans hu.symm)]

end Stored

/-! ## Requests and slots -/

/-- What a step does to the requests of provider `n` and to its slots, as the readings `u` of later
operations find them. -/
inductive Effect (n : String) (σ : PeriodScheme) (s : LedgerState) (e : LedgerEvent)
    (s' : LedgerState) : Prop
  | idle (hreq : SameRequests n s.requests s'.requests)
      (hadm : ∀ u, s'.now ≤ u → (s'.view n σ u).adm = (s.view n σ u).adm)
      (hcalls : ∀ c ∈ spendCalls s e, c.provider = n → ∃ provider ns workload clock,
        e = .add provider ns workload c.cost clock ∧ provider.name = n)
  /-- a request is admitted, and takes slots that were free -/
  | opened (r : Request) (clock : Clock) (wall : Time)
      (he : e = .admission r.provider r.ns r.workload clock wall)
      (hn : r.provider.name = n) (hopen : r.settled = false)
      (hadmitted : (s.ledger.admitRequest r.provider r.ns r.workload clock wall).decision.admitted
        = true)
      (hreq : s'.requests = s.requests ++ [r])
      (hadm : ∀ u, s'.now ≤ u →
        TakesSlots r.handle (periodKey σ u) (s.view n σ u).adm (s'.view n σ u).adm)
  /-- an open request settles, or finishes, and its slots are freed -/
  | closed (i : Nat) (r : Request) (cost : ℚ) (clock : Clock)
      (he : e = .settle i cost clock ∨ e = .finish i cost clock)
      (hi : s.requests[i]? = some r) (hn : r.provider.name = n) (hopen : r.settled = false)
      (hcalls : ∃ t, clock.t0 ≤ t ∧ t ≤ clock.t3 ∧ spendCalls s e = [⟨n, r.ns, t, cost⟩])
      (hreq : s'.requests = s.requests.set i r.close)
      (hadm : ∀ u, s'.now ≤ u →
        FreesSlots r.handle (periodKey σ u) (s.view n σ u).adm (s'.view n σ u).adm)

variable {r : Request}

theorem settled_view {h : Settle} {u : Time} (hc : Coherent n σ s) (hnow : s.now ≤ clock.t0)
    (hr : r ∈ s.requests) (hn : r.provider.name = n) (hh : r.handle = some h)
    (hledger : s'.ledger = s.ledger.settle h cost clock) (hu : clock.t0 ≤ u) :
    FreesSlots r.handle (periodKey σ u) (s.view n σ u).adm (s'.view n σ u).adm ∧
      (periodKey σ u = periodKey σ clock.t0 → ∀ ns, (s'.view n σ u).own.at0 ns =
        (s.view n σ u).own.at0 ns + if ns = r.ns then cost else 0) := by
  obtain ⟨hname, hscheme, hns, _⟩ := r.belongs h hh
  obtain ⟨l', hl, hlands, hadm⟩ := s.ledger.settle_spec h cost clock
  rw [← hledger, hname, hn] at hl
  rw [hname, hscheme, hn, hc.scheme r hr hn] at hlands hadm
  rw [hns] at hlands
  have hp : l'.period = periodKey σ clock.t0 :=
    hlands.period.trans (BudgetLedger.ledgerFor_period _ _ _ _)
  rcases BudgetLedger.ledgerFor_later (hc.anchored.current.mono hnow) hu hl hp with
    ⟨hkey, hnew, hold⟩ | ⟨hkey, hnew, hold⟩
  · unfold LedgerState.view
    rw [hnew, hold, hkey]
    refine ⟨fun k => ?_, fun _ ns => hlands.own ns⟩
    rw [hadm, hh, slotsIn, Option.elim_some]
    by_cases hcap : h.capturedPeriod = periodKey σ clock.t0
    · rw [if_pos hcap, if_pos hcap.symm, lookup_release]
      rfl
    · simp [hcap, Ne.symm hcap]
  · refine ⟨fun k => ?_, fun h => absurd h hkey⟩
    rw [LedgerState.view, hnew.adm, LedgerState.view, hold.adm]
    simp

theorem effect_settle (hc : Coherent n σ s) (hst : ledgerStep s (.settle i cost clock) = some s') :
    Effect n σ s (.settle i cost clock) s' := by
  obtain ⟨r, h, hi, hh, hnow, ⟨hsettled, rfl⟩ | ⟨hopen, rfl⟩⟩ := step_settle hst
  · exact .idle (.refl _ _) (fun _ _ => rfl) (by simp [spendCalls, hi, hh, hsettled])
  by_cases hn : r.provider.name = n
  · refine .closed i r cost clock (.inl rfl) hi hn hopen ⟨clock.t0, le_rfl, clock.t0_within.2, ?_⟩
      rfl fun u hu => (settled_view hc hnow (List.mem_of_getElem? hi) hn hh rfl
        (clock.t0_within.2.trans hu)).1
    obtain ⟨hname, -, hns, -⟩ := r.belongs h hh
    simp [spendCalls, hi, hh, hopen, hname, hn, hns]
  · have hne : h.providerName ≠ n := fun heq => hn ((r.belongs h hh).1.symm.trans heq)
    refine .idle (.set hi hn) (fun u _ => ?_) (by simp [spendCalls, hi, hh, hopen, hne])
    rw [view_eq_of_lookup (s := s) (s.ledger.settle_frame h cost clock hne.symm)]

theorem effect_finish (hc : Coherent n σ s) (hst : ledgerStep s (.finish i cost clock) = some s') :
    Effect n σ s (.finish i cost clock) s' := by
  have hreads := fun u => step_reads (e := .finish i cost clock) (u := u) hc trivial hst
  obtain ⟨r, hi, hhandle, hopen, -, rfl⟩ := step_finish hst
  by_cases hn : r.provider.name = n
  · refine .closed i r cost clock (.inr rfl) hi hn hopen
      ⟨clock.t1, clock.le01, clock.t1_within.2, by simp [spendCalls, hi, hn]⟩ rfl fun u hu k => ?_
    rw [(hreads u hu).adm rfl, hhandle]
    simp [slotsIn]
  · exact .idle (.set hi hn) (fun u hu => (hreads u hu).adm rfl) (by simp [spendCalls, hi, hn])

theorem effect_admission {provider : ModelProvider} {workload : String} {wall : Time}
    (hc : Coherent n σ s) (hs : SameScheme n σ s (.admission provider ns workload clock wall))
    (hst : ledgerStep s (.admission provider ns workload clock wall) = some s') :
    Effect n σ s (.admission provider ns workload clock wall) s' := by
  obtain ⟨hnow, rfl⟩ := step_applied rfl rfl hst
  by_cases hn : provider.name = n
  swap
  · refine .idle ?_ (fun u _ => ?_) nofun
    · rw [LedgerState.admitted]
      split_ifs
      · exact .append hn
      · exact .refl _ _
    · rw [view_eq_of_lookup (s := s)
        (s.ledger.admitRequest_frame provider ns workload clock wall (Ne.symm hn))]
  obtain rfl := hs hn
  subst hn
  -- whatever was admitted, its slots are taken
  have htakes : ∀ u, clock.t3 ≤ u → TakesSlots
      (s.ledger.admitRequest provider ns workload clock wall).settle
      (periodKey provider.budget.period u) (s.view provider.name provider.budget.period u).adm
      ((s.ledger.admitRequest provider ns workload clock wall).ledger.ledgerFor provider.name
        provider.budget.period u).adm := by
    intro u hu
    rcases s.ledger.admitRequest_spec provider ns workload clock wall rfl with
      ⟨hnone, hsame⟩ | ⟨l', hstored, hperiod, -, -, -, hcaptured, hslots⟩
    · rw [hnone, BudgetLedger.ledgerFor_congr hsame]
      exact .refl rfl _
    · rw [BudgetLedger.ledgerFor_period] at hperiod hcaptured hslots
      rcases BudgetLedger.ledgerFor_later (hc.anchored.current.mono (hnow.trans clock.le01))
        (clock.t1_within.2.trans hu) hstored hperiod with
        ⟨hkey, hnew, hold⟩ | ⟨hkey, hnew, hold⟩
      · rw [hnew, LedgerState.view, hold, hkey]
        exact hslots
      · rw [hnew.adm, LedgerState.view, hold.adm]
        refine .refl ?_ _
        cases hsettle : (s.ledger.admitRequest provider ns workload clock wall).settle with
        | none => rfl
        | some h => exact if_neg fun heq => hkey (heq.symm.trans (hcaptured h hsettle).1)
  by_cases hadm : (s.ledger.admitRequest provider ns workload clock wall).decision.admitted = true
  · refine .opened (s.request provider ns workload clock wall) clock wall rfl rfl rfl hadm ?_ htakes
    rw [LedgerState.admitted, if_pos hadm]
  · have hnone : (s.ledger.admitRequest provider ns workload clock wall).settle = none := by
      rcases s.ledger.admitRequest_spec provider ns workload clock wall rfl with
        ⟨hnone, -⟩ | ⟨-, -, -, -, -, -, hgiven, -⟩
      · exact hnone
      · exact Option.eq_none_iff_forall_ne_some.mpr fun h hh => hadm (hgiven h hh).2
    refine .idle ?_ (fun u hu => ?_) nofun
    · rw [LedgerState.admitted, if_neg hadm]
      exact .refl _ _
    · have htaken := (htakes u hu).taken
      rwa [hnone] at htaken

theorem step_effect (hc : Coherent n σ s) (hs : SameScheme n σ s e)
    (hst : ledgerStep s e = some s') :
    Effect n σ s e s' := by
  have hadm : movesSlots e = false → ∀ u, s'.now ≤ u → (s'.view n σ u).adm = (s.view n σ u).adm :=
    fun he u hu => (step_reads hc hs hst hu).adm he
  cases e with
  | admission provider ns workload clock wall => exact effect_admission hc hs hst
  | settle i cost clock => exact effect_settle hc hst
  | finish i cost clock => exact effect_finish hc hst
  | add provider ns workload cost clock =>
    obtain ⟨-, rfl⟩ := step_applied rfl rfl hst
    refine .idle (.refl _ _) (hadm rfl) fun c hc hn => ?_
    rw [List.mem_singleton.mp hc] at hn ⊢
    exact ⟨provider, ns, workload, clock, rfl, hn⟩
  | enforce | foldPeers | foldWorkloadPeers =>
    obtain ⟨-, rfl⟩ := step_applied rfl rfl hst
    exact .idle (.refl _ _) (hadm rfl) nofun
  | markPublished | setReplicas =>
    cases hst
    exact .idle (.refl _ _) (hadm rfl) nofun

theorem Effect.provider (heff : Effect n σ s e s') (hr : r ∈ s'.requests)
    (hn : r.provider.name = n) : (∃ r₀ ∈ s.requests, r₀.provider = r.provider) ∨
      ∃ ns workload clock wall, e = .admission r.provider ns workload clock wall := by
  cases heff with
  | idle hreq =>
    obtain ⟨i, hi⟩ := List.mem_iff_getElem?.mp hr
    exact .inl ⟨r, List.mem_of_getElem? ((hreq.get i r hn).mp hi), rfl⟩
  | opened r₁ clock wall he hn hopen hadmitted hreq =>
    rw [hreq] at hr
    rcases List.mem_append.mp hr with hold | hnew
    · exact .inl ⟨r, hold, rfl⟩
    · rw [List.mem_singleton.mp hnew]
      exact .inr ⟨_, _, _, _, he⟩
  | closed i r₁ cost clock he hi hn hopen hcalls hreq =>
    rw [hreq] at hr
    rcases List.mem_or_eq_of_mem_set hr with hold | rfl
    · exact .inl ⟨r, hold, rfl⟩
    · exact .inl ⟨r₁, List.mem_of_getElem? hi, rfl⟩

theorem coherent_step (hc : Coherent n σ s) (hs : SameScheme n σ s e)
    (hst : ledgerStep s e = some s') : Coherent n σ s' where
  anchored l hl := by
    rcases stored_step hc hs hst hl with ⟨old, hold, hp⟩ | ⟨clock, t, he, -, ht, hp⟩
    · obtain ⟨tl, htl, hkey⟩ := hc.anchored old hold
      exact ⟨tl, htl.trans (step_now_le hst), hp.trans hkey⟩
    · exact ⟨t, ht.trans (step_reading he hst).2.ge, hp⟩
  scheme r hr hn := by
    rcases (step_effect hc hs hst).provider hr hn with ⟨r₀, hr₀, heq⟩ | ⟨_, _, _, _, rfl⟩
    · rw [← heq] at hn ⊢
      exact hc.scheme r₀ hr₀ hn
    · exact hs hn

end Kaalm.Gateway
