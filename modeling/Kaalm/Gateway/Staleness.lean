/-
  Gateway/Staleness.lean --- the two staleness signals under every operation.

  `dirtySince` is the oldest settle not yet published, `lastFoldOK` the last
  refresh of the peer view; both feed the fail-closed check of `Admit`.  They are
  the only fields of a provider ledger that survive a rollover together with the
  token counter, so what an operation does to them does not depend on the period.
  `step_signals` says it once for every step of a run.
-/
import Kaalm.Gateway.Effect

namespace Kaalm.Gateway

open Kaalm.Foundation

/-! ## The signals of a provider -/

/-- `dirtySince` and `lastFoldOK`; a zero time is none. -/
@[ext] structure Signals where
  dirtySince : Option Time
  lastFoldOK : Option Time

def ProviderLedger.signals (l : ProviderLedger) : Signals := ⟨l.dirtySince, l.lastFoldOK⟩

/-- The stored signals of a provider; both are zero before its first operation. -/
def BudgetLedger.signals (b : BudgetLedger) (n : String) : Signals :=
  (b.providers.lookup n).elim ⟨none, none⟩ ProviderLedger.signals

/-- A cost has landed: a mark that is set stays. -/
def Signals.dirtied (g : Signals) (t : Time) : Signals :=
  { g with dirtySince := some (g.dirtySince.getD t) }

def Signals.published (g : Signals) (snapshot : Time) : Signals :=
  if g.dirtySince.any fun d => d ≤ snapshot then { g with dirtySince := none } else g

def Signals.refreshed (g : Signals) (t : Time) : Signals := { g with lastFoldOK := some t }

section Operations

variable (b : BudgetLedger) (n : String)

variable (provider : ModelProvider) (ns m : String)

theorem BudgetLedger.signals_put (l : ProviderLedger) :
    (b.put m l).signals n = if n = m then l.signals else b.signals n := by
  unfold BudgetLedger.signals
  split_ifs with h
  · subst h
    rw [b.lookup_put_self]
    rfl
  · rw [b.lookup_put_ne l h]

theorem BudgetLedger.ledgerFor_signals (scheme : PeriodScheme) (t : Time) :
    (b.ledgerFor n scheme t).signals = b.signals n := by
  unfold BudgetLedger.ledgerFor BudgetLedger.stored BudgetLedger.signals
  cases b.providers.lookup n with
  | none => simp [ProviderLedger.new, ProviderLedger.signals]
  | some l =>
    dsimp only [Option.getD_some, Option.elim_some]
    split_ifs <;> rfl

theorem ProviderLedger.land_signals (l : ProviderLedger) (ns workload : String) (cost : ℚ)
    (t t' : Time) : (l.land ns workload cost t t').signals = l.signals.dirtied t' := by
  obtain ⟨_, _, _, _, h⟩ := l.land_frame ns workload cost t t'
  rw [h]
  rfl

theorem BudgetLedger.signals_put_ledgerFor (scheme : PeriodScheme) (t : Time) {l : ProviderLedger}
    (hl : l.signals = (b.ledgerFor m scheme t).signals) :
    (b.put m l).signals n = b.signals n := by
  rw [b.signals_put]
  split_ifs with h
  · rw [h, hl, b.ledgerFor_signals]
  · rfl

theorem BudgetLedger.add_signals (workload : String) (cost : ℚ) (clock : Clock) :
    (b.add provider ns workload cost clock).signals n =
      if n = provider.name ∧ ¬(periodKey provider.budget.period clock.t0 = "" ∨ cost = 0) then
        (b.signals n).dirtied clock.t3
      else b.signals n := by
  unfold BudgetLedger.add
  by_cases hoff : periodKey provider.budget.period clock.t0 = "" ∨ cost = 0
  · rw [if_pos hoff, if_neg fun h => h.2 hoff]
  · rw [if_neg hoff, b.signals_put, ProviderLedger.land_signals, b.ledgerFor_signals]
    by_cases hn : n = provider.name
    · rw [if_pos hn, if_pos ⟨hn, hoff⟩, hn]
    · rw [if_neg hn, if_neg fun h => hn h.1]

theorem BudgetLedger.settle_signals (h : Settle) (cost : ℚ) (clock : Clock) :
    (b.settle h cost clock).signals n =
      if n = h.providerName ∧ cost ≠ 0 then (b.signals n).dirtied clock.t2
      else b.signals n := by
  obtain ⟨l, hl, hstored⟩ := b.settle_providers h cost clock
  have hread : l.signals = b.signals h.providerName := by
    rw [hl, ← b.ledgerFor_signals h.providerName h.scheme clock.t0]
    rfl
  rw [BudgetLedger.signals, hstored]
  refine (b.signals_put n h.providerName _).trans ?_
  by_cases hn : n = h.providerName
  swap
  · rw [if_neg hn, if_neg fun hn' => hn hn'.1]
  rw [if_pos hn, hn]
  by_cases hc : cost = 0
  · rw [if_pos hc, if_neg fun h => h.2 hc, hread]
  · rw [if_neg hc, if_pos ⟨rfl, hc⟩, ProviderLedger.land_signals, hread]

theorem BudgetLedger.admitRequest_signals (workload : String) (clock : Clock) (wall : Time) :
    (b.admitRequest provider ns workload clock wall).ledger.signals n = b.signals n := by
  have hout := admit_outcome b provider ns workload clock wall
  generalize b.admitRequest provider ns workload clock wall = res at hout
  cases hout with
  | off => rfl
  | soft | refused | plain | slotted => exact b.signals_put_ledgerFor n _ _ _ rfl

theorem BudgetLedger.enforce_signals (clock : Clock) (wall : Time) :
    (b.enforce provider ns clock wall).1.signals n = b.signals n := by
  rcases b.enforce_ledger provider ns clock wall with hb | hb <;> rw [hb]
  exact b.signals_put_ledgerFor n _ _ _ rfl

theorem BudgetLedger.foldPeers_signals (peers : GoMap String ℚ) (clock : Clock) :
    (b.foldPeers provider peers clock).signals n =
      if n = provider.name then (b.signals n).refreshed clock.t1 else b.signals n := by
  unfold BudgetLedger.foldPeers
  rw [b.signals_put]
  split_ifs with hn
  · rw [hn, ← b.ledgerFor_signals provider.name provider.budget.period clock.t0]
    rfl
  · rfl

theorem BudgetLedger.markPublished_signals (snapshot : Time) :
    (b.markPublished m snapshot).signals n =
      if n = m then (b.signals n).published snapshot else b.signals n := by
  by_cases hn : n = m
  · subst hn
    unfold BudgetLedger.markPublished Signals.published
    cases hl : b.providers.lookup n with
    | none => simp [BudgetLedger.signals, hl]
    | some l =>
      cases hd : l.dirtySince with
      | none => simp [BudgetLedger.signals, hl, hd, ProviderLedger.signals]
      | some d =>
        have hg : b.signals n = ⟨some d, l.lastFoldOK⟩ := by
          simp [BudgetLedger.signals, hl, hd, ProviderLedger.signals]
        simp only [hd, hg, Option.any_some, decide_eq_true_eq]
        split_ifs
        · rw [b.signals_put, if_pos rfl]
          rfl
        · exact hg
  · rw [if_neg hn]
    unfold BudgetLedger.markPublished
    cases b.providers.lookup m with
    | none => rfl
    | some l =>
      cases hd : l.dirtySince with
      | none => simp only [hd]
      | some d =>
        simp only [hd]
        split_ifs
        · rw [b.signals_put, if_neg hn]
        · rfl

end Operations

/-! ## A step -/

/-- The reading at which a cost that an event lands is marked. -/
def LedgerEvent.landsAt : LedgerEvent → Time
  | .settle _ _ clock => clock.t2
  | .finish _ _ clock => clock.t3
  | .add _ _ _ _ clock => clock.t3
  | _ => 0

/-- What a step does to the signals of provider `n` and to its landed costs. -/
inductive SignalStep (n : String) (s : LedgerState) (e : LedgerEvent) (s' : LedgerState) : Prop
  /-- nothing lands for the provider -/
  | quiet (extra : List Landed) (hland : s'.landed = s.landed ++ extra)
      (hextra : ∀ x ∈ extra, x.provider ≠ n)
      (hsignals : s'.ledger.signals n = s.ledger.signals n)
  | dirtied (x : Landed) (hx : x.provider = n) (hland : s'.landed = s.landed ++ [x])
      (hread : s.now ≤ e.landsAt ∧ e.landsAt ≤ s'.now)
      (hsignals : s'.ledger.signals n = (s.ledger.signals n).dirtied e.landsAt)
  | published (snapshot : Time) (he : e = .markPublished n snapshot)
      (hland : s'.landed = s.landed)
      (hsignals : s'.ledger.signals n = (s.ledger.signals n).published snapshot)
  | refreshed (provider : ModelProvider) (peers : GoMap String ℚ) (clock : Clock)
      (he : e = .foldPeers provider peers clock) (hn : provider.name = n)
      (hland : s'.landed = s.landed) (hread : s.now ≤ clock.t1 ∧ clock.t1 ≤ s'.now)
      (hsignals : s'.ledger.signals n = (s.ledger.signals n).refreshed clock.t1)

section Step

variable {n : String} {s s' : LedgerState} {e : LedgerEvent}

theorem SignalStep.silent (hland : s'.landed = s.landed)
    (hsignals : s'.ledger.signals n = s.ledger.signals n) : SignalStep n s e s' :=
  .quiet [] (by rw [hland, List.append_nil]) (fun _ h => absurd h List.not_mem_nil) hsignals

theorem SignalStep.of_entry {x : Landed} {off : Prop} [Decidable off]
    (hread : s.now ≤ e.landsAt ∧ e.landsAt ≤ s'.now)
    (hland : s'.landed = s.landed ++ if off then [] else [x])
    (hsignals : s'.ledger.signals n = if n = x.provider ∧ ¬off then
      (s.ledger.signals n).dirtied e.landsAt else s.ledger.signals n) : SignalStep n s e s' := by
  by_cases hoff : off
  · rw [if_pos hoff, List.append_nil] at hland
    rw [if_neg fun h => h.2 hoff] at hsignals
    exact .silent hland hsignals
  · rw [if_neg hoff] at hland
    by_cases hn : n = x.provider
    · rw [if_pos ⟨hn, hoff⟩] at hsignals
      exact .dirtied x hn.symm hland hread hsignals
    · rw [if_neg fun h => hn h.1] at hsignals
      refine .quiet _ hland (fun y hy => ?_) hsignals
      rw [List.mem_singleton.mp hy]
      exact Ne.symm hn

theorem step_signals (n : String) (hst : ledgerStep s e = some s') : SignalStep n s e s' := by
  cases e with
  | admission provider ns workload clock wall =>
    obtain ⟨-, rfl⟩ := step_applied rfl rfl hst
    exact .silent rfl (s.ledger.admitRequest_signals n provider ns workload clock wall)
  | settle i cost clock =>
    obtain ⟨r, h, -, -, hnow, ⟨-, rfl⟩ | ⟨-, rfl⟩⟩ := step_settle hst
    · exact .silent rfl rfl
    · exact .of_entry ⟨hnow.trans (clock.le01.trans clock.le12), clock.le23⟩ rfl
        (s.ledger.settle_signals n h cost clock)
  | finish i cost clock =>
    obtain ⟨r, -, -, -, hnow, rfl⟩ := step_finish hst
    exact .of_entry ⟨hnow.trans clock.t0_within.2, le_rfl⟩ rfl
      (s.ledger.add_signals n r.provider r.ns r.workload cost clock)
  | add provider ns workload cost clock =>
    obtain ⟨hnow, rfl⟩ := step_applied rfl rfl hst
    exact .of_entry ⟨hnow.trans clock.t0_within.2, le_rfl⟩ rfl
      (s.ledger.add_signals n provider ns workload cost clock)
  | enforce provider ns clock wall =>
    obtain ⟨-, rfl⟩ := step_applied rfl rfl hst
    exact .silent rfl (s.ledger.enforce_signals n provider ns clock wall)
  | foldPeers provider peers clock =>
    obtain ⟨hnow, rfl⟩ := step_applied rfl rfl hst
    have hsignals := s.ledger.foldPeers_signals n provider peers clock
    by_cases hn : n = provider.name
    · rw [if_pos hn] at hsignals
      exact .refreshed provider peers clock rfl hn.symm rfl
        ⟨hnow.trans clock.le01, clock.t1_within.2⟩ hsignals
    · rw [if_neg hn] at hsignals
      exact .silent rfl hsignals
  | foldWorkloadPeers provider peers clock =>
    obtain ⟨-, rfl⟩ := step_applied rfl rfl hst
    exact .silent rfl (s.ledger.signals_put_ledgerFor n _ _ _ rfl)
  | markPublished m snapshot =>
    cases hst
    have hsignals := s.ledger.markPublished_signals n m snapshot
    by_cases hn : n = m
    · rw [if_pos hn] at hsignals
      exact .published snapshot (by rw [hn]) rfl hsignals
    · rw [if_neg hn] at hsignals
      exact .silent rfl hsignals
  | setReplicas count =>
    cases hst
    exact .silent rfl rfl

end Step

end Kaalm.Gateway
