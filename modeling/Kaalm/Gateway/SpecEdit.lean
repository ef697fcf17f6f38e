/-
  Gateway/SpecEdit.lean --- the ledger while budget specs are edited.

  WHAT IS ADDED.  The present spec of every provider is part of the state and may be
  edited between operations.  An operation that reads the store carries the present
  spec; a request in flight settles, or adds, with the spec it was admitted under.

  WHAT THE LEDGER COMPARES.  `ledgerFor` resets the counters whenever the stored
  key is not the key of the scheme it is called with.  That is a rollover when the
  clock crossed a boundary, and a loss when only the scheme differs: a request
  admitted under an old scheme resets the counters of the present one.

  `Accurate` is what holds as long as operations carry the present scheme.
-/
import Kaalm.Gateway.Effect

namespace Kaalm.Gateway

open Kaalm.Foundation

/-! ## Accurate counters -/

/-- Every reading from now on finds the spend of its period, and the stored key can
only be that of a later reading if it is the present one. -/
structure Accurate (n : String) (σ : PeriodScheme) (s : LedgerState) (calls : List SpendCall) :
    Prop where
  current : s.ledger.Current n σ s.now
  own : ∀ u, s.now ≤ u → ∀ ns, (s.view n σ u).own.at0 ns = spentIn calls n ns σ u

section Accurate

variable {n : String} {σ : PeriodScheme} {s s' : LedgerState} {calls : List SpendCall}

theorem Accurate.step {e : LedgerEvent} (h : Accurate n σ s calls) (hσ : σ ≠ .none)
    (huse : ∀ σ', schemeUsed s e = some (n, σ') → σ' = σ) (hst : ledgerStep s e = some s') :
    Accurate n σ s' (calls ++ spendCalls s e) where
  current := (step_stores huse hst).current hst h.current
  own u hu ns := by
    have hspent := ((step_stores huse hst).reads hst h.current hu).spent.resolve_right
      fun hnone => hσ hnone.1
    rw [hspent ns, h.own u ((step_now_le hst).trans hu)]
    simp [spentIn]

end Accurate

/-! ## Specs in the state -/

/-- The ledger, the present spec of every provider and the spend calls of each since
the last edit of its scheme. -/
structure SpecState where
  ledger : LedgerState
  spec : String → ModelProviderBudget
  calls : List SpendCall

def SpecState.initial (now : Time) (spec : String → ModelProviderBudget) : SpecState :=
  ⟨.initial now, spec, []⟩

inductive SpecEvent where
  | op (e : LedgerEvent)
  | edit (provider : String) (budget : ModelProviderBudget)

/-- The provider an operation reads from the store; settling and finishing read
none. -/
def readFrom : LedgerEvent → Option ModelProvider
  | .admission provider _ _ _ _ => some provider
  | .add provider _ _ _ _ => some provider
  | .enforce provider _ _ _ => some provider
  | .foldPeers provider _ _ => some provider
  | .foldWorkloadPeers provider _ _ => some provider
  | .settle _ _ _ | .finish _ _ _ | .markPublished _ _ | .setReplicas _ => none

def readsPresent (spec : String → ModelProviderBudget) (e : LedgerEvent) : Bool :=
  (readFrom e).all fun provider => decide (provider.budget = spec provider.name)

def SpecState.step (s : SpecState) : SpecEvent → Option SpecState
  | .op e =>
    if readsPresent s.spec e then
      (ledgerStep s.ledger e).map fun l =>
        { s with ledger := l, calls := s.calls ++ spendCalls s.ledger e }
    else none
  | .edit n budget =>
    some { s with
      spec := Function.update s.spec n budget
      calls := if budget.period = (s.spec n).period then s.calls
        else s.calls.filter fun c => c.provider ≠ n }

/-- The own counter of a namespace under the present scheme, at every reading from
now on, is the spend since the scheme was last edited and the period began. -/
def SpecState.Conserved (s : SpecState) : Prop :=
  ∀ n ns, (s.spec n).period ≠ .none → ∀ u, s.ledger.now ≤ u →
    (s.ledger.view n (s.spec n).period u).own.at0 ns = spentIn s.calls n ns (s.spec n).period u

def releasedBy (s : LedgerState) : LedgerEvent → Option (String × UInt64)
  | .settle i _ _ => s.requests[i]?.bind fun r => r.handle.map fun h => (h.providerName, h.token)
  | _ => none

/-- What is booked erases no slot of another request: what the reading found held is
held after it. -/
def SpecState.KeepsSlots (s : SpecState) (e : LedgerEvent) (s' : SpecState) : Prop :=
  ∀ c ∈ spendCalls s.ledger e, ∀ n key token,
    (s.ledger.view n (s.spec n).period c.bookedAt).adm.lookup key = some token →
    releasedBy s.ledger e ≠ some (n, token) →
    (s'.ledger.view n (s'.spec n).period c.bookedAt).adm.lookup key = some token

/-- Spend is booked under the present scheme, and a scheme is not edited to one of
which the stored ledger carries a key that is not over. -/
def BookedUnderPresent (s : SpecState) : SpecEvent → Prop
  | .op e => ∀ n σ, schemeUsed s.ledger e = some (n, σ) → σ = (s.spec n).period
  | .edit n budget => budget.period ≠ (s.spec n).period →
      ∀ l, s.ledger.ledger.providers.lookup n = some l → ∀ u, s.ledger.now ≤ u →
        l.period ≠ periodKey budget.period u

/-! ## Runs that book under the present scheme -/

theorem spentIn_filter (calls : List SpendCall) (m n ns : String) (σ : PeriodScheme) (u : Time) :
    spentIn (calls.filter fun c => c.provider ≠ n) m ns σ u =
      if m = n then 0 else spentIn calls m ns σ u := by
  unfold spentIn
  rw [List.filter_filter]
  split_ifs with h
  · rw [List.filter_eq_nil_iff.mpr fun c _ => by by_cases hc : c.provider = n <;> simp [hc, h]]
    rfl
  · congr 2
    refine List.filter_congr fun c _ => ?_
    by_cases hc : c.provider = m <;> simp [hc, h]

/-- The invariant: accurate counters under the present scheme of every provider that
has one. -/
def SpecState.AllAccurate (s : SpecState) : Prop :=
  ∀ n, (s.spec n).period ≠ .none → Accurate n (s.spec n).period s.ledger s.calls

theorem allAccurate_initial (now : Time) (spec : String → ModelProviderBudget) :
    (SpecState.initial now spec).AllAccurate := by
  intro n _
  have hempty : (LedgerState.initial now).ledger.providers.lookup n = none := AList.lookup_empty n
  refine ⟨fun l hl => ?_, fun u _ ns => ?_⟩
  · exact absurd (hempty.symm.trans hl) (by simp)
  · have hclean : ((LedgerState.initial now).view n (spec n).period u).Clean :=
      BudgetLedger.clean_of_ne fun l hl => absurd (hempty.symm.trans hl) (by simp)
    exact (congrArg (fun m => GoMap.at0 m ns) hclean.own).trans (GoMap.at0_empty ns)

theorem SpecState.AllAccurate.step {s s' : SpecState} {e : SpecEvent} (h : s.AllAccurate)
    (hguard : BookedUnderPresent s e) (hst : s.step e = some s') : s'.AllAccurate := by
  intro n hn
  cases e with
  | op e =>
    simp only [SpecState.step] at hst
    split_ifs at hst
    obtain ⟨l, hl, rfl⟩ := Option.map_eq_some_iff.mp hst
    exact (h n hn).step hn (fun σ hσ => hguard n σ hσ) hl
  | edit m budget =>
    cases hst
    by_cases hm : n = m
    · subst hm
      simp only [Function.update_self] at hn ⊢
      split_ifs with hsame
      · rw [hsame] at hn ⊢
        exact h n hn
      · -- the stored counters are no reading's: the new scheme starts from nothing
        have hstale := hguard hsame
        refine ⟨fun l hl u hu heq => absurd heq (hstale l hl u hu), fun u hu ns => ?_⟩
        have hclean : (s.ledger.view n budget.period u).Clean :=
          BudgetLedger.clean_of_ne fun l hl => hstale l hl u hu
        rw [hclean.own, GoMap.at0_empty, spentIn_filter, if_pos rfl]
    · simp only [Function.update_of_ne hm] at hn ⊢
      have hold := h n hn
      split_ifs
      · exact hold
      · refine ⟨hold.current, fun u hu ns => ?_⟩
        rw [spentIn_filter, if_neg hm]
        exact hold.own u hu ns

theorem BudgetLedger.settle_adm (b : BudgetLedger) {h : Settle} {n key : String}
    {σ : PeriodScheme} {token : UInt64} (cost : ℚ) (clock : Clock)
    (huse : h.providerName = n → h.scheme = σ)
    (hheld : (b.ledgerFor n σ clock.t0).adm.lookup key = some token)
    (hother : (h.providerName, h.token) ≠ (n, token)) :
    ((b.settle h cost clock).ledgerFor n σ clock.t0).adm.lookup key = some token := by
  by_cases hn : h.providerName = n
  swap
  · rwa [BudgetLedger.ledgerFor_congr (b.settle_frame h cost clock (Ne.symm hn))]
  obtain ⟨l', hl, hlands, hadm⟩ := b.settle_spec h cost clock
  rw [hn] at hl
  rw [hn, huse hn] at hlands hadm
  rw [BudgetLedger.ledgerFor_eq_of_period hl
    (hlands.period.trans (b.ledgerFor_period n σ clock.t0)), hadm]
  split_ifs
  · rw [lookup_release, hheld]
    exact if_neg fun hsame => hother (by rw [hn, Option.some.inj hsame.2])
  · exact hheld

theorem keepsSlots_step {s s' : SpecState} {e : LedgerEvent}
    (hguard : BookedUnderPresent s (.op e)) (hst : s.step (.op e) = some s') :
      s.KeepsSlots e s' := by
  intro c hc n key token hheld hother
  simp only [SpecState.step] at hst
  split_ifs at hst
  obtain ⟨l, hl, rfl⟩ := Option.map_eq_some_iff.mp hst
  have huse := fun σ => hguard n σ
  cases e with
  | settle i cost clock =>
    obtain ⟨r, h, hi, hh, -, ⟨hsettled, rfl⟩ | ⟨hsettled, rfl⟩⟩ := step_settle hl
    · simp [spendCalls, hi, hh, hsettled] at hc
    · simp only [spendCalls, hi, hh, hsettled, Bool.false_eq_true, if_false] at hc
      rw [List.mem_singleton.mp hc] at hheld ⊢
      refine s.ledger.ledger.settle_adm cost clock (fun hn => huse _ ?_) hheld ?_
      · simp [schemeUsed, hi, hh, hsettled, hn]
      · simpa [releasedBy, hi, hh] using hother
  | finish | add =>
    exact (congrArg (·.lookup key) ((step_stores huse hl).adm_booked rfl hc)).trans hheld
  | admission | enforce | foldPeers | foldWorkloadPeers | markPublished | setReplicas => cases hc

/-- In every run that books spend under the present scheme of its provider, the own
counters hold the spend of the period since the scheme was last edited, and no
booking erases the slot of another request. -/
theorem conserved_of_bookedUnderPresent (now : Time) (spec : String → ModelProviderBudget)
    (es : List SpecEvent) (s : SpecState)
    (hrun : Run SpecState.step BookedUnderPresent (.initial now spec) es s) :
    s.Conserved ∧ ∀ e s', BookedUnderPresent s (.op e) → s.step (.op e) = some s' →
      s.KeepsSlots e s' := by
  have hall : s.AllAccurate :=
    hrun.invariant (I := SpecState.AllAccurate) (fun s e s' hs hg hst => hs.step hg hst)
      (allAccurate_initial now spec)
  exact ⟨fun n ns hn u hu => (hall n hn).own u hu ns, fun e s' hg hst => keepsSlots_step hg hst⟩

/-! ## An edit with a request in flight -/

def tracked (period : PeriodScheme) : ModelProviderBudget := ⟨period, "", [], none, .soft, none⟩

/-- A request is admitted under the monthly scheme; the scheme becomes daily; another
request spends; the first one adds its cost. -/
def editInFlight : List SpecEvent :=
  [.op (.admission ⟨"p", tracked .monthly⟩ "team" "agent/a" (.still march2026) march2026),
    .edit "p" (tracked .daily),
    .op (.add ⟨"p", tracked .daily⟩ "team" "agent/b" 7 (.still march2026)),
    .op (.finish 0 1 (.still march2026))]

/-- The late cost erases the spend of the present scheme. -/
theorem editInFlight_not_conserved :
    ∃ s, exec SpecState.step (.initial march2026 fun _ => tracked .monthly) editInFlight = some s ∧
      ¬ s.Conserved := by
  have hcheck : ((exec SpecState.step (.initial march2026 fun _ => tracked .monthly)
      editInFlight).any fun s => decide ((s.spec "p").period = .daily) &&
        decide (s.ledger.now ≤ march2026) &&
        decide ((s.ledger.view "p" .daily march2026).own.at0 "team" ≠
          spentIn s.calls "p" "team" .daily march2026)) = true := by
    decide +kernel
  cases hs : exec SpecState.step (.initial march2026 fun _ => tracked .monthly) editInFlight with
  | none => rw [hs] at hcheck; cases hcheck
  | some s =>
    rw [hs] at hcheck
    simp only [Option.any_some, Bool.and_eq_true, decide_eq_true_eq] at hcheck
    obtain ⟨⟨hperiod, hnow⟩, hne⟩ := hcheck
    refine ⟨s, rfl, fun hcons => hne ?_⟩
    have hown := hcons "p" "team" (by rw [hperiod]; decide) march2026 hnow
    rwa [hperiod] at hown

/-- Spend is booked, and the scheme of another provider is edited. -/
def editElsewhere : List SpecEvent :=
  [.op (.add ⟨"p", tracked .monthly⟩ "team" "agent/b" 7 (.still march2026)),
    .edit "q" (tracked .daily)]

theorem conserved_editElsewhere :
    ∃ s, exec SpecState.step (.initial march2026 fun _ => tracked .monthly) editElsewhere = some s ∧
      (s.spec "q").period = .daily ∧ (s.ledger.view "p" .monthly march2026).own.at0 "team" = 7 ∧
      s.Conserved := by
  have hcheck : ((exec SpecState.step (.initial march2026 fun _ => tracked .monthly)
      editElsewhere).any fun s => decide ((s.spec "q").period = .daily) &&
        decide ((s.ledger.view "p" .monthly march2026).own.at0 "team" = 7)) = true := by
    decide +kernel
  obtain ⟨s, hs, hvalues⟩ := (Option.any_eq_true _ _).mp hcheck
  simp only [Bool.and_eq_true, decide_eq_true_eq] at hvalues
  obtain ⟨mid, hmid, hrest⟩ := Option.bind_eq_some_iff.mp hs
  obtain ⟨last, hlast, hnil⟩ := Option.bind_eq_some_iff.mp hrest
  cases hnil
  have hq : mid.ledger.ledger.providers.lookup "q" = none := by
    have hop := hmid
    simp only [SpecState.step] at hop
    split_ifs at hop
    obtain ⟨l, hl, rfl⟩ := Option.map_eq_some_iff.mp hop
    obtain ⟨-, rfl⟩ := step_applied rfl rfl hl
    rw [BudgetLedger.add_frame _ _ _ _ _ (show ("q" : String) ≠ "p" by decide)]
    exact AList.lookup_empty "q"
  refine ⟨s, hs, hvalues.1, hvalues.2, (conserved_of_bookedUnderPresent march2026
    (fun _ => tracked .monthly) editElsewhere s (.cons ?_ hmid (.cons ?_ hlast (.nil s)))).1⟩
  · intro n σ hσ
    cases hσ
    rfl
  · intro _ l hl
    exact absurd (hq.symm.trans hl) (by simp)

end Kaalm.Gateway
