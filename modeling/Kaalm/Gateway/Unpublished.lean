/-
  Gateway/Unpublished.lean --- what the write-path signal says about unpublished
  costs.

  THE ARGUMENT.  `dirtySince` is set when the first cost lands after it was zero,
  so it is no later than any cost that is not in the last successful publish.  Whether
  a cost is in a publish is a matter of when the counters were copied, and of the
  period of the copy: a period that was left never comes back.

  WHERE IT FAILS.  `MarkPublished` compares the oldest mark with the reading before
  the copy.  A cost that lands after the copy while an older mark stands leaves no
  trace of its own, and the mark is cleared with it (`overtaken_cost_unmarked`).
-/
import Kaalm.Gateway.Publisher

namespace Kaalm.Gateway

open Kaalm.Foundation

/-! ## What is missing from the last publish -/

def Replica.costs (r : Replica) : List (Landed × Time) := r.books.landed.zip r.landedAt

/-- The number of costs that had landed when the last publish was copied. -/
def Replica.included (r : Replica) : Nat := r.published.elim 0 Copy.included

/-- The costs of a provider in a period that the last successful publish does not
contain. -/
def Replica.missing (r : Replica) (n P : String) : List (Landed × Time) :=
  (if r.published.any fun c => c.value.period = P then r.costs.drop r.included
    else r.costs).filter fun x => x.1.provider = n ∧ x.1.period = P

/-- The signal of provider `n` is sound: without a mark the last publish contains
every cost of the period, and a mark is no later than any cost it does not contain. -/
structure SignalSound (n : String) (r : Replica) : Prop where
  clean : ∀ l, r.books.ledger.providers.lookup n = some l → l.dirtySince = none →
    r.missing n l.period = []
  dirty : ∀ l d, r.books.ledger.providers.lookup n = some l → l.dirtySince = some d →
    ∀ x ∈ r.missing n l.period, d ≤ x.2
  /-- the publish is the text of the costs it contains -/
  contents : ∀ c, r.published = some c → ∃ own, c.value.spend = formatSpend own ∧
    ∀ ns, own.at0 ns = landedIn (r.books.landed.take c.included) n ns c.value.period

/-- The condition on a mark: when it clears the signal, no cost of the provider has
landed since the copy. -/
def marksAll (n : String) (r : Replica) : ReplicaEvent → Bool
  | .mark =>
    match r.phase with
    | .written _ snapshot c =>
      !((r.books.ledger.signals n).dirtySince.any fun d => d ≤ snapshot) ||
        (r.books.landed.drop c.included).all fun x => x.provider ≠ n
    | _ => true
  | _ => true

def keepsScheme (mp : ModelProvider) : ReplicaEvent → Bool
  | .operate e => (providerOf? e).all fun provider =>
    provider.name ≠ mp.name || provider.budget.period = mp.budget.period
  | _ => true

/-! ## Marks and positions -/

def PublishPhase.copy? : PublishPhase → Option Copy
  | .copied _ _ c | .written _ _ c => some c
  | .idle | .started _ _ | .reading _ | .read _ _ => none

theorem copy_after (tick ok : Bool) : (PublishPhase.after tick ok).copy? = none := by
  cases tick <;> rfl

/-- Every cost past the last publish carries a mark that is no later. -/
structure Marked (n : String) (r : Replica) : Prop where
  timed : r.landedAt.length = r.books.landed.length
  included : r.included ≤ r.books.landed.length
  copy : ∀ c, r.phase.copy? = some c →
    r.included ≤ c.included ∧ c.included ≤ r.books.landed.length
  written : ∀ tick t c, r.phase = .written tick t c → r.published = some c
  past : ∀ d, (r.books.ledger.signals n).dirtySince = some d → d ≤ r.books.now
  marked : ∀ x ∈ r.costs.drop r.included, x.1.provider = n →
    ∃ d, (r.books.ledger.signals n).dirtySince = some d ∧ d ≤ x.2

variable {n : String} {r r' : Replica} {e : LedgerEvent}

theorem marked_initial (n : String) (t : Time) : Marked n (.initial t) where
  timed := rfl
  included := le_rfl
  copy _ h := by cases h
  written _ _ _ h := by cases h
  past _ h := by cases h
  marked x hx := by cases hx

theorem drop_moved {s' : LedgerState} {extra : List Landed} (h : Marked n r)
    (hland : s'.landed = r.books.landed ++ extra) :
    (r.moved e s').costs.drop r.included =
      r.costs.drop r.included ++ extra.map fun x => (x, e.landsAt) := by
  have hlen : s'.landed.length - r.books.landed.length = extra.length := by
    rw [hland, List.length_append, Nat.add_sub_cancel_left]
  have hcosts : (r.moved e s').costs = r.costs ++ extra.map fun x => (x, e.landsAt) := by
    simp only [Replica.costs, Replica.moved, hlen]
    rw [hland, List.zip_append h.timed.symm, List.map_prod_left_eq_zip, List.map_const']
  rw [hcosts, List.drop_append_of_le_length]
  rw [Replica.costs, List.length_zip, h.timed, min_self]
  exact h.included

theorem landed_operate {s s' : LedgerState} (hst : ledgerStep s e = some s') :
    ∃ extra, s'.landed = s.landed ++ extra := by
  cases step_signals "" hst with
  | quiet extra hland => exact ⟨extra, hland⟩
  | dirtied x hx hland => exact ⟨[x], hland⟩
  | published snapshot he hland | refreshed provider peers clock he hn hland =>
    exact ⟨[], by rw [hland, List.append_nil]⟩

theorem Marked.frame (h : Marked n r) {s' : LedgerState} (hst : ledgerStep r.books e = some s')
    (hpast : ∀ d, (s'.ledger.signals n).dirtySince = some d → d ≤ s'.now)
    (hmarked : ∀ x ∈ (r.moved e s').costs.drop r.included, x.1.provider = n →
      ∃ d, (s'.ledger.signals n).dirtySince = some d ∧ d ≤ x.2) : Marked n (r.moved e s') := by
  obtain ⟨extra, hland⟩ := landed_operate hst
  have hlen : r.books.landed.length ≤ s'.landed.length := by
    rw [hland, List.length_append]
    exact Nat.le_add_right _ _
  refine ⟨?_, h.included.trans hlen, fun c hc => ?_, h.written, hpast, hmarked⟩
  · rw [Replica.moved, List.length_append, List.length_replicate, h.timed]
    exact Nat.add_sub_of_le hlen
  · exact ⟨(h.copy c hc).1, (h.copy c hc).2.trans hlen⟩

theorem Marked.operate (h : Marked n r) (he : ∀ t, e ≠ .markPublished n t)
    (hop : r.operate e = some r') : Marked n r' := by
  obtain ⟨s', hst, rfl⟩ := operate_eq_some hop
  have hnow := step_now_le hst
  cases step_signals n hst with
  | quiet extra hland hextra hsignals =>
    refine h.frame hst (fun d hd => (h.past d (hsignals ▸ hd)).trans hnow) fun x hx hn => ?_
    rw [drop_moved h hland, List.mem_append] at hx
    rw [hsignals]
    rcases hx with hx | hx
    · exact h.marked x hx hn
    · obtain ⟨y, hy, rfl⟩ := List.mem_map.mp hx
      exact absurd hn (hextra y hy)
  | dirtied y hy hland hread hsignals =>
    -- a mark that stands is older than the cost, and without one the cost sets it
    have hmark : ∃ d, (s'.ledger.signals n).dirtySince = some d ∧ d ≤ e.landsAt ∧
        ∀ d', (r.books.ledger.signals n).dirtySince = some d' → d = d' := by
      rw [hsignals]
      cases hold : (r.books.ledger.signals n).dirtySince with
      | none => exact ⟨e.landsAt, by simp [Signals.dirtied, hold], le_rfl, fun _ h => by cases h⟩
      | some d =>
        exact ⟨d, by simp [Signals.dirtied, hold], (h.past d hold).trans hread.1,
          fun _ h => Option.some.inj h⟩
    obtain ⟨d, hd, hle, hsame⟩ := hmark
    refine h.frame hst (fun d' hd' => ?_) fun x hx hn => ?_
    · rw [← Option.some.inj (hd.symm.trans hd')]
      exact hle.trans hread.2
    · rw [drop_moved h hland, List.mem_append] at hx
      refine ⟨d, hd, ?_⟩
      rcases hx with hx | hx
      · obtain ⟨d', hd', hle'⟩ := h.marked x hx hn
        rw [hsame d' hd']
        exact hle'
      · rw [List.map_singleton, List.mem_singleton] at hx
        rw [hx]
        exact hle
  | published snapshot hevent => exact absurd hevent (he snapshot)
  | refreshed provider peers clock hevent hname hland hread hsignals =>
    refine h.frame hst (fun d hd => (h.past d (by rwa [hsignals] at hd)).trans hnow)
      fun x hx hn => ?_
    have hnil : s'.landed = r.books.landed ++ [] := by rw [hland, List.append_nil]
    rw [drop_moved h hnil, List.map_nil, List.append_nil] at hx
    rw [hsignals]
    exact h.marked x hx hn

theorem Marked.mark {tick : Bool} {t : Time} {c : Copy} (h : Marked n r)
    (hphase : r.phase = .written tick t c) (hg : marksAll n r .mark = true)
    (hop : r.operate (.markPublished n t) = some r') : Marked n r' := by
  obtain ⟨s', hst, rfl⟩ := operate_eq_some hop
  have hsignals : s'.ledger.signals n = (r.books.ledger.signals n).published t := by
    cases hst
    exact (r.books.ledger.markPublished_signals n n t).trans (if_pos rfl)
  have hland : s'.landed = r.books.landed ++ [] := by
    cases hst
    rw [List.append_nil]
  have hnow := step_now_le hst
  simp only [marksAll, hphase, Bool.or_eq_true, Bool.not_eq_true'] at hg
  unfold Signals.published at hsignals
  split_ifs at hsignals with hold
  · rw [hold] at hg
    have hnone : ∀ x ∈ r.books.landed.drop c.included, x.provider ≠ n := by simpa using hg
    refine h.frame hst (fun d hd => by rw [hsignals] at hd; cases hd) fun x hx hn => ?_
    rw [drop_moved h hland, List.map_nil, List.append_nil, Replica.included,
      h.written _ _ _ hphase, Option.elim_some, Replica.costs, List.zip, List.drop_zipWith] at hx
    exact absurd hn (hnone x.1 (List.of_mem_zip hx).1)
  · refine h.frame hst (fun d hd => (h.past d (hsignals ▸ hd)).trans hnow) fun x hx hn => ?_
    rw [drop_moved h hland, List.map_nil, List.append_nil] at hx
    rw [hsignals]
    exact h.marked x hx hn

theorem Marked.phase (h : Marked n r) {phase : PublishPhase} (hcopy : phase.copy? = none)
    (recovered : Option Time) : Marked n { r with phase := phase, recovered := recovered } := by
  refine ⟨h.timed, h.included, fun c hc => ?_, fun tick t c hw => ?_, h.past, h.marked⟩
  · rw [show phase.copy? = some c from hc] at hcopy
    cases hcopy
  · rw [show phase = .written tick t c from hw] at hcopy
    cases hcopy

theorem marked_step {mp : ModelProvider} {pod : String} {e : ReplicaEvent}
    (h : Marked mp.name r) (hg : marksAll mp.name r e = true)
    (hst : replicaStep mp pod r e = some r') : Marked mp.name r' := by
  cases replicaMove_of_step hst with
  | operate e r' he hop =>
    refine h.operate (fun t ht => ?_) hop
    subst ht
    simp [marks] at he
  | start tick now hphase hnow =>
    exact ⟨h.timed, h.included, fun c hc => (by cases hc), fun _ _ _ hw => (by cases hw),
      fun d hd => (h.past d hd).trans hnow, h.marked⟩
  | nothing tick snapshot hphase hq | failed tick snapshot copy hphase =>
    exact h.phase (copy_after _ _) _
  | copied tick snapshot q hphase hq =>
    refine ⟨h.timed, h.included, fun c hc => ?_, fun _ _ _ hw => (by cases hw), h.past,
      h.marked⟩
    cases hc
    exact ⟨h.included, le_rfl⟩
  | written tick snapshot copy hphase =>
    have hcopy := h.copy copy (by rw [hphase]; rfl)
    refine ⟨h.timed, hcopy.2, fun c hc => ?_, fun _ _ _ hw => ?_, h.past, fun x hx hn => ?_⟩
    · cases hc
      exact ⟨le_rfl, hcopy.2⟩
    · cases hw
      rfl
    · exact h.marked x ((List.drop_sublist_drop_left r.costs hcopy.1).subset hx) hn
  | marked tick snapshot copy mid hphase hop =>
    exact (h.mark hphase hg hop).phase (copy_after _ _) _
  | gone ok hphase | got ok data hphase => exact h.phase rfl _
  | folded ok data now clock mid hphase hop =>
    exact (h.operate (fun t ht => by cases ht) hop).phase rfl _

/-! ## Copies and periods -/

def BegunBy (σ : PeriodScheme) (P : String) (t : Time) : Prop := ∃ u ≤ t, P = periodKey σ u

theorem BegunBy.mono {σ : PeriodScheme} {P : String} {t u : Time} (h : BegunBy σ P t)
    (htu : t ≤ u) : BegunBy σ P u := by
  obtain ⟨v, hv, hP⟩ := h
  exact ⟨v, hv.trans htu, hP⟩

/-- A copy is the text of the costs landed before it in its period, and no cost was
then of a later period. -/
structure CopyOf (n : String) (σ : PeriodScheme) (landed : List Landed) (t : Time) (c : Copy) :
    Prop where
  bound : c.included ≤ landed.length
  dated : ∃ u ≤ t, c.value.period = periodKey σ u ∧
    ∀ x ∈ landed.take c.included, x.provider = n → BegunBy σ x.period u
  contents : ∃ own, c.value.spend = formatSpend own ∧
    ∀ ns, own.at0 ns = landedIn (landed.take c.included) n ns c.value.period

theorem CopyOf.mono {σ : PeriodScheme} {landed extra : List Landed} {t t' : Time} {c : Copy}
    (h : CopyOf n σ landed t c) (ht : t ≤ t') :
    CopyOf n σ (landed ++ extra) t' c := by
  have htake : (landed ++ extra).take c.included = landed.take c.included :=
    List.take_append_of_le_length h.bound
  obtain ⟨u, hu, hdated⟩ := h.dated
  refine ⟨?_, ⟨u, hu.trans ht, ?_⟩, ?_⟩
  · rw [List.length_append]
    exact h.bound.trans (Nat.le_add_right _ _)
  · rw [htake]
    exact hdated
  · rw [htake]
    exact h.contents

def Replica.Holds (r : Replica) (c : Copy) : Prop := r.published = some c ∨ r.phase.copy? = some c

/-- The stored ledger of provider `n` against the costs: `t` is the reading of its
last rollover or later. -/
structure StoredAt (n : String) (σ : PeriodScheme) (r : Replica) (l : ProviderLedger)
    (t : Time) : Prop where
  past : t ≤ r.books.now
  period : l.period = periodKey σ t
  own : ∀ ns, l.own.at0 ns = landedIn r.books.landed n ns l.period
  begun : ∀ x ∈ r.books.landed, x.provider = n → BegunBy σ x.period t
  copies : ∀ c, r.Holds c → CopyOf n σ r.books.landed t c

structure Accounted (n : String) (σ : PeriodScheme) (r : Replica) : Prop where
  books : Books n σ r.books
  nothing : r.books.ledger.providers.lookup n = none →
    (∀ x ∈ r.books.landed, x.provider ≠ n) ∧ ∀ c, ¬r.Holds c
  stored : ∀ l, r.books.ledger.providers.lookup n = some l → ∃ t, StoredAt n σ r l t

variable {σ : PeriodScheme}

theorem accounted_initial (n : String) (σ : PeriodScheme) (t : Time) :
    Accounted n σ (.initial t) := by
  refine ⟨books_initial n σ t, fun _ => ⟨fun x hx => ?_, fun c hc => ?_⟩, fun l hl => ?_⟩
  · cases hx
  · rcases hc with hc | hc <;> cases hc
  · simp [Replica.initial, LedgerState.initial, newBudgetLedger] at hl

theorem Accounted.before (h : Accounted n σ r) {t : Time} (ht : r.books.now ≤ t) :
    (∀ x ∈ r.books.landed, x.provider = n → BegunBy σ x.period t) ∧
      ∀ c, r.Holds c → ∀ extra, CopyOf n σ (r.books.landed ++ extra) t c := by
  cases hl : r.books.ledger.providers.lookup n with
  | none =>
    obtain ⟨hnone, hcopies⟩ := h.nothing hl
    exact ⟨fun x hx hn => absurd hn (hnone x hx), fun c hc => absurd hc (hcopies c)⟩
  | some l =>
    obtain ⟨u, hu⟩ := h.stored l hl
    have hut := hu.past.trans ht
    exact ⟨fun x hx hn => (hu.begun x hx hn).mono hut, fun c hc _ => (hu.copies c hc).mono hut⟩

theorem Accounted.operate (h : Accounted n σ r) (hs : SameScheme n σ r.books e)
    (hop : r.operate e = some r') : Accounted n σ r' := by
  obtain ⟨s', hst, rfl⟩ := operate_eq_some hop
  have hnow := step_now_le hst
  have hbooks := books_step h.books hs hst
  cases step_stores (fun _ => schemeUsed_eq h.books.coherent hs) hst with
  | same extra hland hextra hstored =>
    change (r.moved e s').books.landed = _ at hland
    refine ⟨hbooks, fun hl => ?_, fun l' hl' => ?_⟩
    · have hnone : r.books.ledger.providers.lookup n = none := by
        rcases hstored with hsame | ⟨l, -, hmarked⟩
        · exact hsame ▸ hl
        · cases hl.symm.trans hmarked
      obtain ⟨hprov, hcopies⟩ := h.nothing hnone
      refine ⟨fun x hx => ?_, fun c hc => hcopies c hc⟩
      rw [hland, List.mem_append] at hx
      exact hx.elim (hprov x) (hextra x)
    · obtain ⟨l, hl, hperiod, hown⟩ := stored_of_marked hstored hl'
      obtain ⟨t, ht⟩ := h.stored l hl
      refine ⟨t, ht.past.trans hnow, hperiod.trans ht.period, fun ns => ?_, fun x hx hn => ?_,
        fun c hc => ?_⟩
      · have hzero : landedIn extra n ns l.period = 0 :=
          landedIn_eq_zero fun x hx hn => absurd hn (hextra x hx)
        rw [hown, hperiod, ht.own, hland, landedIn_append, hzero, add_zero]
      · rw [hland, List.mem_append] at hx
        exact hx.elim (fun hx => ht.begun x hx hn) fun hx => absurd hn (hextra x hx)
      · rw [hland]
        exact (ht.copies c hc).mono le_rfl
  | wrote clock t l' extra he hread hstored hperiod hland hextra hown =>
    change (r.moved e s').books.landed = _ at hland
    obtain ⟨hfirst, hlast⟩ := step_reading he hst
    have ht : r.books.now ≤ t := hfirst.trans hread.1
    obtain ⟨hbegun, hcopies⟩ := h.before ht
    refine ⟨hbooks, fun hl => ?_, fun l hl => ?_⟩
    · cases hstored.symm.trans hl
    · obtain rfl := Option.some.inj (hstored.symm.trans hl)
      refine ⟨t, hlast ▸ hread.2, hperiod, fun ns => ?_, fun x hx hn => ?_, fun c hc => ?_⟩
      · rw [hown, h.books.own t ht, hperiod, hland, landedIn_append]
      · rw [hland, List.mem_append] at hx
        rcases hx with hx | hx
        · exact hbegun x hx hn
        · exact ⟨t, le_rfl, (hextra x hx).2⟩
      · rw [hland]
        exact hcopies c hc _

theorem Books.later {s : LedgerState} (h : Books n σ s) {t : Time} (ht : s.now ≤ t) :
    Books n σ { s with now := t } where
  coherent := by
    refine ⟨fun l hl => ?_, h.coherent.scheme⟩
    obtain ⟨tl, htl, hp⟩ := h.coherent.anchored l hl
    exact ⟨tl, htl.trans ht, hp⟩
  slots u hu := h.slots u (ht.trans hu)
  own u hu := h.own u (ht.trans hu)

theorem Accounted.phase (h : Accounted n σ r) (phase : PublishPhase) (published : Option Copy)
    (recovered : Option Time)
    (hnew : ∀ c, Replica.Holds { r with phase := phase, published := published } c → r.Holds c ∨
      ∃ l, r.books.ledger.providers.lookup n = some l ∧
        ∀ t, StoredAt n σ r l t → CopyOf n σ r.books.landed t c) :
    Accounted n σ { r with
      phase := phase, published := published, recovered := recovered } := by
  refine ⟨h.books, fun hl => ?_, fun l hl => ?_⟩
  · obtain ⟨hprov, hcopies⟩ := h.nothing hl
    refine ⟨hprov, fun c hc => ?_⟩
    rcases hnew c hc with hold | ⟨l, hsome, -⟩
    · exact hcopies c hold
    · rw [show r.books.ledger.providers.lookup n = none from hl] at hsome
      cases hsome
  · obtain ⟨t, ht⟩ := h.stored l hl
    refine ⟨t, ht.past, ht.period, ht.own, ht.begun, fun c hc => ?_⟩
    rcases hnew c hc with hold | ⟨l', hsome, hcopy⟩
    · exact ht.copies c hold
    · rw [show r.books.ledger.providers.lookup n = some l from hl] at hsome
      cases hsome
      exact hcopy t ht

theorem StoredAt.copy {l : ProviderLedger} {t : Time} (h : StoredAt n σ r l t)
    {q : BudgetPartial} (hperiod : q.period = l.period) (hspend : q.spend = formatSpend l.own) :
    CopyOf n σ r.books.landed t ⟨q, r.books.landed.length⟩ where
  bound := le_rfl
  dated := ⟨t, le_rfl, hperiod.trans h.period, by
    rw [List.take_length]
    exact h.begun⟩
  contents := ⟨l.own, hspend, by
    rw [List.take_length, hperiod]
    exact h.own⟩

theorem accounted_step {mp : ModelProvider} {pod : String} {e : ReplicaEvent}
    (h : Accounted mp.name mp.budget.period r)
    (hs : keepsScheme mp e = true) (hst : replicaStep mp pod r e = some r') :
    Accounted mp.name mp.budget.period r' := by
  -- a phase that holds no copy holds what was published before
  have hdrop : ∀ {mid : Replica} {phase : PublishPhase}, phase.copy? = none → ∀ c,
      Replica.Holds { mid with phase := phase } c → mid.Holds c := by
    intro mid phase hnone c hc
    refine hc.imp id fun hcopy => ?_
    rw [show phase.copy? = some c from hcopy] at hnone
    cases hnone
  cases replicaMove_of_step hst with
  | operate e r' he hop => exact h.operate (sameScheme_of_providerOf hs) hop
  | start tick now hphase hnow =>
    refine ⟨h.books.later hnow, fun hl => ?_, fun l hl => ?_⟩
    · obtain ⟨hprov, hcopies⟩ := h.nothing hl
      refine ⟨hprov, fun c hc => hcopies c ?_⟩
      exact hc.imp id fun hcopy => by cases hcopy
    · obtain ⟨t, ht⟩ := h.stored l hl
      refine ⟨t, ht.past.trans hnow, ht.period, ht.own, ht.begun, fun c hc => ht.copies c ?_⟩
      exact hc.imp id fun hcopy => by cases hcopy
  | nothing tick snapshot hphase hq | failed tick snapshot copy hphase =>
    exact h.phase _ _ _ fun c hc => .inl (hdrop (copy_after _ _) c hc)
  | copied tick snapshot q hphase hq =>
    refine h.phase _ _ _ fun c hc => ?_
    rcases hc with hc | hc
    · exact .inl (.inl hc)
    · cases hc
      obtain ⟨l, hl, hperiod, hspend⟩ := ownPartial_eq_some hq
      exact .inr ⟨l, hl, fun t ht => ht.copy hperiod hspend⟩
  | written tick snapshot copy hphase =>
    refine h.phase _ _ _ fun c hc => .inl (.inr ?_)
    rw [hphase]
    rcases hc with hc | hc <;> exact hc
  | marked tick snapshot copy mid hphase hop =>
    have hmid := h.operate (e := .markPublished mp.name snapshot) trivial hop
    exact hmid.phase _ _ _ fun c hc => .inl (hdrop (copy_after _ _) c hc)
  | gone ok hphase | got ok data hphase =>
    exact h.phase _ _ _ fun c hc => .inl (hdrop rfl c hc)
  | folded ok data now clock mid hphase hop =>
    have hmid := h.operate (e := .foldPeers mp _ clock) (fun _ => rfl) hop
    exact hmid.phase _ _ _ fun c hc => .inl (hdrop rfl c hc)

/-! ## The signal -/

/-- A cost of the stored period that the last publish does not contain landed after
its copy. -/
theorem drop_of_missing (ha : Accounted n σ r) {l : ProviderLedger}
    (hl : r.books.ledger.providers.lookup n = some l) {x : Landed × Time}
    (hx : x ∈ r.missing n l.period) :
    x ∈ r.costs.drop r.included ∧ x.1.provider = n := by
  obtain ⟨hmem, hwhich⟩ := List.mem_filter.mp hx
  obtain ⟨hprov, hperiod⟩ := of_decide_eq_true hwhich
  refine ⟨?_, hprov⟩
  split_ifs at hmem with htag
  · exact hmem
  · cases hpub : r.published with
    | none => simpa [Replica.included, hpub] using hmem
    | some c =>
      rw [← List.take_append_drop r.included r.costs, List.mem_append] at hmem
      refine hmem.resolve_left fun htake => ?_
      -- the copy was made after the cost, in the stored period: it carries its tag
      obtain ⟨t, ht⟩ := ha.stored l hl
      obtain ⟨u, hut, hcperiod, hbegun⟩ := (ht.copies c (.inl hpub)).dated
      rw [Replica.costs, List.zip, List.take_zipWith] at htake
      have hland : x.1 ∈ r.books.landed.take c.included := by
        have := (List.of_mem_zip htake).1
        rwa [Replica.included, hpub] at this
      obtain ⟨v, hvu, hxperiod⟩ := hbegun x.1 hland hprov
      have hkey : periodKey σ v = periodKey σ t := by rw [← hxperiod, hperiod, ht.period]
      refine htag ?_
      rw [hpub, Option.any_some, decide_eq_true_eq, hcperiod,
        periodKey_convex hvu hut hkey, hkey, ht.period]

theorem signalSound_of (hm : Marked n r) (ha : Accounted n σ r) : SignalSound n r := by
  have hsignals : ∀ l, r.books.ledger.providers.lookup n = some l →
      (r.books.ledger.signals n).dirtySince = l.dirtySince := fun l hl => by
    simp [BudgetLedger.signals, hl, ProviderLedger.signals]
  refine ⟨fun l hl hclean => ?_, fun l d hl hd x hx => ?_, fun c hc => ?_⟩
  · refine List.eq_nil_iff_forall_not_mem.mpr fun x hx => ?_
    obtain ⟨hdrop, hprov⟩ := drop_of_missing ha hl hx
    obtain ⟨d, hd, -⟩ := hm.marked x hdrop hprov
    rw [hsignals l hl, hclean] at hd
    cases hd
  · obtain ⟨hdrop, hprov⟩ := drop_of_missing ha hl hx
    obtain ⟨d', hd', hle⟩ := hm.marked x hdrop hprov
    rw [hsignals l hl, hd] at hd'
    cases hd'
    exact hle
  · cases hl : r.books.ledger.providers.lookup n with
    | none => exact absurd (.inl hc) ((ha.nothing hl).2 c)
    | some l =>
      obtain ⟨t, ht⟩ := ha.stored l hl
      exact (ht.copies c (.inl hc)).contents

/-- In every run in which no mark clears the signal over a cost that landed since
its copy, the signal is sound in every state reached. -/
theorem signal_sound (mp : ModelProvider) (pod : String) {t₀ : Time} {es : List ReplicaEvent}
    {r : Replica}
    (hrun : Run (replicaStep mp pod)
      (fun r e => (keepsScheme mp e && marksAll mp.name r e) = true) (.initial t₀) es r) :
    SignalSound mp.name r := by
  have hinv : Marked mp.name r ∧ Accounted mp.name mp.budget.period r := by
    refine hrun.invariant (I := fun r => Marked mp.name r ∧
      Accounted mp.name mp.budget.period r) (fun r e r' h hg hst => ?_)
      ⟨marked_initial _ _, accounted_initial _ _ _⟩
    obtain ⟨hscheme, hmark⟩ := (Bool.and_eq_true _ _).mp hg
    exact ⟨marked_step h.1 hmark hst, accounted_step h.2 hscheme hst⟩
  exact signalSound_of hinv.1 hinv.2

theorem signal_sound_publishing :
    SignalSound "openai" (replicaAfter
      (fun r e => keepsScheme blockTen e && marksAll "openai" r e)
      [.operate (.add blockTen "team" "agent/a" 1 (.still newMonth)),
        .start false (newMonth + second), .copy, .write true, .mark]) :=
  signal_sound blockTen "gw-0" (run_getD (by decide +kernel))

/-- A second cost lands between the copy and the apply of a publish. -/
def publishOvertaken : List ReplicaEvent :=
  [.operate (.add blockTen "team" "agent/a" 1 (.still newMonth)),
    .start false (newMonth + second), .copy,
    .operate (.add blockTen "team" "agent/a" 2 (.still (newMonth + second))), .write true, .mark]

/-- The mark of the first cost is cleared and the second is in no publish. -/
theorem overtaken_cost_unmarked :
    ∃ r, Run (replicaStep blockTen "gw-0") (fun _ e => keepsScheme blockTen e = true)
        lastMinute publishOvertaken r ∧ ¬SignalSound "openai" r := by
  refine ⟨replicaAfter (fun _ e => keepsScheme blockTen e) publishOvertaken,
    run_getD (by decide +kernel), fun h => ?_⟩
  have hfound : ((replicaAfter (fun _ e => keepsScheme blockTen e)
      publishOvertaken).books.ledger.providers.lookup "openai").any (fun l =>
        l.dirtySince.isNone && ((replicaAfter (fun _ e => keepsScheme blockTen e)
          publishOvertaken).missing "openai" l.period).length = 1) = true := by decide +kernel
  generalize replicaAfter (fun _ e => keepsScheme blockTen e) publishOvertaken = r at h hfound
  cases hl : r.books.ledger.providers.lookup "openai" with
  | none => simp [hl] at hfound
  | some l =>
    simp only [hl, Option.any_some, Bool.and_eq_true, Option.isNone_iff_eq_none,
      decide_eq_true_eq] at hfound
    rw [h.clean l hl hfound.1] at hfound
    cases hfound.2

end Kaalm.Gateway
