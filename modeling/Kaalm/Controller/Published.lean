/-
  Controller/Published.lean --- published spend is not lost.

  THE ARGUMENT.  What a process has published is at most what its last publish
  contributes; what all last publishes contribute is at most the spend on the
  ConfigMap; and a replica that folds finds that spend in its peers' values and its
  own counters, as long as the value under its own key is its own.

  WHERE IT FAILS.  A container that restarts in its Pod starts from empty counters,
  and its first publish replaces what the container before it had published
  (`restart_loses_spend`).
-/
import Kaalm.Controller.Spend

namespace Kaalm.Controller

open Kaalm.Foundation Kaalm.Gateway

/-! ## The condition -/

/-- Every name is a namespace to `ParseBudgetPartial`, and every amount a float64. -/
def isReadable (m : GoMap String ℚ) : Bool :=
  m.entries.all fun e => isSpendKey e.1 && e.2 < floatLimit

/-- A container restarts only while its Pod's key holds nothing of the period, and
what is rendered can be read back. -/
def keepsSpend (mp : ModelProvider) (P : String) (s : Exchange) : ExchangeEvent → Bool
  | .restart i _ => (s.procs[i]?).all fun p => (s.value p.pod).all fun raw => !isTagged P raw
  | .snapshot i _ => (s.procs[i]?).all fun p =>
    (p.ledger.ledger.providers.lookup mp.name).all fun pl => isReadable pl.own
  | .put order =>
    match s.reducer with
    | .got live currentPeriod _ data =>
      isReadable (reconcileBudget data order (fun k => live.contains k) currentPeriod).current
    | .idle | .listed _ => true
  | _ => true

theorem isReadable_spec {m : GoMap String ℚ} (h : isReadable m = true) :
    (∀ ns ∈ m, isSpendKey ns = true) ∧ ∀ ns, m.at0 ns < floatLimit := by
  have hall : ∀ e ∈ m.entries, isSpendKey e.1 = true ∧ e.2 < floatLimit := by
    simpa [isReadable] using h
  refine ⟨fun ns hns => ?_, fun ns => ?_⟩
  · obtain ⟨v, hv⟩ := Option.isSome_iff_exists.mp (AList.lookup_isSome.mpr hns)
    exact (hall ⟨ns, v⟩ (AList.mem_lookup_iff.mp hv)).1
  · unfold GoMap.at0
    cases hv : m.lookup ns with
    | none => exact (by decide +kernel : (0 : ℚ) < floatLimit)
    | some v => exact (hall ⟨ns, v⟩ (AList.mem_lookup_iff.mp hv)).2

theorem putsInRange_of_keepsSpend {mp : ModelProvider} {P : String} {s : Exchange}
    {e : ExchangeEvent} (h : keepsSpend mp P s e = true) : PutsInRange s e := by
  rintro order live period rev data rfl hgot
  simp only [keepsSpend, hgot] at h
  exact (isReadable_spec h).2

/-! ## What a snapshot says -/

/-- The stored counters of the period can be read back. -/
def Rendered (mp : ModelProvider) (P : String) (l : LedgerState) : Prop :=
  ∀ pl, l.ledger.providers.lookup mp.name = some pl → pl.period = P → Legible pl.own

variable {mp : ModelProvider} {P : String} {l : LedgerState}

theorem LedgerIn.spentBy_eq_zero {C : ℚ → Prop} (h : LedgerIn C mp P l)
    (hne : ∀ pl, l.ledger.providers.lookup mp.name = some pl → pl.period ≠ P) (ns : String) :
    spentBy mp P l ns = 0 := by
  obtain ⟨u, hu, hkey⟩ := h.later
  have hclean : (l.view mp.name mp.budget.period u).Clean :=
    BudgetLedger.clean_of_ne fun pl hpl => hkey ▸ hne pl hpl
  rw [← h.own_view hu hkey, hclean.own, GoMap.at0_empty]

theorem LedgerIn.spentBy_nonneg (h : LedgerIn (0 ≤ ·) mp P l) (ns : String) :
    0 ≤ spentBy mp P l ns :=
  landedIn_of_costs (C := (0 ≤ ·)) le_rfl add_nonneg h.costs

theorem amount_toCents {q : BudgetPartial} {m : GoMap String ℚ} (hspend : q.spend = formatSpend m)
    (hm : Legible m) (ns : String) : BudgetPartial.amount q ns = toCents (m.at0 ns) := by
  rw [formatSpend_toCents hm.nonneg] at hspend
  have hcents : WholeCents ((m.mapValues toCents).at0 ns) := by
    rw [at0_toCents]
    exact .toCents (hm.nonneg ns)
  have hrange : (m.mapValues toCents).at0 ns < floatLimit := by
    rw [at0_toCents]
    exact hm.range ns
  rw [BudgetPartial.amount, hspend, formatSpend, GoMap.lookup_mapValues, Option.bind_map,
    ← at0_toCents]
  exact congrArg (·.getD 0) (amount_eq hcents hrange)

theorem LedgerIn.snapshot (h : LedgerIn (0 ≤ ·) mp P l) (hrendered : Rendered mp P l)
    {q : BudgetPartial} (hq : l.ledger.ownPartial mp.name = some q) (ns : String) :
    currentSpend P (.object q.marshalJSON) ns = toCents (spentBy mp P l ns) ∧
      (P = q.period → BudgetPartial.amount q ns = toCents (spentBy mp P l ns)) ∧
      (P ≠ q.period → currentSpend P (.object q.marshalJSON) ns = 0) := by
  obtain ⟨pl, hpl, hperiod, hspend⟩ := ownPartial_eq_some hq
  have hother : P ≠ q.period → currentSpend P (.object q.marshalJSON) ns = 0 := fun hp =>
    currentSpend_other_period hspend ⟨_, h.later.imp fun _ hu => hu.2⟩ (Ne.symm hp) ns
  by_cases hp : pl.period = P
  · have hm := hrendered pl hpl hp
    rw [← h.stored_own hpl hp]
    exact ⟨currentSpend_toCents hspend hm (hperiod.trans hp) ns,
      fun _ => amount_toCents hspend hm ns, hother⟩
  · have hzero := h.spentBy_eq_zero
      (fun pl' hpl' => by rwa [Option.some.inj (hpl'.symm.trans hpl)]) ns
    rw [hzero, toCents_zero]
    have hne : P ≠ q.period := fun heq => hp (hperiod.symm.trans heq.symm)
    exact ⟨hother hne, fun heq => absurd heq hne, hother⟩

/-! ## One process -/

/-- A publish under way: no less than the publishes before it, no more than what has
been spent. -/
structure Underway (mp : ModelProvider) (P : String) (published : String → String → ℚ)
    (l : LedgerState) (q : BudgetPartial) (ns : String) : Prop where
  cents : WholeCents (currentSpend P (.object q.marshalJSON) ns)
  after : published P ns ≤ currentSpend P (.object q.marshalJSON) ns
  upTo : currentSpend P (.object q.marshalJSON) ns ≤ toCents (spentBy mp P l ns)
  amount : P = q.period →
    BudgetPartial.amount q ns = currentSpend P (.object q.marshalJSON) ns
  other : P ≠ q.period → currentSpend P (.object q.marshalJSON) ns = 0

/-- What a process has published counts in full, whatever it spends. -/
structure Tracked (mp : ModelProvider) (P : String) (p : Process) : Prop where
  ledger : LedgerIn (0 ≤ ·) mp P p.ledger
  publishing : ∀ t q, p.publishing = some (t, q) → ∀ ns,
    Underway mp P p.published p.ledger q ns
  /-- what it published last is the most it has published -/
  published : ∀ ns, p.published P ns = p.contribution P ns
  cents : ∀ ns, WholeCents (p.contribution P ns)
  upTo : ∀ ns, p.contribution P ns ≤ toCents (spentBy mp P p.ledger ns)

def Finds (mp : ModelProvider) (P : String) (p : Process) : Prop :=
  ∀ f ∈ p.folding, ∀ ns, f.owed P ns ≤ spentBy mp P p.ledger ns + (f.peers p.pod P).at0 ns

variable {s : Exchange} {e : ExchangeEvent} {p p' : Process}

theorem Tracked.stop (h : Tracked mp P p) : Tracked mp P p.stop where
  ledger := h.ledger
  publishing _ _ hq := by cases hq
  published := h.published
  cents := h.cents
  upTo := h.upTo

theorem tracked_newProcess {configMap : Option (GoMap String RawValue)} {pod : String}
    {clock : Clock} (hclock : clockWithin mp.budget.period P clock = true) :
    Tracked mp P (newProcess mp configMap pod clock) where
  ledger := ledgerIn_seeded hclock
  publishing _ _ hq := by cases hq
  published _ := rfl
  cents _ := .zero
  upTo ns := by
    rw [spentBy_newProcess, toCents_zero]
    rfl

theorem Process.Fresh.tracked (h : p.Fresh mp P) (hok : ProcessOk mp P p) : Tracked mp P p := by
  have hledger : LedgerIn (0 ≤ ·) mp P p.ledger :=
    ⟨hok.ledger.books, hok.ledger.later, fun x hx hn hper => (hok.ledger.costs x hx hn hper).nonneg⟩
  refine ⟨hledger, fun t q hq => ?_, fun ns => ?_, fun ns => ?_, fun ns => ?_⟩
  · rw [h.publishing] at hq
    cases hq
  · rw [h.published, h.contribution]
  · rw [h.contribution]
    exact .zero
  · rw [h.contribution]
    exact toCents_nonneg (hledger.spentBy_nonneg ns)

theorem Tracked.ledgerStep {e : LedgerEvent} (h : Tracked mp P p)
    (hfits : Fits (0 ≤ ·) mp P p.ledger e) (hst : ledgerStep p.ledger e = some l) :
    Tracked mp P { p with ledger := l } := by
  have hmono : ∀ ns, toCents (spentBy mp P p.ledger ns) ≤ toCents (spentBy mp P l ns) :=
    fun ns => toCents_mono (spentBy_le hfits.cost hst ns)
  refine ⟨h.ledger.step hfits hst, fun t q hq ns => ?_, h.published, h.cents,
    fun ns => (h.upTo ns).trans (hmono ns)⟩
  have hway := h.publishing t q hq ns
  exact ⟨hway.cents, hway.after, hway.upTo.trans (hmono ns), hway.amount, hway.other⟩

theorem Tracked.snapshot {now : Time} (h : Tracked mp P p) (hrendered : Rendered mp P p.ledger)
    (hst : p.snapshot mp now = some p') : Tracked mp P p' := by
  obtain ⟨q, hq, rfl⟩ := snapshot_eq_some hst
  refine ⟨h.ledger, fun t q' hq' ns => ?_, h.published, h.cents, h.upTo⟩
  cases hq'
  obtain ⟨htold, hamount, hother⟩ := h.ledger.snapshot hrendered hq ns
  refine ⟨?_, ?_, htold.le, fun hp => (hamount hp).trans htold.symm, hother⟩
  · rw [htold]
    exact .toCents (h.ledger.spentBy_nonneg ns)
  · rw [htold]
    exact (h.published ns).le.trans (h.upTo ns)

theorem Tracked.applied {t : Time} {q : BudgetPartial} (h : Tracked mp P p)
    (hq : p.publishing = some (t, q)) : Tracked mp P (p.applied mp t q) := by
  refine ⟨h.ledger.mark t, fun _ _ hq' => (by cases hq'), fun ns => ?_,
    fun ns => (h.publishing t q hq ns).cents, fun ns => (h.publishing t q hq ns).upTo⟩
  have hway := h.publishing t q hq ns
  show (if P = q.period then max (p.published P ns) (BudgetPartial.amount q ns)
    else p.published P ns) = currentSpend P (.object q.marshalJSON) ns
  split_ifs with hp
  · rw [hway.amount hp]
    exact max_eq_right hway.after
  · -- nothing was published in the period before the snapshot was taken
    refine le_antisymm hway.after ?_
    rw [hway.other hp, h.published]
    exact (h.cents ns).nonneg

theorem Local.tracked {i : Nat} (hl : Local mp s i p e p') (h : Tracked mp P p)
    (hrequest : ∀ ev, e = .request i ev → Fits (0 ≤ ·) mp P p.ledger ev)
    (hsnapshot : ∀ now, e = .snapshot i now → Rendered mp P p.ledger)
    (hfold : ∀ j now clock, e = .fold i j now clock →
      clockWithin mp.budget.period P clock = true) : Tracked mp P p' := by
  cases hl with
  | request hst _ => exact h.ledgerStep (hrequest _ rfl) hst
  | snapshot hst => exact h.snapshot (hsnapshot _ rfl) hst
  | read => exact ⟨h.ledger, h.publishing, h.published, h.cents, h.upTo⟩
  | fold hst =>
    obtain ⟨f, l, -, hstep, rfl⟩ := fold_eq_some hst
    have hnext := h.ledgerStep (fits_foldPeers (hfold _ _ _ rfl) _) hstep
    exact ⟨hnext.ledger, hnext.publishing, hnext.published, hnext.cents, hnext.upTo⟩

/-- A step of a process keeps its folds, and a read adds one that owes what has been
published. -/
theorem Local.finds {i : Nat} (hl : Local mp s i p e p') (h : Finds mp P p)
    (hmono : ∀ ns, spentBy mp P p.ledger ns ≤ spentBy mp P p'.ledger ns)
    (hread : ∀ ns, s.published P ns ≤ spentBy mp P p.ledger ns +
      (PendingFold.peers ⟨s.configMap, s.published⟩ p.pod P).at0 ns) : Finds mp P p' := by
  cases hl with
  | request _ _ => exact fun f hf ns => (h f hf ns).trans (by linarith [hmono ns])
  | snapshot hst =>
    obtain ⟨q, -, rfl⟩ := snapshot_eq_some hst
    exact h
  | read =>
    intro f hf ns
    rcases List.mem_append.mp hf with hf | hf
    · exact h f hf ns
    · rw [List.mem_singleton.mp hf]
      exact hread ns
  | fold hst =>
    obtain ⟨f, l, -, -, rfl⟩ := fold_eq_some hst
    exact fun f hf ns => (h f (List.mem_of_mem_eraseIdx hf) ns).trans (by linarith [hmono ns])

/-! ## The exchange -/

structure CountsAll (P : String) (s : Exchange) : Prop where
  sum : ∀ ns, s.contributions P ns ≤ s.spend P ns
  /-- a key holds no more than the last publish of the process that runs in the Pod -/
  held : ∀ p ∈ s.procs, p.running = true → ∀ ns, s.spendUnder P p.pod ns ≤ p.contribution P ns
  /-- and a name that no process has had holds nothing -/
  owned : ∀ k, isFlag k = false → k ∉ s.procs.map (·.pod) → ∀ ns, s.spendUnder P k ns = 0

/-- Every publish is still on the ConfigMap, and every fold finds it there. -/
structure AllKept (mp : ModelProvider) (P : String) (s : Exchange) : Prop where
  order : s.InOrder (fun p => ProcessOk mp P p ∧ Tracked mp P p ∧ Finds mp P p) P
  counts : CountsAll P s

variable {s' : Exchange} {Q : Process → Prop}

theorem Exchange.Initial.countsAll (h : s.Initial mp P) : CountsAll P s := by
  have hunder : ∀ k, isFlag k = false → ∀ ns, s.spendUnder P k ns = 0 := fun k hk ns => by
    rw [spendUnder_eq]
    cases hraw : s.value k with
    | none => rfl
    | some raw => exact h.value (ne_canonicalKey_of_isFlag hk).1 hraw ns
  refine ⟨fun ns => ?_, fun p hp _ ns => ?_, fun k hk _ => hunder k hk⟩
  · rw [h.contributions, h.spend]
  · rw [hunder p.pod (h.names p hp), (h.procs p hp).contribution]

theorem Exchange.Initial.kept (h : s.Initial mp P) : AllKept mp P s := by
  refine ⟨⟨fun p hp => ?_, h.names, h.unique, h.sound.cents, h.sound.pass⟩, h.countsAll⟩
  have hok := h.sound.procs p hp
  refine ⟨hok, (h.procs p hp).tracked hok, fun f hf => ?_⟩
  rw [(h.procs p hp).folding] at hf
  cases hf

theorem mem_pods_of_move (hmove : Move mp s e s') {k : String} (hk : k ∈ s.procs.map (·.pod)) :
    k ∈ s'.procs.map (·.pod) := by
  obtain ⟨p, hp, rfl⟩ := List.mem_map.mp hk
  obtain ⟨i, hi⟩ := List.mem_iff_getElem?.mp hp
  obtain ⟨p', hi', hstep⟩ := exists_of_move hmove hi
  exact List.mem_map.mpr ⟨p', List.mem_of_getElem? hi', hstep.pod⟩

/-- A step keeps every publish on the ConfigMap if no restart replaces one and no
total leaves the range. -/
theorem CountsAll.step (h : CountsAll P s) (hord : s.InOrder Q P) (hord' : s'.InOrder Q P)
    (hpos : ∀ p, Q p → ∀ ns, 0 ≤ p.contribution P ns)
    (hrestart : ∀ i p clock, e = .restart i clock → s.procs[i]? = some p →
      ∀ ns, s.spendUnder P p.pod ns = 0)
    (hput : PutsInRange s e) (hmove : Move mp s e s') : CountsAll P s' := by
  rcases apply_or_not hmove with he | ⟨i, p, t, q, rfl, hi, hrun, hq, rfl⟩
  · obtain ⟨-, hspend, hvalue⟩ := hord.amounts hmove he
    have hunder : ∀ k, isFlag k = false → ∀ ns,
        s'.spendUnder P k ns = s.spendUnder P k ns ∨ s'.spendUnder P k ns = 0 := fun k hk ns => by
      rw [spendUnder_eq, spendUnder_eq]
      cases hraw : s'.value k with
      | none => exact .inr rfl
      | some raw =>
        rw [hvalue k raw hk hraw]
        exact .inl rfl
    have hheld : ∀ p ∈ s'.procs, p.running = true → ∀ ns,
        s.spendUnder P p.pod ns ≤ p.contribution P ns := by
      refine forall_of_move hmove h.held (fun p _ hr => (by cases hr))
        (fun name clock _ hname hnew _ ns => (h.owned name hname hnew ns).le)
        (fun i p clock he hi _ ns => (hrestart i p clock he hi ns).le)
        (fun i p p' _ hrun hl hp _ => ?_)
        fun i _ _ _ heq => (by subst heq; cases he)
      obtain ⟨hposted, -, hpod, -⟩ := hl.posted
      simp only [Process.contribution, hposted, hpod]
      exact hp hrun
    refine ⟨fun ns => ?_, fun p hp hr ns => ?_, fun k hk hnot ns => ?_⟩
    · rw [contributions_of_move hmove he, hspend hput]
      exact h.sum ns
    · rcases hunder p.pod (hord'.names p hp) ns with hsame | hzero
      · rw [hsame]
        exact hheld p hp hr ns
      · rw [hzero]
        exact hpos p (hord'.procs p hp) ns
    · have hold := h.owned k hk (fun hmem => hnot (mem_pods_of_move hmove hmem)) ns
      rcases hunder k hk ns with hsame | hzero
      · rw [hsame, hold]
      · exact hzero
  · -- a publish puts what it contributes in the place of what the key held
    have hp := List.mem_of_getElem? hi
    have hpod := (ne_canonicalKey_of_isFlag (hord.names p hp)).1
    have hunder : ∀ k ns, (s.commit mp i p t q).spendUnder P k ns =
        if k = p.pod then currentSpend P (.object q.marshalJSON) ns else s.spendUnder P k ns :=
      fun k ns => write_spendUnder { s with procs := s.procs.set i (p.applied mp t q) } p.pod
        q.marshalJSON P k ns
    refine ⟨fun ns => ?_, ?_, fun k hk hnot ns => ?_⟩
    · linarith [h.sum ns, h.held p hp hrun ns, spend_commit s mp P i t q hpod ns,
        contributions_commit mp P t q hi ns]
    · refine forall_commit hord hi hrun (fun _ ns => ?_) fun p' hp' hne hr ns => ?_
      · rw [hunder]
        exact (if_pos rfl).le
      · rw [hunder, if_neg (hne hr)]
        exact h.held p' hp' hr ns
    · have hold : k ∉ s.procs.map (·.pod) := fun hmem => hnot (mem_pods_of_move hmove hmem)
      rw [hunder, if_neg fun hkp => hold (List.mem_map.mpr ⟨p, hp, hkp.symm⟩)]
      exact h.owned k hk hold ns

theorem AllKept.read (h : AllKept mp P s) (hp : p ∈ s.procs) (hrun : p.running = true)
    (ns : String) :
    s.published P ns ≤
      spentBy mp P p.ledger ns + (PendingFold.peers ⟨s.configMap, s.published⟩ p.pod P).at0 ns := by
  have hpod := (ne_canonicalKey_of_isFlag (h.order.names p hp)).1
  have hown := (h.counts.held p hp hrun ns).trans ((h.order.procs p hp).1.contribution ns).2
  have hpublished : s.published P ns ≤ s.spend P ns := (List.sum_le_sum fun p hp =>
    ((h.order.procs p hp).2.1.published ns).le).trans (h.counts.sum ns)
  cases hdata : s.configMap with
  | none =>
    simp only [Exchange.spend, Exchange.spendUnder, hdata, Option.elim_none] at hpublished hown
    simpa [PendingFold.peers] using hpublished.trans hown
  | some data =>
    simp only [Exchange.spend, Exchange.spendUnder, hdata, Option.elim_some] at hpublished hown
    have hwhole := foldPartials_add_spendAt data P ns hpod
    simp only [PendingFold.peers]
    linarith

theorem rendered_of_isReadable (h : LedgerOk mp P p.ledger)
    (hreadable :
      (p.ledger.ledger.providers.lookup mp.name).all (fun pl => isReadable pl.own) = true) :
    Rendered mp P p.ledger := by
  intro pl hpl hp
  obtain ⟨hkeys, hrange⟩ := isReadable_spec (by simpa [hpl] using hreadable)
  have hcents : ∀ ns, WholeCents (pl.own.at0 ns) := fun ns => by
    rw [h.stored_own hpl hp]
    exact h.spentBy_cents ns
  refine ⟨fun ns => (hcents ns).nonneg, fun ns => ?_, hkeys⟩
  obtain ⟨n, hn⟩ := hcents ns
  rw [hn, show toCents ((n : ℚ) / 100) = n / 100 from toCents_cents n, ← hn]
  exact hrange ns

theorem AllKept.step (h : AllKept mp P s) (hP : ∃ t, periodKey mp.budget.period t = P)
    (hin : inPeriod mp P s e = true) (hguard : keepsSpend mp P s e = true)
    (hmove : Move mp s e s') : AllKept mp P s' := by
  have horder : s'.InOrder (fun p => ProcessOk mp P p ∧ Tracked mp P p ∧ Finds mp P p) P := by
    have hclock : ∀ pod clock, (e = .start pod clock ∨ ∃ i, e = .restart i clock) →
        clockWithin mp.budget.period P clock = true := by
      rintro pod clock (rfl | ⟨i, rfl⟩) <;> exact hin
    refine h.order.step (fun now he => ?_) (fun p hp => ⟨hp.1.stop, hp.2.1.stop, fun _ hf => ?_⟩)
      (fun pod clock he => ⟨processOk_newProcess (hclock pod clock he),
        tracked_newProcess (hclock pod clock he), fun _ hf => ?_⟩)
      (fun i p p' hi hrun hp hl => ⟨hl.ok hp.1 hin, hl.tracked hp.2.1 (fun ev he => ?_)
        (fun now he => ?_) (fun j now clock he => ?_),
        hl.finds hp.2.2 (hl.spent hin) (h.read (List.mem_of_getElem? hi) hrun)⟩)
      (fun p t q hp hq => ⟨⟨hp.1.applied hP hq, hp.2.1.applied hq, hp.2.2⟩,
        fun ns => (hp.2.1.publishing t q hq ns).cents⟩) hmove
    · subst he
      simpa [inPeriod] using hin
    · cases hf
    · cases hf
    · subst he
      have hfits := fits_of_inPeriod hin p.ledger
      exact ⟨hfits.scheme, hfits.clock, fun c hc => (hfits.cost c hc).nonneg⟩
    · subst he
      simp only [keepsSpend, hi, Option.all_some] at hguard
      exact rendered_of_isReadable hp.1.ledger hguard
    · subst he
      simp only [inPeriod, Bool.and_eq_true] at hin
      exact hin.2
  refine ⟨horder, h.counts.step h.order horder (fun p hp ns => (hp.2.1.cents ns).nonneg)
    (fun i p clock he hi ns => ?_) (putsInRange_of_keepsSpend hguard) hmove⟩
  subst he
  simp only [keepsSpend, hi, Option.all_some] at hguard
  rw [spendUnder_eq]
  cases hraw : s.value p.pod with
  | none => rfl
  | some raw => exact currentSpend_of_not_tagged (by simpa [hraw] using hguard) ns

/-- The guard of a run inside the period in which published spend is kept. -/
def spendKept (mp : ModelProvider) (P : String) (s : Exchange) (e : ExchangeEvent) : Bool :=
  inPeriod mp P s e && keepsSpend mp P s e

theorem spent_of_fold {i j : Nat} {now : Time} {clock : Clock} (hok : ProcessOk mp P p)
    (hin : inPeriod mp P s (.fold i j now clock) = true) (hst : p.fold mp j now clock = some p') :
    ∃ f, p.folding[j]? = some f ∧ ∀ ns,
      (p'.ledger.view mp.name mp.budget.period p'.ledger.now).spent ns =
        spentBy mp P p.ledger ns + (f.peers p.pod P).at0 ns := by
  obtain ⟨f, l, hf, hl, rfl⟩ := fold_eq_some hst
  simp only [inPeriod, Bool.and_eq_true, decide_eq_true_eq] at hin
  obtain ⟨hnow, hclock⟩ := hin
  rw [hnow] at hl
  have hok' := hok.ledger.step (fits_foldPeers hclock _) hl
  have hkey : ∀ {t : Time}, clock.t0 ≤ t → t ≤ clock.t3 → periodKey mp.budget.period t = P :=
    key_of_clockWithin hclock
  have hlast : l.now = clock.t3 := (step_reading rfl hl).2
  have hend : periodKey mp.budget.period l.now = P := by
    rw [hlast]
    exact hkey clock.t0_within.2 le_rfl
  refine ⟨f, hf, fun ns => ?_⟩
  rw [ProviderLedger.spent, hok'.own_view le_rfl hend,
    peers_fold hl (hend.trans (hkey le_rfl clock.t0_within.2).symm)]
  obtain ⟨-, l₁, h₁, rfl⟩ := step_clocked rfl hl
  cases h₁
  rfl

theorem published_set {i : Nat} (hi : s.procs[i]? = some p) (hp : p'.published = p.published) :
    ({ s with procs := s.procs.set i p' } : Exchange).published = s.published := by
  funext period ns
  exact sum_set_eq (fun p => p.published period ns) hi (by rw [hp])

theorem read_owed {i : Nat} (h : exchangeStep mp s (.read i) = some s') :
    ∃ p, s'.procs[i]? = some p ∧ p.folding[p.folding.length - 1]? =
      some ⟨s.configMap, s.published⟩ ∧ s'.published = s.published := by
  obtain ⟨q, q', hq, -, hq', rfl⟩ := act_eq_some h
  have hpublished : q'.published = q.published := by
    cases hq'
    rfl
  refine ⟨q', List.getElem?_set_self (List.getElem?_eq_some_iff.mp hq).1, ?_,
    published_set hq hpublished⟩
  cases hq'
  simp

/-- Published spend is not lost: whatever the replicas, the Pods and the reducer do
inside the period, what a replica has in view after a fold is at least all that had
been published when the fold read the ConfigMap, and if nothing came in between,
all that has been published. -/
theorem published_le_view (hP : ∃ t, periodKey mp.budget.period t = P) (hs : s.Initial mp P)
    {es : List ExchangeEvent} {mid : Exchange} {i j : Nat} {now : Time} {clock : Clock}
    (hrun : Run (exchangeStep mp) (fun s e => spendKept mp P s e = true) s es mid)
    (hguard : spendKept mp P mid (.fold i j now clock) = true)
    (hfold : exchangeStep mp mid (.fold i j now clock) = some s') :
    ∃ p p' f, mid.procs[i]? = some p ∧ p.folding[j]? = some f ∧ s'.procs[i]? = some p' ∧
      (∀ ns, f.owed P ns ≤
        (p'.ledger.view mp.name mp.budget.period p'.ledger.now).spent ns) ∧
      ∀ before, exchangeStep mp before (.read i) = some mid → j + 1 = p.folding.length →
        f.owed P = s'.published P := by
  have hkept : AllKept mp P mid := by
    refine hrun.invariant (fun x e x' hx hg hst => ?_) hs.kept
    have hg := (Bool.and_eq_true _ _).mp hg
    exact hx.step hP hg.1 hg.2 (move_of_step hst)
  obtain ⟨hin, -⟩ := (Bool.and_eq_true _ _).mp hguard
  obtain ⟨p, p', hi, hrunning, hst, rfl⟩ := act_eq_some hfold
  have hp := List.mem_of_getElem? hi
  obtain ⟨f, hf, hspent⟩ := spent_of_fold (hkept.order.procs p hp).1 hin hst
  refine ⟨p, p', f, hi, hf, ?_, fun ns => ?_, fun before hread hlast => ?_⟩
  · exact List.getElem?_set_self (List.getElem?_eq_some_iff.mp hi).1
  · rw [hspent]
    exact (hkept.order.procs p hp).2.2 f (List.mem_of_getElem? hf) ns
  · have hlocal : Local mp mid i p (.fold i j now clock) p' := .fold hst
    rw [published_set hi hlocal.posted.2.1]
    obtain ⟨q, hq, howes, hpublished⟩ := read_owed hread
    rw [hi] at hq
    cases hq
    rw [show p.folding.length - 1 = j by omega, hf] at howes
    rw [hpublished, Option.some.inj howes]

/-- The replica reads the ConfigMap after its publish. -/
def publishAndRead : List ExchangeEvent := spendAndPublish ++ [.read 0]

def ownFold : ExchangeEvent := .fold 0 0 0 (.still 0)

theorem published_le_view_oneReplica :
    ∃ p p' f, (after (spendKept capped month) oneReplica publishAndRead).procs[0]? = some p ∧
      p.folding[0]? = some f ∧
      (after (spendKept capped month) (after (spendKept capped month) oneReplica publishAndRead)
        [ownFold]).procs[0]? = some p' ∧
      ∀ ns, f.owed month ns ≤
        (p'.ledger.view capped.name capped.budget.period p'.ledger.now).spent ns := by
  have hlast : Run (exchangeStep capped) (fun s e => spendKept capped month s e = true)
      (after (spendKept capped month) oneReplica publishAndRead) [ownFold]
      (after (spendKept capped month) (after (spendKept capped month) oneReplica publishAndRead)
        [ownFold]) := run_getD (by decide +kernel)
  cases hlast with
  | cons hguard hfold hnil =>
    cases hnil
    obtain ⟨p, p', f, hp, hf, hp', hview, -⟩ := published_le_view ⟨0, rfl⟩ oneReplica_initial
      (run_getD (by decide +kernel)) hguard hfold
    exact ⟨p, p', f, hp, hf, hp', hview⟩

def restartAndFold : List ExchangeEvent :=
  spendAndPublish ++ [.restart 0 (.still 0), .read 1, .fold 1 0 0 (.still 0)]

/-- A replica that published 5 USD restarts in its Pod: after its next fold it has
nothing in view. -/
theorem restart_loses_spend :
    oneReplica.Initial capped month ∧ ∃ s,
      Run (exchangeStep capped) (fun s e => inPeriod capped month s e = true) oneReplica
        restartAndFold s ∧ s.published month "team" = 5 ∧
      (s.procs[1]?.map fun p => (p.ledger.view capped.name capped.budget.period
        p.ledger.now).spent "team") = some 0 :=
  ⟨oneReplica_initial, after (inPeriod capped month) oneReplica restartAndFold,
    run_getD (by decide +kernel), by decide +kernel, by decide +kernel⟩

end Kaalm.Controller
