/-
  Controller/Spend.lean --- spend is not counted twice.

  ONE SUM.  The spend on the ConfigMap is compared with the sum, over all
  processes, of what each one's last publish contributed.  A publish replaces what
  its key held and a reducer pass keeps the spend where it is, so the two sums move
  together as long as the key still holds the last publish.

  WHERE THEY PART.  A replica that publishes again after its key was pruned has its
  counters both in `_retired` and under its key (`pruned_replica_counts_twice`).
-/
import Kaalm.Controller.Exchange

namespace Kaalm.Controller

open Kaalm.Foundation Kaalm.Gateway

/-! ## What the processes have on the ConfigMap -/

/-- What the last publish of a process contributed. -/
def Process.contribution (p : Process) (P ns : String) : ℚ :=
  p.posted.elim 0 fun raw => currentSpend P raw ns

def Exchange.contributions (s : Exchange) (P ns : String) : ℚ :=
  (s.procs.map fun p => p.contribution P ns).sum

def Exchange.spent (s : Exchange) (mp : ModelProvider) (P ns : String) : ℚ :=
  (s.procs.map fun p => spentBy mp P p.ledger ns).sum

/-- The `_canonical` total of a namespace. -/
def Exchange.canonical (s : Exchange) (ns : String) : ℚ :=
  ((s.value canonicalKey).bind canonicalSpend).elim 0 fun m => m.at0 ns

def isTagged (P : String) (raw : RawValue) : Bool :=
  (parseBudgetPartial raw).any fun p => p.period = P

variable {mp : ModelProvider} {P : String} {s s' : Exchange} {e : ExchangeEvent} {i : Nat}
  {p p' : Process} {raw : RawValue}

theorem currentSpend_of_not_tagged (h : isTagged P raw = false)
    (ns : String) : currentSpend P raw ns = 0 := by
  refine currentSpend_of_not_isCurrent ?_ ns
  rw [← h, isTagged, isCurrent]
  cases parseBudgetPartial raw <;> rfl

theorem sum_set (f : Process → ℚ) (p' : Process) (hi : s.procs[i]? = some p) :
    ((s.procs.set i p').map f).sum + f p = (s.procs.map f).sum + f p' := by
  obtain ⟨hlt, rfl⟩ := List.getElem?_eq_some_iff.mp hi
  rw [List.map_set, List.sum_set', dif_pos (by simpa using hlt), List.getElem_map]
  ring

theorem sum_set_eq (f : Process → ℚ) (hi : s.procs[i]? = some p) (hf : f p' = f p) :
    ((s.procs.set i p').map f).sum = (s.procs.map f).sum := by
  have := sum_set f p' hi
  linarith

theorem sum_append (f : Process → ℚ) (ps : List Process) (p : Process) :
    ((ps ++ [p]).map f).sum = (ps.map f).sum + f p := by
  simp

/-! ## What a move leaves alone -/

theorem sum_of_move (f : Process → ℚ) (hmove : Move mp s e s') (hstop : ∀ p, f p.stop = f p)
    (hnew : ∀ configMap pod clock, f (newProcess mp configMap pod clock) = 0) :
    (s'.procs.map f).sum = (s.procs.map f).sum ∨ ∃ i p p', s.procs[i]? = some p ∧
      ProcessStep mp s e i p p' ∧
      (s'.procs.map f).sum + f p = (s.procs.map f).sum + f p' := by
  cases hmove with
  | act i p p' hi hrun hl => exact .inr ⟨i, p, p', hi, .acts p' hrun hl, sum_set f p' hi⟩
  | start name clock pods hname hnot => exact .inl (by rw [sum_append, hnew, add_zero])
  | restart i p clock hi hrun =>
    exact .inl (by rw [sum_append, hnew, add_zero, sum_set_eq f hi (hstop p)])
  | pods pods procs gone hprocs _ =>
    subst hprocs
    rw [List.map_map]
    refine .inl (congrArg List.sum (List.map_congr_left fun p _ => ?_))
    show f (if gone p.pod then p.stop else p) = f p
    split_ifs
    · exact hstop p
    · rfl
  | apply i p t q hi hrun hq =>
    rw [commit_procs]
    exact .inr ⟨i, p, _, hi, .applies t q hrun hq rfl, sum_set f _ hi⟩
  | idle | get | put | current => exact .inl rfl

theorem configMap_of_move (hmove : Move mp s e s') (he : notApply e = true) :
    s'.configMap = s.configMap ∨ ∃ order live currentPeriod revision data,
      e = .put order ∧ s.reducer = .got live currentPeriod revision data ∧
      order.Perm data.entries ∧ revision = s.revision ∧
      s'.configMap = some
        (reconcileBudget data order (fun k => live.contains k) currentPeriod).data := by
  cases hmove with
  | apply i p t q hi hrun hq => cases he
  | put order live period rev data hgot horder hrev =>
    exact .inr ⟨order, live, period, rev, data, rfl, hgot, horder, hrev, rfl⟩
  | act | start | restart | pods | idle | get | current => exact .inl rfl

theorem Local.spent (h : Local mp s i p e p') (hin : inPeriod mp P s e = true) (ns : String) :
    spentBy mp P p.ledger ns ≤ spentBy mp P p'.ledger ns := by
  cases h with
  | request hst hfold =>
    exact spentBy_le (fun c hc => ((fits_of_inPeriod hin p.ledger).cost c hc).nonneg) hst ns
  | snapshot hst =>
    obtain ⟨q, -, rfl⟩ := snapshot_eq_some hst
    exact le_rfl
  | read => exact le_rfl
  | fold hst =>
    obtain ⟨f, l, -, hl, rfl⟩ := fold_eq_some hst
    exact spentBy_le (e := .foldPeers mp _ _) nofun hl ns

theorem spentBy_newProcess (configMap : Option (GoMap String RawValue)) (pod : String)
    (clock : Clock) (ns : String) :
    spentBy mp P (newProcess mp configMap pod clock).ledger ns = 0 := by
  show landedIn (seeded mp configMap clock).landed mp.name ns P = 0
  unfold seeded
  split <;> rfl

theorem spent_le_of_move (hin : inPeriod mp P s e = true) (hmove : Move mp s e s') (ns : String) :
    s.spent mp P ns ≤ s'.spent mp P ns := by
  unfold Exchange.spent
  rcases sum_of_move (fun p => spentBy mp P p.ledger ns) hmove (fun _ => rfl)
    (fun configMap pod clock => spentBy_newProcess configMap pod clock ns) with
    hsame | ⟨i, p, p', -, hstep, hsum⟩
  · exact hsame.ge
  · have hle : spentBy mp P p.ledger ns ≤ spentBy mp P p'.ledger ns := by
      cases hstep with
      | acts _ hrun hl => exact hl.spent hin ns
      | same | stops | applies => exact le_rfl
    linarith

theorem ProcessStep.contribution (h : ProcessStep mp s e i p p') (he : notApply e = true)
    (ns : String) : p'.contribution P ns = p.contribution P ns := by
  cases h with
  | same | stops => rfl
  | acts _ hrun hl => simp only [Process.contribution, hl.posted.1]
  | applies t q hrun hq heq =>
    subst heq
    cases he

theorem contributions_of_move (hmove : Move mp s e s') (he : notApply e = true) (ns : String) :
    s'.contributions P ns = s.contributions P ns := by
  unfold Exchange.contributions
  rcases sum_of_move (fun p => p.contribution P ns) hmove (fun _ => rfl) (fun _ _ _ => rfl) with
    hsame | ⟨i, p, p', -, hstep, hsum⟩
  · exact hsame
  · linarith [hstep.contribution (P := P) he ns]

theorem ProcessOk.contribution (h : ProcessOk mp P p) (ns : String) :
    0 ≤ p.contribution P ns ∧ p.contribution P ns ≤ spentBy mp P p.ledger ns := by
  unfold Process.contribution
  cases hposted : p.posted with
  | none => exact ⟨le_rfl, (h.ledger.spentBy_cents ns).nonneg⟩
  | some raw =>
    obtain ⟨hcents, hle⟩ := h.posted raw hposted ns
    exact ⟨hcents.nonneg, hle⟩

/-! ## The canonical total -/

/-- A replica that has published in the period publishes again only while its key
is there. -/
def keepsKey (P : String) (s : Exchange) : ExchangeEvent → Bool
  | .apply i => (s.procs[i]?).all fun p =>
    !(p.posted.any (isTagged P)) || (s.value p.pod).isSome
  | _ => true

/-- No more is on the ConfigMap than the processes have there. -/
structure CountsOnce (P : String) (s : Exchange) : Prop where
  sum : ∀ ns, s.spend P ns ≤ s.contributions P ns
  /-- a key that is there holds the last publish of the process that runs in the Pod -/
  held : ∀ p ∈ s.procs, p.running = true → ∀ raw, s.value p.pod = some raw →
    ∀ ns, p.contribution P ns ≤ currentSpend P raw ns

/-- The canonical total is within what has been spent. -/
structure Bounded (mp : ModelProvider) (P : String) (s : Exchange) : Prop where
  sound : s.Sound mp P
  once : CountsOnce P s
  pass : ∀ live currentPeriod revision data, s.reducer = .got live currentPeriod revision data →
    ∀ ns, spendOn P data ns ≤ s.spent mp P ns
  canonical : s.reduced = true → ∀ ns, s.canonical ns ≤ s.spent mp P ns

variable {Q : Process → Prop}

theorem canonical_le {m : GoMap String ℚ} (hvalue : s.value canonicalKey = some raw)
    (htext : raw.isText (formatSpend m) = true) (hcents : ∀ ns, WholeCents (m.at0 ns))
    (ns : String) :
    s.canonical ns ≤ m.at0 ns := by
  obtain ⟨c, hc, hlookup⟩ := canonicalSpend_of_isText htext
  have hat : s.canonical ns =
      ((m.lookup ns).bind fun v => parseAmount (formatFixed2 v)).getD 0 := by
    simp only [Exchange.canonical, hvalue, Option.bind_some, hc, Option.elim_some, GoMap.at0,
      hlookup]
  rw [hat]
  exact (amount_getD hcents ns).2.1

theorem Process.Fresh.contribution (h : p.Fresh mp P) (ns : String) : p.contribution P ns = 0 := by
  unfold Process.contribution
  cases hposted : p.posted with
  | none => rfl
  | some raw => exact h.posted raw hposted ns

theorem Exchange.Initial.contributions (h : s.Initial mp P) (ns : String) :
    s.contributions P ns = 0 := by
  refine List.sum_eq_zero fun q hq => ?_
  obtain ⟨p, hp, rfl⟩ := List.mem_map.mp hq
  exact (h.procs p hp).contribution ns

theorem Exchange.Initial.spend (h : s.Initial mp P) (ns : String) : s.spend P ns = 0 := by
  unfold Exchange.spend
  cases hdata : s.configMap with
  | none => rfl
  | some data =>
    refine List.sum_eq_zero fun q hq => ?_
    obtain ⟨x, hx, rfl⟩ := List.mem_map.mp hq
    dsimp only
    split_ifs with hk
    · rfl
    · exact h.data data hdata x.1 x.2 (List.mem_dlookup data.nodupKeys hx) hk ns

theorem Exchange.Initial.value (h : s.Initial mp P) {k : String} (hk : k ≠ canonicalKey)
    (hraw : s.value k = some raw) (ns : String) :
    currentSpend P raw ns = 0 := by
  obtain ⟨data, hdata, hlookup⟩ := Option.bind_eq_some_iff.mp hraw
  exact h.data data hdata k raw hlookup hk ns

theorem Exchange.Initial.countsOnce (h : s.Initial mp P) : CountsOnce P s where
  sum ns := by rw [h.contributions, h.spend]
  held p hp _ raw hraw ns := by
    rw [(h.procs p hp).contribution, h.value (ne_canonicalKey_of_isFlag (h.names p hp)).1 hraw]

theorem Exchange.Initial.bounded (h : s.Initial mp P) : Bounded mp P s where
  sound := h.sound
  once := h.countsOnce
  pass live period rev data hgot := by
    rw [h.reducer] at hgot
    cases hgot
  canonical hreduced := by
    rw [h.reduced] at hreduced
    cases hreduced

variable {data : GoMap String RawValue}

theorem spend_of_configMap (h : s.configMap = some data) (ns : String) :
    s.spend P ns = spendOn P data ns := by
  simp [Exchange.spend, h]

theorem Bounded.canonical_of_pass (h : Bounded mp P s) {live : List String} {period : String}
    {revision : Nat} {order : List (Sigma fun _ : String => RawValue)}
    (hgot : s.reducer = .got live period revision data) (horder : order.Perm data.entries)
    (hvalue : s'.value canonicalKey = (reconcileBudget data order (fun k => live.contains k)
      period).data.lookup canonicalKey) (ns : String) :
    s'.canonical ns ≤ s.spent mp P ns := by
  obtain ⟨rfl, -, -, hcents, -⟩ := h.sound.pass live period revision data hgot
  have hred := reduced_reconcileBudget (fun k => live.contains k) horder hcents
  obtain ⟨raw, hraw, htext⟩ := hred.canonical
  refine (canonical_le (hvalue.trans hraw) htext (fun ns => ?_) ns).trans ?_
  · rw [hred.total]
    exact hcents.spendOn ns
  · rw [hred.total]
    exact h.pass live period revision data hgot ns

theorem value_of_put {live : List String} {period : String}
    {order : List (Sigma fun _ : String => RawValue)} {k : String}
    (horder : order.Perm data.entries) (hcents : CentsOn period data)
    (hdata : s.configMap = some data) (hput : s'.configMap = some
      (reconcileBudget data order (fun k => live.contains k) period).data)
    (hk : k ≠ canonicalKey ∧ k ≠ retiredKey) (hraw : s'.value k = some raw) :
    s.value k = some raw := by
  have hred := reduced_reconcileBudget (fun k => live.contains k) horder hcents
  simp only [Exchange.value, hput, hdata, Option.bind_some] at hraw ⊢
  rcases hred.kept k hk.1 hk.2 with hsame | hnone
  · rw [← hsame]
    exact hraw
  · rw [hnone] at hraw
    cases hraw

theorem contributions_commit (mp : ModelProvider) (P : String) (t : Time) (q : BudgetPartial)
    (hi : s.procs[i]? = some p) (ns : String) :
    (s.commit mp i p t q).contributions P ns + p.contribution P ns =
      s.contributions P ns + currentSpend P (.object q.marshalJSON) ns := by
  unfold Exchange.contributions
  rw [commit_procs]
  exact sum_set (fun p => p.contribution P ns) (p.applied mp t q) hi

theorem spend_commit (s : Exchange) (mp : ModelProvider) (P : String) (i : Nat) (t : Time)
    (q : BudgetPartial) (hpod : p.pod ≠ canonicalKey) (ns : String) :
    (s.commit mp i p t q).spend P ns + s.spendUnder P p.pod ns =
      s.spend P ns + currentSpend P (.object q.marshalJSON) ns :=
  write_spend { s with procs := s.procs.set i (p.applied mp t q) } q.marshalJSON P ns hpod

/-- After a publish, the process has moved on and the others are of other Pods or
have ended. -/
theorem forall_commit {R : Process → Prop} {t : Time} {q : BudgetPartial} (hsound : s.InOrder R P)
    (hi : s.procs[i]? = some p) (hrun : p.running = true) (hself : Q (p.applied mp t q))
    (hother : ∀ p' ∈ s.procs, (p'.running = true → p'.pod ≠ p.pod) → Q p') :
    ∀ p' ∈ (s.commit mp i p t q).procs, Q p' := by
  intro p' hp'
  rw [commit_procs] at hp'
  obtain ⟨j, hj⟩ := List.mem_iff_getElem?.mp hp'
  rw [List.getElem?_set] at hj
  split_ifs at hj with hij
  · cases hj
    exact hself
  · exact hother p' (List.mem_of_getElem? hj) fun hr hpod =>
      hij (hsound.unique i j p p' hi hj hrun hr hpod.symm)

theorem apply_or_not (hmove : Move mp s e s') : notApply e = true ∨
    ∃ i p t q, e = .apply i ∧ s.procs[i]? = some p ∧ p.running = true ∧
      p.publishing = some (t, q) ∧ s' = s.commit mp i p t q := by
  cases hmove with
  | apply i p t q hi hrun hq => exact .inr ⟨i, p, t, q, rfl, hi, hrun, hq, rfl⟩
  | act i p p' hi hrun hl => exact .inl (by cases hl <;> rfl)
  | pods pods procs gone hprocs he | idle pass hpass he =>
    exact .inl (by cases e <;> first | rfl | cases he)
  | start | restart | get | put | current => exact .inl rfl

/-- The totals of a pass that goes through are float64s. -/
def PutsInRange (s : Exchange) (e : ExchangeEvent) : Prop :=
  ∀ order live period rev data, e = .put order → s.reducer = .got live period rev data →
    ∀ ns, (reconcileBudget data order (fun k => live.contains k) period).current.at0 ns < floatLimit

/-- A step other than an apply adds nothing on the ConfigMap, loses nothing in range,
and leaves the key of a replica as it is or takes it out. -/
theorem Exchange.InOrder.amounts (h : s.InOrder Q P) (hmove : Move mp s e s')
    (he : notApply e = true) :
    (∀ ns, s'.spend P ns ≤ s.spend P ns) ∧
      (PutsInRange s e → ∀ ns, s'.spend P ns = s.spend P ns) ∧
      ∀ k raw, isFlag k = false → s'.value k = some raw → s.value k = some raw := by
  rcases configMap_of_move hmove he with hsame |
    ⟨order, live, period, rev, data, rfl, hgot, horder, hrev, hput⟩
  · have hspend : ∀ ns, s'.spend P ns = s.spend P ns := fun ns => by
      rw [Exchange.spend, hsame]
      rfl
    refine ⟨fun ns => (hspend ns).le, fun _ => hspend, fun k raw _ hraw => ?_⟩
    rwa [Exchange.value, hsame] at hraw
  · obtain ⟨rfl, -, hsame, hcents, -⟩ := h.pass live period rev data hgot
    have hdata := hsame hrev
    have hred := reduced_reconcileBudget (fun k => live.contains k) horder hcents
    simp only [spend_of_configMap hput, spend_of_configMap hdata]
    exact ⟨hred.le, fun hrange => hred.eq (hrange _ _ _ _ _ rfl hgot), fun k raw hk hraw =>
      value_of_put horder hcents hdata hput (ne_canonicalKey_of_isFlag hk) hraw⟩

theorem CountsOnce.under (h : CountsOnce P s) (hp : p ∈ s.procs) (hrun : p.running = true)
    (hkey : (!(p.posted.any (isTagged P)) || (s.value p.pod).isSome) = true) (ns : String) :
    p.contribution P ns ≤ s.spendUnder P p.pod ns := by
  rw [spendUnder_eq]
  cases hvalue : s.value p.pod with
  | some raw => exact h.held p hp hrun raw hvalue ns
  | none =>
    -- there was none in the period
    simp only [hvalue, Option.isSome_none, Bool.or_false, Bool.not_eq_true'] at hkey
    refine le_of_eq ?_
    unfold Process.contribution
    cases hposted : p.posted with
    | none => rfl
    | some raw => exact currentSpend_of_not_tagged (by simpa [hposted] using hkey) ns

theorem CountsOnce.step (h : CountsOnce P s) (hord : s.InOrder Q P)
    (hguard : keepsKey P s e = true) (hmove : Move mp s e s') : CountsOnce P s' := by
  rcases apply_or_not hmove with he | ⟨i, p, t, q, rfl, hi, hrun, hq, rfl⟩
  · obtain ⟨hle, -, hvalue⟩ := hord.amounts hmove he
    -- a new process has posted nothing yet
    have hnew : ∀ name clock, isFlag name = false → ∀ raw, s.value name = some raw →
        ∀ ns, (newProcess mp s.configMap name clock).contribution P ns ≤ currentSpend P raw ns :=
      fun name clock hname raw hraw ns =>
        (hord.cents name raw hraw (ne_canonicalKey_of_isFlag hname).1 ns).nonneg
    have hall : ∀ p ∈ s'.procs, isFlag p.pod = false ∧ (p.running = true →
        ∀ raw, s.value p.pod = some raw → ∀ ns, p.contribution P ns ≤ currentSpend P raw ns) := by
      refine forall_of_move hmove (fun p hp => ⟨hord.names p hp, h.held p hp⟩)
        (fun p hp => ⟨hp.1, fun hr => (by cases hr)⟩)
        (fun name clock _ hname _ => ⟨hname, fun _ => hnew name clock hname⟩)
        (fun i p clock _ hi => ?_) (fun i p p' _ hrun hl hp => ?_)
        fun i _ _ _ heq => (by subst heq; cases he)
      · have hname := hord.names p (List.mem_of_getElem? hi)
        exact ⟨hname, fun _ => hnew p.pod clock hname⟩
      · obtain ⟨hposted, -, hpod, -⟩ := hl.posted
        simp only [Process.contribution, hposted, hpod]
        exact ⟨hp.1, fun _ => hp.2 hrun⟩
    refine ⟨fun ns => ?_, fun p hp hr raw hraw => ?_⟩
    · rw [contributions_of_move hmove he]
      exact (hle ns).trans (h.sum ns)
    · exact (hall p hp).2 hr raw (hvalue p.pod raw (hall p hp).1 hraw)
  · have hp := List.mem_of_getElem? hi
    have hpod := (ne_canonicalKey_of_isFlag (hord.names p hp)).1
    simp only [keepsKey, hi, Option.all_some] at hguard
    refine ⟨fun ns => ?_, forall_commit hord hi hrun (fun _ raw hraw ns => ?_)
      fun p' hp' hne hr raw hraw ns => ?_⟩
    · linarith [h.sum ns, h.under hp hrun hguard ns, spend_commit s mp P i t q hpod ns,
        contributions_commit mp P t q hi ns]
    · obtain ⟨raw', hraw', hsame⟩ := write_value_self
        { s with procs := s.procs.set i (p.applied mp t q) } p.pod q.marshalJSON
      rw [Option.some.inj (hraw.symm.trans hraw'), hsame]
      exact le_rfl
    · rw [Exchange.commit, write_value_ne (hne hr)] at hraw
      exact h.held p' hp' hr raw hraw ns

theorem Bounded.frame (h : Bounded mp P s) (hsound : s'.Sound mp P) (honce : CountsOnce P s')
    (hspent : ∀ ns, s.spent mp P ns ≤ s'.spent mp P ns)
    (hvalue : s'.value canonicalKey = s.value canonicalKey)
    (hpass : ∀ live period rev data, s'.reducer = .got live period rev data →
      s.reducer = .got live period rev data) (hreduced : s'.reduced = s.reduced) :
    Bounded mp P s' := by
  refine ⟨hsound, honce, fun live period rev data hgot ns => ?_, fun hred ns => ?_⟩
  · exact (h.pass live period rev data (hpass live period rev data hgot) ns).trans (hspent ns)
  · rw [Exchange.canonical, hvalue]
    exact (h.canonical (hreduced ▸ hred) ns).trans (hspent ns)

theorem Bounded.step (h : Bounded mp P s) (hP : ∃ t, periodKey mp.budget.period t = P)
    (hin : inPeriod mp P s e = true) (hguard : keepsKey P s e = true) (hmove : Move mp s e s') :
    Bounded mp P s' := by
  have hsound := h.sound.step hP hin hmove
  have hspent := spent_le_of_move hin hmove
  have honce := h.once.step h.sound hguard hmove
  cases hmove with
  | act | start | restart | pods =>
    exact h.frame hsound honce hspent rfl (fun _ _ _ _ hgot => hgot) rfl
  | apply i p t q hi hrun hq =>
    have hpod := ne_canonicalKey_of_isFlag (h.sound.names p (List.mem_of_getElem? hi))
    obtain ⟨-, -, hreducer, hreduced⟩ := write_frame
      { s with procs := s.procs.set i (p.applied mp t q) } p.pod q.marshalJSON
    exact h.frame hsound honce hspent (write_value_ne (Ne.symm hpod.1))
      (fun _ _ _ _ hgot => hreducer.symm.trans hgot) hreduced
  | idle pass hpass he =>
    exact h.frame hsound honce hspent rfl
      (fun live period rev data hgot => absurd hgot (hpass live period rev data)) rfl
  | get now live data hdata =>
    refine ⟨hsound, honce, fun live' period rev data' hgot ns => ?_, h.canonical⟩
    cases hgot
    rw [← spend_of_configMap hdata]
    exact (h.once.sum ns).trans
      (List.sum_le_sum fun p hp => ((h.sound.procs p hp).contribution ns).2)
  | put order live period rev data hgot horder hrev =>
    exact ⟨hsound, honce, fun _ _ _ _ hgot' => (by cases hgot'),
      fun _ ns => h.canonical_of_pass hgot horder rfl ns⟩
  | current order live period rev data hgot horder hunchanged =>
    obtain ⟨rfl, -, -, hcents, hcanonical⟩ := h.sound.pass live period rev data hgot
    have hred := reduced_reconcileBudget (fun k => live.contains k) horder hcents
    refine ⟨hsound, honce, fun _ _ _ _ hgot' => (by cases hgot'),
      fun _ ns => h.canonical_of_pass hgot horder ?_ ns⟩
    rw [hred.unchanged hunchanged]
    exact hcanonical.symm

/-- The guard of a run inside the period in which published keys stay. -/
def keysKept (mp : ModelProvider) (P : String) (s : Exchange) (e : ExchangeEvent) : Bool :=
  inPeriod mp P s e && keepsKey P s e

/-- Spend is counted once: whatever the replicas, the Pods and the reducer do inside
the period, after a pass the canonical total of a namespace is at most what all
replicas have spent there, as long as no replica publishes over a key that was
pruned. -/
theorem canonical_le_spent (hP : ∃ t, periodKey mp.budget.period t = P) (hs : s.Initial mp P)
    {es : List ExchangeEvent} (hrun : Run (exchangeStep mp) (fun s e => keysKept mp P s e = true)
      s es s') (hreduced : s'.reduced = true) (ns : String) :
    s'.canonical ns ≤ s'.spent mp P ns := by
  have hbounded : Bounded mp P s' := by
    refine hrun.invariant (fun x e x' hx hg hst => ?_) hs.bounded
    have hg := (Bool.and_eq_true _ _).mp hg
    exact hx.step hP hg.1 hg.2 (move_of_step hst)
  exact hbounded.canonical hreduced ns

/-! ### One replica -/

/-- A provider with a ceiling of 10 USD per namespace. -/
def capped : ModelProvider := tenDollars []

/-- One gateway replica, started in the first month of the epoch, and no ConfigMap. -/
def oneReplica : Exchange where
  configMap := none
  revision := 0
  pods := [⟨"gw-0", false⟩]
  procs := [newProcess capped none "gw-0" (.still 0)]
  reducer := .idle
  reduced := false

theorem oneReplica_initial : oneReplica.Initial capped (periodKey .monthly 0) where
  procs p hp := by
    rw [List.mem_singleton.mp hp]
    exact
      { ran := ⟨0, [], .nil _⟩
        later := ⟨0, le_rfl, rfl⟩
        landed := fun x hx => (by cases hx)
        published := fun _ => rfl
        posted := fun raw hraw => (by cases hraw)
        publishing := rfl
        folding := rfl }
  names p hp := by
    rw [List.mem_singleton.mp hp]
    rfl
  unique i j p q hi hj _ _ _ := by
    have hlt := (List.getElem?_eq_some_iff.mp hi).1
    have hlt' := (List.getElem?_eq_some_iff.mp hj).1
    simp only [oneReplica, List.length_singleton] at hlt hlt'
    omega
  data data hdata := by cases hdata
  reducer := rfl
  reduced := rfl

def month : String := periodKey .monthly 0

def spendAndPublish : List ExchangeEvent :=
  [.request 0 (.add capped "team" "agent/a" 5 (.still 0)), .snapshot 0 0, .apply 0]

/-- The state after some steps that meet a condition. -/
def after (check : Exchange → ExchangeEvent → Bool) (s : Exchange) (es : List ExchangeEvent) :
    Exchange :=
  (exec (guarded check (exchangeStep capped)) s es).getD s

/-- One pass of the reducer over the values as they are stored. -/
def reducerPass (s : Exchange) : List ExchangeEvent :=
  [.list, .get 0, .put (s.configMap.elim [] fun data => data.entries)]

def publishAndReduce : List ExchangeEvent :=
  spendAndPublish ++ reducerPass (after (inPeriod capped month) oneReplica spendAndPublish)

theorem canonical_le_spent_oneReplica :
    (after (keysKept capped month) oneReplica publishAndReduce).reduced = true ∧
      (after (keysKept capped month) oneReplica publishAndReduce).canonical "team" ≤
        (after (keysKept capped month) oneReplica publishAndReduce).spent capped month "team" := by
  have hreduced : (after (keysKept capped month) oneReplica publishAndReduce).reduced = true := by
    decide +kernel
  exact ⟨hreduced, canonical_le_spent ⟨0, rfl⟩ oneReplica_initial (run_getD (by decide +kernel))
    hreduced "team"⟩

/-- The Pod terminates, a pass prunes its key, the replica publishes once more and
the next pass prunes the key again. -/
def prunedTwice : List ExchangeEvent :=
  let gone := spendAndPublish ++ [.terminate "gw-0"]
  let pruned := gone ++ reducerPass (after (inPeriod capped month) oneReplica gone)
  let again := pruned ++ [.snapshot 0 0, .apply 0]
  again ++ reducerPass (after (inPeriod capped month) oneReplica again)

/-- Spend of 5 USD is 10 USD on the canonical total: a Terminating Pod's key is
pruned into `_retired` while its replica still publishes its counters. -/
theorem pruned_replica_counts_twice :
    oneReplica.Initial capped month ∧ ∃ s,
      Run (exchangeStep capped) (fun s e => inPeriod capped month s e = true) oneReplica prunedTwice
        s ∧ s.reduced = true ∧ s.spent capped month "team" = 5 ∧ s.canonical "team" = 10 :=
  ⟨oneReplica_initial, after (inPeriod capped month) oneReplica prunedTwice,
    run_getD (by decide +kernel), by decide +kernel, by decide +kernel, by decide +kernel⟩

end Kaalm.Controller
