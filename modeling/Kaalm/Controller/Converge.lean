/-
  Controller/Converge.lean --- the replicas converge on the same spend.

  THE ARGUMENT.  The spend on the ConfigMap is the sum of what the last publishes of
  all processes say, whether it is still under their keys or already in `_retired`.
  After the last spend a publish says all there is to say, so that once every replica
  has published nothing on the ConfigMap changes in amount, and a fold finds the sum
  without the folder's own part.

  WHERE IT FAILS.  Spend in a namespace named `period` takes the place of the tag, and
  then no reader finds any amount of that replica (`period_namespace_unseen`).
-/
import Kaalm.Controller.Published

namespace Kaalm.Controller

open Kaalm.Foundation Kaalm.Gateway

/-! ## The runs -/

/-- What the process published in the period, if anything, is still under its key. -/
def Exchange.holdsKey (s : Exchange) (P : String) (p : Process) : Bool :=
  !(p.posted.any (isTagged P)) || (s.value p.pod).isSome

/-- A live replica: it runs, and its key has not been pruned. -/
def Exchange.isLive (s : Exchange) (P : String) (p : Process) : Bool := p.running && s.holdsKey P p

/-- The step reads the clock in the period, no Pod name is used again, and a replica
whose key was pruned publishes no more. -/
def onePeriod (mp : ModelProvider) (P : String) (s : Exchange) : ExchangeEvent → Bool
  | .start _ clock => clockWithin mp.budget.period P clock
  | .restart _ _ => false
  | .request _ e =>
    ((providerOf? e).all fun provider =>
      provider.name ≠ mp.name || provider.budget.period = mp.budget.period) &&
    (e.clock?.all (clockWithin mp.budget.period P)) && (costOf? e).all (0 ≤ ·)
  | .apply i => (s.procs[i]?).all (s.holdsKey P)
  | .fold _ _ now clock =>
    periodKey mp.budget.period now = P && clockWithin mp.budget.period P clock
  | .get now => periodKey mp.budget.period now = P
  | .terminate _ | .remove _ | .snapshot _ _ | .read _ | .list | .put _ => true

/-- What is rendered can be read back. -/
def isRendered (mp : ModelProvider) (P : String) (s : Exchange) : ExchangeEvent → Bool
  | .snapshot i _ => (s.procs[i]?).all fun p =>
    (p.ledger.ledger.providers.lookup mp.name).all fun pl =>
      pl.period ≠ P || isReadable (pl.own.mapValues toCents)
  | .put order => keepsSpend mp P s (.put order)
  | _ => true

def rendersAll (mp : ModelProvider) (P : String) (s : Exchange) (e : ExchangeEvent) : Bool :=
  onePeriod mp P s e && isRendered mp P s e

def isFree : ExchangeEvent → Bool
  | .request _ e => (costOf? e).all (· = 0)
  | _ => true

/-! ## What has been spent -/

section Ledger

variable {mp : ModelProvider} {P : String} {l l' : LedgerState} {e : LedgerEvent}

theorem LedgerIn.spentBy_of_ownPartial {C : ℚ → Prop} (h : LedgerIn C mp P l)
    (hnone : l.ledger.ownPartial mp.name = none) (ns : String) : spentBy mp P l ns = 0 := by
  by_cases hstored : ∃ pl, l.ledger.providers.lookup mp.name = some pl ∧ pl.period = P
  · obtain ⟨pl, hpl, hp⟩ := hstored
    have hempty : pl.own.entries = [] := by
      simpa [BudgetLedger.ownPartial, hpl] using hnone
    rw [← h.stored_own hpl hp, show pl.own = ∅ from AList.ext hempty, GoMap.at0_empty]
  · exact h.spentBy_eq_zero (fun pl hpl hp => hstored ⟨pl, hpl, hp⟩) ns

theorem spentBy_of_free (hfree : ∀ c, costOf? e = some c → c = 0)
    (hst : ledgerStep l e = some l') (ns : String) : spentBy mp P l' ns = spentBy mp P l ns := by
  obtain ⟨extra, hextra, hzero⟩ := landed_costs hst hfree
  have hnew : landedIn extra mp.name ns P = 0 :=
    landedIn_of_costs (C := (· = 0)) rfl (fun ha hb => by rw [ha, hb, add_zero])
      fun x hx _ _ => hzero x hx
  rw [spentBy, hextra, landedIn_append, hnew, add_zero]
  rfl

end Ledger

/-! ## The exchange -/

/-- What the processes published last is on the ConfigMap, once. -/
structure Tallied (mp : ModelProvider) (P : String) (s : Exchange) : Prop where
  order : s.InOrder (Tracked mp P) P
  once : CountsOnce P s
  all : CountsAll P s

variable {mp : ModelProvider} {P : String} {s s' : Exchange} {e : ExchangeEvent} {p p' : Process}
  {i : Nat}

theorem fits_of_rendersAll {ev : LedgerEvent} (h : rendersAll mp P s (.request i ev) = true)
    (l : LedgerState) : Fits (0 ≤ ·) mp P l ev := by
  have hin := ((Bool.and_eq_true _ _).mp h).1
  simp only [onePeriod, Bool.and_eq_true] at hin
  refine ⟨sameScheme_of_providerOf hin.1.1, fun clock hc => ?_, fun c hc => ?_⟩
  · simpa [hc] using hin.1.2
  · simpa [hc] using hin.2

theorem rendered_of_rendersAll {now : Time} (h : rendersAll mp P s (.snapshot i now) = true)
    (hi : s.procs[i]? = some p) (hp : Tracked mp P p) : Rendered mp P p.ledger := by
  have hrendered := ((Bool.and_eq_true _ _).mp h).2
  simp only [isRendered, hi, Option.all_some] at hrendered
  intro pl hpl hper
  obtain ⟨hkeys, hrange⟩ := isReadable_spec (m := pl.own.mapValues toCents) (by
    simpa [hpl, hper] using hrendered)
  refine ⟨fun ns => ?_, fun ns => at0_toCents pl.own ns ▸ hrange ns, fun ns hns => hkeys ns ?_⟩
  · rw [hp.ledger.stored_own hpl hper]
    exact hp.ledger.spentBy_nonneg ns
  · rw [← AList.lookup_isSome, GoMap.lookup_mapValues, Option.isSome_map]
    exact AList.lookup_isSome.mpr hns

theorem Exchange.Initial.tallied (h : s.Initial mp P) : Tallied mp P s where
  order := ⟨fun p hp => (h.procs p hp).tracked (h.sound.procs p hp), h.names, h.unique,
    h.sound.cents, h.sound.pass⟩
  once := h.countsOnce
  all := h.countsAll

theorem Tallied.spendUnder (h : Tallied mp P s) (hp : p ∈ s.procs) (hlive : s.isLive P p = true)
    (ns : String) : s.spendUnder P p.pod ns = p.contribution P ns := by
  obtain ⟨hrun, hkey⟩ := (Bool.and_eq_true _ _).mp hlive
  exact le_antisymm (h.all.held p hp hrun ns) (h.once.under hp hrun hkey ns)

theorem Tallied.peers (h : Tallied mp P s) (hp : p ∈ s.procs) (hlive : s.isLive P p = true)
    {f : PendingFold} (hf : f.data = s.configMap) (ns : String) :
    (f.peers p.pod P).at0 ns = s.contributions P ns - p.contribution P ns := by
  have hpod := (ne_canonicalKey_of_isFlag (h.order.names p hp)).1
  rw [← h.spendUnder hp hlive, ← le_antisymm (h.once.sum ns) (h.all.sum ns)]
  unfold PendingFold.peers
  cases hdata : s.configMap with
  | none => simp [hf, hdata, Exchange.spend, Exchange.spendUnder, GoMap.at0_empty]
  | some data =>
    simp only [hf, hdata, Exchange.spend, Exchange.spendUnder, Option.elim_some]
    exact eq_sub_of_add_eq (foldPartials_add_spendAt data P ns hpod)

theorem isLive_of_apply (hguard : rendersAll mp P s (.apply i) = true)
    (hi : s.procs[i]? = some p) (hrun : p.running = true) : s.isLive P p = true := by
  have hin := ((Bool.and_eq_true _ _).mp hguard).1
  simp only [onePeriod, hi, Option.all_some] at hin
  simp [Exchange.isLive, hrun, hin]

theorem Tallied.step (h : Tallied mp P s)
    (hguard : rendersAll mp P s e = true) (hmove : Move mp s e s') : Tallied mp P s' := by
  obtain ⟨hin, hrendered⟩ := (Bool.and_eq_true _ _).mp hguard
  have horder : s'.InOrder (Tracked mp P) P := by
    refine h.order.step (fun now he => ?_) (fun p hp => hp.stop) (fun pod clock he => ?_)
      (fun i p p' hi _ hp hl => hl.tracked hp (fun ev he => ?_) (fun now he => ?_)
        fun j now clock he => ?_)
      (fun p t q hp hq => ⟨hp.applied hq, fun ns => (hp.publishing t q hq ns).cents⟩) hmove
    · subst he
      simpa [onePeriod] using hin
    · rcases he with rfl | ⟨i, rfl⟩
      · exact tracked_newProcess hin
      · cases hin
    · subst he
      exact fits_of_rendersAll hguard p.ledger
    · subst he
      exact rendered_of_rendersAll hguard hi hp
    · subst he
      simp only [onePeriod, Bool.and_eq_true] at hin
      exact hin.2
  refine ⟨horder, h.once.step h.order ?_ hmove, h.all.step h.order horder
    (fun p hp ns => (hp.cents ns).nonneg) (fun i p clock he => ?_) ?_ hmove⟩
  · cases e with
    | apply i => exact hin
    | _ => rfl
  · subst he
    cases hin
  · rintro order live period rev data rfl hgot
    have hkeeps : keepsSpend mp P s (.put order) = true := hrendered
    exact putsInRange_of_keepsSpend hkeeps order live period rev data rfl hgot

/-! ## After the last spend -/

/-- The guard of a run after the last spend. -/
def afterLast (mp : ModelProvider) (P : String) (s : Exchange) (e : ExchangeEvent) : Bool :=
  rendersAll mp P s e && isFree e

/-- The publish under way, if there is one, says all that has been spent. -/
def Aligned (mp : ModelProvider) (P : String) (p : Process) : Prop :=
  ∀ t q, p.publishing = some (t, q) → ∀ ns,
    currentSpend P (.object q.marshalJSON) ns = toCents (spentBy mp P p.ledger ns)

/-- And so does the last publish. -/
structure UpToDate (mp : ModelProvider) (P : String) (p : Process) : Prop where
  aligned : Aligned mp P p
  last : ∀ ns, p.contribution P ns = toCents (spentBy mp P p.ledger ns)

theorem Local.spent_of_free (hl : Local mp s i p e p') (hguard : afterLast mp P s e = true)
    (ns : String) :
    spentBy mp P p'.ledger ns = spentBy mp P p.ledger ns := by
  have hfree := ((Bool.and_eq_true _ _).mp hguard).2
  cases hl with
  | request hst hfold =>
    refine spentBy_of_free (fun c hc => ?_) hst ns
    simpa [isFree, hc] using hfree
  | snapshot hst =>
    obtain ⟨q, -, rfl⟩ := snapshot_eq_some hst
    rfl
  | read => rfl
  | fold hst =>
    obtain ⟨f, l, -, hfold, rfl⟩ := fold_eq_some hst
    exact spentBy_of_free (e := .foldPeers mp _ _) (fun _ hc => by cases hc) hfold ns

theorem aligned_of_snapshot {now : Time} (h : Tracked mp P p) (hi : s.procs[i]? = some p)
    (hguard : rendersAll mp P s (.snapshot i now) = true) (hst : p.snapshot mp now = some p') :
    Aligned mp P p' := by
  have hrendered := rendered_of_rendersAll hguard hi h
  obtain ⟨q, hq, rfl⟩ := snapshot_eq_some hst
  intro t q' hq' ns
  cases hq'
  exact (h.ledger.snapshot hrendered hq ns).1

theorem Local.aligned (hl : Local mp s i p e p') (h : Tracked mp P p) (hi : s.procs[i]? = some p)
    (hguard : afterLast mp P s e = true)
    (haligned : Aligned mp P p) : Aligned mp P p' := by
  have hspent := hl.spent_of_free hguard
  cases hl with
  | request hst hfold =>
    intro t q hq ns
    rw [hspent]
    exact haligned t q hq ns
  | snapshot hst =>
    exact aligned_of_snapshot h hi ((Bool.and_eq_true _ _).mp hguard).1 hst
  | read => exact haligned
  | fold hst =>
    intro t q hq ns
    rw [hspent]
    obtain ⟨f, l, -, -, rfl⟩ := fold_eq_some hst
    exact haligned t q hq ns

theorem upToDate_newProcess (configMap : Option (GoMap String RawValue)) (pod : String)
    (clock : Clock) : UpToDate mp P (newProcess mp configMap pod clock) where
  aligned _ _ hq := by cases hq
  last ns := by
    rw [spentBy_newProcess, toCents_zero]
    rfl

theorem Aligned.applied {t : Time} {q : BudgetPartial} (h : Aligned mp P p)
    (hq : p.publishing = some (t, q)) : UpToDate mp P (p.applied mp t q) where
  aligned _ _ hq' := by cases hq'
  last ns := h t q hq ns

theorem ProcessMove.aligned (hmove : ProcessMove mp s e i p') (h : Tallied mp P s)
    (hguard : afterLast mp P s e = true)
    (haligned : ∀ p, s.procs[i]? = some p → Aligned mp P p) : Aligned mp P p' := by
  cases hmove with
  | steps p _ hi hstep =>
    cases hstep with
    | same => exact haligned _ hi
    | stops => exact fun _ _ hq => by cases hq
    | acts _ hrun hl =>
      exact hl.aligned (h.order.procs p (List.mem_of_getElem? hi)) hi hguard (haligned p hi)
    | applies t q hrun hq he => exact ((haligned p hi).applied hq).aligned
  | starts | restarts => exact (upToDate_newProcess _ _ _).aligned

theorem ProcessMove.upToDate (hmove : ProcessMove mp s e i p') (h : Tallied mp P s)
    (hguard : afterLast mp P s e = true)
    (hdate : ∀ p, s.procs[i]? = some p → UpToDate mp P p) : UpToDate mp P p' := by
  have haligned := hmove.aligned h hguard fun p hi => (hdate p hi).aligned
  cases hmove with
  | steps p _ hi hstep =>
    cases hstep with
    | same => exact hdate _ hi
    | stops => exact ⟨haligned, (hdate p hi).last⟩
    | acts _ hrun hl =>
      refine ⟨haligned, fun ns => ?_⟩
      rw [hl.spent_of_free hguard,
        Process.contribution, hl.posted.1]
      exact (hdate p hi).last ns
    | applies t q hrun hq he => exact (hdate p hi).aligned.applied hq
  | starts | restarts => exact upToDate_newProcess _ _ _

/-! ## Every replica has published -/

/-- A publish of the replica at an index: its snapshot and, later, its apply. -/
def PublishesIn (i : Nat) (es : List ExchangeEvent) : Prop :=
  ∃ (a b c : List ExchangeEvent) (now : Time), es = a ++ .snapshot i now :: (b ++ .apply i :: c)

/-- The exchange when every live replica has published all it has spent. -/
structure Quiescent (mp : ModelProvider) (P : String) (s : Exchange) : Prop where
  tallied : Tallied mp P s
  live : ∀ (i : Nat) (p : Process), s.procs[i]? = some p → s.isLive P p = true → UpToDate mp P p

variable {es : List ExchangeEvent}

theorem Tallied.run (h : Tallied mp P s)
    (hrun : Run (exchangeStep mp) (fun s e => rendersAll mp P s e = true) s es s') :
    Tallied mp P s' :=
  hrun.invariant (fun _ _ _ hx hg hst => hx.step hg (move_of_step hst)) h

theorem rendersAll_of_afterLast (h : afterLast mp P s e = true) :
    rendersAll mp P s e = true :=
  ((Bool.and_eq_true _ _).mp h).1

theorem upToDate_of_publish (h : Tallied mp P s)
    (hrun : Run (exchangeStep mp) (fun s e => afterLast mp P s e = true) s es s')
    (hpublish : PublishesIn i es) (hi : s'.procs[i]? = some p) : UpToDate mp P p := by
  obtain ⟨a, b, c, now, rfl⟩ := hpublish
  obtain ⟨s₁, hrun₁, hrest⟩ := hrun.split a
  have h₁ := h.run (hrun₁.weaken fun _ _ => rendersAll_of_afterLast)
  cases hrest with
  | @cons _ s₂ _ _ _ hguard hst hrest =>
    have h₂ := h₁.step (rendersAll_of_afterLast hguard) (move_of_step hst)
    have haligned : ∀ p, s₂.procs[i]? = some p → Aligned mp P p := by
      intro p₂ hp₂
      obtain ⟨p₁, p', hp₁, -, hsnapshot, rfl⟩ := act_eq_some hst
      rw [List.getElem?_set_self (List.getElem?_eq_some_iff.mp hp₁).1] at hp₂
      cases hp₂
      exact aligned_of_snapshot (h₁.order.procs p₁ (List.mem_of_getElem? hp₁)) hp₁
        (rendersAll_of_afterLast hguard) hsnapshot
    obtain ⟨s₃, hrun₃, hrest⟩ := hrest.split b
    obtain ⟨h₃, haligned₃⟩ := hrun₃.invariant
      (I := fun x => Tallied mp P x ∧ ∀ p, x.procs[i]? = some p → Aligned mp P p)
      (fun x e x' hx hg hst => ⟨hx.1.step (rendersAll_of_afterLast hg) (move_of_step hst),
        fun p hp => (processMove_of_move (move_of_step hst) hp).aligned hx.1 hg hx.2⟩)
      ⟨h₂, haligned⟩
    cases hrest with
    | @cons _ s₄ _ _ _ hguard' hst' hrest =>
      have h₄ := h₃.step (rendersAll_of_afterLast hguard') (move_of_step hst')
      have hdate : ∀ p, s₄.procs[i]? = some p → UpToDate mp P p := by
        intro p₄ hp₄
        rcases apply_or_not (move_of_step hst') with hno | ⟨j, p₃, t, q, he, hj, -, hq, rfl⟩
        · cases hno
        · cases he
          rw [commit_procs, List.getElem?_set_self (List.getElem?_eq_some_iff.mp hj).1] at hp₄
          cases hp₄
          exact (haligned₃ p₃ hj).applied hq
      exact (hrest.invariant
        (I := fun x => Tallied mp P x ∧ ∀ p, x.procs[i]? = some p → UpToDate mp P p)
        (fun x e x' hx hg hst => ⟨hx.1.step (rendersAll_of_afterLast hg) (move_of_step hst),
          fun p hp => (processMove_of_move (move_of_step hst) hp).upToDate hx.1 hg hx.2⟩)
        ⟨h₄, hdate⟩).2 p hi

theorem Tracked.upToDate (h : Tracked mp P p) (hnone : p.ledger.ledger.ownPartial mp.name = none) :
    UpToDate mp P p := by
  have hzero := h.ledger.spentBy_of_ownPartial hnone
  refine ⟨fun t q hq ns => ?_, fun ns => ?_⟩
  · have hway := h.publishing t q hq ns
    have hle := hway.upTo
    rw [hzero, toCents_zero] at hle ⊢
    exact le_antisymm hle hway.cents.nonneg
  · have hle := h.upTo ns
    rw [hzero, toCents_zero] at hle ⊢
    exact le_antisymm hle (h.cents ns).nonneg

/-! ## Nothing moves any more -/

theorem isLive_of_isLive (hrun : p'.running = p.running) (hposted : p'.posted = p.posted)
    (hpod : p'.pod = p.pod)
    (hvalue : (s'.value p.pod).isSome = true → (s.value p.pod).isSome = true)
    (hlive : s'.isLive P p' = true) : s.isLive P p = true := by
  simp only [Exchange.isLive, Exchange.holdsKey, hrun, hposted, hpod, Bool.and_eq_true,
    Bool.or_eq_true] at hlive ⊢
  exact ⟨hlive.1, hlive.2.imp_right hvalue⟩

theorem Tallied.isLive_back (h : Tallied mp P s) (hguard : rendersAll mp P s e = true)
    (hmove : Move mp s e s') (hi : s.procs[i]? = some p) (hstep : ProcessStep mp s e i p p')
    (hlive : s'.isLive P p' = true) : s.isLive P p = true := by
  -- a key that is there was there, or the step is its own apply
  have hvalue : e = .apply i ∨ (p.running = true → (s'.value p.pod).isSome = true →
      (s.value p.pod).isSome = true) := by
    rcases apply_or_not hmove with he | ⟨j, q, t, b, rfl, hj, hrun, hq, rfl⟩
    · refine .inr fun _ hsome => ?_
      obtain ⟨raw, hraw⟩ := Option.isSome_iff_exists.mp hsome
      rw [(h.order.amounts hmove he).2.2 p.pod raw (h.order.names p (List.mem_of_getElem? hi)) hraw]
      rfl
    · by_cases hij : j = i
      · exact .inl (hij ▸ rfl)
      · refine .inr fun hrunning hsome => ?_
        rwa [Exchange.commit, write_value_ne fun heq =>
          hij (h.order.unique j i q p hj hi hrun hrunning heq.symm)] at hsome
  have hrun' : p'.running = true := ((Bool.and_eq_true _ _).mp hlive).1
  rcases hvalue with rfl | hvalue
  · cases hstep with
    | same => exact isLive_of_apply hguard hi hrun'
    | stops => cases hrun'
    | acts _ hrun hl => cases hl
    | applies t q hrun hq he => exact isLive_of_apply hguard hi hrun
  · cases hstep with
    | same => exact isLive_of_isLive rfl rfl rfl (hvalue hrun') hlive
    | stops => cases hrun'
    | acts _ hrun hl =>
      obtain ⟨hposted, -, hpod, hrunning⟩ := hl.posted
      exact isLive_of_isLive hrunning hposted hpod (hvalue hrun) hlive
    | applies t q hrun hq he =>
      subst he
      exact isLive_of_apply hguard hi hrun

theorem Tallied.isLive_of_run (h : Tallied mp P s)
    (hrun : Run (exchangeStep mp) (fun s e => afterLast mp P s e = true) s es s')
    (hi : s.procs[i]? = some p) (hi' : s'.procs[i]? = some p') (hlive : s'.isLive P p' = true) :
    s.isLive P p = true := by
  induction hrun generalizing p with
  | nil s =>
    cases hi.symm.trans hi'
    exact hlive
  | cons hguard hst _ ih =>
    have hmove := move_of_step hst
    have hrenders := rendersAll_of_afterLast hguard
    obtain ⟨q, hq, hstep⟩ := exists_of_move hmove hi
    exact h.isLive_back hrenders hmove hi hstep (ih (h.step hrenders hmove) hq hi' hlive)

theorem Quiescent.step (h : Quiescent mp P s)
    (hguard : afterLast mp P s e = true) (hmove : Move mp s e s') : Quiescent mp P s' where
  tallied := h.tallied.step (rendersAll_of_afterLast hguard) hmove
  live i p' hi' hlive := (processMove_of_move hmove hi').upToDate h.tallied hguard fun p hi => by
    obtain ⟨p₁, hp₁, hstep⟩ := exists_of_move hmove hi
    cases hi'.symm.trans hp₁
    exact h.live i p hi (h.tallied.isLive_back
      (rendersAll_of_afterLast hguard) hmove hi hstep hlive)

theorem Quiescent.repeats (h : Quiescent mp P s) (hguard : afterLast mp P s (.apply i) = true)
    (hi : s.procs[i]? = some p) (hrun : p.running = true) {t : Time} {q : BudgetPartial}
    (hq : p.publishing = some (t, q)) (ns : String) :
    currentSpend P (.object q.marshalJSON) ns = p.contribution P ns := by
  have hdate := h.live i p hi (isLive_of_apply (rendersAll_of_afterLast hguard) hi hrun)
  exact (hdate.aligned t q hq ns).trans (hdate.last ns).symm

/-- The state has the same amounts as an earlier one. -/
structure Still (P ns : String) (i : Nat) (s s' : Exchange) : Prop where
  sum : s'.contributions P ns = s.contributions P ns
  proc : ∀ p, s.procs[i]? = some p → ∃ p', s'.procs[i]? = some p' ∧ p'.pod = p.pod ∧
    p'.contribution P ns = p.contribution P ns

theorem Still.trans {ns : String} {s₁ s₂ s₃ : Exchange} (h : Still P ns i s₁ s₂)
    (h' : Still P ns i s₂ s₃) : Still P ns i s₁ s₃ := by
  refine ⟨h'.sum.trans h.sum, fun p hp => ?_⟩
  obtain ⟨p₂, hp₂, hpod₂, hsame₂⟩ := h.proc p hp
  obtain ⟨p₃, hp₃, hpod₃, hsame₃⟩ := h'.proc p₂ hp₂
  exact ⟨p₃, hp₃, hpod₃.trans hpod₂, hsame₃.trans hsame₂⟩

theorem Quiescent.still (h : Quiescent mp P s) (hguard : afterLast mp P s e = true)
    (hmove : Move mp s e s') (ns : String) : Still P ns i s s' := by
  constructor
  · rcases apply_or_not hmove with he | ⟨j, q, t, partialSpend, rfl, hj, hrun, hq, rfl⟩
    · exact contributions_of_move hmove he ns
    · have hsum := contributions_commit mp P t partialSpend hj ns
      rw [h.repeats hguard hj hrun hq] at hsum
      exact add_right_cancel hsum
  · intro p hi
    obtain ⟨p', hi', hstep⟩ := exists_of_move hmove hi
    refine ⟨p', hi', hstep.pod, ?_⟩
    cases hstep with
    | same | stops => rfl
    | acts _ hrun hl => rw [Process.contribution, hl.posted.1]; rfl
    | applies t q hrun hq heq =>
      subst heq
      exact h.repeats hguard hi hrun hq ns

theorem Quiescent.run (h : Quiescent mp P s)
    (hrun : Run (exchangeStep mp) (fun s e => afterLast mp P s e = true) s es s') (i : Nat)
    (ns : String) : Quiescent mp P s' ∧ Still P ns i s s' :=
  hrun.invariant (I := fun x => Quiescent mp P x ∧ Still P ns i s x)
    (fun _ _ _ hx hg hst => ⟨hx.1.step hg (move_of_step hst),
      hx.2.trans (hx.1.still hg (move_of_step hst) ns)⟩) ⟨h, rfl, fun p hp => ⟨p, hp, rfl, rfl⟩⟩

/-! ## Every replica has folded -/

def foldsAt (i : Nat) : ExchangeEvent → Bool
  | .fold j _ _ _ => j = i
  | _ => false

/-- The last fold of the replica puts in the ConfigMap as it was at some point of the
run. -/
inductive FoldsIn (mp : ModelProvider) (check : Exchange → ExchangeEvent → Bool)
    (s s' : Exchange) (i : Nat) : List ExchangeEvent → Prop
  | mk {a b c : List ExchangeEvent} {j : Nat} {now : Time} {clock : Clock}
      {mid before : Exchange} {q p : Process} {f : PendingFold}
      (hmid : Run (exchangeStep mp) (fun s e => check s e = true) s a mid)
      (hq : mid.procs[i]? = some q)
      (hbefore : Run (exchangeStep mp) (fun s e => check s e = true) mid b before)
      (hp : before.procs[i]? = some p) (hf : p.folding[j]? = some f)
      (hdata : f.data = mid.configMap)
      (hfold : Run (exchangeStep mp) (fun s e => check s e = true) before
        (.fold i j now clock :: c) s')
      (hlast : ∀ e ∈ c, foldsAt i e = false) :
      FoldsIn mp check s s' i (a ++ (b ++ .fold i j now clock :: c))

/-- A run in which, after the last spend, every live replica that has anything to
publish publishes, and then every live replica folds. -/
structure SpendThenSettle (mp : ModelProvider) (P : String)
    (check : Exchange → ExchangeEvent → Bool) (s₀ s₁ s₂ s₃ : Exchange)
    (publishing folding : List ExchangeEvent) : Prop where
  spends : ∃ es, Run (exchangeStep mp) (fun s e => check s e = true) s₀ es s₁
  publishes : Run (exchangeStep mp) (fun s e => (check s e && isFree e) = true) s₁ publishing s₂
  published : ∀ i p, s₂.procs[i]? = some p → s₂.isLive P p = true →
    PublishesIn i publishing ∨ p.ledger.ledger.ownPartial mp.name = none
  folds : Run (exchangeStep mp) (fun s e => (check s e && isFree e) = true) s₂ folding s₃
  folded : ∀ i p, s₃.procs[i]? = some p → s₃.isLive P p = true →
    FoldsIn mp (fun s e => check s e && isFree e) s₂ s₃ i folding

variable {ns : String} {v : ℚ}

def PeersInView (mp : ModelProvider) (P ns : String) (v : ℚ) (l : LedgerState) : Prop :=
  ∀ u, l.now ≤ u → periodKey mp.budget.period u = P →
    (l.view mp.name mp.budget.period u).peers.at0 ns = v

theorem PeersInView.step {l l' : LedgerState} {e : LedgerEvent} (h : PeersInView mp P ns v l)
    (hin : LedgerIn (0 ≤ ·) mp P l) (hs : SameScheme mp.name mp.budget.period l e)
    (he : foldsPeers mp.name e = false) (hst : ledgerStep l e = some l') :
    PeersInView mp P ns v l' := by
  intro u hu hkey
  rw [(step_reads hin.books.coherent hs hst hu).peers he]
  exact h u ((step_now_le hst).trans hu) hkey

theorem ProcessStep.peers (hstep : ProcessStep mp s e i p p') (h : Tracked mp P p)
    (hguard : rendersAll mp P s e = true) (hfold : foldsAt i e = false)
    (hpeers : PeersInView mp P ns v p.ledger) : PeersInView mp P ns v p'.ledger := by
  cases hstep with
  | same | stops => exact hpeers
  | acts _ hrun hl =>
    cases hl with
    | @request e _ hst hnone =>
      refine hpeers.step h.ledger (fits_of_rendersAll hguard p.ledger).scheme ?_ hst
      cases e <;> first | rfl | exact hnone
    | snapshot hst =>
      obtain ⟨q, -, rfl⟩ := snapshot_eq_some hst
      exact hpeers
    | read => exact hpeers
    | fold hst => simp [foldsAt] at hfold
  | applies t q hrun hq heq =>
    exact hpeers.step (e := .markPublished mp.name t) h.ledger trivial rfl rfl

theorem peers_of_fold {j : Nat} {now : Time} {clock : Clock} {f : PendingFold}
    (hguard : rendersAll mp P s (.fold i j now clock) = true) (hi : s.procs[i]? = some p)
    (hf : p.folding[j]? = some f) (hst : exchangeStep mp s (.fold i j now clock) = some s') :
    ∃ p', s'.procs[i]? = some p' ∧
      PeersInView mp P ns ((f.peers p.pod P).at0 ns) p'.ledger := by
  obtain ⟨p₁, p', hp₁, -, hfold, rfl⟩ := act_eq_some hst
  cases hi.symm.trans hp₁
  refine ⟨p', List.getElem?_set_self (List.getElem?_eq_some_iff.mp hi).1, fun u _ hkey => ?_⟩
  obtain ⟨f', l, hf', hl, rfl⟩ := fold_eq_some hfold
  cases hf.symm.trans hf'
  have hin := ((Bool.and_eq_true _ _).mp hguard).1
  simp only [onePeriod, Bool.and_eq_true, decide_eq_true_eq] at hin
  have hstart := key_of_clockWithin hin.2 le_rfl clock.t0_within.2
  rw [peers_fold hl (hkey.trans hstart.symm), hin.1]

/-- A replica whose last fold found everything published has in view what the others
published. -/
theorem Quiescent.peers_of_folds (h : Quiescent mp P s)
    (hfolds : FoldsIn mp (afterLast mp P) s s' i es) (hi : s'.procs[i]? = some p)
    (hlive : s'.isLive P p = true) :
    PeersInView mp P ns (s'.contributions P ns - p.contribution P ns) p.ledger := by
  cases hfolds with
  | @mk a b c j now clock mid before q p₁ f hmid hq hbefore hp hf hdata hfold hlast =>
    have hmidq := (h.run hmid i ns).1
    obtain ⟨hquiet, hstill⟩ := hmidq.run hbefore i ns
    have hend := (hquiet.run hfold i ns).2
    -- the amounts are those of the ConfigMap that was read
    obtain ⟨p₂, hp₂, hpod, hsame⟩ := hstill.proc q hq
    cases hp.symm.trans hp₂
    obtain ⟨p₃, hp₃, -, hsame'⟩ := hend.proc p₁ hp
    cases hi.symm.trans hp₃
    rw [hend.sum, hstill.sum, hsame', hsame]
    have hliveq : mid.isLive P q = true := hmidq.tallied.isLive_of_run hbefore hq hp
      (hquiet.tallied.isLive_of_run hfold hp hi hlive)
    rw [← hmidq.tallied.peers (List.mem_of_getElem? hq) hliveq hdata, ← hpod]
    cases hfold with
    | cons hguard hst hrest =>
      obtain ⟨p₄, hp₄, hview⟩ := peers_of_fold (rendersAll_of_afterLast hguard) hp hf hst
      have hnext := hquiet.step hguard (move_of_step hst)
      obtain ⟨-, p₅, hp₅, hview₅⟩ := (hrest.restrict hlast).invariant
        (I := fun x => Tallied mp P x ∧ ∃ p, x.procs[i]? = some p ∧
          PeersInView mp P ns ((f.peers p₁.pod P).at0 ns) p.ledger)
        (fun x e x' hx hg hst => by
          obtain ⟨hx, p, hp, hview⟩ := hx
          have hmove := move_of_step hst
          have hrenders := rendersAll_of_afterLast hg.1
          obtain ⟨p', hp', hstep⟩ := exists_of_move hmove hp
          exact ⟨hx.step hrenders hmove, p', hp', hstep.peers
            (hx.order.procs p (List.mem_of_getElem? hp)) hrenders hg.2 hview⟩)
        ⟨hnext.tallied, p₄, hp₄, hview⟩
      cases hi.symm.trans hp₅
      exact hview₅

theorem sum_eraseIdx (f : Process → ℚ) (hi : s.procs[i]? = some p) :
    ((s.procs.eraseIdx i).map f).sum = (s.procs.map f).sum - f p := by
  obtain ⟨hlt, rfl⟩ := List.getElem?_eq_some_iff.mp hi
  have hsum := List.CommMonoid.add_sum_eraseIdx (l := s.procs.map f) (i := i) (by simpa using hlt)
  rw [List.getElem_map, List.eraseIdx_map] at hsum
  exact eq_sub_of_add_eq' hsum

/-- The replicas converge: if after the last spend every live replica publishes and
then every live replica folds, each one has in view its own exact spend and what
every other process published, to the cent, which is what that process published
last, as long as every counter that is published can be read back. -/
theorem replicas_converge {s₀ s₁ s₂ s₃ : Exchange} {publishing folding : List ExchangeEvent}
    (hs : s₀.Initial mp P)
    (hrun : SpendThenSettle mp P (rendersAll mp P) s₀ s₁ s₂ s₃ publishing folding)
    (hi : s₃.procs[i]? = some p) (hlive : s₃.isLive P p = true) {u : Time}
    (hu : p.ledger.now ≤ u) (hkey : periodKey mp.budget.period u = P) (ns : String) :
    (p.ledger.view mp.name mp.budget.period u).spent ns = spentBy mp P p.ledger ns +
      ((s₃.procs.eraseIdx i).map fun q => q.published P ns).sum ∧
    ∀ q ∈ s₃.procs, q.published P ns = q.contribution P ns := by
  obtain ⟨es, hspends⟩ := hrun.spends
  have h₁ := hs.tallied.run hspends
  have h₂ : Tallied mp P s₂ := h₁.run (hrun.publishes.weaken fun _ _ => rendersAll_of_afterLast)
  have hquiet : Quiescent mp P s₂ := by
    refine ⟨h₂, fun j q hj hlivej => ?_⟩
    rcases hrun.published j q hj hlivej with hpub | hnone
    · exact upToDate_of_publish h₁ hrun.publishes hpub hj
    · exact (h₂.order.procs q (List.mem_of_getElem? hj)).upToDate hnone
  have h₃ := (hquiet.run hrun.folds i ns).1.tallied
  have hpublished : ∀ q ∈ s₃.procs, q.published P ns = q.contribution P ns :=
    fun q hq => (h₃.order.procs q hq).published ns
  have hpeers : PeersInView mp P ns _ p.ledger :=
    hquiet.peers_of_folds (hrun.folded i p hi hlive) hi hlive
  refine ⟨?_, hpublished⟩
  rw [ProviderLedger.spent, (h₃.order.procs p (List.mem_of_getElem? hi)).ledger.own_view hu hkey,
    hpeers u hu hkey, sum_eraseIdx _ hi, hpublished p (List.mem_of_getElem? hi)]
  congr 2
  exact congrArg List.sum (List.map_congr_left fun q hq => (hpublished q hq).symm)

theorem FoldsIn.of_read {check : Exchange → ExchangeEvent → Bool} {a c : List ExchangeEvent}
    {j : Nat} {now : Time} {clock : Clock} {mid before : Exchange}
    (hmid : Run (exchangeStep mp) (fun s e => check s e = true) s a mid)
    (hread : Run (exchangeStep mp) (fun s e => check s e = true) mid [.read i] before)
    (hj : (mid.procs[i]?).map (·.folding.length) = some j)
    (hfold : Run (exchangeStep mp) (fun s e => check s e = true) before
      (.fold i j now clock :: c) s') (hlast : ∀ e ∈ c, foldsAt i e = false) :
    FoldsIn mp check s s' i (a ++ ([.read i] ++ .fold i j now clock :: c)) := by
  have hcopy := hread
  cases hread with
  | cons hguard hst hnil =>
    cases hnil
    obtain ⟨q, q', hq, -, hq', rfl⟩ := act_eq_some hst
    rw [hq, Option.map_some, Option.some.injEq] at hj
    cases hq'
    refine .mk (f := ⟨mid.configMap, mid.published⟩) hmid hq hcopy
      (List.getElem?_set_self (List.getElem?_eq_some_iff.mp hq).1) ?_ rfl hfold hlast
    simp [← hj]

/-! ### Two replicas -/

/-- A second replica starts, and the first one spends in a namespace and in `team`. -/
def spendsIn (ns : String) : List ExchangeEvent :=
  [.start "gw-1" (.still 0), .request 0 (.add capped ns "agent/a" 2 (.still 0)),
    .request 0 (.add capped "team" "agent/a" (5 / 3) (.still 0))]

def publishOne : List ExchangeEvent := [.snapshot 0 0, .apply 0]

def foldBoth : List ExchangeEvent :=
  [.read 0, .fold 0 0 0 (.still 0), .read 1, .fold 1 0 0 (.still 0)]

/-- The states of such a run. -/
def spendsTo (check : Exchange → ExchangeEvent → Bool) (ns : String) : Exchange :=
  after check oneReplica (spendsIn ns)

def publishesTo (check : Exchange → ExchangeEvent → Bool) (ns : String) : Exchange :=
  after (fun s e => check s e && isFree e) (spendsTo check ns) publishOne

def foldsTo (check : Exchange → ExchangeEvent → Bool) (ns : String) : Exchange :=
  after (fun s e => check s e && isFree e) (publishesTo check ns) foldBoth

/-- The run goes through; the second replica has nothing to publish, and no fold is
under way when a replica reads. -/
def goesThrough (check : Exchange → ExchangeEvent → Bool) (ns : String) : Bool :=
  (exec (guarded check (exchangeStep capped)) oneReplica (spendsIn ns)).isSome &&
  (exec (guarded (fun s e => check s e && isFree e) (exchangeStep capped)) (spendsTo check ns)
    publishOne).isSome &&
  (exec (guarded (fun s e => check s e && isFree e) (exchangeStep capped)) (publishesTo check ns)
    foldBoth).isSome &&
  ((publishesTo check ns).procs.map fun p => (p.ledger.ledger.ownPartial capped.name).isNone) =
    [false, true] &&
  (foldsTo check ns).procs.length = 2 &&
  ((publishesTo check ns).procs[0]?).map (·.folding.length) = some 0 &&
  ((exec (exchangeStep capped) (publishesTo check ns) (foldBoth.take 2)).map fun s =>
    (s.procs[1]?).map (·.folding.length)) = some (some 0)

theorem settles_of_goesThrough {check : Exchange → ExchangeEvent → Bool}
    (h : goesThrough check ns = true) :
    SpendThenSettle capped month check oneReplica (spendsTo check ns) (publishesTo check ns)
      (foldsTo check ns) publishOne foldBoth := by
  simp only [goesThrough, Bool.and_eq_true, decide_eq_true_eq] at h
  obtain ⟨⟨⟨⟨⟨⟨hspends, hpublishes⟩, hfolds⟩, hsilent⟩, hlength⟩, hzero⟩, hone⟩ := h
  have hrun := run_getD hfolds
  refine ⟨⟨_, run_getD hspends⟩, run_getD hpublishes, fun i p hi _ => ?_, hrun,
    fun i p hi _ => ?_⟩
  · match i with
    | 0 => exact .inl ⟨[], [], [], 0, rfl⟩
    | 1 =>
      have hlast := congrArg (·[1]?) hsilent
      simp only [List.getElem?_map, hi, Option.map_some] at hlast
      exact .inr (Option.isNone_iff_eq_none.mp (Option.some.inj hlast))
    | n + 2 =>
      have hnone := congrArg (·[n + 2]?) hsilent
      simp [List.getElem?_map, hi] at hnone
  · match i with
    | 0 =>
      obtain ⟨mid, hread, hrest⟩ := hrun.split [ExchangeEvent.read 0]
      exact .of_read (a := []) (.nil _) hread hzero hrest fun e he => by
        simp only [List.mem_cons, List.not_mem_nil, or_false] at he
        rcases he with rfl | rfl <;> rfl
    | 1 =>
      obtain ⟨mid, hfirst, hrest⟩ := hrun.split (foldBoth.take 2)
      obtain ⟨before, hread, hrest⟩ := hrest.split [ExchangeEvent.read 1]
      rw [exec_of_run hfirst, Option.map_some, Option.some.injEq] at hone
      exact .of_read hfirst hread hone hrest fun e he => by cases he
    | n + 2 =>
      have hlt := (List.getElem?_eq_some_iff.mp hi).1
      omega

theorem replicas_converge_two :
    goesThrough (rendersAll capped month) "infra" = true ∧
    ∃ p, (foldsTo (rendersAll capped month) "infra").procs[1]? = some p ∧
      (p.ledger.view capped.name capped.budget.period 0).spent "team" =
        spentBy capped month p.ledger "team" +
          (((foldsTo (rendersAll capped month) "infra").procs.eraseIdx 1).map fun q =>
            q.published month "team").sum := by
  have hgoes : goesThrough (rendersAll capped month) "infra" = true := by decide +kernel
  have hsome : (((foldsTo (rendersAll capped month) "infra").procs[1]?).filter fun p =>
      (foldsTo (rendersAll capped month) "infra").isLive month p &&
        decide (p.ledger.now ≤ 0)).isSome = true := by decide +kernel
  obtain ⟨p, hp⟩ := Option.isSome_iff_exists.mp hsome
  obtain ⟨hi, hlive⟩ := Option.filter_eq_some_iff.mp hp
  obtain ⟨hlive, hnow⟩ := (Bool.and_eq_true _ _).mp hlive
  exact ⟨hgoes, p, hi, (replicas_converge oneReplica_initial (settles_of_goesThrough hgoes) hi hlive
    (of_decide_eq_true hnow) rfl "team").1⟩

/-- The first replica spends 2 USD in a namespace named `period` and 1.67 USD in
`team`, and publishes both; the second one folds and sees nothing. -/
theorem period_namespace_unseen :
    oneReplica.Initial capped month ∧
    SpendThenSettle capped month (onePeriod capped month) oneReplica
      (spendsTo (onePeriod capped month) "period") (publishesTo (onePeriod capped month) "period")
      (foldsTo (onePeriod capped month) "period") publishOne foldBoth ∧
    ((foldsTo (onePeriod capped month) "period").procs.map fun p =>
      ((foldsTo (onePeriod capped month) "period").isLive month p,
        spentBy capped month p.ledger "team", p.published month "team",
        (p.ledger.view capped.name capped.budget.period 0).spent "team")) =
      [(true, 5 / 3, 167 / 100, 5 / 3), (true, 0, 0, 0)] :=
  ⟨oneReplica_initial, settles_of_goesThrough (by decide +kernel), by decide +kernel⟩

end Kaalm.Controller
