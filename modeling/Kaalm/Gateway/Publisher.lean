/-
  Gateway/Publisher.lean --- one replica, its publisher and the fail-closed check
  (`internal/gateway/budget.go`: `Run`, `tick`, `publish`, `fold`).

  WHAT A STEP IS.  For a provider a tick is: read the clock, copy the counters, apply
  them, mark them published, read the ConfigMap, fold it; a kick runs the publish half
  alone.  Between any two of these steps the ledger may take any number of operations,
  the watch's folds included.

  THE GHOSTS.  When each cost landed, the last copy that was applied, with the number
  of costs that had landed when it was made, and the reading of the fold that ended the
  last tick all of whose calls succeeded.

  WHAT IS LEFT OUT.  The workload half of the exchange: it touches neither the
  counters nor the signals of the enforcement view.
-/
import Kaalm.Gateway.Partials
import Kaalm.Gateway.Slots
import Kaalm.Gateway.Staleness

namespace Kaalm.Gateway

open Kaalm.Foundation

/-! ## The state -/

/-- What `OwnPartial` returned. -/
structure Copy where
  value : BudgetPartial
  /-- ghost: the number of costs that had landed -/
  included : Nat

/-- Where the publishing goroutine is; `tick` when a fold follows the publish. -/
inductive PublishPhase where
  | idle
  | started (tick : Bool) (snapshot : Time)
  | copied (tick : Bool) (snapshot : Time) (copy : Copy)
  | written (tick : Bool) (snapshot : Time) (copy : Copy)
  /-- the publish of a tick has returned; `ok` when none of its calls failed -/
  | reading (ok : Bool)
  /-- the ConfigMap was read, none when there was none -/
  | read (ok : Bool) (data : Option (GoMap String RawValue))

structure Replica where
  books : LedgerState
  phase : PublishPhase
  /-- ghost: when each cost landed -/
  landedAt : List Time
  /-- ghost: the last copy that was applied -/
  published : Option Copy
  /-- ghost: when the last tick in which every call succeeded folded its read -/
  recovered : Option Time

def Replica.initial (now : Time) : Replica where
  books := .initial now
  phase := .idle
  landedAt := []
  published := none
  recovered := none

/-! ## Steps -/

inductive ReplicaEvent where
  | operate (e : LedgerEvent)
  | start (tick : Bool) (now : Time)
  | copy
  | write (ok : Bool)
  | mark
  /-- the answer to the read: none when it failed, `some none` for a 404 -/
  | get (answer : Option (Option (GoMap String RawValue)))
  | fold (now : Time) (clock : Clock)

/-- Marking this provider published is a step of the publisher. -/
def marks (mp : ModelProvider) : LedgerEvent → Bool
  | .markPublished n _ => n = mp.name
  | _ => false

def PublishPhase.after (tick ok : Bool) : PublishPhase := if tick then .reading ok else .idle

def Replica.operate (r : Replica) (e : LedgerEvent) : Option Replica :=
  (ledgerStep r.books e).map fun s => { r with
    books := s
    landedAt := r.landedAt ++
      List.replicate (s.landed.length - r.books.landed.length) e.landsAt }

def peersOf (data : Option (GoMap String RawValue)) (pod currentPeriod : String) : GoMap String ℚ :=
  data.elim ∅ fun data => foldPartials data pod currentPeriod

def replicaStep (mp : ModelProvider) (pod : String) (r : Replica) : ReplicaEvent → Option Replica
  | .operate e => if marks mp e then none else r.operate e
  | .start tick now =>
    match r.phase with
    | .idle =>
      -- a tick skips a provider without a budget period
      if r.books.now ≤ now ∧ (tick → periodKey mp.budget.period now ≠ "") then
        some { r with
          books := { r.books with now := now }, phase := .started tick now }
      else none
    | _ => none
  | .copy =>
    match r.phase with
    | .started tick snapshot =>
      match r.books.ledger.ownPartial mp.name with
      | none => some { r with phase := .after tick true }
      | some q =>
        some { r with phase := .copied tick snapshot ⟨q, r.books.landed.length⟩ }
    | _ => none
  | .write ok =>
    match r.phase with
    | .copied tick snapshot copy =>
      if ok then some { r with phase := .written tick snapshot copy, published := some copy }
      else some { r with phase := .after tick false }
    | _ => none
  | .mark =>
    match r.phase with
    | .written tick snapshot _ =>
      (r.operate (.markPublished mp.name snapshot)).map fun r' =>
        { r' with phase := .after tick true }
    | _ => none
  | .get answer =>
    match r.phase with
    | .reading ok =>
      match answer with
      | none => some { r with phase := .idle }
      | some data => some { r with phase := .read ok data }
    | _ => none
  | .fold now clock =>
    match r.phase with
    | .read ok data =>
      if r.books.now ≤ now ∧ now ≤ clock.t0 then
        (r.operate (.foldPeers mp (peersOf data pod (periodKey mp.budget.period now))
          clock)).map fun r' =>
          { r' with
            phase := .idle, recovered := if ok then some clock.t1 else r.recovered }
      else none
    | _ => none

/-! ## What a step is -/

/-- Every step is an operation on the ledger or moves the publisher alone. -/
inductive ReplicaMove (mp : ModelProvider) (pod : String) (r : Replica) :
    ReplicaEvent → Replica → Prop
  | operate (e : LedgerEvent) (r' : Replica) (he : marks mp e = false)
      (h : r.operate e = some r') : ReplicaMove mp pod r (.operate e) r'
  | start (tick : Bool) (now : Time) (hphase : r.phase = .idle) (hnow : r.books.now ≤ now) :
      ReplicaMove mp pod r (.start tick now)
        { r with books := { r.books with now := now }, phase := .started tick now }
  | nothing (tick : Bool) (snapshot : Time) (hphase : r.phase = .started tick snapshot)
      (hq : r.books.ledger.ownPartial mp.name = none) :
      ReplicaMove mp pod r .copy { r with phase := .after tick true }
  | copied (tick : Bool) (snapshot : Time) (q : BudgetPartial)
      (hphase : r.phase = .started tick snapshot)
      (hq : r.books.ledger.ownPartial mp.name = some q) :
      ReplicaMove mp pod r .copy
        { r with phase := .copied tick snapshot ⟨q, r.books.landed.length⟩ }
  | written (tick : Bool) (snapshot : Time) (copy : Copy)
      (hphase : r.phase = .copied tick snapshot copy) :
      ReplicaMove mp pod r (.write true)
        { r with phase := .written tick snapshot copy, published := some copy }
  | failed (tick : Bool) (snapshot : Time) (copy : Copy)
      (hphase : r.phase = .copied tick snapshot copy) :
      ReplicaMove mp pod r (.write false) { r with phase := .after tick false }
  | marked (tick : Bool) (snapshot : Time) (copy : Copy) (r' : Replica)
      (hphase : r.phase = .written tick snapshot copy)
      (h : r.operate (.markPublished mp.name snapshot) = some r') :
      ReplicaMove mp pod r .mark { r' with phase := .after tick true }
  | gone (ok : Bool) (hphase : r.phase = .reading ok) :
      ReplicaMove mp pod r (.get none) { r with phase := .idle }
  | got (ok : Bool) (data : Option (GoMap String RawValue)) (hphase : r.phase = .reading ok) :
      ReplicaMove mp pod r (.get (some data)) { r with phase := .read ok data }
  | folded (ok : Bool) (data : Option (GoMap String RawValue)) (now : Time) (clock : Clock)
      (r' : Replica) (hphase : r.phase = .read ok data)
      (h : r.operate (.foldPeers mp (peersOf data pod (periodKey mp.budget.period now)) clock) =
        some r') :
      ReplicaMove mp pod r (.fold now clock)
        { r' with phase := .idle, recovered := if ok then some clock.t1 else r.recovered }

theorem replicaMove_of_step {mp : ModelProvider} {pod : String} {r r' : Replica}
    {e : ReplicaEvent} (hst : replicaStep mp pod r e = some r') : ReplicaMove mp pod r e r' := by
  cases e with
  | operate e =>
    simp only [replicaStep] at hst
    split at hst
    · cases hst
    · next he => exact .operate e r' (by simpa using he) hst
  | start tick now =>
    simp only [replicaStep] at hst
    split at hst
    · next hphase =>
      split_ifs at hst with h
      cases hst
      exact .start tick now hphase h.1
    · cases hst
  | copy =>
    simp only [replicaStep] at hst
    split at hst
    · next tick snapshot hphase =>
      split at hst
      · next hq =>
        cases hst
        exact .nothing tick snapshot hphase hq
      · next q hq =>
        cases hst
        exact .copied tick snapshot q hphase hq
    · cases hst
  | write ok =>
    simp only [replicaStep] at hst
    split at hst
    · next tick snapshot copy hphase =>
      cases ok with
      | true => cases hst; exact .written tick snapshot copy hphase
      | false => cases hst; exact .failed tick snapshot copy hphase
    · cases hst
  | mark =>
    simp only [replicaStep] at hst
    split at hst
    · next tick snapshot copy hphase =>
      obtain ⟨mid, hmid, rfl⟩ := Option.map_eq_some_iff.mp hst
      exact .marked tick snapshot copy mid hphase hmid
    · cases hst
  | get answer =>
    simp only [replicaStep] at hst
    split at hst
    · next ok hphase =>
      cases answer with
      | none => cases hst; exact .gone ok hphase
      | some data => cases hst; exact .got ok data hphase
    · cases hst
  | fold now clock =>
    simp only [replicaStep] at hst
    split at hst
    · next ok data hphase =>
      split at hst
      · obtain ⟨mid, hmid, rfl⟩ := Option.map_eq_some_iff.mp hst
        exact .folded ok data now clock mid hphase hmid
      · cases hst
    · cases hst

/-- The replica once an operation has taken its books to `s`. -/
def Replica.moved (r : Replica) (e : LedgerEvent) (s : LedgerState) : Replica :=
  { r with
    books := s
    landedAt := r.landedAt ++
      List.replicate (s.landed.length - r.books.landed.length) e.landsAt }

theorem operate_eq_some {r r' : Replica} {e : LedgerEvent} (h : r.operate e = some r') :
    ∃ s, ledgerStep r.books e = some s ∧ r.moved e s = r' :=
  Option.map_eq_some_iff.mp h

/-! ## Recovery -/

/-- The write-path signal is no older than a reading. -/
def DirtyFrom (t : Time) (g : Signals) : Prop := ∀ d, g.dirtySince = some d → t ≤ d

/-- The peer view was refreshed at or after a reading. -/
def FoldedFrom (t : Time) (g : Signals) : Prop := ∃ f, g.lastFoldOK = some f ∧ t ≤ f

/-- The reading of a tick that has not returned from its publish. -/
def PublishPhase.publishing? : PublishPhase → Option Time
  | .started true t | .copied true t _ | .written true t _ => some t
  | _ => none

/-- Past its publish, in a tick that has not failed so far. -/
def PublishPhase.succeeding : PublishPhase → Bool
  | .reading ok | .read ok _ => ok
  | _ => false

/-- The step lands a cost of provider `n`. -/
def lands (n : String) (s : LedgerState) (e : LedgerEvent) : Bool :=
  (ledgerStep s e).any fun s' => (s'.landed.drop s.landed.length).any fun x => x.provider = n

/-- The condition on a tick: its copy finds something to publish or no mark, and no
cost of the provider lands between its clock reading and its fold. -/
def tickClears (n : String) (r : Replica) : ReplicaEvent → Bool
  | .copy => r.phase.publishing?.isNone || (r.books.ledger.ownPartial n).isSome ||
      (r.books.ledger.signals n).dirtySince.isNone
  | .operate e => !(r.phase.publishing?.isSome || r.phase.succeeding) || !lands n r.books e
  | _ => true

/-- What the recovery of a replica rests on: until its publish a tick is later than
the mark, after it there is none. -/
structure Recovering (n : String) (r : Replica) : Prop where
  dirty : ∀ d, (r.books.ledger.signals n).dirtySince = some d → d ≤ r.books.now
  publishing : ∀ t, r.phase.publishing? = some t → ∀ d,
    (r.books.ledger.signals n).dirtySince = some d → d ≤ t
  succeeding : r.phase.succeeding = true → ∀ d, (r.books.ledger.signals n).dirtySince ≠ some d
  recovered : ∀ t, r.recovered = some t → t ≤ r.books.now ∧
    DirtyFrom t (r.books.ledger.signals n) ∧ FoldedFrom t (r.books.ledger.signals n)

section Recovery

variable {n : String} {s s' : LedgerState} {e : LedgerEvent} {t : Time}

theorem dirty_step (hst : ledgerStep s e = some s') {d : Time}
    (hd : (s'.ledger.signals n).dirtySince = some d) :
    (s.ledger.signals n).dirtySince = some d ∨
      lands n s e = true ∧ s.now ≤ d ∧ d ≤ s'.now := by
  cases step_signals n hst with
  | quiet extra hland hextra hsignals =>
    rw [hsignals] at hd
    exact .inl hd
  | dirtied x hx hland hread hsignals =>
    rw [hsignals] at hd
    cases hold : (s.ledger.signals n).dirtySince with
    | none =>
      simp only [Signals.dirtied, hold, Option.getD_none, Option.some.injEq] at hd
      have hlands : lands n s e = true := by simp [lands, hst, hland, hx]
      rw [← hd]
      exact .inr ⟨hlands, hread⟩
    | some d' =>
      simp only [Signals.dirtied, hold, Option.getD_some] at hd
      exact .inl hd
  | published snapshot he hland hsignals =>
    rw [hsignals, Signals.published] at hd
    split_ifs at hd
    exact .inl hd
  | refreshed provider peers clock he hn hland hread hsignals =>
    rw [hsignals] at hd
    exact .inl hd

theorem foldedFrom_step (hst : ledgerStep s e = some s') (ht : t ≤ s.now)
    (h : FoldedFrom t (s.ledger.signals n)) : FoldedFrom t (s'.ledger.signals n) := by
  cases step_signals n hst with
  | quiet extra hland hextra hsignals => rwa [hsignals]
  | dirtied x hx hland hread hsignals =>
    rw [hsignals]
    exact h
  | published snapshot he hland hsignals =>
    rw [hsignals]
    unfold Signals.published
    split_ifs <;> exact h
  | refreshed provider peers clock he hn hland hread hsignals =>
    rw [hsignals]
    exact ⟨clock.t1, rfl, ht.trans hread.1⟩

theorem Recovering.operate {r r' : Replica} (h : Recovering n r)
    (hquiet : r.phase.publishing?.isSome ∨ r.phase.succeeding = true →
      lands n r.books e = false) (hop : r.operate e = some r') : Recovering n r' := by
  obtain ⟨s', hst, rfl⟩ := operate_eq_some hop
  have hnow : r.books.now ≤ s'.now := step_now_le hst
  have hold : r.phase.publishing?.isSome ∨ r.phase.succeeding = true → ∀ d,
      (s'.ledger.signals n).dirtySince = some d →
        (r.books.ledger.signals n).dirtySince = some d := fun htick d hd =>
    (dirty_step hst hd).resolve_right fun hland => by
      rw [hquiet htick] at hland
      cases hland.1
  refine ⟨fun d hd => ?_, fun t ht d hd => ?_, fun hok d hd => ?_, fun t ht => ?_⟩
  · rcases dirty_step hst hd with hd | ⟨-, -, hle⟩
    · exact (h.dirty d hd).trans hnow
    · exact hle
  · have htick : r.phase.publishing?.isSome := Option.isSome_of_mem ht
    exact h.publishing t ht d (hold (.inl htick) d hd)
  · exact h.succeeding hok d (hold (.inr hok) d hd)
  · obtain ⟨hle, hdirty, hfold⟩ := h.recovered t ht
    refine ⟨hle.trans hnow, fun d hd => ?_, foldedFrom_step hst hle hfold⟩
    rcases dirty_step hst hd with hd | ⟨-, hge, -⟩
    · exact hdirty d hd
    · exact hle.trans hge

theorem Recovering.phase {r : Replica} (h : Recovering n r) {phase : PublishPhase}
    (published : Option Copy)
    (hpub : ∀ t, phase.publishing? = some t → r.phase.publishing? = some t)
    (hok : phase.succeeding = true → ∀ d, (r.books.ledger.signals n).dirtySince ≠ some d) :
    Recovering n { r with phase := phase, published := published } :=
  ⟨h.dirty, fun t ht => h.publishing t (hpub t ht), hok, h.recovered⟩

theorem publishing_after (tick ok : Bool) : (PublishPhase.after tick ok).publishing? = none := by
  cases tick <;> rfl

theorem succeeding_after {tick ok : Bool} (h : (PublishPhase.after tick ok).succeeding = true) :
    tick = true ∧ ok = true := by
  cases tick with
  | true => exact ⟨rfl, h⟩
  | false => cases h

theorem lands_markPublished (m : String) (snapshot : Time) :
    lands n s (.markPublished m snapshot) = false := by
  simp [lands, ledgerStep, LedgerState.apply, LedgerEvent.clock?]

theorem recovering_step {mp : ModelProvider} {pod : String} {r r' : Replica} {e : ReplicaEvent}
    (h : Recovering mp.name r) (hg : tickClears mp.name r e = true)
    (hst : replicaStep mp pod r e = some r') : Recovering mp.name r' := by
  cases replicaMove_of_step hst with
  | operate e r' he hop =>
    refine h.operate (fun htick => ?_) hop
    rw [← Bool.or_eq_true] at htick
    simpa [tickClears, htick] using hg
  | start tick now hphase hnow =>
    refine ⟨fun d hd => (h.dirty d hd).trans hnow, fun t ht d hd => ?_, nofun, fun t ht => ?_⟩
    · cases tick with
      | true =>
        rw [← Option.some.inj ht]
        exact (h.dirty d hd).trans hnow
      | false => cases ht
    · obtain ⟨hle, hsignals⟩ := h.recovered t ht
      exact ⟨hle.trans hnow, hsignals⟩
  | nothing tick snapshot hphase hq =>
    refine h.phase _ (fun t ht => by simp [publishing_after] at ht) fun hok d hd => ?_
    obtain ⟨rfl, -⟩ := succeeding_after hok
    simp [tickClears, hphase, hq, hd, PublishPhase.publishing?] at hg
  | copied tick snapshot q hphase hq | written tick snapshot copy hphase =>
    refine h.phase _ (fun t ht => ?_) nofun
    rw [hphase]
    cases tick <;> exact ht
  | failed tick snapshot copy hphase =>
    refine h.phase _ (fun t ht => by simp [publishing_after] at ht) fun hok => ?_
    cases (succeeding_after hok).2
  | marked tick snapshot copy mid hphase hop =>
    have hmid := h.operate (fun _ => lands_markPublished mp.name snapshot) hop
    refine hmid.phase _ (fun t ht => by simp [publishing_after] at ht) fun hok d hd => ?_
    obtain ⟨rfl, -⟩ := succeeding_after hok
    obtain ⟨s', hs', rfl⟩ := operate_eq_some hop
    cases hs'
    -- the mark that would stand is not later than the reading: it is cleared
    simp only [Replica.moved, r.books.ledger.markPublished_signals, if_true,
      Signals.published] at hd
    split_ifs at hd with hold
    refine hold ?_
    rw [hd, Option.any_some, decide_eq_true_eq]
    exact h.publishing snapshot (by rw [hphase]; rfl) d hd
  | gone ok hphase => exact h.phase _ nofun nofun
  | got ok data hphase =>
    refine h.phase _ nofun fun hok => h.succeeding ?_
    rw [hphase]
    exact hok
  | folded ok data now clock mid hphase hop =>
    obtain ⟨s', hs', rfl⟩ := operate_eq_some hop
    have hread := step_reading rfl hs'
    obtain ⟨-, rfl⟩ := step_applied rfl rfl hs'
    have hmid := h.operate (fun _ => by simp [lands, hs']) hop
    refine ⟨hmid.dirty, nofun, nofun, fun t ht => ?_⟩
    cases ok with
    | false => exact hmid.recovered t ht
    | true =>
      cases ht
      have hclean := hmid.succeeding (by simp only [Replica.moved, hphase]; rfl)
      refine ⟨hread.2 ▸ clock.t1_within.2, fun d hd => absurd hd (hclean d), clock.t1, ?_, le_rfl⟩
      dsimp only [Replica.moved]
      rw [r.books.ledger.foldPeers_signals, if_pos rfl]
      rfl

theorem fresh_of_signals {b : BudgetLedger} {l : ProviderLedger} {now : Time}
    (hdirty : DirtyFrom t l.signals) (hfold : FoldedFrom t l.signals)
    (hnow : now ≤ t + b.stalenessWindow) : b.fresh l now = true := by
  obtain ⟨f, hf, htf⟩ := hfold
  have hf' : l.lastFoldOK = some f := hf
  have hwindow : ∀ u : Time, t ≤ u → now - u ≤ b.stalenessWindow := fun u hu =>
    sub_le_iff_le_add'.mpr (hnow.trans (add_le_add_left hu _))
  unfold BudgetLedger.fresh
  rw [hf']
  cases hd : l.dirtySince with
  | none => simp only [Bool.true_and, decide_eq_true_eq, hwindow f htf]
  | some d =>
    simp only [Bool.and_eq_true, decide_eq_true_eq]
    exact ⟨hwindow d (hdirty d hd), hwindow f htf⟩

theorem available_of_fresh {b : BudgetLedger} {provider : ModelProvider} (ns workload : String)
    {clock : Clock} (wall : Time)
    (hfresh : b.fresh (b.ledgerFor provider.name provider.budget.period clock.t1) clock.t3 =
      true) :
    (b.admitRequest provider ns workload clock wall).decision.unavailable = false := by
  have hflags := fun u => (decideBudget_flags provider.budget u clock.t2 wall).2
  unfold BudgetLedger.admitRequest
  dsimp only
  rw [hfresh]
  split_ifs with hoff hblock hslot hout hstale
  · rfl
  · exact hflags _
  · exact hflags _
  · exact hflags _
  · cases hstale
  · exact hflags _

/-- In every run whose ticks find something to publish or no mark, with no cost landing
meanwhile, a tick whose calls all succeed restores the provider: for a staleness
window from its fold no admission is unavailable, whatever happens in between. -/
theorem tick_restores (mp : ModelProvider) (pod : String) {t₀ : Time} {r : Replica}
    {es : List ReplicaEvent}
    (hrun : Run (replicaStep mp pod) (fun r e => tickClears mp.name r e = true) (.initial t₀)
      es r)
    {t : Time} (ht : r.recovered = some t) {provider : ModelProvider}
    (hname : provider.name = mp.name) (ns workload : String) {clock : Clock}
    (hwindow : clock.t3 ≤ t + r.books.ledger.stalenessWindow) (wall : Time) :
    (r.books.ledger.admitRequest provider ns workload clock wall).decision.unavailable =
      false := by
  have hrec : Recovering mp.name r := hrun.invariant
    (fun _ _ _ h hg hst => recovering_step h hg hst) ⟨nofun, nofun, nofun, nofun⟩
  obtain ⟨-, hdirty, hfold⟩ := hrec.recovered t ht
  rw [← hname, ← r.books.ledger.ledgerFor_signals provider.name provider.budget.period clock.t1]
    at hdirty hfold
  exact available_of_fresh ns workload wall (fresh_of_signals hdirty hfold hwindow)

end Recovery

/-- Block at 100 percent of 10 USD a month. -/
def blockTen : ModelProvider := tenDollars [⟨100, .block, none⟩]

/-- The first instant of March 2026. -/
def newMonth : Time := startOfDay 739675

def lastMinute : Replica := .initial (newMonth - 60 * second)

def replicaAfter (check : Replica → ReplicaEvent → Bool) (es : List ReplicaEvent) : Replica :=
  (exec (guarded check (replicaStep blockTen "gw-0")) lastMinute es).getD lastMinute

/-- What another replica has published: 9.60 USD in that month. -/
def peerAtCap : GoMap String RawValue :=
  AList.singleton "gw-1" (.object (retiredPartial (periodKey .monthly newMonth)
    (AList.singleton "team" (48 / 5))).marshalJSON)

/-- A cost lands, and 40 s later a tick takes two seconds; every call succeeds. -/
def spendThenTick : List ReplicaEvent :=
  [.operate (.add blockTen "team" "agent/a" 1 (.still newMonth)),
    .start true (newMonth + 40 * second), .copy, .write true, .mark,
    .get (some (some peerAtCap)),
    .fold (newMonth + 42 * second) (.still (newMonth + 42 * second))]

theorem tick_restores_spending :
    (replicaAfter (tickClears "openai") spendThenTick).recovered =
      some (newMonth + 42 * second) ∧
    ((replicaAfter (tickClears "openai") spendThenTick).books.ledger.admitRequest blockTen "team"
      "agent/a" (.still (newMonth + 72 * second)) 0).decision.unavailable = false :=
  have hrecovered : (replicaAfter (tickClears "openai") spendThenTick).recovered =
      some (newMonth + 42 * second) := by decide +kernel
  ⟨hrecovered, tick_restores blockTen "gw-0" (run_getD (by decide +kernel)) hrecovered rfl
    "team" "agent/a" (by decide +kernel) 0⟩

/-- A cost lands ten seconds before the month ends and a request rolls the ledger
over; the tick finds nothing to publish. -/
def tickAfterRollover : List ReplicaEvent :=
  [.operate (.add blockTen "team" "agent/a" 1 (.still (newMonth - 10 * second))),
    .operate (.admission blockTen "team" "agent/a" (.still newMonth) newMonth),
    .start true (newMonth + 25 * second), .copy, .get (some (some peerAtCap)),
    .fold (newMonth + 25 * second) (.still (newMonth + 25 * second))]

/-- The mark of the old month outlives the rollover: the tick succeeds and the next
admission is unavailable all the same. -/
theorem rollover_leaves_unavailable :
    ∃ r, Run (replicaStep blockTen "gw-0") anyStep lastMinute tickAfterRollover r ∧
      r.recovered = some (newMonth + 25 * second) ∧
      (r.books.ledger.admitRequest blockTen "team" "agent/a"
        (.still (newMonth + 25 * second)) 0).decision.unavailable = true :=
  ⟨replicaAfter (fun _ _ => true) tickAfterRollover,
    (run_getD (by decide +kernel)).weaken fun _ _ _ => trivial,
    by decide +kernel, by decide +kernel⟩

end Kaalm.Gateway
