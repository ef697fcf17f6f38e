/-
  Gateway/PeerView.lean --- the two readers of the budget ConfigMap
  (`internal/gateway/budget.go`: `fold`; `internal/gateway/budget_informer.go`:
  `FoldBudgetConfigMapEvent`).

  WHAT A STEP IS.  The tick reads the latest version and folds it later.  The watch
  hands its handler one version after the other, as late as it likes, and the handler
  folds it later.  Both replace the peer view without comparing versions.

  THE GHOSTS.  Every version ever written, numbered from one, and the version behind
  the installed view.

  THE SCHEDULE.  `Timetable` follows the order of writes, reads, deliveries and folds
  alone, and says when one of the two readers folds what the other has passed.

  WHERE IT FAILS.  A watch event that is folded after a live read of a newer version
  puts the older view back (`late_event_reinstalls`).
-/
import Kaalm.Gateway.Publisher

namespace Kaalm.Gateway

open Kaalm.Foundation

/-! ## The state -/

structure Watching where
  books : LedgerState
  /-- the versions of the ConfigMap, oldest first -/
  versions : List (GoMap String RawValue)
  /-- the last version the watch has delivered -/
  delivered : Nat
  /-- the version the tick has read and not yet folded -/
  reading : Option Nat
  /-- the version of the event under way -/
  handling : Option Nat
  /-- ghost: the version behind the peer view -/
  installed : Nat

def dataAt (versions : List (GoMap String RawValue)) : Nat → Option (GoMap String RawValue)
  | 0 => none
  | v + 1 => versions[v]?

/-- A replica that has folded nothing yet. -/
structure Watching.Starts (w : Watching) : Prop where
  books : ∃ t, w.books = .initial t
  delivered : w.delivered ≤ w.versions.length
  reading : w.reading = none
  handling : w.handling = none
  installed : w.installed = 0

/-! ## Steps -/

inductive WatchEvent where
  | operate (e : LedgerEvent)
  | write (data : GoMap String RawValue)
  | read
  | fold (now : Time) (clock : Clock)
  | deliver (version : Nat)
  | handle (now : Time) (clock : Clock)

/-- `FoldPeers` of a version. -/
def Watching.install (mp : ModelProvider) (pod : String) (w : Watching) (version : Nat)
    (now : Time) (clock : Clock) : Option Watching :=
  if periodKey mp.budget.period now = "" ∨ now < w.books.now ∨ clock.t0 < now then none
  else
    (ledgerStep w.books (.foldPeers mp
      (peersOf (dataAt w.versions version) pod (periodKey mp.budget.period now)) clock)).map
      fun s => { w with books := s, installed := version }

def watchStep (mp : ModelProvider) (pod : String) (w : Watching) : WatchEvent → Option Watching
  | .operate e =>
    if foldsPeers mp.name e then none
    else (ledgerStep w.books e).map fun s => { w with books := s }
  | .write data => some { w with versions := w.versions ++ [data] }
  | .read =>
    if w.reading.isSome then none else some { w with reading := some w.versions.length }
  | .fold now clock =>
    match w.reading with
    | none => none
    | some version => { w with reading := none }.install mp pod version now clock
  | .deliver version =>
    if w.handling.isNone ∧ 0 < version ∧ w.delivered ≤ version ∧
        version ≤ w.versions.length then
      some { w with delivered := version, handling := some version }
    else none
  | .handle now clock =>
    match w.handling with
    | none => none
    | some version => { w with handling := none }.install mp pod version now clock

/-- The step reads the clock in the period and the provider keeps its scheme. -/
def watchedIn (mp : ModelProvider) (P : String) : WatchEvent → Bool
  | .operate e =>
    ((providerOf? e).all fun provider =>
      provider.name ≠ mp.name || provider.budget.period = mp.budget.period) &&
    e.clock?.all (clockWithin mp.budget.period P)
  | .fold now clock | .handle now clock =>
    periodKey mp.budget.period now = P && clockWithin mp.budget.period P clock
  | .write _ | .read | .deliver _ => true

/-- Where the two readers are in a schedule. -/
structure Timetable where
  /-- the versions written -/
  written : Nat
  /-- the version of the last live read of a tick -/
  read : Nat
  /-- that of the last tick that folded its read -/
  folded : Nat
  /-- the version of the last watch event -/
  event : Nat
  /-- that of the last event that was folded -/
  handled : Nat

/-- Before the first step of a replica. -/
def Watching.timetable (w : Watching) : Timetable where
  written := w.versions.length
  read := 0
  folded := 0
  event := w.delivered
  handled := 0

def Timetable.next (t : Timetable) : WatchEvent → Timetable
  | .operate _ => t
  | .write _ => { t with written := t.written + 1 }
  | .read => { t with read := t.written }
  | .fold _ _ => { t with folded := t.read }
  | .deliver version => { t with event := version }
  | .handle _ _ => { t with handled := t.event }

/-- The condition on a step: a tick does not fold its read once an event of a version
written since was folded, and no event is folded after a tick has folded a newer read. -/
def Timetable.allows (t : Timetable) : WatchEvent → Bool
  | .fold _ _ => t.handled ≤ t.read
  | .handle _ _ => t.folded ≤ t.event
  | .operate _ | .write _ | .read | .deliver _ => true

def Timetable.inTime (t : Timetable) : List WatchEvent → Bool
  | [] => true
  | e :: es => t.allows e && (t.next e).inTime es

/-- Every step is an operation that folds nothing, a write, a move of one of the two
readers or the installation of what it holds. -/
inductive WatchMove (mp : ModelProvider) (pod : String) (w : Watching) :
    WatchEvent → Watching → Prop
  | operate (e : LedgerEvent) (s : LedgerState) (he : foldsPeers mp.name e = false)
      (h : ledgerStep w.books e = some s) :
      WatchMove mp pod w (.operate e) { w with books := s }
  | write (data : GoMap String RawValue) :
      WatchMove mp pod w (.write data) { w with versions := w.versions ++ [data] }
  | read : WatchMove mp pod w .read { w with reading := some w.versions.length }
  | deliver (version : Nat) (hnext : w.delivered ≤ version)
      (hbound : version ≤ w.versions.length) :
      WatchMove mp pod w (.deliver version)
        { w with delivered := version, handling := some version }
  | install (e : WatchEvent) (version : Nat) (now : Time) (clock : Clock) (s : LedgerState)
      (reading handling : Option Nat)
      (he : e = .fold now clock ∧ w.reading = some version ∧ reading = none ∧
          handling = w.handling ∨
        e = .handle now clock ∧ w.handling = some version ∧ handling = none ∧
          reading = w.reading)
      (h : ledgerStep w.books (.foldPeers mp
        (peersOf (dataAt w.versions version) pod (periodKey mp.budget.period now)) clock) =
          some s) :
      WatchMove mp pod w e
        { w with books := s, reading := reading, handling := handling, installed := version }

variable {mp : ModelProvider} {pod : String} {w w' : Watching} {e : WatchEvent}

theorem install_eq_some {version : Nat} {now : Time} {clock : Clock}
    (h : w.install mp pod version now clock = some w') :
    ∃ s, ledgerStep w.books (.foldPeers mp
        (peersOf (dataAt w.versions version) pod (periodKey mp.budget.period now)) clock) =
          some s ∧ w' = { w with books := s, installed := version } := by
  unfold Watching.install at h
  split at h
  · cases h
  · obtain ⟨s, hs, rfl⟩ := Option.map_eq_some_iff.mp h
    exact ⟨s, hs, rfl⟩

theorem watchMove_of_step (hst : watchStep mp pod w e = some w') : WatchMove mp pod w e w' := by
  cases e with
  | operate e =>
    simp only [watchStep] at hst
    split at hst
    · cases hst
    · next he =>
      obtain ⟨s, hs, rfl⟩ := Option.map_eq_some_iff.mp hst
      exact .operate e s (by simpa using he) hs
  | write data =>
    cases hst
    exact .write data
  | read =>
    simp only [watchStep] at hst
    split at hst
    · cases hst
    · cases hst
      exact .read
  | fold now clock =>
    simp only [watchStep] at hst
    split at hst
    · cases hst
    · next version hread =>
      obtain ⟨s, hs, rfl⟩ := install_eq_some hst
      exact .install _ version now clock s none w.handling (.inl ⟨rfl, hread, rfl, rfl⟩) hs
  | deliver version =>
    simp only [watchStep] at hst
    split at hst
    · next h =>
      cases hst
      exact .deliver version h.2.2.1 h.2.2.2
    · cases hst
  | handle now clock =>
    simp only [watchStep] at hst
    split at hst
    · cases hst
    · next version hhandle =>
      obtain ⟨s, hs, rfl⟩ := install_eq_some hst
      exact .install _ version now clock s w.reading none (.inr ⟨rfl, hhandle, rfl, rfl⟩) hs

/-! ## The readers and the schedule -/

/-- The timetable of a state: each reader goes forward, and what is installed is the
last fold of one of them. -/
structure Follows (t : Timetable) (w : Watching) : Prop where
  written : t.written = w.versions.length
  reading : ∀ v, w.reading = some v → v = t.read
  handling : ∀ v, w.handling = some v → v = t.event
  event : t.event = w.delivered
  folded : t.folded ≤ t.read
  read : t.read ≤ t.written
  handled : t.handled ≤ t.event
  installed : w.installed ≤ max t.folded t.handled

theorem Watching.Starts.follows (h : w.Starts) : Follows w.timetable w where
  written := rfl
  reading v hv := by simp [h.reading] at hv
  handling v hv := by simp [h.handling] at hv
  event := rfl
  folded := le_rfl
  read := Nat.zero_le _
  handled := Nat.zero_le _
  installed := by simp [h.installed]

theorem Follows.step {t : Timetable} (h : Follows t w) (hin : t.allows e = true)
    (hst : watchStep mp pod w e = some w') :
    Follows (t.next e) w' ∧ w.installed ≤ w'.installed := by
  cases watchMove_of_step hst with
  | operate e s he hop => exact ⟨{ h with }, le_rfl⟩
  | write data =>
    exact ⟨{ h with
      written := by simp [Timetable.next, h.written]
      read := h.read.trans (Nat.le_succ _) }, le_rfl⟩
  | read =>
    exact ⟨{ h with
      reading := fun v hv => by rw [← Option.some.inj hv]; exact h.written.symm
      folded := h.folded.trans h.read
      read := le_rfl }, le_rfl⟩
  | deliver version hnext hbound =>
    exact ⟨{ h with
      handling := fun v hv => (Option.some.inj hv).symm
      event := rfl
      handled := h.handled.trans (h.event ▸ hnext) }, le_rfl⟩
  | install e version now clock s reading handling he hop =>
    rcases he with ⟨rfl, hread, rfl, rfl⟩ | ⟨rfl, hhandle, rfl, rfl⟩
    · obtain rfl := h.reading version hread
      have hin : t.handled ≤ t.read := of_decide_eq_true hin
      exact ⟨{ h with
        reading := nofun
        folded := le_rfl
        installed := le_max_left _ _ }, h.installed.trans (max_le h.folded hin)⟩
    · obtain rfl := h.handling version hhandle
      have hin : t.folded ≤ t.event := of_decide_eq_true hin
      exact ⟨{ h with
        handling := nofun
        handled := le_rfl
        installed := le_max_right _ _ }, h.installed.trans (max_le hin h.handled)⟩

theorem Follows.run {guard : Watching → WatchEvent → Prop} {es : List WatchEvent}
    {t : Timetable} (h : Follows t w) (hrun : Run (watchStep mp pod) guard w es w')
    {rest : List WatchEvent} (hin : t.inTime (es ++ rest) = true) :
    w.installed ≤ w'.installed ∧ ∃ t', Follows t' w' ∧ t'.inTime rest = true := by
  induction hrun generalizing t with
  | nil => exact ⟨le_rfl, t, h, hin⟩
  | cons _ hst _ ih =>
    obtain ⟨hallows, hin⟩ := (Bool.and_eq_true _ _).mp hin
    obtain ⟨hnext, hle⟩ := h.step hallows hst
    obtain ⟨hle', hrest⟩ := ih hnext hin
    exact ⟨hle.trans hle', hrest⟩

/-! ## The version behind the view -/

def Watching.peers (w : Watching) (mp : ModelProvider) (ns : String) : ℚ :=
  (w.books.view mp.name mp.budget.period w.books.now).peers.at0 ns

/-- Inside the period the installed version is what the view was computed from. -/
structure Exact (mp : ModelProvider) (pod P : String) (w : Watching) : Prop where
  coherent : Coherent mp.name mp.budget.period w.books
  now : periodKey mp.budget.period w.books.now = P
  reading : ∀ v, w.reading = some v → v ≤ w.versions.length
  handling : ∀ v, w.handling = some v → v ≤ w.versions.length
  installed : w.installed ≤ w.versions.length
  peers : (w.books.view mp.name mp.budget.period w.books.now).peers =
    peersOf (dataAt w.versions w.installed) pod P

variable {versions : List (GoMap String RawValue)}

theorem dataAt_append {v : Nat} (h : v ≤ versions.length) (extra : List (GoMap String RawValue)) :
    dataAt (versions ++ extra) v = dataAt versions v := by
  cases v with
  | zero => rfl
  | succ v => exact List.getElem?_append_left h

variable {P : String}

theorem Watching.Starts.exact (h : w.Starts)
    (hkey : periodKey mp.budget.period w.books.now = P) : Exact mp pod P w := by
  obtain ⟨t, ht⟩ := h.books
  refine ⟨?_, hkey, fun v hv => ?_, fun v hv => ?_, ?_, ?_⟩
  · rw [ht]
    exact coherent_initial _ _ _
  · rw [h.reading] at hv
    cases hv
  · rw [h.handling] at hv
    cases hv
  · rw [h.installed]
    exact Nat.zero_le _
  · rw [ht, h.installed]
    exact (BudgetLedger.clean_of_ne fun l hl => by
      simp [LedgerState.initial, newBudgetLedger] at hl).peers

theorem Exact.step (h : Exact mp pod P w) (hin : watchedIn mp P e = true)
    (hst : watchStep mp pod w e = some w') : Exact mp pod P w' := by
  cases watchMove_of_step hst with
  | operate e s he hop =>
    simp only [watchedIn, Bool.and_eq_true] at hin
    have hscheme := sameScheme_of_providerOf (s := w.books) hin.1
    have hnow : periodKey mp.budget.period s.now = P := by
      rcases step_now hop with heq | ⟨clock, hc, heq⟩
      · rw [heq]
        exact h.now
      · rw [heq]
        have hclock := hin.2
        rw [hc] at hclock
        exact key_of_clockWithin hclock clock.t0_within.2 le_rfl
    refine ⟨coherent_step h.coherent hscheme hop, hnow, h.reading, h.handling, h.installed, ?_⟩
    rw [(step_reads h.coherent hscheme hop le_rfl).peers he, ← h.peers]
    exact congrArg ProviderLedger.peers
      (w.books.ledger.ledgerFor_eq_of_key mp.name (hnow.trans h.now.symm))
  | write data =>
    have hgrow : w.versions.length ≤ (w.versions ++ [data]).length := by simp
    refine ⟨h.coherent, h.now, fun v hv => (h.reading v hv).trans hgrow,
      fun v hv => (h.handling v hv).trans hgrow, h.installed.trans hgrow, ?_⟩
    rw [dataAt_append h.installed]
    exact h.peers
  | read => exact { h with reading := fun v hv => (Option.some.inj hv).ge }
  | deliver version hnext hbound =>
    exact { h with handling := fun v hv => Option.some.inj hv ▸ hbound }
  | install e version now clock s reading handling he hop =>
    have hwithin : periodKey mp.budget.period now = P ∧
        clockWithin mp.budget.period P clock = true := by
      rcases he with ⟨rfl, -⟩ | ⟨rfl, -⟩ <;> simpa [watchedIn] using hin
    have hbound : version ≤ w.versions.length := by
      rcases he with ⟨-, hv, -⟩ | ⟨-, hv, -⟩
      · exact h.reading version hv
      · exact h.handling version hv
    have hnow : periodKey mp.budget.period s.now = P := by
      rw [(step_reading rfl hop).2]
      exact key_of_clockWithin hwithin.2 clock.t0_within.2 le_rfl
    have hfirst : periodKey mp.budget.period clock.t0 = P :=
      key_of_clockWithin hwithin.2 le_rfl clock.t0_within.2
    have hscheme : SameScheme mp.name mp.budget.period w.books (.foldPeers mp
        (peersOf (dataAt w.versions version) pod (periodKey mp.budget.period now)) clock) :=
      fun _ => rfl
    refine ⟨coherent_step h.coherent hscheme hop, hnow, fun v hv => ?_,
      fun v hv => ?_, hbound, ?_⟩
    · rcases he with ⟨-, -, rfl, -⟩ | ⟨-, -, -, rfl⟩
      · cases hv
      · exact h.reading v hv
    · rcases he with ⟨-, -, -, rfl⟩ | ⟨-, -, rfl, -⟩
      · exact h.handling v hv
      · cases hv
    · rw [peers_fold hop (hnow.trans hfirst.symm), hwithin.1]

theorem Exact.run (h : Exact mp pod P w) {es : List WatchEvent}
    {guard : Watching → WatchEvent → Prop} (hin : ∀ e ∈ es, watchedIn mp P e = true)
    (hrun : Run (watchStep mp pod) guard w es w') : Exact mp pod P w' := by
  induction hrun with
  | nil => exact h
  | cons _ hst _ ih =>
    exact ih (h.step (hin _ List.mem_cons_self) hst) fun e he =>
      hin e (List.mem_cons_of_mem _ he)

/-! ## Spend that only grows -/

def heldAt (P : String) (versions : List (GoMap String RawValue)) (v : Nat) (key ns : String) : ℚ :=
  (dataAt versions v).elim 0 fun data => spendAt P data key ns

/-- Nothing is pruned and no replica starts over: what a reader in the period finds
under a key never falls from one version to a later one. -/
def NeverFalls (P : String) (versions : List (GoMap String RawValue)) : Prop :=
  ∀ i j, i ≤ j → j ≤ versions.length → ∀ key, key ≠ canonicalKey → ∀ ns,
    heldAt P versions i key ns ≤ heldAt P versions j key ns

theorem NeverFalls.peers (h : NeverFalls P versions) {i j : Nat} (hij : i ≤ j)
    (hj : j ≤ versions.length) (pod ns : String) :
    (peersOf (dataAt versions i) pod P).at0 ns ≤ (peersOf (dataAt versions j) pod P).at0 ns := by
  have hsum : ∀ v, (peersOf (dataAt versions v) pod P).at0 ns =
      GoMap.sumOver ((dataAt versions v).getD ∅) fun k raw =>
        if k = pod ∨ k = canonicalKey then 0 else currentSpend P raw ns := by
    intro v
    cases dataAt versions v with
    | none => rfl
    | some data => exact foldPartials_at0 data pod P ns
  rw [hsum, hsum]
  refine GoMap.sumOver_le_sumOver fun key => ?_
  have hheld : ∀ v, (((dataAt versions v).getD ∅).lookup key).elim 0 (fun raw =>
      if key = pod ∨ key = canonicalKey then 0 else currentSpend P raw ns) =
      if key = pod ∨ key = canonicalKey then 0 else heldAt P versions v key ns := by
    intro v
    unfold heldAt spendAt
    cases dataAt versions v with
    | none => simp
    | some data => cases hl : data.lookup key <;> simp [hl]
  rw [hheld, hheld]
  split_ifs with hkey
  · exact le_rfl
  · exact h i j hij hj key (fun hc => hkey (.inr hc)) ns

theorem NeverFalls.write (h : NeverFalls P versions) {data : GoMap String RawValue}
    (hlast : ∀ key, key ≠ canonicalKey → ∀ ns,
      heldAt P versions versions.length key ns ≤ spendAt P data key ns) :
    NeverFalls P (versions ++ [data]) := by
  intro i j hij hj key hkey ns
  have hold : ∀ v, v ≤ versions.length →
      heldAt P (versions ++ [data]) v key ns = heldAt P versions v key ns := fun v hv => by
    unfold heldAt
    rw [dataAt_append hv]
  have hnew : heldAt P (versions ++ [data]) (versions.length + 1) key ns =
      spendAt P data key ns := by
    simp [heldAt, dataAt]
  rw [List.length_append, List.length_singleton] at hj
  rcases hj.lt_or_eq with hlt | rfl
  · rw [hold i (hij.trans (Nat.lt_succ_iff.mp hlt)), hold j (Nat.lt_succ_iff.mp hlt)]
    exact h i j hij (Nat.lt_succ_iff.mp hlt) key hkey ns
  · rw [hnew]
    rcases hij.lt_or_eq with hlt | rfl
    · rw [hold i (Nat.lt_succ_iff.mp hlt)]
      exact (h i versions.length (Nat.lt_succ_iff.mp hlt) le_rfl key hkey ns).trans
        (hlast key hkey ns)
    · exact hnew.le

theorem NeverFalls.publish {data : GoMap String RawValue} (h : NeverFalls P (versions ++ [data]))
    {q q' : BudgetPartial} {own own' : GoMap String ℚ}
    (hq : q.spend = formatSpend own ∧ q.period = P ∧ Legible own)
    (hq' : q'.spend = formatSpend own' ∧ q'.period = P ∧ Legible own')
    (hold : data.lookup pod = some (.object q.marshalJSON))
    (hgrown : ∀ ns, own.at0 ns ≤ own'.at0 ns) :
    NeverFalls P (versions ++ [data] ++ [data.insert pod (.object q'.marshalJSON)]) := by
  refine h.write fun key hkey ns => ?_
  have hlast : heldAt P (versions ++ [data]) (versions ++ [data]).length key ns =
      spendAt P data key ns := by
    simp [heldAt, dataAt]
  rw [hlast, spendAt, spendAt]
  by_cases hk : key = pod
  · subst hk
    rw [hold, AList.lookup_insert, Option.elim_some, Option.elim_some,
      currentSpend_toCents hq.1 hq.2.2 hq.2.1, currentSpend_toCents hq'.1 hq'.2.2 hq'.2.1]
    exact toCents_mono (hgrown ns)
  · rw [AList.lookup_insert_ne hk]

theorem NeverFalls.first {q : BudgetPartial} {own : GoMap String ℚ}
    (hq : q.spend = formatSpend own ∧ q.period = P ∧ Legible own) :
    NeverFalls P [AList.singleton pod (.object q.marshalJSON)] := by
  have hnil : NeverFalls P [] := by
    intro i j hij hj key _ ns
    rw [List.length_nil, Nat.le_zero] at hj
    rw [hj, Nat.le_zero] at hij
    rw [hij, hj]
  refine hnil.write fun key _ ns => ?_
  rw [spendAt, GoMap.lookup_singleton_eq]
  split_ifs
  · rw [Option.elim_some, currentSpend_toCents hq.1 hq.2.2 hq.2.1]
    exact toCents_nonneg (hq.2.2.nonneg ns)
  · exact le_rfl

/-! ## The view never goes back -/

/-- In every run whose schedule keeps the two readers in time, the version behind the
peer view never decreases; and inside a period in which what each replica has
published only grows, neither does the peer spend of a namespace. -/
theorem peer_view_never_back (mp : ModelProvider) (pod : String) {w₀ w w' : Watching}
    {es es' : List WatchEvent} (hstart : w₀.Starts)
    (hbefore : Run (watchStep mp pod) anyStep w₀ es w)
    (hrun : Run (watchStep mp pod) anyStep w es' w')
    (htime : w₀.timetable.inTime (es ++ es') = true) :
    w.installed ≤ w'.installed ∧
    ∀ P, periodKey mp.budget.period w₀.books.now = P →
      (∀ e ∈ es ++ es', watchedIn mp P e = true) → NeverFalls P w'.versions →
      ∀ ns, w.peers mp ns ≤ w'.peers mp ns := by
  obtain ⟨-, t, hfollows, htime⟩ := hstart.follows.run hbefore htime
  rw [← List.append_nil es'] at htime
  have hversion := (hfollows.run hrun htime).1
  refine ⟨hversion, fun P hkey hin hgrow ns => ?_⟩
  have hexact : Exact mp pod P w := (hstart.exact hkey).run
    (fun e he => hin e (List.mem_append_left _ he)) hbefore
  have hexact' := hexact.run (fun e he => hin e (List.mem_append_right _ he)) hrun
  -- the versions only get appended to, so the old view is that of an old version
  have hprefix : w.versions <+: w'.versions := by
    refine hrun.invariant (I := fun x => w.versions <+: x.versions) (fun x e x' hx _ hst => ?_)
      (List.prefix_refl _)
    cases watchMove_of_step hst with
    | operate | read | deliver | install => exact hx
    | write data => exact hx.trans (List.prefix_append _ _)
  obtain ⟨extra, hextra⟩ := hprefix
  have hsame : dataAt w.versions w.installed = dataAt w'.versions w.installed := by
    rw [← hextra, dataAt_append hexact.installed]
  unfold Watching.peers
  rw [hexact.peers, hexact'.peers, hsame]
  exact hgrow.peers hversion hexact'.installed pod ns

/-- What another replica has published of its spend of the month. -/
def spentByPeer (usd : ℚ) : BudgetPartial :=
  retiredPartial (periodKey .monthly march2026) (AList.singleton "team" usd)

theorem spentByPeer_at0 (usd : ℚ) (ns : String) :
    GoMap.at0 (AList.singleton "team" usd) ns = if ns = "team" then usd else 0 := by
  rw [GoMap.at0, GoMap.lookup_singleton_eq]
  split_ifs <;> rfl

theorem spentByPeer_legible {usd : ℚ} (hpos : 0 ≤ usd) (hrange : toCents usd < floatLimit) :
    (spentByPeer usd).spend = formatSpend (AList.singleton "team" usd) ∧
      (spentByPeer usd).period = periodKey .monthly march2026 ∧
        Legible (AList.singleton "team" usd) := by
  refine ⟨rfl, rfl, fun ns => ?_, fun ns => ?_, fun ns hns => ?_⟩
  · rw [spentByPeer_at0]
    split_ifs
    · exact hpos
    · exact le_rfl
  · rw [spentByPeer_at0]
    split_ifs
    · exact hrange
    · decide +kernel
  · rw [show ns = "team" by simpa [AList.mem_keys] using hns]
    decide

/-- A replica of the provider; another one has published 1 USD. -/
def oneVersion : Watching where
  books := .initial march2026
  versions := [AList.singleton "gw-1" (.object (spentByPeer 1).marshalJSON)]
  delivered := 0
  reading := none
  handling := none
  installed := 0

def secondVersion : GoMap String RawValue :=
  (AList.singleton "gw-1" (.object (spentByPeer 1).marshalJSON)).insert "gw-1"
    (.object (spentByPeer 2).marshalJSON)

theorem twoVersions_neverFall :
    NeverFalls (periodKey .monthly march2026) (oneVersion.versions ++ [secondVersion]) := by
  have h₁ := spentByPeer_legible (show (0 : ℚ) ≤ 1 by norm_num) (by decide +kernel)
  have h₂ := spentByPeer_legible (show (0 : ℚ) ≤ 2 by norm_num) (by decide +kernel)
  have hfirst : NeverFalls (periodKey .monthly march2026) ([] ++
      [AList.singleton "gw-1" (.object (spentByPeer 1).marshalJSON)]) := .first h₁
  refine hfirst.publish h₁ h₂ (by rw [GoMap.lookup_singleton_eq, if_pos rfl]) fun ns => ?_
  rw [spentByPeer_at0, spentByPeer_at0]
  split_ifs <;> norm_num

def watchAfter (w : Watching) (es : List WatchEvent) : Watching :=
  (exec (watchStep blockTen "gw-0") w es).getD w

def foldEvent : List WatchEvent := [.deliver 1, .handle march2026 (.still march2026)]

/-- The second version is written; a tick reads and folds it. -/
def foldLatest : List WatchEvent :=
  [.write secondVersion, .read, .fold march2026 (.still march2026)]

theorem oneVersion_starts : oneVersion.Starts := ⟨⟨march2026, rfl⟩, Nat.zero_le _, rfl, rfl, rfl⟩

theorem peer_view_never_back_tick :
    (watchAfter oneVersion foldEvent).installed = 1 ∧
    (watchAfter (watchAfter oneVersion foldEvent) foldLatest).installed = 2 ∧
    ∀ ns, (watchAfter oneVersion foldEvent).peers blockTen ns ≤
      (watchAfter (watchAfter oneVersion foldEvent) foldLatest).peers blockTen ns := by
  refine ⟨by decide +kernel, by decide +kernel, (peer_view_never_back blockTen "gw-0"
    oneVersion_starts (run_any (by decide +kernel)) (run_any (by decide +kernel))
    (by decide +kernel)).2 _ rfl (List.all_eq_true.mp (by decide +kernel)) ?_⟩
  exact twoVersions_neverFall

/-- The tick has folded the second version; then the watch's event of the first one
is folded and the peer spend falls from 2 USD to 1. -/
theorem late_event_reinstalls :
    ∃ w w', Run (watchStep blockTen "gw-0") anyStep oneVersion foldLatest w ∧
      Run (watchStep blockTen "gw-0") anyStep w foldEvent w' ∧
      (∀ e ∈ foldLatest ++ foldEvent,
        watchedIn blockTen (periodKey .monthly march2026) e = true) ∧
      NeverFalls (periodKey .monthly march2026) w'.versions ∧ w'.installed < w.installed ∧
      w'.peers blockTen "team" < w.peers blockTen "team" := by
  refine ⟨watchAfter oneVersion foldLatest, watchAfter _ foldEvent,
    run_any (by decide +kernel), run_any (by decide +kernel),
    List.all_eq_true.mp (by decide +kernel), ?_, by decide +kernel, by decide +kernel⟩
  exact twoVersions_neverFall

end Kaalm.Gateway
