/-
  Controller/Exchange.lean --- gateway replicas, the budget ConfigMap and the
  reducer.

  WHAT A STEP IS.  A replica's ledger operations run under its mutex.  A publish is a
  snapshot of the counters and, later, a server-side apply; a fold is a read of the
  ConfigMap and, later, a write to the ledger, and several may be under way, since the
  tick and the watch both fold.  A reducer pass lists the gateway Pods, reads the
  ConfigMap and updates it unless the resourceVersion has moved on.

  INCARNATIONS.  A Pod's name is never used again.  A container that restarts
  inside its Pod is a new process under the same name: an empty ledger, seeded from
  `_canonical`.  Processes that ended stay on record.

  THE GHOSTS.  A process remembers the value it applied last and the largest spend
  it has published in each period; a fold under way remembers what had been published
  when it read the ConfigMap.
-/
import Kaalm.Gateway.Slots
import Kaalm.Controller.BudgetReducer

namespace Kaalm.Controller

open Kaalm.Foundation Kaalm.Gateway

/-! ## The state -/

/-- A fold under way: the ConfigMap it has read, none when there was none. -/
structure PendingFold where
  data : Option (GoMap String RawValue)
  /-- ghost: what all processes had published by then, by period and namespace -/
  owed : String → String → ℚ

/-- One incarnation of a gateway container. -/
structure Process where
  pod : String
  running : Bool
  ledger : LedgerState
  /-- the publish under way: its clock reading and its snapshot -/
  publishing : Option (Time × BudgetPartial)
  folding : List PendingFold
  /-- ghost: the value of the last publish -/
  posted : Option RawValue
  /-- ghost: the largest spend published, by period and namespace -/
  published : String → String → ℚ

/-- A gateway Pod; `terminating` when it has a deletion timestamp. -/
structure GatewayPod where
  name : String
  terminating : Bool

inductive Pass where
  | idle
  | listed (live : List String)
  | got (live : List String) (currentPeriod : String) (revision : Nat)
      (data : GoMap String RawValue)

structure Exchange where
  configMap : Option (GoMap String RawValue)
  revision : Nat
  pods : List GatewayPod
  procs : List Process
  reducer : Pass
  /-- ghost: a pass has gone through -/
  reduced : Bool

/-! ## Steps -/

inductive ExchangeEvent where
  | start (name : String) (clock : Clock)
  /-- the container of a process restarts inside its Pod -/
  | restart (i : Nat) (clock : Clock)
  | terminate (name : String)
  | remove (name : String)
  | request (i : Nat) (e : LedgerEvent)
  | snapshot (i : Nat) (now : Time)
  | apply (i : Nat)
  | read (i : Nat)
  | fold (i j : Nat) (now : Time) (clock : Clock)
  | list
  | get (now : Time)
  | put (order : List (Sigma fun _ : String => RawValue))

def seeded (mp : ModelProvider) (configMap : Option (GoMap String RawValue)) (clock : Clock) :
    LedgerState :=
  match ((configMap.bind fun data => data.lookup canonicalKey).bind canonicalSpend) with
  | none => .initial clock.t0
  | some canonical =>
    { LedgerState.initial clock.t0 with
      ledger := newBudgetLedger.foldPeers mp canonical clock, now := clock.t3 }

def newProcess (mp : ModelProvider) (configMap : Option (GoMap String RawValue)) (pod : String)
    (clock : Clock) : Process where
  pod := pod
  running := true
  ledger := seeded mp configMap clock
  publishing := none
  folding := []
  posted := none
  published _ _ := 0

def Process.stop (p : Process) : Process :=
  { p with running := false, publishing := none, folding := [] }

/-- A fold of this provider's peers is a step of the exchange. -/
def isFold (mp : ModelProvider) : LedgerEvent → Bool
  | .foldPeers provider _ _ => provider.name = mp.name
  | _ => false

def Process.request (mp : ModelProvider) (e : LedgerEvent) (p : Process) : Option Process :=
  if isFold mp e then none
  else (ledgerStep p.ledger e).map fun l => { p with ledger := l }

/-- `publish` up to its API call.  One goroutine publishes. -/
def Process.snapshot (mp : ModelProvider) (now : Time) (p : Process) : Option Process :=
  if p.publishing.isSome then none
  else (p.ledger.ledger.ownPartial mp.name).map fun q => { p with publishing := some (now, q) }

/-- What a partial says about a namespace. -/
def BudgetPartial.amount (q : BudgetPartial) (ns : String) : ℚ :=
  ((q.spend.lookup ns).bind parseAmount).getD 0

/-- `publish` after its API call. -/
def Process.applied (mp : ModelProvider) (p : Process) (now : Time) (q : BudgetPartial) : Process :=
  { p with
    ledger := { p.ledger with ledger := p.ledger.ledger.markPublished mp.name now }
    publishing := none
    posted := some (.object q.marshalJSON)
    published := fun period ns =>
      if period = q.period then max (p.published period ns) (BudgetPartial.amount q ns)
      else p.published period ns }

def PendingFold.peers (f : PendingFold) (pod currentPeriod : String) : GoMap String ℚ :=
  match f.data with
  | none => ∅
  | some data => foldPartials data pod currentPeriod

/-- `fold` after its API call. -/
def Process.fold (mp : ModelProvider) (j : Nat) (now : Time) (clock : Clock) (p : Process) :
    Option Process :=
  match p.folding[j]? with
  | none => none
  | some f =>
    if periodKey mp.budget.period now = "" then none
    else
      (ledgerStep p.ledger
        (.foldPeers mp (f.peers p.pod (periodKey mp.budget.period now)) clock)).map fun l =>
        { p with ledger := l, folding := p.folding.eraseIdx j }

/-- The server-side apply of one key: nothing happens when the value is there. -/
def Exchange.write (s : Exchange) (key : String) (flat : GoMap String String) : Exchange :=
  match s.configMap with
  | none => { s with
      configMap := some (AList.insert key (.object flat) ∅), revision := s.revision + 1 }
  | some data =>
    if ((data.lookup key).elim false fun raw => raw.isText flat) then s
    else { s with configMap := some (data.insert key (.object flat)), revision := s.revision + 1 }

/-- The apply of a publish, and what the process does after it. -/
def Exchange.commit (s : Exchange) (mp : ModelProvider) (i : Nat) (p : Process) (now : Time)
    (q : BudgetPartial) : Exchange :=
  { s with procs := s.procs.set i (p.applied mp now q) }.write p.pod q.marshalJSON

def Exchange.act (s : Exchange) (i : Nat) (f : Process → Option Process) : Option Exchange :=
  match s.procs[i]? with
  | none => none
  | some p => if p.running then (f p).map fun p' => { s with procs := s.procs.set i p' } else none

/-- The largest spend each process has published, summed. -/
def Exchange.published (s : Exchange) (period ns : String) : ℚ :=
  (s.procs.map fun p => p.published period ns).sum

def Exchange.put (s : Exchange) (order : List (Sigma fun _ : String => RawValue)) :
    Option Exchange :=
  match s.reducer with
  | .idle | .listed _ => none
  | .got live currentPeriod revision data =>
    if order.isPerm data.entries then
      let r := reconcileBudget data order (fun k => live.contains k) currentPeriod
      if !r.changed then some { s with reducer := .idle, reduced := true }
      else if revision = s.revision then
        some { s with
          configMap := some r.data, revision := s.revision + 1, reducer := .idle
          reduced := true }
      else some { s with reducer := .idle }
    else none

def exchangeStep (mp : ModelProvider) (s : Exchange) : ExchangeEvent → Option Exchange
  | .start name clock =>
    -- Kubernetes names a new Pod, never with a leading underscore
    if isFlag name ∨ name ∈ s.procs.map (·.pod) then none
    else some { s with
      pods := s.pods ++ [⟨name, false⟩]
      procs := s.procs ++ [newProcess mp s.configMap name clock] }
  | .restart i clock =>
    match s.procs[i]? with
    | none => none
    | some p =>
      if p.running then
        some { s with
          procs := s.procs.set i p.stop ++ [newProcess mp s.configMap p.pod clock] }
      else none
  | .terminate name =>
    some { s with
      pods := s.pods.map fun pod => if pod.name = name then { pod with terminating := true }
        else pod }
  | .remove name =>
    some { s with
      pods := s.pods.filter fun pod => pod.name ≠ name
      procs := s.procs.map fun p => if p.pod = name then p.stop else p }
  | .request i e => s.act i (·.request mp e)
  | .snapshot i now => s.act i (·.snapshot mp now)
  | .apply i =>
    match s.procs[i]? with
    | none => none
    | some p =>
      match p.publishing with
      | none => none
      | some (now, q) =>
        if p.running then some (s.commit mp i p now q) else none
  | .read i => s.act i fun p =>
    some { p with folding := p.folding ++ [⟨s.configMap, s.published⟩] }
  | .fold i j now clock => s.act i (·.fold mp j now clock)
  | .list =>
    match s.reducer with
    | .idle => some { s with
        reducer := .listed ((s.pods.filter fun pod => !pod.terminating).map (·.name)) }
    | .listed _ | .got _ _ _ _ => none
  | .get now =>
    match s.reducer with
    | .listed live =>
      if periodKey mp.budget.period now = "" then some { s with reducer := .idle }
      else
        match s.configMap with
        | none => some { s with reducer := .idle }
        | some data => some { s with
            reducer := .got live (periodKey mp.budget.period now) s.revision data }
    | .idle | .got _ _ _ _ => none
  | .put order => s.put order

/-- A process when a period begins for it: it has run since its start, but landed
and published nothing in the period. -/
structure Process.Fresh (mp : ModelProvider) (P : String) (p : Process) : Prop where
  ran : ∃ t es, Run ledgerStep (SameScheme mp.name mp.budget.period) (.initial t) es p.ledger
  later : ∃ u, p.ledger.now ≤ u ∧ periodKey mp.budget.period u = P
  landed : ∀ x ∈ p.ledger.landed, x.provider = mp.name → x.period ≠ P
  published : ∀ ns, p.published P ns = 0
  posted : ∀ raw, p.posted = some raw → ∀ ns, currentSpend P raw ns = 0
  publishing : p.publishing = none
  folding : p.folding = []

/-- The exchange when a period begins: fresh processes, and values that carry
another period. -/
structure Exchange.Initial (mp : ModelProvider) (P : String) (s : Exchange) : Prop where
  procs : ∀ p ∈ s.procs, p.Fresh mp P
  names : ∀ p ∈ s.procs, isFlag p.pod = false
  unique : ∀ (i j : Nat) (p q : Process), s.procs[i]? = some p → s.procs[j]? = some q →
    p.running = true → q.running = true → p.pod = q.pod → i = j
  data : ∀ data, s.configMap = some data → ∀ k raw, data.lookup k = some raw → k ≠ canonicalKey →
    ∀ ns, currentSpend P raw ns = 0
  reducer : s.reducer = .idle
  reduced : s.reduced = false

/-! ## Runs inside one period -/

def costOf? : LedgerEvent → Option ℚ
  | .settle _ cost _ | .finish _ cost _ | .add _ _ _ cost _ => some cost
  | _ => none

def isWholeCents (q : ℚ) : Bool := 0 ≤ q && (q * 100).den = 1

/-- The step reads the clock in the period, the provider keeps its scheme, and the
cost is a number of cents. -/
def inPeriod (mp : ModelProvider) (P : String) (_ : Exchange) : ExchangeEvent → Bool
  | .start _ clock | .restart _ clock => clockWithin mp.budget.period P clock
  | .request _ e =>
    ((providerOf? e).all fun provider =>
      provider.name ≠ mp.name || provider.budget.period = mp.budget.period) &&
    (e.clock?.all (clockWithin mp.budget.period P)) && (costOf? e).all isWholeCents
  | .fold _ _ now clock =>
    periodKey mp.budget.period now = P && clockWithin mp.budget.period P clock
  | .get now => periodKey mp.budget.period now = P
  | .terminate _ | .remove _ | .snapshot _ _ | .apply _ | .read _ | .list | .put _ => true

theorem wholeCents_of_isWholeCents {q : ℚ} (h : isWholeCents q = true) : WholeCents q := by
  simp only [isWholeCents, Bool.and_eq_true, decide_eq_true_eq] at h
  have hnum : ((q * 100).num : ℚ) = q * 100 := Rat.coe_int_num_of_den_eq_one h.2
  have hpos : 0 ≤ (q * 100).num := Rat.num_nonneg.mpr (mul_nonneg h.1 (by norm_num))
  refine ⟨(q * 100).num.toNat, ?_⟩
  have hcast : (((q * 100).num.toNat : ℕ) : ℚ) = ((q * 100).num : ℚ) := by
    exact_mod_cast Int.toNat_of_nonneg hpos
  rw [hcast, hnum]
  field_simp

/-! ## The ledger of a process -/

section Ledger

variable {mp : ModelProvider} {P : String} {l l' : LedgerState} {e : LedgerEvent}

def spentBy (mp : ModelProvider) (P : String) (l : LedgerState) (ns : String) : ℚ :=
  landedIn l.landed mp.name ns P

/-- The ledger of a process at some point of the period, when all costs are of a kind. -/
structure LedgerIn (C : ℚ → Prop) (mp : ModelProvider) (P : String) (l : LedgerState) : Prop where
  books : Books mp.name mp.budget.period l
  later : ∃ u, l.now ≤ u ∧ periodKey mp.budget.period u = P
  costs : ∀ x ∈ l.landed, x.provider = mp.name → x.period = P → C x.cost

/-- The ledger of a process that spends numbers of cents. -/
abbrev LedgerOk (mp : ModelProvider) (P : String) (l : LedgerState) : Prop :=
  LedgerIn WholeCents mp P l

variable {C : ℚ → Prop}

theorem landedIn_of_costs (hzero : C 0) (hadd : ∀ {a b}, C a → C b → C (a + b)) {xs : List Landed}
    {n ns : String} (h : ∀ x ∈ xs, x.provider = n → x.period = P → C x.cost) :
    C (landedIn xs n ns P) := by
  induction xs with
  | nil => exact hzero
  | cons x rest ih =>
    have hrest := ih fun y hy => h y (List.mem_cons_of_mem _ hy)
    rw [landedIn] at hrest ⊢
    rw [List.filter_cons]
    split
    · rename_i hx
      simp only [decide_eq_true_eq] at hx
      exact hadd (h x List.mem_cons_self hx.1 hx.2.2) hrest
    · exact hrest

theorem LedgerOk.spentBy_cents (h : LedgerOk mp P l) (ns : String) :
    WholeCents (spentBy mp P l ns) :=
  landedIn_of_costs .zero WholeCents.add h.costs

theorem LedgerIn.own_view (h : LedgerIn C mp P l) {u : Time} (hu : l.now ≤ u)
    (hkey : periodKey mp.budget.period u = P) (ns : String) :
    (l.view mp.name mp.budget.period u).own.at0 ns = spentBy mp P l ns := by
  rw [h.books.own u hu ns, hkey]
  rfl

theorem LedgerIn.stored_own (h : LedgerIn C mp P l) {pl : ProviderLedger}
    (hpl : l.ledger.providers.lookup mp.name = some pl) (hp : pl.period = P) (ns : String) :
    pl.own.at0 ns = spentBy mp P l ns := by
  obtain ⟨u, hu, hkey⟩ := h.later
  rw [← h.own_view hu hkey, LedgerState.view,
    BudgetLedger.ledgerFor_eq_of_period hpl (hp.trans hkey.symm)]

theorem landed_costs (hst : ledgerStep l e = some l') (hcost : ∀ c, costOf? e = some c → C c) :
    ∃ extra, l'.landed = l.landed ++ extra ∧ ∀ x ∈ extra, C x.cost := by
  have hentry : ∀ (entry : Landed) (none : Prop) [Decidable none], costOf? e = some entry.cost →
      ∀ x ∈ (if none then [] else [entry]), C x.cost := by
    intro entry none _ he x hx
    split_ifs at hx
    · cases hx
    · rw [List.mem_singleton.mp hx]
      exact hcost _ he
  cases e with
  | settle i cost clock =>
    obtain ⟨r, h, -, -, -, ⟨-, rfl⟩ | ⟨-, rfl⟩⟩ := step_settle hst
    · exact ⟨[], (List.append_nil _).symm, nofun⟩
    · exact ⟨_, rfl, hentry _ _ rfl⟩
  | finish i cost clock =>
    obtain ⟨r, -, -, -, -, rfl⟩ := step_finish hst
    exact ⟨_, rfl, hentry _ _ rfl⟩
  | add provider ns workload cost clock =>
    obtain ⟨-, rfl⟩ := step_applied rfl rfl hst
    exact ⟨_, rfl, hentry _ _ rfl⟩
  | admission | enforce | foldPeers | foldWorkloadPeers =>
    obtain ⟨-, rfl⟩ := step_applied rfl rfl hst
    exact ⟨[], (List.append_nil _).symm, nofun⟩
  | markPublished | setReplicas =>
    cases hst
    exact ⟨[], (List.append_nil _).symm, nofun⟩

/-- An operation inside the period: it reads the clock there, the provider keeps its
scheme, and the cost is of the kind. -/
structure Fits (C : ℚ → Prop) (mp : ModelProvider) (P : String) (l : LedgerState)
    (e : LedgerEvent) : Prop where
  scheme : SameScheme mp.name mp.budget.period l e
  clock : ∀ clock, e.clock? = some clock → clockWithin mp.budget.period P clock = true
  cost : ∀ c, costOf? e = some c → C c

theorem fits_foldPeers {clock : Clock} (hclock : clockWithin mp.budget.period P clock = true)
    (peers : GoMap String ℚ) : Fits C mp P l (.foldPeers mp peers clock) :=
  ⟨fun _ => rfl, fun _ hc => by cases hc; exact hclock, nofun⟩

theorem LedgerIn.step (h : LedgerIn C mp P l) (hfits : Fits C mp P l e)
    (hst : ledgerStep l e = some l') : LedgerIn C mp P l' := by
  obtain ⟨extra, hextra, hnew⟩ := landed_costs hst hfits.cost
  refine ⟨books_step h.books hfits.scheme hst, ?_, fun x hx hn hp => ?_⟩
  · rcases step_now hst with hnow | ⟨clock, hc, hnow⟩
    · rw [hnow]
      exact h.later
    · exact ⟨clock.t3, hnow.le,
        key_of_clockWithin (hfits.clock clock hc) clock.t0_within.2 le_rfl⟩
  · rw [hextra] at hx
    rcases List.mem_append.mp hx with hx | hx
    · exact h.costs x hx hn hp
    · exact hnew x hx

theorem LedgerIn.mark (h : LedgerIn C mp P l) (t : Time) :
    LedgerIn C mp P { l with ledger := l.ledger.markPublished mp.name t } :=
  h.step (e := .markPublished mp.name t) ⟨trivial, nofun, nofun⟩ rfl

theorem spentBy_le (hcost : ∀ c, costOf? e = some c → 0 ≤ c) (hst : ledgerStep l e = some l')
    (ns : String) : spentBy mp P l ns ≤ spentBy mp P l' ns := by
  obtain ⟨extra, hextra, hnew⟩ := landed_costs hst hcost
  have hpos : 0 ≤ landedIn extra mp.name ns P :=
    landedIn_of_costs (C := (0 ≤ ·)) le_rfl add_nonneg fun x hx _ _ => hnew x hx
  rw [spentBy, spentBy, hextra, landedIn_append]
  linarith

end Ledger

/-! ## The spend on the ConfigMap -/

/-- The spend all values but `_canonical` hold. -/
def Exchange.spend (s : Exchange) (P ns : String) : ℚ :=
  s.configMap.elim 0 fun data => spendOn P data ns

def Exchange.spendUnder (s : Exchange) (P key ns : String) : ℚ :=
  s.configMap.elim 0 fun data => spendAt P data key ns

def Exchange.value (s : Exchange) (key : String) : Option RawValue :=
  s.configMap.bind fun data => data.lookup key

section Write

variable {s : Exchange} {key : String} {flat : GoMap String String} {P : String}

theorem write_cases (s : Exchange) (key : String) (flat : GoMap String String) :
    (s.write key flat = s ∧ ∃ raw, s.value key = some raw ∧ raw.isText flat = true) ∨
      s.write key flat = { s with
        configMap := some ((s.configMap.getD ∅).insert key (.object flat))
        revision := s.revision + 1 } := by
  unfold Exchange.write Exchange.value
  cases hdata : s.configMap with
  | none => exact .inr rfl
  | some data =>
    cases hraw : data.lookup key with
    | none => exact .inr (by simp [hraw])
    | some raw =>
      by_cases htext : raw.isText flat = true
      · exact .inl ⟨by simp [hraw, htext], raw, by simp [hraw], htext⟩
      · exact .inr (by simp [hraw, htext])

theorem write_frame (s : Exchange) (key : String) (flat : GoMap String String) :
    (s.write key flat).pods = s.pods ∧ (s.write key flat).procs = s.procs ∧
      (s.write key flat).reducer = s.reducer ∧ (s.write key flat).reduced = s.reduced := by
  rcases write_cases s key flat with ⟨h, -⟩ | h <;> rw [h] <;> exact ⟨rfl, rfl, rfl, rfl⟩

theorem commit_procs (s : Exchange) (mp : ModelProvider) (i : Nat) (p : Process) (t : Time)
    (q : BudgetPartial) : (s.commit mp i p t q).procs = s.procs.set i (p.applied mp t q) :=
  (write_frame _ _ _).2.1

theorem value_eq (s : Exchange) (k : String) : s.value k = (s.configMap.getD ∅).lookup k := by
  unfold Exchange.value
  cases s.configMap <;> rfl

theorem write_value_self (s : Exchange) (key : String) (flat : GoMap String String) :
    ∃ raw, (s.write key flat).value key = some raw ∧
      ∀ P ns, currentSpend P raw ns = currentSpend P (.object flat) ns := by
  rcases write_cases s key flat with ⟨h, raw, hraw, htext⟩ | h
  · exact ⟨raw, h.symm ▸ hraw, currentSpend_of_isText htext⟩
  · exact ⟨.object flat, by rw [h]; exact AList.lookup_insert _, fun _ _ => rfl⟩

theorem write_value_ne {k : String} (hk : k ≠ key) : (s.write key flat).value k = s.value k := by
  rcases write_cases s key flat with ⟨h, -⟩ | h
  · rw [h]
  · rw [h, value_eq s]
    exact AList.lookup_insert_ne hk

theorem spendUnder_eq (s : Exchange) (P key ns : String) :
    s.spendUnder P key ns = (s.value key).elim 0 fun raw => currentSpend P raw ns := by
  unfold Exchange.spendUnder Exchange.value spendAt
  cases s.configMap <;> rfl

theorem write_spendUnder (s : Exchange) (key : String) (flat : GoMap String String)
    (P k ns : String) : (s.write key flat).spendUnder P k ns =
      if k = key then currentSpend P (.object flat) ns else s.spendUnder P k ns := by
  rw [spendUnder_eq, spendUnder_eq]
  split_ifs with hk
  · subst hk
    obtain ⟨raw, hraw, hsame⟩ := write_value_self s k flat
    rw [hraw]
    exact hsame P ns
  · rw [write_value_ne hk]

theorem write_spend (s : Exchange) (flat : GoMap String String) (P ns : String)
    (hkey : key ≠ canonicalKey) :
    (s.write key flat).spend P ns + s.spendUnder P key ns =
      s.spend P ns + currentSpend P (.object flat) ns := by
  rcases write_cases s key flat with ⟨h, raw, hraw, htext⟩ | h
  · rw [h, spendUnder_eq, hraw]
    exact congrArg _ (currentSpend_of_isText htext P ns)
  · have hold : s.spend P ns = spendOn P (s.configMap.getD ∅) ns ∧
        s.spendUnder P key ns = spendAt P (s.configMap.getD ∅) key ns := by
      unfold Exchange.spend Exchange.spendUnder
      cases s.configMap <;> exact ⟨rfl, rfl⟩
    rw [h, hold.1, hold.2]
    exact spendOn_insert P _ (.object flat) ns hkey

/-- Every value but `_canonical` holds a number of cents. -/
def Exchange.Cents (s : Exchange) (P : String) : Prop :=
  ∀ k raw, s.value k = some raw → k ≠ canonicalKey → ∀ ns, WholeCents (currentSpend P raw ns)

theorem Exchange.Cents.write (h : s.Cents P)
    (hflat : ∀ ns, WholeCents (currentSpend P (.object flat) ns)) :
    (s.write key flat).Cents P := by
  intro k raw hraw hk ns
  by_cases hkey : k = key
  · subst hkey
    obtain ⟨raw', hraw', hsame⟩ := write_value_self s k flat
    rw [Option.some.inj (hraw.symm.trans hraw'), hsame]
    exact hflat ns
  · rw [write_value_ne hkey] at hraw
    exact h k raw hraw hk ns

end Write

/-! ## What holds throughout a period -/

structure ProcessOk (mp : ModelProvider) (P : String) (p : Process) : Prop where
  ledger : LedgerOk mp P p.ledger
  /-- a snapshot of the period is at most what has been spent -/
  publishing : ∀ t q, p.publishing = some (t, q) → ∃ m : GoMap String ℚ,
    q.spend = formatSpend m ∧ (q.period = P → ∀ ns, WholeCents (m.at0 ns) ∧
      m.at0 ns ≤ spentBy mp P p.ledger ns)
  posted : ∀ raw, p.posted = some raw → ∀ ns, WholeCents (currentSpend P raw ns) ∧
    currentSpend P raw ns ≤ spentBy mp P p.ledger ns

/-- The exchange at some point of the period, with processes of which `Q` holds. -/
structure Exchange.InOrder (Q : Process → Prop) (P : String) (s : Exchange) : Prop where
  procs : ∀ p ∈ s.procs, Q p
  names : ∀ p ∈ s.procs, isFlag p.pod = false
  /-- one process runs in a Pod -/
  unique : ∀ (i j : Nat) (p q : Process), s.procs[i]? = some p → s.procs[j]? = some q →
    p.running = true → q.running = true → p.pod = q.pod → i = j
  cents : s.Cents P
  /-- a pass holds the ConfigMap as long as the revision is its own -/
  pass : ∀ live currentPeriod revision data, s.reducer = .got live currentPeriod revision data →
    currentPeriod = P ∧ revision ≤ s.revision ∧
    (revision = s.revision → s.configMap = some data) ∧ CentsOn P data ∧
    data.lookup canonicalKey = s.value canonicalKey

/-- The exchange when all costs are numbers of cents. -/
abbrev Exchange.Sound (mp : ModelProvider) (P : String) (s : Exchange) : Prop :=
  s.InOrder (ProcessOk mp P) P

variable {mp : ModelProvider} {P : String} {p p' : Process}

theorem ne_canonicalKey_of_isFlag {name : String} (h : isFlag name = false) :
    name ≠ canonicalKey ∧ name ≠ retiredKey :=
  ⟨by rintro rfl; exact absurd h (by decide), by rintro rfl; exact absurd h (by decide)⟩

theorem ProcessOk.ledgerStep {e : LedgerEvent} {l : LedgerState} (h : ProcessOk mp P p)
    (hfits : Fits WholeCents mp P p.ledger e) (hst : ledgerStep p.ledger e = some l)
    (hl : p'.ledger = l) (hpub : p'.publishing = p.publishing) (hpost : p'.posted = p.posted) :
    ProcessOk mp P p' := by
  subst hl
  have hmono : ∀ ns, spentBy mp P p.ledger ns ≤ spentBy mp P p'.ledger ns :=
    spentBy_le (fun c hc => (hfits.cost c hc).nonneg) hst
  refine ⟨h.ledger.step hfits hst, fun t q hq => ?_, fun raw hraw ns => ?_⟩
  · obtain ⟨m, hspend, hbound⟩ := h.publishing t q (hpub ▸ hq)
    exact ⟨m, hspend, fun hp ns => ⟨(hbound hp ns).1, (hbound hp ns).2.trans (hmono ns)⟩⟩
  · obtain ⟨hcents, hle⟩ := h.posted raw (hpost ▸ hraw) ns
    exact ⟨hcents, hle.trans (hmono ns)⟩

variable {now : Time}

theorem snapshot_eq_some (h : p.snapshot mp now = some p') :
    ∃ q, p.ledger.ledger.ownPartial mp.name = some q ∧
      p' = { p with publishing := some (now, q) } := by
  unfold Process.snapshot at h
  split_ifs at h
  obtain ⟨q, hq, rfl⟩ := Option.map_eq_some_iff.mp h
  exact ⟨q, hq, rfl⟩

theorem ProcessOk.snapshot (h : ProcessOk mp P p) (hst : p.snapshot mp now = some p') :
    ProcessOk mp P p' := by
  obtain ⟨q, hq, rfl⟩ := snapshot_eq_some hst
  obtain ⟨pl, hpl, hperiod, hspend⟩ := ownPartial_eq_some hq
  refine ⟨h.ledger, fun t q' hq' => ?_, h.posted⟩
  cases hq'
  refine ⟨pl.own, hspend, fun hp ns => ?_⟩
  rw [h.ledger.stored_own hpl (hperiod.symm.trans hp)]
  exact ⟨h.ledger.spentBy_cents ns, le_rfl⟩

theorem ProcessOk.contributes {t : Time} {q : BudgetPartial} (h : ProcessOk mp P p)
    (hP : ∃ t, periodKey mp.budget.period t = P) (hq : p.publishing = some (t, q)) (ns : String) :
    WholeCents (currentSpend P (.object q.marshalJSON) ns) ∧
      currentSpend P (.object q.marshalJSON) ns ≤ spentBy mp P p.ledger ns := by
  obtain ⟨m, hspend, hbound⟩ := h.publishing t q hq
  by_cases hp : q.period = P
  · obtain ⟨-, hle, hcents⟩ := currentSpend_rendered hspend (fun ns => (hbound hp ns).1) ns
    exact ⟨hcents, hle.trans (hbound hp ns).2⟩
  · rw [currentSpend_other_period hspend ⟨mp.budget.period, hP⟩ hp]
    exact ⟨.zero, (h.ledger.spentBy_cents ns).nonneg⟩

theorem ProcessOk.applied {t : Time} {q : BudgetPartial} (h : ProcessOk mp P p)
    (hP : ∃ t, periodKey mp.budget.period t = P) (hq : p.publishing = some (t, q)) :
    ProcessOk mp P (p.applied mp t q) := by
  refine ⟨h.ledger.mark t, fun _ _ hq' => (by cases hq'), fun raw hraw ns => ?_⟩
  cases hraw
  exact h.contributes hP hq ns

theorem ProcessOk.stop (h : ProcessOk mp P p) : ProcessOk mp P p.stop :=
  ⟨h.ledger, fun _ _ hq => (by cases hq), h.posted⟩

variable {clock : Clock}

theorem fold_eq_some {j : Nat} (h : p.fold mp j now clock = some p') :
    ∃ f l, p.folding[j]? = some f ∧
      Gateway.ledgerStep p.ledger
        (.foldPeers mp (f.peers p.pod (periodKey mp.budget.period now)) clock) = some l ∧
      p' = { p with ledger := l, folding := p.folding.eraseIdx j } := by
  unfold Process.fold at h
  split at h
  · cases h
  · rename_i f hf
    split_ifs at h
    obtain ⟨l, hl, rfl⟩ := Option.map_eq_some_iff.mp h
    exact ⟨f, l, hf, hl, rfl⟩

theorem ProcessOk.fold {j : Nat} (h : ProcessOk mp P p)
    (hclock : clockWithin mp.budget.period P clock = true) (hst : p.fold mp j now clock = some p') :
    ProcessOk mp P p' := by
  obtain ⟨f, l, -, hl, rfl⟩ := fold_eq_some hst
  exact h.ledgerStep (fits_foldPeers hclock _) hl rfl rfl rfl

theorem ledgerIn_seeded {C : ℚ → Prop} {configMap : Option (GoMap String RawValue)}
    (hclock : clockWithin mp.budget.period P clock = true) :
    LedgerIn C mp P (seeded mp configMap clock) := by
  have hstart : LedgerIn C mp P (.initial clock.t0) :=
    ⟨books_initial _ _ _, ⟨clock.t0, le_rfl,
      key_of_clockWithin hclock le_rfl clock.t0_within.2⟩, fun x hx => by cases hx⟩
  unfold seeded
  split
  · exact hstart
  · rename_i canonical _
    have hfold : Gateway.ledgerStep (.initial clock.t0) (.foldPeers mp canonical clock) =
        some { LedgerState.initial clock.t0 with
          ledger := newBudgetLedger.foldPeers mp canonical clock, now := clock.t3 } := by
      simp only [Gateway.ledgerStep, LedgerEvent.clock?, LedgerState.apply, LedgerState.initial,
        le_refl, if_true, Option.map_some]
    exact hstart.step (fits_foldPeers hclock canonical) hfold

theorem processOk_newProcess {configMap : Option (GoMap String RawValue)} {pod : String}
    (hclock : clockWithin mp.budget.period P clock = true) :
    ProcessOk mp P (newProcess mp configMap pod clock) :=
  ⟨ledgerIn_seeded hclock, fun _ _ hq => (by cases hq), fun _ hraw => (by cases hraw)⟩

/-! ## Steps of a process -/

inductive Local (mp : ModelProvider) (s : Exchange) (i : Nat) (p : Process) :
    ExchangeEvent → Process → Prop
  | request {e : LedgerEvent} {l : LedgerState} (hst : ledgerStep p.ledger e = some l)
      (hfold : isFold mp e = false) : Local mp s i p (.request i e) { p with ledger := l }
  | snapshot {now : Time} {p' : Process} (hst : p.snapshot mp now = some p') :
      Local mp s i p (.snapshot i now) p'
  | read : Local mp s i p (.read i)
      { p with folding := p.folding ++ [⟨s.configMap, s.published⟩] }
  | fold {j : Nat} {now : Time} {clock : Clock} {p' : Process}
      (hst : p.fold mp j now clock = some p') : Local mp s i p (.fold i j now clock) p'

def notApply : ExchangeEvent → Bool
  | .apply _ => false
  | _ => true

def isRemote : ExchangeEvent → Bool
  | .terminate _ | .remove _ | .list | .get _ | .put _ => true
  | _ => false

inductive Move (mp : ModelProvider) (s : Exchange) : ExchangeEvent → Exchange → Prop
  | act {e : ExchangeEvent} (i : Nat) (p p' : Process) (hi : s.procs[i]? = some p)
      (hrun : p.running = true) (hlocal : Local mp s i p e p') :
      Move mp s e { s with procs := s.procs.set i p' }
  | start (name : String) (clock : Clock) (pods : List GatewayPod) (hname : isFlag name = false)
      (hnew : name ∉ s.procs.map (·.pod)) :
      Move mp s (.start name clock)
        { s with pods := pods, procs := s.procs ++ [newProcess mp s.configMap name clock] }
  | restart (i : Nat) (p : Process) (clock : Clock) (hi : s.procs[i]? = some p)
      (hrun : p.running = true) :
      Move mp s (.restart i clock)
        { s with procs := s.procs.set i p.stop ++ [newProcess mp s.configMap p.pod clock] }
  /-- Pods change, and some processes end -/
  | pods {e : ExchangeEvent} (pods : List GatewayPod) (procs : List Process) (gone : String → Bool)
      (hprocs : procs = s.procs.map fun p => if gone p.pod then p.stop else p)
      (he : isRemote e = true) :
      Move mp s e { s with pods := pods, procs := procs }
  | apply (i : Nat) (p : Process) (t : Time) (q : BudgetPartial) (hi : s.procs[i]? = some p)
      (hrun : p.running = true) (hq : p.publishing = some (t, q)) :
      Move mp s (.apply i) (s.commit mp i p t q)
  /-- a pass lists the Pods, or gives up -/
  | idle {e : ExchangeEvent} (pass : Pass)
      (hpass : ∀ live period revision data, pass ≠ .got live period revision data)
      (he : isRemote e = true) :
      Move mp s e { s with reducer := pass }
  | get (now : Time) (live : List String) (data : GoMap String RawValue)
      (hdata : s.configMap = some data) :
      Move mp s (.get now)
        { s with reducer := .got live (periodKey mp.budget.period now) s.revision data }
  | put (order : List (Sigma fun _ : String => RawValue)) (live : List String)
      (currentPeriod : String) (revision : Nat) (data : GoMap String RawValue)
      (hgot : s.reducer = .got live currentPeriod revision data) (horder : order.Perm data.entries)
      (hrev : revision = s.revision) :
      Move mp s (.put order)
        { s with
          configMap := some
            (reconcileBudget data order (fun k => live.contains k) currentPeriod).data
          revision := s.revision + 1, reducer := .idle, reduced := true }
  | current (order : List (Sigma fun _ : String => RawValue)) (live : List String)
      (currentPeriod : String) (revision : Nat) (data : GoMap String RawValue)
      (hgot : s.reducer = .got live currentPeriod revision data) (horder : order.Perm data.entries)
      (hsame : (reconcileBudget data order (fun k => live.contains k) currentPeriod).changed =
        false) :
      Move mp s (.put order) { s with reducer := .idle, reduced := true }

theorem act_eq_some {s s' : Exchange} {i : Nat} {f : Process → Option Process}
    (h : s.act i f = some s') : ∃ p p', s.procs[i]? = some p ∧ p.running = true ∧
      f p = some p' ∧ s' = { s with procs := s.procs.set i p' } := by
  unfold Exchange.act at h
  split at h
  · cases h
  · rename_i p hp
    split_ifs at h with hrun
    obtain ⟨p', hp', rfl⟩ := Option.map_eq_some_iff.mp h
    exact ⟨p, p', hp, hrun, hp', rfl⟩

theorem move_of_step {s s' : Exchange} {e : ExchangeEvent} (h : exchangeStep mp s e = some s') :
    Move mp s e s' := by
  cases e with
  | start name clock =>
    simp only [exchangeStep] at h
    split_ifs at h with hname
    cases h
    rw [not_or] at hname
    exact .start name clock _ (by simpa using hname.1) hname.2
  | restart i clock =>
    simp only [exchangeStep] at h
    split at h
    · cases h
    · rename_i p hp
      split_ifs at h with hrun
      cases h
      exact .restart i p clock hp hrun
  | terminate name =>
    cases h
    exact .pods _ s.procs (fun _ => false) (by simp) rfl
  | remove name =>
    cases h
    exact .pods _ _ (fun pod => pod = name) (by simp) rfl
  | request i e =>
    obtain ⟨p, p', hi, hrun, hp', rfl⟩ := act_eq_some h
    unfold Process.request at hp'
    split_ifs at hp' with hfold
    obtain ⟨l, hl, rfl⟩ := Option.map_eq_some_iff.mp hp'
    exact .act i p _ hi hrun (.request hl (by simpa using hfold))
  | snapshot i now =>
    obtain ⟨p, p', hi, hrun, hp', rfl⟩ := act_eq_some h
    exact .act i p p' hi hrun (.snapshot hp')
  | apply i =>
    simp only [exchangeStep] at h
    split at h
    · cases h
    · rename_i p hp
      split at h
      · cases h
      · rename_i now q hq
        split_ifs at h with hrun
        cases h
        exact .apply i p now q hp hrun hq
  | read i =>
    obtain ⟨p, p', hi, hrun, hp', rfl⟩ := act_eq_some h
    cases hp'
    exact .act i p _ hi hrun .read
  | fold i j now clock =>
    obtain ⟨p, p', hi, hrun, hp', rfl⟩ := act_eq_some h
    exact .act i p p' hi hrun (.fold hp')
  | list =>
    simp only [exchangeStep] at h
    split at h
    · cases h
      exact .idle _ (fun _ _ _ _ => by simp) rfl
    · cases h
    · cases h
  | get now =>
    simp only [exchangeStep] at h
    split at h
    · rename_i live hlisted
      split_ifs at h
      · cases h
        exact .idle .idle (fun _ _ _ _ => by simp) rfl
      · split at h
        · cases h
          exact .idle .idle (fun _ _ _ _ => by simp) rfl
        · rename_i data hdata
          cases h
          exact .get now live data hdata
    · cases h
    · cases h
  | put order =>
    simp only [exchangeStep, Exchange.put] at h
    split at h
    · cases h
    · cases h
    · rename_i live currentPeriod revision data hgot
      split_ifs at h with horder hsame hrev
      · cases h
        exact .current order live currentPeriod revision data hgot (List.isPerm_iff.mp horder)
          (by simpa using hsame)
      · cases h
        exact .put order live currentPeriod revision data hgot (List.isPerm_iff.mp horder) hrev
      · cases h
        exact .idle .idle (fun _ _ _ _ => by simp) rfl

/-! ## One step -/

variable {s s' : Exchange} {e : ExchangeEvent} {Q : Process → Prop} {i : Nat}

theorem Local.posted (h : Local mp s i p e p') :
    p'.posted = p.posted ∧ p'.published = p.published ∧ p'.pod = p.pod ∧
      p'.running = p.running := by
  cases h with
  | request hst hfold => exact ⟨rfl, rfl, rfl, rfl⟩
  | snapshot hst =>
    obtain ⟨q, -, rfl⟩ := snapshot_eq_some hst
    exact ⟨rfl, rfl, rfl, rfl⟩
  | read => exact ⟨rfl, rfl, rfl, rfl⟩
  | fold hst =>
    obtain ⟨f, l, -, -, rfl⟩ := fold_eq_some hst
    exact ⟨rfl, rfl, rfl, rfl⟩

inductive ProcessStep (mp : ModelProvider) (s : Exchange) (e : ExchangeEvent) (i : Nat)
    (p : Process) : Process → Prop
  | same (he : ∀ clock, e ≠ .restart i clock) : ProcessStep mp s e i p p
  | stops : ProcessStep mp s e i p p.stop
  | acts (p' : Process) (hrun : p.running = true) (hl : Local mp s i p e p') :
      ProcessStep mp s e i p p'
  | applies (t : Time) (q : BudgetPartial) (hrun : p.running = true)
      (hq : p.publishing = some (t, q)) (he : e = .apply i) :
      ProcessStep mp s e i p (p.applied mp t q)

inductive ProcessMove (mp : ModelProvider) (s : Exchange) (e : ExchangeEvent) (i : Nat) :
    Process → Prop
  | steps (p p' : Process) (hi : s.procs[i]? = some p) (hstep : ProcessStep mp s e i p p') :
      ProcessMove mp s e i p'
  | starts (name : String) (clock : Clock) (hi : i = s.procs.length) (he : e = .start name clock)
      (hname : isFlag name = false) (hnew : name ∉ s.procs.map (·.pod)) :
      ProcessMove mp s e i (newProcess mp s.configMap name clock)
  | restarts (j : Nat) (p : Process) (clock : Clock) (hi : i = s.procs.length)
      (he : e = .restart j clock) (hj : s.procs[j]? = some p) (hrun : p.running = true) :
      ProcessMove mp s e i (newProcess mp s.configMap p.pod clock)

theorem getElem?_append_singleton {ps : List Process} (h : (ps ++ [p])[i]? = some p') :
    ps[i]? = some p' ∨ (i = ps.length ∧ p' = p) := by
  rw [List.getElem?_append] at h
  split_ifs at h with hlt
  · exact .inl h
  · rw [List.getElem?_singleton] at h
    split_ifs at h
    cases h
    exact .inr ⟨by omega, rfl⟩

theorem processMove_of_move (hmove : Move mp s e s') (hi : s'.procs[i]? = some p') :
    ProcessMove mp s e i p' := by
  cases hmove with
  | act j p p₁ hj hrun hl =>
    rw [List.getElem?_set] at hi
    split_ifs at hi with hij
    · subst hij
      cases hi
      exact .steps p p' hj (.acts p' hrun hl)
    · exact .steps p' p' hi (.same (by rintro _ rfl; cases hl))
  | start name clock pods hname hnew =>
    rcases getElem?_append_singleton hi with hold | ⟨hlast, rfl⟩
    · exact .steps p' p' hold (.same nofun)
    · exact .starts name clock hlast rfl hname hnew
  | restart j p clock hj hrun =>
    rcases getElem?_append_singleton hi with hold | ⟨hlast, rfl⟩
    · rw [List.getElem?_set] at hold
      split_ifs at hold with hij
      · subst hij
        cases hold
        exact .steps p _ hj .stops
      · exact .steps p' p' hold (.same (by rintro _ ⟨⟩; exact hij rfl))
    · exact .restarts j p clock (hlast.trans (by simp)) rfl hj hrun
  | pods pods procs gone hprocs he =>
    subst hprocs
    rw [List.getElem?_map, Option.map_eq_some_iff] at hi
    obtain ⟨p, hp, rfl⟩ := hi
    refine .steps p _ hp ?_
    split_ifs
    · exact .stops
    · exact .same (by rintro _ rfl; cases he)
  | apply j p t q hj hrun hq =>
    rw [commit_procs, List.getElem?_set] at hi
    split_ifs at hi with hij
    · subst hij
      cases hi
      exact .steps p _ hj (.applies t q hrun hq rfl)
    · exact .steps p' p' hi (.same nofun)
  | idle pass hpass he => exact .steps p' p' hi (.same (by rintro _ rfl; cases he))
  | get | put | current => exact .steps p' p' hi (.same nofun)

theorem exists_of_move (hmove : Move mp s e s') (hi : s.procs[i]? = some p) :
    ∃ p', s'.procs[i]? = some p' ∧ ProcessStep mp s e i p p' := by
  have hlt := (List.getElem?_eq_some_iff.mp hi).1
  have hlt' : i < s'.procs.length := by
    cases hmove with
    | act | idle | get | put | current => simpa using hlt
    | start | restart => simpa using Nat.lt_succ_of_lt hlt
    | pods pods procs gone hprocs _ => simpa [hprocs] using hlt
    | apply j q t partialSpend hj hrun hq => simpa [commit_procs] using hlt
  obtain ⟨p', hi'⟩ : ∃ p', s'.procs[i]? = some p' := ⟨_, List.getElem?_eq_getElem hlt'⟩
  refine ⟨p', hi', ?_⟩
  cases processMove_of_move hmove hi' with
  | steps p₀ _ hold hstep =>
    cases hi.symm.trans hold
    exact hstep
  | starts name clock hlast | restarts j p₀ clock hlast => omega

theorem ProcessStep.pod (h : ProcessStep mp s e i p p') : p'.pod = p.pod := by
  cases h with
  | acts _ hrun hl => exact hl.posted.2.2.1
  | same | stops | applies => rfl

theorem ProcessStep.running (h : ProcessStep mp s e i p p') (hr : p'.running = true) :
    p.running = true ∧ ∀ clock, e ≠ .restart i clock := by
  cases h with
  | same he => exact ⟨hr, he⟩
  | stops => cases hr
  | acts _ hrun hl => exact ⟨hrun, by rintro _ rfl; cases hl⟩
  | applies t q hrun hq he => exact ⟨hrun, by rintro _ rfl; cases he⟩

theorem forall_of_move (hmove : Move mp s e s')
    (hQ : ∀ p ∈ s.procs, Q p) (hstop : ∀ p, Q p → Q p.stop)
    (hstart : ∀ name clock, e = .start name clock → isFlag name = false →
      name ∉ s.procs.map (·.pod) → Q (newProcess mp s.configMap name clock))
    (hrestart : ∀ i p clock, e = .restart i clock → s.procs[i]? = some p →
      Q (newProcess mp s.configMap p.pod clock))
    (hlocal : ∀ i p p', s.procs[i]? = some p → p.running = true → Local mp s i p e p' →
      Q p → Q p')
    (happly : ∀ i p t q, e = .apply i → p.publishing = some (t, q) → Q p → Q (p.applied mp t q)) :
    ∀ p ∈ s'.procs, Q p := by
  intro p' hp'
  obtain ⟨i, hi⟩ := List.mem_iff_getElem?.mp hp'
  cases processMove_of_move hmove hi with
  | steps p _ hold hstep =>
    have hp := hQ p (List.mem_of_getElem? hold)
    cases hstep with
    | same => exact hp
    | stops => exact hstop p hp
    | acts _ hrun hl => exact hlocal i p _ hold hrun hl hp
    | applies t q hrun hq heq => exact happly i p t q heq hq hp
  | starts name clock hlast heq hname hnew => exact hstart name clock heq hname hnew
  | restarts j p clock hlast heq hj => exact hrestart j p clock heq hj

theorem Exchange.InOrder.write (h : s.InOrder Q P) {key : String} {flat : GoMap String String}
    (hkey : key ≠ canonicalKey) (hflat : ∀ ns, WholeCents (currentSpend P (.object flat) ns)) :
    (s.write key flat).InOrder Q P := by
  have hcents : (s.write key flat).Cents P := h.cents.write hflat
  have hcanonical : (s.write key flat).value canonicalKey = s.value canonicalKey :=
    write_value_ne (Ne.symm hkey)
  rcases write_cases s key flat with ⟨hno, -⟩ | hput
  · exact hno.symm ▸ h
  · rw [hput] at hcents hcanonical ⊢
    refine ⟨h.procs, h.names, h.unique, hcents, fun live period rev data hgot => ?_⟩
    obtain ⟨hper, hrev, -, hdata, hsame⟩ := h.pass live period rev data hgot
    exact ⟨hper, Nat.le_succ_of_le hrev, fun heq => absurd (heq ▸ hrev) (Nat.not_succ_le_self _),
      hdata, hsame.trans hcanonical.symm⟩

theorem Exchange.InOrder.unique_of_move (h : s.InOrder Q P) (hmove : Move mp s e s') (j k : Nat)
    (q q' : Process) (hj : s'.procs[j]? = some q) (hk : s'.procs[k]? = some q')
    (hr : q.running = true) (hr' : q'.running = true) (hpod : q.pod = q'.pod) : j = k := by
  -- a process was running in its Pod before, or it is new and alone there
  have hback : ∀ (j : Nat) (q : Process), s'.procs[j]? = some q → q.running = true →
      (∃ q₀, s.procs[j]? = some q₀ ∧ q₀.running = true ∧ q₀.pod = q.pod) ∨
      ∀ (k : Nat) (q' : Process), s'.procs[k]? = some q' → q'.running = true → q'.pod = q.pod →
        k = j := by
    intro j q hj hr
    cases processMove_of_move hmove hj with
    | steps q₀ _ hold hstep => exact .inl ⟨q₀, hold, (hstep.running hr).1, hstep.pod.symm⟩
    | starts name clock hlast he hname hnew =>
      refine .inr fun k q' hk _ hpod => ?_
      cases processMove_of_move hmove hk with
      | steps q₀ _ hold hstep =>
        exact absurd (List.mem_map.mpr ⟨q₀, List.mem_of_getElem? hold, hstep.pod.symm.trans hpod⟩)
          hnew
      | starts _ _ hlast' | restarts _ _ _ hlast' => exact hlast'.trans hlast.symm
    | restarts i p clock hlast he hi hrun =>
      refine .inr fun k q' hk hr' hpod => ?_
      cases processMove_of_move hmove hk with
      | steps q₀ _ hold hstep =>
        obtain ⟨hr₀, hnot⟩ := hstep.running hr'
        obtain rfl := h.unique i k p q₀ hi hold hrun hr₀ (hpod.symm.trans hstep.pod)
        exact absurd he (hnot clock)
      | starts _ _ hlast' | restarts _ _ _ hlast' => exact hlast'.trans hlast.symm
  rcases hback j q hj hr with ⟨q₀, hq₀, hr₀, hp₀⟩ | hnew
  · rcases hback k q' hk hr' with ⟨q₁, hq₁, hr₁, hp₁⟩ | hnew
    · exact h.unique j k q₀ q₁ hq₀ hq₁ hr₀ hr₁ (hp₀.trans (hpod.trans hp₁.symm))
    · exact hnew j q hj hr hpod
  · exact (hnew k q' hk hr' hpod.symm).symm

/-- One step keeps the exchange in order when it keeps each process so, and publishes
numbers of cents. -/
theorem Exchange.InOrder.step (h : s.InOrder Q P)
    (hget : ∀ now, e = .get now → periodKey mp.budget.period now = P)
    (hstop : ∀ p, Q p → Q p.stop)
    (hnew : ∀ pod clock, (e = .start pod clock ∨ ∃ i, e = .restart i clock) →
      Q (newProcess mp s.configMap pod clock))
    (hlocal : ∀ i p p', s.procs[i]? = some p → p.running = true → Q p → Local mp s i p e p' → Q p')
    (happly : ∀ p t q, Q p → p.publishing = some (t, q) →
      Q (p.applied mp t q) ∧ ∀ ns, WholeCents (currentSpend P (.object q.marshalJSON) ns))
    (hmove : Move mp s e s') : s'.InOrder Q P := by
  have hprocs : ∀ p ∈ s'.procs, Q p ∧ isFlag p.pod = false := by
    refine forall_of_move hmove (fun p hp => ⟨h.procs p hp, h.names p hp⟩)
      (fun p hp => ⟨hstop p hp.1, hp.2⟩)
      (fun name clock he hname _ => ⟨hnew name clock (.inl he), hname⟩)
      (fun i p clock he hi =>
        ⟨hnew p.pod clock (.inr ⟨i, he⟩), h.names p (List.mem_of_getElem? hi)⟩)
      (fun i p p' hi hrun hl hp => ⟨hlocal i p p' hi hrun hp.1 hl, hl.posted.2.2.1 ▸ hp.2⟩)
      fun i p t q _ hq hp => ⟨(happly p t q hp.1 hq).1, hp.2⟩
  have hnext : ∀ p ∈ s'.procs, Q p := fun p hp => (hprocs p hp).1
  have hnames : ∀ p ∈ s'.procs, isFlag p.pod = false := fun p hp => (hprocs p hp).2
  have hunique := h.unique_of_move hmove
  cases hmove with
  | act | start | restart | pods => exact ⟨hnext, hnames, hunique, h.cents, h.pass⟩
  | apply i p t q hi hrun hq =>
    simp only [commit_procs] at hnext hnames hunique
    have hset : ({ s with procs := s.procs.set i (p.applied mp t q) } : Exchange).InOrder Q P :=
      ⟨hnext, hnames, hunique, h.cents, h.pass⟩
    have hp := List.mem_of_getElem? hi
    exact hset.write (ne_canonicalKey_of_isFlag (h.names p hp)).1
      (happly p t q (h.procs p hp) hq).2
  | idle pass hpass _ =>
    exact ⟨hnext, hnames, hunique, h.cents, fun live period rev data hgot =>
      absurd hgot (hpass live period rev data)⟩
  | get now live data hdata =>
    refine ⟨hnext, hnames, hunique, h.cents, fun live' period rev data' hgot => ?_⟩
    cases hgot
    refine ⟨hget now rfl, le_rfl, fun _ => hdata, fun k raw hraw => h.cents k raw ?_, ?_⟩
    · simp [Exchange.value, hdata, hraw]
    · simp [Exchange.value, hdata]
  | put order live period rev data hgot horder hrev =>
    obtain ⟨rfl, -, hsame, hcents, -⟩ := h.pass live period rev data hgot
    have hred := reduced_reconcileBudget (fun k => live.contains k) horder hcents
    refine ⟨hnext, hnames, hunique, fun k raw hraw => ?_, fun _ _ _ _ hgot' => by cases hgot'⟩
    exact hred.cents k raw hraw
  | current order live period rev data hgot horder hsame =>
    exact ⟨hnext, hnames, hunique, h.cents, fun _ _ _ _ hgot' => by cases hgot'⟩

theorem fits_of_inPeriod {ev : LedgerEvent} (h : inPeriod mp P s (.request i ev) = true)
    (l : LedgerState) : Fits WholeCents mp P l ev := by
  simp only [inPeriod, Bool.and_eq_true] at h
  refine ⟨sameScheme_of_providerOf h.1.1, fun clock hc => ?_, fun c hc => ?_⟩
  · simpa [hc] using h.1.2
  · exact wholeCents_of_isWholeCents (by simpa [hc] using h.2)

theorem Local.ok (h : ProcessOk mp P p) (hlocal : Local mp s i p e p')
    (hin : inPeriod mp P s e = true) : ProcessOk mp P p' := by
  cases hlocal with
  | request hst hfold =>
    exact h.ledgerStep (fits_of_inPeriod hin p.ledger) hst rfl rfl rfl
  | snapshot hst => exact h.snapshot hst
  | read => exact ⟨h.ledger, h.publishing, h.posted⟩
  | fold hst =>
    simp only [inPeriod, Bool.and_eq_true] at hin
    exact h.fold hin.2 hst

theorem Exchange.Sound.step (h : s.Sound mp P) (hP : ∃ t, periodKey mp.budget.period t = P)
    (hin : inPeriod mp P s e = true) (hmove : Move mp s e s') : s'.Sound mp P := by
  refine InOrder.step h (fun now he => ?_) (fun p hp => hp.stop) (fun pod clock he => ?_)
    (fun i p p' _ _ hp hl => hl.ok hp hin) (fun p t q hp hq =>
      ⟨hp.applied hP hq, fun ns => (hp.contributes hP hq ns).1⟩) hmove
  · subst he
    simpa [inPeriod] using hin
  · refine processOk_newProcess ?_
    rcases he with rfl | ⟨i, rfl⟩ <;> exact hin

theorem Exchange.Initial.sound (h : s.Initial mp P) : s.Sound mp P := by
  refine ⟨fun p hp => ?_, h.names, h.unique, fun k raw hraw hk ns => ?_,
    fun _ _ _ _ hgot => by rw [h.reducer] at hgot; cases hgot⟩
  · have hfresh := h.procs p hp
    obtain ⟨t, es, hrun⟩ := hfresh.ran
    have hbooks := (books_run (books_initial mp.name mp.budget.period t) hrun).1
    have hzero : ∀ ns, spentBy mp P p.ledger ns = 0 := fun ns =>
      landedIn_eq_zero fun x hx => hfresh.landed x hx
    refine ⟨⟨hbooks, hfresh.later, fun x hx hn hper => absurd hper (hfresh.landed x hx hn)⟩,
      fun t q hq => ?_, fun raw hraw ns => ?_⟩
    · rw [hfresh.publishing] at hq
      cases hq
    · rw [hfresh.posted raw hraw, hzero]
      exact ⟨.zero, le_rfl⟩
  · obtain ⟨data, hdata, hlookup⟩ := Option.bind_eq_some_iff.mp hraw
    rw [h.data data hdata k raw hlookup hk]
    exact .zero

end Kaalm.Controller
