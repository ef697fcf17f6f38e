/-
  Gateway/Ledger.lean --- the budget ledger of one gateway replica
  (`internal/gateway/budget.go`, `internal/gateway/budget_hard.go`).

  WHAT IS MODELLED.  The counters per provider, the period rollover in `ledgerFor`, the
  policy ladder, and the hard-enforcement half: the boundary margin, the admission
  slots and the settle closure.  Money and percentages are exact rationals.

  THE CLOCK.  An operation reads the injected clock several times.  `Clock` holds
  those readings in order, so a rollover may fall between two of them.

  POINTERS.  `ledgerFor` returns the rolled-over ledger, and each operation stores what
  it made of it.
-/
import Kaalm.Foundation.GoMap
import Kaalm.Foundation.Decimal
import Kaalm.Gateway.Period

namespace Kaalm.Gateway

open Kaalm.Foundation

/-! ## The ModelProvider budget spec (`api/v1beta1/modelprovider_types.go`) -/

/-- `spec.budget.policies[].action`. -/
inductive BudgetAction where
  | block
  | warn
  | degrade
  deriving DecidableEq, Repr, Inhabited

/-- `ModelProviderBudgetPolicy`. -/
structure BudgetPolicy where
  atPercent : Int
  action : BudgetAction
  degradeTo : Option String
  deriving DecidableEq, Repr, Inhabited

/-- `spec.budget.enforcement`. -/
inductive BudgetEnforcement where
  | soft
  | hard
  deriving DecidableEq, Repr, Inhabited

/-- `ModelProviderBudgetHard`. -/
structure BudgetHard where
  boundaryMarginPercent : Int
  deriving DecidableEq, Repr, Inhabited

structure ModelProviderBudget where
  period : PeriodScheme
  perNamespaceUSD : String
  policies : List BudgetPolicy
  clusterUSD : Option String
  enforcement : BudgetEnforcement
  hard : Option BudgetHard
  deriving DecidableEq, Repr, Inhabited

/-- The part of a ModelProvider the ledger reads. -/
structure ModelProvider where
  name : String
  budget : ModelProviderBudget
  deriving DecidableEq, Repr, Inhabited

/-- The markers of the API schema on a budget: the numeric ranges, rule 32 (hard
needs a block policy) and rule 34 (the margin sits strictly below every block
threshold). -/
structure ModelProviderBudget.Accepted (budget : ModelProviderBudget) : Prop where
  atPercent : ∀ p ∈ budget.policies, 0 ≤ p.atPercent ∧ p.atPercent ≤ 100
  margin : ∀ h, budget.hard = some h →
    0 ≤ h.boundaryMarginPercent ∧ h.boundaryMarginPercent ≤ 100
  rule32 : budget.enforcement = .hard → ∃ p ∈ budget.policies, p.action = .block
  rule34 : ∀ h, budget.hard = some h →
    ∀ p ∈ budget.policies, p.action = .block → h.boundaryMarginPercent < p.atPercent

/-! ## Ledger state -/

/-- `providerLedger`.  A `time.Time` that may be zero is an option. -/
structure ProviderLedger where
  period : String
  own : GoMap String ℚ
  peers : GoMap String ℚ
  ownW : GoMap String ℚ
  peersW : GoMap String ℚ
  /-- the settle token of the holder of each slot -/
  adm : GoMap String UInt64
  nextToken : UInt64
  maxCostPerCall : ℚ
  rateBucketStart : Option Time
  rateBucketSum : ℚ
  peakRatePerSec : ℚ
  dirtySince : Option Time
  lastFoldOK : Option Time
  marginRaised : Bool
  deriving DecidableEq

/-- `BudgetLedger`.  `replicas` is what the injected counter reports, none when
no counter is injected; `kick` is the content of the kick channel. -/
structure BudgetLedger where
  replicas : Option Int
  kick : List String
  stalenessWindow : Duration
  providers : GoMap String ProviderLedger
  deriving DecidableEq

def defaultPublishInterval : Duration := 10 * second

def rateBucketWidth : Duration := 10 * second

def clusterSlotKey : String := ""

def kickCapacity : Nat := 64

def newBudgetLedger : BudgetLedger where
  replicas := none
  kick := []
  stalenessWindow := 3 * defaultPublishInterval
  providers := ∅

/-- The successive readings of the clock inside one operation. -/
structure Clock where
  t0 : Time
  t1 : Time
  t2 : Time
  t3 : Time
  le01 : t0 ≤ t1
  le12 : t1 ≤ t2
  le23 : t2 ≤ t3

/-- A clock that does not move during the operation. -/
def Clock.still (t : Time) : Clock := ⟨t, t, t, t, le_rfl, le_rfl, le_rfl⟩

def seconds (d : Duration) : ℚ := (d : ℚ) / (second : ℚ)

/-- A fresh `providerLedger`. -/
def ProviderLedger.new (period : String) : ProviderLedger where
  period := period
  own := ∅
  peers := ∅
  ownW := ∅
  peersW := ∅
  adm := ∅
  nextToken := 0
  maxCostPerCall := 0
  rateBucketStart := none
  rateBucketSum := 0
  peakRatePerSec := 0
  dirtySince := none
  lastFoldOK := none
  marginRaised := false

/-- The resets of a period rollover.  The token counter and both staleness
signals survive it. -/
def ProviderLedger.rollover (l : ProviderLedger) (period : String) : ProviderLedger :=
  { l with
    period := period
    own := ∅
    peers := ∅
    ownW := ∅
    peersW := ∅
    adm := ∅
    maxCostPerCall := 0
    rateBucketStart := none
    rateBucketSum := 0
    peakRatePerSec := 0
    marginRaised := false }

def BudgetLedger.stored (b : BudgetLedger) (providerName period : String) : ProviderLedger :=
  (b.providers.lookup providerName).getD (.new period)

/-- `ledgerFor`: the provider's ledger, rolled over when the clock has crossed a
period boundary. -/
def BudgetLedger.ledgerFor (b : BudgetLedger) (providerName : String)
    (scheme : PeriodScheme) (now : Time) : ProviderLedger :=
  let period := periodKey scheme now
  let l := b.stored providerName period
  if l.period ≠ period then l.rollover period else l

def BudgetLedger.put (b : BudgetLedger) (providerName : String) (l : ProviderLedger) :
    BudgetLedger :=
  { b with providers := b.providers.insert providerName l }

/-! ## Recording spend -/

/-- `trackLocked`: the observed-traffic tracker. -/
def ProviderLedger.track (l : ProviderLedger) (cost : ℚ) (now : Time) : ProviderLedger :=
  if cost ≤ 0 then l
  else
    let l := if cost > l.maxCostPerCall then { l with maxCostPerCall := cost } else l
    let l :=
      match l.rateBucketStart with
      | none => { l with rateBucketStart := some now, rateBucketSum := 0 }
      | some start =>
        if now - start ≥ rateBucketWidth then
          let r := l.rateBucketSum / seconds rateBucketWidth
          { l with
            peakRatePerSec := if r > l.peakRatePerSec then r else l.peakRatePerSec
            rateBucketStart := some now
            rateBucketSum := 0 }
        else l
    { l with rateBucketSum := l.rateBucketSum + cost }

/-- The counters of a settled cost, shared by `Add` and `settle`. -/
def ProviderLedger.land (l : ProviderLedger) (ns workload : String) (cost : ℚ)
    (trackAt dirtyAt : Time) : ProviderLedger :=
  let l := { l with
    own := l.own.addTo ns cost
    ownW := l.ownW.addTo (ns ++ "/" ++ workload) cost }
  let l := l.track cost trackAt
  { l with dirtySince := some (l.dirtySince.getD dirtyAt) }

/-- `Add`: record spend after a call completes. -/
def BudgetLedger.add (b : BudgetLedger) (provider : ModelProvider) (ns workload : String)
    (costUSD : ℚ) (clock : Clock) : BudgetLedger :=
  let scheme := provider.budget.period
  if periodKey scheme clock.t0 = "" ∨ costUSD = 0 then b
  else
    let l := b.ledgerFor provider.name scheme clock.t1
    b.put provider.name (l.land ns workload costUSD clock.t2 clock.t3)

/-- `FoldPeers`: replace the peer view. -/
def BudgetLedger.foldPeers (b : BudgetLedger) (provider : ModelProvider)
    (peers : GoMap String ℚ) (clock : Clock) : BudgetLedger :=
  let l := b.ledgerFor provider.name provider.budget.period clock.t0
  b.put provider.name { l with peers := peers, lastFoldOK := some clock.t1 }

/-- `FoldWorkloadPeers`: replace the per-workload peer view; the staleness signal
is not touched. -/
def BudgetLedger.foldWorkloadPeers (b : BudgetLedger) (provider : ModelProvider)
    (peers : GoMap String ℚ) (clock : Clock) : BudgetLedger :=
  let l := b.ledgerFor provider.name provider.budget.period clock.t0
  b.put provider.name { l with peersW := peers }

/-- `MarkPublished`: clear the write-path staleness signal unless a newer settle
landed after the snapshot. -/
def BudgetLedger.markPublished (b : BudgetLedger) (providerName : String) (snapshot : Time) :
    BudgetLedger :=
  match b.providers.lookup providerName with
  | none => b
  | some l =>
    match l.dirtySince with
    | some d => if d ≤ snapshot then b.put providerName { l with dirtySince := none } else b
    | none => b

/-- `spent`: own live counter plus peer partials. -/
def ProviderLedger.spent (l : ProviderLedger) (ns : String) : ℚ := l.own.at0 ns + l.peers.at0 ns

def ProviderLedger.clusterSpent (l : ProviderLedger) : ℚ := l.own.total + l.peers.total

/-! ## The policy ladder -/

/-- Which ceiling a decision is attributed to. -/
inductive CeilingKind where
  | namespace
  | cluster
  deriving DecidableEq, Repr, Inhabited

structure BudgetDecision where
  action : Option BudgetAction := none
  degradeTo : String := ""
  retryAfter : Int := 0
  percent : Int := 0
  ceiling : CeilingKind := .namespace
  throttled : Bool := false
  unavailable : Bool := false
  boundaryEngaged : Bool := false
  marginRaisedNow : Bool := false
  deriving DecidableEq, Repr

/-- The caller may forward: not blocked, not throttled, not unavailable. -/
def BudgetDecision.admitted (d : BudgetDecision) : Bool :=
  d.action ≠ some .block && !d.throttled && !d.unavailable

/-- A ceiling in force: a positive amount, or infinite. -/
inductive Ceiling where
  | usd (c : ℚ)
  | infinite
  deriving DecidableEq, Repr

def Ceiling.percent : Ceiling → ℚ → ℚ
  | .usd c, spent => spent / c * 100
  | .infinite, _ => 0

structure Utilization where
  nsPct : ℚ := 0
  clPct : ℚ := 0
  nsUSD : Option Ceiling := none
  clUSD : Option Ceiling := none
  worst : ℚ := 0
  worstIsCluster : Bool := false
  deriving DecidableEq, Repr

/-- The ceiling in force: the text parses and the amount is positive. -/
def ceilingOf (text : String) : Option Ceiling :=
  match parseFloat text with
  | some (.finite c) => if c > 0 then some (.usd c) else none
  | some (.inf false) => some .infinite
  | _ => none

def ModelProviderBudget.nsCeiling (budget : ModelProviderBudget) : Option Ceiling :=
  ceilingOf budget.perNamespaceUSD

def ModelProviderBudget.clCeiling (budget : ModelProviderBudget) : Option Ceiling :=
  budget.clusterUSD.bind ceilingOf

/-- `utilizationLocked`: both ceiling ratios from own plus peers spend. -/
def utilizationLocked (budget : ModelProviderBudget) (l : ProviderLedger) (ns : String) :
    Utilization :=
  let u : Utilization :=
    match budget.nsCeiling with
    | some c => { nsUSD := c, nsPct := c.percent (l.spent ns), worst := c.percent (l.spent ns) }
    | none => {}
  match budget.clCeiling with
  | some c =>
    let pct := c.percent l.clusterSpent
    if pct > u.worst then
      { u with clUSD := c, clPct := pct, worst := pct, worstIsCluster := true }
    else { u with clUSD := c, clPct := pct }
  | none => u

def ladderStep (worst : ℚ) (winner : Option BudgetPolicy) (p : BudgetPolicy) :
    Option BudgetPolicy :=
  if worst ≥ p.atPercent then
    match winner with
    | none => some p
    | some w => if p.atPercent > w.atPercent then some p else some w
  else winner

def ladder (policies : List BudgetPolicy) (worst : ℚ) : Option BudgetPolicy :=
  policies.foldl (ladderStep worst) none

/-- `decide`.  `now` is the ledger clock, `wall` the process clock `time.Until`
reads. -/
def decideBudget (budget : ModelProviderBudget) (u : Utilization) (now wall : Time) :
    BudgetDecision :=
  let d : BudgetDecision :=
    { percent := u.worst.num.tdiv u.worst.den
      ceiling := if u.worstIsCluster then .cluster else .namespace }
  match ladder budget.policies u.worst with
  | none => d
  | some w =>
    let d := { d with action := some w.action }
    match w.action with
    | .degrade => { d with degradeTo := w.degradeTo.getD "" }
    | .block =>
      { d with retryAfter := (nextPeriodStart budget.period now - wall).tdiv second + 1 }
    | .warn => d

/-- `Enforce`: the soft-mode decision. -/
def BudgetLedger.enforce (b : BudgetLedger) (provider : ModelProvider) (ns : String)
    (clock : Clock) (wall : Time) : BudgetLedger × BudgetDecision :=
  let budget := provider.budget
  if periodKey budget.period clock.t0 = "" ∨ budget.policies = [] then (b, {})
  else
    let l := b.ledgerFor provider.name budget.period clock.t1
    (b.put provider.name l, decideBudget budget (utilizationLocked budget l ns) clock.t2 wall)

/-! ## Hard enforcement -/

def hardActive (provider : ModelProvider) : Bool :=
  provider.budget.enforcement = .hard &&
    provider.budget.policies.any (fun p => p.action = .block)

/-- `minBlockAt`: the lowest block threshold, 101 without a block policy. -/
def minBlockAt (budget : ModelProviderBudget) : ℚ :=
  budget.policies.foldl
    (fun at_ p => if p.action = .block ∧ (p.atPercent : ℚ) < at_ then (p.atPercent : ℚ)
      else at_) 101

def configuredMarginPercent (budget : ModelProviderBudget) : ℚ :=
  match budget.hard with
  | some h => h.boundaryMarginPercent
  | none => 5

def BudgetLedger.replicasCount (b : BudgetLedger) : Int :=
  match b.replicas with
  | none => 1
  | some r => if r > 1 then r else 1

/-- `effectiveMarginPctLocked`. -/
def BudgetLedger.effectiveMarginPct (b : BudgetLedger) (l : ProviderLedger)
    (ceilingUSD : Option Ceiling) (configured : ℚ) : ℚ :=
  match ceilingUSD with
  | none => configured
  | some c =>
    let reps : ℚ := b.replicasCount
    let marginUSD := reps * l.maxCostPerCall +
      (reps - 1) * l.peakRatePerSec * seconds b.stalenessWindow
    let pct := c.percent marginUSD
    if pct > configured then pct else configured

structure Settle where
  providerName : String
  scheme : PeriodScheme
  capturedPeriod : String
  namespace_ : String
  workload : String
  keys : List String
  token : UInt64
  deriving DecidableEq

/-- What `Admit` leaves behind: the ledger, the decision and the settle closure
when a slot was acquired. -/
structure AdmitResult where
  ledger : BudgetLedger
  decision : BudgetDecision
  settle : Option Settle

/-- Neither staleness signal has tripped. -/
def BudgetLedger.fresh (b : BudgetLedger) (l : ProviderLedger) (now : Time) : Bool :=
  (match l.dirtySince with
    | none => true
    | some d => now - d ≤ b.stalenessWindow) &&
  (match l.lastFoldOK with
    | none => false
    | some f => now - f ≤ b.stalenessWindow)

/-- The slots a request inside a boundary region acquires. -/
def slotKeys (inBoundaryNS inBoundaryCL : Bool) (ns : String) : List String :=
  (if inBoundaryNS then [ns] else []) ++ (if inBoundaryCL then [clusterSlotKey] else [])

def acquire (adm : GoMap String UInt64) (keys : List String) (token : UInt64) :
    GoMap String UInt64 :=
  keys.foldl (fun m k => m.insert k token) adm

/-- A request finds the slot of its namespace, or the cluster slot, held. -/
def ProviderLedger.slotHeld (l : ProviderLedger) (u : Utilization) (ns : String) : Bool :=
  (l.adm.lookup ns).isSome || ((l.adm.lookup clusterSlotKey).isSome && u.clUSD.isSome)

/-- Inside the boundary region of the namespace ceiling. -/
def BudgetLedger.inBoundaryNS (b : BudgetLedger) (budget : ModelProviderBudget)
    (l : ProviderLedger) (u : Utilization) : Bool :=
  u.nsUSD.isSome && u.nsPct ≥ minBlockAt budget -
    b.effectiveMarginPct l u.nsUSD (configuredMarginPercent budget)

/-- Inside the boundary region of the cluster ceiling. -/
def BudgetLedger.inBoundaryCL (b : BudgetLedger) (budget : ModelProviderBudget)
    (l : ProviderLedger) (u : Utilization) : Bool :=
  u.clUSD.isSome && u.clPct ≥ minBlockAt budget -
    b.effectiveMarginPct l u.clUSD (configuredMarginPercent budget)

/-- The margin in force was widened past the configured floor on a ceiling whose
boundary region the request is in. -/
def BudgetLedger.widened (b : BudgetLedger) (budget : ModelProviderBudget)
    (l : ProviderLedger) (u : Utilization) : Bool :=
  let configured := configuredMarginPercent budget
  (b.inBoundaryNS budget l u && b.effectiveMarginPct l u.nsUSD configured > configured) ||
    (b.inBoundaryCL budget l u && b.effectiveMarginPct l u.clUSD configured > configured)

def BudgetLedger.admitRequest (b : BudgetLedger) (provider : ModelProvider) (ns workload : String)
    (clock : Clock) (wall : Time) : AdmitResult :=
  let budget := provider.budget
  let scheme := budget.period
  if periodKey scheme clock.t0 = "" ∨ budget.policies = [] then ⟨b, {}, none⟩
  else
    let l := b.ledgerFor provider.name scheme clock.t1
    let u := utilizationLocked budget l ns
    let d := decideBudget budget u clock.t2 wall
    let b' := b.put provider.name l
    if !hardActive provider || d.action = some .block then ⟨b', d, none⟩
    -- a held slot throttles even below the boundary: it releases on settle only
    else if l.slotHeld u ns then ⟨b', { d with throttled := true }, none⟩
    else
      let inNS := b.inBoundaryNS budget l u
      let inCL := b.inBoundaryCL budget l u
      if !inNS && !inCL then ⟨b', d, none⟩
      -- fail closed, only where the guarantee is live
      else if !b.fresh l clock.t3 then ⟨b', { d with unavailable := true }, none⟩
      else
        let raisedNow := b.widened budget l u && !l.marginRaised
        let token := l.nextToken + 1
        let keys := slotKeys inNS inCL ns
        let l' := { l with
          marginRaised := l.marginRaised || b.widened budget l u
          nextToken := token
          adm := acquire l.adm keys token }
        ⟨b.put provider.name l',
          { d with boundaryEngaged := true, marginRaisedNow := raisedNow },
          some { providerName := provider.name, scheme := scheme, capturedPeriod := l.period,
                 namespace_ := ns, workload := workload, keys := keys, token := token }⟩

def release (adm : GoMap String UInt64) (keys : List String) (token : UInt64) :
    GoMap String UInt64 :=
  keys.foldl (fun m k => if (m.lookup k).getD 0 = token then m.erase k else m) adm

/-- `settle`: land the actual cost and free the slots in one critical section. -/
def BudgetLedger.settle (b : BudgetLedger) (h : Settle) (costUSD : ℚ) (clock : Clock) :
    BudgetLedger :=
  let l := b.ledgerFor h.providerName h.scheme clock.t0
  let l := if l.period = h.capturedPeriod then
      { l with adm := release l.adm h.keys h.token }
    else l
  if costUSD = 0 then b.put h.providerName l
  else
    let b' := b.put h.providerName (l.land h.namespace_ h.workload costUSD clock.t1 clock.t2)
    -- a full kick channel means a publish is already imminent
    if b'.kick.length < kickCapacity then { b' with kick := b'.kick ++ [h.providerName] } else b'

end Kaalm.Gateway
