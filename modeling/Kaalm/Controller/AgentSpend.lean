/-
  Controller/AgentSpend.lean --- the reducer over the workload partials
  (`internal/controller/modelprovider_agentspend.go`).

  The breakdown by workload is reduced like the budget, with three differences: a stale
  or unreadable `_retired` is deleted, spend of other periods is not archived, and no
  status is written.  The loop works on the same record; what only the budget has
  (`previous`, `previousPeriod`, `marginRaised`) stays at its zero value.
-/
import Kaalm.Controller.BudgetReducer

namespace Kaalm.Controller

open Kaalm.Foundation Kaalm.Gateway

/-- The body of the loop of `reconcileAgentSpend`. -/
def foldAgentKey (live : String → Bool) (currentPeriod : String) (f : BudgetFold) (k : String)
    (raw : RawValue) : BudgetFold :=
  if k = canonicalKey then f
  else if k = retiredKey then
    match parseBudgetPartial raw with
    | none => f.drop k
    | some p =>
      if p.period = currentPeriod then { f with retired := f.retired.addAll p.spend }
      else f.drop k
  else if !live k then
    match parseBudgetPartial raw with
    | none => f.drop k
    | some p =>
      if p.period = currentPeriod then
        ({ f with retired := f.retired.addAll p.spend, retiredChanged := true } : BudgetFold).drop k
      else f.drop k
  else
    match parseBudgetPartial raw with
    | none => f
    | some p =>
      if p.period = currentPeriod then { f with current := f.current.addAll p.spend }
      else f.drop k

/-- `reconcileAgentSpend` up to its update. -/
def reconcileAgentSpend (data : GoMap String RawValue)
    (order : List (Sigma fun _ : String => RawValue)) (live : String → Bool)
    (currentPeriod : String) : Reduction :=
  (order.foldl (fun f e => foldAgentKey live currentPeriod f e.1 e.2) { data := data }).finish
    currentPeriod

end Kaalm.Controller
