/-
  Gateway/Fallback.lean --- the fallback walk (`internal/gateway/fallback.go`).

  `tryWithFallbacks` is a recursion over a graph that may have cycles, with a
  state that all of it shares; what ends it is the set of names it has visited.
  Here the state is passed along and the recursion has fuel.  Running out of it is an
  outcome of its own, `Stuck`: a walk that is given more fuel than there are providers
  never meets it.

  The walk asks others three things: the ledger for admission, the settle closure
  it got from there, and `attempt`.  Events, metrics and spans are left out.
-/
import Kaalm.Foundation.Prog
import Kaalm.Gateway.Adapters

namespace Kaalm.Gateway

open Kaalm.Foundation Kaalm.Foundation.Json Kaalm.Translate

/-! ## Outcomes of an attempt -/

/-- `failClass` but for `classNone`. -/
inductive FailClass where
  | connect
  | timeout
  | upstream
  | budget
  | nonFallbackable
  | budgetUnavailable
  deriving DecidableEq, Repr

/-- `2xx`. -/
def isSuccess (status : Nat) : Bool := 200 ≤ status && status ≤ 299

def isFallbackable (status : Nat) : Bool × Option FailClass :=
  if isSuccess status then (false, none)
  else if status = 429 ∨ (500 ≤ status ∧ status ≤ 599) then (true, some .upstream)
  else if status = 401 ∨ status = 403 then (true, some .upstream)
  else if 400 ≤ status ∧ status ≤ 499 then (false, some .nonFallbackable)
  else (true, some .upstream)

/-- An HTTP answer: `body` is everything the upstream delivers, as the text its bytes
spell in UTF-8, and `cut` says that reading it ended in an error. -/
structure UpstreamResponse where
  status : Nat
  header : Header
  body : String
  cut : Bool

/-- `forwardResult`; the transport error is a class without an answer. -/
structure ForwardResult where
  resp : Option UpstreamResponse := none
  fallbackable : Bool
  failClass : Option FailClass
  chosen : Option Provider := none
  model : String := ""
  format : Option Format := none
  settle : Option Settle := none

/-- A transport failure. -/
def ForwardResult.failed (failClass : FailClass) : ForwardResult :=
  { fallbackable := true, failClass := some failClass }

/-- The walk ends with this result: a 2xx, or an answer that is passed back. -/
def ForwardResult.terminal (res : ForwardResult) : Bool :=
  (res.failClass.isNone && res.resp.any fun resp => isSuccess resp.status) || !res.fallbackable

/-! ## The state of a walk -/

/-- The fields of `walkState` that a walk reads. -/
structure Walk where
  primary : Provider
  ns : String
  workload : String
  modelID : String
  maxDepth : Int
  primarySettle : Option Settle
  parsed : Obj
  inboundFormat : Option Format

/-- The fields of `walkState` that a walk writes. -/
structure WalkState where
  attemptCount : Nat := 0
  visited : List String := []
  observed : List FailClass := []
  maxRetryAfter : Int := 0
  modelFor : GoMap String String := ∅
  translated : GoMap String Obj := ∅

/-- `st.observed[class] = true`. -/
def WalkState.observe (st : WalkState) (failClass : FailClass) : WalkState :=
  { st with observed := st.observed.insert failClass }

/-- `st.visited[name] = true`. -/
def WalkState.mark (st : WalkState) (name : String) : WalkState :=
  { st with visited := name :: st.visited }

/-- `st.attemptCount++`. -/
def WalkState.takeSlot (st : WalkState) : WalkState :=
  { st with attemptCount := st.attemptCount + 1 }

/-- `st.modelFor[name] = model`. -/
def WalkState.setModel (st : WalkState) (name model : String) : WalkState :=
  { st with modelFor := st.modelFor.insert name model }

namespace Walk

variable (w : Walk)

def start : WalkState := WalkState.setModel {} w.primary.name w.modelID

def candidateModel (st : WalkState) (provider : Provider) : String :=
  match st.modelFor.lookup provider.name with
  | some m => if m = "" then w.modelID else m
  | none => w.modelID

/-- `crosses`, with the two formats. -/
def crosses (provider : Provider) : Option (Format × Format) :=
  match w.inboundFormat, formatForType provider.type with
  | some inbound, some target => if target = inbound then none else some (inbound, target)
  | _, _ => none

/-- `staticallyIneligible`: the reason, or the state with the translation kept. -/
def staticallyIneligible (provider : Provider) (st : WalkState) : Except String WalkState :=
  if provider.name ≠ w.primary.name ∧
      !fallbackFormatCompatible w.primary.type provider.type then
    .error ("type " ++ quoted provider.type.text ++ " cannot follow primary type " ++
      quoted w.primary.type.text ++ " (rule 12)")
  else if provider.name ≠ w.primary.name ∧
      fallbackCrossesFormat w.primary.type provider.type ∧ w.inboundFormat = none then
    .error ("the request's format cannot cross into type " ++ quoted provider.type.text)
  else if !namespaceGlobAllowed w.ns provider.allowedNamespaces then
    .error ("namespace " ++ quoted w.ns ++ " not in allowedNamespaces")
  else
    let model := w.candidateModel st provider
    if !provider.offers model then .error ("model " ++ quoted model ++ " not offered")
    else
      match w.crosses provider with
      | none => .ok st
      | some (inbound, target) =>
        if (st.translated.lookup provider.name).isSome then .ok st
        else
          match request inbound target w.parsed model (maxOutputTokensOf provider model) with
          | .error reason => .error reason
          | .ok body => .ok { st with translated := st.translated.insert provider.name body }

end Walk

/-! ## Eligibility -/

abbrev Candidate : Type := Provider × String

namespace Walk

variable (w : Walk)

/-- What a candidate has to meet before it takes a slot. -/
structure Eligible (cand : Candidate) : Prop where
  format : cand.1.name ≠ w.primary.name →
    fallbackFormatCompatible w.primary.type cand.1.type = true
  crossable : cand.1.name ≠ w.primary.name →
    fallbackCrossesFormat w.primary.type cand.1.type = true → w.inboundFormat ≠ none
  inNamespace : namespaceGlobAllowed w.ns cand.1.allowedNamespaces = true
  offered : cand.1.offers cand.2 = true
  translatable : ∀ inbound target, w.crosses cand.1 = some (inbound, target) →
    ∃ body, request inbound target w.parsed cand.2 (maxOutputTokensOf cand.1 cand.2) = .ok body

/-- The translations after an eligible candidate was checked. -/
structure Checked (st : WalkState) (cand : Candidate) (translated : GoMap String Obj) : Prop where
  others : ∀ name, name ≠ cand.1.name → translated.lookup name = st.translated.lookup name
  own : ∀ inbound target, w.crosses cand.1 = some (inbound, target) → ∃ body,
    request inbound target w.parsed cand.2 (maxOutputTokensOf cand.1 cand.2) = .ok body ∧
      translated.lookup cand.1.name = some body

variable {w}

/-- `staticallyIneligible` of a candidate that was not checked before: a reason for
one that is not eligible, the translation for one that is. -/
theorem staticallyIneligible_spec {provider : Provider} {st : WalkState} {model : String}
    (hfresh : st.translated.lookup provider.name = none)
    (hmodel : w.candidateModel st provider = model) :
    (∃ reason, w.staticallyIneligible provider st = .error reason ∧
        ¬ w.Eligible (provider, model)) ∨
      ∃ translated, w.staticallyIneligible provider st = .ok { st with translated := translated } ∧
        w.Eligible (provider, model) ∧ w.Checked st (provider, model) translated := by
  unfold staticallyIneligible
  simp only [hmodel, hfresh, Option.isSome_none, Bool.false_eq_true, if_false]
  split_ifs with hformat hcross hns hoffer
  · refine .inl ⟨_, rfl, fun h => ?_⟩
    simp [h.format hformat.1] at hformat
  · exact .inl ⟨_, rfl, fun h => h.crossable hcross.1 hcross.2.1 hcross.2.2⟩
  · refine .inl ⟨_, rfl, fun h => ?_⟩
    simp [h.inNamespace] at hns
  · refine .inl ⟨_, rfl, fun h => ?_⟩
    simp [h.offered] at hoffer
  have helig (htr : ∀ inbound target, w.crosses provider = some (inbound, target) →
      ∃ body, request inbound target w.parsed model (maxOutputTokensOf provider model) = .ok body) :
      w.Eligible (provider, model) :=
    { format := fun hne => by simpa [hne] using hformat
      crossable := fun hne hc hnone => hcross ⟨hne, hc, hnone⟩
      inNamespace := by simpa using hns
      offered := by simpa using hoffer
      translatable := htr }
  cases hc : w.crosses provider with
  | none =>
    refine .inr ⟨st.translated, rfl, helig fun _ _ h => ?_, ⟨fun _ _ => rfl, fun _ _ h => ?_⟩⟩
    · rw [hc] at h; cases h
    · rw [show w.crosses provider = none from hc] at h; cases h
  | some formats =>
    obtain ⟨inbound, target⟩ := formats
    dsimp only
    cases hreq : request inbound target w.parsed model (maxOutputTokensOf provider model) with
    | error reason =>
      refine .inl ⟨reason, rfl, fun h => ?_⟩
      obtain ⟨body, hbody⟩ := h.translatable inbound target hc
      simp [hreq] at hbody
    | ok body =>
      have hown : ∀ inbound' target', w.crosses provider = some (inbound', target') →
          request inbound' target' w.parsed model (maxOutputTokensOf provider model) =
            .ok body := by
        intro inbound' target' h
        rw [hc, Option.some.injEq, Prod.mk.injEq] at h
        obtain ⟨rfl, rfl⟩ := h
        exact hreq
      refine .inr ⟨_, rfl, helig fun i t h => ⟨body, hown i t h⟩, ⟨fun name hne => ?_, ?_⟩⟩
      · exact AList.lookup_insert_ne hne
      · exact fun i t h => ⟨body, hown i t h, AList.lookup_insert _⟩

end Walk

/-- What a refused admission leaves in the state; none when the candidate may be
attempted. -/
def WalkState.refused (st : WalkState) (d : BudgetDecision) : Option WalkState :=
  if d.unavailable then some (st.observe .budgetUnavailable)
  else if d.throttled then
    some { st.observe .budget with maxRetryAfter := max st.maxRetryAfter 1 }
  else if d.action = some .block then
    some { st.observe .budget with maxRetryAfter := max st.maxRetryAfter d.retryAfter }
  else none

/-- An admission that is not one: `Unavailable`, `Throttled` or a block. -/
def refuses (d : BudgetDecision) : Bool := d.unavailable || d.throttled || d.action = some .block

theorem isSome_refused (st : WalkState) (d : BudgetDecision) :
    (st.refused d).isSome = refuses d := by
  unfold WalkState.refused refuses
  split_ifs with hunavailable hthrottled hblock
  · simp [hunavailable]
  · simp [hthrottled]
  · simp [hblock]
  · simp [hunavailable, hthrottled, hblock]

/-! ## The walk -/

/-- What ends a program without a result: the recursion ran out of fuel, or an
answer that is not there was looked at. -/
inductive Stuck where
  | outOfFuel
  | nilResponse
  deriving DecidableEq, Repr

section Walking

variable {Op : Type} {Ans : Op → Type}

/-- What a walk asks others: `Budget.Admit`, a settle with no cost, and the
`attempt` closure, which may write to the state. -/
structure WalkCalls (Op : Type) (Ans : Op → Type) where
  admission : Provider → Prog Op Ans Stuck (BudgetDecision × Option Settle)
  release : Settle → Prog Op Ans Stuck Unit
  attempt : WalkState → Provider → Prog Op Ans Stuck (ForwardResult × WalkState)

/-- How a part of a walk ends: the result that ends the whole walk, if it met one.
A result that does not is looked at by nobody. -/
abbrev Walked : Type := Option ForwardResult × WalkState

def mappedModel (ref : FallbackReference) (parentModel : String) : String :=
  match ref.modelMap.lookup parentModel with
  | some mapped => if mapped = "" then parentModel else mapped
  | none => parentModel

variable (calls : WalkCalls Op Ans) (s : Store) (w : Walk)

/-- The loop of `walkChildren`; `visit` is `tryWithFallbacks`. -/
def walkRefs (visit : Provider → WalkState → Prog Op Ans Stuck Walked) (parentModel : String) :
    List FallbackReference → WalkState → Prog Op Ans Stuck Walked
  | [], st => pure (none, st)
  | ref :: refs, st =>
    match s.providerByName ref.name with
    | none => walkRefs visit parentModel refs st
    | some next => do
      let walked ← visit next (st.setModel next.name (mappedModel ref parentModel))
      match walked with
      | (some res, st) => pure (some res, st)
      | (none, st) => walkRefs visit parentModel refs st

def walkChildren (visit : Provider → WalkState → Prog Op Ans Stuck Walked) (provider : Provider)
    (st : WalkState) : Prog Op Ans Stuck Walked :=
  walkRefs s visit (w.candidateModel st provider) provider.fallback st

/-- The budget admission of a candidate that has taken its slot: the state of a
refused one, and the settle closure of the other.  The primary was admitted before
the walk. -/
def admitCandidate (provider : Provider) (st : WalkState) :
    Prog Op Ans Stuck (Option WalkState × Option Settle) :=
  if provider.name = w.primary.name then pure (none, w.primarySettle)
  else do
    let (d, settle) ← calls.admission provider
    pure (st.refused d, settle)

/-- `settle(0)` where there is one. -/
def releaseSlot (release : Settle → Prog Op Ans Stuck Unit) : Option Settle → Prog Op Ans Stuck Unit
  | none => pure ()
  | some settle => release settle

/-- The attempt on an admitted candidate and what follows it. -/
def attemptCandidate (visit : Provider → WalkState → Prog Op Ans Stuck Walked)
    (provider : Provider) (st : WalkState) (settle : Option Settle) :
    Prog Op Ans Stuck Walked := do
  let (res, st) ← calls.attempt st provider
  if res.terminal then pure (some { res with settle := settle }, st)
  else do
    -- the slot is freed before the walk goes on to another provider
    releaseSlot calls.release settle
    walkChildren s w visit provider st

def tryWithFallbacks : Nat → Provider → WalkState → Prog Op Ans Stuck Walked
  | 0, _, _ => .fail .outOfFuel
  | fuel + 1, provider, st =>
    if provider.name ∈ st.visited then pure (none, st)
    else
      match w.staticallyIneligible provider (st.mark provider.name) with
      | .error _ => pure (none, st.mark provider.name)
      | .ok st =>
        if w.maxDepth ≤ st.attemptCount then pure (none, st)
        else do
          let admission ← admitCandidate calls w provider st.takeSlot
          match admission with
          | (some st, _) => walkChildren s w (tryWithFallbacks fuel) provider st
          | (none, settle) =>
            attemptCandidate calls s w (tryWithFallbacks fuel) provider st.takeSlot settle

variable {calls s w} {provider : Provider} {st st' : WalkState}

/-! The four ways of a call that has fuel. -/

theorem tryWithFallbacks_met (fuel : Nat) (hmet : provider.name ∈ st.visited) :
    tryWithFallbacks calls s w (fuel + 1) provider st = pure (none, st) := by
  rw [tryWithFallbacks, if_pos hmet]

theorem tryWithFallbacks_ineligible (fuel : Nat) (hnew : provider.name ∉ st.visited)
    {reason : String}
    (hcheck : w.staticallyIneligible provider (st.mark provider.name) = .error reason) :
    tryWithFallbacks calls s w (fuel + 1) provider st = pure (none, st.mark provider.name) := by
  rw [tryWithFallbacks, if_neg hnew, hcheck]

theorem tryWithFallbacks_full (fuel : Nat) (hnew : provider.name ∉ st.visited)
    (hcheck : w.staticallyIneligible provider (st.mark provider.name) = .ok st')
    (hfull : w.maxDepth ≤ st'.attemptCount) :
    tryWithFallbacks calls s w (fuel + 1) provider st = pure (none, st') := by
  rw [tryWithFallbacks, if_neg hnew, hcheck]
  exact if_pos hfull

end Walking

/-! ## Exhaustion -/

structure ErrorBody where
  type : ErrorType
  message : String
  provider : String
  retryable : Bool
  deriving DecidableEq, Repr

/-- What `writeError` is given. -/
structure GatewayError where
  status : Nat
  body : ErrorBody
  retryAfter : Int
  deriving DecidableEq, Repr

def exhaustionError (observed : List FailClass) (maxRetryAfter : Int) (providerName : String) :
    GatewayError :=
  let budgetOnly := !observed.isEmpty && observed.all fun c => c = .budget || c = .budgetUnavailable
  if budgetOnly && observed.contains .budgetUnavailable then
    ⟨503, ⟨.budgetUnavailable, "budget state could not be verified for the provider and all " ++
      "fallbacks; failing closed", providerName, true⟩, 1⟩
  else if budgetOnly then
    ⟨429, ⟨.budgetExhausted, "the provider and all fallbacks are budget-blocked", providerName,
      true⟩, maxRetryAfter⟩
  else if observed = [.connect] then
    ⟨503, ⟨.providerUnavailable, "all providers were unreachable", providerName, false⟩, 0⟩
  else if observed = [.timeout] then
    ⟨504, ⟨.providerTimeout, "all provider attempts timed out", providerName, false⟩, 0⟩
  else
    ⟨502, ⟨.providerError, "the provider and all fallbacks failed", providerName, false⟩, 0⟩

end Kaalm.Gateway
