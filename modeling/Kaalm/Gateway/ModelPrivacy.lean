/-
  Gateway/ModelPrivacy.lean --- the models of providers a namespace may not use
  (`authorizeRoute` of `internal/gateway/routing.go`, `staticallyIneligible` of
  `fallback.go`).

  The route of a request and every candidate of its walk ask for the namespace before
  they look a model up.  `handleLLMProxy_blind` says over every two stores that differ
  only in the models of such providers that the handler is one and the same program.
-/
import Kaalm.Gateway.LlmRun

namespace Kaalm.Gateway

open Kaalm.Foundation

/-! ## Model lists of closed providers -/

/-- Two providers that differ in their models at most, and that only if the namespace is not
admitted. -/
def SameButModels (ns : String) (p q : Provider) : Prop :=
  p = q ∨ namespaceGlobAllowed ns p.allowedNamespaces = false ∧ q = { p with models := q.models }

/-- Two stores that differ only in the model lists of providers the namespace may not use. -/
structure SameOpen (ns : String) (a b : Store) : Prop where
  providers : List.Forall₂ (SameButModels ns) a.providers b.providers
  toolProviders : a.toolProviders = b.toolProviders
  workload : a.workload = b.workload
  class_ : a.class_ = b.class_

section Blind

variable {ns : String} {a b : Store}

theorem SameButModels.name_eq {p q : Provider} (h : SameButModels ns p q) : q.name = p.name := by
  rcases h with rfl | ⟨-, heq⟩
  · rfl
  · rw [heq]

theorem SameOpen.providerByName (h : SameOpen ns a b) (name : String) :
    (a.providerByName name = none ∧ b.providerByName name = none) ∨
      ∃ p q, a.providerByName name = some p ∧ b.providerByName name = some q ∧
        SameButModels ns p q := by
  have hproviders := h.providers
  unfold Store.providerByName
  generalize a.providers = ps at hproviders
  generalize b.providers = qs at hproviders
  induction hproviders with
  | nil => exact .inl ⟨rfl, rfl⟩
  | @cons p q ps qs hpq _ ih =>
    rw [List.find?_cons, List.find?_cons, hpq.name_eq]
    split
    · exact .inr ⟨p, q, rfl, rfl, hpq⟩
    · exact ih

theorem authorizeRoute_blind {c : Caller} (h : SameOpen c.ns a b) (name model : String) :
    authorizeRoute a c name model = authorizeRoute b c name model := by
  have hgates : authorizeWorkload a c name = authorizeWorkload b c name := by
    unfold authorizeWorkload
    rw [h.workload, h.class_]
  unfold authorizeRoute
  congr 1
  funext _
  obtain ⟨ha, hb⟩ | ⟨p, q, ha, hb, rfl | ⟨hclosed, hq⟩⟩ := h.providerByName name
  · rw [ha, hb]
  · rw [ha, hb]
  · rw [ha, hb, hq]
    simp [hclosed]

section Walks

variable {Op : Type} {Ans : Op → Type} {calls : WalkCalls Op Ans} {w : Walk}

theorem staticallyIneligible_closed {p : Provider} (st : WalkState)
    (h : namespaceGlobAllowed w.ns p.allowedNamespaces = false) :
    ∃ reason, w.staticallyIneligible p st = .error reason := by
  unfold Walk.staticallyIneligible
  split_ifs with hformat hcross hns
  · exact ⟨_, rfl⟩
  · exact ⟨_, rfl⟩
  · exact ⟨_, rfl⟩
  · simp [h] at hns
  · simp [h] at hns

theorem walkRefs_blind {visit visit' : Provider → WalkState → Prog Op Ans Stuck Walked}
    (h : SameOpen ns a b) (hvisit : ∀ p q st, SameButModels ns p q → visit p st = visit' q st)
    (model : String) (refs : List FallbackReference) (st : WalkState) :
    walkRefs a visit model refs st = walkRefs b visit' model refs st := by
  induction refs generalizing st with
  | nil => rfl
  | cons ref refs ih =>
    unfold walkRefs
    obtain ⟨ha, hb⟩ | ⟨p, q, ha, hb, hpq⟩ := h.providerByName ref.name
    · rw [ha, hb]
      exact ih st
    · simp only [ha, hb, hpq.name_eq, hvisit p q _ hpq, ih]

theorem tryWithFallbacks_blind (h : SameOpen w.ns a b) (fuel : Nat) (p q : Provider)
    (st : WalkState) (hpq : SameButModels w.ns p q) :
    tryWithFallbacks calls a w fuel p st = tryWithFallbacks calls b w fuel q st := by
  induction fuel generalizing p q st with
  | zero => rfl
  | succ fuel ih =>
    rcases hpq with rfl | ⟨hclosed, heq⟩
    · have hchildren : ∀ st, walkChildren a w (tryWithFallbacks calls a w fuel) p st =
          walkChildren b w (tryWithFallbacks calls b w fuel) p st :=
        fun st => walkRefs_blind h ih _ _ st
      simp only [tryWithFallbacks, attemptCandidate, hchildren]
    · have hclosed' : namespaceGlobAllowed w.ns q.allowedNamespaces = false := by
        rw [heq]
        exact hclosed
      have hname : q.name = p.name := by rw [heq]
      obtain ⟨_, hp⟩ := staticallyIneligible_closed (st.mark p.name) hclosed
      obtain ⟨_, hq⟩ := staticallyIneligible_closed (st.mark q.name) hclosed'
      rw [tryWithFallbacks, tryWithFallbacks, hp, hq, hname]

end Walks

/-- The handler is one program in both stores: no answer of the ledger, the limiter, the
credentials, the upstream or the caller tells them apart. -/
theorem handleLLMProxy_blind (a b : Store) (cfg : LlmConfig) (c : Caller) (r : LlmRequest)
    (h : SameOpen c.ns a b) : handleLLMProxy a cfg c r = handleLLMProxy b cfg c r := by
  have hforward : ∀ adapter parsed provider modelID settle,
      forwardAdmitted a r (walkOf cfg c r adapter parsed provider modelID settle) =
        forwardAdmitted b r (walkOf cfg c r adapter parsed provider modelID settle) := by
    intro adapter parsed provider modelID settle
    unfold forwardAdmitted
    rw [h.providers.length_eq, tryWithFallbacks_blind h _ _ _ _ (.inl rfl)]
  simp only [handleLLMProxy, authorizeRoute_blind h, proxyRoute, proxyAdmitted, hforward]

end Blind

/-- A provider of the namespace that falls back to one of another namespace, and that one. -/
def privateStore (models : List ProviderModel) : Store :=
  { cappedStore .openai with
    providers := [{ cappedProvider .openai with fallback := [⟨"private", ∅⟩] },
      { cappedProvider .openai with
        name := "private"
        allowedNamespaces := ["ops"]
        models := models }] }

theorem handleLLMProxy_blind_fallback :
    handleLLMProxy (privateStore []) ⟨3, 4096⟩ ⟨"team", none⟩
        (plainRequest "/v1/chat/completions" "\x7b\"model\":\"openai/m\"\x7d") =
      handleLLMProxy (privateStore [⟨"m", some 4096, "1", "2"⟩]) ⟨3, 4096⟩ ⟨"team", none⟩
        (plainRequest "/v1/chat/completions" "\x7b\"model\":\"openai/m\"\x7d") :=
  handleLLMProxy_blind _ _ _ _ _
    ⟨.cons (.inl rfl) (.cons (.inr ⟨by decide, rfl⟩) .nil), rfl, rfl, rfl⟩

end Kaalm.Gateway
