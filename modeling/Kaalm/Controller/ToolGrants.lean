/-
  Controller/ToolGrants.lean --- the tool grants of a workload, checked by its
  reconciler (`internal/controller/toolgrants.go`, rules 35 to 38).

  TWO READERS OF ONE LIST.  The reconciler checks every grant.  The broker looks
  for the first grant that names the provider and builds its filter from that one,
  so a later grant for the same provider is accepted and never takes effect.
  `grants_honoured_iff` says which lists of grants this leaves whole.
-/
import Kaalm.Controller.Cluster
import Kaalm.Gateway.McpBroker
import Mathlib.Data.Fintype.EquivFin

namespace Kaalm.Controller

open Kaalm.Foundation (quoted)
open Kaalm.Gateway (ToolProvider ToolGrant ClassSpec WorkloadSpec Caller Store
  namespaceGlobAllowed newToolFilter newToolFilter_permits_iff authorizeToolRoute)

/-! ## The check -/

/-- `namespaceAllowed`: the reconciler's copy of the gateway's glob match. -/
def namespaceAllowed (ns : String) (allowed : List String) : Bool := namespaceGlobAllowed ns allowed

def missingTools (catalog granted : List String) : List String :=
  if catalog = [] then [] else granted.filter fun t => t ∉ catalog

/-- One round of the loop.  A read that fails other than by absence is passed over. -/
def grantViolation (get : String → Except ApiError ToolProvider) (ns className : String)
    (cls : ClassSpec) (g : ToolGrant) : Option Violation :=
  if g.providerRef ∉ cls.allowedToolProviders then
    some ⟨"ClassConstraintViolation", "tool provider " ++ quoted g.providerRef ++
      " is not in AgentClass " ++ quoted className ++ " allowedToolProviders"⟩
  else
    match get g.providerRef with
    | .ok tp =>
      if !namespaceAllowed ns tp.allowedNamespaces then
        some ⟨"ClassConstraintViolation", "tool provider " ++ quoted g.providerRef ++
          " does not allow namespace " ++ quoted ns⟩
      else if missingTools tp.tools g.tools = [] then none
      else some ⟨"ToolNotInCatalog", "granted tools [" ++
        " ".intercalate (missingTools tp.tools g.tools) ++
        "] are not in the declared catalog of tool provider " ++ quoted g.providerRef⟩
    | .error .notFound => some ⟨"ClassConstraintViolation",
        "tool provider " ++ quoted g.providerRef ++ " does not exist"⟩
    | .error _ => none

def toolGrantViolations (get : String → Except ApiError ToolProvider) (ns : String)
    (grants : List ToolGrant) (className : String) (cls : ClassSpec) : List Violation :=
  grants.filterMap (grantViolation get ns className cls)

/-- A read of a ToolProvider that succeeds: the object, or its absence. -/
def readToolProvider (s : Store) (name : String) : Except ApiError ToolProvider :=
  (s.toolProviderByName name).elim (.error .notFound) .ok

/-! ## What a grant gives -/

/-- The tools a grant names: without a list, the catalog, and without a catalog
any. -/
def Granted (tp : ToolProvider) (g : ToolGrant) (t : String) : Prop :=
  if g.tools = [] then tp.tools = [] ∨ t ∈ tp.tools else t ∈ g.tools

/-- The first grant gives what a later one for the same provider gives: it is not
narrowed, or it names every tool of the later one. -/
def covers (tp : ToolProvider) (first g : ToolGrant) : Bool :=
  let named := if g.tools = [] then tp.tools else g.tools
  first.tools = [] || (named ≠ [] && named.all fun t => t ∈ first.tools)

def FirstCovers (s : Store) (grants : List ToolGrant) : Prop :=
  ∀ g ∈ grants, ∀ tp, s.toolProviderByName g.providerRef = some tp →
    ∀ first, grants.find? (fun g' => g'.providerRef = g.providerRef) = some first →
      covers tp first g = true

/-- The broker gives the caller what its grants name, and nothing else. -/
def Honoured (s : Store) (c : Caller) (grants : List ToolGrant) : Prop :=
  ∀ g ∈ grants, ∃ tp filter, s.toolProviderByName g.providerRef = some tp ∧
    authorizeToolRoute s c tp = .ok filter ∧
    ∀ t, filter.permits t = true ↔
      ∃ g' ∈ grants, g'.providerRef = g.providerRef ∧ Granted tp g' t

section Grants

variable {s : Store} {c : Caller} {className : String} {cls : ClassSpec} {g first : ToolGrant}
  {grants : List ToolGrant} {tp : ToolProvider}

/-- What the reconciler has established about a grant it does not report. -/
structure Accepted (s : Store) (ns : String) (cls : ClassSpec) (g : ToolGrant) (tp : ToolProvider) :
    Prop where
  found : s.toolProviderByName g.providerRef = some tp
  name : tp.name = g.providerRef
  classAllows : g.providerRef ∈ cls.allowedToolProviders
  nsAllowed : namespaceGlobAllowed ns tp.allowedNamespaces = true
  cataloged : tp.tools = [] ∨ ∀ t ∈ g.tools, t ∈ tp.tools

theorem accepted_of_grantViolation {ns : String}
    (h : grantViolation (readToolProvider s) ns className cls g = none) :
    ∃ tp, Accepted s ns cls g tp := by
  rw [grantViolation] at h
  split at h
  · cases h
  · next hallowed =>
    cases hfound : s.toolProviderByName g.providerRef with
    | none => simp [readToolProvider, hfound] at h
    | some tp =>
      simp only [readToolProvider, hfound, Option.elim_some] at h
      split at h
      · cases h
      · next hns =>
        split at h
        · next hmissing =>
          have hname : tp.name = g.providerRef := by simpa using List.find?_some hfound
          refine ⟨tp, hfound, hname, not_not.mp hallowed, by simpa [namespaceAllowed] using hns, ?_⟩
          by_cases htools : tp.tools = []
          · exact .inl htools
          · exact .inr (by simpa [missingTools, htools] using hmissing)
        · cases h

theorem Accepted.permits_iff {ns t : String} (h : Accepted s ns cls g tp) :
    (newToolFilter g.tools tp.tools).permits t = true ↔ Granted tp g t := by
  rw [newToolFilter_permits_iff, Granted]
  by_cases hg : g.tools = []
  · simp [hg]
  · rw [if_neg hg]
    refine ⟨fun ⟨hnamed, _⟩ => hnamed.resolve_left hg, fun ht => ⟨.inr ht, ?_⟩⟩
    exact h.cataloged.imp_right fun hall => hall t ht

theorem exists_not_mem (l : List String) : ∃ t, t ∉ l := by
  obtain ⟨cs, hcs⟩ := Infinite.exists_notMem_finset (l.map String.toList).toFinset
  refine ⟨String.ofList cs, fun hmem => hcs (List.mem_toFinset.mpr ?_)⟩
  exact List.mem_map.mpr ⟨_, hmem, String.toList_ofList⟩

theorem covers_iff {ns : String} (h : Accepted s ns cls g tp) :
    covers tp first g = true ↔ ∀ t, Granted tp g t → Granted tp first t := by
  by_cases hfirst : first.tools = []
  · simp only [covers, Granted, hfirst, decide_true, Bool.true_or, if_true, true_iff]
    intro t ht
    split at ht
    · exact ht
    · exact h.cataloged.imp_right fun hall => hall t ht
  · by_cases hg : g.tools = []
    · by_cases hcat : tp.tools = []
      · obtain ⟨t, ht⟩ := exists_not_mem first.tools
        simp only [covers, Granted, hfirst, hg, hcat]
        simpa using ⟨t, ht⟩
      · simp [covers, Granted, hfirst, hg, hcat]
    · simp [covers, Granted, hfirst, hg]

end Grants

/-- For every workload whose grants the reconciler accepts: the broker gives each
grant's tools and no others exactly when the first grant for a provider covers the
later ones. -/
theorem grants_honoured_iff (s : Store) {kind : WorkloadKind} {ns name : String}
    {spec : WorkloadSpec} (hspec : s.workload kind ns name = some spec) {cls : ClassSpec}
    (hclass : s.class_ spec.agentClassRef = some cls)
    (hnone : toolGrantViolations (readToolProvider s) ns spec.tools spec.agentClassRef cls = []) :
    Honoured s ⟨ns, some ⟨ns, name, kind⟩⟩ spec.tools ↔ FirstCovers s spec.tools := by
  have haccepted : ∀ g ∈ spec.tools, ∃ tp, Accepted s ns cls g tp := fun g hg =>
    accepted_of_grantViolation (List.filterMap_eq_nil_iff.mp hnone g hg)
  have hroute : ∀ g ∈ spec.tools, ∀ first,
      spec.tools.find? (fun g' => g'.providerRef = g.providerRef) = some first →
      ∃ tp filter, Accepted s ns cls g tp ∧
        authorizeToolRoute s ⟨ns, some ⟨ns, name, kind⟩⟩ tp = .ok filter ∧
        ∀ t, filter.permits t = true ↔ Granted tp first t := by
    intro g hg first hfirst
    obtain ⟨tp, hacc⟩ := haccepted g hg
    obtain ⟨tp', hacc'⟩ := haccepted first (List.mem_of_find?_eq_some hfirst)
    have href : first.providerRef = g.providerRef := by simpa using List.find?_some hfirst
    obtain rfl : tp = tp' := by
      have hfound := hacc'.found
      rw [href, hacc.found] at hfound
      exact Option.some.inj hfound
    refine ⟨tp, newToolFilter first.tools tp.tools, hacc, ?_, fun t => hacc'.permits_iff⟩
    simp [authorizeToolRoute, hacc.nsAllowed, hspec, hacc.name, hfirst, hclass, hacc.classAllows]
  constructor
  · intro h g hg tp hfound first hfirst
    obtain ⟨tp₁, filter, hacc, hok, hpermits⟩ := hroute g hg first hfirst
    obtain ⟨tp₂, filter', hfound', hok', hpermits'⟩ := h g hg
    obtain rfl : tp = tp₁ := Option.some.inj (hfound.symm.trans hacc.found)
    obtain rfl : tp = tp₂ := Option.some.inj (hfound.symm.trans hfound')
    obtain rfl : filter = filter' := Except.ok.inj (hok.symm.trans hok')
    exact (covers_iff hacc).mpr fun t ht =>
      (hpermits t).mp ((hpermits' t).mpr ⟨g, hg, rfl, ht⟩)
  · intro h g hg
    obtain ⟨first, hfirst⟩ : ∃ first,
        spec.tools.find? (fun g' => g'.providerRef = g.providerRef) = some first :=
      Option.isSome_iff_exists.mp (List.find?_isSome.mpr ⟨g, hg, decide_eq_true rfl⟩)
    obtain ⟨tp, filter, hacc, hok, hpermits⟩ := hroute g hg first hfirst
    refine ⟨tp, filter, hacc.found, hok, fun t => (hpermits t).trans ?_⟩
    constructor
    · exact fun ht => ⟨first, List.mem_of_find?_eq_some hfirst,
        by simpa using List.find?_some hfirst, ht⟩
    · rintro ⟨g', hg', href, ht⟩
      obtain ⟨tp', hacc'⟩ := haccepted g' hg'
      have hfound' := hacc'.found
      rw [href, hacc.found] at hfound'
      obtain rfl : tp = tp' := Option.some.inj hfound'
      have hcovers := h g' hg' tp hacc'.found first (by rw [href]; exact hfirst)
      exact (covers_iff hacc').mp hcovers t ht

/-- A workload with the two grants, for one tool server without a catalog. -/
def grantStore (first second : List String) : Store where
  providers := []
  toolProviders := [⟨"git", "https://git.test/mcp", ["team"], []⟩]
  workload _ _ _ := some ⟨[], [⟨"git", first⟩, ⟨"git", second⟩], "small"⟩
  class_ _ := some ⟨[], ["git"]⟩

theorem grants_honoured_covered :
    Honoured (grantStore ["read", "push"] ["read"]) ⟨"team", some ⟨"team", "x", .agent⟩⟩
      [⟨"git", ["read", "push"]⟩, ⟨"git", ["read"]⟩] := by
  refine (grants_honoured_iff (grantStore ["read", "push"] ["read"]) rfl rfl
    (by decide +kernel)).mpr fun g hg tp hfound first hfirst => ?_
  simp only [List.mem_cons, List.not_mem_nil, or_false] at hg
  obtain rfl | rfl := hg <;> cases hfound <;> cases hfirst <;> decide

/-- The second grant is accepted, and its tool refused. -/
theorem second_grant_ignored :
    toolGrantViolations (readToolProvider (grantStore ["read"] ["push"])) "team"
        [⟨"git", ["read"]⟩, ⟨"git", ["push"]⟩] "small" ⟨[], ["git"]⟩ = [] ∧
      ¬ Honoured (grantStore ["read"] ["push"]) ⟨"team", some ⟨"team", "x", .agent⟩⟩
        [⟨"git", ["read"]⟩, ⟨"git", ["push"]⟩] := by
  refine ⟨by decide +kernel, fun h => ?_⟩
  obtain ⟨tp, filter, hfound, hroute, hpermits⟩ := h ⟨"git", ["push"]⟩ (by simp)
  cases hfound
  cases hroute
  exact absurd ((hpermits "push").mpr ⟨⟨"git", ["push"]⟩, by simp, rfl, by simp [Granted]⟩)
    (by decide)

end Kaalm.Controller
