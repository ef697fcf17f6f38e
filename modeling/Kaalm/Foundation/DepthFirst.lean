/-
  Foundation/DepthFirst.lean --- the preorder of a depth-first search.

  A search goes through a list of nodes in order.  A node whose key has been met
  before is passed over; a new one is marked, and if it is eligible it is put out
  and the search goes through its children before it goes on.  A node that is
  not eligible is marked and nothing else: its children are not searched through
  it.  `Preorder` says this as a relation, so it needs no bound; that a finite
  set of keys gives exactly one result is `exists_preorder` and `Preorder.unique`.
-/
import Mathlib.Data.Finset.Card

namespace Kaalm.Foundation

/-- A graph whose nodes are told apart by a key. -/
structure Graph (ν κ : Type) where
  key : ν → κ
  children : ν → List ν
  eligible : ν → Prop

namespace Graph

variable {ν κ : Type} (g : Graph ν κ)

/-- `Preorder seen work out seen'`: from the marks `seen`, the search through
`work` puts out `out` and leaves the marks `seen'`. -/
inductive Preorder : List κ → List ν → List ν → List κ → Prop
  | nil (seen : List κ) : Preorder seen [] [] seen
  | met {seen seen' : List κ} {x : ν} {work out : List ν} (h : g.key x ∈ seen)
      (rest : Preorder seen work out seen') : Preorder seen (x :: work) out seen'
  | skip {seen seen' : List κ} {x : ν} {work out : List ν} (h : g.key x ∉ seen)
      (hno : ¬ g.eligible x) (rest : Preorder (g.key x :: seen) work out seen') :
      Preorder seen (x :: work) out seen'
  | visit {seen between seen' : List κ} {x : ν} {work below beside : List ν} (h : g.key x ∉ seen)
      (hyes : g.eligible x) (down : Preorder (g.key x :: seen) (g.children x) below between)
      (rest : Preorder between work beside seen') :
      Preorder seen (x :: work) (x :: (below ++ beside)) seen'

variable {g}

namespace Preorder

variable {seen seen' : List κ} {work out : List ν}

theorem subset (h : g.Preorder seen work out seen') : seen ⊆ seen' := by
  induction h with
  | nil => exact List.Subset.refl _
  | met _ _ ih => exact ih
  | skip _ _ _ ih => exact List.Subset.trans (List.subset_cons_self _ _) ih
  | visit _ _ _ _ down rest =>
    exact List.Subset.trans (List.subset_cons_self _ _) (List.Subset.trans down rest)

theorem marks (h : g.Preorder seen work out seen') :
    ∀ x ∈ out, g.key x ∉ seen ∧ g.key x ∈ seen' := by
  induction h with
  | nil => intro x hx; cases hx
  | met _ _ ih => exact ih
  | skip _ _ _ ih =>
    exact fun y hy => ⟨fun hmem => (ih y hy).1 (List.mem_cons_of_mem _ hmem), (ih y hy).2⟩
  | visit hnew _ hdown hrest down rest =>
    intro y hy
    rcases List.mem_cons.mp hy with rfl | hy
    · exact ⟨hnew, hrest.subset (hdown.subset List.mem_cons_self)⟩
    rcases List.mem_append.mp hy with hy | hy
    · exact ⟨fun hmem => (down y hy).1 (List.mem_cons_of_mem _ hmem), hrest.subset (down y hy).2⟩
    · refine ⟨fun hmem => (rest y hy).1 ?_, (rest y hy).2⟩
      exact hdown.subset (List.mem_cons_of_mem _ hmem)

theorem nodup (h : g.Preorder seen work out seen') : (out.map g.key).Nodup := by
  induction h with
  | nil => exact List.nodup_nil
  | met _ _ ih | skip _ _ _ ih => exact ih
  | visit hnew _ hdown hrest down rest =>
    rw [List.map_cons, List.map_append, List.nodup_cons, List.nodup_append]
    refine ⟨fun hmem => ?_, down, rest, fun k hk k' hk' => ?_⟩
    · -- the node's own key is marked before either part is searched
      rcases List.mem_append.mp hmem with hmem | hmem
      · obtain ⟨y, hy, hkey⟩ := List.mem_map.mp hmem
        exact (hdown.marks y hy).1 (hkey ▸ List.mem_cons_self)
      · obtain ⟨y, hy, hkey⟩ := List.mem_map.mp hmem
        exact (hrest.marks y hy).1 (hdown.subset (hkey ▸ List.mem_cons_self))
    · obtain ⟨y, hy, rfl⟩ := List.mem_map.mp hk
      obtain ⟨z, hz, rfl⟩ := List.mem_map.mp hk'
      exact fun heq => (hrest.marks z hz).1 (heq ▸ (hdown.marks y hy).2)

theorem unique {out₁ out₂ : List ν} {seen₁ seen₂ : List κ} (h₁ : g.Preorder seen work out₁ seen₁)
    (h₂ : g.Preorder seen work out₂ seen₂) : out₁ = out₂ ∧ seen₁ = seen₂ := by
  induction h₁ generalizing out₂ seen₂ with
  | nil => cases h₂; exact ⟨rfl, rfl⟩
  | met hmet _ ih =>
    cases h₂ with
    | met _ rest => exact ih rest
    | skip h _ _ | visit h _ _ _ => exact absurd hmet h
  | skip hnew hno _ ih =>
    cases h₂ with
    | met h _ => exact absurd h hnew
    | skip _ _ rest => exact ih rest
    | visit _ hyes _ _ => exact absurd hyes hno
  | visit hnew hyes _ _ down rest =>
    cases h₂ with
    | met h _ => exact absurd h hnew
    | skip _ hno _ => exact absurd hyes hno
    | visit _ _ hdown hrest =>
      obtain ⟨rfl, rfl⟩ := down hdown
      obtain ⟨rfl, rfl⟩ := rest hrest
      exact ⟨rfl, rfl⟩

end Preorder

/-! ## Finitely many keys -/

section Finite

variable [DecidableEq κ] {univ : Finset κ}

/-- How many keys are still unmarked. -/
def unmarked (univ : Finset κ) (seen : List κ) : Nat := (univ.filter (· ∉ seen)).card

theorem unmarked_cons_lt {k : κ} {seen : List κ} (hk : k ∈ univ) (h : k ∉ seen) :
    unmarked univ (k :: seen) < unmarked univ seen := by
  refine Finset.card_lt_card (Finset.ssubset_iff_of_subset ?_ |>.mpr ⟨k, ?_, ?_⟩)
  · intro x hx
    rw [Finset.mem_filter] at hx ⊢
    exact ⟨hx.1, fun hmem => hx.2 (List.mem_cons_of_mem _ hmem)⟩
  · exact Finset.mem_filter.mpr ⟨hk, h⟩
  · exact fun hx => (Finset.mem_filter.mp hx).2 List.mem_cons_self

theorem unmarked_anti {seen seen' : List κ} (h : seen ⊆ seen') :
    unmarked univ seen' ≤ unmarked univ seen := by
  refine Finset.card_le_card fun x hx => ?_
  rw [Finset.mem_filter] at hx ⊢
  exact ⟨hx.1, fun hmem => hx.2 (h hmem)⟩

/-- A search through finitely many keys ends. -/
theorem exists_preorder (hchildren : ∀ x, ∀ y ∈ g.children x, g.key y ∈ univ) (n : Nat)
    (seen : List κ) (work : List ν) (hn : unmarked univ seen < n)
    (hwork : ∀ x ∈ work, g.key x ∈ univ) : ∃ out seen', g.Preorder seen work out seen' := by
  induction n generalizing seen work with
  | zero => exact absurd hn (Nat.not_lt_zero _)
  | succ n ihn =>
    induction work generalizing seen with
    | nil => exact ⟨[], seen, .nil seen⟩
    | cons x work ih =>
      have htail : ∀ y ∈ work, g.key y ∈ univ := fun y hy => hwork y (List.mem_cons_of_mem _ hy)
      by_cases hnew : g.key x ∈ seen
      · obtain ⟨out, seen', hrest⟩ := ih seen hn htail
        exact ⟨out, seen', .met hnew hrest⟩
      have hless := unmarked_cons_lt (hwork x List.mem_cons_self) hnew
      by_cases hyes : g.eligible x
      · obtain ⟨below, between, hdown⟩ := ihn (g.key x :: seen) (g.children x) (by omega)
          (hchildren x)
        have hmore : unmarked univ between ≤ unmarked univ (g.key x :: seen) :=
          unmarked_anti hdown.subset
        obtain ⟨beside, seen', hrest⟩ := ih between (by omega) htail
        exact ⟨_, seen', .visit hnew hyes hdown hrest⟩
      · obtain ⟨out, seen', hrest⟩ := ih (g.key x :: seen) (by omega) htail
        exact ⟨out, seen', .skip hnew hyes hrest⟩

end Finite

end Graph

end Kaalm.Foundation
