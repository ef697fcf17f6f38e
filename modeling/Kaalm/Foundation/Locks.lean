/-
  Foundation/Locks.lean --- keyed locks held under tokens.

  A lock table maps a key to the token of the request that holds it.  The
  abstract side is a relation `holds : Owner → Key → Prop`; `Locked` says that
  the table is exactly the picture of that relation under the owners' tokens and
  that no key has two owners.

  TOKENS MAY REPEAT.  Nothing here asks two owners to have different tokens: a
  wrapped counter is harmless as long as an owner releases only keys it took.
-/
import Kaalm.Foundation.GoMap

namespace Kaalm.Foundation

variable {Owner Key Tok : Type} [DecidableEq Key]

/-- The table pictures the holding relation, and holding is exclusive. -/
structure Locked (holds : Owner → Key → Prop) (tok : Owner → Tok) (m : GoMap Key Tok) : Prop where
  exclusive : ∀ o o' k, holds o k → holds o' k → o = o'
  entry : ∀ o k, holds o k → m.lookup k = some (tok o)
  owned : ∀ k t, m.lookup k = some t → ∃ o, holds o k

namespace Locked

variable {holds holds' : Owner → Key → Prop} {tok : Owner → Tok} {m m' : GoMap Key Tok}

theorem empty (h : ∀ o k, ¬ holds o k) : Locked holds tok ∅ where
  exclusive o _ k ho _ := absurd ho (h o k)
  entry o k ho := absurd ho (h o k)
  owned k t hk := by simp at hk

/-- Only who holds what matters, and the tokens of those who do. -/
theorem congr {tok' : Owner → Tok} (hL : Locked holds tok m) (h : ∀ o k, holds' o k ↔ holds o k)
    (htok : ∀ o k, holds' o k → tok' o = tok o) : Locked holds' tok' m where
  exclusive o o' k ho ho' := hL.exclusive o o' k ((h o k).mp ho) ((h o' k).mp ho')
  entry o k ho := by rw [htok o k ho]; exact hL.entry o k ((h o k).mp ho)
  owned k t hk := by
    obtain ⟨o, ho⟩ := hL.owned k t hk
    exact ⟨o, (h o k).mpr ho⟩

theorem eq_empty (hL : Locked holds tok m) (h : ∀ o k, ¬ holds o k) : m = ∅ := by
  apply AList.ext
  have hnone : ∀ k, k ∉ m := fun k hk => by
    obtain ⟨t, ht⟩ := Option.isSome_iff_exists.mp (AList.lookup_isSome.mpr hk)
    obtain ⟨o, ho⟩ := hL.owned k t ht
    exact h o k ho
  cases hm : m.entries with
  | nil => rfl
  | cons e es =>
    refine absurd ?_ (hnone e.1)
    rw [AList.mem_keys, AList.keys, hm]
    exact List.mem_cons_self ..

theorem acquire (hL : Locked holds tok m) {o : Owner} {keys : List Key}
    (hnew : ∀ k, ¬ holds o k) (hfree : ∀ k ∈ keys, m.lookup k = none)
    (hm : ∀ k, m'.lookup k = if k ∈ keys then some (tok o) else m.lookup k)
    (hh : ∀ o' k, holds' o' k ↔ holds o' k ∨ o' = o ∧ k ∈ keys) :
    Locked holds' tok m' where
  exclusive o₁ o₂ k h₁ h₂ := by
    have hclash : ∀ o', holds o' k → k ∉ keys := fun o' ho' hk => by
      have := hL.entry o' k ho'
      rw [hfree k hk] at this
      cases this
    rcases (hh o₁ k).mp h₁ with h₁ | ⟨rfl, hk₁⟩
    · rcases (hh o₂ k).mp h₂ with h₂ | ⟨rfl, hk₂⟩
      · exact hL.exclusive o₁ o₂ k h₁ h₂
      · exact absurd hk₂ (hclash o₁ h₁)
    · rcases (hh o₂ k).mp h₂ with h₂ | ⟨rfl, _⟩
      · exact absurd hk₁ (hclash o₂ h₂)
      · rfl
  entry o' k ho' := by
    rw [hm k]
    rcases (hh o' k).mp ho' with ho' | ⟨rfl, hk⟩
    · have hk : k ∉ keys := fun hk => by
        have := hL.entry o' k ho'
        rw [hfree k hk] at this
        cases this
      rw [if_neg hk]
      exact hL.entry o' k ho'
    · rw [if_pos hk]
  owned k t hk := by
    rw [hm k] at hk
    by_cases hmem : k ∈ keys
    · exact ⟨o, (hh o k).mpr (Or.inr ⟨rfl, hmem⟩)⟩
    · rw [if_neg hmem] at hk
      obtain ⟨o', ho'⟩ := hL.owned k t hk
      exact ⟨o', (hh o' k).mpr (Or.inl ho')⟩

theorem release (hL : Locked holds tok m) {o : Owner}
    (hfree : ∀ k, holds o k → m'.lookup k = none)
    (hkeep : ∀ k, ¬ holds o k → m'.lookup k = m.lookup k)
    (hh : ∀ o' k, holds' o' k ↔ holds o' k ∧ o' ≠ o) : Locked holds' tok m' where
  exclusive o₁ o₂ k h₁ h₂ := hL.exclusive o₁ o₂ k ((hh o₁ k).mp h₁).1 ((hh o₂ k).mp h₂).1
  entry o' k ho' := by
    obtain ⟨ho', hne⟩ := (hh o' k).mp ho'
    have hk : ¬ holds o k := fun ho => hne (hL.exclusive o' o k ho' ho)
    rw [hkeep k hk]
    exact hL.entry o' k ho'
  owned k t hk := by
    by_cases ho : holds o k
    · rw [hfree k ho] at hk
      cases hk
    · rw [hkeep k ho] at hk
      obtain ⟨o', ho'⟩ := hL.owned k t hk
      refine ⟨o', (hh o' k).mpr ⟨ho', ?_⟩⟩
      rintro rfl
      exact ho ho'

end Locked

end Kaalm.Foundation
