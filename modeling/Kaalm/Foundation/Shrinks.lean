/-
  Foundation/Shrinks.lean --- lists that are read again after something was dropped.

  When each part of a list is read again as no more than it was, the whole is there again just
  if every part is: a part cannot stand in for what another has lost.
-/
import Kaalm.Foundation.Fallible
import Mathlib.Data.List.Basic

namespace Kaalm.Foundation

variable {α α' β : Type*} {xs ys xs' ys' : List β} {P Q : Prop}

/-- The second list is no longer than the first, and is the first just under the condition. -/
structure Shrinks (xs ys : List β) (P : Prop) : Prop where
  length : ys.length ≤ xs.length
  eq_iff : xs = ys ↔ P

namespace Shrinks

theorem refl (xs : List β) : Shrinks xs xs True := ⟨Nat.le_refl _, iff_of_true rfl trivial⟩

theorem congr (h : Shrinks xs ys P) (hiff : P ↔ Q) : Shrinks xs ys Q :=
  ⟨h.length, h.eq_iff.trans hiff⟩

theorem filter (p : β → Bool) (xs : List β) : Shrinks xs (xs.filter p) (∀ x ∈ xs, p x = true) :=
  ⟨List.length_filter_le p xs, eq_comm.trans List.filter_eq_self⟩

theorem drop (xs : List β) : Shrinks xs [] (xs = []) := ⟨Nat.zero_le _, Iff.rfl⟩

theorem guard {b : Prop} [Decidable b] (h : Shrinks xs ys P) :
    Shrinks (if b then xs else []) (if b then ys else []) (b → P) := by
  by_cases hb : b
  · simpa [hb] using h
  · simpa [hb] using refl []

theorem append (h : Shrinks xs ys P) (h' : Shrinks xs' ys' Q) :
    Shrinks (xs ++ xs') (ys ++ ys') (P ∧ Q) where
  length := by
    rw [List.length_append, List.length_append]
    exact Nat.add_le_add h.length h'.length
  eq_iff := by
    rw [← h.eq_iff, ← h'.eq_iff]
    constructor
    · intro heq
      have hlength := congrArg List.length heq
      rw [List.length_append, List.length_append] at hlength
      exact List.append_inj heq (by have := h.length; have := h'.length; omega)
    · rintro ⟨rfl, rfl⟩
      rfl

/-- What a loop makes of the items, when it makes something of each. -/
theorem mapM {ε : Type*} {f : α → Except ε α'} {src : α → List β} {dst : α' → List β} {C : α → Prop}
    (hone : ∀ a b, f a = .ok b → Shrinks (src a) (dst b) (C a)) {as : List α} {bs : List α'}
    (h : as.mapM f = .ok bs) : Shrinks (as.flatMap src) (bs.flatMap dst) (∀ a ∈ as, C a) := by
  induction as generalizing bs with
  | nil =>
    cases h
    exact (refl []).congr (by simp)
  | cons a as ih =>
    rw [List.mapM_cons] at h
    obtain ⟨b, hb, hrest⟩ := Fallible.bind_eq_ok_iff.mp h
    obtain ⟨bs', hbs, hcons⟩ := Fallible.bind_eq_ok_iff.mp hrest
    cases hcons
    exact ((hone a b hb).append (ih hbs)).congr List.forall_mem_cons.symm

end Shrinks

/-! ## Three places -/

variable (rank : β → Nat)

/-- What has rank 0, then what has rank 1, then what has rank 2. -/
def ranked (xs : List β) : List β :=
  xs.filter (rank · = 0) ++ (xs.filter (rank · = 1) ++ xs.filter (rank · = 2))

theorem length_ranked_le (xs : List β) : (ranked rank xs).length ≤ xs.length := by
  induction xs with
  | nil => simp [ranked]
  | cons x xs ih =>
    simp only [ranked, List.filter_cons, List.length_append] at ih ⊢
    split_ifs <;> simp_all <;> omega

theorem pairwise_ranked (xs : List β) : (ranked rank xs).Pairwise fun x y => rank x ≤ rank y := by
  have hsame : ∀ k, (xs.filter (rank · = k)).Pairwise fun x y => rank x ≤ rank y := by
    intro k
    refine List.pairwise_of_forall_mem_list fun x hx y hy => ?_
    simp_all
  rw [ranked, List.pairwise_append, List.pairwise_append]
  refine ⟨hsame 0, ⟨hsame 1, hsame 2, fun x hx y hy => ?_⟩, fun x hx y hy => ?_⟩ <;> simp_all

variable {rank}

theorem ranked_eq_self (hrank : ∀ x, rank x ≤ 2) (h : xs.Pairwise fun x y => rank x ≤ rank y) :
    ranked rank xs = xs := by
  induction xs with
  | nil => rfl
  | cons x xs ih =>
    obtain ⟨hx, hxs⟩ := List.pairwise_cons.mp h
    have hnone : ∀ k < rank x, xs.filter (rank · = k) = [] := fun k hk => by
      refine List.filter_eq_nil_iff.mpr fun y hy => ?_
      have := hx y hy
      simp; omega
    have hrest := ih hxs
    have hthree : rank x = 0 ∨ rank x = 1 ∨ rank x = 2 := by have := hrank x; omega
    unfold ranked at hrest ⊢
    rcases hthree with hk | hk | hk
    · simp [hk, hrest]
    · rw [hnone 0 (by omega)] at hrest
      simpa [hk, hnone 0] using hrest
    · rw [hnone 0 (by omega), hnone 1 (by omega)] at hrest
      simpa [hk, hnone 0, hnone 1] using hrest

theorem filterMap_eq_self_iff {f : β → Option β} :
    xs = xs.filterMap f ↔ ∀ x ∈ xs, f x = some x := by
  induction xs with
  | nil => simp
  | cons x xs ih =>
    cases hx : f x with
    | none =>
      refine iff_of_false (fun heq => ?_) fun hall => by simp [hx] at hall
      have hlength := congrArg List.length heq
      have := xs.length_filterMap_le f
      simp [hx] at hlength
      omega
    | some y =>
      rw [List.filterMap_cons_some hx, List.cons.injEq, ih, List.forall_mem_cons, hx,
        Option.some.injEq, @eq_comm _ y x]

/-- A list is there again, in its order, when it is put in order and things are dropped from
it, just if it was in order and nothing is. -/
theorem Shrinks.ranked (hrank : ∀ x, rank x ≤ 2) {f : β → Option β}
    (hf : ∀ x y, f x = some y → rank y = rank x) (xs : List β) :
    Shrinks xs ((Foundation.ranked rank xs).filterMap f)
      ((xs.Pairwise fun x y => rank x ≤ rank y) ∧ ∀ x ∈ xs, f x = some x) where
  length := Nat.le_trans (List.length_filterMap_le f _) (length_ranked_le rank xs)
  eq_iff := by
    constructor
    · intro heq
      have hsorted : xs.Pairwise fun x y => rank x ≤ rank y := by
        rw [heq]
        refine (pairwise_ranked rank xs).filterMap f fun x x' hle y hy y' hy' => ?_
        rwa [hf x y hy, hf x' y' hy']
      rw [ranked_eq_self hrank hsorted] at heq
      exact ⟨hsorted, filterMap_eq_self_iff.mp heq⟩
    · rintro ⟨hsorted, hall⟩
      rw [ranked_eq_self hrank hsorted]
      exact filterMap_eq_self_iff.mpr hall

end Kaalm.Foundation
