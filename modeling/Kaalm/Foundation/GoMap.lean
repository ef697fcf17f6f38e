/-
  Foundation/GoMap.lean --- Go maps.

  A Go map is an association list with distinct keys, which is Mathlib's
  `AList`.  What Go adds is the zero value of a missing key: `m[k]` reads it and
  `m[k] += v` starts from it.  The iteration order of a Go map is unspecified;
  the only iterated quantity here is a sum, which no order changes.
-/
import Mathlib.Data.List.AList
import Mathlib.Algebra.Order.BigOperators.Group.Finset
import Mathlib.Tactic.Ring
import Mathlib.Tactic.Linarith

namespace Kaalm.Foundation

/-- `map[K]V`. -/
abbrev GoMap (K V : Type) : Type := AList (fun _ : K => V)

-- Mathlib's instance is a rewrite and does not evaluate
instance {K V : Type} [DecidableEq K] [DecidableEq V] : DecidableEq (GoMap K V) :=
  fun m n => decidable_of_iff (m.entries = n.entries) AList.ext_iff.symm

namespace GoMap

variable {K V : Type} [DecidableEq K]

section Numeric

/-- `m[k]` of a numeric map: the zero value when the key is absent. -/
def at0 (m : GoMap K ℚ) (k : K) : ℚ := (m.lookup k).getD 0

def addTo (m : GoMap K ℚ) (k : K) (v : ℚ) : GoMap K ℚ := m.insert k (m.at0 k + v)

/-- The sum over a `range` loop. -/
def total (m : GoMap K ℚ) : ℚ := (m.entries.map (·.2)).sum

@[simp] theorem at0_empty (k : K) : at0 (∅ : GoMap K ℚ) k = 0 := by
  simp [at0]

@[simp] theorem at0_addTo_self (m : GoMap K ℚ) (k : K) (v : ℚ) :
    (m.addTo k v).at0 k = m.at0 k + v := by
  simp [addTo, at0]

theorem at0_addTo (m : GoMap K ℚ) (k k' : K) (v : ℚ) :
    (m.addTo k v).at0 k' = m.at0 k' + if k' = k then v else 0 := by
  by_cases h : k' = k
  · subst h; simp
  · simp [addTo, at0, AList.lookup_insert_ne h, h]

end Numeric

theorem lookup_erase_eq (m : GoMap K V) (k k' : K) :
    (m.erase k).lookup k' = if k' = k then none else m.lookup k' := by
  by_cases h : k' = k
  · subst h; simp
  · simp [h, AList.lookup_erase_ne h]

theorem lookup_insert_eq (m : GoMap K V) (k k' : K) (v : V) :
    (m.insert k v).lookup k' = if k' = k then some v else m.lookup k' := by
  by_cases h : k' = k
  · subst h; simp
  · simp [h, AList.lookup_insert_ne h]

theorem lookup_singleton_eq (k k' : K) (v : V) :
    (AList.singleton k v : GoMap K V).lookup k' = if k' = k then some v else none :=
  lookup_insert_eq ∅ k k' v

variable {k : K}

theorem length_keys_insert_of_mem (m : GoMap K V) (v : V) (h : k ∈ m) :
    (m.insert k v).keys.length = m.keys.length := by
  have hpos := List.length_pos_of_mem (AList.mem_keys.mp h)
  rw [AList.keys_insert, List.length_cons, List.length_erase_of_mem (AList.mem_keys.mp h)]
  omega

/-! ## Overlays -/

/-- `for k, v := range own { m[k] = v }`. -/
def overlay (m own : GoMap K V) : GoMap K V := own.entries.foldl (fun m e => m.insert e.1 e.2) m

theorem lookup_foldl_insert_of_notMem (entries : List (Sigma fun _ : K => V)) (k : K)
    (m : GoMap K V) (hk : k ∉ entries.keys) :
    (entries.foldl (fun m e => m.insert e.1 e.2) m).lookup k = m.lookup k := by
  induction entries generalizing m with
  | nil => rfl
  | cons e rest ih =>
    rw [List.keys_cons, List.mem_cons, not_or] at hk
    rw [List.foldl_cons, ih _ hk.2, lookup_insert_eq, if_neg hk.1]

theorem lookup_foldl_insert (entries : List (Sigma fun _ : K => V)) (m : GoMap K V)
    (hnodup : entries.NodupKeys) (e : Sigma fun _ : K => V) (he : e ∈ entries) :
    (entries.foldl (fun m e => m.insert e.1 e.2) m).lookup e.1 = some e.2 := by
  induction entries generalizing m with
  | nil => cases he
  | cons x rest ih =>
    rw [List.nodupKeys_cons] at hnodup
    rw [List.foldl_cons]
    rcases List.mem_cons.mp he with rfl | hrest
    · rw [lookup_foldl_insert_of_notMem rest _ _ hnodup.1, lookup_insert_eq, if_pos rfl]
    · exact ih _ hnodup.2 hrest

theorem lookup_foldl_insert_eq {entries : List (Sigma fun _ : K => V)} (hnodup : entries.NodupKeys)
    (m : GoMap K V) (k : K) :
    (entries.foldl (fun m e => m.insert e.1 e.2) m).lookup k =
      (entries.dlookup k).or (m.lookup k) := by
  cases hk : entries.dlookup k with
  | none => exact lookup_foldl_insert_of_notMem entries k m (List.dlookup_eq_none.mp hk)
  | some v => exact lookup_foldl_insert entries m hnodup ⟨k, v⟩ (List.of_mem_dlookup hk)

theorem lookup_overlay_eq (m own : GoMap K V) (k : K) :
    (overlay m own).lookup k = (own.lookup k).or (m.lookup k) :=
  lookup_foldl_insert_eq own.nodupKeys m k

/-! ## Loops over a map -/

/-- The map with every value sent through a function. -/
def mapValues {W : Type} (g : V → W) (m : GoMap K V) : GoMap K W where
  entries := m.entries.map fun e => ⟨e.1, g e.2⟩
  nodupKeys := by
    have hkeys : (m.entries.map fun e => (⟨e.1, g e.2⟩ : Sigma fun _ : K => W)).keys =
        m.entries.keys := by
      simp [List.keys]
    rw [List.NodupKeys, hkeys]
    exact m.nodupKeys

theorem lookup_mapValues {W : Type} (g : V → W) (m : GoMap K V) (k : K) :
    (m.mapValues g).lookup k = (m.lookup k).map g := by
  obtain ⟨entries, hnodup⟩ := m
  show (entries.map fun e => (⟨e.1, g e.2⟩ : Sigma fun _ : K => W)).dlookup k =
    (entries.dlookup k).map g
  clear hnodup
  induction entries with
  | nil => rfl
  | cons e rest ih =>
    obtain ⟨k', v⟩ := e
    by_cases h : k = k'
    · subst h
      simp
    · rw [List.map_cons, List.dlookup_cons_ne _ _ h, List.dlookup_cons_ne _ _ h, ih]

/-- `for k, v := range src { dst[k] += v }`. -/
def addAll (dst src : GoMap K ℚ) : GoMap K ℚ := src.entries.foldl (fun m e => m.addTo e.1 e.2) dst

@[simp] theorem at0_addAll (dst src : GoMap K ℚ) (k : K) :
    (dst.addAll src).at0 k = dst.at0 k + src.at0 k := by
  obtain ⟨entries, hnodup⟩ := src
  show (entries.foldl _ dst).at0 k = dst.at0 k + (entries.dlookup k).getD 0
  induction entries generalizing dst with
  | nil => simp
  | cons e rest ih =>
    obtain ⟨k', v⟩ := e
    rw [List.nodupKeys_cons] at hnodup
    rw [List.foldl_cons, ih _ hnodup.2, at0_addTo]
    by_cases h : k = k'
    · subst h
      have hrest : rest.dlookup k = none := List.dlookup_eq_none.mpr hnodup.1
      simp [hrest]
    · rw [if_neg h, add_zero, List.dlookup_cons_ne rest ⟨k', v⟩ h]

/-- A property that an item of a loop can only bring about holds after the loop if it held
before, or an item brought it about. -/
theorem foldl_iff_exists {α σ : Type} {step : σ → α → σ} (Q : σ → Prop) (brings : α → Prop)
    (hstep : ∀ s a, Q (step s a) ↔ Q s ∨ brings a) (items : List α) (s : σ) :
    Q (items.foldl step s) ↔ Q s ∨ ∃ a ∈ items, brings a := by
  induction items generalizing s with
  | nil => simp
  | cons a rest ih =>
    rw [List.foldl_cons, ih, hstep]
    simp [or_assoc]

theorem mem_addAll {dst src : GoMap K ℚ} : k ∈ dst.addAll src ↔ k ∈ dst ∨ k ∈ src := by
  have hstep : ∀ (m : GoMap K ℚ) (e : Sigma fun _ : K => ℚ),
      k ∈ m.addTo e.1 e.2 ↔ k ∈ m ∨ k = e.1 := fun m e => by
    rw [addTo, AList.mem_insert, or_comm]
  have hkeys : k ∈ src ↔ ∃ e ∈ src.entries, k = e.1 := by
    rw [AList.mem_keys, AList.keys, List.keys, List.mem_map]
    simp only [eq_comm]
  rw [hkeys]
  exact foldl_iff_exists (fun m : GoMap K ℚ => k ∈ m) _ hstep src.entries dst

theorem lookup_eq_of_at0 {m m' : GoMap K ℚ} (hmem : k ∈ m ↔ k ∈ m') (hat : m.at0 k = m'.at0 k) :
    m.lookup k = m'.lookup k := by
  rw [← AList.lookup_isSome, ← AList.lookup_isSome] at hmem
  unfold at0 at hat
  cases hm : m.lookup k <;> cases hm' : m'.lookup k <;> simp_all

variable {m m' : GoMap K V}

theorem entries_perm_of_lookup (h : ∀ k, m.lookup k = m'.lookup k) :
    m.entries.Perm m'.entries :=
  List.lookup_ext m.nodupKeys m'.nodupKeys fun k v => by
    show m.lookup k = some v ↔ m'.lookup k = some v
    rw [h k]

/-- The sum of a function over a `range` loop. -/
def sumOver (m : GoMap K V) (f : K → V → ℚ) : ℚ := (m.entries.map fun e => f e.1 e.2).sum

theorem sumOver_eq_add_erase (m : GoMap K V) (f : K → V → ℚ) (k : K) :
    m.sumOver f = (m.lookup k).elim 0 (f k) + sumOver (m.erase k) f := by
  obtain ⟨entries, hnodup⟩ := m
  show (entries.map _).sum = (entries.dlookup k).elim 0 (f k) + ((entries.kerase k).map _).sum
  clear hnodup
  induction entries with
  | nil => simp
  | cons e rest ih =>
    obtain ⟨k', v⟩ := e
    by_cases h : k = k'
    · subst h
      simp
    · rw [List.dlookup_cons_ne _ _ h, List.kerase_cons_ne h, List.map_cons, List.map_cons,
        List.sum_cons, List.sum_cons, ih]
      ring

theorem sumOver_insert (m : GoMap K V) (f : K → V → ℚ) (k : K) (v : V) :
    sumOver (m.insert k v) f = f k v + sumOver (m.erase k) f := by
  have herase : ((m.insert k v).erase k).entries = (m.erase k).entries := by
    show (m.insert k v).entries.kerase k = m.entries.kerase k
    simp [AList.entries_insert, List.kerase_cons_eq]
  rw [sumOver_eq_add_erase (m.insert k v) f k, AList.lookup_insert]
  simp [sumOver, herase]

/-- A sum over the entries is a sum over any keys that include theirs. -/
theorem sumOver_eq_sum (m : GoMap K V) (f : K → V → ℚ) {S : Finset K}
    (hS : ∀ k ∈ m, k ∈ S) : m.sumOver f = ∑ k ∈ S, (m.lookup k).elim 0 (f k) := by
  have hkeys : m.sumOver f = ∑ k ∈ m.keys.toFinset, (m.lookup k).elim 0 (f k) := by
    rw [List.sum_toFinset _ m.keys_nodup, sumOver, AList.keys, List.keys, List.map_map]
    refine congrArg List.sum (List.map_congr_left fun e he => ?_)
    have hlookup : m.lookup e.1 = some e.2 := List.mem_dlookup m.nodupKeys he
    simp only [Function.comp_apply, hlookup, Option.elim_some]
  rw [hkeys]
  refine Finset.sum_subset (fun k hk => hS k (List.mem_toFinset.mp hk)) fun k _ hk => ?_
  rw [AList.lookup_eq_none.mpr fun hmem => hk (List.mem_toFinset.mpr hmem)]
  rfl

theorem sumOver_congr {f g : K → V → ℚ} (h : ∀ k v, m.lookup k = some v → f k v = g k v) :
    m.sumOver f = m.sumOver g :=
  congrArg List.sum (List.map_congr_left fun e he => h e.1 e.2 (List.mem_dlookup m.nodupKeys he))

omit [DecidableEq K] in
theorem sumOver_add (m : GoMap K V) (f g : K → V → ℚ) :
    (m.sumOver fun k v => f k v + g k v) = m.sumOver f + m.sumOver g :=
  List.sum_map_add

theorem sumOver_of_lookup_iff {q : K → V → Bool}
    (h : ∀ k v, m'.lookup k = some v ↔ m.lookup k = some v ∧ q k v = true) (f : K → V → ℚ) :
    m'.sumOver f = m.sumOver fun k v => if q k v then f k v else 0 := by
  have hsub : ∀ k ∈ m', k ∈ m.keys.toFinset := fun k hk => by
    obtain ⟨v, hv⟩ := Option.isSome_iff_exists.mp (AList.lookup_isSome.mpr hk)
    refine List.mem_toFinset.mpr (AList.lookup_isSome.mp ?_)
    rw [((h k v).mp hv).1]
    rfl
  rw [sumOver_eq_sum m' f hsub, sumOver_eq_sum m _ fun k hk => List.mem_toFinset.mpr hk]
  refine Finset.sum_congr rfl fun k _ => ?_
  cases hm' : m'.lookup k with
  | some v =>
    obtain ⟨hm, hq⟩ := (h k v).mp hm'
    simp [hm, hq]
  | none =>
    cases hm : m.lookup k with
    | none => rfl
    | some v =>
      have hq : q k v ≠ true := fun hq => by
        rw [(h k v).mpr ⟨hm, hq⟩] at hm'
        cases hm'
      simp [hq]

/-- Sums compare when the values under every key do, a missing one counting zero. -/
theorem sumOver_le_sumOver {f : K → V → ℚ}
    (h : ∀ k, (m.lookup k).elim 0 (f k) ≤ (m'.lookup k).elim 0 (f k)) :
    m.sumOver f ≤ m'.sumOver f := by
  rw [sumOver_eq_sum m f (S := m.keys.toFinset ∪ m'.keys.toFinset) fun k hk =>
      Finset.mem_union_left _ (List.mem_toFinset.mpr hk),
    sumOver_eq_sum m' f (S := m.keys.toFinset ∪ m'.keys.toFinset) fun k hk =>
      Finset.mem_union_right _ (List.mem_toFinset.mpr hk)]
  exact Finset.sum_le_sum fun k _ => h k
end GoMap

end Kaalm.Foundation
