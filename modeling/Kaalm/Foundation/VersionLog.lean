/-
  Foundation/VersionLog.lean --- what a version number is worth.

  A store numbers its writes and stamps every new version of an object with the
  number of the write.  Over the log of all versions so far a stamp then names a
  version: whoever holds a version with the stamp of the stored one holds the
  stored one.  This is what an update that is checked against a stamp rests on.
-/
import Mathlib.Data.List.Basic

namespace Kaalm.Foundation

variable {α : Type*} {rv : α → Nat} {n m : Nat} {log : List α}

/-- The versions of one object in a store that has made `n` writes. -/
structure VersionLog (rv : α → Nat) (n : Nat) (log : List α) : Prop where
  le : ∀ a ∈ log, rv a ≤ n
  unique : ∀ a ∈ log, ∀ b ∈ log, rv a = rv b → a = b

namespace VersionLog

theorem start {cur : Option α} (h : ∀ a, cur = some a → rv a ≤ n) : VersionLog rv n cur.toList where
  le a ha := h a (Option.mem_toList.mp ha)
  unique _ ha _ hb _ :=
    Option.some.inj ((Option.mem_toList.mp ha).symm.trans (Option.mem_toList.mp hb))

/-- Whatever is stored now goes on top: it is an old version, or its stamp is new. -/
theorem push (h : VersionLog rv n log) (hn : n ≤ m) {cur : Option α}
    (hnew : ∀ a, cur = some a → a ∈ log ∨ (rv a = n + 1 ∧ n + 1 ≤ m)) :
    VersionLog rv m (cur.toList ++ log) := by
  have hcases : ∀ a ∈ cur.toList ++ log,
      a ∈ log ∨ (cur = some a ∧ rv a = n + 1 ∧ n + 1 ≤ m) := by
    intro a ha
    rcases List.mem_append.mp ha with hcur | hold
    · have hcur' := Option.mem_toList.mp hcur
      exact (hnew a hcur').imp_right fun hrv => ⟨hcur', hrv⟩
    · exact .inl hold
  constructor
  · intro a ha
    rcases hcases a ha with hold | ⟨-, hrv, hm⟩
    · exact Nat.le_trans (h.le a hold) hn
    · omega
  · intro a ha b hb heq
    rcases hcases a ha with holda | ⟨hcura, hrva, -⟩
    · rcases hcases b hb with holdb | ⟨-, hrvb, -⟩
      · exact h.unique a holda b holdb heq
      · have hle := h.le a holda
        omega
    · rcases hcases b hb with holdb | ⟨hcurb, -⟩
      · have hle := h.le b holdb
        omega
      · exact Option.some.inj (hcura.symm.trans hcurb)

end VersionLog

end Kaalm.Foundation
