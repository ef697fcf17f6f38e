/-
  Foundation/Fallible.lean --- taking a computation that succeeded apart.
-/
import Mathlib.Tactic.TypeStar

namespace Kaalm.Foundation.Fallible

variable {ε ε' α β : Type*}

variable {x : Except ε α}

theorem bind_eq_ok_iff {f : α → Except ε β} {b : β} :
    x.bind f = .ok b ↔ ∃ a, x = .ok a ∧ f a = .ok b := by
  cases x with
  | error | ok => simp [Except.bind]

theorem mapError_eq_ok_iff {f : ε → ε'} {a : α} :
    x.mapError f = .ok a ↔ x = .ok a := by
  cases x with
  | error e => exact ⟨nofun, nofun⟩
  | ok b =>
    constructor
    · intro h; rw [Except.ok.inj h]
    · intro h; rw [← Except.ok.inj h]; rfl

end Kaalm.Foundation.Fallible
