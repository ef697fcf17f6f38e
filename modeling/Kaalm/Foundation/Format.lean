/-
  Foundation/Format.lean --- Go's formatting verbs.

  Go's `Time.Format` and the `%0Nd` verb write an integer with a sign and at
  least `w` digits.  `padInt` is that text and `padInt_injective` says it
  determines the integer.
-/
import Mathlib.Algebra.Order.Ring.Int
import Mathlib.Tactic.Zify

namespace Kaalm.Foundation

/-- `%q`: the quotes, and the escapes of what cannot stand between them. -/
def quoted (s : String) : String :=
  "\"" ++ String.ofList (s.toList.flatMap fun c =>
    if c = '"' ∨ c = '\\' then ['\\', c] else if c = '\n' then ['\\', 'n']
    else if c = '\t' then ['\\', 't'] else if c = '\r' then ['\\', 'r'] else [c]) ++ "\""

/-- The decimal digits of `n`, zero-padded to width `w`. -/
def padNat (w n : Nat) : List Char :=
  List.replicate (w - (Nat.toDigits 10 n).length) '0' ++ Nat.toDigits 10 n

/-- The decimal text of `x`: a sign when negative, at least `w` digits. -/
def padInt (w : Nat) (x : Int) : List Char :=
  if x < 0 then '-' :: padNat w x.natAbs else padNat w x.natAbs

theorem ofDigitChars_padNat (w n : Nat) : Nat.ofDigitChars 10 (padNat w n) 0 = n := by
  rw [padNat, Nat.ofDigitChars_append, Nat.ofDigitChars_replicate_zero, Nat.mul_zero,
    Nat.ofDigitChars_ten_toDigits]

theorem padNat_injective (w : Nat) {a b : Nat} (h : padNat w a = padNat w b) : a = b := by
  rw [← ofDigitChars_padNat w a, h, ofDigitChars_padNat]

theorem isDigit_of_mem_padNat {w n : Nat} {c : Char} (h : c ∈ padNat w n) : c.isDigit := by
  rcases List.mem_append.mp h with hz | hd
  · rw [List.eq_of_mem_replicate hz]
    decide
  · exact Nat.isDigit_of_mem_toDigits (by decide) (by decide) hd

/-- Text that starts with a sign is not the text of a natural number. -/
theorem cons_minus_ne_padNat {w n : Nat} {cs : List Char} : '-' :: cs ≠ padNat w n := by
  intro h
  have : ('-' : Char) ∈ padNat w n := h ▸ List.mem_cons_self
  exact absurd (isDigit_of_mem_padNat this) (by decide)

theorem padInt_injective (w : Nat) {a b : Int} (h : padInt w a = padInt w b) : a = b := by
  unfold padInt at h
  split_ifs at h with ha hb hb
  · have := padNat_injective w (List.cons.inj h).2
    omega
  · exact absurd h cons_minus_ne_padNat
  · exact absurd h.symm cons_minus_ne_padNat
  · have := padNat_injective w h
    omega

/-- The digits of a number below `10 ^ w` fill exactly the width. -/
theorem length_padNat {w n : Nat} (hw : 0 < w) (h : n < 10 ^ w) : (padNat w n).length = w := by
  have := (Nat.length_toDigits_le_iff (b := 10) (by decide) hw).mpr h
  simp only [padNat, List.length_append, List.length_replicate]
  omega

theorem length_padInt {w : Nat} {x : Int} (hw : 0 < w) (h0 : 0 ≤ x) (h : x < 10 ^ w) :
    (padInt w x).length = w := by
  have hx : x.natAbs < 10 ^ w := by
    zify
    rwa [abs_of_nonneg h0]
  rw [padInt, if_neg (not_lt.mpr h0), length_padNat hw hx]

/-! ## Durations -/

/-- A count of units of `10 ^ -prec`, without trailing zeros. -/
def trimmedDecimal (prec v : Nat) : String :=
  let digits := ((padNat prec (v % 10 ^ prec)).reverse.dropWhile (· = '0')).reverse
  toString (v / 10 ^ prec) ++ if digits.isEmpty then "" else "." ++ String.ofList digits

/-- `time.Duration.String()` of a number of nanoseconds. -/
def durationString (d : Int) : String :=
  let u := d.natAbs
  let secs := u / 10 ^ 9
  let body :=
    if u = 0 then "0s"
    else if u < 10 ^ 3 then toString u ++ "ns"
    else if u < 10 ^ 6 then trimmedDecimal 3 u ++ "µs"
    else if u < 10 ^ 9 then trimmedDecimal 6 u ++ "ms"
    else
      (if secs < 3600 then "" else toString (secs / 3600) ++ "h") ++
      (if secs < 60 then "" else toString (secs / 60 % 60) ++ "m") ++
      trimmedDecimal 9 (u % (60 * 10 ^ 9)) ++ "s"
  if d < 0 then "-" ++ body else body

end Kaalm.Foundation
