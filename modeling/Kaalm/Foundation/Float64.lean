/-
  Foundation/Float64.lean --- JSON numbers as Go's float64.

  `encoding/json` reads a number of no declared type as the nearest float64, ties
  to even, and refuses one beyond the largest.  A finite float64 is a rational, so
  it is one here; the sign of zero is not kept.  The conversion to int64 drops the
  fraction; out of range it is what amd64 computes, the smallest int64.
-/
import Kaalm.Foundation.Decimal
import Kaalm.Foundation.GoJson

namespace Kaalm.Foundation

/-- `2 ^ e`. -/
def twoPow (e : Int) : ℚ :=
  if 0 ≤ e then ((2 ^ e.toNat : Nat) : ℚ) else 1 / ((2 ^ (-e).toNat : Nat) : ℚ)

/-- The exponent of the leading bit of a positive rational. -/
def leadingBit (x : ℚ) : Int :=
  let e : Int := (Nat.log2 x.num.natAbs : Int) - Nat.log2 x.den
  if x < twoPow e then e - 1 else e

/-- The nearest float64 of a rational below the largest. -/
def toFloat64 (x : ℚ) : ℚ :=
  if x = 0 then 0
  else
    let unit := twoPow (max (leadingBit |x| - 52) (-1074))
    (roundHalfEven (x / unit) : ℚ) * unit

/-- `int64(f)`. -/
def toInt64 (x : ℚ) : Int :=
  let n : Int := if 0 ≤ x then x.floor else -(-x).floor
  if -(2 ^ 63) ≤ n ∧ n < 2 ^ 63 then n else -(2 ^ 63)

/-! ## As decimal text -/

/-- The exponent of the leading decimal digit of a positive rational. -/
def leadingDigit (x : ℚ) : Int :=
  let e : Int := ((Nat.toDigits 10 x.num.natAbs).length : Int) - (Nat.toDigits 10 x.den).length
  if x < 10 ^ e then e - 1 else e

/-- The decimal next to a positive float64 among those of `n` digits, if it reads as
the same float64. -/
def decimal? (x : ℚ) (n : Nat) : Option (Nat × Int) :=
  let e := leadingDigit x + 1 - n
  let y := x / 10 ^ e
  [roundHalfEven y, y.floor, y.floor + 1].findSome? fun (d : Int) =>
    if toFloat64 ((d : ℚ) * 10 ^ e) = x then some (d.toNat, e) else none

/-- The shortest decimal that reads as a positive float64: its digits, and the place
of its point. -/
def shortestDecimal (x : ℚ) : List Char × Int :=
  match (List.range 17).findSome? fun n => decimal? x (n + 1) with
  | some (d, e) =>
    let digits := Nat.toDigits 10 d
    ((digits.reverse.dropWhile (· = '0')).reverse, digits.length + e)
  | none => (['0'], 1)

def fixedPoint (digits : List Char) (point : Int) : List Char :=
  if point ≤ 0 then ['0', '.'] ++ List.replicate (-point).toNat '0' ++ digits
  else if digits.length ≤ point then digits ++ List.replicate (point - digits.length).toNat '0'
  else digits.take point.toNat ++ '.' :: digits.drop point.toNat

def scientific (digits : List Char) (point : Int) : List Char :=
  digits.take 1 ++ (if digits.length ≤ 1 then [] else '.' :: digits.drop 1) ++
    (if 0 < point then ['e', '+'] else ['e']) ++ (toString (point - 1)).toList

/-- What `encoding/json` writes for a float64. -/
def formatFloat64 (x : ℚ) : String :=
  if x = 0 then "0"
  else
    let (digits, point) := shortestDecimal |x|
    let text := if |x| < 1 / 10 ^ 6 ∨ 10 ^ 21 ≤ |x| then scientific digits point
      else fixedPoint digits point
    String.ofList (if x < 0 then '-' :: text else text)

/-- A sum of int64 values, which wraps around. -/
def wrapInt64 (n : Int) : Int := Int.bmod n (2 ^ 64)

namespace Json

def float64? (lit : String) : Option ℚ := (parseAmount lit).map toFloat64

mutual

/-- Whether every number of a value is a float64. -/
def finite : Json → Bool
  | .num lit => (float64? lit).isSome
  | .arr items => finiteItems items
  | .obj members => finiteMembers members
  | .null | .bool _ | .str _ => true

def finiteItems : List Json → Bool
  | [] => true
  | v :: vs => finite v && finiteItems vs

def finiteMembers : List (String × Json) → Bool
  | [] => true
  | (_, v) :: rest => finite v && finiteMembers rest

end

mutual

/-- A value of no declared type as it is written again: every number is its
float64. -/
def held : Json → Json
  | .num lit => .num (((float64? lit).map formatFloat64).getD lit)
  | .arr items => .arr (heldItems items)
  | .obj members => .obj (heldMembers members)
  | v => v

def heldItems : List Json → List Json
  | [] => []
  | v :: vs => held v :: heldItems vs

def heldMembers : List (String × Json) → List (String × Json)
  | [] => []
  | (k, v) :: rest => (k, held v) :: heldMembers rest

end

example : ((float64? "9007199254740993").map formatFloat64) = some "9007199254740992" := by
  decide +kernel
example : ((float64? "0.1").map formatFloat64, (float64? "1e23").map formatFloat64,
    (float64? "-2.50E-8").map formatFloat64) =
    (some "0.1", some "1e+23", some "-2.5e-8") := by decide +kernel

/-! ## What a text says -/

/-- JSON with its numbers as exact values. -/
inductive Value where
  | null
  | bool (b : Bool)
  | num (q : Option ℚ)
  | str (s : String)
  | arr (items : List Value)
  | obj (members : List (String × Value))

mutual

def value : Json → Value
  | .null => .null
  | .bool b => .bool b
  | .num lit => .num (parseAmount lit)
  | .str s => .str s
  | .arr items => .arr (valueItems items)
  | .obj members => .obj (valueMembers members)

def valueItems : List Json → List Value
  | [] => []
  | v :: vs => value v :: valueItems vs

def valueMembers : List (String × Json) → List (String × Value)
  | [] => []
  | (k, v) :: rest => (k, value v) :: valueMembers rest

end

def keptNumber (lit : String) : Bool :=
  parseAmount (((float64? lit).map formatFloat64).getD lit) = parseAmount lit

mutual

/-- Every number of a value is one that a float64 keeps. -/
def keptNumbers : Json → Bool
  | .num lit => keptNumber lit
  | .arr items => keptItems items
  | .obj members => keptMembers members
  | .null | .bool _ | .str _ => true

def keptItems : List Json → Bool
  | [] => true
  | v :: vs => keptNumbers v && keptItems vs

def keptMembers : List (String × Json) → Bool
  | [] => true
  | (_, v) :: rest => keptNumbers v && keptMembers rest

end

mutual

/-- A value says the same when it is written again just if a float64 keeps its
numbers. -/
theorem value_held_eq_iff : ∀ v : Json, value (held v) = value v ↔ keptNumbers v = true
  | .null => by simp only [held, keptNumbers]
  | .bool b => by simp only [held, keptNumbers]
  | .str s => by simp only [held, keptNumbers]
  | .num lit => by
    simp only [held, value, Value.num.injEq, keptNumbers, keptNumber, decide_eq_true_eq]
  | .arr items => by
    simp only [held, value, Value.arr.injEq, keptNumbers, valueItems_held_eq_iff items]
  | .obj members => by
    simp only [held, value, Value.obj.injEq, keptNumbers, valueMembers_held_eq_iff members]

theorem valueItems_held_eq_iff : ∀ vs : List Json,
    valueItems (heldItems vs) = valueItems vs ↔ keptItems vs = true
  | [] => by simp only [heldItems, keptItems]
  | v :: vs => by
    simp only [heldItems, valueItems, List.cons.injEq, keptItems, Bool.and_eq_true,
      value_held_eq_iff v, valueItems_held_eq_iff vs]

theorem valueMembers_held_eq_iff : ∀ ms : List (String × Json),
    valueMembers (heldMembers ms) = valueMembers ms ↔ keptMembers ms = true
  | [] => by simp only [heldMembers, keptMembers]
  | (k, v) :: ms => by
    simp only [heldMembers, valueMembers, List.cons.injEq, Prod.mk.injEq, true_and, keptMembers,
      Bool.and_eq_true, value_held_eq_iff v, valueMembers_held_eq_iff ms]

end

/-! ## Into a map -/

def intoAny (v : Json) : Option Json := if v.finite then some v else none

/-- Into a `map[string]any`: the members join those that are there. -/
def intoMap (old : Obj) : Json → Option Obj
  | .obj members => if finiteMembers members then some (old ++ members) else none
  | .null => some []
  | _ => none

/-- `json.Unmarshal(text, &m)` into a `map[string]any`. -/
def unmarshalMap (text : String) : Option Obj := (parse text).bind (intoMap [])

/-- `numberOf`: the int64 of a number. -/
def numberOf : Option Json → Option Int
  | some (.num lit) => (float64? lit).map toInt64
  | _ => none

end Json

end Kaalm.Foundation
