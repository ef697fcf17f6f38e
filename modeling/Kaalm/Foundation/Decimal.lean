/-
  Foundation/Decimal.lean --- the text of a float64 as an exact number.

  `parseFloat` is Go's `strconv.ParseFloat` with the rounding left out: decimal and
  hexadecimal digits with a point and an exponent, underscores between digits, and the
  words for the infinities and NaN.  A value is the rational the text denotes; past the
  largest float64 it is an infinity beside a range error.

  `formatFixed2` is `strconv.FormatFloat(v, 'f', 2, 64)` of an exact amount.  On
  whole hundredths it rounds nothing, and `parseAmount` reads the amount back.
-/
import Kaalm.Foundation.Format
import Kaalm.Foundation.Text
import Mathlib.Data.List.TakeWhile
import Mathlib.Data.Rat.Floor

namespace Kaalm.Foundation

def readSign : List Char → Bool × List Char
  | '+' :: cs => (false, cs)
  | '-' :: cs => (true, cs)
  | cs => (false, cs)

def isDigitOf : Bool → Char → Bool
  | false => Char.isDigit
  | true => fun c => (hexDigit? c).isSome

def digitsValue : Bool → List Char → Nat
  | false, cs => Nat.ofDigitChars 10 cs 0
  | true, cs => cs.foldl (fun n c => 16 * n + (hexDigit? c).getD 0) 0

/-- The exponent that ends a number, which hexadecimal digits must have: its value,
when the rest of the text is one. -/
def readExponent (hex : Bool) : List Char → Option Int
  | [] => if hex then none else some 0
  | c :: cs =>
    if c.toLower = (if hex then 'p' else 'e') then
      let (neg, digits) := readSign cs
      if digits ≠ [] ∧ digits.all Char.isDigit then
        let n : Int := Nat.ofDigitChars 10 digits 0
        some (if neg then -n else n)
      else none
    else none

/-- `readFloat` without the sign, in one base. -/
def readDigits (hex : Bool) (cs : List Char) : Option ℚ :=
  let whole := cs.takeWhile (isDigitOf hex)
  let (frac, tail) := match cs.dropWhile (isDigitOf hex) with
    | '.' :: rs => (rs.takeWhile (isDigitOf hex), rs.dropWhile (isDigitOf hex))
    | rs => ([], rs)
  if whole = [] ∧ frac = [] then none
  else
    (readExponent hex tail).map fun (e : Int) =>
      (digitsValue hex (whole ++ frac) : ℚ) *
        if hex then 2 ^ (e - 4 * frac.length) else 10 ^ (e - frac.length)

/-- What follows `0x`. -/
def hexBody : List Char → Option (List Char)
  | '0' :: x :: rest => if x.toLower = 'x' ∧ rest ≠ [] then some rest else none
  | _ => none

/-- The loop of `underscoreOK`: an underscore follows a digit and precedes one. -/
def underscoresBetween (hex : Bool) : Char → List Char → Bool
  | saw, [] => saw ≠ '_'
  | saw, c :: cs =>
    if isDigitOf hex c then underscoresBetween hex '0' cs
    else if c = '_' then saw = '0' && underscoresBetween hex '_' cs
    else saw ≠ '_' && underscoresBetween hex '!' cs

/-- `underscoreOK` without the sign; a base in front counts as a digit. -/
def underscoreOK : List Char → Bool
  | '0' :: b :: rest =>
    if b.toLower ∈ ['b', 'o', 'x'] then underscoresBetween (b.toLower = 'x') '0' rest
    else underscoresBetween false '^' ('0' :: b :: rest)
  | cs => underscoresBetween false '^' cs

/-- The first value that rounds past the largest float64. -/
def floatLimit : ℚ := 2 ^ 1024 - 2 ^ 970

/-- What `strconv.ParseFloat` returns for a text it can read; `range` is an infinity
beside its range error. -/
inductive ParsedFloat where
  | finite (q : ℚ)
  | inf (neg : Bool)
  | nan
  | range (neg : Bool)
  deriving DecidableEq

/-- `strconv.ParseFloat`; none is its syntax error. -/
def parseFloat (s : String) : Option ParsedFloat :=
  let (neg, cs) := readSign s.toList
  let word := String.ofList (cs.map Char.toLower)
  if word = "inf" ∨ word = "infinity" then some (.inf neg)
  else if word = "nan" ∧ cs.length = s.length then some .nan
  else if '_' ∈ cs ∧ !underscoreOK cs then none
  else
    let digits := cs.filter (· ≠ '_')
    (((hexBody digits).map (readDigits true)).getD (readDigits false digits)).map fun q =>
      if q < floatLimit then .finite (if neg then -q else q) else .range neg

/-- The number a text denotes, where `strconv.ParseFloat` reads one without an error. -/
def parseAmount (s : String) : Option ℚ :=
  match parseFloat s with
  | some (.finite q) => some q
  | _ => none

example : (parseFloat "12.50", parseFloat "1_000", parseFloat "-0x1.8p+1", parseFloat "+Inf") =
    (some (.finite (25 / 2)), some (.finite 1000), some (.finite (-3)), some (.inf false)) := by
  decide +kernel
example : (parseFloat "12,50", parseFloat "1__0", parseFloat "+nan", parseFloat "-1e400") =
    (none, none, none, some (.range true)) := by decide +kernel

/-! ## Two decimals -/

/-- The nearest integer, the even one on a tie. -/
def roundHalfEven (q : ℚ) : Int :=
  let below := q.floor
  let rest := q - below
  if rest < 1 / 2 then below
  else if 1 / 2 < rest then below + 1
  else if below % 2 = 0 then below else below + 1

/-- `strconv.FormatFloat(v, 'f', 2, 64)`. -/
def formatFixed2 (q : ℚ) : String :=
  let n := (roundHalfEven (q * 100)).natAbs
  String.ofList ((if q < 0 then ['-'] else []) ++ (padNat 1 (n / 100) ++ '.' :: padNat 2 (n % 100)))

example : formatFixed2 (25 / 2) = "12.50" := by decide +kernel
example : formatFixed2 (-1 / 8) = "-0.12" := by decide +kernel

theorem roundHalfEven_intCast (n : Int) : roundHalfEven (n : ℚ) = n := by
  have hfloor : (n : ℚ).floor = n := Rat.floor_intCast n
  simp [roundHalfEven, hfloor]

def centsText (n : Nat) : List Char := padNat 1 (n / 100) ++ '.' :: padNat 2 (n % 100)

theorem formatFixed2_cents (z : Int) : formatFixed2 ((z : ℚ) / 100) =
    String.ofList ((if z < 0 then ['-'] else []) ++ centsText z.natAbs) := by
  have hround : roundHalfEven ((z : ℚ) / 100 * 100) = z := by
    rw [div_mul_cancel₀ _ (by norm_num), roundHalfEven_intCast]
  have hsign : (z : ℚ) / 100 < 0 ↔ z < 0 := by
    rw [div_lt_iff₀ (by norm_num), zero_mul, Int.cast_lt_zero]
  simp only [formatFixed2, hround, hsign, centsText]

theorem padNat_ne_nil {w n : Nat} : padNat w n ≠ [] := by
  intro h
  have hdigits := (List.append_eq_nil_iff.mp h).2
  exact absurd (Nat.length_toDigits_pos (b := 10) (n := n)) (by rw [hdigits]; decide)

theorem takeWhile_padNat_append (w n : Nat) {c : Char} (cs : List Char)
    (hc : c.isDigit = false) :
    (padNat w n ++ c :: cs).takeWhile Char.isDigit = padNat w n ∧
      (padNat w n ++ c :: cs).dropWhile Char.isDigit = c :: cs := by
  have hall : ∀ d ∈ padNat w n, d.isDigit = true := fun d => isDigit_of_mem_padNat
  constructor
  · rw [List.takeWhile_append_of_pos hall, List.takeWhile_cons_of_neg (by simp [hc]),
      List.append_nil]
  · rw [List.dropWhile_append_of_pos hall, List.dropWhile_cons_of_neg (by simp [hc])]

theorem readSign_padNat_append (w n : Nat) (cs : List Char) :
    readSign (padNat w n ++ cs) = (false, padNat w n ++ cs) := by
  cases hpad : padNat w n with
  | nil => exact absurd hpad padNat_ne_nil
  | cons d ds =>
    have hd : d.isDigit = true := isDigit_of_mem_padNat (hpad ▸ List.mem_cons_self)
    unfold readSign
    split
    · rename_i heq
      rw [(List.cons.inj heq).1] at hd
      exact absurd hd (by decide)
    · rename_i heq
      rw [(List.cons.inj heq).1] at hd
      exact absurd hd (by decide)
    · rfl

theorem parseFloat_of_plain {text : String} {neg : Bool} {cs : List Char}
    (htext : readSign text.toList = (neg, cs)) (hplain : ∀ c ∈ cs, c.isDigit = true ∨ c = '.') :
    parseFloat text = (readDigits false cs).map fun q =>
      if q < floatLimit then .finite (if neg then -q else q) else .range neg := by
  have htoLower : ∀ c ∈ cs, c.toLower = c := by
    intro c hc
    rcases hplain c hc with hdigit | rfl
    · simp only [Char.isDigit, Bool.and_eq_true, decide_eq_true_eq] at hdigit
      exact dif_neg fun h => absurd (UInt32.le_trans h.1 hdigit.2) (by decide)
    · rfl
  have hlower : cs.map Char.toLower = cs :=
    (List.map_congr_left htoLower).trans (List.map_id cs)
  have hother : ∀ c, c.isDigit = false → c ≠ '.' → c ∉ cs := fun c hc hne hmem => by
    rcases hplain c hmem with hdigit | heq
    · rw [hc] at hdigit
      cases hdigit
    · exact hne heq
  have hword : ∀ word : String, 'n' ∈ word.toList → String.ofList cs ≠ word := by
    rintro word hn rfl
    exact hother 'n' (by decide) (by decide) (by simpa using hn)
  have hfilter : cs.filter (· ≠ '_') = cs :=
    List.filter_eq_self.mpr fun c hc => by
      simpa using fun heq : c = '_' => hother '_' (by decide) (by decide) (heq ▸ hc)
  have hhex : hexBody cs = none := by
    unfold hexBody
    split
    · next x rest =>
      refine if_neg fun h => hother 'x' (by decide) (by decide) ?_
      rw [← h.1, htoLower x (by simp)]
      simp
    · rfl
  simp only [parseFloat, htext, hlower, hword "inf" (by decide), hword "infinity" (by decide),
    hword "nan" (by decide), hother '_' (by decide) (by decide), hfilter, hhex, false_and, or_self,
    if_false, Option.map_none, Option.getD_none]

theorem parseAmount_centsText {text : String} {neg : Bool} {n : Nat}
    (htext : readSign text.toList = (neg, centsText n)) :
    parseAmount text = if (n : ℚ) / 100 < floatLimit then
      some (if neg then -((n : ℚ) / 100) else (n : ℚ) / 100) else none := by
  have hall : ∀ d ∈ padNat 2 (n % 100), d.isDigit = true := fun d => isDigit_of_mem_padNat
  have hplain : ∀ c ∈ centsText n, c.isDigit = true ∨ c = '.' := by
    intro c hc
    rcases List.mem_append.mp hc with hwhole | hrest
    · exact .inl (isDigit_of_mem_padNat hwhole)
    · exact (List.mem_cons.mp hrest).symm.imp_left (hall c)
  have hfrac : (padNat 2 (n % 100)).takeWhile Char.isDigit = padNat 2 (n % 100) ∧
      (padNat 2 (n % 100)).dropWhile Char.isDigit = [] := by
    constructor
    · exact List.takeWhile_eq_self_iff.mpr hall
    · exact List.dropWhile_eq_nil_iff.mpr hall
  have hlen : (padNat 2 (n % 100)).length = 2 :=
    length_padNat (by decide) (Nat.mod_lt _ (by decide))
  have hdigits : Nat.ofDigitChars 10 (padNat 1 (n / 100) ++ padNat 2 (n % 100)) 0 = n := by
    rw [Nat.ofDigitChars_append, ofDigitChars_padNat, Nat.ofDigitChars_eq_ofDigitChars_zero, hlen,
      ofDigitChars_padNat]
    omega
  have hpoint := takeWhile_padNat_append 1 (n / 100) (padNat 2 (n % 100))
    (show '.'.isDigit = false by decide)
  have hread : readDigits false (centsText n) = some ((n : ℚ) / 100) := by
    have hvalue : ((n : ℕ) : ℚ) * 10 ^ (-2 : Int) = (n : ℚ) / 100 := by
      rw [zpow_neg, div_eq_mul_inv]
      norm_num
    simp only [readDigits, isDigitOf, digitsValue, centsText, hpoint.1, hpoint.2, hfrac.1, hfrac.2,
      hdigits, hlen, padNat_ne_nil, false_and, if_false, Bool.false_eq_true]
    rw [← hvalue]
    rfl
  rw [parseAmount, parseFloat_of_plain htext hplain, hread, Option.map_some]
  split_ifs <;> rfl

/-- What is written of whole hundredths is read back, up to the float64 range. -/
theorem parseAmount_formatFixed2_int (z : Int) :
    parseAmount (formatFixed2 ((z : ℚ) / 100)) =
      if |(z : ℚ) / 100| < floatLimit then some ((z : ℚ) / 100) else none := by
  have habs : |(z : ℚ) / 100| = (z.natAbs : ℚ) / 100 := by
    rw [abs_div, Nat.cast_natAbs, Int.cast_abs]
    norm_num
  rw [formatFixed2_cents, habs]
  by_cases hz : z < 0
  · have hsign : readSign (String.ofList (['-'] ++ centsText z.natAbs)).toList =
        (true, centsText z.natAbs) := by
      rw [String.toList_ofList]
      rfl
    rw [if_pos hz, parseAmount_centsText hsign, ← habs, abs_of_neg]
    · simp
    · exact div_neg_of_neg_of_pos (by exact_mod_cast hz) (by norm_num)
  · have hsign : readSign (String.ofList ([] ++ centsText z.natAbs)).toList =
        (false, centsText z.natAbs) := by
      rw [String.toList_ofList, List.nil_append, centsText, readSign_padNat_append]
    rw [if_neg hz, parseAmount_centsText hsign, ← habs, abs_of_nonneg]
    · simp
    · exact div_nonneg (by exact_mod_cast not_lt.mp hz) (by norm_num)

/-! ## Rounding to hundredths -/

theorem roundHalfEven_within (q : ℚ) :
    q.floor ≤ roundHalfEven q ∧ roundHalfEven q ≤ q.floor + 1 := by
  unfold roundHalfEven
  dsimp only
  split_ifs <;> omega

theorem roundHalfEven_mono {a b : ℚ} (h : a ≤ b) : roundHalfEven a ≤ roundHalfEven b := by
  have hfloor : a.floor ≤ b.floor := Rat.floor_monotone h
  rcases hfloor.lt_or_eq with hlt | heq
  · have habove := (roundHalfEven_within a).2
    have hbelow := (roundHalfEven_within b).1
    omega
  · -- inside one unit the fractions compare as the amounts
    have hrest : a - a.floor ≤ b - b.floor := by
      rw [heq]
      linarith
    unfold roundHalfEven
    dsimp only
    split_ifs <;> first | omega | linarith

/-- An amount rounded to hundredths, as `formatFixed2` writes it. -/
def toCents (q : ℚ) : ℚ := (roundHalfEven (q * 100) : ℚ) / 100

theorem toCents_cents (z : Int) : toCents ((z : ℚ) / 100) = (z : ℚ) / 100 := by
  rw [toCents, div_mul_cancel₀ _ (by norm_num), roundHalfEven_intCast]

theorem toCents_zero : toCents 0 = 0 := by simpa using toCents_cents 0

theorem toCents_mono {a b : ℚ} (h : a ≤ b) : toCents a ≤ toCents b := by
  have hround : roundHalfEven (a * 100) ≤ roundHalfEven (b * 100) :=
    roundHalfEven_mono (by linarith)
  unfold toCents
  gcongr

theorem toCents_nonneg {q : ℚ} (h : 0 ≤ q) : 0 ≤ toCents q := by
  rw [← toCents_zero]
  exact toCents_mono h

theorem formatFixed2_toCents {q : ℚ} (h : 0 ≤ q) : formatFixed2 (toCents q) = formatFixed2 q := by
  have hround : roundHalfEven (toCents q * 100) = roundHalfEven (q * 100) := by
    rw [toCents, div_mul_cancel₀ _ (by norm_num), roundHalfEven_intCast]
  simp only [formatFixed2, hround, not_lt.mpr h, not_lt.mpr (toCents_nonneg h)]

end Kaalm.Foundation
