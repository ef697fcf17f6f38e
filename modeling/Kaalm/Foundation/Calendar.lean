/-
  Foundation/Calendar.lean --- the proleptic Gregorian calendar and ISO weeks.

  Go's `time` package reads a UTC instant as a civil date and as an ISO 8601
  year and week.  An instant is an integer number of nanoseconds; its day number
  counts from 0001-01-01, which is a Monday and day number 0.

  `yearOf` estimates the year from the mean year length and corrects by one, so
  it is closed-form and evaluates; `daysBeforeYear_le` and `lt_daysBeforeYear`
  pin it, and everything after uses only those two facts.
-/
import Mathlib.Algebra.Order.BigOperators.Group.List
import Mathlib.Algebra.Order.Ring.Int

namespace Kaalm.Foundation.Calendar

/-- Days from 0001-01-01 to the first day of year `y`. -/
def daysBeforeYear (y : Int) : Int := 365 * (y - 1) + (y - 1) / 4 - (y - 1) / 100 + (y - 1) / 400

/-- A leap year of the Gregorian calendar. -/
def isLeap (y : Int) : Bool := y % 4 = 0 && (y % 100 ≠ 0 || y % 400 = 0)

theorem daysBeforeYear_succ (y : Int) :
    daysBeforeYear (y + 1) = daysBeforeYear y + if isLeap y then 366 else 365 := by
  unfold daysBeforeYear isLeap
  by_cases h4 : y % 4 = 0 <;> by_cases h100 : y % 100 = 0 <;>
    by_cases h400 : y % 400 = 0 <;> simp [h4, h100, h400] <;> omega

theorem daysBeforeYear_lt {y z : Int} (h : y < z) : daysBeforeYear y < daysBeforeYear z := by
  unfold daysBeforeYear
  omega

def yearOf (n : Int) : Int :=
  -- 146097 days in 400 years; the estimate is off by at most one
  let y := 400 * n / 146097 + 1
  if n < daysBeforeYear y then y - 1
  else if daysBeforeYear (y + 1) ≤ n then y + 1
  else y

variable (n : Int)

theorem daysBeforeYear_le : daysBeforeYear (yearOf n) ≤ n := by
  unfold yearOf daysBeforeYear
  grind

theorem lt_daysBeforeYear : n < daysBeforeYear (yearOf n + 1) := by
  unfold yearOf daysBeforeYear
  grind

theorem yearOf_eq {n y : Int} (hlo : daysBeforeYear y ≤ n)
    (hhi : n < daysBeforeYear (y + 1)) : yearOf n = y := by
  have h₁ := daysBeforeYear_le n
  have h₂ := lt_daysBeforeYear n
  rcases lt_trichotomy (yearOf n) y with h | h | h
  · have : daysBeforeYear (yearOf n + 1) ≤ daysBeforeYear y := by
      rcases eq_or_lt_of_le (Int.add_one_le_of_lt h) with he | hl
      · rw [he]
      · exact le_of_lt (daysBeforeYear_lt hl)
    omega
  · exact h
  · have : daysBeforeYear (y + 1) ≤ daysBeforeYear (yearOf n) := by
      rcases eq_or_lt_of_le (Int.add_one_le_of_lt h) with he | hl
      · rw [he]
      · exact le_of_lt (daysBeforeYear_lt hl)
    omega

variable {a b : Int}

theorem yearOf_mono (h : a ≤ b) : yearOf a ≤ yearOf b := by
  by_contra hlt
  have hle : daysBeforeYear (yearOf b + 1) ≤ daysBeforeYear (yearOf a) := by
    rcases eq_or_lt_of_le (Int.add_one_le_of_lt (not_le.mp hlt)) with he | hl
    · rw [he]
    · exact le_of_lt (daysBeforeYear_lt hl)
  have h₁ := daysBeforeYear_le a
  have h₂ := lt_daysBeforeYear b
  omega

/-! ## Months -/

/-- Walk off whole segments of the given lengths: the number of segments passed
and the remainder inside the next one. -/
def locate : List Int → Int → Nat × Int
  | [], d => (0, d)
  | len :: rest, d =>
    if d < len then (0, d)
    else ((locate rest (d - len)).1 + 1, (locate rest (d - len)).2)

variable {d : Int} {lens : List Int}

theorem locate_lt_length (h : d < lens.sum) (h0 : 0 ≤ d) : (locate lens d).1 < lens.length := by
  induction lens generalizing d with
  | nil => simp at h; omega
  | cons len rest ih =>
    simp only [List.sum_cons] at h
    simp only [locate, List.length_cons]
    split_ifs with hlt
    · simp
    · simpa using ih (d := d - len) (by omega) (by omega)

theorem locate_mono (lens : List Int) (h : a ≤ b) : (locate lens a).1 ≤ (locate lens b).1 := by
  induction lens generalizing a b with
  | nil => simp [locate]
  | cons len rest ih =>
    have := ih (a := a - len) (b := b - len) (by omega)
    simp only [locate]
    split_ifs with ha hb hb
    · simp
    · simp
    · omega
    · simpa using this

/-- The segments passed and the remainder make up the whole. -/
theorem locate_sum (lens : List Int) (d : Int) :
    (lens.take (locate lens d).1).sum + (locate lens d).2 = d := by
  induction lens generalizing d with
  | nil => simp [locate]
  | cons len rest ih =>
    have := ih (d - len)
    simp only [locate]
    split_ifs
    · simp
    · simp only [List.take_succ_cons, List.sum_cons]
      omega

theorem locate_rem_nonneg (lens : List Int) (h : 0 ≤ d) : 0 ≤ (locate lens d).2 := by
  induction lens generalizing d with
  | nil => simpa [locate] using h
  | cons len rest ih =>
    simp only [locate]
    split_ifs with hlt
    · exact h
    · exact ih (by omega)

theorem locate_rem_lt (bound : Int) (h : d < lens.sum) (h0 : 0 ≤ d)
    (hb : ∀ len ∈ lens, len ≤ bound) :
    (locate lens d).2 < bound := by
  induction lens generalizing d with
  | nil => simp at h; omega
  | cons len rest ih =>
    simp only [List.sum_cons] at h
    simp only [locate]
    split_ifs with hlt
    · have := hb len (by simp)
      omega
    · exact ih (by omega) (by omega) (fun l hl => hb l (List.mem_cons_of_mem _ hl))

theorem lt_take_locate (h : d < lens.sum) : d < (lens.take ((locate lens d).1 + 1)).sum := by
  induction lens generalizing d with
  | nil => simpa [locate] using h
  | cons len rest ih =>
    simp only [List.sum_cons] at h
    simp only [locate]
    split_ifs with hlt
    · simpa using hlt
    · have := ih (d := d - len) (by omega)
      simp only [List.take_succ_cons, List.sum_cons]
      omega

/-- The segment a distance lies in is the one the walk stops in. -/
theorem locate_fst_eq {k : Nat} (hpos : ∀ len ∈ lens, 0 ≤ len) (hlo : (lens.take k).sum ≤ d)
    (hhi : d < (lens.take (k + 1)).sum) (hk : k < lens.length) :
    (locate lens d).1 = k := by
  induction lens generalizing k d with
  | nil => cases hk
  | cons len rest ih =>
    rw [List.take_succ_cons, List.sum_cons] at hhi
    cases k with
    | zero =>
      have hlt : d < len := by simpa using hhi
      simp [locate, hlt]
    | succ k =>
      rw [List.take_succ_cons, List.sum_cons] at hlo
      have htake : 0 ≤ (rest.take k).sum := List.sum_nonneg fun l hl =>
        hpos l (List.mem_cons_of_mem _ (List.mem_of_mem_take hl))
      have hrest : (locate rest (d - len)).1 = k :=
        ih (fun l hl => hpos l (List.mem_cons_of_mem _ hl)) (by omega) (by omega)
          (Nat.lt_of_succ_lt_succ hk)
      simp [locate, hrest, show ¬ d < len by omega]

def monthLengths (leap : Bool) : List Int :=
  [31, if leap then 29 else 28, 31, 30, 31, 30, 31, 31, 30, 31, 30, 31]

def yearDay (n : Int) : Int := n - daysBeforeYear (yearOf n)

/-- `Time.Month`: 1 is January. -/
def monthOf (n : Int) : Nat := (locate (monthLengths (isLeap (yearOf n))) (yearDay n)).1 + 1

/-- `Time.Day`: the 1-based day of the month. -/
def dayOfMonth (n : Int) : Int := (locate (monthLengths (isLeap (yearOf n))) (yearDay n)).2 + 1

theorem yearDay_nonneg : 0 ≤ yearDay n := by
  have := daysBeforeYear_le n
  unfold yearDay
  omega

theorem yearDay_lt : yearDay n < (monthLengths (isLeap (yearOf n))).sum := by
  have h := lt_daysBeforeYear n
  rw [daysBeforeYear_succ] at h
  unfold yearDay
  cases hl : isLeap (yearOf n) <;> simp [hl, monthLengths] at h ⊢ <;> omega

theorem monthOf_bounds : 1 ≤ monthOf n ∧ monthOf n ≤ 12 := by
  have h := locate_lt_length (yearDay_lt n) (yearDay_nonneg n)
  simp only [monthLengths, List.length_cons, List.length_nil] at h
  unfold monthOf monthLengths
  omega

theorem dayOfMonth_bounds : 1 ≤ dayOfMonth n ∧ dayOfMonth n ≤ 31 := by
  have h₁ := locate_rem_nonneg (monthLengths (isLeap (yearOf n))) (yearDay_nonneg n)
  have h₂ := locate_rem_lt 31 (yearDay_lt n) (yearDay_nonneg n)
    (by cases isLeap (yearOf n) <;> decide)
  unfold dayOfMonth
  omega

theorem monthOf_mono (h : a ≤ b) (hy : yearOf a = yearOf b) : monthOf a ≤ monthOf b := by
  have hd : yearDay a ≤ yearDay b := by
    unfold yearDay
    rw [hy]
    omega
  have := locate_mono (monthLengths (isLeap (yearOf b))) hd
  unfold monthOf
  rw [hy]
  omega

theorem eq_of_date_eq (hy : yearOf a = yearOf b) (hm : monthOf a = monthOf b)
    (hd : dayOfMonth a = dayOfMonth b) : a = b := by
  have ha := locate_sum (monthLengths (isLeap (yearOf a))) (yearDay a)
  have hb := locate_sum (monthLengths (isLeap (yearOf b))) (yearDay b)
  have hm' := Nat.add_right_cancel hm
  rw [hm', add_right_cancel hd, hy, hb] at ha
  unfold yearDay at ha
  rw [hy] at ha
  omega

/-! ## Weeks -/

/-- `time.Weekday`: 0 is Sunday. -/
def weekday (n : Int) : Int := (n + 1) % 7

/-- The number of the Monday-based week a day falls in. -/
def weekIndex (n : Int) : Int := n / 7

/-- The Thursday of a week, whose year is the ISO year of the week. -/
def thursday (w : Int) : Int := 7 * w + 3

def isoWeek (n : Int) : Int × Int :=
  let t := thursday (weekIndex n)
  (yearOf t, yearDay t / 7 + 1)

theorem isoWeek_bounds : 1 ≤ (isoWeek n).2 ∧ (isoWeek n).2 ≤ 53 := by
  have h₁ := yearDay_nonneg (thursday (weekIndex n))
  have h₂ := yearDay_lt (thursday (weekIndex n))
  have h₃ : (monthLengths (isLeap (yearOf (thursday (weekIndex n))))).sum ≤ 366 := by
    cases isLeap (yearOf (thursday (weekIndex n))) <;> decide
  simp only [isoWeek]
  omega

theorem weekIndex_eq_of_isoWeek_eq (h : isoWeek a = isoWeek b) : weekIndex a = weekIndex b := by
  simp only [isoWeek, Prod.mk.injEq] at h
  obtain ⟨hy, hw⟩ := h
  unfold yearDay at hw
  rw [hy] at hw
  unfold thursday at hw
  omega

theorem isoWeek_congr (h : weekIndex a = weekIndex b) : isoWeek a = isoWeek b := by
  unfold isoWeek
  rw [h]

end Kaalm.Foundation.Calendar
