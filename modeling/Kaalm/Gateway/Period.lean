/-
  Gateway/Period.lean --- budget periods (`internal/gateway/budget.go`).

  `PeriodKey` names the budget period an instant falls in and `nextPeriodStart`
  says when that period ends.  An instant is an integer number of nanoseconds
  since 0001-01-01T00:00:00Z.

  THE FACT THE LEDGER RESTS ON.  `periodKey_convex`: under a clock that does not
  go back, a key that has been left never comes back.  The ledger compares only
  keys, so this is what makes "same key" mean "no rollover in between".
  `periodKey_nextPeriodStart`: the reset time is where the key changes.
-/
import Kaalm.Foundation.Calendar
import Kaalm.Foundation.Format

namespace Kaalm.Gateway

open Kaalm.Foundation Kaalm.Foundation.Calendar

/-- An instant: nanoseconds since 0001-01-01T00:00:00Z. -/
abbrev Time : Type := Int

abbrev Duration : Type := Int

def second : Duration := 1000000000

def dayLength : Duration := 86400 * second

def dayOf (t : Time) : Int := t / dayLength

variable {a b : Time}

theorem dayOf_mono (h : a ≤ b) : dayOf a ≤ dayOf b := Int.ediv_le_ediv (by decide) h

/-- `spec.budget.period`. -/
inductive PeriodScheme where
  | monthly
  | weekly
  | daily
  /-- budget tracking is off -/
  | none
  deriving DecidableEq, Repr, Inhabited

/-- `PeriodKey`: the period identifier at an instant, empty for scheme none. -/
def periodKey (scheme : PeriodScheme) (t : Time) : String :=
  let n := dayOf t
  match scheme with
  | .monthly => String.ofList (padInt 4 (yearOf n) ++ '-' :: padInt 2 (monthOf n))
  | .weekly =>
    String.ofList (padInt 0 (isoWeek n).1 ++ '-' :: 'W' :: padInt 2 (isoWeek n).2)
  | .daily =>
    String.ofList (padInt 4 (yearOf n) ++ '-' :: padInt 2 (monthOf n) ++
      '-' :: padInt 2 (dayOfMonth n))
  | .none => ""

/-- The first instant of day number `n`. -/
def startOfDay (n : Int) : Time := n * dayLength

def march2026 : Time := startOfDay 739690

/-- The day number of the first of a month, the month counted past December
running into the following year as `time.Date` normalises it. -/
def firstOfMonth (year : Int) (month : Nat) : Int :=
  let y := year + (month - 1) / 12
  let m := (month - 1) % 12
  daysBeforeYear y + ((monthLengths (isLeap y)).take m).sum

/-- `nextPeriodStart`: when the current period rolls over. -/
def nextPeriodStart (scheme : PeriodScheme) (t : Time) : Time :=
  let n := dayOf t
  match scheme with
  | .monthly => startOfDay (firstOfMonth (yearOf n) (monthOf n + 1))
  | .weekly =>
    let d := (8 - weekday n) % 7
    startOfDay (n + if d = 0 then 7 else d)
  | _ => startOfDay (n + 1)

/-! ## Keys determine periods -/

private theorem append_cons_inj {α : Type} {l₁ l₂ r₁ r₂ : List α} {c : α}
    (h : l₁ ++ c :: r₁ = l₂ ++ c :: r₂) (hlen : r₁.length = r₂.length) :
    l₁ = l₂ ∧ r₁ = r₂ := by
  obtain ⟨h₁, h₂⟩ := List.append_inj' h (by simp [hlen])
  exact ⟨h₁, (List.cons.inj h₂).2⟩

private theorem length_month (n : Int) : (padInt 2 (monthOf n)).length = 2 :=
  length_padInt (by decide) (by omega) (by have := monthOf_bounds n; omega)

private theorem length_day (n : Int) : (padInt 2 (dayOfMonth n)).length = 2 :=
  length_padInt (by decide) (by have := dayOfMonth_bounds n; omega)
    (by have := dayOfMonth_bounds n; omega)

private theorem length_week (n : Int) : (padInt 2 (isoWeek n).2).length = 2 :=
  length_padInt (by decide) (by have := isoWeek_bounds n; omega)
    (by have := isoWeek_bounds n; omega)

theorem monthly_key_eq (h : periodKey .monthly a = periodKey .monthly b) :
    yearOf (dayOf a) = yearOf (dayOf b) ∧ monthOf (dayOf a) = monthOf (dayOf b) := by
  simp only [periodKey, String.ofList_inj] at h
  obtain ⟨hy, hm⟩ := append_cons_inj h (by rw [length_month, length_month])
  have hm' := padInt_injective 2 hm
  exact ⟨padInt_injective 4 hy, by omega⟩

theorem weekly_key_eq (h : periodKey .weekly a = periodKey .weekly b) :
    weekIndex (dayOf a) = weekIndex (dayOf b) := by
  simp only [periodKey, String.ofList_inj] at h
  obtain ⟨hy, hw⟩ := append_cons_inj h (by simp [length_week])
  have hw' := padInt_injective 2 (List.cons.inj hw).2
  exact weekIndex_eq_of_isoWeek_eq (Prod.ext (padInt_injective 0 hy) hw')

theorem daily_key_eq (h : periodKey .daily a = periodKey .daily b) :
    dayOf a = dayOf b := by
  simp only [periodKey, String.ofList_inj] at h
  obtain ⟨hym, hd⟩ := append_cons_inj h (by rw [length_day, length_day])
  obtain ⟨hy, hm⟩ := append_cons_inj hym (by rw [length_month, length_month])
  have hm' := padInt_injective 2 hm
  exact eq_of_date_eq (padInt_injective 4 hy) (by omega) (padInt_injective 2 hd)

theorem periodKey_convex {scheme : PeriodScheme} {c : Time} (hab : a ≤ b) (hbc : b ≤ c)
    (h : periodKey scheme a = periodKey scheme c) :
    periodKey scheme b = periodKey scheme a := by
  have hab' := dayOf_mono hab
  have hbc' := dayOf_mono hbc
  cases scheme with
  | monthly =>
    obtain ⟨hy, hm⟩ := monthly_key_eq h
    have hyb : yearOf (dayOf b) = yearOf (dayOf a) := by
      have := yearOf_mono hab'
      have := yearOf_mono hbc'
      omega
    have hmb : monthOf (dayOf b) = monthOf (dayOf a) := by
      have := monthOf_mono hab' hyb.symm
      have := monthOf_mono hbc' (hyb.trans hy)
      omega
    simp only [periodKey, hyb, hmb]
  | weekly =>
    have hw := weekly_key_eq h
    have hwb : weekIndex (dayOf b) = weekIndex (dayOf a) := by
      unfold weekIndex at hw ⊢
      omega
    simp only [periodKey, isoWeek_congr hwb]
  | daily =>
    have hd := daily_key_eq h
    have hdb : dayOf b = dayOf a := by omega
    simp only [periodKey, hdb]
  | none => rfl

theorem periodKey_eq_empty_iff (scheme : PeriodScheme) (t : Time) :
    periodKey scheme t = "" ↔ scheme = .none := by
  cases scheme <;> simp [periodKey]

example : periodKey .monthly (startOfDay (firstOfMonth 2026 9)) = "2026-09" := by decide +kernel

/-! ## The end of a period -/

theorem dayOf_startOfDay (n : Int) : dayOf (startOfDay n) = n := Int.mul_ediv_cancel n (by decide)

theorem lt_startOfDay_iff {t : Time} {n : Int} : t < startOfDay n ↔ dayOf t < n :=
  (Int.ediv_lt_iff_lt_mul (by decide)).symm

/-- The month after the one of a day starts where that month's days end; after
December that is the start of the next year. -/
theorem firstOfMonth_succ (n : Int) :
    firstOfMonth (yearOf n) (monthOf n + 1) = daysBeforeYear (yearOf n) +
      ((monthLengths (isLeap (yearOf n))).take (monthOf n)).sum := by
  obtain ⟨hlo, hhi⟩ := monthOf_bounds n
  unfold firstOfMonth
  rcases eq_or_lt_of_le hhi with hdec | hlt
  · have hnext := daysBeforeYear_succ (yearOf n)
    rw [hdec]
    cases hleap : isLeap (yearOf n) <;> simp [hleap, monthLengths] at hnext ⊢ <;> omega
  · have hyear : ((monthOf n + 1 : Nat) - 1 : Int) / 12 = 0 := by omega
    have hmonth : (monthOf n + 1 - 1) % 12 = monthOf n := by omega
    simp only [hyear, hmonth, add_zero]

theorem month_of_lt_firstOfMonth {n d : Int} (hlo : n ≤ d)
    (hhi : d < firstOfMonth (yearOf n) (monthOf n + 1)) :
    yearOf d = yearOf n ∧ monthOf d = monthOf n := by
  rw [firstOfMonth_succ] at hhi
  have hpos : ∀ len ∈ monthLengths (isLeap (yearOf n)), 0 ≤ len := by
    cases isLeap (yearOf n) <;> decide
  have htotal : ((monthLengths (isLeap (yearOf n))).take (monthOf n)).sum ≤
      (monthLengths (isLeap (yearOf n))).sum := by
    have hsplit := List.sum_take_add_sum_drop (monthLengths (isLeap (yearOf n))) (monthOf n)
    have hdrop : 0 ≤ ((monthLengths (isLeap (yearOf n))).drop (monthOf n)).sum :=
      List.sum_nonneg fun l hl => hpos l (List.mem_of_mem_drop hl)
    omega
  have hsum : daysBeforeYear (yearOf n + 1) =
      daysBeforeYear (yearOf n) + (monthLengths (isLeap (yearOf n))).sum := by
    rw [daysBeforeYear_succ]
    cases isLeap (yearOf n) <;> rfl
  have hyear : yearOf d = yearOf n := yearOf_eq ((daysBeforeYear_le n).trans hlo) (by omega)
  refine ⟨hyear, ?_⟩
  have hstart := locate_sum (monthLengths (isLeap (yearOf n))) (yearDay n)
  have hrem := locate_rem_nonneg (monthLengths (isLeap (yearOf n))) (yearDay_nonneg n)
  have hday : yearDay n ≤ yearDay d := by
    unfold yearDay
    rw [hyear]
    omega
  have hend : yearDay d < ((monthLengths (isLeap (yearOf n))).take (monthOf n)).sum := by
    unfold yearDay
    rw [hyear]
    omega
  unfold monthOf at hend ⊢
  rw [hyear, locate_fst_eq hpos (by omega) hend
    (locate_lt_length (yearDay_lt n) (yearDay_nonneg n))]

theorem lt_firstOfMonth (n : Int) : n < firstOfMonth (yearOf n) (monthOf n + 1) := by
  have h := lt_take_locate (yearDay_lt n)
  have hday : yearDay n = n - daysBeforeYear (yearOf n) := rfl
  rw [firstOfMonth_succ]
  unfold monthOf
  omega

/-- The reset time is the end of the period: it lies ahead, the key stays the same
up to it, and from it on the key is another one for good. -/
theorem periodKey_nextPeriodStart {scheme : PeriodScheme} (hscheme : scheme ≠ .none) (t : Time) :
    t < nextPeriodStart scheme t ∧
      (∀ t', t ≤ t' → t' < nextPeriodStart scheme t → periodKey scheme t' = periodKey scheme t) ∧
      ∀ t', nextPeriodStart scheme t ≤ t' → periodKey scheme t' ≠ periodKey scheme t := by
  suffices h : t < nextPeriodStart scheme t ∧
      (∀ t', t ≤ t' → t' < nextPeriodStart scheme t → periodKey scheme t' = periodKey scheme t) ∧
      periodKey scheme (nextPeriodStart scheme t) ≠ periodKey scheme t by
    refine ⟨h.1, h.2.1, fun t' ht' hkey => h.2.2 ?_⟩
    exact periodKey_convex h.1.le ht' hkey.symm
  cases scheme with
  | monthly =>
    simp only [nextPeriodStart, lt_startOfDay_iff]
    refine ⟨lt_firstOfMonth _, fun t' hle hlt => ?_, fun hkey => ?_⟩
    · obtain ⟨hy, hm⟩ := month_of_lt_firstOfMonth (dayOf_mono hle) hlt
      simp only [periodKey, hy, hm]
    · -- the first of the next month would lie before itself
      obtain ⟨hy, hm⟩ := monthly_key_eq hkey
      rw [dayOf_startOfDay] at hy hm
      have hself := lt_firstOfMonth (firstOfMonth (yearOf (dayOf t)) (monthOf (dayOf t) + 1))
      rw [hy, hm] at hself
      exact lt_irrefl _ hself
  | weekly =>
    simp only [nextPeriodStart, lt_startOfDay_iff]
    refine ⟨?_, fun t' hle hlt => ?_, fun hkey => ?_⟩
    · split <;> omega
    · have hweek : weekIndex (dayOf t') = weekIndex (dayOf t) := by
        have := dayOf_mono hle
        unfold weekIndex
        unfold weekday at hlt
        split at hlt <;> omega
      simp only [periodKey, isoWeek_congr hweek]
    · have hweek := weekly_key_eq hkey
      rw [dayOf_startOfDay] at hweek
      unfold weekIndex weekday at hweek
      split at hweek <;> omega
  | daily =>
    simp only [nextPeriodStart, lt_startOfDay_iff]
    refine ⟨Int.lt_succ _, fun t' hle hlt => ?_, fun hkey => ?_⟩
    · have hday : dayOf t' = dayOf t := le_antisymm (Int.lt_add_one_iff.mp hlt) (dayOf_mono hle)
      simp only [periodKey, hday]
    · have hday := daily_key_eq hkey
      rw [dayOf_startOfDay] at hday
      omega
  | none => exact absurd rfl hscheme

/-- The week that runs from 2026 into 2027 ends on 2027-01-04. -/
theorem periodKey_nextPeriodStart_newYear :
    let t := startOfDay (firstOfMonth 2027 1)
    nextPeriodStart .weekly t = startOfDay (firstOfMonth 2027 1 + 3) ∧
      periodKey .weekly t = "2026-W53" ∧
      ∀ t', nextPeriodStart .weekly t ≤ t' → periodKey .weekly t' ≠ periodKey .weekly t :=
  ⟨by decide +kernel, by decide +kernel,
    (periodKey_nextPeriodStart (by decide) (startOfDay (firstOfMonth 2027 1))).2.2⟩

end Kaalm.Gateway
