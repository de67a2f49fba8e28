import Mathlib.Tactic.Common

/-!
# The proleptic Gregorian calendar

* `IsLeap`, `monthLength`, and `Date` : a day of the calendar, its month and day in range;
* `Date.dayNumber` : the days since 1 January 1970. An earlier day has the smaller number;
* years counted from March: `dayNumber_eq_march`, the cycles of a 400-year era
  (`year_of_cycles`), and `Date.ofMarch`, the date at a day of such a year.
-/

namespace Lib

def IsLeap (y : Int) : Prop := y % 4 = 0 ∧ (y % 100 ≠ 0 ∨ y % 400 = 0)

instance (y : Int) : Decidable (IsLeap y) := inferInstanceAs (Decidable (_ ∧ _))

def monthLength (y : Int) : Nat → Nat
  | 2 => if IsLeap y then 29 else 28
  | 4 | 6 | 9 | 11 => 30
  | _ => 31

@[ext] structure Date where
  year : Int
  month : Nat
  day : Nat
  one_le_month : 1 ≤ month
  month_le : month ≤ 12
  one_le_day : 1 ≤ day
  day_le : day ≤ monthLength year month

variable (y : Int)

theorem monthLength_le (m : Nat) : monthLength y m ≤ 31 := by
  unfold monthLength
  split
  · split <;> omega
  all_goals omega

def monthStart (y : Int) : Nat → Nat
  | 0 | 1 => 0
  | m + 2 => monthStart y (m + 1) + monthLength y (m + 1)

def yearStart (y : Int) : Int := 365 * (y - 1970) + (y - 1) / 4 - (y - 1) / 100 + (y - 1) / 400 - 477

def Date.dayNumber (d : Date) : Int := yearStart d.year + monthStart d.year d.month + (d.day - 1 : Nat)

theorem yearStart_succ : yearStart (y + 1) = yearStart y + if IsLeap y then 366 else 365 := by
  unfold yearStart IsLeap
  split_ifs <;> omega

theorem yearStart_add_months : yearStart y + monthStart y 13 = yearStart (y + 1) := by
  rw [yearStart_succ]
  simp only [monthStart, monthLength]
  split_ifs <;> simp

theorem monthStart_succ {m : Nat} (h : 1 ≤ m) : monthStart y (m + 1) = monthStart y m + monthLength y m := by
  obtain ⟨k, rfl⟩ : ∃ k, m = k + 1 := ⟨m - 1, by omega⟩
  rfl

theorem monthStart_mono {m n : Nat} (h : m ≤ n) : monthStart y m ≤ monthStart y n := by
  induction h with
  | refl => exact Nat.le_refl _
  | @step n _ ih =>
    refine Nat.le_trans ih ?_
    match n with
    | 0 => exact Nat.le_refl _
    | n + 1 => exact Nat.le_add_right _ _

theorem yearStart_mono {y z : Int} (h : y ≤ z) : yearStart y ≤ yearStart z := by
  unfold yearStart
  omega

theorem Date.dayNumber_bounds (d : Date) : yearStart d.year + monthStart d.year d.month ≤ d.dayNumber ∧
    d.dayNumber < yearStart d.year + monthStart d.year (d.month + 1) := by
  have hmonths := monthStart_succ d.year d.one_le_month
  have hlow := d.one_le_day
  have hhigh := d.day_le
  unfold Date.dayNumber
  omega

def Date.Before (d e : Date) : Prop :=
  d.year < e.year ∨ d.year = e.year ∧ (d.month < e.month ∨ d.month = e.month ∧ d.day < e.day)

theorem Date.Before.dayNumber_lt {d e : Date} (h : d.Before e) : d.dayNumber < e.dayNumber := by
  obtain ⟨-, hd⟩ := d.dayNumber_bounds
  obtain ⟨he, -⟩ := e.dayNumber_bounds
  rcases h with hyear | ⟨hyear, hmonth | ⟨hmonth, hday⟩⟩
  · have hend : monthStart d.year (d.month + 1) ≤ monthStart d.year 13 :=
      monthStart_mono d.year (Nat.succ_le_succ d.month_le)
    have hyears := yearStart_mono (Int.add_one_le_of_lt hyear)
    have hmonths := yearStart_add_months d.year
    omega
  · have hend : monthStart d.year (d.month + 1) ≤ monthStart d.year e.month :=
      monthStart_mono d.year (Nat.succ_le_of_lt hmonth)
    rw [← hyear] at he
    omega
  · have hlow := d.one_le_day
    simp only [Date.dayNumber, hyear, hmonth]
    omega

theorem Date.before_or_eq_or_before (d e : Date) : d.Before e ∨ d = e ∨ e.Before d := by
  by_cases hsame : d.year = e.year ∧ d.month = e.month ∧ d.day = e.day
  · exact Or.inr (Or.inl (Date.ext hsame.1 hsame.2.1 hsame.2.2))
  · unfold Date.Before
    omega

theorem Date.dayNumber_injective {d e : Date} (h : d.dayNumber = e.dayNumber) : d = e := by
  rcases d.before_or_eq_or_before e with hbefore | heq | hafter
  · have hlt := hbefore.dayNumber_lt
    omega
  · exact heq
  · have hlt := hafter.dayNumber_lt
    omega

theorem Date.dayNumber_of_years (d : Date) {y z : Int} (hy : y ≤ d.year) (hz : d.year < z) :
    yearStart y ≤ d.dayNumber ∧ d.dayNumber < yearStart z := by
  obtain ⟨hlow, hhigh⟩ := d.dayNumber_bounds
  have hstart := yearStart_mono hy
  have hend := yearStart_mono (Int.add_one_le_of_lt hz)
  have hmonths := yearStart_add_months d.year
  have htwelve : monthStart d.year (d.month + 1) ≤ monthStart d.year 13 :=
    monthStart_mono d.year (Nat.succ_le_succ d.month_le)
  omega

def Date.marchYear (d : Date) : Int := if d.month ≤ 2 then d.year - 1 else d.year
def Date.marchMonth (d : Date) : Nat := if d.month ≤ 2 then d.month + 9 else d.month - 3
def marchStart (y : Int) : Int := 365 * y + y / 4 - y / 100 + y / 400 - 719468

theorem monthStart_march {m : Nat} (h3 : 3 ≤ m) (h12 : m ≤ 12) :
    monthStart y m = monthStart y 3 + (153 * (m - 3) + 2) / 5 := by
  have hcases : m = 3 ∨ m = 4 ∨ m = 5 ∨ m = 6 ∨ m = 7 ∨ m = 8 ∨ m = 9 ∨ m = 10 ∨ m = 11 ∨ m = 12 := by omega
  rcases hcases with rfl | rfl | rfl | rfl | rfl | rfl | rfl | rfl | rfl | rfl <;>
    simp only [monthStart, monthLength, Nat.add_assoc, Nat.reduceAdd, Nat.reduceSub, Nat.reduceMul, Nat.reduceDiv,
      Nat.add_zero]

theorem marchStart_eq : marchStart y = yearStart y + monthStart y 3 := by
  by_cases hleap : IsLeap y
  · simp only [marchStart, yearStart, monthStart, monthLength, if_pos hleap]
    unfold IsLeap at hleap
    omega
  · simp only [marchStart, yearStart, monthStart, monthLength, if_neg hleap]
    unfold IsLeap at hleap
    omega

theorem Date.dayNumber_eq_march (d : Date) :
    d.dayNumber = marchStart d.marchYear + (153 * d.marchMonth + 2) / 5 + d.day - 1 := by
  have hlow := d.one_le_day
  have hmonth := d.one_le_month
  unfold Date.dayNumber Date.marchYear Date.marchMonth
  split_ifs with hwinter
  · have hcases : d.month = 1 ∨ d.month = 2 := by omega
    unfold marchStart yearStart
    rcases hcases with h | h <;> rw [h] <;> simp only [monthStart, monthLength] <;> omega
  · rw [marchStart_eq, monthStart_march d.year (by omega) d.month_le]
    omega

theorem marchStart_add_eras (n : Int) : marchStart (y + n * 400) = marchStart y + n * 146097 := by
  have hfour : (y + n * 400) / 4 = y / 4 + n * 100 := by omega
  have hhundred : (y + n * 400) / 100 = y / 100 + n * 4 := by omega
  have hera : (y + n * 400) / 400 = y / 400 + n := by omega
  unfold marchStart
  rw [hfour, hhundred, hera]
  omega

/-- A day of a 400-year era by centuries, four-year cycles and years: only the last year of a cycle has a 366th day,
and of the cycles that end a century only the last. -/
theorem exists_cycles {doe : Int} (h0 : 0 ≤ doe) (h1 : doe < 146097) :
    ∃ c q i doy : Int, (0 ≤ c ∧ c ≤ 3) ∧ (0 ≤ q ∧ q ≤ 24) ∧ (0 ≤ i ∧ i ≤ 3) ∧ 0 ≤ doy ∧
      (doy ≤ 364 ∨ doy = 365 ∧ i = 3 ∧ (q ≠ 24 ∨ c = 3)) ∧ doe = 36524 * c + 1461 * q + 365 * i + doy := by
  by_cases hlast : doe = 146096
  · exact ⟨3, 24, 3, 365, by omega⟩
  · by_cases hday : doe % 36524 % 1461 = 1460
    · exact ⟨doe / 36524, doe % 36524 / 1461, 3, 365, by omega⟩
    · exact ⟨doe / 36524, doe % 36524 / 1461, doe % 36524 % 1461 / 365, doe % 36524 % 1461 % 365, by omega⟩

theorem year_div {c q i : Int} (hc : 0 ≤ c ∧ c ≤ 3) (hq : 0 ≤ q ∧ q ≤ 24) (hi : 0 ≤ i ∧ i ≤ 3) :
    (100 * c + 4 * q + i) / 4 = 25 * c + q ∧ (100 * c + 4 * q + i) / 100 = c ∧ (100 * c + 4 * q + i) / 400 = 0 := by
  omega

theorem isLeap_of_cycles {c q : Int} (n : Int) (hq : 0 ≤ q ∧ q ≤ 24) (h : q ≠ 24 ∨ c = 3) :
    IsLeap (100 * c + 4 * q + 3 + n * 400 + 1) := by
  unfold IsLeap
  omega

theorem year_of_cycles {c q i doy doe : Int} (hc : 0 ≤ c ∧ c ≤ 3) (hq : 0 ≤ q ∧ q ≤ 24) (hi : 0 ≤ i ∧ i ≤ 3)
    (hdoy : 0 ≤ doy) (hleap : doy ≤ 364 ∨ doy = 365 ∧ i = 3 ∧ (q ≠ 24 ∨ c = 3))
    (hdoe : doe = 36524 * c + 1461 * q + 365 * i + doy) :
    (doe - doe / 1460 + doe / 36524 - doe / 146096) / 365 = 100 * c + 4 * q + i := by
  have hcycle : doe / 1460 = 25 * c + q ∨ doe / 1460 = 25 * c + q + 1 := by omega
  have hcentury : doe / 36524 = c ∧ doe / 146096 = 0 ∨
      doe / 36524 = 4 ∧ doe / 146096 = 1 ∧ c = 3 ∧ doy = 365 ∧ q = 24 ∧ i = 3 := by omega
  rcases hcycle with hcycle | hcycle <;> rcases hcentury with hcentury | hcentury <;> rcases hleap with hleap | hleap <;>
    omega

def Date.ofMarch (y : Int) (doy : Nat) (h : doy ≤ 364 ∨ doy = 365 ∧ IsLeap (y + 1)) : Date :=
  let mp := (5 * doy + 2) / 153
  { year := if mp < 10 then y else y + 1
    month := if mp < 10 then mp + 3 else mp - 9
    day := doy - (153 * mp + 2) / 5 + 1
    one_le_month := by split_ifs <;> omega
    month_le := by split_ifs <;> omega
    one_le_day := by omega
    day_le := by
      have hmp : mp = 0 ∨ mp = 1 ∨ mp = 2 ∨ mp = 3 ∨ mp = 4 ∨ mp = 5 ∨ mp = 6 ∨ mp = 7 ∨ mp = 8 ∨ mp = 9 ∨ mp = 10 ∨
        mp = 11 := by omega
      rcases hmp with hmp | hmp | hmp | hmp | hmp | hmp | hmp | hmp | hmp | hmp | hmp | hmp <;> rw [hmp] <;>
        simp only [monthLength, Nat.reduceLT, if_true, if_false, Nat.reduceAdd, Nat.reduceSub] <;> try omega
      by_cases hleap : IsLeap (y + 1)
      · rw [if_pos hleap]
        omega
      · rw [if_neg hleap]
        have hlast : doy ≤ 364 := h.resolve_right fun hday => hleap hday.2
        omega }

theorem Date.dayNumber_ofMarch {y : Int} {doy : Nat} (h : doy ≤ 364 ∨ doy = 365 ∧ IsLeap (y + 1)) :
    (Date.ofMarch y doy h).dayNumber = marchStart y + doy := by
  have hyear : (Date.ofMarch y doy h).marchYear = y := by
    simp only [Date.marchYear, Date.ofMarch]
    split_ifs <;> omega
  have hmonth : (Date.ofMarch y doy h).marchMonth = (5 * doy + 2) / 153 := by
    simp only [Date.marchMonth, Date.ofMarch]
    split_ifs <;> omega
  rw [Date.dayNumber_eq_march, hyear, hmonth]
  simp only [Date.ofMarch]
  omega

end Lib
