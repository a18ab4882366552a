import Mathlib.Logic.Function.Iterate
import Mathlib.Tactic.NormNum

/-! The Gregorian calendar. A date is followed by the next day of its month or
by the first day of the next month; `number` says which day it is, counted from
1 March of the year 0 so that a leap day comes last in its year. -/
namespace Library.Calendar

def Leap (year : Nat) : Prop := year % 4 = 0 ∧ (year % 100 = 0 → year % 400 = 0)

instance (year : Nat) : Decidable (Leap year) := inferInstanceAs (Decidable (_ ∧ (_ → _)))

def monthLength (year month : Nat) : Nat :=
  if month = 2 then if Leap year then 29 else 28
  else if month = 4 ∨ month = 6 ∨ month = 9 ∨ month = 11 then 30 else 31

/-- A day that there is. -/
@[ext] structure Date where
  year : Nat
  month : Nat
  day : Nat
  monthly : 1 ≤ month ∧ month ≤ 12
  daily : 1 ≤ day ∧ day ≤ monthLength year month
  deriving DecidableEq

theorem monthLength_pos (year month : Nat) : 1 ≤ monthLength year month := by
  unfold monthLength
  split
  · split <;> omega
  · split <;> omega

namespace Date

/-- The day after. -/
def next (date : Date) : Date :=
  if more : date.day < monthLength date.year date.month then
    { date with day := date.day + 1, daily := ⟨Nat.le_add_left 1 _, more⟩ }
  else if within : date.month < 12 then
    { year := date.year, month := date.month + 1, day := 1
      monthly := ⟨Nat.le_add_left 1 _, within⟩, daily := ⟨Nat.le_refl 1, monthLength_pos ..⟩ }
  else
    { year := date.year + 1, month := 1, day := 1
      monthly := by decide, daily := ⟨Nat.le_refl 1, monthLength_pos ..⟩ }

/-- The date with these numbers, if there is one. -/
def of (year month day : Nat) : Option Date :=
  if monthly : 1 ≤ month ∧ month ≤ 12 then
    if daily : 1 ≤ day ∧ day ≤ monthLength year month then some ⟨year, month, day, monthly, daily⟩
    else none
  else none

theorem of_date (date : Date) : of date.year date.month date.day = some date := by
  rw [of, dif_pos date.monthly, dif_pos date.daily]

end Date

/-- How many months have passed since March. -/
def marchMonth (month : Nat) : Nat := if month ≤ 2 then month + 9 else month - 3

/-- Which day of the year it is, in a year that begins in March. -/
def marchDay (month day : Nat) : Nat := (153 * marchMonth month + 2) / 5 + day - 1

/-- How many days of the calendar lie before the March of a year. -/
def daysBefore (marchYear : Int) : Int :=
  365 * marchYear + marchYear / 4 - marchYear / 100 + marchYear / 400

/-- Which day it is. -/
def dayNumber (year month day : Nat) : Int :=
  daysBefore (if month ≤ 2 then year - 1 else year) + marchDay month day

/-- From one March to the next it is as long as the February between them says. -/
theorem daysBefore_march (year : Nat) :
    daysBefore year = daysBefore (year - 1) + (337 + monthLength year 2 : Nat) := by
  unfold daysBefore
  by_cases leap : Leap year
  · simp only [monthLength, leap, if_true]
    unfold Leap at leap
    omega
  · simp only [monthLength, leap, if_true, if_false]
    unfold Leap at leap
    omega

/-- After the last day of a month comes the first of the next one. -/
private theorem dayNumber_month {year month : Nat} (monthly : 1 ≤ month ∧ month < 12) :
    dayNumber year (month + 1) 1 = dayNumber year month (monthLength year month) + 1 := by
  by_cases february : month = 2
  · subst february
    have march := daysBefore_march year
    simp only [dayNumber, marchDay, marchMonth] at march ⊢
    norm_num at march ⊢
    omega
  · have others : month = 1 ∨ month = 3 ∨ month = 4 ∨ month = 5 ∨ month = 6 ∨ month = 7 ∨
        month = 8 ∨ month = 9 ∨ month = 10 ∨ month = 11 := by omega
    rcases others with rfl | rfl | rfl | rfl | rfl | rfl | rfl | rfl | rfl | rfl <;>
      norm_num [dayNumber, marchDay, marchMonth, monthLength]
    all_goals omega

namespace Date

def number (date : Date) : Int := dayNumber date.year date.month date.day

/-- The day after has the next number. -/
theorem number_next (date : Date) : date.next.number = date.number + 1 := by
  unfold next number
  split
  · have positive := date.daily.1
    simp only [dayNumber, marchDay]
    omega
  · rename_i last
    have length := Nat.le_antisymm (Nat.not_lt.mp last) date.daily.2
    split
    · rename_i within
      rw [← length]
      exact dayNumber_month ⟨date.monthly.1, within⟩
    · rename_i ends
      have december : date.month = 12 := by
        have monthly := date.monthly
        omega
      rw [december] at length ⊢
      rw [← length]
      norm_num [dayNumber, marchDay, marchMonth, monthLength]
      omega

end Date

/-! ## The date of a day -/

theorem marchMonth_of_marchDay {year month day : Nat} (monthly : 1 ≤ month ∧ month ≤ 12)
    (daily : 1 ≤ day ∧ day ≤ monthLength year month) :
    (5 * marchDay month day + 2) / 153 = marchMonth month := by
  have months : month = 1 ∨ month = 2 ∨ month = 3 ∨ month = 4 ∨ month = 5 ∨ month = 6 ∨ month = 7 ∨
      month = 8 ∨ month = 9 ∨ month = 10 ∨ month = 11 ∨ month = 12 := by omega
  have most : monthLength year 2 ≤ 29 := by
    by_cases leap : Leap year <;> simp [monthLength, leap]
  rcases months with rfl | rfl | rfl | rfl | rfl | rfl | rfl | rfl | rfl | rfl | rfl | rfl
  case inr.inl =>
    norm_num [marchDay, marchMonth]
    omega
  all_goals
    norm_num [monthLength] at daily
    norm_num [marchDay, marchMonth]
    omega

/-- A year from March has 365 days, or 366 when a leap day ends it. -/
theorem marchDay_le {year month day : Nat} (monthly : 1 ≤ month ∧ month ≤ 12)
    (daily : 1 ≤ day ∧ day ≤ monthLength year month) :
    marchDay month day ≤ 364 ∨ (marchDay month day = 365 ∧ month = 2 ∧ Leap year) := by
  have number := marchMonth_of_marchDay monthly daily
  by_cases february : month = 2
  · subst february
    by_cases leap : Leap year
    · simp only [monthLength, leap, if_true] at daily
      norm_num [marchDay, marchMonth, leap]
      omega
    · simp only [monthLength, leap, if_true, if_false] at daily
      norm_num [marchDay, marchMonth]
      omega
  · have before : marchMonth month ≤ 10 := by
      unfold marchMonth
      split <;> omega
    omega

/-- Among the days of 400 years, in years from March, each fourth, hundredth and
last day of a leap year is left out to find the year. -/
theorem year_of_day {year day whole : Nat} (small : year < 400)
    (within : day ≤ 364 ∨ (day = 365 ∧ year % 4 = 3 ∧ (year % 100 = 99 → year = 399)))
    (is : whole = 365 * year + year / 4 - year / 100 + day) :
    (whole - whole / 1460 + whole / 36524 - whole / 146096) / 365 = year := by
  have fours : whole / 1460 = year / 4 ∨ whole / 1460 = year / 4 + 1 := by omega
  by_cases last : whole = 146096
  · subst last
    omega
  · have centuries : whole / 36524 = year / 100 := by
      have lower : 36524 * (year / 100) ≤ whole := by omega
      have upper : whole < 36524 * (year / 100 + 1) := by omega
      omega
    have era : whole / 146096 = 0 := by omega
    rw [centuries, era]
    rcases fours with less | more
    · rw [less]
      omega
    · rw [more]
      omega

end Library.Calendar
