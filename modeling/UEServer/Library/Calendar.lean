import Mathlib.Order.Monotone.Basic

/-!
# The calendar

The dates of the Gregorian calendar, for the days counted from the first of January 1970.
-/

namespace UEServer.Calendar

def isLeap (year : ℤ) : Bool := year % 4 = 0 ∧ (year % 100 ≠ 0 ∨ year % 400 = 0)

def daysInMonth (year : ℤ) (month : ℕ) : ℕ :=
  if month = 2 then if isLeap year then 29 else 28
  else if month = 4 ∨ month = 6 ∨ month = 9 ∨ month = 11 then 30
  else 31

/-- A day of a month, where months and days are counted from one. -/
structure Date where
  year : ℤ
  month : ℕ
  day : ℕ
  deriving DecidableEq

namespace Date

def Valid (date : Date) : Prop :=
  1 ≤ date.month ∧ date.month ≤ 12 ∧ 1 ≤ date.day ∧ date.day ≤ daysInMonth date.year date.month

def SameMonth (date other : Date) : Prop := date.year = other.year ∧ date.month = other.month

instance (date other : Date) : Decidable (date.SameMonth other) := inferInstanceAs (Decidable (_ ∧ _))

def next (date : Date) : Date :=
  if date.day < daysInMonth date.year date.month then ⟨date.year, date.month, date.day + 1⟩
  else if date.month < 12 then ⟨date.year, date.month + 1, 1⟩
  else ⟨date.year + 1, 1, 1⟩

def previous (date : Date) : Date :=
  if 1 < date.day then ⟨date.year, date.month, date.day - 1⟩
  else if 1 < date.month then ⟨date.year, date.month - 1, daysInMonth date.year (date.month - 1)⟩
  else ⟨date.year - 1, 12, 31⟩

end Date

theorem daysInMonth_pos (year : ℤ) (month : ℕ) : 1 ≤ daysInMonth year month := by
  unfold daysInMonth
  split_ifs <;> omega

variable {date : Date}

theorem Date.Valid.previous (valid : date.Valid) : date.previous.Valid := by
  obtain ⟨month_pos, month_le, day_pos, day_le⟩ := valid
  unfold Date.previous Date.Valid
  split
  · exact ⟨month_pos, month_le, by simp only; omega, by simp only; omega⟩
  · split
    · exact ⟨by simp only; omega, by simp only; omega, daysInMonth_pos _ _, Nat.le_refl _⟩
    · exact ⟨by simp, by simp, by simp, by simp [daysInMonth]⟩

theorem Date.Valid.next (valid : date.Valid) : date.next.Valid := by
  obtain ⟨month_pos, month_le, day_pos, day_le⟩ := valid
  unfold Date.next Date.Valid
  split
  · exact ⟨month_pos, month_le, by simp, by simp only; omega⟩
  · split
    · exact ⟨by simp, by simp only; omega, Nat.le_refl _, daysInMonth_pos _ _⟩
    · exact ⟨by simp, by simp, by simp, daysInMonth_pos _ _⟩

theorem Date.Valid.next_previous (valid : date.Valid) : date.previous.next = date := by
  obtain ⟨month_pos, month_le, day_pos, day_le⟩ := valid
  obtain ⟨year, month, day⟩ := date
  simp only at month_pos month_le day_pos day_le
  unfold Date.previous
  by_cases later : 1 < day
  · have before : day - 1 < daysInMonth year month := by omega
    have added : day - 1 + 1 = day := by omega
    simp [later, Date.next, before, added]
  · obtain rfl : day = 1 := by omega
    by_cases january : 1 < month
    · have before : month - 1 < 12 := by omega
      have added : month - 1 + 1 = month := by omega
      simp [january, Date.next, before, added]
    · obtain rfl : month = 1 := by omega
      simp [Date.next, daysInMonth]

theorem Date.next_cases (date : Date) :
    (date.next.SameMonth date ∧ date.next.day = date.day + 1) ∨
      (¬ date.next.SameMonth date ∧ date.next.day = 1) := by
  unfold Date.next Date.SameMonth
  split
  · exact .inl ⟨⟨rfl, rfl⟩, rfl⟩
  · split
    · exact .inr ⟨fun same => absurd same.2 (by simp), rfl⟩
    · exact .inr ⟨fun same => absurd same.1 (by simp only; omega), rfl⟩

/-- The number of a month, which says to which year it belongs. -/
def Date.monthIndex (date : Date) : ℤ := date.year * 12 + date.month

theorem sameMonth_iff {other : Date} (valid : date.Valid) (other_valid : other.Valid) :
    date.SameMonth other ↔ date.monthIndex = other.monthIndex := by
  obtain ⟨month_pos, month_le, -, -⟩ := valid
  obtain ⟨other_pos, other_le, -, -⟩ := other_valid
  unfold Date.SameMonth Date.monthIndex
  omega

theorem Date.Valid.day_le (valid : date.Valid) : date.day ≤ 31 := by
  refine valid.2.2.2.trans ?_
  unfold daysInMonth
  split_ifs <;> omega

def epoch : Date := ⟨1970, 1, 1⟩

def dateOf : ℤ → Date
  | .ofNat days => Date.next^[days] epoch
  | .negSucc days => Date.previous^[days + 1] epoch

theorem valid_before (days : ℕ) : (Date.previous^[days] epoch).Valid := by
  induction days with
  | zero => exact ⟨by decide, by decide, by decide, by decide⟩
  | succ days ih =>
    rw [Function.iterate_succ_apply']
    exact ih.previous

theorem valid_dateOf (day : ℤ) : (dateOf day).Valid := by
  obtain days | days := day
  · induction days with
    | zero => exact valid_before 0
    | succ days ih =>
      have next : dateOf (.ofNat (days + 1)) = (dateOf (.ofNat days)).next :=
        Function.iterate_succ_apply' Date.next days epoch
      exact next ▸ ih.next
  · exact valid_before (days + 1)

theorem dateOf_succ (day : ℤ) : dateOf (day + 1) = (dateOf day).next := by
  obtain days | days := day
  · exact Function.iterate_succ_apply' Date.next days epoch
  · have before : dateOf (.negSucc days) = (Date.previous^[days] epoch).previous :=
      Function.iterate_succ_apply' Date.previous days epoch
    rw [before, (valid_before days).next_previous]
    cases days with
    | zero => rfl
    | succ days => rfl

theorem dateOf_lt {first second : ℤ} (later : first < second) :
    (dateOf first).monthIndex < (dateOf second).monthIndex ∨
      ((dateOf first).monthIndex = (dateOf second).monthIndex ∧ (dateOf first).day < (dateOf second).day) := by
  have ascending : StrictMono fun day => (dateOf day).monthIndex * 32 + (dateOf day).day := by
    refine strictMono_int_of_lt_succ fun day => ?_
    have bound := (valid_dateOf day).day_le
    rw [dateOf_succ]
    simp only [Date.next, Date.monthIndex]
    split
    · simp only
      omega
    · split
      · simp only
        omega
      · have := (valid_dateOf day).2.1
        simp only
        omega
  have := ascending later
  have := (valid_dateOf second).day_le
  simp only at *
  omega

end UEServer.Calendar
