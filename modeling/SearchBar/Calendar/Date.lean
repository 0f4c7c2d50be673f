/-! # Civil dates and day numbers

Days are numbered from the first of January of the year zero of the proleptic
Gregorian calendar. `Date.ofDay` and `Date.toDay` are inverse to each other on
the dates that exist.
-/

namespace SearchBar.Calendar

/-- A leap year: every fourth one, of the full centuries only every fourth. -/
def IsLeap (y : Int) : Prop := y % 4 = 0 ∧ (y % 100 ≠ 0 ∨ y % 400 = 0)

instance (y : Int) : Decidable (IsLeap y) := inferInstanceAs (Decidable (_ ∧ _))

def yearStart (y : Int) : Int := 365 * y + (y + 3) / 4 - (y + 99) / 100 + (y + 399) / 400

theorem yearStart_succ (y : Int) :
    yearStart (y + 1) = yearStart y + if IsLeap y then 366 else 365 := by
  unfold yearStart
  by_cases h : IsLeap y
  · rw [if_pos h]
    unfold IsLeap at h
    omega
  · rw [if_neg h]
    unfold IsLeap at h
    omega

def yearOf (day : Int) : Int :=
  let y := day * 400 / 146097
  if day < yearStart y then y - 1
  else if yearStart (y + 1) ≤ day then y + 1
  else y

theorem yearStart_yearOf_le (day : Int) : yearStart (yearOf day) ≤ day := by
  unfold yearOf
  simp only
  split
  · unfold yearStart
    omega
  · split <;> omega

theorem lt_yearStart_yearOf (day : Int) : day < yearStart (yearOf day + 1) := by
  unfold yearOf
  simp only
  split
  · rw [Int.sub_add_cancel]
    assumption
  · split
    · unfold yearStart
      omega
    · omega

theorem yearStart_lt {y z : Int} (h : y < z) : yearStart y < yearStart z := by
  unfold yearStart
  omega

theorem yearOf_unique {day y : Int} (h : yearStart y ≤ day) (h' : day < yearStart (y + 1)) :
    yearOf day = y := by
  have a := yearStart_yearOf_le day
  have b := lt_yearStart_yearOf day
  rcases Int.lt_trichotomy (yearOf day) y with c | c | c
  · rcases Int.lt_or_eq_of_le (show yearOf day + 1 ≤ y by omega) with d | d
    · have := yearStart_lt d
      omega
    · rw [d] at b
      omega
  · exact c
  · rcases Int.lt_or_eq_of_le (show y + 1 ≤ yearOf day by omega) with d | d
    · have := yearStart_lt d
      omega
    · rw [← d] at a
      omega

/-- Days that the months after February come early against months of thirty and
thirty-one days in turn. -/
def februaryGap (y : Int) : Int := if IsLeap y then 1 else 2

def daysBefore (y : Int) (month : Nat) : Int :=
  (367 * (month : Int) - 362) / 12 - if month ≤ 2 then 0 else februaryGap y

def monthLength (y : Int) (month : Nat) : Nat :=
  if month = 2 then (if IsLeap y then 29 else 28)
  else if month = 4 ∨ month = 6 ∨ month = 9 ∨ month = 11 then 30 else 31

/-- The month that holds a day of the year, counted from zero. -/
def monthOf (y : Int) (dayOfYear : Int) : Nat :=
  let corrected := dayOfYear + if dayOfYear < daysBefore y 3 then 0 else februaryGap y
  ((12 * corrected + 373) / 367).toNat

/-- A year, a month from one and a day of the month from one. -/
structure Date where
  year : Int
  month : Nat
  day : Nat
deriving DecidableEq, Repr

namespace Date

def Exists (d : Date) : Prop :=
  1 ≤ d.month ∧ d.month ≤ 12 ∧ 1 ≤ d.day ∧ d.day ≤ monthLength d.year d.month

instance (d : Date) : Decidable d.Exists := inferInstanceAs (Decidable (_ ∧ _ ∧ _ ∧ _))

def toDay (d : Date) : Int := yearStart d.year + daysBefore d.year d.month + d.day - 1

def ofDay (day : Int) : Date :=
  let y := yearOf day
  let dayOfYear := day - yearStart y
  let m := monthOf y dayOfYear
  ⟨y, m, (dayOfYear - daysBefore y m + 1).toNat⟩

theorem exists_ofDay (day : Int) : (ofDay day).Exists := by
  have a := yearStart_yearOf_le day
  have b := lt_yearStart_yearOf day
  rw [yearStart_succ] at b
  unfold ofDay Exists monthLength monthOf daysBefore februaryGap
  simp only
  generalize yearOf day = y at *
  by_cases h : IsLeap y
  all_goals
    simp only [h, if_true, if_false] at *
    split <;> grind

theorem toDay_ofDay (day : Int) : (ofDay day).toDay = day := by
  have a := yearStart_yearOf_le day
  have b := lt_yearStart_yearOf day
  rw [yearStart_succ] at b
  unfold ofDay toDay monthOf daysBefore februaryGap
  simp only
  generalize yearOf day = y at *
  by_cases h : IsLeap y
  all_goals
    simp only [h, if_true, if_false] at *
    split <;> grind

theorem yearOf_toDay {d : Date} (h : d.Exists) : yearOf d.toDay = d.year := by
  obtain ⟨h1, h2, h3, h4⟩ := h
  apply yearOf_unique
  · unfold toDay daysBefore februaryGap
    split <;> grind
  · rw [yearStart_succ]
    unfold toDay daysBefore februaryGap monthLength at *
    by_cases hl : IsLeap d.year
    all_goals
      simp only [hl, if_true, if_false] at *
      split <;> grind

theorem ofDay_toDay {d : Date} (h : d.Exists) : ofDay d.toDay = d := by
  have hy := yearOf_toDay h
  obtain ⟨h1, h2, h3, h4⟩ := h
  obtain ⟨y, m, n⟩ := d
  have hm : monthOf y (toDay ⟨y, m, n⟩ - yearStart y) = m := by
    unfold monthOf toDay daysBefore februaryGap monthLength at *
    by_cases hl : IsLeap y
    all_goals
      simp only [hl, if_true, if_false] at *
      grind
  unfold ofDay
  simp only [hy, hm, mk.injEq, true_and]
  unfold toDay
  simp only
  omega

end Date

/-- Days of the week are counted from Sunday. -/
def weekday (day : Int) : Nat := ((day + 6) % 7).toNat

end SearchBar.Calendar
