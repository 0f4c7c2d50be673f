import SearchBar.Proofs.Calendar.Tiling

/-! # Shifting by periods

The start of a period is shifted to the start of another one, so shifts of starts add up and a
shift by one goes to the next period. A shift by months moves an instant within the date only:
to its day of another month, or to the last day if that month is too short.
-/

namespace SearchBar.Calendar

namespace Granularity

variable {g : Granularity} {t : Instant} {m n : Int}

/-- The first day of the period that is `n` periods ahead of the one that holds a day. -/
def startDayAhead : Granularity → Int → Int → Int
  | day, n, k => k + n
  | week, n, k => week.startDay k + 7 * n
  | month, n, k => (firstOfMonth ((Date.ofDay k).monthIndex + n)).toDay
  | year, n, k => yearStart (yearOf k + n)

/-- The calendar is kept where the period begins that is `n` periods ahead. -/
def IsKeptAhead (g : Granularity) (n : Int) (t : Instant) : Prop :=
  yearKept (yearOf (g.startDayAhead n t.day)) = true

instance (g : Granularity) (n : Int) (t : Instant) : Decidable (g.IsKeptAhead n t) :=
  inferInstanceAs (Decidable (_ = true))

section Starts

theorem startDayAhead_one (g : Granularity) (k : Int) : g.startDayAhead 1 k = g.endDay k := by
  cases g <;> rfl

theorem startDay_startDayAhead (g : Granularity) (n k : Int) :
    g.startDay (g.startDayAhead n k) = g.startDayAhead n k := by
  cases g with
  | day => rfl
  | week =>
    simp only [startDayAhead, startDay, weekday]
    omega
  | month => exact startDay_month_firstOfMonth _
  | year => exact startDay_yearStart _

theorem yearOf_yearStart (y : Int) : yearOf (yearStart y) = y :=
  yearOf_unique (Int.le_refl _) (yearStart_lt (Int.lt_succ y))

theorem startDayAhead_startDayAhead (g : Granularity) (m n k : Int) :
    g.startDayAhead n (g.startDayAhead m k) = g.startDayAhead (m + n) k := by
  cases g with
  | day => exact Int.add_assoc k m n
  | week =>
    simp only [startDayAhead, startDay, weekday]
    omega
  | month => simp only [startDayAhead, ofDay_firstOfMonth, monthIndex_firstOfMonth, Int.add_assoc]
  | year => simp only [startDayAhead, yearOf_yearStart, Int.add_assoc]

theorem shift_start (h : g.IsKeptAhead n t) :
    g.shift (g.start t) n = .midnight (g.startDayAhead n t.day) := by
  unfold IsKeptAhead at h
  cases g with
  | day | week => exact Instant.addDays_midnight _ _
  | month =>
    rw [startDayAhead, yearOf_firstOfMonth] at h
    rw [shift, start_month_eq, shiftMonths_firstOfMonth, if_pos h, startDayAhead]
  | year =>
    have hindex : 12 * yearOf t.day + 12 * n = 12 * (yearOf t.day + n) := by omega
    rw [startDayAhead, yearOf_yearStart] at h
    rw [shift, start_year_eq, shiftMonths_firstOfMonth, hindex,
      Int.mul_ediv_cancel_left _ (by decide), if_pos h, toDay_firstOfMonth_twelve, startDayAhead]

theorem start_shift_start (h : g.IsKeptAhead n t) :
    g.start (g.shift (g.start t) n) = g.shift (g.start t) n := by
  rw [shift_start h]
  exact congrArg Instant.midnight (startDay_startDayAhead g n t.day)

theorem shift_shift_start (hm : g.IsKeptAhead m t) (hmn : g.IsKeptAhead (m + n) t) :
    g.shift (g.shift (g.start t) m) n = g.shift (g.start t) (m + n) := by
  have hn : g.IsKeptAhead n (.midnight (g.startDayAhead m t.day)) := by
    rw [IsKeptAhead, day_midnight, startDayAhead_startDayAhead]
    exact hmn
  rw [← start_shift_start hm, shift_start hm, shift_start hn, day_midnight,
    startDayAhead_startDayAhead, shift_start hmn]

end Starts

section Months

theorem ofDay_shiftMonths (h : month.IsKeptAhead n t) :
    Date.ofDay (shiftMonths t n).day =
      let first := firstOfMonth ((Date.ofDay t.day).monthIndex + n)
      { first with day := min (Date.ofDay t.day).day (monthLength first.year first.month) } := by
  obtain ⟨-, -, hday, -⟩ := Date.exists_ofDay t.day
  have hfirst := exists_firstOfMonth ((Date.ofDay t.day).monthIndex + n)
  have hlength := le_monthLength (firstOfMonth ((Date.ofDay t.day).monthIndex + n)).year
    (firstOfMonth ((Date.ofDay t.day).monthIndex + n)).month
  rw [IsKeptAhead, startDayAhead, yearOf_firstOfMonth] at h
  have hshift : shiftMonths t n = { t with day := Date.toDay _ } := if_pos h
  rw [hshift, Date.ofDay_toDay]
  · rfl
  · exact ⟨hfirst.1, hfirst.2.1, Nat.le_min.2 ⟨hday, Nat.le_trans (by decide) hlength⟩,
      Nat.min_le_right _ _⟩

theorem monthIndex_shiftMonths (h : month.IsKeptAhead n t) :
    (Date.ofDay (shiftMonths t n).day).monthIndex = (Date.ofDay t.day).monthIndex + n := by
  rw [ofDay_shiftMonths h]
  exact monthIndex_firstOfMonth _

theorem time_shiftMonths (t : Instant) (n : Int) :
    (shiftMonths t n).second = t.second ∧ (shiftMonths t n).nano = t.nano := by
  simp only [shiftMonths]
  split <;> exact ⟨rfl, rfl⟩

end Months

end Granularity

open Granularity in
/-- Shifts agree with steps from period to period, forwards and back. A shift by one from the
start of a period goes to the first day behind it. Starts are shifted to starts, and shifts of
starts add up. Years are shifted like twelve months. A shift by months keeps the time of day,
counts as many months, and keeps the day unless the month is too short. -/
theorem shift_agrees_with_steps (g : Granularity) {t : Instant} {m n : Int}
    (hone : g.IsKeptAhead 1 t) (hm : g.IsKeptAhead m t) (hn : g.IsKeptAhead n t)
    (hmn : g.IsKeptAhead (m + n) t) (hmonth : month.IsKeptAhead n t) :
    (g.next t = g.shift (g.start t) 1 ∧ g.next t = .midnight (g.endDay t.day)) ∧
    g.start (g.shift (g.start t) n) = g.shift (g.start t) n ∧
    g.shift (g.shift (g.start t) m) n = g.shift (g.start t) (m + n) ∧
    year.shift t n = month.shift t (12 * n) ∧
    ((month.shift t n).second = t.second ∧ (month.shift t n).nano = t.nano) ∧
    let d := Date.ofDay t.day
    let e := Date.ofDay (month.shift t n).day
    e.year * 12 + e.month = d.year * 12 + d.month + n ∧
      e.day = min d.day (monthLength e.year e.month) := by
  have hnext : g.shift (g.start t) 1 = .midnight (g.endDay t.day) := by
    rw [shift_start hone, startDayAhead_one]
  refine ⟨⟨next_eq_shift g t, (next_eq_shift g t).trans hnext⟩, start_shift_start hn,
    shift_shift_start hm hmn, rfl, time_shiftMonths t n, ?_⟩
  intro d e
  have he : e = _ := ofDay_shiftMonths hmonth
  have hindex : e.monthIndex = d.monthIndex + n := monthIndex_shiftMonths hmonth
  simp only [Date.monthIndex] at hindex
  exact ⟨by omega, by rw [he]⟩

/-- From the last second of a leap day, which a leap second may follow, across the year zero
and back to a shorter February. -/
theorem shift_agrees_with_steps_leap_day :
    let t : Instant := ⟨Date.toDay ⟨2000, 2, 29⟩, ⟨86399, by decide⟩, ⟨1500000000, by decide⟩⟩
    (Granularity.year.IsKeptAhead 1 t ∧ Granularity.year.IsKeptAhead (-2001) t ∧
      Granularity.year.IsKeptAhead 12 t ∧ Granularity.year.IsKeptAhead (-2001 + 12) t ∧
      Granularity.month.IsKeptAhead 12 t) ∧
    Granularity.year.shift (Granularity.year.shift (Granularity.year.start t) (-2001)) 12 =
      Granularity.year.shift (Granularity.year.start t) (-2001 + 12) ∧
    (Date.ofDay (Granularity.month.shift t 12).day).day = 28 := by
  intro t
  have hone : Granularity.year.IsKeptAhead 1 t := by decide
  have hm : Granularity.year.IsKeptAhead (-2001) t := by decide
  have hn : Granularity.year.IsKeptAhead 12 t := by decide
  have hmn : Granularity.year.IsKeptAhead (-2001 + 12) t := by decide
  have hmonth : Granularity.month.IsKeptAhead 12 t := by decide
  obtain ⟨-, -, hadd, -, -, -, hday⟩ := shift_agrees_with_steps .year hone hm hn hmn hmonth
  exact ⟨⟨hone, hm, hn, hmn, hmonth⟩, hadd, hday.trans (by decide)⟩

end SearchBar.Calendar
