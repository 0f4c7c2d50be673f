import SearchBar.Calendar.Limits
import SearchBar.Proofs.Calendar.Shifting
import SearchBar.Proofs.Calls

/-! # Within the limits

What is read, written or counted within the limits is what the calendar without end gives.
No limit is met around an instant if the years beside its year are kept, and none for weeks
if the weeks beside its week are.
-/

namespace SearchBar.Calendar

open Text

variable {now t a b : Instant} {text : List Char} {d : DateValue} {g : Granularity}
  {format : String}

section Attempts

variable {α : Type} {check : α → Attempt Unit} {found : α → Bool} {as : List α}

theorem check_bind_eq_ok_iff {c : Attempt Unit} {f : Unit → Attempt α} {r : α} :
    c >>= f = .ok r ↔ c = .ok () ∧ f () = .ok r := by
  rw [bind_eq_ok_iff]
  exact ⟨fun ⟨(), h⟩ => h, fun h => ⟨(), h⟩⟩

theorem checkUntil_cons {x : α} : checkUntil check found (x :: as) = .ok () ↔
    check x = .ok () ∧ (found x = true ∨ checkUntil check found as = .ok ()) := by
  rw [checkUntil, check_bind_eq_ok_iff]
  cases found x <;> simp

theorem checkUntil_of_forall (h : ∀ x ∈ as, check x = .ok ()) : checkUntil check found as = .ok () := by
  induction as with
  | nil => rfl
  | cons x as ih =>
    obtain ⟨hx, has⟩ := List.forall_mem_cons.1 h
    exact checkUntil_cons.2 ⟨hx, .inr (ih has)⟩

theorem check_of_checkUntil {before behind : List α}
    (h : checkUntil check found (before ++ behind) = .ok ()) (hfound : ∀ x ∈ before, found x = false) :
    ∀ x ∈ before, check x = .ok () := by
  induction before with
  | nil => simp
  | cons x before ih =>
    rw [List.forall_mem_cons] at hfound ⊢
    obtain ⟨hx, hbefore⟩ := checkUntil_cons.1 h
    exact ⟨hx, ih (hbefore.resolve_left (by simp [hfound.1])) hfound.2⟩

theorem checkAll_iff : checkAll check as = .ok () ↔ ∀ x ∈ as, check x = .ok () := by
  induction as with
  | nil => exact iff_of_true rfl (by simp)
  | cons x as ih =>
    rw [checkAll, checkUntil_cons, List.forall_mem_cons, ← ih, checkAll]
    simp

theorem Instant.check_iff : t.check = .ok () ↔ t.IsKept := by
  unfold check
  split <;> simp_all

theorem DateValue.parse_eq_ok_iff {r : Option DateValue} :
    parse now text = .ok r ↔ checkRead now text = .ok () ∧ read? now text = r := by
  rw [parse, check_bind_eq_ok_iff]
  exact and_congr_right' (iff_of_eq (Except.ok.injEq _ _))

theorem DateValue.print_eq_ok_iff {default : Option Granularity} {written : List Char} :
    d.print now default = .ok written ↔
      d.checkWrite now default = .ok () ∧ d.write now default = written := by
  rw [print, check_bind_eq_ok_iff]
  exact and_congr_right' (iff_of_eq (Except.ok.injEq _ _))

theorem DateValue.range_eq_ok_iff {r : Instant × Instant} :
    d.range = .ok r ↔ d.opening.IsKept ∧ d.closing.IsKept ∧ (d.opening, d.closing) = r := by
  simp only [range, Granularity.startOf, Granularity.startOfNext, bind_assoc, pure_bind,
    check_bind_eq_ok_iff, Instant.check_iff]
  exact ⟨fun ⟨hopening, _, hclosing, h⟩ => ⟨hopening, hclosing, Except.ok.inj h⟩,
    fun ⟨hopening, hclosing, h⟩ => ⟨hopening, hopening, hclosing, congrArg Except.ok h⟩⟩

end Attempts

section Kept

theorem yearStart_le {y z : Int} (h : y ≤ z) : yearStart y ≤ yearStart z := by
  unfold yearStart
  omega

theorem yearOf_mono {m n : Int} (h : m ≤ n) : yearOf m ≤ yearOf n := by
  apply Int.not_lt.1
  intro hlt
  have hm := yearStart_yearOf_le m
  have hn := lt_yearStart_yearOf n
  have hyears := yearStart_le (show yearOf n + 1 ≤ yearOf m from hlt)
  omega

theorem isKept_iff : t.IsKept ↔ yearStart (-262143) ≤ t.day ∧ t.day < yearStart 262143 := by
  have hstart := yearStart_yearOf_le t.day
  have hend := lt_yearStart_yearOf t.day
  simp only [Instant.IsKept, yearKept, Bool.and_eq_true, decide_eq_true_eq]
  constructor
  · rintro ⟨hlow, hhigh⟩
    have hfirst := yearStart_le hlow
    have hlast := yearStart_le (show yearOf t.day + 1 ≤ 262143 by omega)
    omega
  · rintro ⟨hlow, hhigh⟩
    have hlow' := yearOf_mono hlow
    have hhigh' := yearOf_mono (show t.day ≤ yearStart 262143 - 1 by omega)
    have hfirst : yearOf (yearStart (-262143)) = -262143 := by decide
    have hlast : yearOf (yearStart 262143 - 1) = 262142 := by decide
    omega

theorem isKept_of_between (ha : a.IsKept) (hb : b.IsKept) (hat : a.day ≤ t.day)
    (htb : t.day ≤ b.day) : t.IsKept := by
  rw [isKept_iff] at *
  omega

/-- Months and years begin where the calendar is kept. -/
theorem isKept_start (hg : g ≠ .week) (h : t.IsKept) : (g.start t).IsKept := by
  have hle := Granularity.startDay_le g t.day
  have hmono := Granularity.startDay_mono g (isKept_iff.1 h).1
  have hfirst : g.startDay (yearStart (-262143)) = yearStart (-262143) := by
    cases g with
    | day => rfl
    | week => exact absurd rfl hg
    | month => decide
    | year => decide
  rw [isKept_iff] at h ⊢
  rw [Granularity.start, day_midnight]
  omega

theorem isKept_shiftMonths {n : Int} (h : t.IsKept) : (Granularity.shiftMonths t n).IsKept := by
  unfold Granularity.shiftMonths
  dsimp only
  split
  · rename_i hkept
    rw [Instant.IsKept, Date.yearOf_toDay]
    · exact hkept
    · have hlength := le_monthLength (((Date.ofDay t.day).year * 12 + (Date.ofDay t.day).month - 1 + n) / 12)
        ((((Date.ofDay t.day).year * 12 + (Date.ofDay t.day).month - 1 + n) % 12).toNat + 1)
      have hday := (Date.exists_ofDay t.day).2.2.1
      refine ⟨?_, ?_, ?_, ?_⟩ <;> dsimp only <;> omega
  · exact h

end Kept

/-- The present week is kept as a whole. -/
def Instant.WeekKept (now : Instant) : Prop :=
  (midnight (Granularity.week.startDay now.day)).IsKept ∧
    (midnight (Granularity.week.startDay now.day + 6)).IsKept

instance (now : Instant) : Decidable now.WeekKept := inferInstanceAs (Decidable (_ ∧ _))

/-- The calendar is kept from the week before the present one up to the one behind it. -/
def Instant.WeeksKept (now : Instant) : Prop :=
  (midnight (Granularity.week.startDay now.day - 7)).IsKept ∧
    (midnight (Granularity.week.startDay now.day + 13)).IsKept

instance (now : Instant) : Decidable now.WeeksKept := inferInstanceAs (Decidable (_ ∧ _))

/-- The years before and behind the present one are kept. -/
def Instant.YearsKept (now : Instant) : Prop :=
  yearKept (yearOf now.day - 1) = true ∧ yearKept (yearOf now.day + 1) = true

instance (now : Instant) : Decidable now.YearsKept := inferInstanceAs (Decidable (_ ∧ _))

section Surroundings

theorem week_bounds (n : Int) :
    Granularity.week.startDay n ≤ n ∧ n ≤ Granularity.week.startDay n + 6 := by
  simp only [Granularity.startDay, weekday]
  omega

/-- The years that are kept begin with the end of a week and end with the beginning of one. -/
theorem Instant.WeekKept.isKept (h : now.WeekKept)
    (hlow : Granularity.week.startDay now.day - 3 ≤ t.day)
    (hhigh : t.day ≤ Granularity.week.startDay now.day + 8) : t.IsKept := by
  have hfirst : weekday (yearStart (-262143)) = 4 := by decide
  have hlast : weekday (yearStart 262143) = 2 := by decide
  unfold WeekKept at h
  simp only [isKept_iff, day_midnight, Granularity.startDay, weekday] at *
  omega

theorem Instant.WeekKept.now_isKept (h : now.WeekKept) : now.IsKept := by
  have hweek := week_bounds now.day
  exact h.isKept (by omega) (by omega)

theorem Instant.WeeksKept.isKept (h : now.WeeksKept)
    (hlow : Granularity.week.startDay now.day - 7 ≤ t.day)
    (hhigh : t.day ≤ Granularity.week.startDay now.day + 13) : t.IsKept :=
  isKept_of_between h.1 h.2 hlow hhigh

theorem Instant.WeeksKept.weekKept (h : now.WeeksKept) : now.WeekKept :=
  ⟨h.isKept (by rw [day_midnight]; omega) (by rw [day_midnight]; omega),
    h.isKept (by rw [day_midnight]; omega) (by rw [day_midnight]; omega)⟩

theorem Instant.YearsKept.isKept (h : now.YearsKept) (hlow : yearStart (yearOf now.day) - 365 ≤ t.day)
    (hhigh : t.day < yearStart (yearOf now.day + 1) + 365) : t.IsKept := by
  simp only [YearsKept, yearKept, Bool.and_eq_true, decide_eq_true_eq] at h
  have hbefore := yearStart_succ (yearOf now.day - 1)
  have hbehind := yearStart_succ (yearOf now.day + 1)
  have hfirst := yearStart_le h.1.1
  have hlast := yearStart_le (show yearOf now.day + 1 + 1 ≤ 262143 by omega)
  rw [Int.sub_add_cancel] at hbefore
  rw [isKept_iff]
  split at hbefore <;> split at hbehind <;> omega

/-- A step may fall short by a leap second, but never goes too far. -/
theorem day_addDays_bounds (t : Instant) (n : Int) :
    t.day + min n 0 ≤ (t.addDays n).day ∧ (t.addDays n).day ≤ t.day + max n 0 := by
  by_cases hn : 0 ≤ n
  · rw [addDays_day_of_nonneg hn]
    omega
  · rw [addDays_day_of_neg (by omega)]
    split <;> omega

theorem year_bounds (n : Int) : yearStart (yearOf n) ≤ n ∧ n < yearStart (yearOf n + 1) ∧
    yearStart (yearOf n) + 365 ≤ yearStart (yearOf n + 1) ∧
    yearStart (yearOf n + 1) ≤ yearStart (yearOf n) + 366 := by
  have hlength := yearStart_succ (yearOf n)
  refine ⟨yearStart_yearOf_le n, lt_yearStart_yearOf n, ?_, ?_⟩ <;> split at hlength <;> omega

theorem month_bounds (n : Int) : n ≤ Granularity.month.startDay n + 30 ∧
    Granularity.month.endDay n ≤ Granularity.month.startDay n + 31 := by
  have hlt := Granularity.lt_endDay .month n
  have hlength := monthLength_le ((Date.ofDay n).monthIndex / 12)
    (((Date.ofDay n).monthIndex % 12).toNat + 1)
  simp only [Granularity.startDay_month, Granularity.endDay, toDay_firstOfMonth_succ] at hlt ⊢
  omega

theorem Instant.YearsKept.weeksKept (h : now.YearsKept) : now.WeeksKept := by
  have hyear := year_bounds now.day
  have hweek := week_bounds now.day
  constructor <;> apply h.isKept <;> rw [day_midnight] <;> omega

end Surroundings

section Reading

theorem checkReadDay_of_weekKept (h : now.WeekKept) (text : List Char) :
    checkReadDay now text = .ok () := by
  have hweek := week_bounds now.day
  unfold checkReadDay
  split
  · rename_i w hw
    have hmem := List.mem_of_find?_eq_some hw
    have hday := day_addDays_bounds now w.2
    have hstep : -1 ≤ w.2 ∧ w.2 ≤ 1 := by
      simp only [dayWords, List.mem_cons, List.not_mem_nil, or_false] at hmem
      rcases hmem with rfl | rfl | rfl <;> decide
    exact Instant.check_iff.2 (h.isKept (by omega) (by omega))
  · dsimp only
    rw [check_bind_eq_ok_iff, Instant.check_iff]
    refine ⟨h.isKept ?_ ?_, checkUntil_of_forall fun c hc => ?_⟩
    · rw [Granularity.start, day_midnight]
      omega
    · rw [Granularity.start, day_midnight]
      omega
    · obtain ⟨p, -, hc⟩ := List.mem_flatMap.1 hc
      obtain ⟨n, hn, rfl⟩ := List.mem_map.1 hc
      have hlt := List.mem_range.1 hn
      rw [Instant.check_iff, Granularity.start, Instant.addDays_midnight]
      exact h.isKept (by rw [day_midnight]; omega) (by rw [day_midnight]; omega)

theorem checkReadMonth_of_yearsKept (h : now.YearsKept) (text : List Char) :
    checkReadMonth now text = .ok () := by
  have hyear := year_bounds now.day
  have hmonth := month_bounds now.day
  have hle := Granularity.startDay_le .month now.day
  unfold checkReadMonth
  split
  · rw [Instant.check_iff, Granularity.start, Instant.addDays_midnight]
    exact h.isKept (by rw [day_midnight]; omega) (by rw [day_midnight]; omega)
  · rfl

theorem shift_week_bounds (now : Instant) {w : String × Int} (hw : w ∈ weekWords) :
    now.day - 7 ≤ (Granularity.week.shift now w.2).day ∧
      (Granularity.week.shift now w.2).day ≤ now.day + 7 := by
  have hday := day_addDays_bounds now (7 * w.2)
  have hstep : -1 ≤ w.2 ∧ w.2 ≤ 1 := by
    simp only [weekWords, List.mem_cons, List.not_mem_nil, or_false] at hw
    rcases hw with rfl | rfl | rfl <;> decide
  rw [Granularity.shift]
  omega

theorem checkShift_week {w : String × Int} (hw : w ∈ weekWords) (h : now.WeeksKept) :
    (Granularity.week.shift now w.2).IsKept ∧
      (Granularity.week.start (Granularity.week.shift now w.2)).IsKept := by
  have hshift := shift_week_bounds now hw
  have hnow := week_bounds now.day
  have hthere := week_bounds (Granularity.week.shift now w.2).day
  have hlow := Granularity.startDay_mono .week hshift.1
  have hweek : Granularity.week.startDay (now.day - 7) = Granularity.week.startDay now.day - 7 := by
    simp only [Granularity.startDay, weekday]
    omega
  constructor
  · exact h.isKept (by omega) (by omega)
  · rw [Granularity.start]
    exact h.isKept (by rw [day_midnight]; omega) (by rw [day_midnight]; omega)

theorem checkReadWeek_of_weeksKept (h : now.WeeksKept)
    (hnumber : checkReadWeekNumber now text = .ok ()) : checkReadWeek now text = .ok () := by
  unfold checkReadWeek
  split
  · rename_i w hw
    obtain ⟨hshift, hstart⟩ := checkShift_week (List.mem_of_find?_eq_some hw) h
    dsimp only
    rw [check_bind_eq_ok_iff, Instant.check_iff, Instant.check_iff]
    exact ⟨hshift, hstart⟩
  · exact hnumber

theorem checkWeekNumber_iff : checkWeekNumber t = .ok () ↔ (Granularity.week.start t).IsKept ∧
    (Instant.midnight (Granularity.week.startDay t.day + 6)).IsKept ∧
    (Instant.midnight (Granularity.week.startDay
      (yearStart (yearOf (Granularity.week.startDay t.day + 6))))).IsKept := by
  unfold checkWeekNumber
  dsimp only
  rw [check_bind_eq_ok_iff, check_bind_eq_ok_iff, Instant.check_iff, Instant.check_iff,
    Instant.check_iff, Granularity.start, Instant.addDays_midnight]
  rfl

theorem checkReadWeekNumber_of_yearsKept (h : now.YearsKept) (text : List Char) :
    checkReadWeekNumber now text = .ok () := by
  have hyear := year_bounds now.day
  have hfirst := week_bounds (yearStart (yearOf now.day))
  unfold checkReadWeekNumber
  split
  · rename_i n _
    split
    · rename_i hn
      have hyearDay : Granularity.year.startDay now.day = yearStart (yearOf now.day) := rfl
      have hday : numberedWeek now n = Granularity.week.startDay (yearStart (yearOf now.day)) +
        7 * (n - 1) := rfl
      have hweek := week_bounds (numberedWeek now n)
      have hstart : Granularity.week.startDay (numberedWeek now n) = numberedWeek now n := by
        rw [hday]
        simp only [Granularity.startDay, weekday]
        omega
      have hown := year_bounds (numberedWeek now n + 6)
      have howner := week_bounds (yearStart (yearOf (numberedWeek now n + 6)))
      have hle := yearStart_le (yearOf_mono (show yearStart (yearOf now.day) ≤ numberedWeek now n + 6
        by omega))
      rw [Granularity.yearOf_yearStart] at hle
      rw [check_bind_eq_ok_iff, check_bind_eq_ok_iff, Instant.check_iff, Instant.check_iff,
        checkWeekNumber_iff, day_midnight, hstart]
      refine ⟨h.isKept ?_ ?_, h.isKept ?_ ?_, h.isKept ?_ ?_, h.isKept ?_ ?_, h.isKept ?_ ?_⟩ <;>
        simp only [Granularity.start, day_midnight, hyearDay, hstart] <;> omega
    · rfl
  · rfl

theorem checkReadTrimmed_iff : checkReadTrimmed now text = .ok () ↔
    checkReadDay now text = .ok () ∧ (readDay? now text = none → checkReadMonth now text = .ok () ∧
      ((readMonth? now text <|> readYear? now text) = none → checkReadWeek now text = .ok ())) := by
  unfold checkReadTrimmed
  rw [check_bind_eq_ok_iff]
  simp only [Option.isNone_iff_eq_none]
  refine and_congr_right' ?_
  split
  · rename_i hday
    rw [check_bind_eq_ok_iff]
    simp only [hday, true_implies]
    refine and_congr_right' ?_
    split <;> simp_all [pure, Except.pure]
  · simp_all [pure, Except.pure]

/-- Nothing that is read steps out of the years beside the present one. -/
theorem checkRead_of_yearsKept (h : now.YearsKept) (text : List Char) :
    DateValue.checkRead now text = .ok () :=
  checkReadTrimmed_iff.2 ⟨checkReadDay_of_weekKept h.weeksKept.weekKept _, fun _ =>
    ⟨checkReadMonth_of_yearsKept h _, fun _ => checkReadWeek_of_weeksKept h.weeksKept
      (checkReadWeekNumber_of_yearsKept h _)⟩⟩

theorem parse_of_yearsKept (h : now.YearsKept) (text : List Char) :
    DateValue.parse now text = .ok (DateValue.read? now text) :=
  DateValue.parse_eq_ok_iff.2 ⟨checkRead_of_yearsKept h text, rfl⟩

end Reading

end SearchBar.Calendar
