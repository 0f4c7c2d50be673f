import SearchBar.Calendar.Expression

/-! # Starts of periods

Months are numbered from the January of the year zero, and every period is given by the
day that it starts with. The phrases for the period before and behind the present one are
about the period that holds a day just outside the present one.
-/

namespace SearchBar.Calendar

open Text

section Months

def Date.monthIndex (d : Date) : Int := d.year * 12 + d.month - 1

def firstOfMonth (k : Int) : Date := ⟨k / 12, (k % 12).toNat + 1, 1⟩

theorem le_monthLength (y : Int) (m : Nat) : 28 ≤ monthLength y m := by
  unfold monthLength
  split <;> split <;> omega

theorem monthLength_le (y : Int) (m : Nat) : monthLength y m ≤ 31 := by
  unfold monthLength
  split <;> split <;> omega

theorem exists_firstOfMonth (k : Int) : (firstOfMonth k).Exists := by
  have hlength := le_monthLength (k / 12) ((k % 12).toNat + 1)
  refine ⟨?_, ?_, ?_, ?_⟩ <;> simp only [firstOfMonth] <;> omega

theorem monthIndex_firstOfMonth (k : Int) : (firstOfMonth k).monthIndex = k := by
  simp only [firstOfMonth, Date.monthIndex]
  omega

theorem firstOfMonth_monthIndex {d : Date} (h : d.Exists) :
    firstOfMonth d.monthIndex = { d with day := 1 } := by
  obtain ⟨h1, h2, -, -⟩ := h
  simp only [firstOfMonth, Date.monthIndex, Date.mk.injEq, and_true]
  omega

theorem ofDay_firstOfMonth (k : Int) : Date.ofDay (firstOfMonth k).toDay = firstOfMonth k :=
  Date.ofDay_toDay (exists_firstOfMonth k)

theorem daysBefore_succ (y : Int) {m : Nat} (h1 : 1 ≤ m) (h11 : m ≤ 11) :
    daysBefore y (m + 1) = daysBefore y m + monthLength y m := by
  unfold daysBefore februaryGap monthLength
  by_cases hl : IsLeap y
  all_goals
    simp only [hl, if_true, if_false]
    grind

theorem daysBefore_december (y : Int) : yearStart (y + 1) = yearStart y + daysBefore y 12 + 31 := by
  rw [yearStart_succ]
  unfold daysBefore februaryGap
  by_cases hl : IsLeap y
  · simp [hl]
    omega
  · simp [hl]
    omega

theorem toDay_firstOfMonth_succ (k : Int) : (firstOfMonth (k + 1)).toDay =
    (firstOfMonth k).toDay + monthLength (k / 12) ((k % 12).toNat + 1) := by
  by_cases h : k % 12 = 11
  · have hyear : (k + 1) / 12 = k / 12 + 1 := by omega
    have hmonth : (k + 1) % 12 = 0 := by omega
    have hdecember := daysBefore_december (k / 12)
    simp only [firstOfMonth, Date.toDay, hyear, hmonth, h]
    rw [hdecember]
    simp [daysBefore, monthLength]
  · have hyear : (k + 1) / 12 = k / 12 := by omega
    have hmonth : ((k + 1) % 12).toNat + 1 = (k % 12).toNat + 1 + 1 := by omega
    simp only [firstOfMonth, Date.toDay, hyear, hmonth]
    rw [daysBefore_succ _ (by omega) (by omega)]
    omega

theorem toDay_firstOfMonth_lt (k : Int) : (firstOfMonth k).toDay < (firstOfMonth (k + 1)).toDay := by
  have hlength := le_monthLength (k / 12) ((k % 12).toNat + 1)
  rw [toDay_firstOfMonth_succ]
  omega

theorem toDay_firstOfMonth_twelve (y : Int) : (firstOfMonth (12 * y)).toDay = yearStart y := by
  have hyear : 12 * y / 12 = y := by omega
  have hmonth : 12 * y % 12 = 0 := by omega
  simp [firstOfMonth, Date.toDay, hyear, hmonth, daysBefore]

end Months

namespace Granularity

variable {g : Granularity} {t now : Instant}

theorem startDay_month (day : Int) :
    month.startDay day = (firstOfMonth (Date.ofDay day).monthIndex).toDay := by
  rw [firstOfMonth_monthIndex (Date.exists_ofDay day)]
  rfl

theorem startDay_month_toDay {d : Date} (h : d.Exists) :
    month.startDay d.toDay = (firstOfMonth d.monthIndex).toDay := by
  rw [startDay_month, Date.ofDay_toDay h]

theorem startDay_year_toDay {d : Date} (h : d.Exists) : year.startDay d.toDay = yearStart d.year :=
  congrArg yearStart (Date.yearOf_toDay h)

theorem startDay_le (g : Granularity) (day : Int) : g.startDay day ≤ day := by
  cases g with
  | day => exact Int.le_refl day
  | week =>
    simp only [startDay]
    omega
  | month =>
    have hexists := Date.exists_ofDay day
    have hday := Date.toDay_ofDay day
    obtain ⟨-, -, h3, -⟩ := hexists
    simp only [startDay, Date.toDay] at hday ⊢
    omega
  | year => exact yearStart_yearOf_le day

theorem startDay_startDay (g : Granularity) (day : Int) :
    g.startDay (g.startDay day) = g.startDay day := by
  cases g with
  | day => rfl
  | week =>
    simp only [startDay, weekday]
    omega
  | month =>
    rw [startDay_month day, startDay_month_toDay (exists_firstOfMonth _), monthIndex_firstOfMonth]
  | year =>
    have h : yearOf (yearStart (yearOf day)) = yearOf day :=
      yearOf_unique (Int.le_refl _) (yearStart_lt (by omega))
    exact congrArg yearStart h

theorem start_start (g : Granularity) (t : Instant) : g.start (g.start t) = g.start t :=
  congrArg Instant.midnight (startDay_startDay g t.day)

theorem isSame_iff {a b : Instant} : g.isSame a b = true ↔ g.start a = g.start b := beq_iff_eq

theorem start_eq_iff {a b : Instant} : g.start a = g.start b ↔ g.startDay a.day = g.startDay b.day := by
  simp [start, Instant.midnight]

end Granularity

section Shifts

variable {t now : Instant}

theorem day_midnight (day : Int) : (Instant.midnight day).day = day := rfl

theorem addDays_day_of_nonneg {n : Int} (h : 0 ≤ n) : (t.addDays n).day = t.day + n := by
  unfold Instant.addDays
  split
  · rfl
  · rename_i hn
    simp only [Bool.or_eq_true, beq_iff_eq, not_or] at hn
    rw [if_pos (by omega)]

/-- Inside a leap second that ends its day. -/
def Instant.endsDay (t : Instant) : Bool := t.inLeap && t.second.val == 86399

/-- A step back out of a leap second that ends its day falls one day short. -/
theorem addDays_day_of_neg {n : Int} (h : n < 0) :
    (t.addDays n).day = t.day + n + if t.endsDay then 1 else 0 := by
  unfold Instant.addDays Instant.endsDay
  cases hleap : t.inLeap with
  | false => simp
  | true =>
    have hlt := t.second.isLt
    have hn : (n == 0) = false := beq_false_of_ne (by omega)
    rw [hn, Bool.not_true, Bool.or_false, if_neg Bool.false_ne_true, if_neg (by omega)]
    split
    · rename_i hsecond
      simp [show t.second.val ≠ 86399 by omega]
    · simp [show t.second.val = 86399 by omega]

theorem shiftMonths_firstOfMonth (k n : Int) :
    Granularity.shiftMonths (.midnight (firstOfMonth k).toDay) n =
      .midnight (firstOfMonth (if yearKept ((k + n) / 12) then k + n else k)).toDay := by
  have hday : (Date.ofDay (Instant.midnight (firstOfMonth k).toDay).day) = firstOfMonth k :=
    ofDay_firstOfMonth k
  have hindex : (firstOfMonth k).year * 12 + (firstOfMonth k).month - 1 = k :=
    monthIndex_firstOfMonth k
  have hlength := le_monthLength ((k + n) / 12) (((k + n) % 12).toNat + 1)
  have hmin : min (firstOfMonth k).day (monthLength ((k + n) / 12) (((k + n) % 12).toNat + 1)) = 1 := by
    simp only [firstOfMonth]
    omega
  unfold Granularity.shiftMonths
  simp only [hday, hindex, hmin]
  split <;> rfl

end Shifts

section Neighbours

variable {now : Instant} {g : Granularity}

/-- The words for periods near the present one, with instants of the periods. -/
def neighbours (now : Instant) : Granularity → List (String × Instant)
  | .day => []
  | .week => [("this", now), ("last", Granularity.week.shift now (-1)),
      ("next", Granularity.week.shift now 1)]
  | .month => [("this", now), ("last", (Granularity.month.start now).addDays (-2)),
      ("next", Granularity.month.next now)]
  | .year => [("this", now), ("last", Granularity.year.shift (Granularity.year.start now) (-1)),
      ("next", Granularity.year.next now)]

theorem slack_of_ne_year (hg : g ≠ .year) (t : Instant) (n : Int) :
    slack g t n = Granularity.day.shift t n := by
  cases g with
  | day | week | month => rfl
  | year => exact absurd rfl hg

theorem start_month_eq (now : Instant) : Granularity.month.start now =
    .midnight (firstOfMonth (Date.ofDay now.day).monthIndex).toDay :=
  congrArg Instant.midnight (Granularity.startDay_month now.day)

theorem start_year_eq (now : Instant) : Granularity.year.start now =
    .midnight (firstOfMonth (12 * yearOf now.day)).toDay :=
  congrArg Instant.midnight (toDay_firstOfMonth_twelve _).symm

theorem toDay_firstOfMonth_le {j k : Int} (h : j ≤ k) :
    (firstOfMonth j).toDay ≤ (firstOfMonth k).toDay := by
  obtain ⟨n, rfl⟩ := Int.le.dest h
  induction n with
  | zero => simp
  | succ n ih =>
    have hlt := toDay_firstOfMonth_lt (j + n)
    have hle := ih (by omega)
    rw [show j + ((n + 1 : Nat) : Int) = j + n + 1 by omega]
    omega

theorem startDay_month_firstOfMonth (k : Int) :
    Granularity.month.startDay (firstOfMonth k).toDay = (firstOfMonth k).toDay := by
  rw [Granularity.startDay_month_toDay (exists_firstOfMonth k), monthIndex_firstOfMonth]

theorem startDay_year_firstOfMonth (k : Int) :
    Granularity.year.startDay (firstOfMonth k).toDay = yearStart (k / 12) :=
  Granularity.startDay_year_toDay (exists_firstOfMonth k)

theorem startDay_yearStart (y : Int) : Granularity.year.startDay (yearStart y) = yearStart y := by
  rw [← toDay_firstOfMonth_twelve, startDay_year_firstOfMonth, toDay_firstOfMonth_twelve,
    Int.mul_ediv_cancel_left _ (by decide)]

theorem day_slack_start_le (g : Granularity) (now : Instant) :
    (slack g (g.start now) (-2)).day ≤ g.startDay now.day := by
  have hday (n : Int) : (Granularity.day.shift (.midnight n) (-2)).day ≤ n := by
    rw [Granularity.shift, Instant.addDays_midnight, day_midnight]
    omega
  cases g with
  | day | week | month => exact hday _
  | year =>
    have hstart := toDay_firstOfMonth_twelve (yearOf now.day)
    have hle := toDay_firstOfMonth_le
      (j := if yearKept ((12 * yearOf now.day + -2) / 12) then 12 * yearOf now.day + -2
        else 12 * yearOf now.day) (k := 12 * yearOf now.day) (by split <;> omega)
    simp only [slack, Granularity.shift, start_year_eq, shiftMonths_firstOfMonth]
    exact Int.le_trans hle (Int.le_of_eq hstart)

theorem start_last_of_ne_week (hg : g ≠ .week) {t : Instant} (h : ("last", t) ∈ neighbours now g) :
    g.start (slack g (g.start now) (-2)) = g.start t := by
  cases g with
  | day => simp [neighbours] at h
  | week => exact absurd rfl hg
  | month =>
    obtain rfl : t = _ := by simpa [neighbours] using h
    rfl
  | year =>
    have hyear : (12 * yearOf now.day + -2) / 12 = (12 * yearOf now.day + 12 * -1) / 12 := by omega
    obtain rfl : t = _ := by simpa [neighbours] using h
    rw [Granularity.start_eq_iff]
    simp only [slack, Granularity.shift, start_year_eq, shiftMonths_firstOfMonth, day_midnight,
      startDay_year_firstOfMonth, hyear]
    split
    · rw [hyear]
    · rfl

theorem start_last (g : Granularity) {t : Instant} (h : ("last", t) ∈ neighbours now g) :
    g.start (slack g (g.start now) (-2)) = g.start t ∨ g.start now = g.start t := by
  cases g with
  | week =>
    obtain rfl : t = now.addDays (-7) := by simpa [neighbours, Granularity.shift] using h
    rw [Granularity.start_eq_iff, Granularity.start_eq_iff]
    rw [addDays_day_of_neg (by decide)]
    simp only [slack, Granularity.shift, Granularity.start, Instant.addDays_midnight,
      day_midnight, Granularity.startDay, weekday]
    split <;> omega
  | day | month | year => exact .inl (start_last_of_ne_week (by decide) h)

theorem day_next_firstOfMonth (k : Int) :
    Granularity.month.startDay ((firstOfMonth k).toDay + 1) = (firstOfMonth k).toDay := by
  have hlength := le_monthLength (k / 12) ((k % 12).toNat + 1)
  have hexists : ({ firstOfMonth k with day := 2 } : Date).Exists := by
    obtain ⟨h1, h2, -, -⟩ := exists_firstOfMonth k
    refine ⟨h1, h2, Nat.le_succ 1, ?_⟩
    simp only [firstOfMonth]
    omega
  have hday : (firstOfMonth k).toDay + 1 = ({ firstOfMonth k with day := 2 } : Date).toDay := by
    simp only [firstOfMonth, Date.toDay]
    omega
  rw [hday, Granularity.startDay_month_toDay hexists]
  exact congrArg (fun k => (firstOfMonth k).toDay) (monthIndex_firstOfMonth k)

theorem startDay_shiftMonths_december {y : Int} {t : Instant} (hkept : yearKept y = true)
    (h : t.day = yearStart y - 1) :
    Granularity.year.startDay (Granularity.shiftMonths t 2).day = yearStart y := by
  have hdecember := daysBefore_december (y - 1)
  have hdate : Date.ofDay t.day = ⟨y - 1, 12, 31⟩ := by
    rw [h, ← Date.ofDay_toDay (d := ⟨y - 1, 12, 31⟩) (by simp [Date.Exists, monthLength])]
    congr 1
    simp only [Date.toDay]
    rw [Int.sub_add_cancel] at hdecember
    omega
  have hyear : ((y - 1) * 12 + (12 : Nat) - 1 + 2) / 12 = y := by omega
  have hmonth : (((y - 1) * 12 + (12 : Nat) - 1 + 2) % 12).toNat + 1 = 2 := by omega
  have hlength := le_monthLength y 2
  unfold Granularity.shiftMonths
  simp only [hdate, hyear, hmonth, hkept, if_true]
  apply Granularity.startDay_year_toDay
  refine ⟨Nat.le_add_left 1 1, Nat.le_add_right 2 10, ?_, Nat.min_le_right _ _⟩
  simp only
  omega

theorem day_slack_last (hg : g ≠ .year) :
    (slack g (lastMillisecond g now) 2).day = (g.next now).day + 1 := by
  rw [slack_of_ne_year hg, Granularity.shift, addDays_day_of_nonneg (by decide)]
  simp only [lastMillisecond]
  omega

theorem start_next_of_ne_year (hg : g ≠ .year) {t : Instant} (h : ("next", t) ∈ neighbours now g) :
    g.start (slack g (lastMillisecond g now) 2) = g.start t := by
  rw [Granularity.start_eq_iff, day_slack_last hg]
  cases g with
  | day => simp [neighbours] at h
  | year => exact absurd rfl hg
  | week =>
    obtain rfl : t = now.addDays 7 := by simpa [neighbours, Granularity.shift] using h
    rw [addDays_day_of_nonneg (by decide)]
    simp only [Granularity.next, Granularity.start, Instant.addDays_midnight, day_midnight,
      Granularity.startDay, weekday]
    omega
  | month =>
    obtain rfl : t = _ := by simpa [neighbours] using h
    simp only [Granularity.next, start_month_eq, shiftMonths_firstOfMonth,
      day_midnight, day_next_firstOfMonth, startDay_month_firstOfMonth]

def nextYear (y : Int) : Int := if yearKept (y + 1) then y + 1 else y

theorem next_year_eq (now : Instant) :
    Granularity.year.next now = .midnight (yearStart (nextYear (yearOf now.day))) := by
  have hyear : 12 * yearOf now.day + 12 * 1 = 12 * (yearOf now.day + 1) := by omega
  rw [Granularity.next_eq_shift, Granularity.shift, start_year_eq, shiftMonths_firstOfMonth, hyear,
    Int.mul_ediv_cancel_left _ (by decide), nextYear]
  split <;> rw [toDay_firstOfMonth_twelve]

theorem start_next_year (hkept : yearKept (nextYear (yearOf now.day)) = true) :
    Granularity.year.start (slack .year (lastMillisecond .year now) 2) =
      Granularity.year.start (Granularity.year.next now) := by
  have hlast : (lastMillisecond .year now).day = yearStart (nextYear (yearOf now.day)) - 1 := by
    simp only [lastMillisecond, next_year_eq, day_midnight]
  rw [Granularity.start_eq_iff, next_year_eq, day_midnight, startDay_yearStart]
  exact startDay_shiftMonths_december hkept hlast

theorem start_next (g : Granularity) {t : Instant} (h : ("next", t) ∈ neighbours now g) :
    g.start (slack g (lastMillisecond g now) 2) = g.start t ∨ g.start now = g.start t := by
  cases g with
  | day | week | month => exact .inl (start_next_of_ne_year (by decide) h)
  | year =>
    obtain rfl : t = _ := by simpa [neighbours] using h
    by_cases hkept : yearKept (yearOf now.day + 1) = true
    · have hnext : nextYear (yearOf now.day) = yearOf now.day + 1 := if_pos hkept
      exact .inl (start_next_year (hnext ▸ hkept))
    · have hnext : nextYear (yearOf now.day) = yearOf now.day := if_neg hkept
      right
      rw [next_year_eq, hnext, Granularity.start_eq_iff, day_midnight, startDay_yearStart]
      rfl

theorem startDay_le_of_next (g : Granularity) {t : Instant} (h : ("next", t) ∈ neighbours now g) :
    g.startDay now.day ≤ g.startDay t.day := by
  cases g with
  | day => simp [neighbours] at h
  | week =>
    obtain rfl : t = now.addDays 7 := by simpa [neighbours, Granularity.shift] using h
    rw [addDays_day_of_nonneg (by decide)]
    simp only [Granularity.startDay, weekday]
    omega
  | month =>
    obtain rfl : t = _ := by simpa [neighbours] using h
    simp only [Granularity.next, start_month_eq, shiftMonths_firstOfMonth,
      day_midnight, startDay_month_firstOfMonth]
    rw [Granularity.startDay_month]
    apply toDay_firstOfMonth_le
    split <;> omega
  | year =>
    obtain rfl : t = _ := by simpa [neighbours] using h
    simp only [Granularity.next, start_year_eq, shiftMonths_firstOfMonth,
      day_midnight, startDay_year_firstOfMonth]
    rw [← toDay_firstOfMonth_twelve, Granularity.startDay, ← toDay_firstOfMonth_twelve]
    apply toDay_firstOfMonth_le
    split <;> omega

theorem this_mem_neighbours (hg : g ≠ .day) (now : Instant) : ("this", now) ∈ neighbours now g := by
  cases g with
  | day => exact absurd rfl hg
  | week | month | year => exact List.mem_cons_self

theorem neighbours_cases {w : String × Instant} (h : w ∈ neighbours now g) : g ≠ .day ∧
    (w = ("this", now) ∨ (∃ t, w = ("last", t)) ∨ ∃ t, w = ("next", t)) := by
  cases g with
  | day => simp [neighbours] at h
  | week | month | year =>
    simp only [neighbours, List.mem_cons, List.not_mem_nil, or_false] at h
    rcases h with rfl | rfl | rfl <;> simp

theorem mem_periodWords_of_mem_neighbours {w : String × Instant}
    (h : w ∈ neighbours now g) : w.1 ∈ periodWords := by
  cases g <;> simp only [neighbours, List.mem_cons, List.not_mem_nil, or_false] at h
  all_goals rcases h with rfl | rfl | rfl <;> simp [periodWords]

theorem writePeriod_of_mem {word : String} (hword : word ∈ periodWords) (now : Instant)
    (g : Granularity) (t : Instant) : writePeriod now g (g.start t) (phrase word g) =
      if g.start now = g.start t then (phrase "this" g).toList
      else if g.start (slack g (g.start now) (-2)) = g.start t then (phrase "last" g).toList
      else if g.start (slack g (lastMillisecond g now) 2) = g.start t then (phrase "next" g).toList
      else writeFormat (phrase word g) (g.start t) (some g) := by
  have hnear : (periodWords.any fun a => sameLetters (phrase a g).toList (phrase word g).toList) =
      true := List.any_eq_true.2 ⟨word, hword, sameLetters_refl _⟩
  simp only [writePeriod, hnear, Bool.true_and, Granularity.isSame_iff, Granularity.start_start]

/-- A near period is written as the phrase that it was read from, or as the present one if
it is the same. -/
theorem writePeriod_phrase {w : String × Instant} (hw : w ∈ neighbours now g) :
    writePeriod now g (g.start w.2) (phrase w.1 g) =
      (phrase (if g.start now = g.start w.2 then "this" else w.1) g).toList := by
  obtain ⟨-, hword⟩ := neighbours_cases hw
  rw [writePeriod_of_mem (mem_periodWords_of_mem_neighbours hw)]
  by_cases hthis : g.start now = g.start w.2
  · rw [if_pos hthis, if_pos hthis]
  rw [if_neg hthis, if_neg hthis]
  rcases hword with rfl | ⟨t, rfl⟩ | ⟨t, rfl⟩
  · exact absurd rfl hthis
  · rw [if_pos ((start_last g hw).resolve_right hthis)]
  · have hne : g.start (slack g (g.start now) (-2)) ≠ g.start t := by
      intro h
      apply hthis
      rw [Granularity.start_eq_iff] at h ⊢
      have hle := day_slack_start_le g now
      have hslack := Granularity.startDay_le g (slack g (g.start now) (-2)).day
      have hnext := startDay_le_of_next g hw
      exact Int.le_antisymm hnext (h ▸ Int.le_trans hslack hle)
    rw [if_neg hne, if_pos ((start_next g hw).resolve_right hthis)]

theorem start_day_eq_iff {t u : Instant} :
    Granularity.day.start t = Granularity.day.start u ↔ t.day = u.day := Granularity.start_eq_iff

theorem writeDay_of_mem {w : String × Int} (hw : w ∈ dayWords) (now t : Instant) :
    writeDay now (Granularity.day.start t) w.1 =
      if Granularity.day.start now = Granularity.day.start t then "today".toList
      else if Granularity.day.start (now.addDays (-1)) = Granularity.day.start t then
        "yesterday".toList
      else if Granularity.day.start (now.addDays 1) = Granularity.day.start t then
        "tomorrow".toList
      else if Granularity.week.start now = Granularity.week.start (Granularity.day.start t) then
        Field.write (Granularity.day.start t) .weekdayLong
      else writeFormat w.1 (Granularity.day.start t) (some .day) := by
  have hnear : (dayWords.any fun a => sameLetters a.1.toList w.1.toList) = true :=
    List.any_eq_true.2 ⟨w, hw, sameLetters_refl _⟩
  simp only [writeDay, hnear, Bool.true_and, Granularity.isSame_iff, Granularity.start_start]

theorem writeDay_dayWord (now : Instant) {w : String × Int} (hw : w ∈ dayWords) :
    writeDay now (Granularity.day.start (now.addDays w.2)) w.1 =
      (if Granularity.day.start now = Granularity.day.start (now.addDays w.2) then "today"
        else w.1).toList := by
  have hyesterday := addDays_day_of_neg (t := now) (n := -1) (by decide)
  have htomorrow := addDays_day_of_nonneg (t := now) (n := 1) (by decide)
  rw [writeDay_of_mem hw]
  by_cases hnow : Granularity.day.start now = Granularity.day.start (now.addDays w.2)
  · rw [if_pos hnow, if_pos hnow]
  rw [if_neg hnow, if_neg hnow]
  simp only [dayWords, List.mem_cons, List.not_mem_nil, or_false] at hw
  rcases hw with rfl | rfl | rfl
  · exact absurd (by simp [Instant.addDays]) hnow
  · rw [if_pos rfl]
  · have hne : Granularity.day.start (now.addDays (-1)) ≠ Granularity.day.start (now.addDays 1) := by
      rw [ne_eq, start_day_eq_iff, hyesterday, htomorrow]
      split <;> omega
    rw [if_neg hne, if_pos rfl]

end Neighbours

end SearchBar.Calendar
