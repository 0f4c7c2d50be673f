import SearchBar.Proofs.Calendar.Periods

/-! # Periods tile the time line

Each period is followed by the next one of its unit with no day between them and none in
common. So two instants lie in one period exactly if one of them lies in the window of the
other, and two windows of one unit are the same or have no instant in common.
-/

namespace SearchBar.Calendar

namespace Instant

variable {a b : Instant}

theorem day_le_of_le (h : a ≤ b) : a.day ≤ b.day := by
  apply Int.not_lt.1
  intro hlt
  exact h (.inl hlt)

theorem midnight_le_midnight_iff {a b : Int} : midnight a ≤ midnight b ↔ a ≤ b := midnight_le_iff

end Instant

namespace Granularity

variable {g : Granularity} {t a b : Instant} {m n : Int}

def endDay : Granularity → Int → Int
  | day, n => n + 1
  | week, n => week.startDay n + 7
  | month, n => (firstOfMonth ((Date.ofDay n).monthIndex + 1)).toDay
  | year, n => yearStart (yearOf n + 1)

/-- The calendar is kept from the first day of the period up to the first day behind it. -/
structure IsKept (g : Granularity) (t : Instant) : Prop where
  start_kept : yearKept (yearOf (g.startDay t.day)) = true
  end_kept : yearKept (yearOf (g.endDay t.day)) = true

section Days

theorem lt_endDay (g : Granularity) (n : Int) : n < g.endDay n := by
  cases g with
  | day => exact Int.lt_succ n
  | week =>
    simp only [endDay, startDay, weekday]
    omega
  | month =>
    have hexists := Date.exists_ofDay n
    have hday := Date.toDay_ofDay n
    have hfirst := firstOfMonth_monthIndex hexists
    have hlength := hexists.2.2.2
    simp only [endDay, toDay_firstOfMonth_succ]
    have hyear : (firstOfMonth (Date.ofDay n).monthIndex).year = (Date.ofDay n).year := by rw [hfirst]
    have hmonth : (firstOfMonth (Date.ofDay n).monthIndex).month = (Date.ofDay n).month := by
      rw [hfirst]
    simp only [firstOfMonth] at hyear hmonth
    rw [hyear, hmonth, hfirst]
    simp only [Date.toDay] at hday ⊢
    omega
  | year => exact lt_yearStart_yearOf n

theorem startDay_endDay (g : Granularity) (n : Int) : g.startDay (g.endDay n) = g.endDay n := by
  cases g with
  | day => rfl
  | week =>
    simp only [endDay, startDay, weekday]
    omega
  | month => exact startDay_month_firstOfMonth _
  | year => exact startDay_yearStart _

theorem monthIndex_unique {k : Int} (hstart : (firstOfMonth k).toDay ≤ n)
    (hend : n < (firstOfMonth (k + 1)).toDay) : (Date.ofDay n).monthIndex = k := by
  have hle := startDay_le month n
  have hlt := lt_endDay month n
  rw [startDay_month] at hle
  rw [endDay] at hlt
  rcases Int.lt_trichotomy (Date.ofDay n).monthIndex k with h | h | h
  · have hmono := toDay_firstOfMonth_le (j := (Date.ofDay n).monthIndex + 1) (k := k) h
    omega
  · exact h
  · have hmono := toDay_firstOfMonth_le (j := k + 1) (k := (Date.ofDay n).monthIndex) h
    omega

theorem startDay_eq_of_within (hstart : g.startDay m ≤ n) (hend : n < g.endDay m) :
    g.startDay n = g.startDay m := by
  cases g with
  | day =>
    simp only [startDay, endDay] at hstart hend ⊢
    omega
  | week =>
    simp only [startDay, endDay, weekday] at hstart hend ⊢
    omega
  | month =>
    rw [startDay_month] at hstart
    rw [startDay_month, startDay_month, monthIndex_unique hstart hend]
  | year => exact congrArg yearStart (yearOf_unique hstart hend)

theorem startDay_eq_iff : g.startDay n = g.startDay m ↔ g.startDay m ≤ n ∧ n < g.endDay m := by
  constructor
  · intro h
    have hle := startDay_le g m
    have hlt := lt_endDay g m
    refine ⟨h ▸ startDay_le g n, ?_⟩
    apply Int.not_le.1
    intro hge
    -- Otherwise the end of the one period would lie in the other one and start it.
    have hend : g.startDay (g.endDay m) = g.startDay n :=
      startDay_eq_of_within (by omega) (Int.lt_of_le_of_lt hge (lt_endDay g n))
    rw [startDay_endDay, h] at hend
    omega
  · rintro ⟨hstart, hend⟩
    exact startDay_eq_of_within hstart hend

theorem startDay_mono (g : Granularity) (h : m ≤ n) : g.startDay m ≤ g.startDay n := by
  apply Int.not_lt.1
  intro hlt
  have hm := startDay_le g m
  have hn := lt_endDay g n
  have hsame := startDay_eq_of_within (g := g) (m := n) (n := g.startDay m) (by omega) (by omega)
  rw [startDay_startDay] at hsame
  omega

end Days

section Instants

theorem start_le (g : Granularity) (t : Instant) : g.start t ≤ t :=
  Instant.midnight_le_iff.2 (startDay_le g t.day)

theorem start_mono (g : Granularity) (h : a ≤ b) : g.start a ≤ g.start b :=
  Instant.midnight_le_midnight_iff.2 (startDay_mono g (Instant.day_le_of_le h))

theorem yearOf_firstOfMonth (k : Int) : yearOf (firstOfMonth k).toDay = k / 12 :=
  Date.yearOf_toDay (exists_firstOfMonth k)

theorem next_eq (h : g.IsKept t) : g.next t = .midnight (g.endDay t.day) := by
  have hkept := h.end_kept
  cases g with
  | day | week => exact Instant.addDays_midnight _ _
  | month =>
    rw [endDay, yearOf_firstOfMonth] at hkept
    rw [next_eq_shift, shift, start_month_eq, shiftMonths_firstOfMonth, if_pos hkept, endDay]
  | year =>
    have hyear : 12 * yearOf t.day + 12 * 1 = 12 * (yearOf t.day + 1) := by omega
    rw [endDay, ← toDay_firstOfMonth_twelve, yearOf_firstOfMonth] at hkept
    rw [next_eq_shift, shift, start_year_eq, shiftMonths_firstOfMonth, hyear, if_pos hkept, endDay,
      toDay_firstOfMonth_twelve]

theorem lt_next (h : g.IsKept t) : t < g.next t := by
  rw [next_eq h]
  exact Instant.lt_midnight_iff.2 (lt_endDay g t.day)

theorem start_next_eq (h : g.IsKept t) : g.start (g.next t) = g.next t := by
  rw [next_eq h]
  exact congrArg Instant.midnight (startDay_endDay g t.day)

/-- Instants lie in one period exactly if one lies in the window of the other. -/
theorem isSame_iff_within (h : g.IsKept a) :
    g.isSame a b = true ↔ g.start a ≤ b ∧ b < g.next a := by
  rw [isSame_iff, eq_comm, start_eq_iff, startDay_eq_iff, next_eq h, start,
    Instant.midnight_le_iff, Instant.lt_midnight_iff]

theorem next_congr (h : g.start a = g.start b) : g.next a = g.next b := by
  rw [next_eq_shift, next_eq_shift, h]

end Instants

end Granularity

namespace DateValue

variable {v w : DateValue} {t : Instant}

def Covers (d : DateValue) (t : Instant) : Prop := d.opening ≤ t ∧ t < d.closing

theorem covers_iff (h : v.unit.IsKept v.instant) :
    v.Covers t ↔ v.unit.start v.instant = v.unit.start t :=
  (Granularity.isSame_iff_within h).symm.trans Granularity.isSame_iff

theorem covers_instant (h : v.unit.IsKept v.instant) : v.Covers v.instant := (covers_iff h).2 rfl

/-- Windows of one unit that have an instant in common are the same. -/
theorem window_eq_of_covers (hv : v.unit.IsKept v.instant) (hw : w.unit.IsKept w.instant)
    (hunit : v.unit = w.unit) (htv : v.Covers t) (htw : w.Covers t) :
    v.opening = w.opening ∧ v.closing = w.closing := by
  rw [covers_iff hv, hunit] at htv
  rw [covers_iff hw] at htw
  have hstart : w.unit.start v.instant = w.unit.start w.instant := htv.trans htw.symm
  unfold opening closing
  rw [hunit]
  exact ⟨hstart, Granularity.next_congr hstart⟩

end DateValue

/-- Every instant lies in one period of a unit, which starts at a start of its own and ends
where the next one starts; and windows of one unit are equal or disjoint. -/
theorem periods_tile (g : Granularity) {t a b : Instant} (ht : g.IsKept t) (ha : g.IsKept a)
    (hb : g.IsKept b) :
    (g.start t ≤ t ∧ t < g.next t) ∧
    g.start (g.start t) = g.start t ∧
    g.start (g.next t) = g.next t ∧
    (a ≤ b → g.start a ≤ g.start b) ∧
    (g.isSame a b = true ↔ g.start a ≤ b ∧ b < g.next a) ∧
    (∀ v : DateValue, v.unit = g → v.instant = t → v.Covers t) ∧
    ∀ v w : DateValue, v.unit = g → w.unit = g → v.instant = a → w.instant = b →
      v.opening = w.opening ∧ v.closing = w.closing ∨ ∀ s, ¬ (v.Covers s ∧ w.Covers s) := by
  refine ⟨⟨Granularity.start_le g t, Granularity.lt_next ht⟩, Granularity.start_start g t,
    Granularity.start_next_eq ht, Granularity.start_mono g, Granularity.isSame_iff_within ha, ?_, ?_⟩
  · rintro v rfl rfl
    exact DateValue.covers_instant ht
  · rintro v w hv rfl rfl rfl
    by_cases hcommon : ∃ s, v.Covers s ∧ w.Covers s
    · obtain ⟨s, hsv, hsw⟩ := hcommon
      exact .inl (DateValue.window_eq_of_covers (hv ▸ ha) hb hv hsv hsw)
    · exact .inr (not_exists.1 hcommon)

theorem periods_tile_february :
    let leap : Instant := ⟨Date.toDay ⟨2016, 2, 29⟩, ⟨86399, by decide⟩, ⟨1500000000, by decide⟩⟩
    let late : Instant := ⟨Date.toDay ⟨1900, 2, 28⟩, ⟨86399, by decide⟩, ⟨999999999, by decide⟩⟩
    let march : Instant := .midnight (Date.toDay ⟨1900, 3, 1⟩)
    (Granularity.month.IsKept leap ∧ Granularity.month.IsKept late ∧
      Granularity.month.IsKept march) ∧
    (Granularity.month.start leap ≤ leap ∧ leap < Granularity.month.next leap) ∧
    Granularity.month.start late ≤ Granularity.month.start march ∧
    ¬ march < Granularity.month.next late := by
  intro leap late march
  have hleap : Granularity.month.IsKept leap := ⟨by decide, by decide⟩
  have hlate : Granularity.month.IsKept late := ⟨by decide, by decide⟩
  have hmarch : Granularity.month.IsKept march := ⟨by decide, by decide⟩
  obtain ⟨hwithin, -, -, hmono, hsame, -⟩ := periods_tile .month hleap hlate hmarch
  have hother : Granularity.month.isSame late march = false := by decide
  have hle := hmono (by decide)
  refine ⟨⟨hleap, hlate, hmarch⟩, hwithin, hle, ?_⟩
  intro hlt
  have htrue := hsame.2 ⟨by decide, hlt⟩
  simp [hother] at htrue

end SearchBar.Calendar
