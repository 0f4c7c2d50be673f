import Mathlib.Data.List.Nodup
import SearchBar.Proofs.Calendar.RoundTrip
import SearchBar.Proofs.Calendar.Steps

/-! # Weeks and Saturdays

A week belongs to the year of its Saturday, and the number of the week counts the Saturdays of
this year up to its own. So a number stands for a week exactly if the year has so many
Saturdays, and the first week of a year is the one that holds the first of January.
-/

namespace SearchBar.Calendar

open Text

variable {now t : Instant} {digits : List Char} {y day : Int} {n : Nat}

def saturdayOf (day : Int) : Int := Granularity.week.startDay day + 6

/-- The Saturdays among the days of a year, from the first one to the last one. -/
def saturdays (y : Int) : List Int :=
  ((List.range (yearStart (y + 1) - yearStart y).toNat).map fun n : Nat => yearStart y + n).filter
    fun d => weekday d == 6

section Counting

theorem saturdayOf_eq (day : Int) : saturdayOf day = day + 6 - weekday day := by
  simp only [saturdayOf, Granularity.startDay]
  omega

theorem weekday_saturdayOf (day : Int) : weekday (saturdayOf day) = 6 := by
  rw [saturdayOf_eq]
  unfold weekday
  omega

theorem filter_weekday_range (a : Int) (length : Nat) :
    ((List.range length).map fun n : Nat => a + n).filter (fun d => weekday d == 6) =
      (List.range ((length + weekday a) / 7)).map fun n : Nat => saturdayOf a + 7 * n := by
  induction length with
  | zero =>
    have hlt : (0 + weekday a) / 7 = 0 := by
      unfold weekday
      omega
    rw [hlt]
    rfl
  | succ length ih =>
    rw [List.range_succ, List.map_append, List.filter_append, ih]
    by_cases h : weekday (a + length) = 6
    · have hcount : (length + 1 + weekday a) / 7 = (length + weekday a) / 7 + 1 := by
        unfold weekday at *
        omega
      have hday : a + length = saturdayOf a + 7 * ((length + weekday a) / 7 : Nat) := by
        rw [saturdayOf_eq]
        unfold weekday at *
        omega
      rw [hcount, List.range_succ, List.map_append, List.map_singleton, List.map_singleton, ← hday]
      simp [h]
    · have hcount : (length + 1 + weekday a) / 7 = (length + weekday a) / 7 := by
        unfold weekday at *
        omega
      simp [h, hcount]

theorem saturdays_eq (y : Int) : saturdays y =
    (List.range (((yearStart (y + 1) - yearStart y).toNat + weekday (yearStart y)) / 7)).map
      fun n : Nat => saturdayOf (yearStart y) + 7 * n := filter_weekday_range _ _

theorem length_saturdays (y : Int) : (saturdays y).length =
    ((yearStart (y + 1) - yearStart y).toNat + weekday (yearStart y)) / 7 := by
  rw [saturdays_eq, List.length_map, List.length_range]

theorem length_saturdays_le (y : Int) : (saturdays y).length ≤ 53 := by
  have hlength := yearStart_succ y
  rw [length_saturdays]
  unfold weekday
  split at hlength <;> omega

theorem getElem?_saturdays (h : n < (saturdays y).length) :
    (saturdays y)[n]? = some (saturdayOf (yearStart y) + 7 * n) := by
  rw [length_saturdays] at h
  rw [saturdays_eq, List.getElem?_map, List.getElem?_range h]
  rfl

theorem nodup_saturdays (y : Int) : (saturdays y).Nodup := by
  rw [saturdays_eq]
  exact List.nodup_range.map fun m n h => by omega

theorem idxOf_saturdays (h : n < (saturdays y).length) :
    (saturdays y).idxOf (saturdayOf (yearStart y) + 7 * n) = n := by
  obtain ⟨hn, hget⟩ := List.getElem?_eq_some_iff.1 (getElem?_saturdays h)
  rw [← hget]
  exact (nodup_saturdays y).idxOf_getElem n hn

/-- The Saturday with a number lies in the year exactly if the year has so many. -/
theorem yearOf_saturday_iff (hn : n < 53) :
    yearOf (saturdayOf (yearStart y) + 7 * n) = y ↔ n < (saturdays y).length := by
  have hlength := yearStart_succ y
  have hstart := yearStart_yearOf_le (saturdayOf (yearStart y) + 7 * n)
  have hend := lt_yearStart_yearOf (saturdayOf (yearStart y) + 7 * n)
  rw [length_saturdays, saturdayOf_eq] at *
  unfold weekday at *
  constructor
  · intro h
    rw [h] at hend
    omega
  · intro h
    apply yearOf_unique <;> omega

end Counting

section Numbers

theorem weekNumber_eq (day : Int) : weekNumber day =
    (saturdayOf day - saturdayOf (yearStart (yearOf (saturdayOf day)))) / 7 + 1 := by
  simp only [weekNumber, saturdayOf]
  omega

/-- The Saturday of a week has a place among the Saturdays of its year, which is the number
of the week. -/
theorem exists_place (day : Int) : ∃ n : Nat,
    n < (saturdays (yearOf (saturdayOf day))).length ∧
      saturdayOf day = saturdayOf (yearStart (yearOf (saturdayOf day))) + 7 * n ∧
      weekNumber day = n + 1 := by
  have hstart := yearStart_yearOf_le (saturdayOf day)
  have hend := lt_yearStart_yearOf (saturdayOf day)
  have hday := weekday_saturdayOf day
  rw [weekNumber_eq]
  generalize saturdayOf day = s at *
  generalize yearOf s = y at *
  refine ⟨((s - saturdayOf (yearStart y)) / 7).toNat, ?_, ?_, ?_⟩
  · rw [length_saturdays, saturdayOf_eq]
    unfold weekday at *
    omega
  · rw [saturdayOf_eq]
    unfold weekday at *
    omega
  · rw [saturdayOf_eq]
    unfold weekday at *
    omega

theorem yearOf_saturdayOf_yearStart (y : Int) : yearOf (saturdayOf (yearStart y)) = y := by
  have hlength := yearStart_succ y
  apply yearOf_unique <;> rw [saturdayOf_eq] <;> unfold weekday
  · omega
  · split at hlength <;> omega

theorem saturdayOf_add (day k : Int) : saturdayOf (day + 7 * k) = saturdayOf day + 7 * k := by
  rw [saturdayOf_eq, saturdayOf_eq]
  unfold weekday
  omega

theorem saturdayOf_startDay (day : Int) :
    saturdayOf (Granularity.week.startDay day) = saturdayOf day :=
  congrArg (· + 6) (Granularity.startDay_startDay .week day)

theorem startDay_eq_iff_saturdayOf {a b : Int} :
    Granularity.week.startDay a = Granularity.week.startDay b ↔ saturdayOf a = saturdayOf b := by
  simp only [saturdayOf]
  omega

/-- The week with a number belongs to the year exactly if the year has so many Saturdays. -/
theorem weekNumber_eq_iff (y : Int) (hn : n < 53) :
    weekNumber (Granularity.week.startDay (yearStart y) + 7 * n) = n + 1 ↔
      n < (saturdays y).length := by
  rw [← yearOf_saturday_iff hn, weekNumber_eq, saturdayOf_add, saturdayOf_startDay]
  constructor
  · intro h
    have hfirst := weekday_saturdayOf (yearStart y)
    have hown := weekday_saturdayOf (yearStart (yearOf (saturdayOf (yearStart y) + 7 * n)))
    have hsame : saturdayOf (yearStart (yearOf (saturdayOf (yearStart y) + 7 * n))) =
        saturdayOf (yearStart y) := by
      unfold weekday at hfirst hown
      omega
    rw [← yearOf_saturdayOf_yearStart (yearOf _), hsame, yearOf_saturdayOf_yearStart]
  · intro h
    rw [h]
    omega

theorem weekNumber_eq_one_iff (day : Int) : weekNumber day = 1 ↔
    ∃ y, Granularity.week.startDay (yearStart y) = Granularity.week.startDay day := by
  simp only [startDay_eq_iff_saturdayOf]
  constructor
  · intro h
    obtain ⟨n, -, hday, hnumber⟩ := exists_place day
    exact ⟨yearOf (saturdayOf day), by omega⟩
  · rintro ⟨y, h⟩
    rw [weekNumber_eq, ← h, yearOf_saturdayOf_yearStart]
    omega

theorem weekNumber_bounds (day : Int) : 1 ≤ weekNumber day ∧ weekNumber day ≤ 53 := by
  obtain ⟨n, hn, -, hnumber⟩ := exists_place day
  have hle := length_saturdays_le (yearOf (saturdayOf day))
  omega

theorem weekNumber_next (h : ∀ y, Granularity.week.startDay (yearStart y) ≠
    Granularity.week.startDay (day + 7)) : weekNumber (day + 7) = weekNumber day + 1 := by
  have hnext : saturdayOf (day + 7) = saturdayOf day + 7 := saturdayOf_add day 1
  have hyear : yearOf (saturdayOf day + 7) = yearOf (saturdayOf day) := by
    have hstart := yearStart_yearOf_le (saturdayOf day)
    have hend := lt_yearStart_yearOf (saturdayOf day)
    have hne := h (yearOf (saturdayOf day) + 1)
    have hday := weekday_saturdayOf day
    rw [ne_eq, startDay_eq_iff_saturdayOf, hnext, saturdayOf_eq (yearStart _)] at hne
    apply yearOf_unique
    · omega
    · unfold weekday at *
      omega
  rw [weekNumber_eq, weekNumber_eq, hnext, hyear]
  omega

theorem weekNumber_eq_idxOf (day : Int) :
    weekNumber day = (saturdays (yearOf (saturdayOf day))).idxOf (saturdayOf day) + 1 := by
  obtain ⟨n, hn, hday, hnumber⟩ := exists_place day
  have hplace := idxOf_saturdays hn
  rw [← hday] at hplace
  rw [hnumber, hplace]

theorem saturdayOf_mem_saturdays (day : Int) :
    saturdayOf day ∈ saturdays (yearOf (saturdayOf day)) := by
  obtain ⟨n, hn, hday, -⟩ := exists_place day
  have hget := getElem?_saturdays hn
  rw [← hday] at hget
  exact List.mem_of_getElem? hget

end Numbers

section Reading

theorem readTimestamp?_week (digits : List Char) :
    readTimestamp? ("week ".toList ++ digits) = none := by
  have htext : "week ".toList ++ digits = 'w' :: ("eek ".toList ++ digits) := rfl
  have hmail : readMailTimestamp? ('w' :: ("eek ".toList ++ digits)) = none := rfl
  rw [htext, readTimestamp?, readOffsetTimestamp?_eq_none List.mem_cons_self rfl,
    readLocalTimestamp?_eq_none List.mem_cons_self rfl, hmail,
    readTimestampPattern?_eq_none rfl rfl]
  rfl

variable (hne : digits ≠ []) (hlength : digits.length ≤ 2)
  (hdigits : ∀ c ∈ digits, c.isDigit = true)
include hne hlength hdigits

theorem read?_week_digits (now : Instant) : DateValue.read? now ("week ".toList ++ digits) =
    if 1 ≤ Decimal.natOfDigits digits then
      ((saturdays (yearOf now.day))[Decimal.natOfDigits digits - 1]?).map fun s =>
        tagged (.midnight (s - 6)) .week weekFormat
    else none := by
  have htake : takeWeekWord? ("week ".toList ++ digits) = some digits := rfl
  have hletter : 'w' ∈ "week ".toList ++ digits := List.mem_cons_self
  have hread : DateValue.read? now ("week ".toList ++ digits) =
      readWeekNumber? now ("week ".toList ++ digits) := by
    rw [DateValue.read?, trim_weekDigits hne hdigits, readTrimmed?_eq,
      readPeriod?_of_takeWeekWord htake, readTime?_eq_none hletter rfl, readTimestamp?_week]
    simp
  rw [hread, readWeekNumber?_digits hne hlength hdigits]
  generalize Decimal.natOfDigits digits = n
  cases n with
  | zero => rfl
  | succ n =>
    have hle := length_saturdays_le (yearOf now.day)
    have hpred : ((n + 1 : Nat) : Int) - 1 = n := by omega
    simp only [hpred, Nat.add_sub_cancel]
    rw [if_pos (Nat.le_add_left 1 n)]
    by_cases hn : n < (saturdays (yearOf now.day)).length
    · have hnumber := (weekNumber_eq_iff (yearOf now.day) (by omega)).2 hn
      rw [if_pos ⟨Nat.le_add_left 1 n, by omega, hnumber⟩, getElem?_saturdays hn, Option.map_some,
        saturdayOf]
      congr 3
      omega
    · have hbeyond : ¬ (1 ≤ n + 1 ∧ n + 1 ≤ 53 ∧ weekNumber
          (Granularity.week.startDay (yearStart (yearOf now.day)) + 7 * n) = (n + 1 : Nat)) :=
        fun h => hn ((weekNumber_eq_iff _ (by omega)).1 h.2.2)
      rw [if_neg hbeyond, List.getElem?_eq_none (by omega)]
      rfl

end Reading

section Windows

theorem window_of_saturday {s : Int} (h : s ∈ saturdays y) :
    (tagged (.midnight (s - 6)) .week weekFormat).opening = .midnight (s - 6) ∧
      (tagged (.midnight (s - 6)) .week weekFormat).closing = .midnight (s + 1) := by
  have hday : weekday s = 6 := beq_iff_eq.1 (List.mem_filter.1 h).2
  have hfirst : Granularity.week.startDay (s - 6) = s - 6 := by
    simp only [Granularity.startDay]
    unfold weekday at *
    omega
  have hopening : (tagged (.midnight (s - 6)) .week weekFormat).opening = .midnight (s - 6) :=
    congrArg Instant.midnight hfirst
  refine ⟨hopening, ?_⟩
  show Granularity.week.shift (tagged (.midnight (s - 6)) .week weekFormat).opening 1 = _
  rw [hopening, Granularity.shift, Instant.addDays_midnight]
  congr 1
  omega

end Windows

section Limits

theorem startDay_saturday {s : Int} (h : weekday s = 6) : Granularity.week.startDay (s - 6) = s - 6 := by
  simp only [Granularity.startDay]
  unfold weekday at *
  omega

theorem checkWeekNumber_saturday {s : Int} (hnow : now.IsKept) (hs : s ∈ saturdays (yearOf now.day))
    (hfirst : (Granularity.week.start (Granularity.year.start now)).IsKept) :
    (Instant.midnight (s - 6)).IsKept ∧ (Instant.midnight s).IsKept ∧
      checkWeekNumber (.midnight (s - 6)) = .ok () := by
  obtain ⟨n, hn, rfl⟩ : ∃ n < (saturdays (yearOf now.day)).length,
      saturdayOf (yearStart (yearOf now.day)) + 7 * (n : Nat) = s := by
    obtain ⟨n, hn, rfl⟩ := List.getElem_of_mem hs
    exact ⟨n, hn, Option.some.inj ((getElem?_saturdays hn).symm.trans (List.getElem?_eq_getElem hn))⟩
  have hle := length_saturdays_le (yearOf now.day)
  have hyear := (yearOf_saturday_iff (y := yearOf now.day) (n := n) (by omega)).2 hn
  have hday : weekday (saturdayOf (yearStart (yearOf now.day)) + 7 * n) = 6 :=
    beq_iff_eq.1 (List.mem_filter.1 hs).2
  have hkept : (Instant.midnight (saturdayOf (yearStart (yearOf now.day)) + 7 * n)).IsKept := by
    rw [Instant.IsKept, day_midnight, hyear]
    exact hnow
  have hyearDay : Granularity.year.startDay now.day = yearStart (yearOf now.day) := rfl
  have hstart : (Instant.midnight (saturdayOf (yearStart (yearOf now.day)) + 7 * n - 6)).IsKept := by
    refine isKept_of_between hfirst hkept ?_ ?_ <;>
      simp only [Granularity.start, day_midnight, hyearDay, saturdayOf] <;> omega
  refine ⟨hstart, hkept, checkWeekNumber_iff.2 ⟨?_, ?_, ?_⟩⟩
  · rw [Granularity.start, day_midnight, startDay_saturday hday]
    exact hstart
  · rw [day_midnight, startDay_saturday hday, Int.sub_add_cancel]
    exact hkept
  · rw [day_midnight, startDay_saturday hday, Int.sub_add_cancel, hyear]
    exact hfirst

theorem numberedWeek_eq {s : Int} {n : Nat} (hn : 1 ≤ n)
    (hs : (saturdays (yearOf now.day))[n - 1]? = some s) : numberedWeek now n = s - 6 := by
  obtain ⟨hlt, -⟩ := List.getElem?_eq_some_iff.1 hs
  rw [getElem?_saturdays hlt] at hs
  obtain rfl := Option.some.inj hs
  simp only [numberedWeek, saturdayOf]
  omega

variable (hne : digits ≠ []) (hlength : digits.length ≤ 2)
  (hdigits : ∀ c ∈ digits, c.isDigit = true)
include hne hlength hdigits

theorem checkRead_week_digits_iff {s : Int} (hn : 1 ≤ Decimal.natOfDigits digits)
    (hs : (saturdays (yearOf now.day))[Decimal.natOfDigits digits - 1]? = some s) :
    DateValue.checkRead now ("week ".toList ++ digits) = .ok () ↔
      now.WeekKept ∧ (Granularity.week.start (Granularity.year.start now)).IsKept := by
  have hread : readWeekDigits? ("week ".toList ++ digits) = some (Decimal.natOfDigits digits) :=
    readWeekDigits?_eq_some.2 ⟨digits, rfl, hne, hlength, hdigits, rfl⟩
  have hlt := (List.getElem?_eq_some_iff.1 hs).1
  have hle := length_saturdays_le (yearOf now.day)
  rw [checkRead_of_trim (trim_weekDigits hne hdigits), checkReadTrimmed_weekDigits_iff hread,
    numberedWeek_eq hn hs]
  refine and_congr_right fun hnow => ⟨fun h => (h ⟨hn, by omega⟩).1, fun hfirst _ => ?_⟩
  obtain ⟨hstart, -, hcheck⟩ :=
    checkWeekNumber_saturday hnow.now_isKept (List.mem_of_getElem? hs) hfirst
  exact ⟨hfirst, hstart, hcheck⟩

/-- The number of a week is read within the limits as the week of the Saturday with this number. -/
theorem parse_week_digits_iff {d : DateValue} :
    DateValue.parse now ("week ".toList ++ digits) = .ok (some d) ↔
      (now.WeekKept ∧ (Granularity.week.start (Granularity.year.start now)).IsKept) ∧
        1 ≤ Decimal.natOfDigits digits ∧
          ∃ s, (saturdays (yearOf now.day))[Decimal.natOfDigits digits - 1]? = some s ∧
            d = tagged (.midnight (s - 6)) .week weekFormat := by
  rw [DateValue.parse_eq_ok_iff, read?_week_digits hne hlength hdigits]
  constructor
  · rintro ⟨hcheck, hread⟩
    split at hread
    · rename_i hn
      obtain ⟨s, hs, rfl⟩ := Option.map_eq_some_iff.1 hread
      exact ⟨(checkRead_week_digits_iff hne hlength hdigits hn hs).1 hcheck, hn, s, hs, rfl⟩
    · simp at hread
  · rintro ⟨hkept, hn, s, hs, rfl⟩
    rw [if_pos hn, hs]
    exact ⟨(checkRead_week_digits_iff hne hlength hdigits hn hs).2 hkept, rfl⟩

omit hne hlength hdigits

theorem weekNumberAt_eq_ok_iff {n : Int} : weekNumberAt t = .ok n ↔
    (t.WeekKept ∧ (Instant.midnight (Granularity.week.startDay
      (yearStart (yearOf (saturdayOf t.day))))).IsKept) ∧ weekNumber t.day = n := by
  rw [weekNumberAt, check_bind_eq_ok_iff, checkWeekNumber_iff, ← and_assoc]
  exact and_congr_right' (iff_of_eq (Except.ok.injEq _ _))

theorem range_of_saturday {s : Int} (hs : s ∈ saturdays y) (hstart : (Instant.midnight (s - 6)).IsKept)
    (hkept : (Instant.midnight s).IsKept) :
    (tagged (.midnight (s - 6)) .week weekFormat).range = .ok (.midnight (s - 6), .midnight (s + 1)) := by
  obtain ⟨hopening, hclosing⟩ := window_of_saturday hs
  have hday : weekday s = 6 := beq_iff_eq.1 (List.mem_filter.1 hs).2
  have hweek : (Instant.midnight (s - 6)).WeekKept := by
    constructor <;> rw [day_midnight, startDay_saturday hday]
    · exact hstart
    · rw [Int.sub_add_cancel]
      exact hkept
  rw [DateValue.range_eq_ok_iff, hopening, hclosing]
  refine ⟨hstart, hweek.isKept ?_ ?_, rfl⟩ <;> simp only [day_midnight, startDay_saturday hday] <;>
    omega

end Limits

/-- The number of a week is read exactly if the present week and the first week of the present
year are kept and the year has so many Saturdays, and then it stands for the week from the Sunday
before the Saturday with this number. A week has a number exactly if it and the first week of the
year of its Saturday are kept: the place of the Saturday in that year. The number is at most 53,
it is one for the week of a first of January, and it grows by one in all other weeks. -/
theorem week_numbers_count_saturdays (hlength : digits.length = 1 ∨ digits.length = 2)
    (hdigits : ∀ c ∈ digits, c.isDigit = true) (now t : Instant) :
    ((∃ d, DateValue.parse now ("week ".toList ++ digits) = .ok (some d)) ↔
      (now.WeekKept ∧ (Granularity.week.start (Granularity.year.start now)).IsKept) ∧
        1 ≤ Decimal.natOfDigits digits ∧
          Decimal.natOfDigits digits ≤ (saturdays (yearOf now.day)).length) ∧
    (∀ d, DateValue.parse now ("week ".toList ++ digits) = .ok (some d) →
      ∃ s, (saturdays (yearOf now.day))[Decimal.natOfDigits digits - 1]? = some s ∧
        d.instant = .midnight (s - 6) ∧ d.granularity = some .week ∧
        d.range = .ok (.midnight (s - 6), .midnight (s + 1))) ∧
    ((∃ n, weekNumberAt t = .ok n) ↔ t.WeekKept ∧ (Instant.midnight (Granularity.week.startDay
      (yearStart (yearOf (saturdayOf t.day))))).IsKept) ∧
    (∀ n, weekNumberAt t = .ok n →
      (saturdayOf t.day ∈ saturdays (yearOf (saturdayOf t.day)) ∧
        n = (saturdays (yearOf (saturdayOf t.day))).idxOf (saturdayOf t.day) + 1) ∧
      (1 ≤ n ∧ n ≤ 53) ∧
      (n = 1 ↔ ∃ y, Granularity.week.startDay (yearStart y) = Granularity.week.startDay t.day) ∧
      ∀ u n', u.day = t.day + 7 → weekNumberAt u = .ok n' →
        (∀ y, Granularity.week.startDay (yearStart y) ≠ Granularity.week.startDay u.day) →
          n' = n + 1) := by
  have hne : digits ≠ [] := by
    rintro rfl
    simp at hlength
  have hparse {d : DateValue} : DateValue.parse now ("week ".toList ++ digits) = .ok (some d) ↔ _ :=
    parse_week_digits_iff hne (by omega) hdigits
  refine ⟨?_, fun d hd => ?_, ?_, fun n hn => ?_⟩
  · simp only [hparse]
    constructor
    · rintro ⟨d, hkept, hn, s, hs, -⟩
      have hlt := (List.getElem?_eq_some_iff.1 hs).1
      exact ⟨hkept, hn, by omega⟩
    · rintro ⟨hkept, hn, hle⟩
      exact ⟨_, hkept, hn, _, getElem?_saturdays (by omega), rfl⟩
  · obtain ⟨⟨hnow, hfirst⟩, hn, s, hs, rfl⟩ := hparse.1 hd
    have hmem := List.mem_of_getElem? hs
    obtain ⟨hstart, hkept, -⟩ := checkWeekNumber_saturday hnow.now_isKept hmem hfirst
    exact ⟨s, hs, rfl, rfl, range_of_saturday hmem hstart hkept⟩
  · simp only [weekNumberAt_eq_ok_iff]
    exact ⟨fun ⟨n, hkept, _⟩ => hkept, fun hkept => ⟨_, hkept, rfl⟩⟩
  · obtain ⟨-, rfl⟩ := weekNumberAt_eq_ok_iff.1 hn
    refine ⟨⟨saturdayOf_mem_saturdays _, weekNumber_eq_idxOf _⟩, weekNumber_bounds _,
      weekNumber_eq_one_iff _, fun u n' hu hn' hyears => ?_⟩
    obtain ⟨-, rfl⟩ := weekNumberAt_eq_ok_iff.1 hn'
    rw [hu] at hyears ⊢
    exact weekNumber_next hyears

theorem week_numbers_count_saturdays_new_year :
    let now : Instant := .midnight (Date.toDay ⟨2022, 6, 1⟩)
    let last : Instant := .midnight (Date.toDay ⟨2022, 12, 31⟩)
    ("53".toList.length = 1 ∨ "53".toList.length = 2) ∧ (∀ c ∈ "53".toList, c.isDigit = true) ∧
    (∃ d, DateValue.parse now "week 53".toList = .ok (some d)) ∧
    (∃ n, weekNumberAt last = .ok n ∧ n ≤ 53) ∧ weekNumberAt (.midnight (last.day + 7)) = .ok 1 := by
  intro now last
  have hlength : "53".toList.length = 1 ∨ "53".toList.length = 2 := .inr rfl
  have hdigits : ∀ c ∈ "53".toList, c.isDigit = true := List.all_eq_true.1 rfl
  have hmany : (saturdays (yearOf now.day)).length = 53 := by
    rw [length_saturdays]
    decide
  obtain ⟨hread, -, hcount, hlast⟩ := week_numbers_count_saturdays hlength hdigits now last
  obtain ⟨-, -, hcount', hnext⟩ :=
    week_numbers_count_saturdays hlength hdigits now (.midnight (last.day + 7))
  obtain ⟨n, hn⟩ := hcount.2 (by decide)
  obtain ⟨n', hn'⟩ := hcount'.2 (by decide)
  obtain rfl : n' = 1 := (hnext n' hn').2.2.1.2 ⟨2023, by decide⟩
  exact ⟨hlength, hdigits, hread.2 ⟨by decide, by decide, Nat.le_of_eq hmany.symm⟩,
    ⟨n, hn, (hlast n hn).2.1.2⟩, hn'⟩

/-- The first year that is kept begins on a Thursday, and the Sunday before is not kept. -/
theorem not_week_numbers_count_saturdays_first_year :
    ¬ ∀ now : Instant, now.IsKept → ∀ digits : List Char,
      (digits.length = 1 ∨ digits.length = 2) → (∀ c ∈ digits, c.isDigit = true) →
        1 ≤ Decimal.natOfDigits digits →
          Decimal.natOfDigits digits ≤ (saturdays (yearOf now.day)).length →
            ∃ d, DateValue.parse now ("week ".toList ++ digits) = .ok (some d) := by
  intro h
  let now : Instant := .midnight (Date.toDay ⟨-262143, 6, 15⟩)
  have hmany : (saturdays (yearOf now.day)).length = 52 := by
    rw [length_saturdays]
    decide
  obtain ⟨d, hd⟩ := h now (by decide) "5".toList (.inl rfl) (List.all_eq_true.1 rfl) (by decide)
    (by rw [hmany]; decide)
  obtain ⟨⟨-, hfirst⟩, -⟩ := (parse_week_digits_iff (List.cons_ne_nil _ _) (by decide)
    (List.all_eq_true.1 rfl)).1 hd
  exact absurd hfirst (by decide)

end SearchBar.Calendar
