import SearchBar.Proofs.Calendar.Timestamps

/-! # Wording of periods

A period is read again from what is written for it, and it is written in the words that it
was read from. The only exceptions are words about another period that were read as the
present one, which is written as the present one.
-/

namespace SearchBar.Calendar

open Text

variable {now t : Instant} {text : List Char} {d : DateValue} {p : Pattern} {g : Granularity}

/-- The value was read from words about another period than the present one, and yet it is
the present one: a step back out of a leap second that ends its day falls one day short,
and no step leads out of the years that are kept. -/
def DateValue.IsMisread (now : Instant) (d : DateValue) : Prop :=
  d.format = some "yesterday" ∧ now.endsDay = true ∨
  d.format = some (phrase "last" .week) ∧ now.endsDay = true ∧ weekday now.day = 6 ∨
  d.format = some (phrase "next" .month) ∧
    yearKept (((Date.ofDay now.day).monthIndex + 1) / 12) = false ∨
  d.format = some (phrase "last" .year) ∧ yearKept (yearOf now.day - 1) = false ∨
  d.format = some (phrase "next" .year) ∧ yearKept (yearOf now.day + 1) = false

instance (now : Instant) (d : DateValue) : Decidable (d.IsMisread now) :=
  inferInstanceAs (Decidable (_ ∨ _ ∨ _ ∨ _ ∨ _))

/-- The words are the same, except that the number of a week loses the zero in front of it. -/
def Rewords (read written : List Char) : Prop :=
  written = read ∨ ∃ c, read = "week 0".toList ++ [c] ∧ written = "week ".toList ++ [c]

section Misreading

theorem start_day_eq_addDays_iff (now : Instant) {w : String × Int} (hw : w ∈ dayWords) :
    Granularity.day.start now = Granularity.day.start (now.addDays w.2) ↔
      w.1 = "today" ∨ w.1 = "yesterday" ∧ now.endsDay = true := by
  have hyesterday := addDays_day_of_neg (t := now) (n := -1) (by decide)
  have htomorrow := addDays_day_of_nonneg (t := now) (n := 1) (by decide)
  rw [start_day_eq_iff]
  simp only [dayWords, List.mem_cons, List.not_mem_nil, or_false] at hw
  rcases hw with rfl | rfl | rfl
  · simp [Instant.addDays]
  · rw [hyesterday]
    cases now.endsDay with
    | false => exact iff_of_false (by simp only [Bool.false_eq_true, if_false]; omega) (by simp)
    | true => exact iff_of_true (by simp only [if_true]; omega) (by simp)
  · rw [htomorrow]
    exact iff_of_false (by omega) (by simp)

theorem isMisread_dayWord_iff {w : String × Int} (hw : w ∈ dayWords) :
    (tagged t .day w.1).IsMisread now ↔
      w.1 ≠ "today" ∧ Granularity.day.start now = Granularity.day.start (now.addDays w.2) := by
  rw [start_day_eq_addDays_iff now hw]
  simp only [dayWords, List.mem_cons, List.not_mem_nil, or_false] at hw
  rcases hw with rfl | rfl | rfl <;>
    simp [DateValue.IsMisread, tagged, phrase, Granularity.name]

theorem start_week_eq_last_iff : Granularity.week.start now =
    Granularity.week.start (now.addDays (-7)) ↔ now.endsDay = true ∧ weekday now.day = 6 := by
  rw [Granularity.start_eq_iff, addDays_day_of_neg (by decide)]
  simp only [Granularity.startDay, weekday]
  cases now.endsDay <;> simp <;> omega

theorem start_week_ne_next :
    Granularity.week.start now ≠ Granularity.week.start (now.addDays 7) := by
  rw [ne_eq, Granularity.start_eq_iff, addDays_day_of_nonneg (by decide)]
  simp only [Granularity.startDay, weekday]
  omega

theorem start_month_ne_last : Granularity.month.start now ≠
    Granularity.month.start ((Granularity.month.start now).addDays (-2)) := by
  rw [ne_eq, Granularity.start_eq_iff, Granularity.start, Instant.addDays_midnight, day_midnight]
  have hle := Granularity.startDay_le .month (Granularity.month.startDay now.day + -2)
  omega

theorem start_month_eq_next_iff :
    Granularity.month.start now = Granularity.month.start (Granularity.month.next now) ↔
      yearKept (((Date.ofDay now.day).monthIndex + 1) / 12) = false := by
  rw [Granularity.start_eq_iff, Granularity.startDay_month, Granularity.next_eq_shift,
    Granularity.shift, start_month_eq, shiftMonths_firstOfMonth, day_midnight,
    startDay_month_firstOfMonth]
  cases yearKept (((Date.ofDay now.day).monthIndex + 1) / 12) with
  | false => simp
  | true =>
    have hlt := toDay_firstOfMonth_lt (Date.ofDay now.day).monthIndex
    simp only [if_true, Bool.true_eq_false, iff_false]
    omega

theorem yearStart_eq_iff {y z : Int} : yearStart y = yearStart z ↔ y = z := by
  constructor
  · intro h
    rcases Int.lt_trichotomy y z with hlt | heq | hlt
    · exact absurd h (Int.ne_of_lt (yearStart_lt hlt))
    · exact heq
    · exact absurd h.symm (Int.ne_of_lt (yearStart_lt hlt))
  · rintro rfl
    rfl

theorem start_year_eq_shift_iff {n : Int} (hn : n ≠ 0) :
    Granularity.year.start now =
        Granularity.year.start (Granularity.year.shift (Granularity.year.start now) n) ↔
      yearKept (yearOf now.day + n) = false := by
  have hyear : (12 * yearOf now.day + 12 * n) / 12 = yearOf now.day + n := by omega
  have hstart : Granularity.year.startDay now.day = yearStart (yearOf now.day) := rfl
  rw [Granularity.start_eq_iff, Granularity.shift, start_year_eq, shiftMonths_firstOfMonth,
    day_midnight, startDay_year_firstOfMonth, hstart, yearStart_eq_iff, hyear]
  cases yearKept (yearOf now.day + n) with
  | false => simp
  | true =>
    simp only [if_true, hyear, Bool.true_eq_false, iff_false]
    omega

theorem isMisread_phrase_iff {w : String × Instant} (hw : w ∈ neighbours now g) :
    (tagged t g (phrase w.1 g)).IsMisread now ↔ w.1 ≠ "this" ∧ g.start now = g.start w.2 := by
  cases g with
  | day => simp [neighbours] at hw
  | week =>
    simp only [neighbours, List.mem_cons, List.not_mem_nil, or_false] at hw
    rcases hw with rfl | rfl | rfl
    · simp [DateValue.IsMisread, tagged, phrase, Granularity.name]
    · simp [DateValue.IsMisread, tagged, phrase, Granularity.name, Granularity.shift,
        start_week_eq_last_iff]
    · simp [DateValue.IsMisread, tagged, phrase, Granularity.name, Granularity.shift,
        start_week_ne_next]
  | month =>
    simp only [neighbours, List.mem_cons, List.not_mem_nil, or_false] at hw
    rcases hw with rfl | rfl | rfl
    · simp [DateValue.IsMisread, tagged, phrase, Granularity.name]
    · simp [DateValue.IsMisread, tagged, phrase, Granularity.name, start_month_ne_last]
    · simp [DateValue.IsMisread, tagged, phrase, Granularity.name, start_month_eq_next_iff]
  | year =>
    simp only [neighbours, List.mem_cons, List.not_mem_nil, or_false] at hw
    rcases hw with rfl | rfl | rfl
    · simp [DateValue.IsMisread, tagged, phrase, Granularity.name]
    · simp [DateValue.IsMisread, tagged, phrase, Granularity.name,
        start_year_eq_shift_iff (n := -1), Int.sub_eq_add_neg]
    · simp [DateValue.IsMisread, tagged, phrase, Granularity.name, Granularity.next_eq_shift,
        start_year_eq_shift_iff (n := 1)]

theorem not_isMisread_of_format {format : String}
    (h : format = weekFormat ∨ ∃ p ∈ Pattern.all, p.name = format) :
    ¬ (tagged t g format).IsMisread now := by
  have hall : ((weekFormat :: Pattern.all.map Pattern.name).all fun f =>
      f != "yesterday" && f != phrase "last" .week && f != phrase "next" .month &&
        f != phrase "last" .year && f != phrase "next" .year) = true := by decide
  have hmem : format ∈ weekFormat :: Pattern.all.map Pattern.name := by
    rcases h with rfl | ⟨p, hp, rfl⟩
    · exact List.mem_cons_self
    · exact List.mem_cons_of_mem _ (List.mem_map_of_mem hp)
  have hno := List.all_eq_true.1 hall format hmem
  simp only [Bool.and_eq_true, bne_iff_ne] at hno
  simp [DateValue.IsMisread, tagged, hno]

end Misreading

section Rewording

theorem rewords_self (cs : List Char) : Rewords cs cs := .inl rfl

theorem rewords_digits {ds : List Char} (hne : ds ≠ []) (hlength : ds.length ≤ 2)
    (hdigits : ∀ c ∈ ds, c.isDigit = true) :
    Rewords ("week ".toList ++ ds) ("week ".toList ++ Decimal.digitsOfNat (Decimal.natOfDigits ds)) := by
  have hone : ((List.range 10).all fun a =>
      Decimal.digitsOfNat (Decimal.natOfDigits [Nat.digitChar a]) == [Nat.digitChar a]) = true := by
    decide
  have htwo : ((List.range 10).all fun a => (List.range 10).all fun b =>
      Decimal.digitsOfNat (Decimal.natOfDigits [Nat.digitChar a, Nat.digitChar b]) ==
        if a = 0 then [Nat.digitChar b] else [Nat.digitChar a, Nat.digitChar b]) = true := by
    decide
  match ds with
  | [] => exact absurd rfl hne
  | [c] =>
    obtain ⟨a, ha, rfl⟩ := exists_digitChar (hdigits c List.mem_cons_self)
    rw [beq_iff_eq.1 (List.all_eq_true.1 hone a (List.mem_range.2 ha))]
    exact rewords_self _
  | [c, e] =>
    obtain ⟨a, ha, rfl⟩ := exists_digitChar (hdigits c List.mem_cons_self)
    obtain ⟨b, hb, rfl⟩ := exists_digitChar (hdigits e (by simp))
    rw [beq_iff_eq.1 (List.all_eq_true.1 (List.all_eq_true.1 htwo a (List.mem_range.2 ha)) b
      (List.mem_range.2 hb))]
    split
    · rename_i hzero
      subst hzero
      exact .inr ⟨Nat.digitChar b, rfl, rfl⟩
    · exact rewords_self _
  | _ :: _ :: _ :: _ =>
    simp only [List.length_cons] at hlength
    omega

/-- The sign for kelvins is lowered to a letter as well. -/
theorem lower_of_takeWeekWord {digits : List Char} (h : takeWeekWord? text = some digits)
    (hdigits : ∀ c ∈ digits, c.isDigit = true) : lower text = "week ".toList ++ digits := by
  obtain ⟨w, e, e', k, rfl, hw, he, he', hk⟩ := takeWeekWord?_eq_some h
  have hkelvin : k ≠ '\u03a3' ∧ lowerChar k = ['k'] := by
    rcases hk with hk | rfl
    · have hlt : k.toNat < 128 := toNat_lt_of_toLower (by decide) hk
      refine ⟨?_, by rw [lowerChar, if_pos hlt, hk]⟩
      rintro rfl
      exact absurd hlt (by decide)
    · decide
  rw [lower, lowerAfter_cons_of_ascii (toNat_lt_of_toLower (by decide) hw),
    lowerAfter_cons_of_ascii (toNat_lt_of_toLower (by decide) he),
    lowerAfter_cons_of_ascii (toNat_lt_of_toLower (by decide) he'), lowerAfter_cons hkelvin.1,
    lowerAfter_cons_of_ascii (by decide), lowerAfter_of_ascii _ fun c hc => toNat_lt_of_isDigit (hdigits c hc),
    map_toLower_of_all_isDigit hdigits, hw, he, he', hkelvin.2]
  rfl

end Rewording

section Rereading

theorem readPeriod?_of_granularity (h : readTrimmed? now text = some d)
    (hperiod : d.granularity.isSome = true) : readPeriod? now text = some d := by
  rw [readTrimmed?_eq] at h
  simp only [Option.orElse_eq_orElse, Option.orElse_eq_or, Option.or_eq_some_iff] at h
  rcases h with h | ⟨-, h | ⟨-, h⟩⟩
  · exact h
  · obtain ⟨p, -, t, rfl, -⟩ := readTime?_eq_some h
    exact absurd hperiod Bool.false_ne_true
  · rcases readTimestamp?_eq_some h with ⟨t, rfl, -⟩ | ⟨t, rfl, -⟩ | ⟨-, h⟩
    · exact absurd hperiod Bool.false_ne_true
    · exact absurd hperiod Bool.false_ne_true
    · obtain ⟨p, -, t, rfl, -⟩ := readTimestampPattern?_eq_some h
      exact absurd hperiod Bool.false_ne_true

/-- A word is kept unless it gives way to the one for the present period. -/
theorem keeps_word_iff (form : String → String) {there word : String} {c : Prop} [Decidable c]
    (hform : form there = form word → there = word) (htext : lower text = (form word).toList)
    (hlower : lower (form word).toList = (form word).toList) :
    some (form (if c then there else word)) = some (form word) ∧
        Rewords (lower text) (lower (form (if c then there else word)).toList) ↔
      ¬ (word ≠ there ∧ c) := by
  constructor
  · rintro ⟨hsame, -⟩ ⟨hne, hc⟩
    rw [if_pos hc] at hsame
    exact hne (hform (Option.some.inj hsame)).symm
  · intro h
    have hword : (if c then there else word) = word := by
      split
      · rename_i hc
        exact (Decidable.of_not_not fun hne => h ⟨hne, hc⟩).symm
      · rfl
    rw [hword, hlower, htext]
    exact ⟨rfl, rewords_self _⟩

theorem exists_read_write_iff (htrim : trim text = text) (h : readPeriod? now text = some d) :
    ∃ d', DateValue.read? now (d.write now none) = some d' ∧ (d' == d) = true ∧
      (d'.format = d.format ∧ Rewords (lower text) (lower (d.write now none)) ↔
        ¬ d.IsMisread now) := by
  cases periodForm_of_readPeriod h with
  | @pattern g p day hp htext =>
    have hall := Pattern.mem_all_of_mem_periods hp
    have hwrite : DateValue.write now none (tagged (.midnight day) g p.name) =
        p.write (.midnight day) := write_of_pattern hall now _ _
    have hlower := apply_of_sameLetters lower_map_toLower htext
    refine ⟨_, hwrite ▸ read?_of_written htrim htext h, DateValue.beq_iff.2 ⟨rfl, rfl⟩, ?_⟩
    rw [hwrite, hlower]
    exact iff_of_true ⟨rfl, rewords_self _⟩ (not_isMisread_of_format (.inr ⟨p, hall, rfl⟩))
  | @dayWord w hw htext =>
    have hall : (dayWords.all fun w => lower w.1.toList == w.1.toList) = true := by decide
    have hwrite : DateValue.write now none
        (tagged (Granularity.day.start (now.addDays w.2)) .day w.1) = _ := writeDay_dayWord now hw
    refine ⟨_, read?_write_dayWord now hw, DateValue.beq_iff.2 ⟨rfl, rfl⟩, ?_⟩
    rw [isMisread_dayWord_iff hw, hwrite]
    exact keeps_word_iff id id htext (beq_iff_eq.1 (List.all_eq_true.1 hall w hw))
  | @phrase g w hw htext =>
    have hword := mem_periodWords_of_mem_neighbours hw
    have hthis : "this" ∈ periodWords := by simp [periodWords]
    have hlower : (phrase w.1 g).toList = lower (phrase w.1 g).toList :=
      (phrase_eq_lower_iff hword hword g g).2 ⟨rfl, rfl⟩
    have hform (heq : phrase "this" g = phrase w.1 g) : "this" = w.1 :=
      ((phrase_eq_lower_iff hthis hword g g).1 (heq ▸ hlower)).1
    refine ⟨_, read?_write_phrase hw, DateValue.beq_iff.2 ⟨rfl, rfl⟩, ?_⟩
    rw [isMisread_phrase_iff hw, write_phrase hw]
    exact keeps_word_iff (phrase · g) hform htext hlower.symm
  | @week n digits htext hdigits hn hday =>
    rw [readPeriod?_of_takeWeekWord htext] at h
    obtain ⟨ds, hds, hne, hlength, hall, -, -, hnumber, -⟩ := readWeekNumber?_eq_some h
    obtain rfl := Option.some.inj (htext.symm.trans hds)
    obtain rfl : n = Decimal.natOfDigits digits := Int.ofNat_inj.1 (hday.symm.trans hnumber)
    have hwrite := write_week now (t := .midnight _) hday
    have hlower : lower ("week ".toList ++ Decimal.digitsOfNat (Decimal.natOfDigits digits)) = _ :=
      lower_of_takeWeekWord rfl fun _ => Decimal.isDigit_of_mem_digitsOfNat
    refine ⟨_, hwrite ▸ read?_week hn hday, DateValue.beq_iff.2 ⟨rfl, rfl⟩, ?_⟩
    rw [hwrite, hlower, lower_of_takeWeekWord htext hall]
    exact iff_of_true ⟨rfl, rewords_digits hne hlength hall⟩ (not_isMisread_of_format (.inl rfl))

/-- A period is read again from what is written for it as the same period, and exactly if it
was not misread, it keeps its form and the words that it was read from. -/
theorem read_write_period_iff (h : DateValue.read? now text = some d)
    (hperiod : d.granularity.isSome = true) :
    ∃ d', DateValue.read? now (d.write now none) = some d' ∧ (d' == d) = true ∧
      (d'.format = d.format ∧ Rewords (lower (trim text)) (lower (d.write now none)) ↔
        ¬ d.IsMisread now) :=
  exists_read_write_iff (trim_trim text) (readPeriod?_of_granularity h hperiod)

/-- A leap second that ended a Saturday and a year. -/
def leapSecond : Instant := ⟨Date.toDay ⟨2016, 12, 31⟩, Fin.last 86399, ⟨1000000000, by decide⟩⟩

end Rereading

end SearchBar.Calendar
