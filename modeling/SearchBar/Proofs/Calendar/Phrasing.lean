import SearchBar.Proofs.Calendar.Steps

/-! # Phrasing within the limits

What was read as a period is written and read again within the limits, except for words about
the next day, week or month at the beginning of the calendar: the writer compares the period
with the one before the present one first, and that one is not kept.
-/

namespace SearchBar.Calendar

open Text

variable {now t : Instant} {text : List Char} {d : DateValue} {g : Granularity}

/-- The value was read from a word for a step forward, and a step back leaves the calendar. -/
def DateValue.IsCutOff (now : Instant) (d : DateValue) : Prop :=
  d.format = some "tomorrow" ∧ ¬ (now.addDays (-1)).IsKept ∨
  d.format = some (phrase "next" .week) ∧ ¬ Granularity.week.IsKeptAhead (-1) now ∨
  d.format = some (phrase "next" .month) ∧ ¬ Granularity.month.IsKeptAhead (-1) now

instance (now : Instant) (d : DateValue) : Decidable (d.IsCutOff now) :=
  inferInstanceAs (Decidable (_ ∨ _ ∨ _))

section CutOff

theorem not_isCutOff_of_format {format : String}
    (h : format = weekFormat ∨ ∃ p ∈ Pattern.all, p.name = format) :
    ¬ (tagged t g format).IsCutOff now := by
  have hall : ((weekFormat :: Pattern.all.map Pattern.name).all fun f =>
      f != "tomorrow" && f != phrase "next" .week && f != phrase "next" .month) = true := by decide
  have hmem : format ∈ weekFormat :: Pattern.all.map Pattern.name := by
    rcases h with rfl | ⟨p, hp, rfl⟩
    · exact List.mem_cons_self
    · exact List.mem_cons_of_mem _ (List.mem_map_of_mem hp)
  have hno := List.all_eq_true.1 hall format hmem
  simp only [Bool.and_eq_true, bne_iff_ne] at hno
  simp [DateValue.IsCutOff, tagged, hno]

theorem isCutOff_dayWord_iff {w : String × Int} (hw : w ∈ dayWords) :
    (tagged t .day w.1).IsCutOff now ↔ w.1 = "tomorrow" ∧ ¬ (now.addDays (-1)).IsKept := by
  simp only [dayWords, List.mem_cons, List.not_mem_nil, or_false] at hw
  rcases hw with rfl | rfl | rfl <;> simp [DateValue.IsCutOff, tagged, phrase, Granularity.name]

theorem isCutOff_phrase_iff {w : String × Instant} (hw : w ∈ neighbours now g) :
    (tagged t g (phrase w.1 g)).IsCutOff now ↔
      w.1 = "next" ∧ (g = .week ∨ g = .month) ∧ ¬ g.IsKeptAhead (-1) now := by
  have hword := mem_periodWords_of_mem_neighbours hw
  simp only [periodWords, List.mem_cons, List.not_mem_nil, or_false] at hword
  rcases hword with hword | hword | hword <;> cases g <;>
    simp [DateValue.IsCutOff, tagged, phrase, Granularity.name, hword]

/-- The next month is the present one at the end of the calendar only. -/
theorem isKeptAhead_of_start_month (hnow : now.IsKept)
    (h : Granularity.month.start now = Granularity.month.start (Granularity.month.next now)) :
    Granularity.month.IsKeptAhead (-1) now := by
  have hstart := isKept_start (g := .month) (by decide) hnow
  have hnext := start_month_eq_next_iff.1 h
  rw [start_month_eq, Instant.IsKept, day_midnight, Granularity.yearOf_firstOfMonth] at hstart
  rw [Granularity.IsKeptAhead, Granularity.startDayAhead, Granularity.yearOf_firstOfMonth]
  simp only [yearKept, Bool.and_eq_true, Bool.and_eq_false_iff, decide_eq_true_eq,
    decide_eq_false_iff_not] at hstart hnext ⊢
  omega

end CutOff

section Writing

theorem checkWrite_dayWord_iff {w : String × Int} (hw : w ∈ dayWords) (h : (now.addDays w.2).IsKept) :
    DateValue.checkWrite now none (tagged (Granularity.day.start (now.addDays w.2)) .day w.1) = .ok () ↔
      ¬ (w.1 = "tomorrow" ∧ ¬ (now.addDays (-1)).IsKept) := by
  have hcheck : DateValue.checkWrite now none (tagged (Granularity.day.start (now.addDays w.2)) .day w.1) =
      checkWriteDay now (Granularity.day.start (now.addDays w.2)) w.1 := rfl
  rw [hcheck, checkWriteDay_iff hw, Granularity.start_start]
  have htoday := start_day_eq_addDays_iff now hw
  simp only [dayWords, List.mem_cons, List.not_mem_nil, or_false] at hw
  rcases hw with rfl | rfl | rfl
  · simp [htoday]
  · simp [h]
  · simp [htoday, h]

theorem checkWrite_weekNumber (now t : Instant) :
    DateValue.checkWrite now none (tagged t .week weekFormat) = checkWeekNumber t := by
  have hnear : (periodWords.any fun w =>
      sameLetters (phrase w .week).toList weekFormat.toList) = false := by decide
  have hcheck : DateValue.checkWrite now none (tagged t .week weekFormat) =
      checkWritePeriod now .week t weekFormat := rfl
  rw [hcheck, checkWritePeriod, hnear, if_neg Bool.false_ne_true]
  rfl

theorem checkWritePeriod_iff_of_weekKept (hg : g ≠ .day) {word : String} (hword : word ∈ periodWords)
    (hnow : now.WeekKept) (hkept : (g.start t).IsKept) :
    checkWritePeriod now g (g.start t) (phrase word g) = .ok () ↔
      g.start now = g.start t ∨ g = .year ∨ g.IsKeptAhead (-1) now := by
  obtain ⟨hnext, hlast, hbehind, hstart⟩ := kept_ahead hg hnow
  have hnowStart : (g.start now).IsKept := by
    by_cases hweek : g = .week
    · subst hweek
      exact hnow.1
    · exact isKept_start hweek hnow.now_isKept
  rw [checkWritePeriod_iff hword, Granularity.start_start]
  simp only [hnowStart, hkept, hnext, hlast, hbehind, hstart, and_self, true_and, or_true, and_true]
  refine or_congr_right ?_
  cases g with
  | day => exact absurd rfl hg
  | year => exact iff_of_true (kept_behind_year hnow.now_isKept) (.inl rfl)
  | week | month =>
    rw [← isKeptAhead_iff_slack (by simp)]
    simp only [reduceCtorEq, false_or, and_iff_right_iff_imp]
    exact isKept_slack_start (by simp) hnow.now_isKept

theorem checkWrite_phrase_iff {w : String × Instant} (hw : w ∈ neighbours now g) (hnow : now.WeekKept)
    (hkept : (g.start w.2).IsKept) :
    DateValue.checkWrite now none (tagged (g.start w.2) g (phrase w.1 g)) = .ok () ↔
      ¬ (w.1 = "next" ∧ (g = .week ∨ g = .month) ∧ ¬ g.IsKeptAhead (-1) now) := by
  obtain ⟨hg, hcases⟩ := neighbours_cases hw
  have hcheck : DateValue.checkWrite now none (tagged (g.start w.2) g (phrase w.1 g)) =
      checkWritePeriod now g (g.start w.2) (phrase w.1 g) := by
    cases g with
    | day => exact absurd rfl hg
    | week | month | year => rfl
  rw [hcheck, checkWritePeriod_iff_of_weekKept hg (mem_periodWords_of_mem_neighbours hw) hnow hkept]
  by_cases hyear : g = .year
  · subst hyear
    simp
  have hunit : g = .week ∨ g = .month := by
    cases g <;> simp_all
  simp only [hyear, hunit, false_or, true_and, not_and, Decidable.not_not]
  rcases hcases with rfl | ⟨u, rfl⟩ | ⟨u, rfl⟩
  · simp
  · refine iff_of_true ?_ (by simp)
    rcases start_last g hw with h | h
    · exact .inr ((isKeptAhead_iff_slack hunit).2 (h ▸ hkept))
    · exact .inl h
  · simp only [true_implies, or_iff_right_iff_imp]
    intro h
    rcases hunit with rfl | rfl
    · obtain rfl : u = now.addDays 7 := by simpa [neighbours, Granularity.shift] using hw
      exact absurd h start_week_ne_next
    · obtain rfl : u = _ := by simpa [neighbours] using hw
      exact isKeptAhead_of_start_month hnow.now_isKept h

end Writing

section Limits

theorem checkRead_write_pattern {p : Pattern} {day : Int} (hp : p ∈ Pattern.all) (htrim : trim text = text)
    (htext : sameLetters (p.write (.midnight day)) text = true) (h : checkReadTrimmed now text = .ok ()) :
    DateValue.checkRead now (DateValue.write now none (tagged (.midnight day) g p.name)) = .ok () := by
  have hwrite : DateValue.write now none (tagged (.midnight day) g p.name) =
      p.write (.midnight day) := write_of_pattern hp now _ _
  rw [hwrite, DateValue.checkRead, ← h]
  apply apply_of_sameLetters (checkReadTrimmed_map_toLower now)
  rw [sameLetters_iff, ← trim_map_toLower, sameLetters_iff.1 htext, trim_map_toLower, htrim]

theorem checkRead_write_dayWord {w : String × Int} (hw : w ∈ dayWords) (h : (now.addDays w.2).IsKept) :
    DateValue.checkRead now (DateValue.write now none
      (tagged (Granularity.day.start (now.addDays w.2)) .day w.1)) = .ok () := by
  have hwrite : DateValue.write now none (tagged (Granularity.day.start (now.addDays w.2)) .day w.1) = _ :=
    writeDay_dayWord now hw
  rw [hwrite]
  split
  · rename_i htoday
    refine (checkRead_dayWord_iff now (w := ("today", 0)) (by simp [dayWords])).2 ?_
    rw [start_day_eq_iff] at htoday
    rw [Instant.IsKept, addDays_day_of_nonneg (by decide), Int.add_zero, htoday]
    exact h
  · exact (checkRead_dayWord_iff now hw).2 h

theorem checkRead_write_phrase {w : String × Instant} (hw : w ∈ neighbours now g) (hnow : now.WeekKept)
    (hthere : w.2.IsKept) (hkept : (g.start w.2).IsKept) :
    DateValue.checkRead now (DateValue.write now none (tagged (g.start w.2) g (phrase w.1 g))) = .ok () := by
  rw [write_phrase hw]
  split
  · rename_i hthis
    exact (checkRead_phrase_iff (this_mem_neighbours (neighbours_cases hw).1 now)).2
      ⟨hnow, hnow.now_isKept, hthis ▸ hkept⟩
  · exact (checkRead_phrase_iff hw).2 ⟨hnow, hthere, hkept⟩

theorem checkRead_weekDigits {n : Nat} (hn : n ≤ 53) (hread : readWeekDigits? text = some n)
    (h : checkReadTrimmed now text = .ok ()) :
    DateValue.checkRead now ("week ".toList ++ Decimal.digitsOfNat n) = .ok () := by
  have hdigits : ∀ c ∈ Decimal.digitsOfNat n, c.isDigit = true :=
    fun _ => Decimal.isDigit_of_mem_digitsOfNat
  have hreread : readWeekDigits? ("week ".toList ++ Decimal.digitsOfNat n) = some n :=
    readWeekDigits?_eq_some.2 ⟨_, rfl, Decimal.digitsOfNat_ne_nil _,
      (Nat.length_toDigits_le_iff (by decide) (by decide)).2 (by omega), hdigits,
      Decimal.natOfDigits_digitsOfNat _⟩
  rw [checkRead_of_trim (trim_weekDigits (Decimal.digitsOfNat_ne_nil _) hdigits)]
  exact (checkReadTrimmed_weekDigits_iff hreread).2 ((checkReadTrimmed_weekDigits_iff hread).1 h)

/-- The check for a written period, and the check for reading it again. -/
theorem check_write_iff (htrim : trim text = text) (h : readPeriod? now text = some d)
    (hcheck : checkReadTrimmed now text = .ok ()) :
    (d.checkWrite now none = .ok () ↔ ¬ d.IsCutOff now) ∧
      DateValue.checkRead now (d.write now none) = .ok () := by
  cases periodForm_of_readPeriod h with
  | @pattern g p day hp htext =>
    have hall := Pattern.mem_all_of_mem_periods hp
    exact ⟨iff_of_true (checkWrite_of_pattern hall now _ _)
      (not_isCutOff_of_format (.inr ⟨p, hall, rfl⟩)), checkRead_write_pattern hall htrim htext hcheck⟩
  | @dayWord w hw htext =>
    have hkept := (checkReadTrimmed_dayWord_iff hw htext).1 hcheck
    exact ⟨(checkWrite_dayWord_iff hw hkept).trans (not_congr (isCutOff_dayWord_iff hw)).symm,
      checkRead_write_dayWord hw hkept⟩
  | @phrase g w hw htext =>
    obtain ⟨hnow, hthere, hkept⟩ := (checkReadTrimmed_phrase_iff hw htext h).1 hcheck
    exact ⟨(checkWrite_phrase_iff hw hnow hkept).trans (not_congr (isCutOff_phrase_iff hw)).symm,
      checkRead_write_phrase hw hnow hthere hkept⟩
  | @week n digits htext hdigits hn hday =>
    rw [readPeriod?_of_takeWeekWord htext] at h
    obtain ⟨ds, hds, hne, hlength, hall, -, -, hnumber, -⟩ := readWeekNumber?_eq_some h
    obtain rfl : n = Decimal.natOfDigits ds := Int.ofNat_inj.1 (hday.symm.trans hnumber)
    have hread : readWeekDigits? text = some (Decimal.natOfDigits ds) :=
      readWeekDigits?_eq_some.2 ⟨ds, hds, hne, hlength, hall, rfl⟩
    have hkept := ((checkReadTrimmed_weekDigits_iff hread).1 hcheck).2 hn
    refine ⟨iff_of_true ((checkWrite_weekNumber now _).trans hkept.2.2)
      (not_isCutOff_of_format (.inl rfl)), ?_⟩
    rw [write_week now (t := .midnight _) hday]
    exact checkRead_weekDigits hn.2 hread hcheck

end Limits

section Rereading

/-- A period that was read within the limits is written within them unless the words for a step
forward are cut off. What is written is then read again as the same period, and exactly if it
was not misread, it keeps its form and the words that it was read from. -/
theorem parse_print_period_iff (h : DateValue.parse now text = .ok (some d))
    (hperiod : d.granularity.isSome = true) :
    ((∃ written, d.print now none = .ok written) ↔ ¬ d.IsCutOff now) ∧
      ∀ written, d.print now none = .ok written →
        ∃ d', DateValue.parse now written = .ok (some d') ∧ (d' == d) = true ∧
          (d'.format = d.format ∧ Rewords (lower (trim text)) (lower written) ↔ ¬ d.IsMisread now) := by
  obtain ⟨hcheck, hread⟩ := DateValue.parse_eq_ok_iff.1 h
  obtain ⟨hwrite, hreread⟩ :=
    check_write_iff (trim_trim text) (readPeriod?_of_granularity hread hperiod) hcheck
  refine ⟨?_, fun written hprint => ?_⟩
  · rw [← hwrite]
    exact ⟨fun ⟨written, hprint⟩ => (DateValue.print_eq_ok_iff.1 hprint).1,
      fun hok => ⟨_, DateValue.print_eq_ok_iff.2 ⟨hok, rfl⟩⟩⟩
  · obtain ⟨hok, rfl⟩ := DateValue.print_eq_ok_iff.1 hprint
    obtain ⟨d', hd', hsame, hwords⟩ := read_write_period_iff hread hperiod
    exact ⟨d', DateValue.parse_eq_ok_iff.2 ⟨hreread, hd'⟩, hsame, hwords⟩

theorem parse_print_period_week :
    ∃ d d', DateValue.parse leapSecond " WEE\u212a 07\n".toList = .ok (some d) ∧
      d.granularity.isSome = true ∧ d.print leapSecond none = .ok "week 7".toList ∧
      DateValue.parse leapSecond "week 7".toList = .ok (some d') ∧ (d' == d) = true ∧
      d'.format = d.format := by
  have hyears : leapSecond.YearsKept := by decide
  have hread : DateValue.parse leapSecond " WEE\u212a 07\n".toList = .ok (some
      (tagged (.midnight (Date.toDay ⟨2016, 2, 7⟩)) .week weekFormat)) := parse_of_yearsKept hyears _
  have hwrite : DateValue.write leapSecond none
      (tagged (.midnight (Date.toDay ⟨2016, 2, 7⟩)) .week weekFormat) = "week 7".toList := by decide
  obtain ⟨hprint, hreread⟩ := parse_print_period_iff hread rfl
  obtain ⟨written, hok⟩ := hprint.2 (by decide)
  obtain rfl : "week 7".toList = written := hwrite.symm.trans (DateValue.print_eq_ok_iff.1 hok).2
  obtain ⟨d', hd', hsame, hwords⟩ := hreread _ hok
  exact ⟨_, d', hread, rfl, hok, hd', hsame, (hwords.2 (by decide)).1⟩

/-- Inside that second, yesterday is read as the present day. -/
theorem not_parse_print_period_leap_second :
    ¬ ∀ text d, DateValue.parse leapSecond text = .ok (some d) → d.granularity.isSome = true →
      ∃ written d', d.print leapSecond none = .ok written ∧
        DateValue.parse leapSecond written = .ok (some d') ∧ (d' == d) = true ∧
          d'.format = d.format ∧ Rewords (lower (trim text)) (lower written) := by
  intro h
  have hyears : leapSecond.YearsKept := by decide
  have hread : DateValue.parse leapSecond "yesterday".toList = .ok (some
      (tagged (.midnight leapSecond.day) .day "yesterday")) := parse_of_yearsKept hyears _
  have hwrite : DateValue.write leapSecond none
      (tagged (.midnight leapSecond.day) .day "yesterday") = "today".toList := by decide
  have htoday : DateValue.parse leapSecond "today".toList = .ok (some
      (tagged (.midnight leapSecond.day) .day "today")) := parse_of_yearsKept hyears _
  obtain ⟨written, d', hprint, hd', -, hformat, -⟩ := h _ _ hread rfl
  obtain rfl : "today".toList = written := hwrite.symm.trans (DateValue.print_eq_ok_iff.1 hprint).2
  obtain rfl := Option.some.inj (Except.ok.inj (htoday.symm.trans hd'))
  exact absurd hformat (by decide)

end Rereading

end SearchBar.Calendar
