import SearchBar.Proofs.Calendar.Restating

/-! # Restating weeks

A week that was read from a phrase is written as a phrase for as long as it is near. Any
other week is written as its first day, in the form that a day has, and what is read from
this form is the day and no week.
-/

namespace SearchBar.Calendar

open Text

variable {before now t : Instant} {text : List Char} {d : DateValue} {word : String}

def nearWeeks (now : Instant) : List Int :=
  let first := Granularity.week.startDay now.day
  [first, first - 7, first + 7]

/-- The weeks that phrases stand for at a time, by their first days. A step back out of a
leap second that ends a Saturday does not leave the week. -/
def phraseWeeks (now : Instant) : List Int :=
  let first := Granularity.week.startDay now.day
  if now.endsDay = true ∧ weekday now.day = 6 then [first, first + 7]
  else [first, first - 7, first + 7]

section Phrases

theorem exists_week_of_periodForm (hword : word ∈ periodWords)
    (htext : lower text = (phrase word .week).toList) (h : PeriodForm now text d) :
    ∃ t, (word, t) ∈ neighbours now .week ∧
      d = tagged (Granularity.week.start t) .week (phrase word .week) := by
  have hopens : (periodWords.all fun a => !opensPattern (phrase a .week).toList) = true := by decide
  have hhead : (periodWords.all fun a => (phrase a .week).toList.head? != some 'w') = true := by
    decide
  have hday : (periodWords.all fun a => dayWords.all fun w => phrase a .week != w.1) = true := by
    decide
  cases h with
  | pattern g hp hsame =>
    have hno := List.all_eq_true.1 hopens word hword
    rw [← htext, opensPattern_lower hp hsame] at hno
    exact absurd hno (by decide)
  | @dayWord w hw hword' =>
    have hno := List.all_eq_true.1 (List.all_eq_true.1 hday word hword) w hw
    exact absurd (String.toList_inj.1 (htext.symm.trans hword')) (bne_iff_ne.1 hno)
  | @phrase g w hw hphrase =>
    have hlower : (phrase word .week).toList = lower (phrase word .week).toList :=
      (phrase_eq_lower_iff hword hword .week .week).2 ⟨rfl, rfl⟩
    have hsame := (hphrase.symm.trans htext).trans hlower
    obtain ⟨rfl, rfl⟩ :=
      (phrase_eq_lower_iff (mem_periodWords_of_mem_neighbours hw) hword g .week).1 hsame
    exact ⟨w.2, hw, rfl⟩
  | week hdigits hall _ _ =>
    rw [lower_of_takeWeekWord hdigits (List.all_eq_true.1 hall)] at htext
    have hno := List.all_eq_true.1 hhead word hword
    simp [← htext] at hno

theorem exists_readPeriod_weekPhrase (hword : word ∈ periodWords)
    (htext : lower text = (phrase word .week).toList) (now : Instant) :
    ∃ t, (word, t) ∈ neighbours now .week ∧ readPeriod? now text =
      some (tagged (Granularity.week.start t) .week (phrase word .week)) := by
  have hweek : (readWeek? now text).isSome = true := by
    unfold readWeek?
    simp only [Option.orElse_eq_orElse, Option.orElse_eq_or, Option.isSome_or, Bool.or_eq_true]
    left
    apply isSome_readPhrase hword ?_ htext
    intro a
    split <;> rfl
  have hsome : (readPeriod? now text).isSome = true := by
    simp [readPeriod?, hweek]
  obtain ⟨d, hd⟩ := Option.isSome_iff_exists.1 hsome
  obtain ⟨t, ht, rfl⟩ := exists_week_of_periodForm hword htext (periodForm_of_readPeriod hd)
  exact ⟨t, ht, hd⟩

theorem exists_parse_weekPhrase (hword : word ∈ periodWords)
    (htext : lower (trim text) = (phrase word .week).toList) (now : Instant) :
    ∃ t, (word, t) ∈ neighbours now .week ∧ ∀ r, DateValue.parse now text = .ok r ↔
      (now.WeekKept ∧ t.IsKept ∧ (Granularity.week.start t).IsKept) ∧
        some (tagged (Granularity.week.start t) .week (phrase word .week)) = r := by
  obtain ⟨t, ht, hperiod⟩ := exists_readPeriod_weekPhrase hword htext now
  refine ⟨t, ht, fun r => ?_⟩
  have hread : DateValue.read? now text =
      some (tagged (Granularity.week.start t) .week (phrase word .week)) := by
    rw [DateValue.read?, readTrimmed?_eq, hperiod]
    rfl
  rw [DateValue.parse_eq_ok_iff, hread, DateValue.checkRead,
    checkReadTrimmed_phrase_iff (w := (word, t)) ht htext hperiod]

theorem isKept_of_mem_neighbours (h : now.WeeksKept) (ht : (word, t) ∈ neighbours now .week) :
    t.IsKept ∧ (Granularity.week.start t).IsKept := by
  have hzero : Granularity.week.shift now 0 = now := by simp [Granularity.shift, Instant.addDays]
  have hshift : ∃ w ∈ weekWords, Granularity.week.shift now w.2 = t := by
    simp only [neighbours, List.mem_cons, List.not_mem_nil, or_false, Prod.mk.injEq] at ht
    rcases ht with ⟨-, rfl⟩ | ⟨-, rfl⟩ | ⟨-, rfl⟩ <;> simp [weekWords, hzero]
  obtain ⟨w, hw, rfl⟩ := hshift
  exact checkShift_week hw h

end Phrases

section Writing

theorem start_this_iff : Granularity.week.start now = Granularity.week.start t ↔
    Granularity.week.startDay t.day = Granularity.week.startDay now.day := by
  rw [Granularity.start_eq_iff, eq_comm]

theorem start_slack_last_iff :
    Granularity.week.start (slack .week (Granularity.week.start now) (-2)) =
        Granularity.week.start t ↔
      Granularity.week.startDay t.day = Granularity.week.startDay now.day - 7 := by
  rw [Granularity.start_eq_iff, slack_of_ne_year (by decide), Granularity.shift, Granularity.start,
    Instant.addDays_midnight, day_midnight]
  simp only [Granularity.startDay, weekday]
  omega

theorem start_slack_next_iff :
    Granularity.week.start (slack .week (lastMillisecond .week now) 2) =
        Granularity.week.start t ↔
      Granularity.week.startDay t.day = Granularity.week.startDay now.day + 7 := by
  have hnext : ("next", now.addDays 7) ∈ neighbours now .week := by
    simp [neighbours, Granularity.shift]
  rw [start_next_of_ne_year (by decide) hnext, Granularity.start_eq_iff,
    addDays_day_of_nonneg (by decide)]
  simp only [Granularity.startDay, weekday]
  omega

/-- A week is written by its distance from the present one, or by its first day. -/
theorem write_week_eq (hword : word ∈ periodWords) (now t : Instant) :
    DateValue.write now none (tagged (Granularity.week.start t) .week (phrase word .week)) =
      if Granularity.week.startDay t.day = Granularity.week.startDay now.day then
        (phrase "this" .week).toList
      else if Granularity.week.startDay t.day = Granularity.week.startDay now.day - 7 then
        (phrase "last" .week).toList
      else if Granularity.week.startDay t.day = Granularity.week.startDay now.day + 7 then
        (phrase "next" .week).toList
      else Granularity.day.isoText (Granularity.week.start t) := by
  have hwrite : DateValue.write now none
      (tagged (Granularity.week.start t) .week (phrase word .week)) =
        writePeriod now .week (Granularity.week.start t) (phrase word .week) := rfl
  have hformat : writeFormat (phrase word .week) (Granularity.week.start t) (some .week) =
      Granularity.day.isoText (Granularity.week.start t) :=
    @writeFormat_of_all (periodWords.map (phrase · .week)) (by decide +kernel) _
      (List.mem_map_of_mem hword) _ _
  rw [hwrite, writePeriod_of_mem hword]
  simp only [start_slack_last_iff, start_slack_next_iff, hformat]
  simp only [start_this_iff]

end Writing

section Reading

theorem granularity_ne_week_of_numerals (htext : text.all isNumeral = true)
    (h : readPeriod? now text = some d) : d.granularity ≠ some .week := by
  have hweek : readWeek? now text = none := by
    have hnumber : readWeekNumber? now text = none := by
      cases hword : takeWeekWord? text with
      | none => simp [readWeekNumber?, readWeekDigits?, hword]
      | some digits =>
        obtain ⟨w, e, e', k, rfl, hw, -⟩ := takeWeekWord?_eq_some hword
        have hblank := List.all_eq_true.1 htext ' ' (by simp)
        exact absurd hblank (by decide)
    rw [readWeek?, readPhrase?_of_numerals htext, hnumber]
    rfl
  rcases readPeriod?_eq_some_iff.1 h with h | ⟨-, h | ⟨-, h⟩⟩
  · rw [granularity_of_readDay h]
    decide
  · simp only [Option.orElse_eq_orElse, Option.orElse_eq_or, Option.or_eq_some_iff] at h
    rcases h with h | ⟨-, h⟩
    · rw [granularity_of_readMonth h]
      decide
    · rw [granularity_of_readYear h]
      decide
  · simp [hweek] at h

/-- Whatever the form of a day is read as, it is no week. -/
theorem granularity_ne_week_of_isoText {g : Granularity} {t : Instant}
    (h : DateValue.read? now (g.isoText t) = some d) : d.granularity ≠ some .week := by
  rw [DateValue.read?, trim_isoPeriod] at h
  intro hweek
  have hperiod := readPeriod?_of_granularity h (by rw [hweek]; rfl)
  exact granularity_ne_week_of_numerals (all_isNumeral_isoText g t) hperiod hweek

theorem read?_this_week (now : Instant) : DateValue.read? now (phrase "this" .week).toList =
    some (tagged (Granularity.week.start now) .week (phrase "this" .week)) :=
  read?_phrase (w := ("this", now)) (by simp [neighbours])

theorem read?_last_week (now : Instant) : DateValue.read? now (phrase "last" .week).toList =
    some (tagged (Granularity.week.start (now.addDays (-7))) .week (phrase "last" .week)) :=
  read?_phrase (w := ("last", now.addDays (-7))) (by simp [neighbours, Granularity.shift])

theorem read?_next_week (now : Instant) : DateValue.read? now (phrase "next" .week).toList =
    some (tagged (Granularity.week.start (now.addDays 7)) .week (phrase "next" .week)) :=
  read?_phrase (w := ("next", now.addDays 7)) (by simp [neighbours, Granularity.shift])

theorem startDay_addDays_week : Granularity.week.startDay (now.addDays 7).day =
    Granularity.week.startDay now.day + 7 := by
  rw [addDays_day_of_nonneg (by decide)]
  simp only [Granularity.startDay, weekday]
  omega

theorem startDay_addDays_week_back : Granularity.week.startDay (now.addDays (-7)).day =
    if now.endsDay = true ∧ weekday now.day = 6 then Granularity.week.startDay now.day
    else Granularity.week.startDay now.day - 7 := by
  rw [addDays_day_of_neg (by decide)]
  simp only [Granularity.startDay, weekday]
  cases now.endsDay with
  | false =>
    simp only [Bool.false_eq_true, false_and, if_false]
    omega
  | true =>
    simp only [true_and, if_true]
    split <;> omega

theorem mem_phraseWeeks_iff {day : Int} : day ∈ phraseWeeks now ↔
    day = Granularity.week.startDay now.day ∨
      day = Granularity.week.startDay (now.addDays (-7)).day ∨
      day = Granularity.week.startDay (now.addDays 7).day := by
  rw [startDay_addDays_week_back, startDay_addDays_week]
  unfold phraseWeeks
  dsimp only
  split <;> simp

end Reading

/-- What is written for a week that was read from a phrase is read as this week exactly if
one of the phrases stands for it. -/
theorem exists_read_write_week_iff (hword : word ∈ periodWords) (now t : Instant) :
    (∃ d', DateValue.read? now (DateValue.write now none
        (tagged (Granularity.week.start t) .week (phrase word .week))) = some d' ∧
      (d' == tagged (Granularity.week.start t) .week (phrase word .week)) = true) ↔
      Granularity.week.startDay t.day ∈ phraseWeeks now := by
  have hsame {u : Instant} {format : String} :
      (∃ d', some (tagged (Granularity.week.start u) .week format) = some d' ∧
        (d' == tagged (Granularity.week.start t) .week (phrase word .week)) = true) ↔
        Granularity.week.startDay u.day = Granularity.week.startDay t.day := by
    simp [DateValue.beq_iff, tagged, Granularity.start_eq_iff]
  have hback := @startDay_addDays_week_back now
  have hnext := @startDay_addDays_week now
  rw [write_week_eq hword, mem_phraseWeeks_iff]
  split
  · rename_i hthis
    rw [read?_this_week, hsame]
    exact iff_of_true hthis.symm (.inl hthis)
  · split
    · rename_i hthis hlast
      rw [read?_last_week, hsame]
      constructor
      · exact fun h => .inr (.inl h.symm)
      · rintro (h | h | h)
        · exact absurd h hthis
        · exact h.symm
        · omega
    · split
      · rename_i hnext'
        rw [read?_next_week, hsame]
        exact iff_of_true (hnext.trans hnext'.symm) (.inr (.inr (hnext'.trans hnext.symm)))
      · rename_i hthis hlast hnext'
        refine iff_of_false ?_ ?_
        · rintro ⟨d', hread, hd'⟩
          exact granularity_ne_week_of_isoText hread (DateValue.beq_iff.1 hd').2
        · rintro (h | h | h)
          · exact hthis h
          · rw [hback] at h
            split at h
            · exact hthis h
            · exact hlast h
          · exact hnext' (h.trans hnext)

theorem write_far_week (hword : word ∈ periodWords)
    (hfar : Granularity.week.startDay t.day ∉ nearWeeks now) :
    DateValue.write now none (tagged (Granularity.week.start t) .week (phrase word .week)) =
      Granularity.day.isoText (Granularity.week.start t) := by
  simp only [nearWeeks, List.mem_cons, List.not_mem_nil, or_false, not_or] at hfar
  rw [write_week_eq hword, if_neg hfar.1, if_neg hfar.2.1, if_neg hfar.2.2]

theorem checkRead_isoText_week (hkept : (Granularity.week.start t).IsKept) :
    DateValue.checkRead now (Granularity.day.isoText (Granularity.week.start t)) = .ok () ↔ now.WeekKept := by
  have hiff : DateValue.checkRead now (Granularity.day.isoText
      (Granularity.day.start (Granularity.week.start t))) = .ok () ↔ _ := checkRead_isoText_iff (by decide) hkept
  exact hiff

theorem parse_isoText_week (hnow : now.WeekKept) (hkept : (Granularity.week.start t).IsKept) :
    ∃ d, DateValue.parse now (Granularity.day.isoText (Granularity.week.start t)) = .ok (some d) ∧
      d.instant = Granularity.week.start t ∧ d.granularity = some .day := by
  have hread : DateValue.read? now (Granularity.day.isoText
      (Granularity.day.start (Granularity.week.start t))) = _ := read?_isoText_period (by decide) hkept
  exact ⟨_, DateValue.parse_eq_ok_iff.2 ⟨(checkRead_isoText_week hkept).2 hnow, hread⟩, rfl, rfl⟩

theorem checkRead_write_week (hword : word ∈ periodWords) (hnow : now.WeeksKept)
    (hkept : (Granularity.week.start t).IsKept) : DateValue.checkRead now (DateValue.write now none
      (tagged (Granularity.week.start t) .week (phrase word .week))) = .ok () := by
  have hphrase {a : String} {u : Instant} (hu : (a, u) ∈ neighbours now .week) :
      DateValue.checkRead now (phrase a .week).toList = .ok () :=
    (checkRead_phrase_iff hu).2 ⟨hnow.weekKept, isKept_of_mem_neighbours hnow hu⟩
  rw [write_week_eq hword]
  split
  · exact hphrase (u := now) (by simp [neighbours])
  · split
    · exact hphrase (u := Granularity.week.shift now (-1)) (by simp [neighbours])
    · split
      · exact hphrase (u := Granularity.week.shift now 1) (by simp [neighbours])
      · exact (checkRead_isoText_week hkept).2 hnow.weekKept

/-- A phrase for a week is read as a week wherever the weeks beside the present one are kept.
Where they are kept at another time, the week is written there. For as long as a phrase stands
for it, what is written is read as the same week. If it is not near, its first day is written
in the form of a day and read as this day, which is no week. -/
theorem parse_print_week (hword : word ∈ periodWords)
    (htext : lower (trim text) = (phrase word .week).toList) (before now : Instant) :
    (before.WeeksKept → ∃ d, DateValue.parse before text = .ok (some d)) ∧
    ∀ d, DateValue.parse before text = .ok (some d) → d.granularity = some .week ∧
      (now.WeeksKept → ∃ written, d.print now none = .ok written ∧
        (d.instant.day ∈ phraseWeeks now →
          ∃ d', DateValue.parse now written = .ok (some d') ∧ (d' == d) = true) ∧
        (d.instant.day ∉ nearWeeks now → written = Granularity.day.isoText d.instant ∧
          ∃ d', DateValue.parse now written = .ok (some d') ∧ d'.instant = d.instant ∧
            d'.granularity = some .day ∧ ¬ (d' == d) = true)) := by
  obtain ⟨t, ht, hparse⟩ := exists_parse_weekPhrase hword htext before
  refine ⟨fun hbefore => ⟨_, (hparse _).2
    ⟨⟨hbefore.weekKept, isKept_of_mem_neighbours hbefore ht⟩, rfl⟩⟩, fun d hd => ?_⟩
  obtain ⟨⟨-, -, hkept⟩, hd⟩ := (hparse _).1 hd
  obtain rfl := Option.some.inj hd
  refine ⟨rfl, fun hnow => ?_⟩
  have hcheck : DateValue.checkWrite now none
      (tagged (Granularity.week.start t) .week (phrase word .week)) = .ok () :=
    (checkWritePeriod_iff_of_weekKept (by decide) hword hnow.weekKept hkept).2 (.inr (.inr hnow.1))
  refine ⟨_, DateValue.print_eq_ok_iff.2 ⟨hcheck, rfl⟩, fun hnear => ?_, fun hfar => ?_⟩
  · obtain ⟨d', hread, hsame⟩ := (exists_read_write_week_iff hword now t).2 hnear
    exact ⟨d', DateValue.parse_eq_ok_iff.2 ⟨checkRead_write_week hword hnow hkept, hread⟩, hsame⟩
  · obtain ⟨d', hread, hinstant, hunit⟩ := parse_isoText_week hnow.weekKept hkept
    rw [write_far_week hword hfar]
    refine ⟨rfl, d', hread, hinstant, hunit, fun hsame => ?_⟩
    have hweek := (DateValue.beq_iff.1 hsame).2
    rw [hunit] at hweek
    simp [tagged] at hweek

def marchThursday : Instant :=
  { Instant.midnight (Date.toDay ⟨2024, 3, 14⟩) with second := ⟨54000, by decide⟩ }

theorem parse_print_week_few_days :
    let now : Instant := .midnight (Date.toDay ⟨2024, 3, 18⟩)
    "next" ∈ periodWords ∧
    lower (trim " Next WEE\u212a".toList) = (phrase "next" .week).toList ∧
    ∃ d d', DateValue.parse marchThursday " Next WEE\u212a".toList = .ok (some d) ∧
      d.print now none = .ok "this week".toList ∧
      DateValue.parse now "this week".toList = .ok (some d') ∧ (d' == d) = true := by
  intro now
  have hword : "next" ∈ periodWords := by decide
  have htext : lower (trim " Next WEE\u212a".toList) = (phrase "next" .week).toList := by decide
  have hyears : marchThursday.YearsKept := by decide
  have hread : DateValue.parse marchThursday " Next WEE\u212a".toList = .ok (some
      (tagged (.midnight (Date.toDay ⟨2024, 3, 17⟩)) .week "next week")) := parse_of_yearsKept hyears _
  have hwrite : DateValue.write now none
      (tagged (.midnight (Date.toDay ⟨2024, 3, 17⟩)) .week "next week") = "this week".toList := by
    decide
  obtain ⟨-, hsame⟩ := (parse_print_week hword htext marchThursday now).2 _ hread
  obtain ⟨written, hprint, hnear, -⟩ := hsame (by decide)
  obtain rfl : "this week".toList = written := hwrite.symm.trans (DateValue.print_eq_ok_iff.1 hprint).2
  obtain ⟨d', hd', hsame⟩ := hnear (by decide)
  exact ⟨hword, htext, _, d', hread, hprint, hd', hsame⟩

/-- Three months later the last week is a day. -/
theorem not_parse_print_week_months :
    ¬ ∀ before now : Instant, ∀ word ∈ periodWords, ∀ d,
      DateValue.parse before (phrase word .week).toList = .ok (some d) →
        ∃ written d', d.print now none = .ok written ∧
          DateValue.parse now written = .ok (some d') ∧ (d' == d) = true := by
  intro h
  let now : Instant := .midnight (Date.toDay ⟨2024, 6, 14⟩)
  have hyears : marchThursday.YearsKept := by decide
  have hread : DateValue.parse marchThursday (phrase "last" .week).toList = .ok (some
      (tagged (.midnight (Date.toDay ⟨2024, 3, 3⟩)) .week "last week")) := parse_of_yearsKept hyears _
  have hwrite : DateValue.write now none
      (tagged (.midnight (Date.toDay ⟨2024, 3, 3⟩)) .week "last week") = "2024-03-03".toList := by
    decide
  have hday : DateValue.read? (.midnight (Date.toDay ⟨2024, 6, 14⟩)) "2024-03-03".toList = some
      (tagged (.midnight (Date.toDay ⟨2024, 3, 3⟩)) .day "YYYY-MM-DD") := rfl
  obtain ⟨written, d', hprint, hparse, hsame⟩ := h marchThursday now "last" (by decide) _ hread
  obtain rfl : "2024-03-03".toList = written := hwrite.symm.trans (DateValue.print_eq_ok_iff.1 hprint).2
  obtain rfl := Option.some.inj (hday.symm.trans (DateValue.parse_eq_ok_iff.1 hparse).2)
  exact absurd hsame (by decide)

end SearchBar.Calendar
