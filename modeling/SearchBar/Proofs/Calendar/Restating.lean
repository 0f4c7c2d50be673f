import SearchBar.Proofs.Calendar.IsoPeriods
import SearchBar.Proofs.Calendar.Phrasing

/-! # Restating near days and periods

A near day, month or year that was read at one time is written at another time by its
distance from there, by its name within the week, or in numbers. Whatever is written, it
is read at that time as the same day, month or year.
-/

namespace SearchBar.Calendar

open Text

variable {now t : Instant} {text : List Char} {d : DateValue} {g : Granularity}

/-- The units of near periods that are written in numbers as what they are; a week is written
as its first day. -/
def phraseUnits : List Granularity := [.month, .year]

def nearWords : List String :=
  dayWords.map (·.1) ++ phraseUnits.flatMap fun g => periodWords.map (phrase · g)

section Words

/-- A day, month or year that was read from a word, at whatever time. -/
inductive DateValue.IsNear : DateValue → Prop
  | day {w : String × Int} (hw : w ∈ dayWords) (t : Instant) :
      IsNear (tagged (Granularity.day.start t) .day w.1)
  | period {word : String} {g : Granularity} (hword : word ∈ periodWords) (hg : g ∈ phraseUnits)
      (t : Instant) : IsNear (tagged (g.start t) g (phrase word g))

theorem isSome_readPhrase {instantOf : String → Option Instant} {word : String}
    (hword : word ∈ periodWords) (hinstant : ∀ a, (instantOf a).isSome = true)
    (htext : lower text = (phrase word g).toList) : (readPhrase? text g instantOf).isSome = true := by
  rw [readPhrase?, List.findSome?_isSome_iff]
  refine ⟨word, hword, ?_⟩
  rw [if_pos (by rw [htext, beq_self_eq_true]), Option.isSome_map]
  exact hinstant word

theorem isSome_readPeriod (now : Instant) {word : String} (hword : word ∈ nearWords)
    (htext : lower text = word.toList) : (readPeriod? now text).isSome = true := by
  simp only [readPeriod?, Option.orElse_eq_orElse, Option.orElse_eq_or, Option.isSome_or,
    Bool.or_eq_true]
  simp only [nearWords, List.mem_append, List.mem_map, List.mem_flatMap] at hword
  rcases hword with ⟨w, hw, rfl⟩ | ⟨g, hg, a, ha, rfl⟩
  · left
    have hfind : (dayWords.find? fun w => w.1.toList == lower text).isSome = true :=
      List.find?_isSome.2 ⟨w, hw, by rw [htext, beq_self_eq_true]⟩
    simp [readDay?, readDayWord?, hfind]
  · simp only [phraseUnits, List.mem_cons, List.not_mem_nil, or_false] at hg
    rcases hg with rfl | rfl
    · right; left
      unfold readMonth?
      simp only [Option.orElse_eq_orElse, Option.orElse_eq_or, Option.isSome_or, Bool.or_eq_true]
      left
      apply isSome_readPhrase ha ?_ htext
      intro a
      split <;> rfl
    · right; right; left
      unfold readYear?
      simp only [Option.orElse_eq_orElse, Option.orElse_eq_or, Option.isSome_or, Bool.or_eq_true]
      left
      apply isSome_readPhrase ha ?_ htext
      intro a
      split <;> rfl

theorem opensPattern_lower {p : Pattern} {day : Int} (hp : p ∈ Pattern.periods)
    (h : sameLetters (p.write (.midnight day)) text = true) : opensPattern (lower text) = true := by
  have hascii (c : Char) (hc : c ∈ p.write (.midnight day)) : c.toNat < 128 :=
    toNat_lt_of_isDateChar (isDateChar_of_mem_pattern (Pattern.mem_all_of_mem_periods hp) hc)
  rw [← apply_of_sameLetters lower_map_toLower h, lower, lowerAfter_of_ascii [] hascii,
    opensPattern_map_toLower]
  exact Pattern.opensPattern_write hp (.midnight day)

/-- Only a word stands for a near day, month or year. -/
theorem nearForm_of_periodForm {word : String} (hword : word ∈ nearWords)
    (htext : lower text = word.toList) (h : PeriodForm now text d) :
    (∃ w ∈ dayWords, lower text = w.1.toList ∧
      d = tagged (Granularity.day.start (now.addDays w.2)) .day w.1) ∨
    ∃ g ∈ phraseUnits, ∃ w ∈ neighbours now g, lower text = (phrase w.1 g).toList ∧
      d = tagged (g.start w.2) g (phrase w.1 g) := by
  have hopens : (nearWords.all fun a => !opensPattern a.toList) = true := by decide
  have hhead : (nearWords.all fun a => a.toList.head? != some 'w') = true := by decide
  have hweek : (periodWords.all fun a => !nearWords.contains (phrase a .week)) = true := by decide
  cases h with
  | pattern g hp hsame =>
    have hno := List.all_eq_true.1 hopens word hword
    rw [← htext, opensPattern_lower hp hsame] at hno
    exact absurd hno (by decide)
  | @dayWord w hw hday => exact .inl ⟨w, hw, hday, rfl⟩
  | @phrase g w hw hphrase =>
    refine .inr ⟨g, ?_, w, hw, hphrase, rfl⟩
    cases g with
    | day => exact absurd rfl (neighbours_cases hw).1
    | week =>
      obtain rfl : phrase w.1 .week = word := String.toList_inj.1 (hphrase.symm.trans htext)
      have hno := List.all_eq_true.1 hweek w.1 (mem_periodWords_of_mem_neighbours hw)
      simp [hword] at hno
    | month | year => simp [phraseUnits]
  | @week n digits hdigits hall _ _ =>
    rw [lower_of_takeWeekWord hdigits (List.all_eq_true.1 hall)] at htext
    have hno := List.all_eq_true.1 hhead word hword
    simp [← htext] at hno

theorem readPeriod?_of_read {word : String} (hword : word ∈ nearWords)
    (htext : lower (trim text) = word.toList) (h : DateValue.read? now text = some d) :
    readPeriod? now (trim text) = some d := by
  obtain ⟨d', hd'⟩ := Option.isSome_iff_exists.1 (isSome_readPeriod now hword htext)
  have hread : DateValue.read? now text = some d' := by
    rw [DateValue.read?, readTrimmed?_eq, hd']
    rfl
  rw [hd', ← hread, h]

theorem isNear_of_parse {word : String} (hword : word ∈ nearWords)
    (htext : lower (trim text) = word.toList) (h : DateValue.parse now text = .ok (some d)) :
    d.IsNear ∧ d.instant.IsKept := by
  obtain ⟨hcheck, hread⟩ := DateValue.parse_eq_ok_iff.1 h
  have hperiod := readPeriod?_of_read hword htext hread
  rcases nearForm_of_periodForm hword htext (periodForm_of_readPeriod hperiod) with
    ⟨w, hw, hday, rfl⟩ | ⟨g, hg, w, hw, hphrase, rfl⟩
  · exact ⟨.day hw _, (checkReadTrimmed_dayWord_iff hw hday).1 hcheck⟩
  · obtain ⟨-, -, hkept⟩ := (checkReadTrimmed_phrase_iff hw hphrase hperiod).1 hcheck
    exact ⟨.period (mem_periodWords_of_mem_neighbours hw) hg _, hkept⟩

end Words

section Weekdays

theorem weekday_lt (n : Int) : weekday n < 7 := by
  unfold weekday
  omega

theorem not_sameLetters_short (m n : Int) :
    sameLetters ((weekdayName (weekday m)).take 3) (weekdayName (weekday n)) = false := by
  have hshort : ((List.range 7).all fun a => (List.range 7).all fun b =>
      !sameLetters ((weekdayName a).take 3) (weekdayName b)) = true := by decide
  have hm := List.mem_range.2 (weekday_lt m)
  have hn := List.mem_range.2 (weekday_lt n)
  simpa using List.all_eq_true.1 (List.all_eq_true.1 hshort _ hm) _ hn

theorem weekday_eq_of_sameLetters {p : Pattern} {m n : Int} (hp : p ∈ Pattern.weekdays)
    (h : sameLetters (p.write (.midnight m)) (weekdayName (weekday n)) = true) :
    weekday m = weekday n := by
  have hlong : ((List.range 7).all fun a => (List.range 7).all fun b =>
      sameLetters (weekdayName a) (weekdayName b) == (a == b)) = true := by decide
  have hm := List.mem_range.2 (weekday_lt m)
  have hn := List.mem_range.2 (weekday_lt n)
  simp only [Pattern.weekdays, List.mem_cons, List.not_mem_nil, or_false] at hp
  rcases hp with rfl | rfl
  · simp only [Pattern.write, writeFields, Field.write, List.flatMap_cons, List.flatMap_nil,
      List.append_nil, day_midnight, not_sameLetters_short] at h
    exact absurd h Bool.false_ne_true
  · have hsame := List.all_eq_true.1 (List.all_eq_true.1 hlong _ hm) _ hn
    simp only [Pattern.write, writeFields, Field.write, List.flatMap_cons, List.flatMap_nil,
      List.append_nil, day_midnight] at h
    rw [h, beq_iff_eq] at hsame
    exact beq_iff_eq.1 hsame.symm

theorem exists_readWeekday (h : Granularity.week.start now = Granularity.week.start t) :
    ∃ format, readWeekday? now (Field.write t .weekdayLong) =
      some (tagged (Granularity.day.start t) .day format) := by
  rw [Granularity.start_eq_iff] at h
  have hlt := weekday_lt t.day
  cases hread : readWeekday? now (Field.write t .weekdayLong) with
  | none =>
    have hday : (Granularity.week.start now).addDays (weekday t.day : Nat) = .midnight t.day := by
      rw [Granularity.start, Instant.addDays_midnight, h, Granularity.startDay, Int.sub_add_cancel]
    have hlong := List.findSome?_eq_none_iff.1 hread ⟨"dddd", [.weekdayLong]⟩ (by simp [Pattern.weekdays])
    have hnone := List.findSome?_eq_none_iff.1 hlong _
      (List.mem_map_of_mem (List.mem_range.2 hlt))
    rw [hday] at hnone
    simp [Pattern.write, writeFields, Field.write, Instant.midnight, sameLetters_refl] at hnone
  | some d =>
    obtain ⟨p, hp, hread⟩ := List.exists_of_findSome?_eq_some hread
    obtain ⟨u, hu, hread⟩ := List.exists_of_findSome?_eq_some hread
    obtain ⟨n, hn, rfl⟩ := List.mem_map.1 hu
    split at hread
    · rename_i hname
      obtain rfl := Option.some.inj hread
      rw [Granularity.start, Instant.addDays_midnight] at hname ⊢
      have hweekday := weekday_eq_of_sameLetters hp hname
      have hsame : Granularity.week.startDay now.day + n = t.day := by
        have hn := List.mem_range.1 hn
        simp only [Granularity.startDay, weekday] at h hweekday ⊢
        omega
      exact ⟨p.name, by rw [hsame]; rfl⟩
    · simp at hread

theorem readDayWord?_weekday (t : Instant) :
    readDayWord? now (Field.write t .weekdayLong) = none := by
  have hall : (weekdayNames.all fun n => dayWords.all fun w => w.1.toList != lower n.toList) = true := by
    decide
  obtain ⟨n, hn, hname⟩ := exists_weekdayName t.day
  apply readDayWord?_eq_none
  intro w hw
  rw [Field.write, hname]
  exact bne_iff_ne.1 (List.all_eq_true.1 (List.all_eq_true.1 hall n hn) w hw)

theorem trim_weekday (t : Instant) : trim (Field.write t .weekdayLong) = Field.write t .weekdayLong :=
  trim_of_forall fun _ hc => isBlank_of_isAlpha (isAlpha_of_mem_weekdayName hc)

theorem exists_read_weekday (h : Granularity.week.start now = Granularity.week.start t) :
    ∃ format, DateValue.read? now (Field.write t .weekdayLong) =
      some (tagged (Granularity.day.start t) .day format) := by
  obtain ⟨format, hread⟩ := exists_readWeekday h
  refine ⟨format, read?_of_readPeriod (trim_weekday t) ?_⟩
  rw [readPeriod?, readDay?, readDayWord?_weekday, hread]
  rfl

end Weekdays

section Near

theorem writeFormat_of_all {words : List String} (hall : (words.all fun a => a != isoFormat &&
      a != mailFormat && a != weekFormat && (Pattern.ofName? a).isNone) = true) {word : String}
    (hword : word ∈ words) (t : Instant) (g : Granularity) :
    writeFormat word t (some g) = g.isoText t := by
  have hno := List.all_eq_true.1 hall word hword
  simp only [Bool.and_eq_true, bne_iff_ne, Option.isNone_iff_eq_none] at hno
  obtain ⟨⟨⟨hiso, hmail⟩, hweek⟩, hname⟩ := hno
  unfold writeFormat
  rw [if_neg hiso, if_neg hmail, if_neg hweek, hname]

/-- A word is no name of a form, so what is no longer near is written in numbers. -/
theorem writeFormat_word {word : String} (hword : word ∈ nearWords) (t : Instant)
    (g : Granularity) : writeFormat word t (some g) = g.isoText t :=
  writeFormat_of_all (by decide +kernel) hword t g

theorem exists_read_writeDay (now : Instant) {w : String × Int} (hw : w ∈ dayWords)
    (hkept : (Granularity.day.start t).IsKept) :
    ∃ d, DateValue.read? now (writeDay now (Granularity.day.start t) w.1) = some d ∧
      d.instant = Granularity.day.start t ∧ d.granularity = some .day := by
  have hread {a : String × Int} (ha : a ∈ dayWords)
      (h : Granularity.day.start (now.addDays a.2) = Granularity.day.start t) :
      ∃ d, DateValue.read? now a.1.toList = some d ∧ d.instant = Granularity.day.start t ∧
        d.granularity = some .day := ⟨_, read?_dayWord now ha, h, rfl⟩
  have hzero : now.addDays 0 = now := by simp [Instant.addDays]
  have hword : w.1 ∈ nearWords := List.mem_append_left _ (List.mem_map_of_mem hw)
  -- Each test of the writer is what the reader computes for the word behind it.
  rw [writeDay_of_mem hw]
  split
  · rename_i htoday
    exact hread (a := ("today", 0)) (by simp [dayWords]) (hzero.symm ▸ htoday)
  · split
    · rename_i hyesterday
      exact hread (a := ("yesterday", -1)) (by simp [dayWords]) hyesterday
    · split
      · rename_i htomorrow
        exact hread (a := ("tomorrow", 1)) (by simp [dayWords]) htomorrow
      · split
        · rename_i hweek
          obtain ⟨format, hread⟩ := exists_read_weekday hweek
          rw [Granularity.start_start] at hread
          exact ⟨_, hread, rfl, rfl⟩
        · rw [writeFormat_word hword]
          exact ⟨_, read?_isoText_period (by decide) hkept, rfl, rfl⟩

theorem yearKept_nextYear {y : Int} (h : yearKept y = true) : yearKept (nextYear y) = true := by
  unfold nextYear
  split <;> assumption

theorem start_next_of_isKept (hg : g ∈ phraseUnits) (hnow : now.IsKept)
    (h : ("next", t) ∈ neighbours now g) :
    g.start (slack g (lastMillisecond g now) 2) = g.start t := by
  simp only [phraseUnits, List.mem_cons, List.not_mem_nil, or_false] at hg
  rcases hg with rfl | rfl
  · exact start_next_of_ne_year (by decide) h
  · obtain rfl : t = _ := by simpa [neighbours] using h
    exact start_next_year (yearKept_nextYear hnow)

theorem exists_neighbour (hg : g ∈ phraseUnits) {word : String} (hword : word ∈ periodWords)
    (now : Instant) : ∃ t, (word, t) ∈ neighbours now g := by
  simp only [phraseUnits, periodWords, List.mem_cons, List.not_mem_nil, or_false] at hg hword
  rcases hg with rfl | rfl <;> rcases hword with rfl | rfl | rfl <;> simp [neighbours]

theorem exists_read_writePeriod {word : String} (hword : word ∈ periodWords) (hg : g ∈ phraseUnits)
    (hnow : now.IsKept) (hkept : (g.start t).IsKept) :
    ∃ d, DateValue.read? now (writePeriod now g (g.start t) (phrase word g)) = some d ∧
      d.instant = g.start t ∧ d.granularity = some g := by
  have hne : g ≠ .day ∧ g ≠ .week := by
    simp only [phraseUnits, List.mem_cons, List.not_mem_nil, or_false] at hg
    rcases hg with rfl | rfl <;> decide
  have hread {a : String} {u : Instant} (hu : (a, u) ∈ neighbours now g) (h : g.start u = g.start t) :
      ∃ d, DateValue.read? now (phrase a g).toList = some d ∧ d.instant = g.start t ∧
        d.granularity = some g := ⟨_, read?_phrase (w := (a, u)) hu, h, rfl⟩
  have hphrase : phrase word g ∈ nearWords :=
    List.mem_append_right _ (List.mem_flatMap.2 ⟨g, hg, List.mem_map_of_mem hword⟩)
  obtain ⟨last, hlast⟩ : ∃ u, ("last", u) ∈ neighbours now g :=
    exists_neighbour hg (by simp [periodWords]) now
  obtain ⟨next, hnext⟩ : ∃ u, ("next", u) ∈ neighbours now g :=
    exists_neighbour hg (by simp [periodWords]) now
  -- The slack of the writer and the step of the reader lead into the same period.
  rw [writePeriod_of_mem hword]
  split
  · rename_i hthis
    exact hread (this_mem_neighbours hne.1 now) hthis
  · split
    · rename_i h
      exact hread hlast ((start_last_of_ne_week hne.2 hlast).symm.trans h)
    · split
      · rename_i h
        exact hread hnext ((start_next_of_isKept hg hnow hnext).symm.trans h)
      · rw [writeFormat_word hphrase]
        exact ⟨_, read?_isoText_period hne.2 hkept, rfl, rfl⟩

theorem exists_read_write_of_isNear (hnow : now.IsKept) (hkept : d.instant.IsKept) (h : d.IsNear) :
    ∃ d', DateValue.read? now (d.write now none) = some d' ∧ (d' == d) = true := by
  cases h with
  | day hw t =>
    obtain ⟨d', hread, hinstant, hunit⟩ := exists_read_writeDay now hw hkept
    exact ⟨d', hread, DateValue.beq_iff.2 ⟨hinstant, hunit⟩⟩
  | @period word g hword hg t =>
    obtain ⟨d', hread, hinstant, hunit⟩ := exists_read_writePeriod hword hg hnow hkept
    have hwrite : DateValue.write now none (tagged (g.start t) g (phrase word g)) =
        writePeriod now g (g.start t) (phrase word g) := by
      simp only [phraseUnits, List.mem_cons, List.not_mem_nil, or_false] at hg
      rcases hg with rfl | rfl <;> rfl
    exact ⟨d', hwrite ▸ hread, DateValue.beq_iff.2 ⟨hinstant, hunit⟩⟩

end Near

section Limits

/-- What is compared with the present instant at another time is kept. -/
def DateValue.IsRestatable (now : Instant) (d : DateValue) : Prop :=
  match d.granularity with
  | some .year => now.WeekKept
  | some .month => now.WeekKept ∧
    (Granularity.month.start now = Granularity.month.start d.instant ∨ Granularity.month.IsKeptAhead (-1) now)
  | _ => now.day = d.instant.day ∨ (now.addDays (-1)).day = d.instant.day ∨
    (now.addDays (-1)).IsKept ∧ now.day + 1 = d.instant.day ∨
    now.WeekKept ∧ (Granularity.week.start d.instant).IsKept

theorem checkRead_isoText_iff (hg : g ≠ .week) (hkept : (g.start t).IsKept) :
    DateValue.checkRead now (g.isoText (g.start t)) = .ok () ↔ now.WeekKept := by
  have hread : readPeriod? now _ = _ := readPeriod?_isoText hg hkept
  have hnumerals := all_isNumeral_isoText g (g.start t)
  have hlast : (phrase "last" .month).toList ≠ lower (g.isoText (g.start t)) := by
    intro h
    rw [lower_of_numerals hnumerals] at h
    rw [← h] at hnumerals
    exact absurd hnumerals (by decide)
  rw [checkRead_of_trim (trim_isoPeriod g _),
    checkReadTrimmed_of_ne_week hread (by simpa [tagged] using hg) hlast]
  exact checkReadDay_iff_of_no_name (readDayWord?_of_numerals hnumerals) (readWeekday?_of_numerals hnumerals)

theorem checkRead_weekday_iff (h : Granularity.week.start now = Granularity.week.start t) :
    DateValue.checkRead now (Field.write t .weekdayLong) = .ok () ↔ now.WeekKept := by
  obtain ⟨format, hread⟩ := exists_readWeekday h
  have hday : readDay? now (Field.write t .weekdayLong) =
      some (tagged (Granularity.day.start t) .day format) := by
    rw [readDay?, readDayWord?_weekday, hread]
    rfl
  rw [checkRead_of_trim (trim_weekday t), checkReadTrimmed_of_day hday]
  exact checkReadDay_iff (readDayWord?_weekday t) fun n _ => not_sameLetters_short _ _

theorem checkRead_far_day_iff (now : Instant) {word : String} (hword : word ∈ nearWords)
    (hkept : (Granularity.day.start t).IsKept) :
    DateValue.checkRead now (if Granularity.week.start now = Granularity.week.start t then
      Field.write (Granularity.day.start t) .weekdayLong
      else writeFormat word (Granularity.day.start t) (some .day)) = .ok () ↔ now.WeekKept := by
  split
  · rename_i hsame
    exact checkRead_weekday_iff hsame
  · rw [writeFormat_word hword]
    exact checkRead_isoText_iff (by decide) hkept

theorem isKept_beside (h : now.WeekKept) : (now.addDays (-1)).IsKept ∧ (now.addDays 1).IsKept := by
  have hweek := week_bounds now.day
  have hbefore := day_addDays_bounds now (-1)
  have hbehind := day_addDays_bounds now 1
  exact ⟨h.isKept (by omega) (by omega), h.isKept (by omega) (by omega)⟩

/-- A near day is compared with the present one, then with the ones beside it, and in the end
with the days of the present week. -/
theorem check_writeDay_iff {w : String × Int} (hw : w ∈ dayWords)
    (hkept : (Granularity.day.start t).IsKept) :
    checkWriteDay now (Granularity.day.start t) w.1 = .ok () ∧
        DateValue.checkRead now (writeDay now (Granularity.day.start t) w.1) = .ok () ↔
      now.day = t.day ∨ (now.addDays (-1)).day = t.day ∨
        (now.addDays (-1)).IsKept ∧ now.day + 1 = t.day ∨
        now.WeekKept ∧ (Granularity.week.start t).IsKept := by
  have hword : w.1 ∈ nearWords := List.mem_append_left _ (List.mem_map_of_mem hw)
  have hread {a : String × Int} (ha : a ∈ dayWords) (h : (now.addDays a.2).day = t.day) :
      DateValue.checkRead now a.1.toList = .ok () := by
    rw [checkRead_dayWord_iff now ha, Instant.IsKept, h]
    exact hkept
  have hbehind := addDays_day_of_nonneg (t := now) (n := 1) (by decide)
  have hstart : Granularity.week.start (Granularity.day.start t) = Granularity.week.start t := rfl
  have hday : (Granularity.day.start t).day = t.day := rfl
  rw [checkWriteDay_iff hw, writeDay_of_mem hw]
  simp only [start_day_eq_iff, hstart, hday]
  by_cases htoday : now.day = t.day
  · have htext := hread (a := ("today", 0)) (by simp [dayWords]) (by simpa [Instant.addDays] using htoday)
    simpa [htoday] using htext
  by_cases hyesterday : (now.addDays (-1)).day = t.day
  · have htext := hread (a := ("yesterday", -1)) (by simp [dayWords]) hyesterday
    have hthere : (now.addDays (-1)).IsKept := by
      rw [Instant.IsKept, hyesterday]
      exact hkept
    simpa [htoday, hyesterday, hthere] using htext
  by_cases htomorrow : (now.addDays 1).day = t.day
  · have htext := hread (a := ("tomorrow", 1)) (by simp [dayWords]) htomorrow
    have hthere : (now.addDays 1).IsKept := by
      rw [Instant.IsKept, htomorrow]
      exact hkept
    simp only [htoday, hyesterday, htomorrow, hthere, htext, ← hbehind, if_true, if_false, false_or,
      true_or, and_true]
    exact ⟨.inl, fun h => h.elim id fun h => (isKept_beside h.1).1⟩
  · have htext := checkRead_far_day_iff now hword hkept
    simp only [htoday, hyesterday, htomorrow, htext, ← hbehind, if_false, false_or, and_false]
    constructor
    · rintro ⟨⟨-, -, -, h⟩, hnow⟩
      exact ⟨hnow, h⟩
    · rintro ⟨hnow, h⟩
      exact ⟨⟨(isKept_beside hnow).1, (isKept_beside hnow).2, hnow.1, h⟩, hnow⟩

theorem checkRead_writePeriod (now : Instant) {word : String} (hword : word ∈ periodWords)
    (hg : g ∈ phraseUnits) (hkept : (g.start t).IsKept) :
    (DateValue.checkRead now (writePeriod now g (g.start t) (phrase word g)) = .ok () → now.WeekKept) ∧
      (now.WeekKept → g.start now = g.start t ∨ g = .year ∨ g.IsKeptAhead (-1) now →
        DateValue.checkRead now (writePeriod now g (g.start t) (phrase word g)) = .ok ()) := by
  have hphrase : phrase word g ∈ nearWords :=
    List.mem_append_right _ (List.mem_flatMap.2 ⟨g, hg, List.mem_map_of_mem hword⟩)
  obtain ⟨last, hlast⟩ : ∃ u, ("last", u) ∈ neighbours now g :=
    exists_neighbour hg (by simp [periodWords]) now
  obtain ⟨next, hnext⟩ : ∃ u, ("next", u) ∈ neighbours now g :=
    exists_neighbour hg (by simp [periodWords]) now
  have hunit : g = .month ∨ g = .year := by simpa [phraseUnits] using hg
  have hne : g ≠ .day ∧ g ≠ .week := by rcases hunit with rfl | rfl <;> decide
  rw [writePeriod_of_mem hword]
  split
  · rename_i hthis
    rw [checkRead_phrase_iff (this_mem_neighbours hne.1 now)]
    exact ⟨And.left, fun h _ => ⟨h, h.now_isKept, hthis ▸ hkept⟩⟩
  · rename_i hthis
    split
    · rename_i hbefore
      rw [checkRead_phrase_iff hlast]
      refine ⟨And.left, fun h hcond => ⟨h, ?_, ?_⟩⟩
      · rcases hunit with rfl | rfl
        · have hahead : Granularity.month.IsKeptAhead (-1) now := by simpa [hthis] using hcond
          obtain rfl : last = _ := by simpa [neighbours] using hlast
          have hslack := isKept_slack_start (g := .month) (.inr rfl) h.now_isKept hahead
          rwa [slack_of_ne_year (by decide), Granularity.shift] at hslack
        · exact isKept_neighbour_year (w := ("last", last)) hlast h.now_isKept
      · rw [← start_last_of_ne_week hne.2 hlast, hbefore]
        exact hkept
    · split
      · rw [checkRead_phrase_iff hnext]
        have hthere (h : now.WeekKept) : next.IsKept := by
          rcases hunit with rfl | rfl
          · obtain rfl : next = _ := by simpa [neighbours] using hnext
            exact isKept_next (.inl rfl) h.now_isKept
          · exact isKept_neighbour_year (w := ("next", next)) hnext h.now_isKept
        exact ⟨And.left, fun h _ => ⟨h, hthere h, isKept_start hne.2 (hthere h)⟩⟩
      · rw [writeFormat_word hphrase, checkRead_isoText_iff hne.2 hkept]
        exact ⟨id, fun h _ => h⟩

theorem check_writePeriod_iff (now : Instant) {word : String} (hword : word ∈ periodWords)
    (hg : g ∈ phraseUnits) (hkept : (g.start t).IsKept) :
    checkWritePeriod now g (g.start t) (phrase word g) = .ok () ∧
        DateValue.checkRead now (writePeriod now g (g.start t) (phrase word g)) = .ok () ↔
      now.WeekKept ∧ (g.start now = g.start t ∨ g = .year ∨ g.IsKeptAhead (-1) now) := by
  have hne : g ≠ .day := by
    rintro rfl
    simp [phraseUnits] at hg
  obtain ⟨hweek, hread⟩ := checkRead_writePeriod now hword hg hkept
  constructor
  · rintro ⟨hwrite, hok⟩
    exact ⟨hweek hok, (checkWritePeriod_iff_of_weekKept hne hword (hweek hok) hkept).1 hwrite⟩
  · rintro ⟨hnow, hcond⟩
    exact ⟨(checkWritePeriod_iff_of_weekKept hne hword hnow hkept).2 hcond, hread hnow hcond⟩

theorem check_write_iff_of_isNear (hkept : d.instant.IsKept) (h : d.IsNear) :
    d.checkWrite now none = .ok () ∧ DateValue.checkRead now (d.write now none) = .ok () ↔
      d.IsRestatable now := by
  cases h with
  | day hw t => exact check_writeDay_iff hw hkept
  | @period word g hword hg t =>
    have hiff := check_writePeriod_iff now hword hg hkept
    simp only [phraseUnits, List.mem_cons, List.not_mem_nil, or_false] at hg
    rcases hg with rfl | rfl
    · have hsame : Granularity.month.start (Granularity.month.start t) = Granularity.month.start t :=
        Granularity.start_start _ _
      simp only [reduceCtorEq, false_or] at hiff
      refine hiff.trans ?_
      simp only [DateValue.IsRestatable, tagged, hsame]
    · refine hiff.trans ?_
      simp [DateValue.IsRestatable, tagged]

end Limits

/-- A near day, month or year that was read at one time is written at another time and read there
as the same day, month or year exactly if the calendar is kept around that time. -/
theorem parse_print_near_iff {before now : Instant} {word : String} (hword : word ∈ nearWords)
    (htext : lower (trim text) = word.toList) (h : DateValue.parse before text = .ok (some d))
    (hnow : now.IsKept) :
    (∃ written d', d.print now none = .ok written ∧ DateValue.parse now written = .ok (some d') ∧
      (d' == d) = true) ↔ d.IsRestatable now := by
  obtain ⟨hnear, hkept⟩ := isNear_of_parse hword htext h
  rw [← check_write_iff_of_isNear hkept hnear]
  constructor
  · rintro ⟨written, d', hprint, hparse, -⟩
    obtain ⟨hwrite, rfl⟩ := DateValue.print_eq_ok_iff.1 hprint
    exact ⟨hwrite, (DateValue.parse_eq_ok_iff.1 hparse).1⟩
  · rintro ⟨hwrite, hcheck⟩
    obtain ⟨d', hread, hsame⟩ := exists_read_write_of_isNear hnow hkept hnear
    exact ⟨_, d', DateValue.print_eq_ok_iff.2 ⟨hwrite, rfl⟩, DateValue.parse_eq_ok_iff.2 ⟨hcheck, hread⟩,
      hsame⟩

theorem parse_print_near_next_year :
    let before : Instant := .midnight (Date.toDay ⟨9999, 6, 1⟩)
    let now : Instant := ⟨Date.toDay ⟨2024, 8, 10⟩, ⟨54000, by decide⟩, ⟨0, by decide⟩⟩
    "next year" ∈ nearWords ∧ lower (trim " Next YEAR".toList) = "next year".toList ∧ now.IsKept ∧
    ∃ d d', DateValue.parse before " Next YEAR".toList = .ok (some d) ∧
      d.print now none = .ok "+10000".toList ∧ DateValue.parse now "+10000".toList = .ok (some d') ∧
      (d' == d) = true := by
  intro before now
  have hword : "next year" ∈ nearWords := by decide
  have htext : lower (trim " Next YEAR".toList) = "next year".toList := by decide
  have hnow : now.IsKept := by decide
  have hyears : before.YearsKept := by decide
  have hvalue : DateValue.read? (.midnight (Date.toDay ⟨9999, 6, 1⟩)) " Next YEAR".toList =
      some (tagged (.midnight 3652425) .year "next year") := rfl
  have hread : DateValue.parse before " Next YEAR".toList =
      .ok (some (tagged (.midnight 3652425) .year "next year")) :=
    hvalue ▸ parse_of_yearsKept hyears _
  have hwrite : DateValue.write now none (tagged (.midnight 3652425) .year "next year") =
      "+10000".toList := by decide
  have hweek : now.WeekKept := by decide
  obtain ⟨written, d', hprint, hparse, hsame⟩ := (parse_print_near_iff hword htext hread hnow).2 hweek
  obtain rfl : "+10000".toList = written := hwrite.symm.trans (DateValue.print_eq_ok_iff.1 hprint).2
  exact ⟨hword, htext, hnow, _, d', hread, hprint, hparse, hsame⟩

/-- The second day that is kept is a Friday, and the Sunday before is not kept. -/
theorem not_parse_print_near_first_week :
    ¬ ∀ before now : Instant, before.IsKept → now.IsKept → ∀ word ∈ nearWords, ∀ d,
      DateValue.parse before word.toList = .ok (some d) →
        ∃ written d', d.print now none = .ok written ∧
          DateValue.parse now written = .ok (some d') ∧ (d' == d) = true := by
  intro h
  let before : Instant := .midnight (Date.toDay ⟨-262143, 1, 2⟩)
  let now : Instant := ⟨Date.toDay ⟨2024, 3, 14⟩, ⟨54000, by decide⟩, ⟨0, by decide⟩⟩
  have hcheck : DateValue.checkRead before "today".toList = .ok () :=
    (checkRead_dayWord_iff before (w := ("today", 0)) (by simp [dayWords])).2 (by decide)
  have hread : DateValue.parse before "today".toList = .ok (some (tagged before .day "today")) :=
    DateValue.parse_eq_ok_iff.2 ⟨hcheck, rfl⟩
  have hprint : DateValue.print now none (tagged before .day "today") = .error .calendar := rfl
  obtain ⟨written, d', hok, -⟩ := h before now (by decide) (by decide) "today" (by decide) _ hread
  rw [hprint] at hok
  exact absurd hok (by simp)

end SearchBar.Calendar
