import SearchBar.Proofs.Calendar.Limits
import SearchBar.Proofs.Calendar.Wording

/-! # Steps to near periods

A word is read if the calendar is kept where it leads to, and a phrase or a name of a day
needs the whole of the present week. A word for a step forward is written only after a step
back has been tried.
-/

namespace SearchBar.Calendar

open Text

variable {now t : Instant} {text : List Char} {d : DateValue} {g : Granularity}

section Units

theorem granularity_of_readPatterns {patterns : List Pattern} {completion : List Char}
    {completedBy : List Field} (h : readPatterns? text g patterns completion completedBy = some d) :
    d.granularity = some g := by
  obtain ⟨p, -, hread⟩ := List.exists_of_findSome?_eq_some h
  obtain ⟨day, -, rfl⟩ := Option.map_eq_some_iff.1 hread
  rfl

theorem granularity_of_readPhrase {instantOf : String → Option Instant}
    (h : readPhrase? text g instantOf = some d) : d.granularity = some g := by
  obtain ⟨word, -, hread⟩ := List.exists_of_findSome?_eq_some h
  split at hread
  · obtain ⟨u, -, rfl⟩ := Option.map_eq_some_iff.1 hread
    rfl
  · simp at hread

theorem granularity_of_readDay (h : readDay? now text = some d) : d.granularity = some .day := by
  simp only [readDay?, Option.orElse_eq_orElse, Option.orElse_eq_or, Option.or_eq_some_iff] at h
  rcases h with h | ⟨-, h | ⟨-, h⟩⟩
  · obtain ⟨w, -, rfl⟩ := Option.map_eq_some_iff.1 h
    rfl
  · obtain ⟨p, -, h⟩ := List.exists_of_findSome?_eq_some h
    obtain ⟨u, -, h⟩ := List.exists_of_findSome?_eq_some h
    split at h
    · obtain rfl := Option.some.inj h
      rfl
    · simp at h
  · exact granularity_of_readPatterns h

theorem granularity_of_readMonth (h : readMonth? now text = some d) : d.granularity = some .month := by
  simp only [readMonth?, Option.orElse_eq_orElse, Option.orElse_eq_or, Option.or_eq_some_iff] at h
  rcases h with h | ⟨-, h | ⟨-, h⟩⟩
  · exact granularity_of_readPhrase h
  · exact granularity_of_readPatterns h
  · exact granularity_of_readPatterns h

theorem granularity_of_readYear (h : readYear? now text = some d) : d.granularity = some .year := by
  simp only [readYear?, Option.orElse_eq_orElse, Option.orElse_eq_or, Option.or_eq_some_iff] at h
  rcases h with h | ⟨-, h⟩
  · exact granularity_of_readPhrase h
  · exact granularity_of_readPatterns h

theorem granularity_of_readWeek (h : readWeek? now text = some d) : d.granularity = some .week := by
  simp only [readWeek?, Option.orElse_eq_orElse, Option.orElse_eq_or, Option.or_eq_some_iff] at h
  rcases h with h | ⟨-, h⟩
  · exact granularity_of_readPhrase h
  · obtain ⟨digits, -, -, -, -, -, -, -, rfl⟩ := readWeekNumber?_eq_some h
    rfl

theorem readPeriod?_eq_some_iff : readPeriod? now text = some d ↔ readDay? now text = some d ∨
    readDay? now text = none ∧ ((readMonth? now text <|> readYear? now text) = some d ∨
      (readMonth? now text <|> readYear? now text) = none ∧ readWeek? now text = some d) := by
  unfold readPeriod?
  simp only [Option.orElse_eq_orElse, Option.orElse_eq_or]
  rw [Option.or_eq_some_iff, ← Option.or_assoc, Option.or_eq_some_iff]

theorem readDay?_eq_none (h : readPeriod? now text = some d) (hday : d.granularity ≠ some .day) :
    readDay? now text = none := by
  rcases readPeriod?_eq_some_iff.1 h with h | ⟨h, -⟩
  · exact absurd (granularity_of_readDay h) hday
  · exact h

theorem readMonth?_or_readYear?_eq_none_iff (h : readPeriod? now text = some d)
    (hday : readDay? now text = none) :
    (readMonth? now text <|> readYear? now text) = none ↔ d.granularity = some .week := by
  rcases readPeriod?_eq_some_iff.1 h with h | ⟨-, h | ⟨hnone, h⟩⟩
  · simp [hday] at h
  · refine iff_of_false (by simp [h]) ?_
    simp only [Option.orElse_eq_orElse, Option.orElse_eq_or, Option.or_eq_some_iff] at h
    rcases h with h | ⟨-, h⟩
    · simp [granularity_of_readMonth h]
    · simp [granularity_of_readYear h]
  · exact iff_of_true hnone (granularity_of_readWeek h)

theorem readDay?_eq_none_iff : readDay? now text = none ↔ readDayWord? now text = none ∧
    readWeekday? now text = none ∧ readPatterns? text .day Pattern.days [] [] = none := by
  unfold readDay?
  simp only [Option.orElse_eq_orElse, Option.orElse_eq_or, Option.or_eq_none_iff]

theorem readDay?_of_dayWord {w : String × Int} (hw : w ∈ dayWords) (htext : lower text = w.1.toList) :
    readDay? now text = some (tagged (Granularity.day.start (now.addDays w.2)) .day w.1) := by
  unfold readDay? readDayWord?
  rw [htext]
  simp only [dayWords, List.mem_cons, List.not_mem_nil, or_false] at hw
  rcases hw with rfl | rfl | rfl <;> rfl

end Units

section Reading

theorem checkReadTrimmed_map_toLower (now : Instant) (text : List Char) :
    checkReadTrimmed now (text.map Char.toLower) = checkReadTrimmed now text := by
  have hname (cs : List Char) : sameLetters cs (text.map Char.toLower) = sameLetters cs text := by
    unfold sameLetters
    rw [map_toLower_map_toLower]
  simp only [checkReadTrimmed, checkReadDay, checkReadMonth, checkReadWeek, checkReadWeekNumber,
    lower_map_toLower, readDay?_map_toLower, readMonth?_map_toLower, readYear?_map_toLower,
    readWeekDigits?_map_toLower, hname]

theorem checkReadDay_dayWord_iff {w : String × Int} (hw : w ∈ dayWords)
    (htext : lower text = w.1.toList) :
    checkReadDay now text = .ok () ↔ (now.addDays w.2).IsKept := by
  have hfind : dayWords.find? (fun a => a.1.toList == lower text) = some w := by
    rw [htext]
    simp only [dayWords, List.mem_cons, List.not_mem_nil, or_false] at hw
    rcases hw with rfl | rfl | rfl <;> rfl
  unfold checkReadDay
  rw [hfind]
  exact Instant.check_iff

/-- A text that is neither the word for a day nor the short name of one is compared with the
names of all days of the present week. -/
theorem checkReadDay_iff (hword : readDayWord? now text = none)
    (hname : ∀ n < 7, sameLetters (Field.write ((Granularity.week.start now).addDays (n : Nat))
      .weekdayShort) text = false) :
    checkReadDay now text = .ok () ↔ now.WeekKept := by
  refine ⟨fun h => ?_, fun h => checkReadDay_of_weekKept h text⟩
  unfold checkReadDay at h
  rw [Option.map_eq_none_iff.1 hword] at h
  dsimp only at h
  rw [check_bind_eq_ok_iff, Instant.check_iff] at h
  have hnames := h.2
  simp only [weekdayNamesOf, Pattern.weekdays, List.flatMap_cons, List.flatMap_nil, List.append_nil] at hnames
  have hlast := check_of_checkUntil hnames ?_ _ (List.mem_map_of_mem (List.mem_range.2 (by decide : 6 < 7)))
  · rw [Instant.check_iff, Granularity.start, Instant.addDays_midnight] at hlast
    exact ⟨h.1, hlast⟩
  · intro c hc
    obtain ⟨n, hn, rfl⟩ := List.mem_map.1 hc
    simpa [Pattern.write, writeFields] using hname n (List.mem_range.1 hn)

theorem checkReadDay_iff_of_no_name (hword : readDayWord? now text = none)
    (hname : readWeekday? now text = none) : checkReadDay now text = .ok () ↔ now.WeekKept := by
  refine checkReadDay_iff hword fun n hn => ?_
  have hshort := List.findSome?_eq_none_iff.1 hname ⟨"ddd", [.weekdayShort]⟩ (by simp [Pattern.weekdays])
  have hnone := List.findSome?_eq_none_iff.1 hshort _ (List.mem_map_of_mem (List.mem_range.2 hn))
  simpa [Pattern.write, writeFields] using hnone

theorem checkReadDay_iff_of_readDay (h : readDay? now text = none) :
    checkReadDay now text = .ok () ↔ now.WeekKept :=
  checkReadDay_iff_of_no_name (readDay?_eq_none_iff.1 h).1 (readDay?_eq_none_iff.1 h).2.1

theorem checkReadTrimmed_of_day (h : readDay? now text = some d) :
    checkReadTrimmed now text = .ok () ↔ checkReadDay now text = .ok () := by
  rw [checkReadTrimmed_iff, h]
  simp

theorem checkReadTrimmed_dayWord_iff {w : String × Int} (hw : w ∈ dayWords)
    (htext : lower text = w.1.toList) :
    checkReadTrimmed now text = .ok () ↔ (now.addDays w.2).IsKept := by
  rw [checkReadTrimmed_of_day (readDay?_of_dayWord hw htext), checkReadDay_dayWord_iff hw htext]

theorem checkReadTrimmed_of_ne_week (h : readPeriod? now text = some d)
    (hweek : d.granularity ≠ some .week) (hlast : (phrase "last" .month).toList ≠ lower text) :
    checkReadTrimmed now text = .ok () ↔ checkReadDay now text = .ok () := by
  have hmonth : checkReadMonth now text = .ok () := if_neg hlast
  rw [checkReadTrimmed_iff]
  refine and_iff_left fun hday => ⟨hmonth, fun hnone => ?_⟩
  rcases readPeriod?_eq_some_iff.1 h with h | ⟨-, h | ⟨-, h⟩⟩
  · simp [hday] at h
  · simp [hnone] at h
  · exact absurd (granularity_of_readWeek h) hweek

theorem phrase_eq_lower_iff_of_eq {a b : String} {u : Granularity} (ha : a ∈ periodWords)
    (hb : b ∈ periodWords) (htext : lower text = (phrase b g).toList) :
    (phrase a u).toList = lower text ↔ a = b ∧ u = g := by
  rw [← phrase_eq_lower_iff ha hb, htext, ← (phrase_eq_lower_iff hb hb g g).2 ⟨rfl, rfl⟩]

theorem isKept_neighbour_year {w : String × Instant} (hw : w ∈ neighbours now .year) (h : now.IsKept) :
    w.2.IsKept := by
  have hstart := isKept_start (g := .year) (by decide) h
  simp only [neighbours, List.mem_cons, List.not_mem_nil, or_false] at hw
  rcases hw with rfl | rfl | rfl
  · exact h
  · exact isKept_shiftMonths hstart
  · exact isKept_shiftMonths hstart

theorem checkReadMonth_phrase_iff {w : String × Instant} (hw : w ∈ neighbours now .month)
    (htext : lower text = (phrase w.1 .month).toList) (h : now.IsKept) :
    checkReadMonth now text = .ok () ↔ w.2.IsKept := by
  have hword := mem_periodWords_of_mem_neighbours hw
  have hlast := phrase_eq_lower_iff_of_eq (a := "last") (u := .month) (by simp [periodWords]) hword htext
  unfold checkReadMonth
  simp only [neighbours, List.mem_cons, List.not_mem_nil, or_false] at hw
  rcases hw with rfl | rfl | rfl
  · rw [if_neg (by simp [hlast])]
    exact iff_of_true rfl h
  · rw [if_pos (by simp [hlast]), Instant.check_iff]
  · rw [if_neg (by simp [hlast])]
    exact iff_of_true rfl (isKept_shiftMonths (isKept_start (by decide) h))

theorem checkReadWeek_phrase_iff {w : String × Instant} (hw : w ∈ neighbours now .week)
    (htext : lower text = (phrase w.1 .week).toList) :
    checkReadWeek now text = .ok () ↔ w.2.IsKept ∧ (Granularity.week.start w.2).IsKept := by
  have hword := mem_periodWords_of_mem_neighbours hw
  have hfind (a : String) (ha : a ∈ periodWords) :
      ((phrase a .week).toList == lower text) = (a == w.1) := by
    rw [Bool.eq_iff_iff, beq_iff_eq, beq_iff_eq, phrase_eq_lower_iff_of_eq ha hword htext]
    simp
  have hthis := hfind "this" (by simp [periodWords])
  have hlast := hfind "last" (by simp [periodWords])
  have hnext := hfind "next" (by simp [periodWords])
  unfold checkReadWeek
  simp only [weekWords, List.find?_cons, hthis, hlast, hnext]
  simp only [neighbours, List.mem_cons, List.not_mem_nil, or_false] at hw
  rcases hw with rfl | rfl | rfl <;>
    simp [check_bind_eq_ok_iff, Instant.check_iff, Granularity.shift, Instant.addDays]

/-- A phrase is read if the present week is kept and so are the instant that it leads to and the
start of the period there. -/
theorem checkReadTrimmed_phrase_iff {w : String × Instant} (hw : w ∈ neighbours now g)
    (htext : lower text = (phrase w.1 g).toList)
    (h : readPeriod? now text = some (tagged (g.start w.2) g (phrase w.1 g))) :
    checkReadTrimmed now text = .ok () ↔ now.WeekKept ∧ w.2.IsKept ∧ (g.start w.2).IsKept := by
  have hword := mem_periodWords_of_mem_neighbours hw
  have hday : readDay? now text = none :=
    readDay?_eq_none h fun hg => (neighbours_cases hw).1 (Option.some.inj hg)
  have hothers := readMonth?_or_readYear?_eq_none_iff h hday
  have hlast := phrase_eq_lower_iff_of_eq (a := "last") (u := .month) (by simp [periodWords]) hword htext
  rw [checkReadTrimmed_iff, checkReadDay_iff_of_readDay hday]
  refine and_congr_right fun hnow => ?_
  simp only [hday, hothers, true_implies, tagged, Option.some.injEq]
  cases g with
  | day => exact absurd rfl (neighbours_cases hw).1
  | month =>
    have hstart : w.2.IsKept → (Granularity.month.start w.2).IsKept := isKept_start (by decide)
    simp only [reduceCtorEq, false_implies, and_true, and_iff_left_of_imp hstart]
    exact checkReadMonth_phrase_iff hw htext hnow.now_isKept
  | year =>
    have hmonth : checkReadMonth now text = .ok () := if_neg (by simp [hlast])
    have hkept := isKept_neighbour_year hw hnow.now_isKept
    simp [hmonth, hkept, isKept_start]
  | week =>
    have hmonth : checkReadMonth now text = .ok () := if_neg (by simp [hlast])
    simp only [hmonth, true_and, true_implies]
    exact checkReadWeek_phrase_iff hw htext

theorem checkReadTrimmed_weekDigits_iff {n : Nat} (h : readWeekDigits? text = some n) :
    checkReadTrimmed now text = .ok () ↔ now.WeekKept ∧ (1 ≤ n ∧ n ≤ 53 →
      (Granularity.week.start (Granularity.year.start now)).IsKept ∧
        (Instant.midnight (numberedWeek now n)).IsKept ∧
          checkWeekNumber (.midnight (numberedWeek now n)) = .ok ()) := by
  obtain ⟨digits, htake, -⟩ := readWeekDigits?_eq_some.1 h
  obtain ⟨hday, hothers⟩ := readDay?_of_takeWeekWord now htake
  have hmonth : checkReadMonth now text = .ok () :=
    if_neg (phrase_ne_of_takeWeekWord htake (by simp [periodWords]) .month)
  have hwords : (weekWords.all fun w => periodWords.contains w.1) = true := by decide
  have hfind : weekWords.find? (fun w => (phrase w.1 .week).toList == lower text) = none := by
    refine List.find?_eq_none.2 fun w hw => ?_
    have hword := List.contains_iff_mem.1 (List.all_eq_true.1 hwords w hw)
    simpa using phrase_ne_of_takeWeekWord htake hword .week
  have hweek : checkReadWeek now text = checkReadWeekNumber now text := by
    unfold checkReadWeek
    rw [hfind]
  rw [checkReadTrimmed_iff, checkReadDay_iff_of_readDay hday, hweek]
  refine and_congr_right fun _ => ?_
  simp only [hday, hmonth, hothers, true_implies, true_and]
  unfold checkReadWeekNumber
  rw [h]
  dsimp only
  split
  · rename_i hn
    simp only [hn, check_bind_eq_ok_iff, Instant.check_iff, and_self, true_implies]
  · rename_i hn
    simp [hn]

theorem checkRead_of_trim (h : trim text = text) :
    DateValue.checkRead now text = checkReadTrimmed now text := by
  rw [DateValue.checkRead, h]

theorem checkRead_dayWord_iff (now : Instant) {w : String × Int} (hw : w ∈ dayWords) :
    DateValue.checkRead now w.1.toList = .ok () ↔ (now.addDays w.2).IsKept := by
  have hall : (dayWords.all fun w => trim w.1.toList == w.1.toList && lower w.1.toList == w.1.toList) =
    true := by decide
  have hsame := List.all_eq_true.1 hall w hw
  rw [Bool.and_eq_true, beq_iff_eq, beq_iff_eq] at hsame
  rw [checkRead_of_trim hsame.1, checkReadTrimmed_dayWord_iff hw hsame.2]

theorem checkRead_phrase_iff {w : String × Instant} (hw : w ∈ neighbours now g) :
    DateValue.checkRead now (phrase w.1 g).toList = .ok () ↔
      now.WeekKept ∧ w.2.IsKept ∧ (g.start w.2).IsKept := by
  have hall : (phrases.all fun s => trim s.toList == s.toList && lower s.toList == s.toList) = true := by
    decide
  have hsame := List.all_eq_true.1 hall _ (phrase_mem_phrases (mem_periodWords_of_mem_neighbours hw) g)
  rw [Bool.and_eq_true, beq_iff_eq, beq_iff_eq] at hsame
  rw [checkRead_of_trim hsame.1, checkReadTrimmed_phrase_iff hw hsame.2 (readPeriod?_phrase hw)]

end Reading

section Writing

theorem checkFormat_eq_ok {format : String} (hmail : format ≠ mailFormat) (hweek : format ≠ weekFormat)
    (t : Instant) : checkFormat format t = .ok () := by
  unfold checkFormat
  rw [if_neg hmail, if_neg hweek]

theorem checkWrite_of_pattern {p : Pattern} (hp : p ∈ Pattern.all) (now t : Instant)
    (g : Option Granularity) : DateValue.checkWrite now none ⟨t, g, some p.name⟩ = .ok () := by
  have hall : (Pattern.all.all fun p => p.name != mailFormat && p.name != weekFormat &&
      !(dayWords.any fun w => sameLetters w.1.toList p.name.toList) && Granularity.all.all fun g =>
      !(periodWords.any fun w => sameLetters (phrase w g).toList p.name.toList)) = true := by
    decide +kernel
  have hname := List.all_eq_true.1 hall p hp
  simp only [Bool.and_eq_true, bne_iff_ne, Bool.not_eq_true'] at hname
  obtain ⟨⟨⟨hmail, hweek⟩, hday⟩, hperiods⟩ := hname
  have hformat := checkFormat_eq_ok hmail hweek t
  have hperiod (g : Granularity) : checkWritePeriod now g t p.name = .ok () := by
    have hno := List.all_eq_true.1 hperiods g g.mem_all
    rw [Bool.not_eq_true'] at hno
    simp [checkWritePeriod, hno, hformat]
  match g with
  | none => exact hformat
  | some .day => simp [DateValue.checkWrite, checkWriteDay, hday, hformat]
  | some .week | some .month | some .year => exact hperiod _

theorem checkSame_eq_ok_iff {a b : Instant} :
    g.checkSame a b = .ok () ↔ (g.start a).IsKept ∧ (g.start b).IsKept := by
  rw [Granularity.checkSame, check_bind_eq_ok_iff, Instant.check_iff, Instant.check_iff]

theorem ite_eq_ok_iff {c : Prop} [Decidable c] {check : Attempt Unit} :
    (if c then .ok () else check) = .ok () ↔ c ∨ check = .ok () := by
  split <;> simp_all

/-- A day is compared with the present one, the one before and the one behind, and in the end
with the days of the present week. -/
theorem checkWriteDay_iff {w : String × Int} (hw : w ∈ dayWords) :
    checkWriteDay now t w.1 = .ok () ↔ Granularity.day.start now = Granularity.day.start t ∨
      (now.addDays (-1)).IsKept ∧
        (Granularity.day.start (now.addDays (-1)) = Granularity.day.start t ∨
          (now.addDays 1).IsKept ∧
            (Granularity.day.start (now.addDays 1) = Granularity.day.start t ∨
              (Granularity.week.start now).IsKept ∧ (Granularity.week.start t).IsKept)) := by
  have hnear : (dayWords.any fun a => sameLetters a.1.toList w.1.toList) = true :=
    List.any_eq_true.2 ⟨w, hw, sameLetters_refl _⟩
  have hall : (dayWords.all fun w => w.1 != mailFormat && w.1 != weekFormat) = true := by decide
  have hword := List.all_eq_true.1 hall w hw
  simp only [Bool.and_eq_true, bne_iff_ne] at hword
  have hformat := checkFormat_eq_ok hword.1 hword.2 t
  unfold checkWriteDay
  rw [if_pos hnear]
  simp only [ite_eq_ok_iff, check_bind_eq_ok_iff, Instant.check_iff, checkSame_eq_ok_iff,
    Granularity.isSame_iff, hformat, or_true, and_true]

theorem checkWritePeriod_iff {word : String} (hword : word ∈ periodWords) :
    checkWritePeriod now g t (phrase word g) = .ok () ↔ (g.start now).IsKept ∧ (g.start t).IsKept ∧
      (g.start now = g.start t ∨ (slack g (g.start now) (-2)).IsKept ∧
        (g.start (slack g (g.start now) (-2))).IsKept ∧
          (g.start (slack g (g.start now) (-2)) = g.start t ∨ (g.next now).IsKept ∧
            (lastMillisecond g now).IsKept ∧ (slack g (lastMillisecond g now) 2).IsKept ∧
              (g.start (slack g (lastMillisecond g now) 2)).IsKept)) := by
  have hnear : (periodWords.any fun a => sameLetters (phrase a g).toList (phrase word g).toList) =
      true := List.any_eq_true.2 ⟨word, hword, sameLetters_refl _⟩
  have hall : (periodWords.all fun a => Granularity.all.all fun g =>
      phrase a g != mailFormat && phrase a g != weekFormat) = true := by decide
  have hphrase := List.all_eq_true.1 (List.all_eq_true.1 hall word hword) g g.mem_all
  simp only [Bool.and_eq_true, bne_iff_ne] at hphrase
  have hformat := checkFormat_eq_ok hphrase.1 hphrase.2 t
  unfold checkWritePeriod
  rw [if_pos hnear]
  simp only [ite_eq_ok_iff, check_bind_eq_ok_iff, Instant.check_iff, checkSame_eq_ok_iff,
    Granularity.isSame_iff, hformat, or_true, and_true]
  rw [and_assoc]
  refine and_congr_right fun _ => and_congr_right fun ht => ?_
  simp only [ht, and_true]

end Writing

section Neighbouring

theorem isKept_next (hg : g = .month ∨ g = .year) (h : now.IsKept) : (g.next now).IsKept := by
  rcases hg with rfl | rfl <;> exact isKept_shiftMonths (isKept_start (by decide) h)

theorem lt_day_next_month (h : now.IsKept) : yearStart (-262143) < (Granularity.month.next now).day := by
  have hstart := isKept_start (g := .month) (by decide) h
  rw [start_month_eq] at hstart
  have hfirst := (isKept_iff.1 hstart).1
  have hkept : yearKept ((Date.ofDay now.day).monthIndex / 12) = true := by
    rw [← Granularity.yearOf_firstOfMonth]
    exact hstart
  rw [Granularity.next_eq_shift, Granularity.shift, start_month_eq, shiftMonths_firstOfMonth]
  simp only [day_midnight] at hfirst ⊢
  split
  · have hlt := toDay_firstOfMonth_lt (Date.ofDay now.day).monthIndex
    omega
  · rename_i hnext
    have hlt := toDay_firstOfMonth_lt (12 * -262143)
    have hle := toDay_firstOfMonth_le (j := 12 * -262143 + 1) (k := (Date.ofDay now.day).monthIndex) (by
      simp only [yearKept, Bool.and_eq_true, decide_eq_true_eq] at hkept hnext
      omega)
    rw [toDay_firstOfMonth_twelve] at hlt
    omega

theorem lt_day_next_year (h : now.IsKept) : yearStart (-262143) < (Granularity.year.next now).day := by
  rw [next_year_eq, day_midnight]
  apply yearStart_lt
  simp only [Instant.IsKept, yearKept, Bool.and_eq_true, decide_eq_true_eq] at h
  unfold nextYear
  split
  · omega
  · rename_i hnext
    simp only [yearKept, Bool.and_eq_true, decide_eq_true_eq] at hnext
    omega

theorem isKept_lastMillisecond (hg : g = .month ∨ g = .year) (h : now.IsKept) :
    (lastMillisecond g now).IsKept := by
  have hnext := isKept_iff.1 (isKept_next hg h)
  have hlt : yearStart (-262143) < (g.next now).day := by
    rcases hg with rfl | rfl
    · exact lt_day_next_month h
    · exact lt_day_next_year h
  rw [isKept_iff]
  simp only [lastMillisecond]
  omega

theorem isKept_slack_month (h : now.IsKept) : (slack .month (lastMillisecond .month now) 2).IsKept := by
  have hdays := isKept_iff.1 (isKept_next (g := .month) (.inl rfl) h)
  have hend : Granularity.month.startDay (yearStart 262143) = yearStart 262143 := by decide
  have hstart : Granularity.month.startDay ((Granularity.month.next now).day + 1) =
      (Granularity.month.next now).day := by
    rw [Granularity.next_eq_shift, Granularity.shift, start_month_eq, shiftMonths_firstOfMonth]
    exact day_next_firstOfMonth _
  have hne : (Granularity.month.next now).day + 1 ≠ yearStart 262143 := by
    intro heq
    rw [heq, hend] at hstart
    omega
  rw [isKept_iff, day_slack_last (by decide)]
  omega

theorem kept_ahead_week (h : now.WeekKept) : (Granularity.week.next now).IsKept ∧
    (lastMillisecond .week now).IsKept ∧ (slack .week (lastMillisecond .week now) 2).IsKept ∧
      (Granularity.week.start (slack .week (lastMillisecond .week now) 2)).IsKept := by
  have hnext : (Granularity.week.next now).day = Granularity.week.startDay now.day + 7 := rfl
  have hlast : (lastMillisecond .week now).day = Granularity.week.startDay now.day + 7 - 1 := rfl
  have hslack : (slack .week (lastMillisecond .week now) 2).day = _ := day_slack_last (by decide)
  have hstart : Granularity.week.startDay (Granularity.week.startDay now.day + 7 + 1) =
      Granularity.week.startDay now.day + 7 := by
    simp only [Granularity.startDay, weekday]
    omega
  refine ⟨h.isKept ?_ ?_, h.isKept ?_ ?_, h.isKept ?_ ?_, h.isKept ?_ ?_⟩ <;>
    simp only [Granularity.start, day_midnight, hlast, hslack, hnext, hstart] <;> omega

theorem kept_ahead (hg : g ≠ .day) (h : now.WeekKept) : (g.next now).IsKept ∧
    (lastMillisecond g now).IsKept ∧ (slack g (lastMillisecond g now) 2).IsKept ∧
      (g.start (slack g (lastMillisecond g now) 2)).IsKept := by
  have hnow := h.now_isKept
  cases g with
  | day => exact absurd rfl hg
  | week => exact kept_ahead_week h
  | month =>
    have hbehind := isKept_slack_month hnow
    exact ⟨isKept_next (.inl rfl) hnow, isKept_lastMillisecond (.inl rfl) hnow, hbehind,
      isKept_start (by decide) hbehind⟩
  | year =>
    have hlast := isKept_lastMillisecond (.inr rfl) hnow
    have hbehind := isKept_shiftMonths (n := 2) hlast
    exact ⟨isKept_next (.inr rfl) hnow, hlast, hbehind, isKept_start (by decide) hbehind⟩

theorem slack_start (hg : g = .week ∨ g = .month) (now : Instant) :
    slack g (g.start now) (-2) = .midnight (g.startDay now.day - 2) := by
  rcases hg with rfl | rfl <;> exact Instant.addDays_midnight _ _

theorem start_slack_start (hg : g = .week ∨ g = .month) (now : Instant) :
    g.start (slack g (g.start now) (-2)) = .midnight (g.startDayAhead (-1) now.day) := by
  rw [slack_start hg, Granularity.start, day_midnight]
  rcases hg with rfl | rfl
  · simp only [Granularity.startDayAhead, Granularity.startDay, weekday, Instant.midnight, Instant.mk.injEq,
      and_true]
    omega
  · have hlength := le_monthLength (((Date.ofDay now.day).monthIndex + -1) / 12)
      ((((Date.ofDay now.day).monthIndex + -1) % 12).toNat + 1)
    have hnext := toDay_firstOfMonth_succ ((Date.ofDay now.day).monthIndex + -1)
    rw [Int.neg_add_cancel_right] at hnext
    congr 1
    rw [Granularity.startDayAhead, ← startDay_month_firstOfMonth, Granularity.startDay_eq_iff,
      startDay_month_firstOfMonth, Granularity.endDay, Granularity.startDay_month, ofDay_firstOfMonth,
      monthIndex_firstOfMonth, Int.neg_add_cancel_right]
    omega

theorem isKeptAhead_iff_slack (hg : g = .week ∨ g = .month) :
    g.IsKeptAhead (-1) now ↔ (g.start (slack g (g.start now) (-2))).IsKept := by
  rw [start_slack_start hg]
  rfl

theorem isKept_slack_start (hg : g = .week ∨ g = .month) (hnow : now.IsKept)
    (h : g.IsKeptAhead (-1) now) : (slack g (g.start now) (-2)).IsKept := by
  have hstart := Granularity.startDay_le g (slack g (g.start now) (-2)).day
  have hnowStart := Granularity.startDay_le g now.day
  refine isKept_of_between ((isKeptAhead_iff_slack hg).1 h) hnow hstart ?_
  rw [slack_start hg, day_midnight]
  omega

theorem kept_behind_year (h : now.IsKept) : (slack .year (Granularity.year.start now) (-2)).IsKept ∧
    (Granularity.year.start (slack .year (Granularity.year.start now) (-2))).IsKept := by
  have hslack := isKept_shiftMonths (n := -2) (isKept_start (g := .year) (by decide) h)
  exact ⟨hslack, isKept_start (by decide) hslack⟩

end Neighbouring

end SearchBar.Calendar
