import SearchBar.Proofs.Calendar.Forms

/-! # Written periods

A period is written in the letters that it was read from, or in the words for the same
period, and either way it is read again as the same period.
-/

namespace SearchBar.Calendar

open Text

variable {now t : Instant} {text : List Char} {d : DateValue} {p : Pattern} {g : Granularity}

section Patterns

theorem Pattern.mem_all_of_mem_periods (h : p ∈ Pattern.periods) : p ∈ Pattern.all :=
  List.mem_append_left _ (List.mem_append_left _ h)

theorem writeFormat_name (hp : p ∈ Pattern.all) (t : Instant) (period : Option Granularity) :
    writeFormat p.name t period = p.write t := by
  have hall : (Pattern.all.all fun p => p.name != isoFormat && p.name != mailFormat &&
      p.name != weekFormat && Pattern.ofName? p.name == some p) = true := by decide +kernel
  have hname := List.all_eq_true.1 hall p hp
  simp only [Bool.and_eq_true, bne_iff_ne, beq_iff_eq] at hname
  obtain ⟨⟨⟨hiso, hmail⟩, hweek⟩, hof⟩ := hname
  unfold writeFormat
  rw [if_neg hiso, if_neg hmail, if_neg hweek, hof]

theorem writeDay_name (hp : p ∈ Pattern.all) (now t : Instant) :
    writeDay now t p.name = p.write t := by
  have hall : (Pattern.all.all fun p =>
      !(dayWords.any fun w => sameLetters w.1.toList p.name.toList)) = true := by decide +kernel
  have hnear := List.all_eq_true.1 hall p hp
  rw [Bool.not_eq_true'] at hnear
  rw [← writeFormat_name hp t (some .day)]
  simp [writeDay, hnear]

theorem writePeriod_of_not_near {format : String}
    (h : (periodWords.any fun w => sameLetters (phrase w g).toList format.toList) = false) :
    writePeriod now g t format = writeFormat format t (some g) := by
  simp [writePeriod, h]

theorem writePeriod_name (hp : p ∈ Pattern.all) (now : Instant) (g : Granularity) (t : Instant) :
    writePeriod now g t p.name = p.write t := by
  have hall : (Pattern.all.all fun p => Granularity.all.all fun g =>
      !(periodWords.any fun w => sameLetters (phrase w g).toList p.name.toList)) = true := by decide +kernel
  have hnear := List.all_eq_true.1 (List.all_eq_true.1 hall p hp) g g.mem_all
  rw [Bool.not_eq_true'] at hnear
  rw [writePeriod_of_not_near hnear, writeFormat_name hp]

theorem write_of_pattern (hp : p ∈ Pattern.all) (now t : Instant) (g : Option Granularity) :
    DateValue.write now none ⟨t, g, some p.name⟩ = p.write t := by
  cases g with
  | none => exact writeFormat_name hp t none
  | some g =>
    cases g with
    | day => exact writeDay_name hp now t
    | week | month | year => exact writePeriod_name hp now _ t

end Patterns

section Openings

def nameOpenings : List (List Char) :=
  (weekdayNames ++ monthNames).map fun n => n.toList.take 3

/-- The text begins with a number, a sign or the name of a day or a month. -/
def opensPattern (cs : List Char) : Bool :=
  (cs.head?.any fun c => c.isDigit || c == '-' || c == '+') ||
    nameOpenings.any fun o => sameLetters o (cs.take 3)

theorem opensPattern_of_head {c : Char} {cs : List Char}
    (h : c.isDigit = true ∨ c = '-' ∨ c = '+') : opensPattern (c :: cs) = true := by
  rcases h with h | rfl | rfl <;> simp [opensPattern, *]

theorem opensPattern_of_all_isDigit {ds : List Char} (hne : ds ≠ [])
    (h : ∀ c ∈ ds, c.isDigit = true) (rest : List Char) : opensPattern (ds ++ rest) = true := by
  obtain ⟨c, ds, rfl⟩ := List.exists_cons_of_ne_nil hne
  exact opensPattern_of_head (.inl (h c List.mem_cons_self))

theorem opensPattern_of_name {n : String} (h : n ∈ weekdayNames ++ monthNames) (rest : List Char) :
    opensPattern (n.toList.take 3 ++ rest) = true := by
  have hall : ((weekdayNames ++ monthNames).all fun n => (n.toList.take 3).length == 3) = true := by
    decide
  have hlength := beq_iff_eq.1 (List.all_eq_true.1 hall n h)
  have htake : (n.toList.take 3 ++ rest).take 3 = n.toList.take 3 := by
    rw [List.take_append_of_le_length (by omega), List.take_take]
    rfl
  unfold opensPattern
  rw [htake, Bool.or_eq_true]
  right
  exact List.any_eq_true.2 ⟨_, List.mem_map_of_mem h, sameLetters_refl _⟩

theorem opensPattern_map_toLower (cs : List Char) :
    opensPattern (cs.map Char.toLower) = opensPattern cs := by
  have hhead := apply_toLower (f := fun c => c.isDigit || c == '-' || c == '+') (by decide)
  unfold opensPattern sameLetters
  rw [← List.map_take, map_toLower_map_toLower, List.head?_map, Option.any_map]
  congr 2
  funext c
  exact hhead c

theorem padded_ne_nil (width n : Nat) : padded width n ≠ [] := by
  simp [padded, Decimal.digitsOfNat_ne_nil]

theorem exists_weekdayName (day : Int) : ∃ n ∈ weekdayNames, weekdayName (weekday day) = n.toList := by
  have hlength : weekdayNames.length = 7 := rfl
  have hlt : weekday day < weekdayNames.length := by
    unfold weekday
    omega
  refine ⟨weekdayNames[weekday day], List.getElem_mem hlt, ?_⟩
  rw [weekdayName, List.getD_eq_getElem?_getD, List.getElem?_eq_getElem hlt, Option.getD_some]

theorem exists_monthName {m : Nat} (h1 : 1 ≤ m) (h12 : m ≤ 12) :
    ∃ n ∈ monthNames, monthName m = n.toList := by
  have hlength : monthNames.length = 12 := rfl
  have hlt : m - 1 < monthNames.length := by omega
  refine ⟨monthNames[m - 1], List.getElem_mem hlt, ?_⟩
  rw [monthName, List.getD_eq_getElem?_getD, List.getElem?_eq_getElem hlt, Option.getD_some]

def openingFields : List Field :=
  [.weekdayShort, .weekdayLong, .day true, .day false, .year, .yearOfCentury, .monthShort,
    .monthLong]

theorem Field.opensPattern_write {f : Field} (hf : f ∈ openingFields) (t : Instant)
    (rest : List Char) : opensPattern (f.write t ++ rest) = true := by
  obtain ⟨h1, h12, -, -⟩ := Date.exists_ofDay t.day
  obtain ⟨w, hw, hweekday⟩ := exists_weekdayName t.day
  obtain ⟨m, hm, hmonth⟩ := exists_monthName h1 h12
  have hlong {n : String} (h : n ∈ weekdayNames ++ monthNames) :
      opensPattern (n.toList ++ rest) = true := by
    rw [← List.take_append_drop 3 n.toList, List.append_assoc]
    exact opensPattern_of_name h _
  simp only [openingFields, List.mem_cons, List.not_mem_nil, or_false] at hf
  rcases hf with rfl | rfl | rfl | rfl | rfl | rfl | rfl | rfl <;> simp only [Field.write]
  · rw [hweekday]
    exact opensPattern_of_name (List.mem_append_left _ hw) rest
  · rw [hweekday]
    exact hlong (List.mem_append_left _ hw)
  · exact opensPattern_of_all_isDigit (padded_ne_nil _ _) (fun _ => isDigit_of_mem_padded) rest
  · exact opensPattern_of_all_isDigit (Decimal.digitsOfNat_ne_nil _)
      (fun _ => Decimal.isDigit_of_mem_digitsOfNat) rest
  · unfold yearText
    split
    · exact opensPattern_of_all_isDigit (padded_ne_nil _ _) (fun _ => isDigit_of_mem_padded) rest
    · apply opensPattern_of_head
      split
      · exact .inr (.inl rfl)
      · exact .inr (.inr rfl)
  · exact opensPattern_of_all_isDigit (padded_ne_nil _ _) (fun _ => isDigit_of_mem_padded) rest
  · rw [hmonth]
    exact opensPattern_of_name (List.mem_append_right _ hm) rest
  · rw [hmonth]
    exact hlong (List.mem_append_right _ hm)

theorem Pattern.opensPattern_write (hp : p ∈ Pattern.periods) (t : Instant) :
    opensPattern (p.write t) = true := by
  have hall : (Pattern.periods.all fun p => p.fields.head?.any openingFields.contains) = true := by
    decide
  have hfirst := List.all_eq_true.1 hall p hp
  rw [Option.any_eq_true] at hfirst
  obtain ⟨f, hf, hopens⟩ := hfirst
  obtain ⟨fs, hfields⟩ := List.head?_eq_some_iff.1 hf
  rw [Pattern.write, hfields, writeFields, List.flatMap_cons]
  exact f.opensPattern_write (List.contains_iff_mem.1 hopens) t _

theorem opensPattern_of_written (hp : p ∈ Pattern.periods)
    (h : sameLetters (p.write t) text = true) : opensPattern text = true := by
  rw [← apply_of_sameLetters opensPattern_map_toLower h]
  exact Pattern.opensPattern_write hp t

theorem readPatterns?_eq_none {patterns : List Pattern} {completion : List Char}
    {completedBy : List Field} (hpatterns : ∀ p ∈ patterns, p ∈ Pattern.periods)
    (h : opensPattern text = false) :
    readPatterns? text g patterns completion completedBy = none := by
  apply List.findSome?_eq_none_iff.2
  intro p hp
  rw [Option.map_eq_none_iff]
  cases hread : p.readDay? completion completedBy text with
  | none => rfl
  | some day =>
    have hopens := opensPattern_of_written (hpatterns p hp) (Pattern.sameLetters_of_readDay hread)
    simp [h] at hopens

theorem readWeekday?_eq_none (h : opensPattern text = false) : readWeekday? now text = none := by
  apply List.findSome?_eq_none_iff.2
  intro p hp
  apply List.findSome?_eq_none_iff.2
  intro t _
  split
  · rename_i htext
    have hopens := opensPattern_of_written (by simp [Pattern.periods, hp]) htext
    simp [h] at hopens
  · rfl

end Openings

section Words

theorem readDayWord?_of_mem {w : String × Int} (hw : w ∈ dayWords) :
    readDayWord? now w.1.toList =
      some (tagged (Granularity.day.start (now.addDays w.2)) .day w.1) := by
  simp only [dayWords, List.mem_cons, List.not_mem_nil, or_false] at hw
  rcases hw with rfl | rfl | rfl <;> rfl

theorem readPeriod?_dayWord (now : Instant) {w : String × Int} (hw : w ∈ dayWords) :
    readPeriod? now w.1.toList =
      some (tagged (Granularity.day.start (now.addDays w.2)) .day w.1) := by
  simp [readPeriod?, readDay?, readDayWord?_of_mem hw]

theorem readDayWord?_eq_none (h : ∀ w ∈ dayWords, w.1.toList ≠ lower text) :
    readDayWord? now text = none := by
  rw [readDayWord?, Option.map_eq_none_iff, List.find?_eq_none]
  intro w hw
  rw [beq_iff_eq]
  exact h w hw

theorem readPhrase?_eq_none {instantOf : String → Option Instant}
    (h : ∀ word ∈ periodWords, (phrase word g).toList ≠ lower text) :
    readPhrase? text g instantOf = none := by
  apply List.findSome?_eq_none_iff.2
  intro word hword
  rw [if_neg (by rw [beq_iff_eq]; exact h word hword)]

theorem phrase_eq_lower_iff {a b : String} (ha : a ∈ periodWords) (hb : b ∈ periodWords)
    (g g' : Granularity) :
    (phrase a g).toList = lower (phrase b g').toList ↔ a = b ∧ g = g' := by
  have hall : (periodWords.all fun a => periodWords.all fun b =>
      Granularity.all.all fun g => Granularity.all.all fun g' =>
        ((phrase a g).toList == lower (phrase b g').toList) == (a == b && g == g')) = true := by
    decide +kernel
  have h := List.all_eq_true.1 (List.all_eq_true.1 (List.all_eq_true.1 (List.all_eq_true.1 hall
    a ha) b hb) g g.mem_all) g' g'.mem_all
  rw [beq_iff_eq, Bool.eq_iff_iff, Bool.and_eq_true, beq_iff_eq, beq_iff_eq, beq_iff_eq] at h
  exact h

theorem readPhrase?_of_mem {instantOf : String → Option Instant} {word : String}
    (hword : word ∈ periodWords) (ht : instantOf word = some t) :
    readPhrase? (phrase word g).toList g instantOf =
      some (tagged (g.start t) g (phrase word g)) := by
  have hcond (a : String) (ha : a ∈ periodWords) :
      ((phrase a g).toList == lower (phrase word g).toList) = (a == word) := by
    rw [Bool.eq_iff_iff, beq_iff_eq, beq_iff_eq, phrase_eq_lower_iff ha hword]
    simp
  have hthis := hcond "this" (by simp [periodWords])
  have hlast := hcond "last" (by simp [periodWords])
  have hnext := hcond "next" (by simp [periodWords])
  simp only [readPhrase?, periodWords, List.findSome?_cons, hthis, hlast, hnext]
  simp only [periodWords, List.mem_cons, List.not_mem_nil, or_false] at hword
  rcases hword with rfl | rfl | rfl <;> simp [ht]

variable {word : String} (hword : word ∈ periodWords)
include hword

theorem opensPattern_phrase (g : Granularity) : opensPattern (phrase word g).toList = false := by
  have hall : (phrases.all fun s => !opensPattern s.toList) = true := by decide
  have h := List.all_eq_true.1 hall _ (phrase_mem_phrases hword g)
  rwa [Bool.not_eq_true'] at h

theorem readDay?_phrase (now : Instant) (g : Granularity) :
    readDay? now (phrase word g).toList = none := by
  have hall : (phrases.all fun s => dayWords.all fun w => w.1.toList != lower s.toList) = true := by
    decide +kernel
  have hopens := opensPattern_phrase hword g
  have hne := List.all_eq_true.1 hall _ (phrase_mem_phrases hword g)
  unfold readDay?
  rw [readDayWord?_eq_none, readWeekday?_eq_none hopens, readPatterns?_eq_none ?_ hopens]
  · rfl
  · simp +contextual [Pattern.periods]
  · intro w hw
    exact bne_iff_ne.1 (List.all_eq_true.1 hne w hw)

theorem readMonth?_phrase (now : Instant) (hg : g ≠ .month) :
    readMonth? now (phrase word g).toList = none := by
  have hopens := opensPattern_phrase hword g
  unfold readMonth?
  dsimp only
  rw [readPhrase?_eq_none, readPatterns?_eq_none ?_ hopens, readPatterns?_eq_none ?_ hopens]
  · rfl
  · simp +contextual [Pattern.periods]
  · simp +contextual [Pattern.periods]
  · intro a ha h
    exact hg ((phrase_eq_lower_iff ha hword _ _).1 h).2.symm

theorem readYear?_phrase (now : Instant) (hg : g ≠ .year) :
    readYear? now (phrase word g).toList = none := by
  have hopens := opensPattern_phrase hword g
  unfold readYear?
  rw [readPhrase?_eq_none, readPatterns?_eq_none ?_ hopens]
  · rfl
  · simp +contextual [Pattern.periods]
  · intro a ha h
    exact hg ((phrase_eq_lower_iff ha hword _ _).1 h).2.symm

omit hword

theorem readPeriod?_phrase {w : String × Instant} (hw : w ∈ neighbours now g) :
    readPeriod? now (phrase w.1 g).toList = some (tagged (g.start w.2) g (phrase w.1 g)) := by
  have hword := mem_periodWords_of_mem_neighbours hw
  unfold readPeriod?
  rw [readDay?_phrase hword]
  cases g with
  | day => simp [neighbours] at hw
  | week =>
    rw [readMonth?_phrase hword now (by decide), readYear?_phrase hword now (by decide), readWeek?,
      readPhrase?_of_mem hword]
    · rfl
    · simp only [neighbours, List.mem_cons, List.not_mem_nil, or_false] at hw
      rcases hw with rfl | rfl | rfl <;> rfl
  | month =>
    rw [readMonth?, readPhrase?_of_mem hword]
    · rfl
    · simp only [neighbours, List.mem_cons, List.not_mem_nil, or_false] at hw
      rcases hw with rfl | rfl | rfl <;> rfl
  | year =>
    rw [readMonth?_phrase hword now (by decide), readYear?, readPhrase?_of_mem hword]
    · rfl
    · simp only [neighbours, List.mem_cons, List.not_mem_nil, or_false] at hw
      rcases hw with rfl | rfl | rfl <;> rfl

end Words

section Weeks

theorem ne_lower_of_head? {a cs : List Char} {c : Char} (hc : c.toNat < 128)
    (ha : a.head? ≠ some c.toLower) : a ≠ lower (c :: cs) := by
  rintro rfl
  exact ha (by rw [lower_cons_of_ascii hc]; rfl)

theorem phrase_ne_of_takeWeekWord {digits : List Char} (h : takeWeekWord? text = some digits)
    {word : String} (hword : word ∈ periodWords) (g : Granularity) :
    (phrase word g).toList ≠ lower text := by
  have hphrases : (phrases.all fun s => s.toList.head? != some 'w') = true := by decide
  obtain ⟨w, e, e', k, rfl, hw, -, -, -⟩ := takeWeekWord?_eq_some h
  apply ne_lower_of_head? (toNat_lt_of_toLower (by decide) hw)
  rw [hw]
  exact bne_iff_ne.1 (List.all_eq_true.1 hphrases _ (phrase_mem_phrases hword g))

theorem readDay?_of_takeWeekWord (now : Instant) {digits : List Char}
    (h : takeWeekWord? text = some digits) :
    readDay? now text = none ∧ (readMonth? now text <|> readYear? now text) = none := by
  have hwords : (dayWords.all fun w => w.1.toList.head? != some 'w') = true := by decide
  have hphrase (g : Granularity) (instantOf : String → Option Instant) :
      readPhrase? text g instantOf = none :=
    readPhrase?_eq_none fun _ hword => phrase_ne_of_takeWeekWord h hword g
  obtain ⟨w, e, e', k, rfl, hw, he, he', -⟩ := takeWeekWord?_eq_some h
  have hopens : opensPattern (w :: e :: e' :: k :: ' ' :: digits) = false := by
    have hlower : opensPattern ((w :: e :: e' :: k :: ' ' :: digits).map Char.toLower) = false := by
      simp only [List.map_cons, hw, he, he']
      rfl
    rwa [opensPattern_map_toLower] at hlower
  have hword : readDayWord? now (w :: e :: e' :: k :: ' ' :: digits) = none := by
    apply readDayWord?_eq_none
    intro a ha
    apply ne_lower_of_head? (toNat_lt_of_toLower (by decide) hw)
    rw [hw]
    exact bne_iff_ne.1 (List.all_eq_true.1 hwords a ha)
  unfold readDay? readMonth? readYear?
  dsimp only
  rw [hword, readWeekday?_eq_none hopens, hphrase, hphrase]
  iterate 4 rw [readPatterns?_eq_none ?_ hopens]
  · exact ⟨rfl, rfl⟩
  all_goals simp +contextual [Pattern.periods]

/-- A text that begins with the word `week` is no period but a week by its number. -/
theorem readPeriod?_of_takeWeekWord {digits : List Char} (h : takeWeekWord? text = some digits) :
    readPeriod? now text = readWeekNumber? now text := by
  obtain ⟨hday, hothers⟩ := readDay?_of_takeWeekWord now h
  have hphrase (instantOf : String → Option Instant) : readPhrase? text .week instantOf = none :=
    readPhrase?_eq_none fun _ hword => phrase_ne_of_takeWeekWord h hword .week
  simp only [Option.orElse_eq_orElse, Option.orElse_eq_or, Option.or_eq_none_iff] at hothers
  unfold readPeriod? readWeek?
  rw [hday, hothers.1, hothers.2, hphrase]
  rfl

theorem readWeekNumber?_digits {ds : List Char} (hne : ds ≠ []) (hlength : ds.length ≤ 2)
    (hdigits : ∀ c ∈ ds, c.isDigit = true) (now : Instant) :
    let n := Decimal.natOfDigits ds
    let day := Granularity.week.startDay (yearStart (yearOf now.day)) + 7 * (n - 1)
    readWeekNumber? now ("week ".toList ++ ds) =
      if 1 ≤ n ∧ n ≤ 53 ∧ weekNumber day = n then some (tagged (.midnight day) .week weekFormat)
      else none := by
  have hnumber : readWeekDigits? ("week ".toList ++ ds) = some (Decimal.natOfDigits ds) :=
    readWeekDigits?_eq_some.2 ⟨ds, rfl, hne, hlength, hdigits, rfl⟩
  rw [readWeekNumber?, hnumber]
  rfl

theorem readPeriod?_week {n : Nat} (hn : 1 ≤ n ∧ n ≤ 53)
    (hday : weekNumber (Granularity.week.startDay (yearStart (yearOf now.day)) + 7 * (n - 1)) = n) :
    readPeriod? now ("week ".toList ++ Decimal.digitsOfNat n) = some (tagged
      (.midnight (Granularity.week.startDay (yearStart (yearOf now.day)) + 7 * (n - 1))) .week
      weekFormat) := by
  have htake : takeWeekWord? ("week ".toList ++ Decimal.digitsOfNat n) =
      some (Decimal.digitsOfNat n) := rfl
  have hlength : (Decimal.digitsOfNat n).length ≤ 2 :=
    (Nat.length_toDigits_le_iff (by decide) (by decide)).2 (by omega)
  have hread := readWeekNumber?_digits (Decimal.digitsOfNat_ne_nil n) hlength
    (fun _ => Decimal.isDigit_of_mem_digitsOfNat) now
  rw [Decimal.natOfDigits_digitsOfNat] at hread
  rw [readPeriod?_of_takeWeekWord htake, hread]
  exact if_pos ⟨hn.1, hn.2, hday⟩

end Weeks

section Rereading

theorem readPeriod?_trim_of_written (htrim : trim text = text) {w : List Char}
    (h : sameLetters w text = true) : readPeriod? now (trim w) = readPeriod? now text := by
  apply apply_of_sameLetters (readPeriod?_map_toLower now)
  rw [sameLetters_iff, ← trim_map_toLower, sameLetters_iff.1 h, trim_map_toLower, htrim]

theorem write_week (now : Instant) {n : Nat} (h : weekNumber t.day = n) :
    DateValue.write now none (tagged t .week weekFormat) =
      "week ".toList ++ Decimal.digitsOfNat n := by
  have hnear : (periodWords.any fun w =>
      sameLetters (phrase w .week).toList weekFormat.toList) = false := by decide
  have hformat : writeFormat weekFormat t (some .week) =
      "week ".toList ++ (toString (weekNumber t.day)).toList := by
    unfold writeFormat
    rw [if_neg (by decide), if_neg (by decide), if_pos rfl]
  have hwrite : DateValue.write now none (tagged t .week weekFormat) =
      writePeriod now .week t weekFormat := rfl
  rw [hwrite, writePeriod_of_not_near hnear, hformat, h, toList_toString_natCast]

theorem trim_weekDigits {ds : List Char} (hne : ds ≠ []) (hdigits : ∀ c ∈ ds, c.isDigit = true) :
    trim ("week ".toList ++ ds) = "week ".toList ++ ds := by
  apply trim_of_ends
  · rintro c hc
    obtain rfl : 'w' = c := Option.some.inj hc
    decide
  · rintro c hc
    have hlast := List.getLast?_eq_some_getLast hne
    rw [List.getLast?_append, hlast, Option.some_or, ← hlast] at hc
    exact isBlank_of_isDigit (hdigits c (List.mem_of_getLast? hc))

theorem read?_of_readPeriod (htrim : trim text = text) (h : readPeriod? now text = some d) :
    DateValue.read? now text = some d := by
  rw [DateValue.read?, htrim, readTrimmed?_eq, h]
  rfl

/-- A period that a pattern writes is read as what the pattern was read as. -/
theorem read?_of_written {w : List Char} (htrim : trim text = text)
    (hsame : sameLetters w text = true) (h : readPeriod? now text = some d) :
    DateValue.read? now w = some d := by
  rw [DateValue.read?, readTrimmed?_eq, readPeriod?_trim_of_written htrim hsame, h]
  rfl

theorem read?_dayWord (now : Instant) {w : String × Int} (hw : w ∈ dayWords) :
    DateValue.read? now w.1.toList =
      some (tagged (Granularity.day.start (now.addDays w.2)) .day w.1) := by
  have hall : (dayWords.all fun w => trim w.1.toList == w.1.toList) = true := by decide
  have htrim := beq_iff_eq.1 (List.all_eq_true.1 hall w hw)
  exact read?_of_readPeriod htrim (readPeriod?_dayWord now hw)

theorem read?_phrase {w : String × Instant} (hw : w ∈ neighbours now g) :
    DateValue.read? now (phrase w.1 g).toList =
      some (tagged (g.start w.2) g (phrase w.1 g)) := by
  have hall : (phrases.all fun s => trim s.toList == s.toList) = true := by decide
  have htrim := beq_iff_eq.1 (List.all_eq_true.1 hall _
    (phrase_mem_phrases (mem_periodWords_of_mem_neighbours hw) g))
  exact read?_of_readPeriod htrim (readPeriod?_phrase hw)

theorem read?_write_dayWord (now : Instant) {w : String × Int} (hw : w ∈ dayWords) :
    DateValue.read? now
        (DateValue.write now none (tagged (Granularity.day.start (now.addDays w.2)) .day w.1)) =
      some (tagged (Granularity.day.start (now.addDays w.2)) .day
        (if Granularity.day.start now = Granularity.day.start (now.addDays w.2) then "today"
          else w.1)) := by
  refine (congrArg (DateValue.read? now) (writeDay_dayWord now hw)).trans ?_
  split
  · rename_i hnow
    have htoday := read?_dayWord now (w := ("today", 0)) (by simp [dayWords])
    have hzero : now.addDays 0 = now := by simp [Instant.addDays]
    rwa [hzero, hnow] at htoday
  · exact read?_dayWord now hw

theorem write_phrase {w : String × Instant} (hw : w ∈ neighbours now g) :
    DateValue.write now none (tagged (g.start w.2) g (phrase w.1 g)) =
      (phrase (if g.start now = g.start w.2 then "this" else w.1) g).toList := by
  refine Eq.trans ?_ (writePeriod_phrase hw)
  obtain ⟨hg, -⟩ := neighbours_cases hw
  cases g with
  | day => exact absurd rfl hg
  | week | month | year => rfl

/-- A near period is read again in its phrase, or in the phrase for the present one if it is
that. -/
theorem read?_write_phrase {w : String × Instant} (hw : w ∈ neighbours now g) :
    DateValue.read? now (DateValue.write now none (tagged (g.start w.2) g (phrase w.1 g))) =
      some (tagged (g.start w.2) g
        (phrase (if g.start now = g.start w.2 then "this" else w.1) g)) := by
  obtain ⟨hg, -⟩ := neighbours_cases hw
  rw [write_phrase hw]
  split
  · rename_i hnow
    have hthis := read?_phrase (this_mem_neighbours hg now)
    rwa [hnow] at hthis
  · exact read?_phrase hw

theorem read?_week {n : Nat} (hn : 1 ≤ n ∧ n ≤ 53)
    (hday : weekNumber (Granularity.week.startDay (yearStart (yearOf now.day)) + 7 * (n - 1)) = n) :
    DateValue.read? now ("week ".toList ++ Decimal.digitsOfNat n) = some (tagged
      (.midnight (Granularity.week.startDay (yearStart (yearOf now.day)) + 7 * (n - 1))) .week
      weekFormat) :=
  read?_of_readPeriod
    (trim_weekDigits (Decimal.digitsOfNat_ne_nil n) fun _ => Decimal.isDigit_of_mem_digitsOfNat)
    (readPeriod?_week hn hday)

end Rereading

end SearchBar.Calendar
