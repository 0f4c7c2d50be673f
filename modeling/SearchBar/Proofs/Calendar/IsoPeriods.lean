import SearchBar.Proofs.Calendar.Timestamps

/-! # Periods in numbers

A day, a month or a year in the form of ISO 8601 consists of numbers and signs. No pattern
with a name accepts it, the patterns without one differ in the dashes that they write, and
so it is read as the period that it was written for.
-/

namespace SearchBar.Calendar

open Text

variable {now t : Instant} {text rest : List Char} {g : Granularity} {p : Pattern} {q : Parts}

section Numerals

def isNumeral (c : Char) : Bool := c.isDigit || c == '-' || c == '+'

theorem isNumeral_of_isDigit {c : Char} (h : c.isDigit = true) : isNumeral c = true := by
  simp [isNumeral, h]

theorem isNumeral_of_isAlpha {c : Char} (h : c.isAlpha = true) : isNumeral c = false := by
  cases hc : isNumeral c with
  | false => rfl
  | true =>
    simp only [isNumeral, Bool.or_eq_true, beq_iff_eq] at hc
    rcases hc with (hc | rfl) | rfl
    · have hall : ((List.range 10).all fun n => !(Nat.digitChar n).isAlpha) = true := by decide
      obtain ⟨n, hn, rfl⟩ := exists_digitChar hc
      have hno := List.all_eq_true.1 hall n (List.mem_range.2 hn)
      simp [h] at hno
    · exact absurd h (by decide)
    · exact absurd h (by decide)

theorem all_isNumeral_map_toLower (cs : List Char) :
    (cs.map Char.toLower).all isNumeral = cs.all isNumeral := by
  rw [List.all_map]
  exact congrArg cs.all (funext (apply_toLower (by decide)))

theorem lower_of_numerals (h : text.all isNumeral = true) : lower text = text := by
  have hchar (c : Char) (hc : isNumeral c = true) : c.toNat < 128 ∧ c.toLower = c := by
    simp only [isNumeral, Bool.or_eq_true, beq_iff_eq] at hc
    rcases hc with (hc | rfl) | rfl
    · exact ⟨toNat_lt_of_isDigit hc, toLower_of_isDigit hc⟩
    · decide
    · decide
  have hall := List.all_eq_true.1 h
  rw [lower, lowerAfter_of_ascii [] fun c hc => (hchar c (hall c hc)).1]
  exact (List.map_congr_left fun c hc => (hchar c (hall c hc)).2).trans (List.map_id' text)

def Pattern.isNamed (p : Pattern) : Bool :=
  p.fields.any [Field.monthShort, .monthLong, .weekdayShort, .weekdayLong].contains

theorem Pattern.exists_letter_mem_write (hp : p.isNamed = true) (t : Instant) :
    ∃ c ∈ p.write t, isNumeral c = false := by
  obtain ⟨f, hf, hname⟩ := List.any_eq_true.1 hp
  have hletter {c : Char} (hc : c ∈ f.write t) (h : c.isAlpha = true) :
      ∃ c ∈ p.write t, isNumeral c = false :=
    ⟨c, List.mem_flatMap.2 ⟨f, hf, hc⟩, isNumeral_of_isAlpha h⟩
  obtain ⟨h1, h12, -, -⟩ := Date.exists_ofDay t.day
  obtain ⟨m, hm⟩ := List.exists_mem_of_ne_nil _ (isSolid_monthName h1 h12).1
  obtain ⟨w, hw⟩ := List.exists_mem_of_ne_nil _ (isSolid_weekdayName t.day).1
  have hmonth := isAlpha_of_mem_monthName (List.mem_of_mem_take hm)
  have hweekday := isAlpha_of_mem_weekdayName (List.mem_of_mem_take hw)
  simp only [List.contains_eq_mem, decide_eq_true_eq, List.mem_cons, List.not_mem_nil,
    or_false] at hname
  rcases hname with rfl | rfl | rfl | rfl
  · exact hletter hm hmonth
  · exact hletter (List.mem_of_mem_take hm) hmonth
  · exact hletter hw hweekday
  · exact hletter (List.mem_of_mem_take hw) hweekday

variable (htext : text.all isNumeral = true)
include htext

theorem Pattern.not_sameLetters_of_isNamed (hp : p.isNamed = true) (t : Instant) :
    sameLetters (p.write t) text = false := by
  cases h : sameLetters (p.write t) text with
  | false => rfl
  | true =>
    obtain ⟨c, hc, hletter⟩ := p.exists_letter_mem_write hp t
    rw [← apply_of_sameLetters (f := (·.all isNumeral)) all_isNumeral_map_toLower h] at htext
    simp [List.all_eq_true.1 htext c hc] at hletter

theorem readPatterns?_of_numerals (patterns : List Pattern) (completion : List Char)
    (completedBy : List Field) :
    readPatterns? text g patterns completion completedBy =
      readPatterns? text g (patterns.filter fun p => !p.isNamed) completion completedBy := by
  unfold readPatterns?
  induction patterns with
  | nil => rfl
  | cons p patterns ih =>
    rw [List.findSome?_cons, ih]
    cases hp : p.isNamed with
    | false => rw [List.filter_cons_of_pos (by simp [hp]), List.findSome?_cons]
    | true =>
      rw [List.filter_cons_of_neg (by simp [hp])]
      cases hread : p.readDay? completion completedBy text with
      | none => rfl
      | some day =>
        have hsame := Pattern.sameLetters_of_readDay hread
        rw [Pattern.not_sameLetters_of_isNamed htext hp] at hsame
        exact absurd hsame Bool.false_ne_true

theorem readWeekday?_of_numerals : readWeekday? now text = none := by
  have hall : (Pattern.weekdays.all Pattern.isNamed) = true := by decide
  apply List.findSome?_eq_none_iff.2
  intro p hp
  apply List.findSome?_eq_none_iff.2
  intro t _
  rw [if_neg]
  rw [Pattern.not_sameLetters_of_isNamed htext (List.all_eq_true.1 hall p hp)]
  exact Bool.false_ne_true

theorem readDayWord?_of_numerals : readDayWord? now text = none := by
  have hall : (dayWords.all fun w => !w.1.toList.all isNumeral) = true := by decide
  apply readDayWord?_eq_none
  intro w hw hlower
  have hno := List.all_eq_true.1 hall w hw
  rw [hlower, lower_of_numerals htext, htext] at hno
  exact absurd hno (by decide)

theorem readPhrase?_of_numerals (instantOf : String → Option Instant) :
    readPhrase? text g instantOf = none := by
  have hall : (phrases.all fun s => !s.toList.all isNumeral) = true := by decide
  apply readPhrase?_eq_none
  intro word hword hlower
  have hno := List.all_eq_true.1 hall _ (phrase_mem_phrases hword g)
  rw [hlower, lower_of_numerals htext, htext] at hno
  exact absurd hno (by decide)

omit htext

end Numerals

section Fields

theorem takeBetween?_padded {low high width n : Nat} (hlength : (padded width n).length ≤ width)
    (hn : low ≤ n ∧ n ≤ high) (hstop : stopsAt (fun c => !c.isDigit) rest = true) :
    takeBetween? low high width (padded width n ++ rest) = some (n, rest) := by
  rw [takeBetween?, takeNumber?_append (padded_ne_nil _ _) (fun _ => isDigit_of_mem_padded) hlength
    hstop, natOfDigits_padded]
  simp [hn]

variable (hstop : stopsAt (fun c => !c.isDigit) rest = true)
include hstop

theorem takeLongNumber?_padded (width n : Nat) :
    takeLongNumber? (padded width n ++ rest) = some (n, rest) := by
  rw [takeLongNumber?, takeNumber?_append (padded_ne_nil _ _) (fun _ => isDigit_of_mem_padded)
    (by rw [List.length_append]; omega) hstop, natOfDigits_padded]

theorem takeYear?_yearText (y : Int) : takeYear? (yearText y ++ rest) = some (y, rest) := by
  unfold yearText
  split
  · rename_i hplain
    obtain ⟨c, ds, hds⟩ := List.exists_cons_of_ne_nil (padded_ne_nil 4 y.toNat)
    have hc : c.isDigit = true := isDigit_of_mem_padded (hds ▸ List.mem_cons_self)
    have hminus : c ≠ '-' := by
      rintro rfl
      exact absurd hc (by decide)
    have hplus : c ≠ '+' := by
      rintro rfl
      exact absurd hc (by decide)
    have hlength : (padded 4 y.toNat).length = 4 := length_padded (by decide) (by omega)
    have hcast : (y.toNat : Int) = y := Int.toNat_of_nonneg hplain.1
    rw [hds, List.cons_append, takeYear?_of_unsigned hminus hplus, ← List.cons_append, ← hds,
      takeNumber?_append (padded_ne_nil _ _) (fun _ => isDigit_of_mem_padded)
        (Nat.le_of_eq hlength) hstop, natOfDigits_padded]
    simp [hcast]
  · rename_i hplain
    split
    · rename_i hneg
      have habs : -(y.natAbs : Int) = y := by omega
      rw [List.cons_append, takeYear?, takeLongNumber?_padded hstop]
      exact congrArg (fun n => some (n, rest)) habs
    · have habs : (y.natAbs : Int) = y := by omega
      rw [List.cons_append, takeYear?, takeLongNumber?_padded hstop]
      exact congrArg (fun n => some (n, rest)) habs

theorem Field.read?_year (y : Int) :
    Field.read? q (yearText y ++ rest) .year = some ({ q with year := some y }, rest) := by
  rw [Field.read?, trimStart_append (isSolid_yearText y), takeYear?_yearText hstop]
  rfl

theorem Field.read?_month {m : Nat} (hm : 1 ≤ m ∧ m ≤ 12) :
    Field.read? q (padded 2 m ++ rest) .month = some ({ q with month := some m }, rest) := by
  have hlength : (padded 2 m).length = 2 := length_padded (by decide) (by omega)
  rw [Field.read?, trimStart_append (isSolid_padded 2 m),
    takeBetween?_padded (Nat.le_of_eq hlength) hm hstop]
  rfl

theorem Field.read?_day {n : Nat} {isPadded : Bool} (hn : 1 ≤ n ∧ n ≤ 31) :
    Field.read? q (padded 2 n ++ rest) (.day isPadded) = some ({ q with day := some n }, rest) := by
  have hlength : (padded 2 n).length = 2 := length_padded (by decide) (by omega)
  rw [Field.read?, trimStart_append (isSolid_padded 2 n),
    takeBetween?_padded (Nat.le_of_eq hlength) hn hstop]
  rfl

omit hstop

theorem Field.read?_literal (c : Char) : Field.read? q (c :: rest) (.literal c) = some (q, rest) :=
  if_pos rfl

theorem Parts.day?_of_date {d : Date} (hexists : d.Exists) (hkept : yearKept d.year = true)
    (hyear : q.year = some d.year) (hmonth : q.month = some d.month) (hday : q.day = some d.day) :
    q.day? = some d.toDay := by
  have hdate : d.kept = true := by
    rw [Date.kept, hkept, decide_eq_true hexists]
    rfl
  simp only [day?, fullYear?, hyear, hmonth, hday]
  exact if_pos hdate

end Fields

section Patterns

/-- The pattern that writes periods of a unit in the form of ISO 8601. -/
def isoPattern : Granularity → Pattern
  | .day | .week => ⟨"YYYY-MM-DD", [.year, .literal '-', .month, .literal '-', .day true]⟩
  | .month => ⟨"YYYY-MM", [.year, .literal '-', .month]⟩
  | .year => ⟨"YYYY", [.year]⟩

theorem isoText_eq_write (g : Granularity) (t : Instant) : g.isoText t = (isoPattern g).write t := by
  cases g <;> rfl

theorem isNumeral_of_mem_isoText {c : Char} (h : c ∈ g.isoText t) : isNumeral c = true := by
  have hall : (Granularity.all.all fun g => (isoPattern g).fields.all
      [Field.year, .literal '-', .month, .day true].contains) = true := by decide
  rw [isoText_eq_write] at h
  obtain ⟨f, hf, h⟩ := List.mem_flatMap.1 h
  have hfield := List.all_eq_true.1 (List.all_eq_true.1 hall g g.mem_all) f hf
  simp only [List.contains_eq_mem, decide_eq_true_eq, List.mem_cons, List.not_mem_nil,
    or_false] at hfield
  rcases hfield with rfl | rfl | rfl | rfl
  · rcases mem_yearText h with h | rfl | rfl
    · exact isNumeral_of_isDigit h
    · rfl
    · rfl
  · obtain rfl : c = '-' := by simpa [Field.write] using h
    rfl
  · exact isNumeral_of_isDigit (isDigit_of_mem_padded h)
  · exact isNumeral_of_isDigit (isDigit_of_mem_twoDigits h)

theorem all_isNumeral_isoText (g : Granularity) (t : Instant) :
    (g.isoText t).all isNumeral = true :=
  List.all_eq_true.2 fun _ => isNumeral_of_mem_isoText

/-- Dashes that are not the sign of the year. -/
def dashes (cs : List Char) : Nat := cs.tail.count '-'

theorem dashes_map_toLower (cs : List Char) : dashes (cs.map Char.toLower) = dashes cs := by
  have hdash (c : Char) : (c.toLower == '-') = (c == '-') :=
    apply_toLower (f := (· == '-')) (by decide) c
  unfold dashes
  rw [← List.map_tail, List.count_eq_countP, List.countP_map, List.count_eq_countP]
  exact congrArg (List.countP · cs.tail) (funext hdash)

theorem count_dash_of_digits {ds : List Char} (h : ∀ c ∈ ds, c.isDigit = true) :
    ds.count '-' = 0 := by
  apply List.count_eq_zero.2
  intro hmem
  exact absurd (h _ hmem) (by decide)

theorem dashes_yearText_append (y : Int) (rest : List Char) :
    dashes (yearText y ++ rest) = rest.count '-' := by
  unfold yearText dashes
  have hpadded (n : Nat) : (padded 4 n).count '-' = 0 :=
    count_dash_of_digits fun _ => isDigit_of_mem_padded
  split
  · obtain ⟨c, ds, hds⟩ := List.exists_cons_of_ne_nil (padded_ne_nil 4 y.toNat)
    have hcount : ds.count '-' = 0 := by
      apply count_dash_of_digits
      intro c hc
      exact isDigit_of_mem_padded (hds ▸ List.mem_cons_of_mem _ hc)
    rw [hds, List.cons_append, List.tail_cons, List.count_append, hcount, Nat.zero_add]
  · rw [List.cons_append, List.tail_cons, List.count_append, hpadded, Nat.zero_add]

/-- Each form has as many dashes as it has units behind the year. -/
theorem dashes_isoText (g : Granularity) (t : Instant) : dashes (g.isoText t) =
    match g with
    | .day | .week => 2
    | .month => 1
    | .year => 0 := by
  have hpadded (n : Nat) : (padded 2 n).count '-' = 0 :=
    count_dash_of_digits fun _ => isDigit_of_mem_padded
  cases g with
  | day | week | month =>
    simp [Granularity.isoText, writeFields, Field.write, twoDigits, dashes_yearText_append, hpadded]
  | year =>
    have hyear := dashes_yearText_append (Date.ofDay t.day).year []
    simpa [Granularity.isoText, writeFields, Field.write] using hyear

theorem dashes_eq_of_readDay {completion : List Char} {completedBy : List Field} {n : Int}
    (h : (isoPattern g).readDay? completion completedBy text = some n) :
    dashes text = dashes (g.isoText (.midnight n)) := by
  rw [isoText_eq_write]
  exact (apply_of_sameLetters dashes_map_toLower (Pattern.sameLetters_of_readDay h)).symm

end Patterns

section Reading

theorem Pattern.readDay?_write {completion : List Char} {completedBy : List Field} {n : Int}
    (h : (readFields? (p.fields ++ completedBy) {} (p.write (.midnight n) ++ completion)).bind
      Parts.day? = some n) :
    p.readDay? completion completedBy (p.write (.midnight n)) = some n := by
  rw [readDay?, h, Option.filter_some, sameLetters_refl]
  rfl

theorem readFields?_yearMonth {fs : List Field} {y : Int} {m : Nat} (hm : 1 ≤ m ∧ m ≤ 12)
    (hstop : stopsAt (fun c => !c.isDigit) rest = true) :
    readFields? (.year :: .literal '-' :: .month :: fs) q
        (yearText y ++ '-' :: (padded 2 m ++ rest)) =
      readFields? fs { q with year := some y, month := some m } rest := by
  rw [readFields?, Field.read?_year rfl, Option.bind_some, readFields?, Field.read?_literal,
    Option.bind_some, readFields?, Field.read?_month hstop hm]
  rfl

theorem readDay?_isoText_day {n : Int} (hkept : yearKept (yearOf n) = true) :
    (isoPattern .day).readDay? [] [] (Granularity.day.isoText (.midnight n)) = some n := by
  obtain ⟨hm, hd⟩ := month_day_bounds (.midnight n)
  rw [day_midnight] at hm hd
  have hwrite : (isoPattern .day).write (.midnight n) ++ [] = yearText (Date.ofDay n).year ++
      '-' :: (padded 2 (Date.ofDay n).month ++ '-' :: (padded 2 (Date.ofDay n).day ++ [])) := by
    simp [isoPattern, Pattern.write, writeFields, Field.write, twoDigits, Instant.midnight]
  rw [isoText_eq_write]
  apply Pattern.readDay?_write
  rw [hwrite, isoPattern, List.append_nil]
  dsimp only
  have hlast (q : Parts) : readFields? [] q [] = some q := rfl
  rw [readFields?_yearMonth hm rfl, readFields?, Field.read?_literal, Option.bind_some, readFields?,
    Field.read?_day rfl hd, Option.bind_some, hlast, Option.bind_some]
  exact (Parts.day?_of_date (Date.exists_ofDay n) hkept rfl rfl rfl).trans
    (congrArg some (Date.toDay_ofDay n))

theorem readDay?_isoText_month {k : Int} (hkept : yearKept (k / 12) = true) :
    (isoPattern .month).readDay? [' ', '1'] [.gap, .day true]
      (Granularity.month.isoText (.midnight (firstOfMonth k).toDay)) =
        some (firstOfMonth k).toDay := by
  obtain ⟨h1, h12, -, -⟩ := exists_firstOfMonth k
  have hwrite : (isoPattern .month).write (.midnight (firstOfMonth k).toDay) ++ [' ', '1'] =
      yearText (firstOfMonth k).year ++ '-' :: (padded 2 (firstOfMonth k).month ++ [' ', '1']) := by
    simp [isoPattern, Pattern.write, writeFields, Field.write, Instant.midnight, ofDay_firstOfMonth]
  rw [isoText_eq_write]
  apply Pattern.readDay?_write
  rw [hwrite, isoPattern]
  dsimp only [List.cons_append, List.nil_append]
  have hlast (q : Parts) : readFields? [.gap, .day true] q [' ', '1'] =
      some { q with day := some 1 } := rfl
  rw [readFields?_yearMonth ⟨h1, h12⟩ rfl, hlast, Option.bind_some]
  exact Parts.day?_of_date (exists_firstOfMonth k) hkept rfl rfl rfl

theorem readDay?_isoText_year {y : Int} (hkept : yearKept y = true) :
    (isoPattern .year).readDay? "-01-01".toList [.literal '-', .month, .literal '-', .day true]
      (Granularity.year.isoText (.midnight (yearStart y))) = some (yearStart y) := by
  have hyear : 12 * y / 12 = y := Int.mul_ediv_cancel_left y (by decide)
  have hexists := exists_firstOfMonth (12 * y)
  have hofDay := ofDay_firstOfMonth (12 * y)
  have hfirst : firstOfMonth (12 * y) = ⟨y, 1, 1⟩ := by
    simp [firstOfMonth, hyear]
  rw [← toDay_firstOfMonth_twelve, hfirst]
  rw [hfirst] at hexists hofDay
  have hwrite : (isoPattern .year).write (.midnight (Date.toDay ⟨y, 1, 1⟩)) ++ "-01-01".toList =
      yearText y ++ '-' :: (padded 2 1 ++ "-01".toList) := by
    simp [isoPattern, Pattern.write, writeFields, Field.write, Instant.midnight, hofDay]
    rfl
  rw [isoText_eq_write]
  apply Pattern.readDay?_write
  rw [hwrite, isoPattern]
  dsimp only [List.cons_append, List.nil_append]
  have hlast (q : Parts) : readFields? [.literal '-', .day true] q "-01".toList =
      some { q with day := some 1 } := rfl
  rw [readFields?_yearMonth (by decide) rfl, hlast, Option.bind_some]
  exact Parts.day?_of_date hexists hkept rfl rfl rfl

theorem trim_isoPeriod (g : Granularity) (t : Instant) : trim (g.isoText t) = g.isoText t := by
  apply trim_of_forall
  intro c hc
  have hnumeral := isNumeral_of_mem_isoText hc
  simp only [isNumeral, Bool.or_eq_true, beq_iff_eq] at hnumeral
  rcases hnumeral with (hdigit | rfl) | rfl
  · exact isBlank_of_isDigit hdigit
  · rfl
  · rfl

/-- The forms of two units are told apart by their dashes. -/
theorem readDay?_isoPattern_eq_none {g' : Granularity} {completion : List Char}
    {completedBy : List Field} (hne : ∀ n, dashes (g.isoText t) ≠ dashes (g'.isoText (.midnight n))) :
    (isoPattern g').readDay? completion completedBy (g.isoText t) = none := by
  cases h : (isoPattern g').readDay? completion completedBy (g.isoText t) with
  | none => rfl
  | some n => exact absurd (dashes_eq_of_readDay h) (hne n)

theorem readPatterns?_singleton (completion : List Char) (completedBy : List Field) :
    readPatterns? text g [p] completion completedBy =
      (p.readDay? completion completedBy text).map fun n => tagged (.midnight n) g p.name := by
  rw [readPatterns?, List.findSome?_singleton]

theorem readDay?_isoText (g : Granularity) (t : Instant) : readDay? now (g.isoText t) =
    ((isoPattern .day).readDay? [] [] (g.isoText t)).map fun n =>
      tagged (.midnight n) .day (isoPattern .day).name := by
  have htext := all_isNumeral_isoText g t
  have hfilter : (Pattern.days.filter fun p => !p.isNamed) = [isoPattern .day] := by decide
  rw [readDay?, readDayWord?_of_numerals htext, readWeekday?_of_numerals htext,
    readPatterns?_of_numerals htext, hfilter, readPatterns?_singleton]
  rfl

theorem readMonth?_isoText (g : Granularity) (t : Instant) : readMonth? now (g.isoText t) =
    ((isoPattern .month).readDay? [' ', '1'] [.gap, .day true] (g.isoText t)).map fun n =>
      tagged (.midnight n) .month (isoPattern .month).name := by
  have htext := all_isNumeral_isoText g t
  have hbare : (Pattern.bareMonths.filter fun p => !p.isNamed) = [] := by decide
  have hfilter : (Pattern.months.filter fun p => !p.isNamed) = [isoPattern .month] := by decide
  unfold readMonth?
  dsimp only
  rw [readPhrase?_of_numerals htext, readPatterns?_of_numerals htext Pattern.bareMonths,
    hbare, readPatterns?_of_numerals htext Pattern.months, hfilter, readPatterns?_singleton]
  rfl

theorem le_length_yearText (y : Int) : 4 ≤ (yearText y).length := by
  have hpadded (n : Nat) : 4 ≤ (padded 4 n).length := by
    simp only [padded, List.length_append, List.length_replicate]
    omega
  unfold yearText
  split
  · exact hpadded _
  · exact Nat.le_succ_of_le (hpadded _)

theorem readDay?_yearOfCentury_eq_none {completion : List Char} {completedBy : List Field}
    (t : Instant) :
    (⟨"YY", [.yearOfCentury]⟩ : Pattern).readDay? completion completedBy
      (Granularity.year.isoText t) = none := by
  cases h : (⟨"YY", [.yearOfCentury]⟩ : Pattern).readDay? completion completedBy
      (Granularity.year.isoText t) with
  | none => rfl
  | some n =>
    have hlength := congrArg List.length (sameLetters_iff.1 (Pattern.sameLetters_of_readDay h))
    have hshort : (padded 2 ((Date.ofDay n).year % 100).toNat).length = 2 :=
      length_padded (by decide) (by omega)
    have hlong := le_length_yearText (Date.ofDay t.day).year
    simp only [Pattern.write, writeFields, List.flatMap_cons, List.flatMap_nil, Field.write,
      Granularity.isoText, List.append_nil, List.length_map, day_midnight, hshort] at hlength
    omega

theorem readYear?_isoText (t : Instant) : readYear? now (Granularity.year.isoText t) =
    ((isoPattern .year).readDay? "-01-01".toList [.literal '-', .month, .literal '-', .day true]
      (Granularity.year.isoText t)).map fun n =>
        tagged (.midnight n) .year (isoPattern .year).name := by
  have hfilter : (Pattern.years.filter fun p => !p.isNamed) =
      ⟨"YY", [.yearOfCentury]⟩ :: [isoPattern .year] := by decide
  have hcons (ps : List Pattern) (completion : List Char) (completedBy : List Field) :
      readPatterns? (Granularity.year.isoText t) .year (⟨"YY", [.yearOfCentury]⟩ :: ps) completion
        completedBy = readPatterns? (Granularity.year.isoText t) .year ps completion completedBy := by
    rw [readPatterns?, List.findSome?_cons, readDay?_yearOfCentury_eq_none]
    rfl
  rw [readYear?, readPhrase?_of_numerals (all_isNumeral_isoText _ t),
    readPatterns?_of_numerals (all_isNumeral_isoText _ t), hfilter, hcons, readPatterns?_singleton]
  rfl

/-- A period of a unit other than the week is read from its form of ISO 8601. -/
theorem readPeriod?_isoText (hg : g ≠ .week)
    (hkept : yearKept (yearOf (g.startDay t.day)) = true) :
    readPeriod? now (g.isoText (g.start t)) =
      some (tagged (g.start t) g (isoPattern g).name) := by
  unfold readPeriod?
  rw [readDay?_isoText]
  cases g with
  | week => exact absurd rfl hg
  | day =>
    rw [Granularity.start, readDay?_isoText_day hkept]
    rfl
  | month =>
    rw [Granularity.startDay_month, Date.yearOf_toDay (exists_firstOfMonth _)] at hkept
    have hmonth := readDay?_isoText_month hkept
    have hday : (isoPattern .day).readDay? [] [] (Granularity.month.isoText _) = none :=
      readDay?_isoPattern_eq_none (t := Granularity.month.start t) (by simp [dashes_isoText])
    rw [hday, readMonth?_isoText, start_month_eq, hmonth]
    rfl
  | year =>
    have hyear : yearOf (yearStart (yearOf t.day)) = yearOf t.day :=
      yearOf_unique (Int.le_refl _) (yearStart_lt (by omega))
    rw [Granularity.startDay, hyear] at hkept
    have hday : (isoPattern .day).readDay? [] [] (Granularity.year.isoText _) = none :=
      readDay?_isoPattern_eq_none (t := Granularity.year.start t) (by simp [dashes_isoText])
    have hmonth : (isoPattern .month).readDay? [' ', '1'] [.gap, .day true]
        (Granularity.year.isoText _) = none :=
      readDay?_isoPattern_eq_none (t := Granularity.year.start t) (by simp [dashes_isoText])
    rw [hday, readMonth?_isoText, hmonth, readYear?_isoText, Granularity.start,
      Granularity.startDay, readDay?_isoText_year hkept]
    rfl

theorem read?_isoText_period (hg : g ≠ .week)
    (hkept : yearKept (yearOf (g.startDay t.day)) = true) :
    DateValue.read? now (g.isoText (g.start t)) =
      some (tagged (g.start t) g (isoPattern g).name) :=
  read?_of_readPeriod (trim_isoPeriod g _) (readPeriod?_isoText hg hkept)

end Reading

end SearchBar.Calendar
