import SearchBar.Proofs.Calendar.Wording

/-! # Dates are read as they are written

What is written for a date that was read is read again as an equal date, up to the
fraction of a second. Only a timestamp of interchange whose year is not from 0 to 9999 is
written in a text that is no date.
-/

namespace SearchBar.Calendar

open Text

variable {now t : Instant} {text : List Char} {d : DateValue}

section Interchange

theorem read?_of_readTimestamp (htrim : trim text = text) (hcolon : ':' ∈ text) {c : Char}
    (hmem : c ∈ text) (hc : isTimeChar c = false) :
    DateValue.read? now text = readTimestamp? text := by
  rw [DateValue.read?, htrim, readTrimmed?_eq, readPeriod?_eq_none_of_colon hcolon,
    readTime?_eq_none hmem hc]
  rfl

theorem trim_of_solid_ends {a b : List Char} (ha : IsSolid a) (hb : IsSolid b)
    (hfirst : a <+: text) (hlast : b <:+ text) : trim text = text := by
  obtain ⟨x, hx⟩ := hfirst
  obtain ⟨y, hy⟩ := hlast
  apply trim_of_ends
  · rintro c hc
    obtain ⟨c', a, rfl⟩ := List.exists_cons_of_ne_nil ha.1
    rw [← hx] at hc
    obtain rfl : c' = c := Option.some.inj hc
    exact ha.2 c' List.mem_cons_self
  · rintro c hc
    have hsome := List.getLast?_eq_some_getLast hb.1
    rw [← hy, List.getLast?_append, hsome, Option.some_or, ← hsome] at hc
    exact hb.2 c (List.mem_of_getLast? hc)

theorem trim_isoText (t : Instant) : trim (isoText t) = isoText t := by
  have hzulu : IsSolid ['Z'] := ⟨List.cons_ne_nil _ _, fun c hc => by rw [List.mem_singleton.1 hc]; rfl⟩
  have hyear : yearText (Date.ofDay t.day).year <+: isoText t := by
    rw [isoText_eq]
    exact List.prefix_append _ _
  exact trim_of_solid_ends (isSolid_yearText _) hzulu hyear (List.suffix_append _ _)

theorem readTimestampPattern?_eq_none {c : Char} (hblank : isBlank c = false)
    (hdigit : c.isDigit = false) (rest : List Char) : readTimestampPattern? (c :: rest) = none := by
  have hall : (Pattern.timestamps.all fun p => p.fields.head? == some (.day true)) = true := by
    decide
  have htrim : trimStart (c :: rest) = c :: rest := List.dropWhile_cons_of_neg (by simp [hblank])
  apply List.findSome?_eq_none_iff.2
  rintro p hp
  obtain ⟨fs, hfields⟩ := List.head?_eq_some_iff.1
    (beq_iff_eq.1 (List.all_eq_true.1 hall p hp))
  simp [hfields, readFields?, Field.read?, htrim, takeBetween?, takeNumber?, hdigit]

theorem read?_isoText (ht : t.IsRegular) : DateValue.read? now (isoText t) =
    if t.HasPlainYear then some { instant := t.dropFraction, format := some isoFormat }
    else none := by
  have hcolon : ':' ∈ isoText t := by simp [isoText_eq, isoTail]
  have hzulu : 'Z' ∈ isoText t := by simp [isoText_eq, isoTail]
  rw [read?_of_readTimestamp (trim_isoText t) hcolon hzulu rfl, readTimestamp?,
    readLocalTimestamp?_eq_none hzulu rfl]
  split
  · rename_i hplain
    rw [readOffsetTimestamp?_isoText hplain ht]
    rfl
  · rename_i hplain
    obtain ⟨c, rest, hc, hrest⟩ := yearText_of_not_hasPlainYear hplain
    have hdigit : c.isDigit = false := by rcases hc with rfl | rfl <;> rfl
    have hblank : isBlank c = false := by rcases hc with rfl | rfl <;> rfl
    have hmail : readMailTimestamp? (c :: (rest ++ isoTail t)) = none := by
      rcases hc with rfl | rfl <;> rfl
    rw [isoText_eq, hrest, List.cons_append, hmail,
      readOffsetTimestamp?_eq_none List.mem_cons_self hdigit,
      readTimestampPattern?_eq_none hblank hdigit]
    rfl

theorem trim_mailText (t : Instant) : trim (mailText t) = mailText t := by
  have hweek : (weekdayName (weekday t.day)).take 3 <+: mailText t := by
    rw [mailText_eq]
    exact List.prefix_append _ _
  have hzeros : padded 4 0 <:+ " +0000".toList := ⟨" +".toList, rfl⟩
  exact trim_of_solid_ends (isSolid_weekdayName _) (isSolid_padded 4 0) hweek
    (hzeros.trans (List.suffix_append _ _))

theorem read?_mailText (ht : t.IsRegular) : DateValue.read? now (mailText t) =
    if t.HasPlainYear then some { instant := t.dropFraction, format := some mailFormat }
    else none := by
  have hcolon : ':' ∈ mailText t := by simp [mailText_eq, mailClock]
  have hcomma : ',' ∈ mailText t := by simp [mailText_eq]
  rw [read?_of_readTimestamp (trim_mailText t) hcolon hcomma rfl, readTimestamp?,
    readLocalTimestamp?_eq_none hcomma rfl, readMailTimestamp?_mailText ht]
  obtain ⟨c, name, hname⟩ := List.exists_cons_of_ne_nil (isSolid_weekdayName t.day).1
  have hblank : isBlank c = false := (isSolid_weekdayName t.day).2 c (hname ▸ List.mem_cons_self)
  have hdigit : c.isDigit = false := by
    obtain ⟨n, hn, hn'⟩ := exists_weekdayName t.day
    have hall : (weekdayNames.all fun n => (n.toList.take 3).all fun c => !c.isDigit) = true := by
      decide
    have hletters := List.all_eq_true.1 (List.all_eq_true.1 hall n hn) c
      (by rw [← hn', hname]; exact List.mem_cons_self)
    rwa [Bool.not_eq_true'] at hletters
  have htext : ∃ rest, mailText t = c :: rest := ⟨_, (mailText_eq t).trans (by rw [hname]; rfl)⟩
  obtain ⟨rest, hrest⟩ := htext
  rw [hrest, readOffsetTimestamp?_eq_none List.mem_cons_self hdigit,
    readTimestampPattern?_eq_none hblank hdigit]
  split <;> rfl

end Interchange

section Words

theorem read?_write_of_pattern {p : Pattern} (hp : p ∈ Pattern.timestamps)
    (htrim : trim text = text) (hwrite : sameLetters (p.write t) text = true)
    (hperiod : readPeriod? now text = none) (hmail : readMailTimestamp? text = none)
    (h : readTimestampPattern? text = some d) : DateValue.read? now (p.write t) = some d := by
  obtain ⟨c, hc, htime, hlocal⟩ := exists_letter_mem_write hp t
  have hperiod' := apply_of_sameLetters (readPeriod?_map_toLower now) hwrite
  have hmail' := apply_of_sameLetters readMailTimestamp?_map_toLower hwrite
  have hpattern' := apply_of_sameLetters readTimestampPattern?_map_toLower hwrite
  rw [DateValue.read?, trim_of_sameLetters hwrite htrim, readTrimmed?_eq, hperiod', hperiod,
    readTime?_eq_none hc htime, readTimestamp?, readOffsetTimestamp?_write hp t,
    readLocalTimestamp?_eq_none hc hlocal, hmail', hmail, hpattern', h]
  rfl

end Words

/-- The date has a form of its own: it is no timestamp of interchange. -/
def DateValue.IsDomestic (d : DateValue) : Prop :=
  d.format ≠ some isoFormat ∧ d.format ≠ some mailFormat

theorem isDomestic_of_pattern {p : Pattern} (hp : p ∈ Pattern.all) (t : Instant)
    (g : Option Granularity) : DateValue.IsDomestic ⟨t, g, some p.name⟩ := by
  have hall : (Pattern.all.all fun p => p.name != isoFormat && p.name != mailFormat) = true := by
    decide
  have hname := List.all_eq_true.1 hall p hp
  rw [Bool.and_eq_true, bne_iff_ne, bne_iff_ne] at hname
  exact ⟨mt Option.some.inj hname.1, mt Option.some.inj hname.2⟩

theorem isDomestic_of_periodForm (h : PeriodForm now text d) :
    d.IsDomestic ∧ d.instant.fraction = 0 := by
  cases h with
  | pattern g hp htext =>
    exact ⟨isDomestic_of_pattern (Pattern.mem_all_of_mem_periods hp) _ _, rfl⟩
  | @dayWord w hw htext =>
    have hall : (dayWords.all fun w => w.1 != isoFormat && w.1 != mailFormat) = true := by decide
    have hname := List.all_eq_true.1 hall w hw
    rw [Bool.and_eq_true, bne_iff_ne, bne_iff_ne] at hname
    exact ⟨⟨mt Option.some.inj hname.1, mt Option.some.inj hname.2⟩, rfl⟩
  | @phrase g w hw htext =>
    have hall : (phrases.all fun s => s != isoFormat && s != mailFormat) = true := by decide
    have hname := List.all_eq_true.1 hall _
      (phrase_mem_phrases (mem_periodWords_of_mem_neighbours hw) g)
    rw [Bool.and_eq_true, bne_iff_ne, bne_iff_ne] at hname
    exact ⟨⟨mt Option.some.inj hname.1, mt Option.some.inj hname.2⟩, rfl⟩
  | week htext hdigits hn hday =>
    have hiso : weekFormat ≠ isoFormat := by decide
    have hmail : weekFormat ≠ mailFormat := by decide
    exact ⟨⟨mt Option.some.inj hiso, mt Option.some.inj hmail⟩, rfl⟩

/-- A date that was read is read from what is written for it, or it is a timestamp of
interchange. -/
theorem read?_cases (h : DateValue.read? now text = some d) :
    (d.IsDomestic ∧ d.instant.fraction = 0 ∧
      ∃ d', DateValue.read? now (d.write now none) = some d' ∧ (d' == d) = true) ∨
    (∃ t : Instant, d = { instant := t, format := some isoFormat } ∧ t.IsRegular) ∨
    ∃ t : Instant, d = { instant := t, format := some mailFormat } ∧ t.IsRegular ∧
      t.fraction = 0 := by
  have hself (d : DateValue) : (d == d) = true := DateValue.beq_iff.2 ⟨rfl, rfl⟩
  rw [DateValue.read?] at h
  have htrim := trim_trim text
  generalize trim text = text at h htrim
  have hread := h
  rw [readTrimmed?_eq] at h
  simp only [Option.orElse_eq_orElse, Option.orElse_eq_or, Option.or_eq_some_iff] at h
  rcases h with h | ⟨hperiod, h | ⟨htime, h⟩⟩
  · obtain ⟨hdomestic, hfraction⟩ := isDomestic_of_periodForm (periodForm_of_readPeriod h)
    obtain ⟨d', hread', hsame, -⟩ := exists_read_write_iff htrim h
    exact .inl ⟨hdomestic, hfraction, d', hread', hsame⟩
  · obtain ⟨p, hp, t, rfl, rfl, hfraction⟩ := readTime?_eq_some h
    have hall : p ∈ Pattern.all := List.mem_append_left _ (List.mem_append_right _ hp)
    refine .inl ⟨isDomestic_of_pattern hall _ _, hfraction, _, ?_, hself _⟩
    rw [write_of_pattern hall, DateValue.read?, htrim, hread]
  · rcases readTimestamp?_eq_some h with hiso | hmail | ⟨hmail, hpattern⟩
    · exact .inr (.inl hiso)
    · exact .inr (.inr hmail)
    · obtain ⟨p, hp, t, rfl, hwrite, hfraction⟩ := readTimestampPattern?_eq_some hpattern
      have hall : p ∈ Pattern.all := List.mem_append_right _ hp
      refine .inl ⟨isDomestic_of_pattern hall _ _, hfraction, _, ?_, hself _⟩
      rw [write_of_pattern hall]
      exact read?_write_of_pattern hp htrim hwrite hperiod hmail hpattern

/-- Timestamps of interchange can only be read again if their year has four digits. -/
def DateValue.IsWritable (d : DateValue) : Prop :=
  d.format = some isoFormat ∨ d.format = some mailFormat → d.instant.HasPlainYear

instance (d : DateValue) : Decidable d.IsWritable := inferInstanceAs (Decidable (_ → _))

/-- A date that was read keeps its instant up to the fraction of a second. -/
theorem read?_write_of_isWritable (h : DateValue.read? now text = some d) (hd : d.IsWritable) :
    ∃ d', DateValue.read? now (d.write now none) = some d' ∧
      (d' == { d with instant := d.instant.dropFraction }) = true := by
  rcases read?_cases h with ⟨-, hfraction, hread⟩ | ⟨t, rfl, ht⟩ | ⟨t, rfl, ht, -⟩
  · rwa [Instant.dropFraction_of_fraction hfraction]
  · refine ⟨_, (read?_isoText ht).trans (if_pos (hd (.inl rfl))), ?_⟩
    exact DateValue.beq_iff.2 ⟨rfl, rfl⟩
  · refine ⟨_, (read?_mailText ht).trans (if_pos (hd (.inr rfl))), ?_⟩
    exact DateValue.beq_iff.2 ⟨rfl, rfl⟩

theorem read?_write_of_not_isWritable (h : DateValue.read? now text = some d)
    (hd : ¬ d.IsWritable) : DateValue.read? now (d.write now none) = none := by
  rcases read?_cases h with ⟨hdomestic, -⟩ | ⟨t, rfl, ht⟩ | ⟨t, rfl, ht, -⟩
  · exfalso
    apply hd
    rintro (hiso | hmail)
    · exact absurd hiso hdomestic.1
    · exact absurd hmail hdomestic.2
  · exact (read?_isoText ht).trans (if_neg fun hplain => hd fun _ => hplain)
  · exact (read?_mailText ht).trans (if_neg fun hplain => hd fun _ => hplain)

section Timestamps

theorem read?_of_readOffsetTimestamp (now : Instant) (htrim : trim text = text)
    (hcolon : ':' ∈ text) (hdash : '-' ∈ text) (h : readOffsetTimestamp? text = some t) :
    DateValue.read? now text = some { instant := t, format := some isoFormat } := by
  rw [read?_of_readTimestamp htrim hcolon hdash rfl, readTimestamp?, h]
  rfl

/-- A timestamp without a fraction of a second is read again as the same instant, unless it
has the form of ISO 8601 or of mail and its year is not from 0 to 9999. -/
theorem read_write_timestamp_iff (h : DateValue.read? now text = some d)
    (hperiod : d.granularity = none) (hfraction : d.instant.fraction = 0) :
    (∃ d', DateValue.read? now (d.write now none) = some d' ∧ (d' == d) = true ∧
      d'.instant = d.instant ∧ d'.granularity = none) ↔
      (d.format = some isoFormat ∨ d.format = some mailFormat → d.instant.HasPlainYear) := by
  by_cases hd : d.IsWritable
  · refine iff_of_true ?_ hd
    obtain ⟨d', hread, hsame⟩ := read?_write_of_isWritable h hd
    rw [Instant.dropFraction_of_fraction hfraction] at hsame
    obtain ⟨hinstant, hgranularity⟩ := DateValue.beq_iff.1 hsame
    exact ⟨d', hread, hsame, hinstant, hgranularity.trans hperiod⟩
  · refine iff_of_false ?_ hd
    rintro ⟨d', hread, -⟩
    rw [read?_write_of_not_isWritable h hd] at hread
    exact nomatch hread

theorem read_write_timestamp_leap_second :
    ∃ d d', DateValue.read? leapSecond "2017-01-01 00:59:60+01:00".toList = some d ∧
      d.granularity = none ∧ d.instant.fraction = 0 ∧
      DateValue.read? leapSecond (d.write leapSecond none) = some d' ∧
      d'.instant = leapSecond := by
  have hparse : readOffsetTimestamp? "2017-01-01 00:59:60+01:00".toList = some leapSecond := by
    decide +kernel
  have hread := read?_of_readOffsetTimestamp leapSecond rfl (by decide) (by decide) hparse
  obtain ⟨d', hagain, -, hinstant, -⟩ :=
    (read_write_timestamp_iff hread rfl rfl).2 fun _ => by decide
  exact ⟨_, d', hread, rfl, rfl, hagain, hinstant⟩

/-- An offset moves the first hour of the year 0 into a year that is written with a sign. -/
theorem not_read_write_timestamp_year_before_zero :
    ¬ ∀ now text d, DateValue.read? now text = some d → d.granularity = none →
      d.instant.fraction = 0 → ∃ d', DateValue.read? now (d.write now none) = some d' ∧
        (d' == d) = true := by
  intro h
  have hparse : readOffsetTimestamp? "0000-01-01T00:00:00+01:00".toList =
      some ⟨Date.toDay ⟨-1, 12, 31⟩, ⟨82800, by decide⟩, ⟨0, by decide⟩⟩ := by decide +kernel
  have hread := read?_of_readOffsetTimestamp (.midnight 0) rfl (by decide) (by decide) hparse
  obtain ⟨d', hagain, -⟩ := h _ _ _ hread rfl rfl
  rw [read?_write_of_not_isWritable hread (by decide)] at hagain
  exact nomatch hagain

end Timestamps

end SearchBar.Calendar
