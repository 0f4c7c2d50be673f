import SearchBar.Proofs.Calendar.Parts
import SearchBar.Proofs.Calendar.PeriodText

/-! # Times of day and timestamps

Each form that has a clock in it has an alphabet of its own, so a text of one form is not
taken for another. The forms of interchange are read as they are written if the year has
four digits; a signed year is in none of them.
-/

namespace SearchBar.Calendar

open Text

variable {now t : Instant} {text cs : List Char} {d : DateValue} {p : Pattern}

section Times

def isTimeChar (c : Char) : Bool := c.isDigit || [':', ' ', 'a', 'm', 'p', 'A', 'M', 'P'].contains c

theorem readTime?_eq_some (h : readTime? now text = some d) : ∃ p ∈ Pattern.times, ∃ t : Instant,
    d = { instant := t, format := some p.name } ∧ p.write t = text ∧ t.fraction = 0 := by
  have hall : (Pattern.times.all fun p => !p.fields.contains .fraction) = true := by decide
  obtain ⟨p, hp, h⟩ := List.exists_of_findSome?_eq_some h
  obtain ⟨t, ht, h⟩ := Option.bind_eq_some_iff.1 h
  obtain ⟨parts, hparts, hat⟩ := Option.bind_eq_some_iff.1 ht
  split at h
  · rename_i hwrite
    have hno := List.all_eq_true.1 hall p hp
    have hnano := nano_of_readFields (by simpa using hno) hparts
    have hfraction := Parts.fraction_of_at hat (by simp [hnano])
    exact ⟨p, hp, t, (Option.some.inj h).symm, beq_iff_eq.1 hwrite, hfraction.trans hnano⟩
  · simp at h

theorem isTimeChar_of_mem_write (hp : p ∈ Pattern.times) {c : Char} (h : c ∈ p.write t) :
    isTimeChar c = true := by
  have hall : (Pattern.times.all fun p => p.fields.all fun f =>
      [.hour true, .hour false, .hourOfHalf true, .hourOfHalf false, .minute, .gap, .literal ':',
        .half true, .half false].contains f) = true := by decide
  have hdigit {c : Char} (h : c.isDigit = true) : isTimeChar c = true := by
    simp [isTimeChar, h]
  obtain ⟨f, hf, h⟩ := List.mem_flatMap.1 h
  have hfield := List.contains_iff_mem.1 (List.all_eq_true.1 (List.all_eq_true.1 hall p hp) f hf)
  simp only [List.mem_cons, List.not_mem_nil, or_false] at hfield
  rcases hfield with rfl | rfl | rfl | rfl | rfl | rfl | rfl | rfl | rfl
  · exact hdigit (isDigit_of_mem_twoDigits h)
  · exact hdigit (isDigit_of_mem_twoDigits h)
  · exact hdigit (isDigit_of_mem_twoDigits h)
  · exact hdigit (isDigit_of_mem_twoDigits h)
  · exact hdigit (isDigit_of_mem_padded h)
  · obtain rfl : c = ' ' := by simpa [Field.write] using h
    rfl
  · obtain rfl : c = ':' := by simpa [Field.write] using h
    rfl
  · have hhalf : ((Field.half true).write t).all isTimeChar = true := by
      simp only [Field.write]
      split <;> rfl
    exact List.all_eq_true.1 hhalf c h
  · have hhalf : ((Field.half false).write t).all isTimeChar = true := by
      simp only [Field.write]
      split <;> rfl
    exact List.all_eq_true.1 hhalf c h

theorem readTime?_eq_none {c : Char} (hmem : c ∈ text) (hc : isTimeChar c = false) :
    readTime? now text = none := by
  cases h : readTime? now text with
  | none => rfl
  | some d =>
    obtain ⟨p, hp, t, -, rfl, -⟩ := readTime?_eq_some h
    simp [isTimeChar_of_mem_write hp hmem] at hc

end Times

section LocalForms

def isLocalChar (c : Char) : Bool :=
  c.isDigit || isBlank c || ['-', '+', ':', '.', 'T'].contains c

theorem isLocalChar_of_isDigit {c : Char} (h : c.isDigit = true) : isLocalChar c = true := by
  simp [isLocalChar, h]

theorem mem_of_takeNumber {width : Nat} {c : Char} {r : Nat × List Char}
    (h : takeNumber? width cs = some r) (hc : c ∈ cs) : isLocalChar c = true ∨ c ∈ r.2 := by
  have hprefix : (cs.take width).takeWhile Char.isDigit <+: cs :=
    (List.takeWhile_prefix _).trans (List.take_prefix width cs)
  have hdigits := List.all_eq_true.1 (List.all_takeWhile (p := Char.isDigit) (l := cs.take width))
  unfold takeNumber? at h
  generalize (cs.take width).takeWhile Char.isDigit = ds at h hprefix hdigits
  obtain ⟨rest, rfl⟩ := hprefix
  simp only at h
  split at h
  · simp at h
  · obtain rfl := Option.some.inj h
    rw [List.drop_left]
    rcases List.mem_append.1 hc with hc | hc
    · exact .inl (isLocalChar_of_isDigit (hdigits c hc))
    · exact .inr hc

theorem mem_of_takeBetween {low high width : Nat} {c : Char} {r : Nat × List Char}
    (h : takeBetween? low high width cs = some r) (hc : c ∈ cs) :
    isLocalChar c = true ∨ c ∈ r.2 :=
  mem_of_takeNumber (Option.filter_eq_some_iff.1 h).1 hc

theorem mem_of_takeYear {c : Char} {r : Int × List Char} (h : takeYear? cs = some r) (hc : c ∈ cs) :
    isLocalChar c = true ∨ c ∈ r.2 := by
  unfold takeYear? at h
  split at h
  · obtain ⟨r', hr', rfl⟩ := Option.map_eq_some_iff.1 h
    rcases List.mem_cons.1 hc with rfl | hc
    · exact .inl rfl
    · exact mem_of_takeNumber hr' hc
  · obtain ⟨r', hr', rfl⟩ := Option.map_eq_some_iff.1 h
    rcases List.mem_cons.1 hc with rfl | hc
    · exact .inl rfl
    · exact mem_of_takeNumber hr' hc
  · obtain ⟨r', hr', rfl⟩ := Option.map_eq_some_iff.1 h
    exact mem_of_takeNumber hr' hc

theorem mem_trimStart {c : Char} (hc : c ∈ cs) : isLocalChar c = true ∨ c ∈ trimStart cs := by
  rw [← List.takeWhile_append_dropWhile (p := isBlank) (l := cs)] at hc
  rcases List.mem_append.1 hc with hc | hc
  · left
    simp [isLocalChar, List.all_eq_true.1 List.all_takeWhile c hc]
  · exact .inr hc

theorem mem_of_takeFraction {c : Char} {r : Nat × List Char} (h : takeFraction? cs = some r)
    (hc : c ∈ cs) : isLocalChar c = true ∨ c ∈ r.2 := by
  unfold takeFraction? at h
  simp only at h
  split at h
  · simp at h
  · obtain rfl := Option.some.inj h
    rw [← List.takeWhile_append_dropWhile (p := Char.isDigit) (l := cs)] at hc
    rcases List.mem_append.1 hc with hc | hc
    · exact .inl (isLocalChar_of_isDigit (List.all_eq_true.1 List.all_takeWhile c hc))
    · exact .inr hc

def localFields : List Field :=
  [.year, .month, .day true, .hour true, .minute, .second, .fraction, .gap, .literal '-',
    .literal 'T', .literal ':']

theorem Field.mem_of_read_literal {a c : Char} {q : Parts} {r : Parts × List Char}
    (h : Field.read? q cs (.literal a) = some r) (hc : c ∈ cs) : c = a ∨ c ∈ r.2 := by
  cases cs with
  | nil => simp at hc
  | cons b cs =>
    simp only [Field.read?] at h
    split at h
    · rename_i hb
      obtain rfl := Option.some.inj h
      rcases List.mem_cons.1 hc with rfl | hc
      · exact .inl hb
      · exact .inr hc
    · simp at h

theorem Field.mem_of_read {f : Field} {q : Parts} {r : Parts × List Char} {c : Char}
    (hf : f ∈ localFields) (h : f.read? q cs = some r) (hc : c ∈ cs) :
    isLocalChar c = true ∨ c ∈ r.2 := by
  have hliteral {a : Char} (ha : isLocalChar a = true)
      (h : Field.read? q cs (.literal a) = some r) : isLocalChar c = true ∨ c ∈ r.2 := by
    rcases Field.mem_of_read_literal h hc with rfl | hmem
    · exact .inl ha
    · exact .inr hmem
  simp only [localFields, List.mem_cons, List.not_mem_nil, or_false] at hf
  rcases hf with rfl | rfl | rfl | rfl | rfl | rfl | rfl | rfl | rfl | rfl | rfl
  · obtain ⟨r', hr', rfl⟩ := Option.map_eq_some_iff.1 h
    exact (mem_trimStart hc).elim .inl (mem_of_takeYear hr')
  iterate 5
    · obtain ⟨r', hr', rfl⟩ := Option.map_eq_some_iff.1 h
      exact (mem_trimStart hc).elim .inl (mem_of_takeBetween hr')
  · simp only [Field.read?] at h
    split at h
    · obtain ⟨r', hr', rfl⟩ := Option.map_eq_some_iff.1 h
      rcases List.mem_cons.1 hc with rfl | hc
      · exact .inl rfl
      · exact mem_of_takeFraction hr' hc
    · obtain rfl := Option.some.inj h
      exact .inr hc
  · obtain rfl := Option.some.inj h
    exact mem_trimStart hc
  · exact hliteral rfl h
  · exact hliteral rfl h
  · exact hliteral rfl h

theorem isLocalChar_of_readFields {fs : List Field} {q r : Parts} {c : Char}
    (hfs : ∀ f ∈ fs, f ∈ localFields) (h : readFields? fs q cs = some r) (hc : c ∈ cs) :
    isLocalChar c = true := by
  induction fs generalizing q cs with
  | nil =>
    rw [readFields?] at h
    split at h
    · rename_i hempty
      rw [List.isEmpty_iff.1 hempty] at hc
      simp at hc
    · simp at h
  | cons f fs ih =>
    obtain ⟨r', hr', h⟩ := Option.bind_eq_some_iff.1 h
    rcases Field.mem_of_read (hfs f List.mem_cons_self) hr' hc with hlocal | hmem
    · exact hlocal
    · exact ih (fun f hf => hfs f (List.mem_cons_of_mem _ hf)) h hmem

theorem localFields_of_mem_localForms {fs : List Field} (h : fs ∈ localForms) {f : Field}
    (hf : f ∈ fs) : f ∈ localFields := by
  have hall : (localForms.all fun fs => fs.all fun f => localFields.contains f) = true := by decide
  exact List.contains_iff_mem.1 (List.all_eq_true.1 (List.all_eq_true.1 hall fs h) f hf)

theorem readLocalTimestamp?_eq_some (h : readLocalTimestamp? cs = some t) : ∃ fs ∈ localForms,
    ∃ parts, readFields? fs {} cs = some parts ∧ parts.instant? = some t := by
  obtain ⟨fs, hfs, h⟩ := List.exists_of_findSome?_eq_some h
  obtain ⟨parts, hparts, h⟩ := Option.bind_eq_some_iff.1 h
  exact ⟨fs, hfs, parts, hparts, h⟩

theorem readLocalTimestamp?_eq_none {c : Char} (hmem : c ∈ cs) (hc : isLocalChar c = false) :
    readLocalTimestamp? cs = none := by
  cases h : readLocalTimestamp? cs with
  | none => rfl
  | some t =>
    obtain ⟨fs, hfs, parts, hparts, -⟩ := readLocalTimestamp?_eq_some h
    have hlocal := isLocalChar_of_readFields (fun _ => localFields_of_mem_localForms hfs) hparts hmem
    simp [hc] at hlocal

theorem isRegular_of_readLocalTimestamp (h : readLocalTimestamp? cs = some t) : t.IsRegular := by
  obtain ⟨fs, -, parts, hparts, h⟩ := readLocalTimestamp?_eq_some h
  obtain ⟨day, -, hat⟩ := Option.bind_eq_some_iff.1 h
  exact Parts.isRegular_of_at hat (nano_lt_of_readFields (by decide) hparts)

end LocalForms

section Interchange

theorem yearText_of_hasPlainYear (h : t.HasPlainYear) :
    yearText (Date.ofDay t.day).year = padded 4 (Date.ofDay t.day).year.toNat := if_pos h

theorem yearText_of_not_hasPlainYear (h : ¬ t.HasPlainYear) : ∃ c rest, (c = '-' ∨ c = '+') ∧
    yearText (Date.ofDay t.day).year = c :: rest := by
  refine ⟨_, _, ?_, if_neg h⟩
  split
  · exact .inl rfl
  · exact .inr rfl

theorem yearKept_of_hasPlainYear (h : t.HasPlainYear) : yearKept (Date.ofDay t.day).year = true := by
  obtain ⟨hlow, hhigh⟩ := h
  rw [yearKept, Bool.and_eq_true, decide_eq_true_eq, decide_eq_true_eq]
  omega

def isoTail (t : Instant) : List Char :=
  '-' :: (padded 2 (Date.ofDay t.day).month ++ '-' :: (padded 2 (Date.ofDay t.day).day ++
    'T' :: (padded 2 t.hour ++ ':' :: (padded 2 t.minute ++ ':' :: (padded 2 t.secondOfMinute ++
      ['Z'])))))

theorem isoText_eq (t : Instant) : isoText t = yearText (Date.ofDay t.day).year ++ isoTail t := by
  simp [isoText, secondsText, writeFields, Field.write, isoTail, twoDigits]

theorem month_day_bounds (t : Instant) :
    (1 ≤ (Date.ofDay t.day).month ∧ (Date.ofDay t.day).month ≤ 12) ∧
      1 ≤ (Date.ofDay t.day).day ∧ (Date.ofDay t.day).day ≤ 31 := by
  obtain ⟨h1, h2, h3, h4⟩ := Date.exists_ofDay t.day
  exact ⟨⟨h1, h2⟩, h3, Nat.le_trans h4 (monthLength_le _ _)⟩

theorem clock_bounds (t : Instant) : t.hour ≤ 23 ∧ t.minute ≤ 59 ∧ t.secondOfMinute ≤ 60 := by
  have hlt := t.second.isLt
  unfold Instant.hour Instant.minute Instant.secondOfMinute
  refine ⟨by omega, by omega, ?_⟩
  split <;> omega

theorem toNat_year (h : t.HasPlainYear) : (Date.ofDay t.day).year.toNat < 10 ^ 4 ∧
    ((Date.ofDay t.day).year.toNat : Int) = (Date.ofDay t.day).year := by
  obtain ⟨hlow, hhigh⟩ := h
  exact ⟨by omega, Int.toNat_of_nonneg hlow⟩

theorem takeChar?_cons (c : Char) (cs : List Char) : takeChar? c (c :: cs) = some cs := if_pos rfl

theorem readOffsetTimestamp?_isoText (hyear : t.HasPlainYear) (ht : t.IsRegular) :
    readOffsetTimestamp? (isoText t) = some t.dropFraction := by
  obtain ⟨⟨hm1, hm2⟩, hd1, hd2⟩ := month_day_bounds t
  obtain ⟨hh, hmin, hs⟩ := clock_bounds t
  obtain ⟨hlt, hcast⟩ := toNat_year hyear
  have hinstant : (Parts.instant? _) = some t.dropFraction :=
    Parts.instant?_ofInstant (yearKept_of_hasPlainYear hyear) ht
  rw [isoText_eq, yearText_of_hasPlainYear hyear, isoTail]
  unfold readOffsetTimestamp?
  rw [takeExact?_padded (by decide) hlt]
  dsimp only [Option.bind_eq_bind, Option.bind_some]
  rw [takeChar?_cons, Option.bind_some,
    takeExactBetween?_padded (by decide) (by omega) ⟨hm1, hm2⟩]
  dsimp only [Option.bind_some]
  rw [takeChar?_cons, Option.bind_some,
    takeExactBetween?_padded (by decide) (by omega) ⟨hd1, hd2⟩]
  dsimp only [Option.bind_some]
  rw [takeChar?_cons, Option.orElse_eq_orElse, Option.orElse_some, Option.bind_some,
    takeExactBetween?_padded (by decide) (by omega) ⟨Nat.zero_le _, hh⟩]
  dsimp only [Option.bind_some]
  rw [takeChar?_cons, Option.bind_some,
    takeExactBetween?_padded (by decide) (by omega) ⟨Nat.zero_le _, hmin⟩]
  dsimp only [Option.bind_some]
  rw [takeChar?_cons, Option.bind_some,
    takeExactBetween?_padded (by decide) (by omega) ⟨Nat.zero_le _, hs⟩]
  have hnone : takeOptionalFraction? ['Z'] = some (0, ['Z']) := rfl
  have hzulu : takeOffset? ['Z'] = some (0, []) := rfl
  dsimp only [Option.bind_some]
  rw [hnone, Option.bind_some, hzulu, Option.bind_some, hcast]
  have hkept : (([] : List Char).isEmpty && offsetKept 0) = true := rfl
  rw [if_pos hkept]
  exact (congrArg (Option.bind · _) hinstant).trans (congrArg some (Instant.behind_zero _))

def IsSolid (cs : List Char) : Prop := cs ≠ [] ∧ ∀ c ∈ cs, isBlank c = false

theorem trimStart_append (h : IsSolid cs) (rest : List Char) :
    trimStart (cs ++ rest) = cs ++ rest := by
  obtain ⟨c, cs, rfl⟩ := List.exists_cons_of_ne_nil h.1
  apply trimStart_of_head?
  rintro c' hc'
  obtain rfl : c = c' := Option.some.inj hc'
  exact h.2 c List.mem_cons_self

theorem trimStart_space (h : IsSolid cs) (rest : List Char) :
    trimStart (' ' :: (cs ++ rest)) = cs ++ rest := trimStart_append h rest

theorem takeBlanks?_space (h : IsSolid cs) (rest : List Char) :
    takeBlanks? (' ' :: (cs ++ rest)) = some (cs ++ rest) := by
  have hblank : isBlank ' ' = true := rfl
  rw [takeBlanks?, if_pos hblank, trimStart_append h]

theorem isSolid_digitsOfNat (n : Nat) : IsSolid (Decimal.digitsOfNat n) :=
  ⟨Decimal.digitsOfNat_ne_nil n, fun _ hc =>
    isBlank_of_isDigit (Decimal.isDigit_of_mem_digitsOfNat hc)⟩

theorem isSolid_padded (width n : Nat) : IsSolid (padded width n) :=
  ⟨padded_ne_nil width n, fun _ hc => isBlank_of_isDigit (isDigit_of_mem_padded hc)⟩

theorem isSolid_yearText (y : Int) : IsSolid (yearText y) := by
  constructor
  · unfold yearText
    split
    · exact padded_ne_nil _ _
    · exact List.cons_ne_nil _ _
  · rintro c hc
    rcases mem_yearText hc with h | rfl | rfl
    · exact isBlank_of_isDigit h
    · rfl
    · rfl

theorem isSolid_take_name {n : String} (h : n ∈ weekdayNames ++ monthNames) :
    IsSolid (n.toList.take 3) := by
  have hall : ((weekdayNames ++ monthNames).all fun n =>
      !(n.toList.take 3).isEmpty && n.toList.all Char.isAlpha) = true := by decide
  have hname := List.all_eq_true.1 hall n h
  simp only [Bool.and_eq_true, Bool.not_eq_true', List.isEmpty_eq_false_iff] at hname
  exact ⟨hname.1, fun c hc =>
    isBlank_of_isAlpha (List.all_eq_true.1 hname.2 c (List.mem_of_mem_take hc))⟩

theorem isSolid_weekdayName (day : Int) : IsSolid ((weekdayName (weekday day)).take 3) := by
  obtain ⟨n, hn, hname⟩ := exists_weekdayName day
  rw [hname]
  exact isSolid_take_name (List.mem_append_left _ hn)

theorem isSolid_monthName {m : Nat} (h1 : 1 ≤ m) (h12 : m ≤ 12) :
    IsSolid ((monthName m).take 3) := by
  obtain ⟨n, hn, hname⟩ := exists_monthName h1 h12
  rw [hname]
  exact isSolid_take_name (List.mem_append_right _ hn)

theorem takeMailWeekday?_append (day : Int) (rest : List Char) :
    takeMailWeekday? ((weekdayName (weekday day)).take 3 ++ ',' :: rest) =
      some (some (weekday day), rest) := by
  have hlt : weekday day < 7 := by
    unfold weekday
    omega
  generalize weekday day = w at hlt
  have hw : w = 0 ∨ w = 1 ∨ w = 2 ∨ w = 3 ∨ w = 4 ∨ w = 5 ∨ w = 6 := by omega
  rcases hw with rfl | rfl | rfl | rfl | rfl | rfl | rfl <;> rfl

theorem takeMonthShort?_append {m : Nat} (h1 : 1 ≤ m) (h12 : m ≤ 12) (rest : List Char) :
    takeMonthShort? ((monthName m).take 3 ++ rest) = some (m, rest) := by
  have hm : m = 1 ∨ m = 2 ∨ m = 3 ∨ m = 4 ∨ m = 5 ∨ m = 6 ∨ m = 7 ∨ m = 8 ∨ m = 9 ∨ m = 10 ∨
      m = 11 ∨ m = 12 := by omega
  rcases hm with rfl | rfl | rfl | rfl | rfl | rfl | rfl | rfl | rfl | rfl | rfl | rfl <;> rfl

theorem trimStart_colon (cs : List Char) : trimStart (':' :: cs) = ':' :: cs := rfl

theorem takeMailSeconds?_append {n : Nat} (h : n ≤ 60) (rest : List Char) :
    takeMailSeconds? (':' :: (padded 2 n ++ rest)) = some (some n, rest) := by
  simp only [takeMailSeconds?, trimStart_colon, takeChar?_cons]
  rw [takeExactBetween?_padded (by decide) (by omega) ⟨Nat.zero_le _, h⟩]
  rfl

def mailClock (t : Instant) : List Char :=
  ' ' :: (padded 2 t.hour ++ ':' :: (padded 2 t.minute ++ ':' :: (padded 2 t.secondOfMinute ++
    " +0000".toList)))

theorem mailText_eq (t : Instant) : mailText t =
    (weekdayName (weekday t.day)).take 3 ++ ',' :: ' ' ::
      (Decimal.digitsOfNat (Date.ofDay t.day).day ++
        ' ' :: ((monthName (Date.ofDay t.day).month).take 3 ++
          ' ' :: (yearText (Date.ofDay t.day).year ++ mailClock t))) := by
  simp [mailText, writeFields, Field.write, mailClock, twoDigits]

theorem readMailTimestamp?_mailText (ht : t.IsRegular) : readMailTimestamp? (mailText t) =
    if t.HasPlainYear then some t.dropFraction else none := by
  obtain ⟨⟨hm1, hm2⟩, hd1, hd2⟩ := month_day_bounds t
  obtain ⟨hh, hmin, hs⟩ := clock_bounds t
  have hlength : (Decimal.digitsOfNat (Date.ofDay t.day).day).length ≤ 2 :=
    (Nat.length_toDigits_le_iff (by decide) (by decide)).2 (by omega)
  rw [mailText_eq]
  unfold readMailTimestamp?
  rw [trimStart_append (isSolid_weekdayName _), takeMailWeekday?_append]
  dsimp only [Option.bind_eq_bind, Option.bind_some]
  rw [trimStart_space (isSolid_digitsOfNat _), takeBetween?_digitsOfNat hlength ⟨hd1, hd2⟩ rfl]
  dsimp only [Option.bind_some]
  rw [takeBlanks?_space (isSolid_monthName hm1 hm2), Option.bind_some,
    takeMonthShort?_append hm1 hm2]
  dsimp only [Option.bind_some]
  rw [takeBlanks?_space (isSolid_yearText _), Option.bind_some]
  by_cases hplain : t.HasPlainYear
  · rw [if_pos hplain, yearText_of_hasPlainYear hplain,
      takeWhile_append_of_stopsAt (fun _ => isDigit_of_mem_padded) rfl,
      dropWhile_append_of_stopsAt (fun _ => isDigit_of_mem_padded) rfl, mailClock,
      takeBlanks?_space (isSolid_padded _ _), Option.bind_some,
      takeExactBetween?_padded (by decide) (by omega) ⟨Nat.zero_le _, hh⟩]
    dsimp only [Option.bind_some]
    rw [trimStart_colon, takeChar?_cons, Option.bind_some, trimStart_append (isSolid_padded _ _),
      takeExactBetween?_padded (by decide) (by omega) ⟨Nat.zero_le _, hmin⟩]
    dsimp only [Option.bind_some]
    rw [takeMailSeconds?_append hs]
    have hblanks : takeBlanks? " +0000".toList = some "+0000".toList := rfl
    have hzone : takeMailZone? "+0000".toList = some (0, []) := rfl
    dsimp only [Option.bind_some]
    rw [hblanks, Option.bind_some, hzone]
    dsimp only [Option.bind_some]
    obtain ⟨hlt, hcast⟩ := toNat_year hplain
    have hskip : skipComments [] = [] := skipComments_of_none (by simp [trimStart])
    have hinstant := Parts.instant?_ofInstant (yearKept_of_hasPlainYear hplain) ht
    have haccept : (decide (2 ≤ 4) && ([] : List Char).isEmpty && offsetKept 0) = true := rfl
    have hfour (y : Nat) : mailYear 4 y = y := rfl
    rw [length_padded (by decide) hlt, natOfDigits_padded, hskip, if_pos haccept, hfour, hcast]
    refine (congrArg (Option.bind · _) hinstant).trans ?_
    have hday : t.dropFraction.day = t.day := rfl
    have hkept : t.dropFraction.IsKept := yearKept_of_hasPlainYear hplain
    rw [Option.bind_some, hday, Option.all_some, beq_self_eq_true, Instant.behind_zero,
      if_pos ⟨rfl, hkept⟩]
  · obtain ⟨c, rest, hc, hrest⟩ := yearText_of_not_hasPlainYear hplain
    rw [if_neg hplain, hrest]
    rcases hc with rfl | rfl <;> rfl

end Interchange

section Accepted

theorem takeOffsetDigits?_mod {between : List Char → Option (List Char)} {r : Int × List Char}
    (h : takeOffsetDigits? between cs = some r) : r.1 % 60 = 0 := by
  simp only [takeOffsetDigits?, Option.bind_eq_bind, Option.bind_eq_some_iff] at h
  obtain ⟨⟨hours, cs1⟩, -, cs2, -, ⟨minutes, cs3⟩, -, h⟩ := h
  obtain rfl := Option.some.inj h
  simp only
  omega

theorem neg_map_mod {o : Option (Int × List Char)} {r : Int × List Char}
    (ho : ∀ r, o = some r → r.1 % 60 = 0) (h : o.map (fun r => (-r.1, r.2)) = some r) :
    r.1 % 60 = 0 := by
  obtain ⟨r', hr', rfl⟩ := Option.map_eq_some_iff.1 h
  have hmod := ho r' hr'
  simp only
  omega

theorem takeOffset?_mod {r : Int × List Char} (h : takeOffset? cs = some r) : r.1 % 60 = 0 := by
  cases cs with
  | nil => simp [takeOffset?] at h
  | cons c cs =>
    simp only [takeOffset?] at h
    split at h
    · obtain rfl := Option.some.inj h
      rfl
    · split at h
      · exact takeOffsetDigits?_mod h
      · split at h
        · exact neg_map_mod (fun _ => takeOffsetDigits?_mod) h
        · simp at h

theorem mailZone?_mod {name : List Char} {n : Int} (h : mailZone? name = some n) : n % 60 = 0 := by
  unfold mailZone? at h
  split at h
  · obtain rfl := Option.some.inj h
    omega
  · split at h
    · split at h
      · simp at h
      · obtain rfl := Option.some.inj h
        rfl
    · simp at h

theorem takeMailZone?_mod {r : Int × List Char} (h : takeMailZone? cs = some r) : r.1 % 60 = 0 := by
  unfold takeMailZone? at h
  simp only at h
  split at h
  · obtain ⟨n, hn, rfl⟩ := Option.map_eq_some_iff.1 h
    exact mailZone?_mod hn
  · split at h
    · exact takeOffsetDigits?_mod h
    · exact neg_map_mod (fun _ => takeOffsetDigits?_mod) h
    · simp at h

theorem takeOptionalFraction?_lt {r : Nat × List Char} (h : takeOptionalFraction? cs = some r) :
    r.1 < 1000000000 := by
  unfold takeOptionalFraction? at h
  split at h
  · exact takeFraction?_lt h
  · obtain rfl := Option.some.inj h
    exact Nat.succ_pos _

theorem isRegular_of_readOffsetTimestamp (h : readOffsetTimestamp? cs = some t) : t.IsRegular := by
  unfold readOffsetTimestamp? at h
  obtain ⟨⟨year, cs⟩, -, h⟩ := Option.bind_eq_some_iff.1 h
  obtain ⟨cs, -, h⟩ := Option.bind_eq_some_iff.1 h
  obtain ⟨⟨month, cs⟩, -, h⟩ := Option.bind_eq_some_iff.1 h
  obtain ⟨cs, -, h⟩ := Option.bind_eq_some_iff.1 h
  obtain ⟨⟨day, cs⟩, -, h⟩ := Option.bind_eq_some_iff.1 h
  obtain ⟨cs, -, h⟩ := Option.bind_eq_some_iff.1 h
  obtain ⟨⟨hour, cs⟩, -, h⟩ := Option.bind_eq_some_iff.1 h
  obtain ⟨cs, -, h⟩ := Option.bind_eq_some_iff.1 h
  obtain ⟨⟨minute, cs⟩, -, h⟩ := Option.bind_eq_some_iff.1 h
  obtain ⟨cs, -, h⟩ := Option.bind_eq_some_iff.1 h
  obtain ⟨⟨second, cs⟩, -, h⟩ := Option.bind_eq_some_iff.1 h
  obtain ⟨⟨nano, cs⟩, hnano, h⟩ := Option.bind_eq_some_iff.1 h
  obtain ⟨⟨offset, cs⟩, hoffset, h⟩ := Option.bind_eq_some_iff.1 h
  dsimp only at h
  split at h
  · obtain ⟨t', ht', h⟩ := Option.bind_eq_some_iff.1 h
    obtain rfl := Option.some.inj h
    obtain ⟨d, -, hat⟩ := Option.bind_eq_some_iff.1 ht'
    exact Instant.isRegular_behind (takeOffset?_mod hoffset)
      (Parts.isRegular_of_at hat (takeOptionalFraction?_lt hnano))
  · simp at h

theorem isRegular_of_readMailTimestamp (h : readMailTimestamp? cs = some t) :
    t.IsRegular ∧ t.fraction = 0 := by
  unfold readMailTimestamp? at h
  obtain ⟨⟨week, cs⟩, -, h⟩ := Option.bind_eq_some_iff.1 h
  obtain ⟨⟨day, cs⟩, -, h⟩ := Option.bind_eq_some_iff.1 h
  obtain ⟨cs, -, h⟩ := Option.bind_eq_some_iff.1 h
  obtain ⟨⟨month, cs⟩, -, h⟩ := Option.bind_eq_some_iff.1 h
  obtain ⟨cs, -, h⟩ := Option.bind_eq_some_iff.1 h
  obtain ⟨years, -, h⟩ := Option.bind_eq_some_iff.1 h
  obtain ⟨⟨hour, cs'⟩, -, h⟩ := Option.bind_eq_some_iff.1 h
  obtain ⟨cs', -, h⟩ := Option.bind_eq_some_iff.1 h
  obtain ⟨⟨minute, cs'⟩, -, h⟩ := Option.bind_eq_some_iff.1 h
  obtain ⟨⟨second, cs'⟩, -, h⟩ := Option.bind_eq_some_iff.1 h
  obtain ⟨cs', -, h⟩ := Option.bind_eq_some_iff.1 h
  obtain ⟨⟨offset, cs'⟩, hoffset, h⟩ := Option.bind_eq_some_iff.1 h
  dsimp only at h
  split at h
  · obtain ⟨t', ht', h⟩ := Option.bind_eq_some_iff.1 h
    split at h
    · obtain rfl := Option.some.inj h
      obtain ⟨d, -, hat⟩ := Option.bind_eq_some_iff.1 ht'
      have hnano : 0 < 1000000000 := by decide
      exact ⟨Instant.isRegular_behind (takeMailZone?_mod hoffset) (Parts.isRegular_of_at hat hnano),
        Parts.fraction_of_at hat hnano⟩
    · simp at h
  · simp at h

theorem readTimestampPattern?_eq_some (h : readTimestampPattern? text = some d) :
    ∃ p ∈ Pattern.timestamps, ∃ t : Instant, d = { instant := t, format := some p.name } ∧
      sameLetters (p.write t) text = true ∧ t.fraction = 0 := by
  have hall : (Pattern.timestamps.all fun p => !p.fields.contains .fraction) = true := by decide
  obtain ⟨p, hp, h⟩ := List.exists_of_findSome?_eq_some h
  obtain ⟨t, ht, h⟩ := Option.bind_eq_some_iff.1 h
  obtain ⟨parts, hparts, hinstant⟩ := Option.bind_eq_some_iff.1 ht
  obtain ⟨day, -, hat⟩ := Option.bind_eq_some_iff.1 hinstant
  split at h
  · rename_i hwrite
    have hno := List.all_eq_true.1 hall p hp
    have hnano := nano_of_readFields (by simpa using hno) hparts
    have hfraction := Parts.fraction_of_at hat (by simp [hnano])
    exact ⟨p, hp, t, (Option.some.inj h).symm, hwrite, hfraction.trans hnano⟩
  · simp at h

theorem readTimestamp?_eq_some (h : readTimestamp? text = some d) :
    (∃ t : Instant, d = { instant := t, format := some isoFormat } ∧ t.IsRegular) ∨
    (∃ t : Instant, d = { instant := t, format := some mailFormat } ∧ t.IsRegular ∧
      t.fraction = 0) ∨
    readMailTimestamp? text = none ∧ readTimestampPattern? text = some d := by
  simp only [readTimestamp?, Option.orElse_eq_orElse, Option.orElse_eq_or, Option.or_eq_some_iff,
    Option.map_eq_none_iff] at h
  rcases h with h | ⟨-, h | ⟨hmail, h⟩⟩
  · obtain ⟨t, ht, rfl⟩ := Option.map_eq_some_iff.1 h
    refine .inl ⟨t, rfl, ?_⟩
    rcases Option.or_eq_some_iff.1 ht with ht | ⟨-, ht⟩
    · exact isRegular_of_readOffsetTimestamp ht
    · exact isRegular_of_readLocalTimestamp ht
  · obtain ⟨t, ht, rfl⟩ := Option.map_eq_some_iff.1 h
    exact .inr (.inl ⟨t, rfl, isRegular_of_readMailTimestamp ht⟩)
  · exact .inr (.inr ⟨hmail, h⟩)

end Accepted

section Words

theorem exists_letter_mem_monthName {m : Nat} (h1 : 1 ≤ m) (h12 : m ≤ 12) :
    ∃ c ∈ (monthName m).take 3, isTimeChar c = false ∧ isLocalChar c = false := by
  obtain ⟨n, hn, hname⟩ := exists_monthName h1 h12
  have hall : (monthNames.all fun n => (n.toList.take 3).any fun c =>
      !isTimeChar c && !isLocalChar c) = true := by decide
  obtain ⟨c, hc, hletter⟩ := List.any_eq_true.1 (List.all_eq_true.1 hall n hn)
  rw [Bool.and_eq_true, Bool.not_eq_true', Bool.not_eq_true'] at hletter
  exact ⟨c, hname ▸ hc, hletter⟩

/-- A timestamp in words begins with its day and the name of its month. -/
theorem write_of_mem_timestamps (hp : p ∈ Pattern.timestamps) (t : Instant) : ∃ name rest,
    p.write t = padded 2 (Date.ofDay t.day).day ++ ' ' :: (name ++ rest) ∧
      ∀ c ∈ (monthName (Date.ofDay t.day).month).take 3, c ∈ name := by
  simp only [Pattern.timestamps, List.mem_cons, List.not_mem_nil, or_false] at hp
  rcases hp with rfl | rfl | rfl | rfl | rfl | rfl
  iterate 4
    · exact ⟨(monthName (Date.ofDay t.day).month).take 3, _, rfl, fun c hc => hc⟩
  · exact ⟨monthName (Date.ofDay t.day).month, _, rfl, fun c hc => List.mem_of_mem_take hc⟩
  · exact ⟨monthName (Date.ofDay t.day).month, _, rfl, fun c hc => List.mem_of_mem_take hc⟩

theorem readOffsetTimestamp?_eq_none {c : Char} (hmem : c ∈ cs.take 4) (hc : c.isDigit = false) :
    readOffsetTimestamp? cs = none := by
  rw [readOffsetTimestamp?, takeExact?_eq_none hmem hc]
  rfl

theorem readOffsetTimestamp?_write (hp : p ∈ Pattern.timestamps) (t : Instant) :
    readOffsetTimestamp? (p.write t) = none := by
  obtain ⟨-, -, hd⟩ := month_day_bounds t
  obtain ⟨name, rest, hwrite, -⟩ := write_of_mem_timestamps hp t
  have hlength : (padded 2 (Date.ofDay t.day).day).length = 2 :=
    length_padded (by decide) (by omega)
  have hspace : ' ' ∈ (p.write t).take 4 := by
    rw [hwrite, List.take_append, hlength]
    exact List.mem_append_right _ List.mem_cons_self
  exact readOffsetTimestamp?_eq_none hspace rfl

theorem exists_letter_mem_write (hp : p ∈ Pattern.timestamps) (t : Instant) :
    ∃ c ∈ p.write t, isTimeChar c = false ∧ isLocalChar c = false := by
  obtain ⟨⟨hm1, hm2⟩, -⟩ := month_day_bounds t
  obtain ⟨c, hc, hletter⟩ := exists_letter_mem_monthName hm1 hm2
  obtain ⟨name, rest, hwrite, hname⟩ := write_of_mem_timestamps hp t
  refine ⟨c, ?_, hletter⟩
  rw [hwrite]
  exact List.mem_append_right _ (List.mem_cons_of_mem _ (List.mem_append_left _ (hname c hc)))

end Words

end SearchBar.Calendar
