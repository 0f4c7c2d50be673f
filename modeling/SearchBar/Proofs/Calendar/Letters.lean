import SearchBar.Proofs.Calendar.Characters
import SearchBar.Proofs.Text.Trim

/-! # The case of date expressions

The names of days, months and units may be written in letters of any case. The readers
of periods, of the dates of messages and of timestamps in words do not see the
difference between a text and its lower case.
-/

namespace SearchBar.Calendar

open Text

def lowerRest {α : Type} (r : α × List Char) : α × List Char := (r.1, r.2.map Char.toLower)

section Scanning

variable {cs : List Char}

theorem takeWhile_isDigit_map_toLower (cs : List Char) :
    (cs.map Char.toLower).takeWhile Char.isDigit = cs.takeWhile Char.isDigit := by
  rw [takeWhile_map_toLower (by decide)]
  exact map_toLower_of_all_isDigit (List.all_eq_true.1 List.all_takeWhile)

theorem takeNumber?_map_toLower (width : Nat) (cs : List Char) :
    takeNumber? width (cs.map Char.toLower) = (takeNumber? width cs).map lowerRest := by
  unfold takeNumber?
  rw [← List.map_take, takeWhile_isDigit_map_toLower]
  dsimp only
  split
  · rfl
  · rw [← List.map_drop]
    rfl

theorem takeBetween?_map_toLower (low high width : Nat) (cs : List Char) :
    takeBetween? low high width (cs.map Char.toLower) =
      (takeBetween? low high width cs).map lowerRest := by
  unfold takeBetween?
  rw [takeNumber?_map_toLower]
  cases takeNumber? width cs with
  | none => rfl
  | some r =>
    simp only [Option.map_some, Option.filter_some, lowerRest]
    split <;> rfl

theorem takeYear?_of_unsigned {c : Char} (hminus : c ≠ '-') (hplus : c ≠ '+') (cs : List Char) :
    takeYear? (c :: cs) = (takeNumber? 4 (c :: cs)).map fun r => ((r.1 : Int), r.2) := by
  unfold takeYear?
  split
  · rename_i heq
    exact absurd (List.cons.inj heq).1 hminus
  · rename_i heq
    exact absurd (List.cons.inj heq).1 hplus
  · rfl

theorem takeYear?_map_toLower (cs : List Char) :
    takeYear? (cs.map Char.toLower) = (takeYear? cs).map lowerRest := by
  have hlong (cs : List Char) :
      takeLongNumber? (cs.map Char.toLower) = (takeLongNumber? cs).map lowerRest := by
    unfold takeLongNumber?
    rw [takeNumber?_map_toLower, List.length_map]
  cases cs with
  | nil => rfl
  | cons c cs =>
    have hminus : c.toLower = '-' ↔ c = '-' := toLower_eq_iff (by decide)
    have hplus : c.toLower = '+' ↔ c = '+' := toLower_eq_iff (by decide)
    by_cases hm : c = '-'
    · subst hm
      simp [takeYear?, hlong, Function.comp_def, lowerRest]
    · by_cases hp : c = '+'
      · subst hp
        simp [takeYear?, hlong, Function.comp_def, lowerRest]
      · rw [List.map_cons, takeYear?_of_unsigned (mt hminus.1 hm) (mt hplus.1 hp),
          takeYear?_of_unsigned hm hp, ← List.map_cons, takeNumber?_map_toLower]
        simp [Function.comp_def, lowerRest]

theorem takeWord?_map_toLower (word cs : List Char) :
    takeWord? word (cs.map Char.toLower) = (takeWord? word cs).map (List.map Char.toLower) := by
  unfold takeWord? sameLetters
  rw [← List.map_take, map_toLower_map_toLower]
  split
  · rw [← List.map_drop]
    rfl
  · rfl

theorem takeOneOf?_map_toLower (words : List (List Char)) (cs : List Char) :
    takeOneOf? words (cs.map Char.toLower) = (takeOneOf? words cs).map lowerRest := by
  unfold takeOneOf?
  rw [List.map_findSome?]
  congr 1
  funext w
  simp [takeWord?_map_toLower, Function.comp_def, lowerRest]

theorem takeMonthShort?_map_toLower (cs : List Char) :
    takeMonthShort? (cs.map Char.toLower) = (takeMonthShort? cs).map lowerRest := by
  unfold takeMonthShort?
  simp [takeOneOf?_map_toLower, Function.comp_def, lowerRest]

theorem takeMonthLong?_map_toLower (cs : List Char) :
    takeMonthLong? (cs.map Char.toLower) = (takeMonthLong? cs).map lowerRest := by
  unfold takeMonthLong?
  rw [takeMonthShort?_map_toLower]
  cases takeMonthShort? cs with
  | none => rfl
  | some r =>
    simp only [Option.map_some, lowerRest, takeWord?_map_toLower]
    cases takeWord? ((monthName r.1).drop 3) r.2 <;> rfl

theorem takeFraction?_map_toLower (cs : List Char) :
    takeFraction? (cs.map Char.toLower) = (takeFraction? cs).map lowerRest := by
  unfold takeFraction?
  rw [takeWhile_isDigit_map_toLower, dropWhile_map_toLower (by decide)]
  dsimp only
  split <;> rfl

end Scanning

section Fields

def Field.isCaseless : Field → Bool
  | literal c => c.toLower == c && capitals.all fun a => a.toLower != c && a != c
  | _ => true

theorem Field.read?_map_toLower {f : Field} (hf : f.isCaseless = true) (p : Parts)
    (cs : List Char) : f.read? p (cs.map Char.toLower) = (f.read? p cs).map lowerRest := by
  cases f with
  | literal a =>
    obtain ⟨-, ha⟩ := Bool.and_eq_true_iff.1 hf
    cases cs with
    | nil => rfl
    | cons c cs =>
      simp only [Field.read?, List.map_cons, toLower_eq_iff ha]
      split <;> rfl
  | gap => simp [Field.read?, trimStart_map_toLower, lowerRest]
  | year =>
    simp [Field.read?, trimStart_map_toLower, takeYear?_map_toLower, Function.comp_def, lowerRest]
  | yearOfCentury =>
    simp [Field.read?, trimStart_map_toLower, takeNumber?_map_toLower, Function.comp_def, lowerRest]
  | month | day | hour | hourOfHalf | minute | second =>
    simp [Field.read?, trimStart_map_toLower, takeBetween?_map_toLower, Function.comp_def, lowerRest]
  | monthShort => simp [Field.read?, takeMonthShort?_map_toLower, Function.comp_def, lowerRest]
  | monthLong => simp [Field.read?, takeMonthLong?_map_toLower, Function.comp_def, lowerRest]
  | fraction =>
    cases cs with
    | nil => rfl
    | cons c cs =>
      have hpoint : c.toLower = '.' ↔ c = '.' := toLower_eq_iff (by decide)
      by_cases hc : c = '.'
      · subst hc
        simp [Field.read?, takeFraction?_map_toLower, Function.comp_def, lowerRest]
      · simp only [Field.read?, List.map_cons]
        split
        · rename_i heq
          exact absurd (hpoint.1 (List.cons.inj heq).1) hc
        · split
          · rename_i heq
            exact absurd (List.cons.inj heq).1 hc
          · rfl
  | half => simp [Field.read?, takeOneOf?_map_toLower, Function.comp_def, lowerRest]
  | weekdayShort | weekdayLong => rfl

theorem readFields?_map_toLower {fs : List Field} (hfs : fs.all Field.isCaseless = true)
    (p : Parts) (cs : List Char) : readFields? fs p (cs.map Char.toLower) = readFields? fs p cs := by
  induction fs generalizing p cs with
  | nil => simp [readFields?]
  | cons f fs ih =>
    obtain ⟨hf, hfs⟩ := Bool.and_eq_true_iff.1 hfs
    rw [readFields?, readFields?, Field.read?_map_toLower hf]
    cases f.read? p cs with
    | none => rfl
    | some r => exact ih hfs r.1 r.2

end Fields

section Periods

variable {now : Instant} {text : List Char}

theorem Pattern.readDay?_map_toLower {p : Pattern} {completion : List Char}
    {completedBy : List Field} (hp : p.fields.all Field.isCaseless = true)
    (hby : completedBy.all Field.isCaseless = true)
    (hcompletion : completion.map Char.toLower = completion) (text : List Char) :
    p.readDay? completion completedBy (text.map Char.toLower) =
      p.readDay? completion completedBy text := by
  have hfields : (p.fields ++ completedBy).all Field.isCaseless = true := by
    rw [List.all_append, hp, hby]
    rfl
  have htext : text.map Char.toLower ++ completion = (text ++ completion).map Char.toLower := by
    rw [List.map_append, hcompletion]
  unfold Pattern.readDay? sameLetters
  rw [htext, readFields?_map_toLower hfields, map_toLower_map_toLower]

theorem readPatterns?_map_toLower {g : Granularity} {patterns : List Pattern}
    {completion : List Char} {completedBy : List Field}
    (hpatterns : (patterns.all fun p => p.fields.all Field.isCaseless) = true)
    (hby : completedBy.all Field.isCaseless = true)
    (hcompletion : completion.map Char.toLower = completion) (text : List Char) :
    readPatterns? (text.map Char.toLower) g patterns completion completedBy =
      readPatterns? text g patterns completion completedBy := by
  unfold readPatterns?
  induction patterns with
  | nil => rfl
  | cons p patterns ih =>
    obtain ⟨hp, hpatterns⟩ := Bool.and_eq_true_iff.1 hpatterns
    rw [List.findSome?_cons, List.findSome?_cons, Pattern.readDay?_map_toLower hp hby hcompletion,
      ih hpatterns]

theorem readDay?_map_toLower (now : Instant) (text : List Char) :
    readDay? now (text.map Char.toLower) = readDay? now text := by
  unfold readDay? readDayWord? readWeekday? sameLetters
  rw [lower_map_toLower, map_toLower_map_toLower,
    readPatterns?_map_toLower (by decide) (by decide) rfl]

theorem readPhrase?_map_toLower (g : Granularity) (instantOf : String → Option Instant)
    (text : List Char) :
    readPhrase? (text.map Char.toLower) g instantOf = readPhrase? text g instantOf := by
  unfold readPhrase?
  rw [lower_map_toLower]

theorem toLower_of_mem_toString {c : Char} {n : Int} (h : c ∈ (toString n).toList) :
    c.toLower = c := by
  rcases mem_toString h with rfl | h
  · decide
  · exact toLower_of_isDigit h

theorem readMonth?_map_toLower (now : Instant) (text : List Char) :
    readMonth? now (text.map Char.toLower) = readMonth? now text := by
  have hyear : ((toString (yearOf now.day)).toList).map Char.toLower =
      (toString (yearOf now.day)).toList :=
    (List.map_congr_left fun c hc => toLower_of_mem_toString hc).trans (List.map_id' _)
  unfold readMonth?
  dsimp only
  rw [readPhrase?_map_toLower, readPatterns?_map_toLower (by decide) (by decide),
    readPatterns?_map_toLower (by decide) (by decide) rfl]
  rw [List.map_append, List.map_cons, hyear]
  rfl

theorem readYear?_map_toLower (now : Instant) (text : List Char) :
    readYear? now (text.map Char.toLower) = readYear? now text := by
  unfold readYear?
  rw [readPhrase?_map_toLower, readPatterns?_map_toLower (by decide) (by decide) rfl]

theorem takeWeekWord?_of_ne_space {w e e' k b : Char} (hb : b ≠ ' ') (rest : List Char) :
    takeWeekWord? (w :: e :: e' :: k :: b :: rest) = none := by
  unfold takeWeekWord?
  split
  · rename_i heq
    simp only [List.cons.injEq] at heq
    exact absurd heq.2.2.2.2.1 hb
  · rfl

theorem takeWeekWord?_map_toLower (text : List Char) :
    takeWeekWord? (text.map Char.toLower) = (takeWeekWord? text).map (List.map Char.toLower) := by
  match text with
  | [] | [_] | [_, _] | [_, _, _] | [_, _, _, _] => rfl
  | w :: e :: e' :: k :: b :: rest =>
    have hspace : b.toLower = ' ' ↔ b = ' ' := toLower_eq_iff (by decide)
    have hkelvin : (k.toLower == '\u212a') = (k == '\u212a') := by
      rw [Bool.eq_iff_iff, beq_iff_eq, beq_iff_eq]
      exact toLower_eq_iff (by decide)
    by_cases hb : b = ' '
    · subst hb
      have hlower : ' '.toLower = ' ' := rfl
      simp only [List.map_cons, hlower, toLower_toLower, takeWeekWord?, hkelvin]
      split <;> rfl
    · simp only [List.map_cons]
      rw [takeWeekWord?_of_ne_space hb, takeWeekWord?_of_ne_space (mt hspace.1 hb)]
      rfl

theorem readWeekDigits?_map_toLower (text : List Char) :
    readWeekDigits? (text.map Char.toLower) = readWeekDigits? text := by
  unfold readWeekDigits?
  rw [takeWeekWord?_map_toLower]
  cases takeWeekWord? text with
  | none => rfl
  | some digits =>
    have hall : (digits.map Char.toLower).all Char.isDigit = digits.all Char.isDigit := by
      rw [List.all_map]
      exact congrArg digits.all (funext (apply_toLower (by decide)))
    cases hdigits : digits.all Char.isDigit with
    | true =>
      have hsame := map_toLower_of_all_isDigit (List.all_eq_true.1 hdigits)
      simp only [Option.map_some, hsame]
    | false =>
      show (if _ then _ else _) = (if _ then _ else _)
      rw [if_pos (by rw [hall, hdigits]; simp), if_pos (by rw [hdigits]; simp)]

theorem readWeekNumber?_map_toLower (now : Instant) (text : List Char) :
    readWeekNumber? now (text.map Char.toLower) = readWeekNumber? now text := by
  unfold readWeekNumber?
  rw [readWeekDigits?_map_toLower]

theorem readWeek?_map_toLower (now : Instant) (text : List Char) :
    readWeek? now (text.map Char.toLower) = readWeek? now text := by
  unfold readWeek?
  rw [readPhrase?_map_toLower, readWeekNumber?_map_toLower]

/-- Reads a period: a day, a week, a month or a year. -/
def readPeriod? (now : Instant) (text : List Char) : Option DateValue :=
  readDay? now text <|> readMonth? now text <|> readYear? now text <|> readWeek? now text

theorem readTrimmed?_eq (now : Instant) (text : List Char) : readTrimmed? now text =
    (readPeriod? now text <|> readTime? now text <|> readTimestamp? text) := by
  unfold readTrimmed? readPeriod?
  simp only [Option.orElse_eq_orElse, Option.orElse_eq_or, Option.or_assoc]

theorem readPeriod?_map_toLower (now : Instant) (text : List Char) :
    readPeriod? now (text.map Char.toLower) = readPeriod? now text := by
  unfold readPeriod?
  rw [readDay?_map_toLower, readMonth?_map_toLower, readYear?_map_toLower, readWeek?_map_toLower]

end Periods

section Timestamps

theorem takeExact?_map_toLower (width : Nat) (cs : List Char) :
    takeExact? width (cs.map Char.toLower) = (takeExact? width cs).map lowerRest := by
  have hall : ((cs.take width).map Char.toLower).all Char.isDigit =
      (cs.take width).all Char.isDigit := by
    rw [List.all_map]
    exact congrArg (cs.take width).all (funext (apply_toLower (by decide)))
  unfold takeExact?
  rw [← List.map_take, List.length_map, hall]
  split
  · rename_i h
    rw [map_toLower_of_all_isDigit (List.all_eq_true.1 h.2), ← List.map_drop]
    rfl
  · rfl

theorem takeExactBetween?_map_toLower (low high width : Nat) (cs : List Char) :
    takeExactBetween? low high width (cs.map Char.toLower) =
      (takeExactBetween? low high width cs).map lowerRest := by
  unfold takeExactBetween?
  rw [takeExact?_map_toLower]
  cases takeExact? width cs with
  | none => rfl
  | some r =>
    simp only [Option.map_some, Option.filter_some, lowerRest]
    split <;> rfl

theorem takeChar?_map_toLower {c : Char}
    (h : (capitals.all fun a => a.toLower != c && a != c) = true) (cs : List Char) :
    takeChar? c (cs.map Char.toLower) = (takeChar? c cs).map (List.map Char.toLower) := by
  cases cs with
  | nil => rfl
  | cons d cs =>
    simp only [takeChar?, List.map_cons, toLower_eq_iff h]
    split <;> rfl

theorem takeBlanks?_map_toLower (cs : List Char) :
    takeBlanks? (cs.map Char.toLower) = (takeBlanks? cs).map (List.map Char.toLower) := by
  cases cs with
  | nil => rfl
  | cons c cs =>
    have hblank : isBlank c.toLower = isBlank c := apply_toLower (by decide) c
    simp only [takeBlanks?, List.map_cons, hblank, trimStart_map_toLower]
    split <;> rfl

theorem takeMailWeekday?_map_toLower (cs : List Char) :
    takeMailWeekday? (cs.map Char.toLower) = (takeMailWeekday? cs).map lowerRest := by
  unfold takeMailWeekday?
  rw [takeOneOf?_map_toLower]
  cases takeOneOf? (weekdayNames.map fun n => n.toList.take 3) cs with
  | none => rfl
  | some r =>
    simp [lowerRest, takeChar?_map_toLower (c := ',') (by decide), Function.comp_def]

theorem takeMailSeconds?_map_toLower (cs : List Char) :
    takeMailSeconds? (cs.map Char.toLower) = (takeMailSeconds? cs).map lowerRest := by
  unfold takeMailSeconds?
  rw [trimStart_map_toLower, takeChar?_map_toLower (by decide)]
  cases takeChar? ':' (trimStart cs) with
  | none => rfl
  | some cs => simp [takeExactBetween?_map_toLower, lowerRest, Function.comp_def]

theorem takeOffsetDigits?_some_map_toLower (cs : List Char) :
    takeOffsetDigits? some (cs.map Char.toLower) = (takeOffsetDigits? some cs).map lowerRest := by
  unfold takeOffsetDigits?
  rw [takeExact?_map_toLower]
  cases takeExact? 2 cs with
  | none => rfl
  | some r =>
    simp only [Option.map_some, lowerRest, Option.bind_eq_bind, Option.bind_some,
      takeExactBetween?_map_toLower]
    cases takeExactBetween? 0 59 2 r.2 <;> rfl

theorem mailZone?_map_toLower (name : List Char) :
    mailZone? (name.map Char.toLower) = mailZone? name := by
  unfold mailZone? sameLetters
  rw [map_toLower_map_toLower]
  split
  · rfl
  · match name with
    | [] | _ :: _ :: _ => rfl
    | [c] =>
      simp only [List.map_cons, List.map_nil]
      rw [toLower_toLower]

theorem takeMailZone?_map_toLower (cs : List Char) :
    takeMailZone? (cs.map Char.toLower) = (takeMailZone? cs).map lowerRest := by
  unfold takeMailZone?
  rw [takeWhile_map_toLower (by decide), dropWhile_map_toLower (by decide)]
  dsimp only
  rw [List.isEmpty_map, mailZone?_map_toLower]
  split
  · simp [Function.comp_def, lowerRest]
  · cases cs with
    | nil => rfl
    | cons c cs =>
      have hplus : c.toLower = '+' ↔ c = '+' := toLower_eq_iff (by decide)
      have hminus : c.toLower = '-' ↔ c = '-' := toLower_eq_iff (by decide)
      by_cases hp : c = '+'
      · subst hp
        exact takeOffsetDigits?_some_map_toLower cs
      · by_cases hm : c = '-'
        · subst hm
          simp [takeOffsetDigits?_some_map_toLower, Function.comp_def, lowerRest]
        · simp [hp, hm, hplus, hminus]

theorem skipComment?_map_toLower (depth : Nat) (cs : List Char) :
    skipComment? depth (cs.map Char.toLower) =
      (skipComment? depth cs).map (List.map Char.toLower) := by
  fun_induction skipComment? depth cs with
  | case1 => rfl
  | case2 => rfl
  | case3 depth c cs ih => exact ih
  | case4 depth cs _ ih => exact ih
  | case5 cs => rfl
  | case6 depth cs hdepth _ _ ih =>
    show skipComment? depth (')' :: cs.map Char.toLower) = _
    rw [skipComment?.eq_4 _ _ _ (by decide), if_neg (by decide), if_pos rfl, if_neg hdepth]
    exact ih
  | case7 depth c cs hescape hopen hclose ih =>
    have hne {d : Char} (hd : c ≠ d)
        (h : (capitals.all fun a => a.toLower != d && a != d) = true) : c.toLower ≠ d :=
      mt (toLower_eq_iff h).1 hd
    rw [List.map_cons, skipComment?.eq_4 _ _ _ (hne hescape (by decide)),
      if_neg (hne hopen (by decide)), if_neg (hne hclose (by decide))]
    exact ih

theorem skipComments_of_closed {cs inner rest : List Char} (h : trimStart cs = '(' :: inner)
    (hrest : skipComment? 1 inner = some rest) : skipComments cs = skipComments rest := by
  rw [skipComments]
  split
  · rename_i inner' h'
    obtain rfl : inner = inner' := (List.cons.inj (h.symm.trans h')).2
    split
    · rename_i rest' hrest'
      rw [Option.some.inj (hrest.symm.trans hrest')]
    · rename_i hnone
      simp [hrest] at hnone
  · rename_i hno
    exact absurd h (hno inner)

theorem skipComments_of_open {cs inner : List Char} (h : trimStart cs = '(' :: inner)
    (hrest : skipComment? 1 inner = none) : skipComments cs = cs := by
  rw [skipComments]
  split
  · rename_i inner' h'
    obtain rfl : inner = inner' := (List.cons.inj (h.symm.trans h')).2
    split
    · rename_i rest' hrest'
      simp [hrest] at hrest'
    · rfl
  · rfl

theorem skipComments_of_none {cs : List Char} (h : ∀ inner, trimStart cs ≠ '(' :: inner) :
    skipComments cs = cs := by
  rw [skipComments]
  split
  · rename_i inner h'
    exact absurd h' (h inner)
  · rfl

theorem skipComments_map_toLower (cs : List Char) :
    skipComments (cs.map Char.toLower) = (skipComments cs).map Char.toLower := by
  have htoLower {cs inner : List Char} (h : trimStart cs = '(' :: inner) :
      trimStart (cs.map Char.toLower) = '(' :: inner.map Char.toLower := by
    rw [trimStart_map_toLower, h]
    rfl
  fun_induction skipComments cs with
  | case1 cs inner htrim rest hrest ih =>
    have hrest' : skipComment? 1 (inner.map Char.toLower) = some (rest.map Char.toLower) := by
      rw [skipComment?_map_toLower, hrest]
      rfl
    rw [skipComments_of_closed (htoLower htrim) hrest']
    exact ih
  | case2 cs inner htrim hrest =>
    apply skipComments_of_open (htoLower htrim)
    rw [skipComment?_map_toLower, hrest]
    rfl
  | case3 cs hnone =>
    apply skipComments_of_none
    intro inner h
    rw [trimStart_map_toLower] at h
    obtain ⟨c, tail, htrim, hc, -⟩ := List.map_eq_cons_iff.1 h
    exact hnone tail (by rw [htrim, (toLower_eq_iff (by decide)).1 hc])

/-- What follows a reader does not see the case if it does not see it behind any reading. -/
theorem bind_lowerRest {α β : Type} {r r' : Option (α × List Char)}
    {f : α × List Char → Option β} (h : r' = r.map lowerRest)
    (hf : ∀ a cs, f (a, cs.map Char.toLower) = f (a, cs)) : r'.bind f = r.bind f := by
  subst h
  cases r with
  | none => rfl
  | some r => exact hf r.1 r.2

theorem bind_map_toLower {β : Type} {r r' : Option (List Char)} {f : List Char → Option β}
    (h : r' = r.map (List.map Char.toLower)) (hf : ∀ cs, f (cs.map Char.toLower) = f cs) :
    r'.bind f = r.bind f := by
  subst h
  cases r with
  | none => rfl
  | some cs => exact hf cs

theorem readMailTimestamp?_map_toLower (cs : List Char) :
    readMailTimestamp? (cs.map Char.toLower) = readMailTimestamp? cs := by
  have hcolon (cs : List Char) := takeChar?_map_toLower (c := ':') (by decide) cs
  unfold readMailTimestamp?
  rw [trimStart_map_toLower]
  refine bind_lowerRest (takeMailWeekday?_map_toLower _) fun week cs => ?_
  dsimp only
  rw [trimStart_map_toLower]
  refine bind_lowerRest (takeBetween?_map_toLower 1 31 2 _) fun day cs => ?_
  refine bind_map_toLower (takeBlanks?_map_toLower cs) fun cs => ?_
  refine bind_lowerRest (takeMonthShort?_map_toLower cs) fun month cs => ?_
  refine bind_map_toLower (takeBlanks?_map_toLower cs) fun cs => ?_
  dsimp only
  rw [takeWhile_isDigit_map_toLower, dropWhile_map_toLower (p := Char.isDigit) (by decide)]
  refine bind_map_toLower (takeBlanks?_map_toLower _) fun behind => ?_
  refine bind_lowerRest (takeExactBetween?_map_toLower 0 23 2 behind) fun hour cs => ?_
  dsimp only
  rw [trimStart_map_toLower]
  refine bind_map_toLower (hcolon _) fun cs => ?_
  rw [trimStart_map_toLower]
  refine bind_lowerRest (takeExactBetween?_map_toLower 0 59 2 _) fun minute cs => ?_
  refine bind_lowerRest (takeMailSeconds?_map_toLower cs) fun second cs => ?_
  refine bind_map_toLower (takeBlanks?_map_toLower cs) fun cs => ?_
  refine bind_lowerRest (takeMailZone?_map_toLower cs) fun offset cs => ?_
  dsimp only
  rw [skipComments_map_toLower, List.isEmpty_map]

theorem readTimestampPattern?_map_toLower (text : List Char) :
    readTimestampPattern? (text.map Char.toLower) = readTimestampPattern? text := by
  have hcaseless : (Pattern.timestamps.all fun p => p.fields.all Field.isCaseless) = true := by
    decide
  unfold readTimestampPattern? sameLetters
  rw [map_toLower_map_toLower]
  generalize Pattern.timestamps = patterns at hcaseless ⊢
  induction patterns with
  | nil => rfl
  | cons p patterns ih =>
    obtain ⟨hp, hpatterns⟩ := Bool.and_eq_true_iff.1 hcaseless
    rw [List.findSome?_cons, List.findSome?_cons, readFields?_map_toLower hp, ih hpatterns]

end Timestamps

end SearchBar.Calendar
