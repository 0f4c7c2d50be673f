import SearchBar.Proofs.Calendar.Letters
import SearchBar.Proofs.Calendar.Periods

/-! # The forms of periods

A text that is read as a period has one of four forms: a pattern writes it, it is the
word for a near day, the phrase for a near period, or the number of a week. A written
period never has a colon in it, and the forms of times and timestamps always have.
-/

namespace SearchBar.Calendar

open Text

variable {now : Instant} {text : List Char} {d : DateValue}

def Pattern.periods : List Pattern := weekdays ++ days ++ bareMonths ++ months ++ years

/-- The ways in which a text may stand for a period. -/
inductive PeriodForm (now : Instant) (text : List Char) : DateValue → Prop
  | pattern (g : Granularity) {p : Pattern} {day : Int} (hp : p ∈ Pattern.periods)
      (htext : sameLetters (p.write (.midnight day)) text = true) :
      PeriodForm now text (tagged (.midnight day) g p.name)
  | dayWord {w : String × Int} (hw : w ∈ dayWords) (htext : lower text = w.1.toList) :
      PeriodForm now text (tagged (Granularity.day.start (now.addDays w.2)) .day w.1)
  | phrase {g : Granularity} {w : String × Instant} (hw : w ∈ neighbours now g)
      (htext : lower text = (phrase w.1 g).toList) :
      PeriodForm now text (tagged (g.start w.2) g (phrase w.1 g))
  | week {n : Nat} {digits : List Char} (htext : takeWeekWord? text = some digits)
      (hdigits : digits.all Char.isDigit = true) (hn : 1 ≤ n ∧ n ≤ 53)
      (hday : weekNumber (Granularity.week.startDay (yearStart (yearOf now.day)) + 7 * (n - 1)) = n) :
      PeriodForm now text (tagged
        (.midnight (Granularity.week.startDay (yearStart (yearOf now.day)) + 7 * (n - 1))) .week
        weekFormat)

section Inversion

theorem Pattern.sameLetters_of_readDay {p : Pattern} {completion : List Char}
    {completedBy : List Field} {day : Int} (h : p.readDay? completion completedBy text = some day) :
    sameLetters (p.write (.midnight day)) text = true :=
  (Option.filter_eq_some_iff.1 h).2

theorem periodForm_of_readPatterns {g : Granularity} {patterns : List Pattern}
    {completion : List Char} {completedBy : List Field}
    (hpatterns : ∀ p ∈ patterns, p ∈ Pattern.periods)
    (h : readPatterns? text g patterns completion completedBy = some d) :
    PeriodForm now text d := by
  obtain ⟨p, hp, hread⟩ := List.exists_of_findSome?_eq_some h
  obtain ⟨day, hday, rfl⟩ := Option.map_eq_some_iff.1 hread
  exact .pattern g (hpatterns p hp) (Pattern.sameLetters_of_readDay hday)

theorem periodForm_of_readDayWord (h : readDayWord? now text = some d) :
    PeriodForm now text d := by
  obtain ⟨w, hw, rfl⟩ := Option.map_eq_some_iff.1 h
  have htext := List.find?_some hw
  exact .dayWord (List.mem_of_find?_eq_some hw) (beq_iff_eq.1 htext).symm

theorem periodForm_of_readWeekday (h : readWeekday? now text = some d) :
    PeriodForm now text d := by
  obtain ⟨p, hp, hread⟩ := List.exists_of_findSome?_eq_some h
  obtain ⟨t, ht, hread⟩ := List.exists_of_findSome?_eq_some hread
  obtain ⟨n, -, rfl⟩ := List.mem_map.1 ht
  split at hread
  · rename_i htext
    obtain rfl := Option.some.inj hread
    rw [Granularity.start, Instant.addDays_midnight] at htext ⊢
    exact .pattern .day (by simp [Pattern.periods, hp]) htext
  · simp at hread

theorem periodForm_of_readDay (h : readDay? now text = some d) : PeriodForm now text d := by
  simp only [readDay?, Option.orElse_eq_orElse, Option.orElse_eq_or, Option.or_eq_some_iff] at h
  rcases h with h | ⟨-, h | ⟨-, h⟩⟩
  · exact periodForm_of_readDayWord h
  · exact periodForm_of_readWeekday h
  · exact periodForm_of_readPatterns (by simp +contextual [Pattern.periods]) h

theorem periodForm_of_readPhrase {g : Granularity} {instantOf : String → Option Instant}
    (hwords : ∀ word ∈ periodWords, ∃ t, instantOf word = some t ∧ (word, t) ∈ neighbours now g)
    (h : readPhrase? text g instantOf = some d) : PeriodForm now text d := by
  obtain ⟨word, hword, hread⟩ := List.exists_of_findSome?_eq_some h
  obtain ⟨t, ht, hmem⟩ := hwords word hword
  split at hread
  · rename_i htext
    rw [ht] at hread
    obtain rfl := Option.some.inj hread
    exact .phrase hmem (beq_iff_eq.1 htext).symm
  · simp at hread

theorem periodForm_of_readMonth (h : readMonth? now text = some d) : PeriodForm now text d := by
  simp only [readMonth?, Option.orElse_eq_orElse, Option.orElse_eq_or, Option.or_eq_some_iff] at h
  rcases h with h | ⟨-, h | ⟨-, h⟩⟩
  · exact periodForm_of_readPhrase (by simp [periodWords, neighbours]) h
  · exact periodForm_of_readPatterns (by simp +contextual [Pattern.periods]) h
  · exact periodForm_of_readPatterns (by simp +contextual [Pattern.periods]) h

theorem periodForm_of_readYear (h : readYear? now text = some d) : PeriodForm now text d := by
  simp only [readYear?, Option.orElse_eq_orElse, Option.orElse_eq_or, Option.or_eq_some_iff] at h
  rcases h with h | ⟨-, h⟩
  · exact periodForm_of_readPhrase (by simp [periodWords, neighbours]) h
  · exact periodForm_of_readPatterns (by simp +contextual [Pattern.periods]) h

theorem readWeekDigits?_eq_some {n : Nat} : readWeekDigits? text = some n ↔ ∃ digits,
    takeWeekWord? text = some digits ∧ digits ≠ [] ∧ digits.length ≤ 2 ∧
      (∀ c ∈ digits, c.isDigit = true) ∧ Decimal.natOfDigits digits = n := by
  simp only [readWeekDigits?, Option.bind_eq_bind, Option.bind_eq_some_iff,
    Option.ite_none_left_eq_some, Option.some.injEq, Bool.or_eq_true, not_or, decide_eq_true_eq,
    Nat.not_lt, Bool.not_eq_true', Bool.not_eq_false, List.all_eq_true, List.isEmpty_iff, and_assoc]

theorem readWeekNumber?_eq_some (h : readWeekNumber? now text = some d) : ∃ digits,
    takeWeekWord? text = some digits ∧ digits ≠ [] ∧ digits.length ≤ 2 ∧
      (∀ c ∈ digits, c.isDigit = true) ∧ 1 ≤ Decimal.natOfDigits digits ∧
      Decimal.natOfDigits digits ≤ 53 ∧ weekNumber d.instant.day = Decimal.natOfDigits digits ∧
      d = tagged (.midnight (Granularity.week.startDay (yearStart (yearOf now.day)) +
        7 * (Decimal.natOfDigits digits - 1))) .week weekFormat := by
  obtain ⟨n, hn, h⟩ := Option.bind_eq_some_iff.1 h
  obtain ⟨digits, htext, hne, hlength, hdigits, rfl⟩ := readWeekDigits?_eq_some.1 hn
  obtain ⟨⟨hlow, hhigh, hday⟩, h⟩ := Option.ite_none_right_eq_some.1 h
  obtain rfl := Option.some.inj h
  exact ⟨digits, htext, hne, hlength, hdigits, hlow, hhigh, hday, rfl⟩

theorem periodForm_of_readWeekNumber (h : readWeekNumber? now text = some d) :
    PeriodForm now text d := by
  obtain ⟨digits, htext, -, -, hdigits, hlow, hhigh, hday, rfl⟩ := readWeekNumber?_eq_some h
  exact .week htext (List.all_eq_true.2 hdigits) ⟨hlow, hhigh⟩ hday

theorem periodForm_of_readWeek (h : readWeek? now text = some d) : PeriodForm now text d := by
  simp only [readWeek?, Option.orElse_eq_orElse, Option.orElse_eq_or, Option.or_eq_some_iff] at h
  rcases h with h | ⟨-, h⟩
  · exact periodForm_of_readPhrase (by simp [periodWords, neighbours]) h
  · exact periodForm_of_readWeekNumber h

/-- Every period is read from one of the forms. -/
theorem periodForm_of_readPeriod (h : readPeriod? now text = some d) : PeriodForm now text d := by
  simp only [readPeriod?, Option.orElse_eq_orElse, Option.orElse_eq_or, Option.or_eq_some_iff] at h
  rcases h with h | ⟨-, h | ⟨-, h | ⟨-, h⟩⟩⟩
  · exact periodForm_of_readDay h
  · exact periodForm_of_readMonth h
  · exact periodForm_of_readYear h
  · exact periodForm_of_readWeek h

end Inversion

section Colons

theorem mem_of_sameLetters {a b : List Char} {c : Char}
    (hc : (capitals.all fun a => a.toLower != c && a != c) = true) (h : sameLetters a b = true)
    (hmem : c ∈ b) : c ∈ a := by
  have hlower : c.toLower ∈ a.map Char.toLower := by
    rw [sameLetters_iff.1 h]
    exact List.mem_map_of_mem hmem
  obtain ⟨a', ha', heq⟩ := List.mem_map.1 hlower
  rw [(toLower_eq_iff hc).2 rfl] at heq
  rwa [← (toLower_eq_iff hc).1 heq]

theorem Pattern.colon_not_mem_write {p : Pattern} (hp : p ∈ Pattern.periods) (t : Instant) :
    ':' ∉ p.write t := by
  have hall : (Pattern.periods.all fun p => p.fields.all fun f =>
      f != .fraction && f != .literal ':') = true := by decide
  intro h
  obtain ⟨f, hf, h⟩ := List.mem_flatMap.1 h
  have hfield := List.all_eq_true.1 (List.all_eq_true.1 hall p hp) f hf
  simp only [Bool.and_eq_true, bne_iff_ne] at hfield
  rcases Field.mem_write hfield.1 h with h | h | h | h | h
  · exact hfield.2 h
  all_goals exact absurd h (by decide)

theorem takeWeekWord?_eq_some {digits : List Char} (h : takeWeekWord? text = some digits) :
    ∃ w e e' k, text = w :: e :: e' :: k :: ' ' :: digits ∧ w.toLower = 'w' ∧ e.toLower = 'e' ∧
      e'.toLower = 'e' ∧ (k.toLower = 'k' ∨ k = '\u212a') := by
  unfold takeWeekWord? at h
  split at h
  · rename_i w e e' k rest
    split at h
    · rename_i hword
      obtain rfl := Option.some.inj h
      simp only [Bool.and_eq_true, Bool.or_eq_true, beq_iff_eq] at hword
      exact ⟨w, e, e', k, rfl, hword.1.1.1, hword.1.1.2, hword.1.2, hword.2⟩
    · simp at h
  · simp at h

theorem colon_not_mem_of_periodForm (h : PeriodForm now text d) : ':' ∉ text := by
  intro hmem
  have hlower : ':' ∈ lower text := mem_lowerAfter (by decide) (by decide) hmem
  cases h with
  | pattern g hp htext =>
    exact Pattern.colon_not_mem_write hp _ (mem_of_sameLetters (by decide) htext hmem)
  | @dayWord w hw htext =>
    have hall : (dayWords.all fun w => !w.1.toList.contains ':') = true := by decide
    have hno := List.all_eq_true.1 hall w hw
    simp [← htext, hlower] at hno
  | @phrase g w hw htext =>
    have hall : (phrases.all fun s => !s.toList.contains ':') = true := by decide
    have hno := List.all_eq_true.1 hall _
      (phrase_mem_phrases (mem_periodWords_of_mem_neighbours hw) g)
    simp [← htext, hlower] at hno
  | week htext hdigits hn hday =>
    obtain ⟨w, e, e', k, rfl, hw, he, he', hk⟩ := takeWeekWord?_eq_some htext
    simp only [List.mem_cons] at hmem
    rcases hmem with rfl | rfl | rfl | rfl | h | h
    · exact absurd hw (by decide)
    · exact absurd he (by decide)
    · exact absurd he' (by decide)
    · exact absurd hk (by decide)
    · exact absurd h (by decide)
    · exact absurd (List.all_eq_true.1 hdigits _ h) (by decide)

theorem readPeriod?_eq_none_of_colon (h : ':' ∈ text) : readPeriod? now text = none := by
  cases hread : readPeriod? now text with
  | none => rfl
  | some d => exact absurd h (colon_not_mem_of_periodForm (periodForm_of_readPeriod hread))

end Colons

end SearchBar.Calendar
