import SearchBar.Calendar.Expression

/-! # Characters of written dates

Dates are written with ASCII letters and digits, blanks, and four signs.
-/

namespace SearchBar.Calendar

open Text

def isDateChar (c : Char) : Bool := c.isAlphanum || [' ', '-', '+', ':', ','].contains c

variable {c : Char} {t : Instant} {fs : List Field}

theorem isDateChar_of_isAlphanum (h : c.isAlphanum = true) : isDateChar c = true := by
  simp [isDateChar, h]

theorem toNat_lt_of_isDateChar (h : isDateChar c = true) : c.toNat < 128 := by
  simp only [isDateChar, Char.isAlphanum] at h
  delta Char.isAlpha Char.isUpper Char.isLower at h
  simp only [Char.isDigit, List.contains_eq_mem, List.mem_cons, List.not_mem_nil, or_false, Bool.or_eq_true,
    Bool.and_eq_true, decide_eq_true_eq] at h
  rcases h with ((⟨-, h⟩ | ⟨-, h⟩) | ⟨-, h⟩) | rfl | rfl | rfl | rfl | rfl
  · exact Nat.lt_of_le_of_lt (UInt32.le_iff_toNat_le.1 h) (by decide)
  · exact Nat.lt_of_le_of_lt (UInt32.le_iff_toNat_le.1 h) (by decide)
  · exact Nat.lt_of_le_of_lt (UInt32.le_iff_toNat_le.1 h) (by decide)
  all_goals decide

theorem isAlphanum_of_isDigit (h : c.isDigit = true) : c.isAlphanum = true := by
  simp [Char.isAlphanum, h]

theorem isDateChar_of_isDigit (h : c.isDigit = true) : isDateChar c = true :=
  isDateChar_of_isAlphanum (isAlphanum_of_isDigit h)

theorem isDigit_of_mem_padded {width n : Nat} (h : c ∈ padded width n) : c.isDigit = true := by
  rcases List.mem_append.1 h with h | h
  · rw [(List.mem_replicate.1 h).2]
    decide
  · exact Decimal.isDigit_of_mem_digitsOfNat h

theorem isDigit_of_mem_twoDigits {p : Bool} {n : Nat} (h : c ∈ twoDigits p n) :
    c.isDigit = true := by
  cases p with
  | false => exact Decimal.isDigit_of_mem_digitsOfNat h
  | true => exact isDigit_of_mem_padded h

theorem mem_yearText {y : Int} (h : c ∈ yearText y) : c.isDigit = true ∨ c = '-' ∨ c = '+' := by
  unfold yearText at h
  split at h
  · exact .inl (isDigit_of_mem_padded h)
  · rcases List.mem_cons.1 h with rfl | h
    · split
      · exact .inr (.inl rfl)
      · exact .inr (.inr rfl)
    · exact .inl (isDigit_of_mem_padded h)

theorem isAlpha_of_mem_getD {names : List String} {n : Nat}
    (hall : (names.all fun s => s.toList.all Char.isAlpha) = true)
    (h : c ∈ (names.getD n "").toList) : c.isAlpha = true := by
  rw [List.getD_eq_getElem?_getD] at h
  cases hn : names[n]? with
  | none => simp [hn] at h
  | some s =>
    rw [hn, Option.getD_some] at h
    exact List.all_eq_true.1 (List.all_eq_true.1 hall s (List.mem_of_getElem? hn)) c h

theorem isAlpha_of_mem_monthName {m : Nat} (h : c ∈ monthName m) : c.isAlpha = true :=
  isAlpha_of_mem_getD (by decide) h

theorem isAlpha_of_mem_weekdayName {w : Nat} (h : c ∈ weekdayName w) : c.isAlpha = true :=
  isAlpha_of_mem_getD (by decide) h

theorem Field.mem_write {f : Field} (hf : f ≠ .fraction) (h : c ∈ f.write t) :
    f = .literal c ∨ c.isAlphanum = true ∨ c = ' ' ∨ c = '-' ∨ c = '+' := by
  have hletter {c : Char} (h : c.isAlpha = true) : c.isAlphanum = true := by
    simp [Char.isAlphanum, h]
  cases f with
  | literal a =>
    obtain rfl : c = a := by simpa [Field.write] using h
    exact .inl rfl
  | gap => exact .inr (.inr (.inl (by simpa [Field.write] using h)))
  | year =>
    rcases mem_yearText h with h | h
    · exact .inr (.inl (isAlphanum_of_isDigit h))
    · exact .inr (.inr (.inr h))
  | yearOfCentury | month | minute | second =>
    exact .inr (.inl (isAlphanum_of_isDigit (isDigit_of_mem_padded h)))
  | day | hour | hourOfHalf =>
    exact .inr (.inl (isAlphanum_of_isDigit (isDigit_of_mem_twoDigits h)))
  | monthShort => exact .inr (.inl (hletter (isAlpha_of_mem_monthName (List.mem_of_mem_take h))))
  | monthLong => exact .inr (.inl (hletter (isAlpha_of_mem_monthName h)))
  | weekdayShort =>
    exact .inr (.inl (hletter (isAlpha_of_mem_weekdayName (List.mem_of_mem_take h))))
  | weekdayLong => exact .inr (.inl (hletter (isAlpha_of_mem_weekdayName h)))
  | half p =>
    have hall : ((half p).write t).all Char.isAlphanum = true := by
      cases p <;> simp only [Field.write] <;> split <;> decide
    exact .inr (.inl (List.all_eq_true.1 hall c h))
  | fraction => exact absurd rfl hf

def Field.isPlain : Field → Bool
  | literal c => isDateChar c
  | fraction => false
  | _ => true

theorem Field.isDateChar_of_mem_write {f : Field} (hf : f.isPlain = true) (h : c ∈ f.write t) :
    isDateChar c = true := by
  have hne : f ≠ .fraction := by
    rintro rfl
    exact absurd hf Bool.false_ne_true
  rcases Field.mem_write hne h with rfl | h | rfl | rfl | rfl
  · exact hf
  · exact isDateChar_of_isAlphanum h
  · decide
  · decide
  · decide

theorem isDateChar_of_mem_writeFields (hfs : fs.all Field.isPlain = true)
    (h : c ∈ writeFields fs t) : isDateChar c = true := by
  obtain ⟨f, hf, h⟩ := List.mem_flatMap.1 h
  exact Field.isDateChar_of_mem_write (List.all_eq_true.1 hfs f hf) h

theorem isDateChar_of_mem_isoText (h : c ∈ isoText t) : isDateChar c = true := by
  rcases List.mem_append.1 h with h | h
  · exact isDateChar_of_mem_writeFields (by decide) h
  · rw [List.mem_singleton.1 h]
    decide

theorem isDateChar_of_mem_mailText (h : c ∈ mailText t) : isDateChar c = true := by
  rcases List.mem_append.1 h with h | h
  · exact isDateChar_of_mem_writeFields (by decide) h
  · exact List.all_eq_true.1 (by decide) c h

theorem toList_toString_natCast (n : Nat) :
    (toString (n : Int)).toList = Decimal.digitsOfNat n := Nat.toList_repr

theorem mem_toString {n : Int} (h : c ∈ (toString n).toList) : c = '-' ∨ c.isDigit = true := by
  cases n with
  | ofNat n =>
    rw [Int.ofNat_eq_natCast, toList_toString_natCast] at h
    exact .inr (Decimal.isDigit_of_mem_digitsOfNat h)
  | negSucc n =>
    have htext : (toString (Int.negSucc n)).toList = '-' :: Decimal.digitsOfNat (n + 1) := by
      show ("-" ++ Nat.repr (n + 1)).toList = _
      rw [String.toList_append, Nat.toList_repr]
      rfl
    rw [htext] at h
    rcases List.mem_cons.1 h with rfl | h
    · exact .inl rfl
    · exact .inr (Decimal.isDigit_of_mem_digitsOfNat h)

theorem isDateChar_of_mem_toString {n : Int} (h : c ∈ (toString n).toList) :
    isDateChar c = true := by
  rcases mem_toString h with rfl | h
  · decide
  · exact isDateChar_of_isDigit h

theorem isDateChar_of_mem_periodText {g : Granularity} (h : c ∈ g.isoText t) :
    isDateChar c = true := by
  cases g <;> exact isDateChar_of_mem_writeFields (by decide) h

theorem isDateChar_of_mem_pattern {p : Pattern} (hp : p ∈ Pattern.all) (h : c ∈ p.write t) :
    isDateChar c = true := by
  have hall : (Pattern.all.all fun p => p.fields.all Field.isPlain) = true := by decide
  exact isDateChar_of_mem_writeFields (List.all_eq_true.1 hall p hp) h

theorem isDateChar_of_mem_writeFormat {format : String} {period : Option Granularity}
    (h : c ∈ writeFormat format t period) : isDateChar c = true := by
  unfold writeFormat at h
  split at h
  · exact isDateChar_of_mem_isoText h
  · split at h
    · exact isDateChar_of_mem_mailText h
    · split at h
      · rcases List.mem_append.1 h with h | h
        · exact List.all_eq_true.1 (by decide) c h
        · exact isDateChar_of_mem_toString h
      · split at h
        · rename_i p hp
          exact isDateChar_of_mem_pattern (List.mem_of_find?_eq_some hp) h
        · split at h
          · exact isDateChar_of_mem_periodText h
          · exact isDateChar_of_mem_isoText h

theorem isDateChar_of_mem_writeDay {now : Instant} {format : String}
    (h : c ∈ writeDay now t format) : isDateChar c = true := by
  unfold writeDay at h
  simp only at h
  split at h
  · exact List.all_eq_true.1 (by decide) c h
  · split at h
    · exact List.all_eq_true.1 (by decide) c h
    · split at h
      · exact List.all_eq_true.1 (by decide) c h
      · split at h
        · exact isDateChar_of_isAlphanum (by simp [Char.isAlphanum, isAlpha_of_mem_weekdayName h])
        · exact isDateChar_of_mem_writeFormat h

theorem Granularity.mem_all (g : Granularity) : g ∈ Granularity.all := by
  cases g <;> decide

def phrases : List String := periodWords.flatMap fun word => Granularity.all.map (phrase word)

theorem phrase_mem_phrases {word : String} (hword : word ∈ periodWords) (g : Granularity) :
    phrase word g ∈ phrases :=
  List.mem_flatMap.2 ⟨word, hword, List.mem_map_of_mem g.mem_all⟩

theorem isDateChar_of_mem_phrase {word : String} {g : Granularity} (hw : word ∈ periodWords)
    (h : c ∈ (phrase word g).toList) : isDateChar c = true := by
  have hall : (phrases.all fun s => s.toList.all isDateChar) = true := by decide
  exact List.all_eq_true.1 (List.all_eq_true.1 hall _ (phrase_mem_phrases hw g)) c h

theorem isDateChar_of_mem_writePeriod {now : Instant} {format : String} {g : Granularity}
    (h : c ∈ writePeriod now g t format) : isDateChar c = true := by
  unfold writePeriod at h
  simp only at h
  split at h
  · exact isDateChar_of_mem_phrase (by decide) h
  · split at h
    · exact isDateChar_of_mem_phrase (by decide) h
    · split at h
      · exact isDateChar_of_mem_phrase (by decide) h
      · exact isDateChar_of_mem_writeFormat h

/-- Every written date consists of these characters. -/
theorem isDateChar_of_mem_write {now : Instant} {default : Option Granularity} {d : DateValue}
    (h : c ∈ d.write now default) : isDateChar c = true := by
  unfold DateValue.write at h
  split at h
  · exact isDateChar_of_mem_isoText h
  · split at h
    · exact isDateChar_of_mem_writeDay h
    · exact isDateChar_of_mem_writePeriod h
    · exact isDateChar_of_mem_writeFormat h

end SearchBar.Calendar
