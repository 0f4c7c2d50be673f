import SearchBar.Calendar.Timestamp
import SearchBar.Proofs.Calendar.Characters
import SearchBar.Proofs.Text.Unescape

/-! # Numbers and parts of dates

Numbers are read at the width that they are written with. The parts that are read give
an instant whose fraction was written out, and a leap second only behind the last second
of a minute.
-/

namespace SearchBar.Calendar

open Text

variable {low high width n : Nat} {ds cs rest : List Char}

section Numbers

theorem toNat_sub_lt_ten {c : Char} (h : c.isDigit = true) : c.toNat - '0'.toNat < 10 := by
  have hle : c.toNat ≤ 57 := by
    simp only [Char.isDigit, Bool.and_eq_true, decide_eq_true_eq] at h
    exact UInt32.le_iff_toNat_le.1 h.2
  have hzero : '0'.toNat = 48 := rfl
  omega

theorem toNat_lt_of_isDigit {c : Char} (h : c.isDigit = true) : c.toNat < 128 := by
  have hlt := toNat_sub_lt_ten h
  have hzero : '0'.toNat = 48 := rfl
  omega

theorem exists_digitChar {c : Char} (h : c.isDigit = true) : ∃ n < 10, c = Nat.digitChar n := by
  have hlt := toNat_sub_lt_ten h
  have hle : 48 ≤ c.toNat := by
    simp only [Char.isDigit, Bool.and_eq_true, decide_eq_true_eq] at h
    exact UInt32.le_iff_toNat_le.1 h.1
  have hall : ((List.range 10).all fun n => Nat.digitChar n == Char.ofNat (48 + n)) = true := by
    decide
  refine ⟨c.toNat - '0'.toNat, hlt, ?_⟩
  rw [beq_iff_eq.1 (List.all_eq_true.1 hall _ (List.mem_range.2 hlt))]
  have hzero : '0'.toNat = 48 := rfl
  rw [hzero, Nat.add_sub_cancel' hle, Char.ofNat_toNat]

theorem ofDigitChars_lt (h : ∀ c ∈ ds, c.isDigit = true) (a : Nat) :
    Nat.ofDigitChars 10 ds a < (a + 1) * 10 ^ ds.length := by
  induction ds generalizing a with
  | nil => simp
  | cons c ds ih =>
    have hc := toNat_sub_lt_ten (h c List.mem_cons_self)
    have hds := ih (fun c hc => h c (List.mem_cons_of_mem _ hc)) (10 * a + (c.toNat - '0'.toNat))
    rw [Nat.ofDigitChars_cons, List.length_cons, Nat.pow_succ, Nat.mul_comm (10 ^ ds.length),
      ← Nat.mul_assoc]
    exact Nat.lt_of_lt_of_le hds (Nat.mul_le_mul_right _ (by omega))

theorem natOfDigits_lt (h : ∀ c ∈ ds, c.isDigit = true) :
    Decimal.natOfDigits ds < 10 ^ ds.length := by
  have hlt := ofDigitChars_lt h 0
  rwa [Nat.zero_add, Nat.one_mul] at hlt

theorem natOfDigits_padded (width n : Nat) : Decimal.natOfDigits (padded width n) = n := by
  rw [padded, Decimal.natOfDigits, Nat.ofDigitChars_append, Nat.ofDigitChars_replicate_zero,
    Nat.mul_zero]
  exact Decimal.natOfDigits_digitsOfNat n

theorem length_padded (hwidth : 0 < width) (h : n < 10 ^ width) : (padded width n).length = width := by
  have hlength : (Decimal.digitsOfNat n).length ≤ width :=
    (Nat.length_toDigits_le_iff (by decide) hwidth).2 h
  rw [padded, List.length_append, List.length_replicate]
  omega

theorem takeExact?_append (hlength : ds.length = width) (h : ∀ c ∈ ds, c.isDigit = true)
    (rest : List Char) : takeExact? width (ds ++ rest) = some (Decimal.natOfDigits ds, rest) := by
  subst hlength
  rw [takeExact?, List.take_left, List.drop_left, if_pos ⟨rfl, List.all_eq_true.2 h⟩]

theorem takeExact?_padded (hwidth : 0 < width) (h : n < 10 ^ width) (rest : List Char) :
    takeExact? width (padded width n ++ rest) = some (n, rest) := by
  rw [takeExact?_append (length_padded hwidth h) (fun _ => isDigit_of_mem_padded),
    natOfDigits_padded]

theorem takeExactBetween?_padded (hwidth : 0 < width) (h : n < 10 ^ width) (hn : low ≤ n ∧ n ≤ high)
    (rest : List Char) :
    takeExactBetween? low high width (padded width n ++ rest) = some (n, rest) := by
  rw [takeExactBetween?, takeExact?_padded hwidth h]
  simp [hn]

theorem takeExact?_eq_none {c : Char} (hmem : c ∈ cs.take width) (hc : c.isDigit = false) :
    takeExact? width cs = none := by
  rw [takeExact?, if_neg]
  rintro ⟨-, hall⟩
  simp [List.all_eq_true.1 hall c hmem] at hc

theorem takeNumber?_append (hne : ds ≠ []) (h : ∀ c ∈ ds, c.isDigit = true)
    (hlength : ds.length ≤ width) (hstop : stopsAt (fun c => !c.isDigit) rest = true) :
    takeNumber? width (ds ++ rest) = some (Decimal.natOfDigits ds, rest) := by
  have hstop' (k : Nat) : stopsAt (fun c => !c.isDigit) (rest.take k) = true := by
    cases rest with
    | nil => simp
    | cons c rest =>
      cases k with
      | zero => rfl
      | succ k => exact hstop
  have htake : ((ds ++ rest).take width).takeWhile Char.isDigit = ds := by
    rw [List.take_append, List.take_of_length_le hlength]
    exact takeWhile_append_of_stopsAt h (hstop' _)
  simp [takeNumber?, htake, hne]

theorem takeBetween?_digitsOfNat (hlength : (Decimal.digitsOfNat n).length ≤ width)
    (hn : low ≤ n ∧ n ≤ high) (hstop : stopsAt (fun c => !c.isDigit) rest = true) :
    takeBetween? low high width (Decimal.digitsOfNat n ++ rest) = some (n, rest) := by
  rw [takeBetween?, takeNumber?_append (Decimal.digitsOfNat_ne_nil n)
    (fun _ => Decimal.isDigit_of_mem_digitsOfNat) hlength hstop, Decimal.natOfDigits_digitsOfNat]
  simp [hn]

end Numbers

namespace Instant

variable {t : Instant}

def dropFraction (t : Instant) : Instant :=
  { t with nano := ⟨t.nano.val - t.nano.val % 1000000000, by omega⟩ }

/-- Leap seconds follow the last second of a minute. -/
def IsRegular (t : Instant) : Prop := t.inLeap = true → t.second.val % 60 = 59

theorem fraction_dropFraction (t : Instant) : t.dropFraction.fraction = 0 := by
  simp only [fraction, dropFraction]
  omega

theorem dropFraction_of_fraction (h : t.fraction = 0) : t.dropFraction = t := by
  unfold fraction at h
  simp only [dropFraction, h, Nat.sub_zero]

theorem behind_zero (t : Instant) : t.behind 0 = t := by
  obtain ⟨day, ⟨second, hs⟩, nano⟩ := t
  simp only [behind, mk.injEq, Fin.mk.injEq, and_true]
  omega

theorem isRegular_behind {n : Int} (hn : n % 60 = 0) (h : t.IsRegular) : (t.behind n).IsRegular := by
  intro hleap
  have hsecond := h hleap
  simp only [behind]
  omega

end Instant

section Parts

variable {p q : Parts} {day : Int} {t : Instant}

theorem Parts.at?_eq_some (h : p.at? day = some t) : t.day = day ∧
    t.nano.val = p.nano + (if p.second = some 60 then 1000000000 else 0) ∧
    (p.second = some 60 → t.second.val % 60 = 59) := by
  unfold at? at h
  split at h
  · rename_i hour minute hhour hminute
    have hsixty : p.second.getD 0 = 60 ↔ p.second = some 60 := by
      cases p.second <;> simp
    simp only [hsixty, Option.dite_none_right_eq_some, Option.some.injEq] at h
    obtain ⟨hs, hn, rfl⟩ := h
    refine ⟨rfl, rfl, ?_⟩
    intro hleap
    simp only [hleap, if_true]
    omega
  · simp at h

theorem Parts.fraction_of_at (h : p.at? day = some t) (hnano : p.nano < 1000000000) :
    t.fraction = p.nano := by
  obtain ⟨-, hn, -⟩ := at?_eq_some h
  rw [Instant.fraction, hn]
  split <;> omega

theorem Parts.isRegular_of_at (h : p.at? day = some t) (hnano : p.nano < 1000000000) :
    t.IsRegular := by
  obtain ⟨-, hn, hsecond⟩ := at?_eq_some h
  intro hleap
  apply hsecond
  rw [Instant.inLeap, decide_eq_true_eq, hn] at hleap
  split at hleap
  · assumption
  · omega

/-- The parts of an instant that are written out, without the fraction. -/
def Parts.ofInstant (t : Instant) : Parts :=
  { year := some (Date.ofDay t.day).year
    month := some (Date.ofDay t.day).month
    day := some (Date.ofDay t.day).day
    hour := some t.hour
    minute := some t.minute
    second := some t.secondOfMinute }

theorem Parts.day?_ofInstant (hyear : yearKept (Date.ofDay t.day).year = true) :
    (ofInstant t).day? = some t.day := by
  have hkept : (Date.ofDay t.day).kept = true := by
    rw [Date.kept, hyear, decide_eq_true (Date.exists_ofDay t.day)]
    rfl
  have hday := Date.toDay_ofDay t.day
  simp only [ofInstant, day?, fullYear?]
  rw [if_pos hkept]
  exact congrArg some hday

theorem Parts.at?_ofInstant (ht : t.IsRegular) :
    (ofInstant t).at? t.day = some t.dropFraction := by
  have hsecond : t.hour * 3600 + t.minute * 60 +
      (if t.secondOfMinute = 60 then 59 else t.secondOfMinute) = t.second.val := by
    unfold Instant.hour Instant.minute Instant.secondOfMinute
    cases hleap : t.inLeap with
    | false => grind
    | true =>
      have hlast := ht hleap
      grind
  have hnano : 0 + (if t.secondOfMinute = 60 then 1000000000 else 0) =
      t.nano.val - t.nano.val % 1000000000 := by
    have hlt := t.nano.isLt
    unfold Instant.secondOfMinute
    cases hleap : t.inLeap with
    | false =>
      have hsmall := of_decide_eq_false hleap
      grind
    | true =>
      have hlarge := of_decide_eq_true hleap
      have hlast := ht hleap
      grind
  have hat : (ofInstant t).at? t.day =
      if hs : t.hour * 3600 + t.minute * 60 +
          (if t.secondOfMinute = 60 then 59 else t.secondOfMinute) < 86400 then
        if hn : 0 + (if t.secondOfMinute = 60 then 1000000000 else 0) < 2000000000 then
          some ⟨t.day, ⟨_, hs⟩, ⟨_, hn⟩⟩
        else none
      else none := rfl
  have hs := t.second.isLt
  have hn := t.nano.isLt
  rw [hat, dif_pos (by omega), dif_pos (by omega)]
  simp only [Instant.dropFraction, Option.some.injEq, Instant.mk.injEq, true_and]
  exact ⟨Fin.ext hsecond, Fin.ext hnano⟩

theorem Parts.instant?_ofInstant (hyear : yearKept (Date.ofDay t.day).year = true)
    (ht : t.IsRegular) : (ofInstant t).instant? = some t.dropFraction := by
  rw [instant?, day?_ofInstant hyear]
  exact at?_ofInstant ht

end Parts

section Fields

variable {f : Field} {fs : List Field} {p q : Parts}

theorem takeFraction?_lt {r : Nat × List Char} (h : takeFraction? cs = some r) :
    r.1 < 1000000000 := by
  unfold takeFraction? at h
  simp only at h
  split at h
  · simp at h
  · obtain rfl := Option.some.inj h
    have hdigits (c : Char) (hc : c ∈ (cs.takeWhile Char.isDigit).take 9) : c.isDigit = true :=
      List.all_eq_true.1 List.all_takeWhile c (List.mem_of_mem_take hc)
    have hlt := natOfDigits_lt hdigits
    have hlength : ((cs.takeWhile Char.isDigit).take 9).length ≤ 9 := List.length_take_le 9 _
    generalize (cs.takeWhile Char.isDigit).take 9 = ds at hlt hlength ⊢
    calc Decimal.natOfDigits ds * 10 ^ (9 - ds.length)
        < 10 ^ ds.length * 10 ^ (9 - ds.length) := Nat.mul_lt_mul_of_pos_right hlt (Nat.pow_pos (by decide))
      _ = 1000000000 := by rw [← Nat.pow_add, Nat.add_sub_cancel' hlength]

theorem Field.nano_of_read {r : Parts × List Char} (h : f.read? p cs = some r) :
    r.1.nano = p.nano ∨ f = .fraction ∧ r.1.nano < 1000000000 := by
  cases f with
  | literal a =>
    cases cs with
    | nil => simp [Field.read?] at h
    | cons c cs =>
      simp only [Field.read?] at h
      split at h
      · obtain rfl := Option.some.inj h
        exact .inl rfl
      · simp at h
  | gap =>
    obtain rfl := Option.some.inj h
    exact .inl rfl
  | year | yearOfCentury | month | day | hour | hourOfHalf | minute | second | monthShort
  | monthLong | half =>
    obtain ⟨a, -, rfl⟩ := Option.map_eq_some_iff.1 h
    exact .inl rfl
  | fraction =>
    simp only [Field.read?] at h
    split at h
    · obtain ⟨a, ha, rfl⟩ := Option.map_eq_some_iff.1 h
      exact .inr ⟨rfl, takeFraction?_lt ha⟩
    · obtain rfl := Option.some.inj h
      exact .inl rfl
  | weekdayShort | weekdayLong => simp [Field.read?] at h

/-- What holds of the parts before holds of the parts that are read, if no field breaks it. -/
theorem readFields?_invariant {P : Parts → Prop}
    (hstep : ∀ f ∈ fs, ∀ p cs r, P p → f.read? p cs = some r → P r.1) (hp : P p)
    (h : readFields? fs p cs = some q) : P q := by
  induction fs generalizing p cs with
  | nil =>
    rw [readFields?] at h
    split at h
    · exact Option.some.inj h ▸ hp
    · simp at h
  | cons f fs ih =>
    obtain ⟨r, hr, h⟩ := Option.bind_eq_some_iff.1 h
    have hr' := hstep f List.mem_cons_self p cs r hp hr
    exact ih (fun f hf => hstep f (List.mem_cons_of_mem _ hf)) hr' h

theorem nano_of_readFields (hfs : .fraction ∉ fs) (h : readFields? fs p cs = some q) :
    q.nano = p.nano := by
  refine readFields?_invariant (P := fun q => q.nano = p.nano) ?_ rfl h
  rintro f hf p' cs r hp' hr
  rcases Field.nano_of_read hr with hnano | ⟨rfl, -⟩
  · exact hnano.trans hp'
  · exact absurd hf hfs

theorem nano_lt_of_readFields (hp : p.nano < 1000000000) (h : readFields? fs p cs = some q) :
    q.nano < 1000000000 := by
  refine readFields?_invariant (P := fun q => q.nano < 1000000000) ?_ hp h
  rintro f - p' cs r hp' hr
  rcases Field.nano_of_read hr with hnano | ⟨-, hnano⟩
  · rwa [hnano]
  · exact hnano

end Fields

end SearchBar.Calendar
