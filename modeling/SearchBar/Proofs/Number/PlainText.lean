import SearchBar.Number.Shortest
import SearchBar.Proofs.Number.Rounding
import SearchBar.Proofs.Text.Case
import SearchBar.Proofs.Text.Unescape

/-! # Plain text of numbers

The text that a finite number has in a clause reads back as the same number, as a
plain numeral and as a general one.
-/

namespace SearchBar

open Text

namespace Binary64

variable {k : Nat} {d : Decimal} {e : Int} {tie : Tie}

theorem rank_of_readsAs (hk : k < ranks) (hs : d.negative = false) (h : readsAs k d = true) :
    d.rank = k := by
  have hfinite : ofRank false k = .finite false ⟨k, hk⟩ := dif_pos hk
  rw [readsAs, Decimal.toBinary64_eq, hs, hfinite, beq_iff] at h
  obtain ⟨a, h, hkey⟩ := h
  obtain rfl : (k : Int) = a := by simpa [key] using hkey
  unfold ofRank at h
  split at h
  · simp only [key, Option.some.injEq] at h
    omega
  · simp only [key, Option.some.injEq] at h
    omega

theorem readsAs_of_onGrid (h : onGrid? tie k e = some d) :
    d.negative = false ∧ readsAs k d = true := by
  unfold onGrid? at h
  generalize unitsPerOne = u at h
  simp only at h
  split at h
  · rename_i hb ha
    split at h
    all_goals
      obtain rfl := Option.some.inj h
    · exact ⟨rfl, hb⟩
    · exact ⟨rfl, ha⟩
    · exact ⟨rfl, ha⟩
    · split
      · exact ⟨rfl, hb⟩
      · exact ⟨rfl, ha⟩
  · rename_i hb _
    obtain rfl := Option.some.inj h
    exact ⟨rfl, hb⟩
  · rename_i _ ha
    obtain rfl := Option.some.inj h
    exact ⟨rfl, ha⟩
  · simp at h

theorem nearestRank_five_pow (n j : Nat) :
    nearestRank (n * 5 ^ j) (10 ^ j) = nearestRank n (2 ^ j) := by
  refine nearestRank_congr (Nat.pow_pos (by decide)) (Nat.two_pow_pos j) ?_
  rw [Nat.mul_assoc, ← Nat.mul_pow]

theorem rank_exactDecimal (k : Nat) : (exactDecimal k).rank = k := by
  have hquotient (n j : Nat) : (Decimal.quotient ⟨false, n, -(j : Int)⟩) = (n, 10 ^ j) := by
    cases j with
    | zero => simp [Decimal.quotient]
    | succ j => rfl
  rw [Decimal.rank, exactDecimal, hquotient]
  exact (nearestRank_five_pow (units k) leastPower).trans (nearestRank_units k)

theorem rank_shortestDecimal (hk : k < ranks) : (shortestDecimal tie k).rank = k := by
  simp only [shortestDecimal]
  cases hfind : (List.range 17).findSome? fun n : Nat =>
      onGrid? tie k (leadingExponent (units k) unitsPerOne - n) with
  | none => exact rank_exactDecimal k
  | some d =>
    obtain ⟨n, -, hgrid⟩ := List.exists_of_findSome?_eq_some hfind
    obtain ⟨hs, hreads⟩ := readsAs_of_onGrid hgrid
    exact rank_of_readsAs hk hs hreads

theorem rank_dropZeros (fuel : Nat) (d : Decimal) : (dropZeros fuel d).rank = d.rank := by
  induction fuel generalizing d with
  | zero => rfl
  | succ fuel ih =>
    rw [dropZeros]
    split
    · rename_i h
      obtain ⟨s, n, e⟩ := d
      have hn : n = n / 10 * 10 ^ 1 := by
        simp only at h
        omega
      rw [ih]
      calc Decimal.rank ⟨s, n / 10, e + 1⟩ = Decimal.rank ⟨s, n / 10 * 10 ^ 1, e⟩ :=
            (Decimal.rank_shift s s (n / 10) 1 e).symm
        _ = Decimal.rank ⟨s, n, e⟩ := by rw [← hn]
    · rfl

theorem rank_shortestDigits (hk : k < ranks) : (shortestDigits tie k).rank = k :=
  (rank_dropZeros _ _).trans (rank_shortestDecimal hk)

end Binary64

namespace Decimal

def pointed : List Char → List Char
  | [] => []
  | c :: part => '.' :: c :: part

variable {k : Nat} {text whole part : List Char}

/-- A text of digits, perhaps with a point and more digits, that reads as a rank. -/
def Writes (k : Nat) (text : List Char) : Prop :=
  ∃ whole part, text = whole ++ pointed part ∧ whole ≠ [] ∧
    (∀ c ∈ whole, c.isDigit = true) ∧ (∀ c ∈ part, c.isDigit = true) ∧
    ∀ s, (ofParts s whole part).rank = k

theorem natOfDigits_append_zeros (ds : List Char) (n : Nat) :
    natOfDigits (ds ++ List.replicate n '0') = natOfDigits ds * 10 ^ n := by
  rw [natOfDigits, Nat.ofDigitChars_append, Nat.ofDigitChars_replicate_zero, Nat.mul_comm]
  rfl

theorem natOfDigits_zeros_append (n : Nat) (ds : List Char) :
    natOfDigits (List.replicate n '0' ++ ds) = natOfDigits ds := by
  rw [natOfDigits, Nat.ofDigitChars_append, Nat.ofDigitChars_replicate_zero, Nat.mul_zero]
  rfl

theorem isDigit_of_mem_zeros {n : Nat} {c : Char} (h : c ∈ List.replicate n '0') :
    c.isDigit = true := by
  rw [(List.mem_replicate.1 h).2]
  rfl

theorem pointed_of_ne_nil (h : part ≠ []) : pointed part = '.' :: part := by
  cases part with
  | nil => exact absurd rfl h
  | cons c part => rfl

section Positions

variable (s : Bool) (n : Nat) {e : Nat}

theorem writes_zeros_behind : Writes (rank ⟨s, n, (e : Int)⟩)
    (digitsOfNat n ++ List.replicate e '0') := by
  refine ⟨digitsOfNat n ++ List.replicate e '0', [], by simp [pointed],
    by simp [digitsOfNat_ne_nil], ?_, by simp, fun t => ?_⟩
  · intro c hc
    rcases List.mem_append.1 hc with hc | hc
    · exact isDigit_of_mem_digitsOfNat hc
    · exact isDigit_of_mem_zeros hc
  · rw [ofParts, List.append_nil, natOfDigits_append_zeros, natOfDigits_digitsOfNat]
    exact (rank_shift t s n e 0).trans (by rw [Int.zero_add])

theorem writes_point_inside (h : e + 1 < (digitsOfNat n).length) :
    Writes (rank ⟨s, n, .negSucc e⟩) ((digitsOfNat n).take ((digitsOfNat n).length - (e + 1)) ++
      '.' :: (digitsOfNat n).drop ((digitsOfNat n).length - (e + 1))) := by
  have htake : (digitsOfNat n).take ((digitsOfNat n).length - (e + 1)) ≠ [] := by
    rw [Ne, List.take_eq_nil_iff, List.length_eq_zero_iff.symm]
    omega
  have hdrop : (digitsOfNat n).drop ((digitsOfNat n).length - (e + 1)) ≠ [] := by
    rw [Ne, List.drop_eq_nil_iff]
    omega
  have hplaces : ((digitsOfNat n).length - ((digitsOfNat n).length - (e + 1)) : Nat) = e + 1 := by
    omega
  refine ⟨_, _, congrArg _ (pointed_of_ne_nil hdrop).symm, htake,
    fun c hc => isDigit_of_mem_digitsOfNat (List.mem_of_mem_take hc),
    fun c hc => isDigit_of_mem_digitsOfNat (List.mem_of_mem_drop hc), fun t => ?_⟩
  rw [ofParts, List.take_append_drop, natOfDigits_digitsOfNat, List.length_drop, hplaces]
  rfl

theorem writes_zeros_before (h : (digitsOfNat n).length ≤ e + 1) :
    Writes (rank ⟨s, n, .negSucc e⟩)
      ('0' :: '.' :: (List.replicate (e + 1 - (digitsOfNat n).length) '0' ++ digitsOfNat n)) := by
  have hne : List.replicate (e + 1 - (digitsOfNat n).length) '0' ++ digitsOfNat n ≠ [] := by
    simp [digitsOfNat_ne_nil]
  have hplaces : (e + 1 - (digitsOfNat n).length + (digitsOfNat n).length : Nat) = e + 1 := by
    omega
  refine ⟨['0'], _, congrArg (['0'] ++ ·) (pointed_of_ne_nil hne).symm, by simp, by simp,
    fun c hc => ?_, fun t => ?_⟩
  · rcases List.mem_append.1 hc with hc | hc
    · exact isDigit_of_mem_zeros hc
    · exact isDigit_of_mem_digitsOfNat hc
  · rw [ofParts, ← List.append_assoc, show ['0'] = List.replicate 1 '0' from rfl,
      List.replicate_append_replicate, natOfDigits_zeros_append, natOfDigits_digitsOfNat,
      List.length_append, List.length_replicate, hplaces]
    rfl

end Positions

/-- Digits with the point at its place write the same magnitude. -/
theorem writes_positional (s : Bool) (n : Nat) (e : Int) :
    Writes (rank ⟨s, n, e⟩) (Binary64.positional (digitsOfNat n) e) := by
  cases e with
  | ofNat e => exact writes_zeros_behind s n
  | negSucc e =>
    simp only [Binary64.positional]
    split
    · rename_i hinside
      exact writes_point_inside s n hinside
    · rename_i hbefore
      exact writes_zeros_before s n (Nat.le_of_not_lt hbefore)

theorem toBinary64_ofParts (h : ∀ s, (ofParts s whole part).rank = k) (s : Bool) :
    (ofParts s whole part).toBinary64 = .ofRank s k := by
  rw [toBinary64_eq, h]
  rfl

theorem stopsAt_pointed (part : List Char) :
    stopsAt (fun c => !c.isDigit) (pointed part) = true := by
  cases part <;> rfl

theorem readUnsigned?_of_writes (h : Writes k text) (s : Bool) :
    (readUnsigned? s text).map toBinary64 = some (.ofRank s k) := by
  obtain ⟨whole, part, rfl, hne, hwhole, hpart, hrank⟩ := h
  have hbinary := toBinary64_ofParts hrank s
  have hstop := stopsAt_pointed part
  simp only [readUnsigned?, takeWhile_append_of_stopsAt hwhole hstop,
    dropWhile_append_of_stopsAt hwhole hstop, List.isEmpty_iff, hne, if_false]
  cases part with
  | nil => exact congrArg some hbinary
  | cons c part =>
    have hall : (c :: part).all Char.isDigit = true := List.all_eq_true.2 hpart
    simp only [pointed, List.isEmpty_cons, Bool.not_false, hall, Bool.and_self, if_true]
    exact congrArg some hbinary

theorem readGeneralUnsigned?_of_writes (h : Writes k text) (s : Bool) :
    (readGeneralUnsigned? s text).map toBinary64 = some (.ofRank s k) := by
  obtain ⟨whole, part, rfl, hne, hwhole, hpart, hrank⟩ := h
  have hbinary := toBinary64_ofParts hrank s
  have hstop := stopsAt_pointed part
  simp only [readGeneralUnsigned?, takeWhile_append_of_stopsAt hwhole hstop,
    dropWhile_append_of_stopsAt hwhole hstop]
  cases part with
  | nil =>
    simp only [pointed, List.append_nil, List.isEmpty_iff, hne, if_false, readExponent?,
      Option.map_some]
    exact congrArg some hbinary
  | cons c part =>
    have htake := takeWhile_append_of_stopsAt hpart (b := []) rfl
    have hdrop := dropWhile_append_of_stopsAt hpart (b := []) rfl
    rw [List.append_nil] at htake hdrop
    simp only [pointed, htake, hdrop, List.isEmpty_iff, List.append_eq_nil_iff, hne, false_and,
      if_false, readExponent?, Option.map_some]
    rw [← hbinary, ofParts, Int.zero_sub]

theorem Writes.exists_cons (h : Writes k text) :
    ∃ c cs, text = c :: cs ∧ c.isDigit = true := by
  obtain ⟨whole, part, rfl, hne, hwhole, -, -⟩ := h
  obtain ⟨c, whole, rfl⟩ := List.exists_cons_of_ne_nil hne
  exact ⟨c, whole ++ pointed part, rfl, hwhole c List.mem_cons_self⟩

theorem Writes.isDigit_or_eq (h : Writes k text) {c : Char} (hc : c ∈ text) :
    c.isDigit = true ∨ c = '.' := by
  obtain ⟨whole, part, rfl, -, hwhole, hpart, -⟩ := h
  rcases List.mem_append.1 hc with hc | hc
  · exact .inl (hwhole c hc)
  · cases part with
    | nil => simp [pointed] at hc
    | cons a part =>
      rcases List.mem_cons.1 hc with hc | hc
      · exact .inr hc
      · exact .inl (hpart c hc)

end Decimal

namespace Binary64

open Decimal

variable {k : Nat} {x : Binary64}

theorem writes_plainMagnitude (hk : k < ranks) : Writes k (plainMagnitude k) := by
  unfold plainMagnitude
  split
  · rename_i h0
    subst h0
    refine ⟨['0'], [], rfl, by simp, by simp, by simp, fun s => nearestRank_eq_zero ?_⟩
    have hnum : (ofParts s ['0'] []).quotient.1 = 0 := rfl
    rw [hnum, Nat.zero_mul, Nat.mul_zero]
    exact quotient_pos _
  · have h := writes_positional (shortestDigits .up k).negative (shortestDigits .up k).digits
      (shortestDigits .up k).exponent
    rwa [rank_shortestDigits hk] at h

theorem plainText_eq_sign_append (x : Binary64) : ∃ s cs, x.plainText = signText s ++ cs ∧
    cs ≠ [] ∧ ∀ c ∈ cs, c.isAlphanum = true ∨ c = '.' := by
  cases x with
  | finite s k =>
    have h := writes_plainMagnitude k.isLt
    obtain ⟨c, cs, htext, -⟩ := h.exists_cons
    refine ⟨s, _, rfl, by simp [htext], fun c hc => (h.isDigit_or_eq hc).imp_left fun hdigit => ?_⟩
    simp [Char.isAlphanum, hdigit]
  | infinite s =>
    have hinf : "inf".toList.all Char.isAlphanum = true := by decide
    exact ⟨s, _, rfl, by simp, fun c hc => .inl (List.all_eq_true.1 hinf c hc)⟩
  | nan =>
    have hnan : "NaN".toList.all Char.isAlphanum = true := by decide
    exact ⟨false, _, rfl, by simp, fun c hc => .inl (List.all_eq_true.1 hnan c hc)⟩

theorem takeMinus_signText (s : Bool) {text : List Char} (h : Writes k text) :
    takeMinus (signText s ++ text) = (s, text) := by
  obtain ⟨c, cs, rfl, hc⟩ := h.exists_cons
  cases s with
  | true => rfl
  | false =>
    have hne : c ≠ '-' := by
      rintro rfl
      simp at hc
    simp [signText, takeMinus, hne]

theorem takeSign_signText (s : Bool) {text : List Char} (h : Writes k text) :
    takeSign (signText s ++ text) = (s, text) := by
  obtain ⟨c, cs, rfl, hc⟩ := h.exists_cons
  cases s with
  | true => rfl
  | false =>
    have hminus : c ≠ '-' := by
      rintro rfl
      simp at hc
    have hplus : c ≠ '+' := by
      rintro rfl
      simp at hc
    simp [signText, takeSign, hminus, hplus]

/-- The text of a finite number reads as a plain numeral of this number. -/
theorem readPlain?_plainText (h : x.isFinite = true) : readPlain? x.plainText = some x := by
  obtain ⟨s, k, rfl⟩ := isFinite_iff.1 h
  have hwrites := writes_plainMagnitude k.isLt
  rw [readPlain?, Decimal.readPlain?, plainText, takeMinus_signText s hwrites,
    readUnsigned?_of_writes hwrites, ofRank, dif_pos k.isLt]

/-- The text of a finite number reads as a general numeral of this number. -/
theorem read?_plainText (h : x.isFinite = true) : read? x.plainText = some x := by
  obtain ⟨s, k, rfl⟩ := isFinite_iff.1 h
  have hwrites := writes_plainMagnitude k.isLt
  obtain ⟨c, cs, htext, hc⟩ := hwrites.exists_cons
  have hdigit : c.toLower.isDigit = true := (apply_toLower (by decide) c).trans hc
  have hlower (a : Char) (word : List Char) (ha : a.isDigit = false) :
      (plainMagnitude k).map Char.toLower ≠ a :: word := by
    rw [htext, List.map_cons]
    rintro ⟨⟩
    simp [ha] at hdigit
  have hinf : (plainMagnitude k).map Char.toLower ≠ "inf".toList := hlower 'i' _ rfl
  have hinfinity : (plainMagnitude k).map Char.toLower ≠ "infinity".toList := hlower 'i' _ rfl
  have hnan : (plainMagnitude k).map Char.toLower ≠ "nan".toList := hlower 'n' _ rfl
  unfold read?
  rw [plainText, takeSign_signText s hwrites]
  simp only
  rw [if_neg (not_or.2 ⟨hinf, hinfinity⟩), if_neg hnan, readGeneralUnsigned?_of_writes hwrites,
    ofRank, dif_pos k.isLt]

end Binary64

end SearchBar
