import SearchBar.Number.Decimal

/-! # Rounding

Which number a decimal rounds to is settled by its sign and magnitude, however the
magnitude is split into digits and an exponent. The magnitude of a rank rounds to
this rank.
-/

namespace SearchBar

namespace Binary64

theorem compare_mul_right {c : Nat} (hc : 0 < c) (a b : Nat) :
    compare (a * c) (b * c) = compare a b := by
  rcases Nat.lt_trichotomy a b with h | rfl | h
  · rw [Nat.compare_eq_lt.2 h, Nat.compare_eq_lt.2 (Nat.mul_lt_mul_of_pos_right h hc)]
  · rw [Nat.compare_eq_eq.2 rfl, Nat.compare_eq_eq.2 rfl]
  · rw [Nat.compare_eq_gt.2 h, Nat.compare_eq_gt.2 (Nat.mul_lt_mul_of_pos_right h hc)]

theorem unitsPerOne_pos : 0 < unitsPerOne := Nat.two_pow_pos leastPower

theorem nearestRank_mul {c : Nat} (hc : 0 < c) (num den : Nat) :
    nearestRank (num * c) (den * c) = nearestRank num den := by
  rw [nearestRank, nearestRank, Nat.mul_right_comm, Nat.mul_div_mul_right _ _ hc, nearerRank,
    nearerRank, ← Nat.mul_assoc 2, ← Nat.mul_assoc _ den, compare_mul_right hc]

theorem nearestRank_congr {num den num' den' : Nat} (hd : 0 < den) (hd' : 0 < den')
    (h : num * den' = num' * den) : nearestRank num den = nearestRank num' den' := by
  rw [← nearestRank_mul hd' num den, h, Nat.mul_comm den, nearestRank_mul hd]

theorem units_lt_units_succ (k : Nat) : units k < units (k + 1) := by
  unfold units
  by_cases hk : k < 2 ^ 52
  · rw [if_pos hk]
    split
    · omega
    · obtain rfl : k = 2 ^ 52 - 1 := by omega
      decide
  · rw [if_neg hk, if_neg (by omega)]
    by_cases hmod : k % 2 ^ 52 = 2 ^ 52 - 1
    · have hdiv : (k + 1) / 2 ^ 52 - 1 = k / 2 ^ 52 - 1 + 1 := by omega
      have hmod' : (k + 1) % 2 ^ 52 = 0 := by omega
      have hpos := Nat.two_pow_pos (k / 2 ^ 52 - 1)
      have hpow : 2 ^ (k / 2 ^ 52 - 1 + 1) = 2 * 2 ^ (k / 2 ^ 52 - 1) := Nat.pow_succ'
      rw [hdiv, hmod, hmod', hpow]
      generalize 2 ^ (k / 2 ^ 52 - 1) = p at hpos
      omega
    · have hdiv : (k + 1) / 2 ^ 52 - 1 = k / 2 ^ 52 - 1 := by omega
      have hmod' : (k + 1) % 2 ^ 52 = k % 2 ^ 52 + 1 := by omega
      rw [hdiv, hmod']
      exact Nat.mul_lt_mul_of_pos_right (by omega) (Nat.two_pow_pos _)

theorem log2_units {k : Nat} (hk : 2 ^ 52 ≤ k) : (units k).log2 = k / 2 ^ 52 - 1 + 52 := by
  have hpos := Nat.two_pow_pos (k / 2 ^ 52 - 1)
  have hmod := Nat.mod_lt k (show 0 < 2 ^ 52 by decide)
  rw [units, if_neg (by omega), Nat.log2_eq_iff (Nat.mul_ne_zero (by omega) (by omega))]
  constructor
  · rw [Nat.pow_add, Nat.mul_comm]
    exact Nat.mul_le_mul_right _ (by omega)
  · rw [Nat.add_assoc, Nat.pow_add, Nat.mul_comm (2 ^ (k / 2 ^ 52 - 1))]
    exact Nat.mul_lt_mul_of_pos_right (by omega) hpos

theorem rankBelow_units (k : Nat) : rankBelow (units k) = k := by
  by_cases hk : k < 2 ^ 52
  · have hlog : k.log2 - 52 = 0 := by
      by_cases h0 : k = 0
      · rw [h0, Nat.log2_zero]
      · have := (Nat.log2_lt h0).2 hk
        omega
    rw [units, if_pos hk, rankBelow, hlog]
    simp
  · have hlog := log2_units (Nat.le_of_not_lt hk)
    rw [rankBelow, hlog, Nat.add_sub_cancel, units, if_neg hk,
      Nat.mul_div_cancel _ (Nat.two_pow_pos _)]
    omega

theorem nearestRank_units (k : Nat) : nearestRank (units k) unitsPerOne = k := by
  have hlt : 2 * (units k * unitsPerOne) < (units k + units (k + 1)) * unitsPerOne := by
    rw [← Nat.mul_assoc]
    have := units_lt_units_succ k
    exact Nat.mul_lt_mul_of_pos_right (by omega) unitsPerOne_pos
  rw [nearestRank, Nat.mul_div_cancel _ unitsPerOne_pos, rankBelow_units, nearerRank,
    Nat.compare_eq_lt.2 hlt]

theorem le_rankBelow {a e u : Nat} (ha : e + 52 ≤ a) (h : 2 ^ a ≤ u) :
    (e + 1) * 2 ^ 52 ≤ rankBelow u := by
  have hu : u ≠ 0 := Nat.ne_of_gt (Nat.lt_of_lt_of_le (Nat.two_pow_pos a) h)
  have hlog : e + 52 ≤ u.log2 := Nat.le_trans ha ((Nat.le_log2 hu).2 h)
  have hself : 2 ^ (u.log2 - 52) * 2 ^ 52 ≤ u := by
    rw [← Nat.pow_add, Nat.sub_add_cancel (by omega)]
    exact Nat.log2_self_le hu
  have hdiv : 2 ^ 52 ≤ u / 2 ^ (u.log2 - 52) :=
    (Nat.le_div_iff_mul_le (Nat.two_pow_pos _)).2 (by rwa [Nat.mul_comm])
  calc (e + 1) * 2 ^ 52 ≤ (u.log2 - 52 + 1) * 2 ^ 52 := Nat.mul_le_mul_right _ (by omega)
    _ = (u.log2 - 52) * 2 ^ 52 + 2 ^ 52 := Nat.succ_mul ..
    _ ≤ (u.log2 - 52) * 2 ^ 52 + u / 2 ^ (u.log2 - 52) := Nat.add_le_add_left hdiv _

theorem le_nearerRank (u den k : Nat) : k ≤ nearerRank u den k := by
  unfold nearerRank
  split
  · exact Nat.le_refl k
  · exact Nat.le_succ k
  · split
    · exact Nat.le_refl k
    · exact Nat.le_succ k

/-- Quotients below half the least positive magnitude round to zero. -/
theorem nearestRank_eq_zero {num den : Nat} (h : 2 * (num * unitsPerOne) < den) :
    nearestRank num den = 0 := by
  have hunits : units 0 + units (0 + 1) = 1 := rfl
  have hrank : rankBelow 0 = 0 := rfl
  rw [nearestRank, Nat.div_eq_of_lt (by omega), hrank, nearerRank, hunits, Nat.one_mul,
    Nat.compare_eq_lt.2 h]

theorem ofRank_of_le {k : Nat} (h : ranks ≤ k) (s : Bool) : ofRank s k = .infinite s :=
  dif_neg (Nat.not_lt.2 h)

end Binary64

namespace Decimal

open Binary64

theorem quotient_pos (d : Decimal) : 0 < d.quotient.2 := by
  unfold quotient
  split
  · exact Nat.one_pos
  · exact Nat.pow_pos (by decide)

theorem two_pow_mul_unitsPerOne (m : Nat) : 2 ^ m * unitsPerOne = 2 ^ (m + leastPower) := by
  rw [unitsPerOne, Nat.pow_add]

theorem two_pow_mul_unitsPerOne_le {k a : Nat} (h : k + leastPower ≤ a) :
    2 ^ k * unitsPerOne ≤ 2 ^ a := by
  rw [two_pow_mul_unitsPerOne]
  exact Nat.pow_le_pow_right (Nat.succ_pos 1) h

theorem two_pow_le_ten_pow (m : Nat) : 2 ^ (33 * m) ≤ 10 ^ (10 * m) := by
  rw [Nat.pow_mul, Nat.pow_mul]
  exact Nat.pow_le_pow_left (by decide) m

theorem two_pow_le_mul_ten_pow {n e m : Nat} (hn : n ≠ 0) (he : 10 * m < e) :
    2 ^ (33 * m + 1) ≤ n * 10 ^ e :=
  calc 2 ^ (33 * m + 1) ≤ 10 ^ (10 * m + 1) := by
        rw [Nat.pow_succ, Nat.pow_succ]
        exact Nat.mul_le_mul (two_pow_le_ten_pow m) (by decide)
    _ ≤ 10 ^ e := Nat.pow_le_pow_right (by decide) he
    _ ≤ n * 10 ^ e := Nat.le_mul_of_pos_left _ (Nat.pos_of_ne_zero hn)

theorem ofQuotient_of_large (s : Bool) {n e m : Nat} (hm : 2046 + 52 ≤ 33 * m + 1 + leastPower)
    (hn : n ≠ 0) (he : 10 * m < e) : ofQuotient s (n * 10 ^ e) 1 = .infinite s := by
  have hunits := Nat.mul_le_mul_right unitsPerOne (two_pow_le_mul_ten_pow hn he)
  rw [two_pow_mul_unitsPerOne] at hunits
  refine ofRank_of_le (Nat.le_trans ?_ (le_nearerRank _ _ _)) s
  rw [Nat.div_one]
  exact le_rankBelow hm hunits

theorem lt_pow_length_digitsOfNat (n : Nat) : n < 10 ^ (digitsOfNat n).length :=
  (Nat.length_toDigits_le_iff (by decide) (List.length_pos_iff.2 (digitsOfNat_ne_nil n))).1
    (Nat.le_refl _)

theorem ofQuotient_of_small (s : Bool) {n e m : Nat} (hm : 1 + leastPower ≤ 33 * m)
    (he : (digitsOfNat n).length + 10 * m ≤ e) : ofQuotient s n (10 ^ e) = .ofRank s 0 := by
  have hn := lt_pow_length_digitsOfNat n
  have hunits := Nat.le_trans (two_pow_mul_unitsPerOne_le hm) (two_pow_le_ten_pow m)
  refine congrArg (ofRank s) (nearestRank_eq_zero ?_)
  calc 2 * (n * unitsPerOne) = n * (2 ^ 1 * unitsPerOne) := by rw [Nat.pow_one, Nat.mul_left_comm]
    _ < 10 ^ (digitsOfNat n).length * 10 ^ (10 * m) :=
      Nat.mul_lt_mul_of_lt_of_le hn hunits (Nat.pow_pos (by decide))
    _ = 10 ^ ((digitsOfNat n).length + 10 * m) := (Nat.pow_add ..).symm
    _ ≤ 10 ^ e := Nat.pow_le_pow_right (by decide) he

/-- The rank that the magnitude of a decimal rounds to. -/
def rank (d : Decimal) : Nat := nearestRank d.quotient.1 d.quotient.2

/-- Exponents outside the range of the format are no exception to rounding. -/
theorem toBinary64_eq (d : Decimal) : d.toBinary64 = .ofRank d.negative d.rank := by
  have hpos := d.quotient_pos
  obtain ⟨s, n, e⟩ := d
  rw [toBinary64]
  by_cases h0 : n = 0
  · have hnum : (quotient ⟨s, n, e⟩).1 = 0 := by
      cases e <;> simp [quotient, h0]
    rw [if_pos h0, rank, hnum]
    exact congrArg (ofRank s) (nearestRank_eq_zero (by rwa [Nat.zero_mul, Nat.mul_zero])).symm
  · rw [if_neg h0]
    simp only
    split
    · rename_i he
      obtain ⟨e, rfl⟩ := Int.eq_ofNat_of_zero_le (by omega : 0 ≤ e)
      exact (ofQuotient_of_large s (m := 31) (by decide) h0 (by omega)).symm
    · split
      · rename_i he
        obtain ⟨e, rfl⟩ := Int.eq_negSucc_of_lt_zero (by omega : e < 0)
        exact (ofQuotient_of_small s (n := n) (m := 33) (by decide) (by omega)).symm
      · rfl

theorem rank_shift (s t : Bool) (n j : Nat) (e : Int) :
    rank ⟨s, n * 10 ^ j, e⟩ = rank ⟨t, n, e + j⟩ := by
  refine nearestRank_congr (quotient_pos _) (quotient_pos _) ?_
  cases e with
  | ofNat e =>
    show n * 10 ^ j * 10 ^ e * 1 = n * 10 ^ (e + j) * 1
    rw [Nat.mul_one, Nat.mul_one, Nat.mul_assoc, ← Nat.pow_add, Nat.add_comm]
  | negSucc e =>
    by_cases hj : j ≤ e
    · obtain ⟨i, rfl⟩ := Nat.exists_eq_add_of_le hj
      have hexp : Int.negSucc (j + i) + j = Int.negSucc i := by omega
      rw [hexp]
      show n * 10 ^ j * 10 ^ (i + 1) = n * 10 ^ (j + i + 1)
      rw [Nat.mul_assoc, ← Nat.pow_add, Nat.add_assoc]
    · obtain ⟨i, rfl⟩ := Nat.exists_eq_add_of_lt (Nat.lt_of_not_le hj)
      have hexp : Int.negSucc e + ((e + i + 1 : Nat) : Int) = Int.ofNat i := by
        rw [Int.ofNat_eq_natCast]
        omega
      rw [hexp]
      show n * 10 ^ (e + i + 1) * 1 = n * 10 ^ i * 10 ^ (e + 1)
      rw [Nat.mul_one, Nat.mul_assoc, ← Nat.pow_add]
      congr 2
      omega

end Decimal

end SearchBar
