import Mathlib.Order.Monotone.Basic
import SearchBar.Proofs.Number.Rounding

/-! # The range of the format

A rank that is found for a magnitude lies at most one below the magnitude, so which
decimals round to infinity is settled by one bound: the middle between the greatest
finite magnitude and the power of two behind it, which is itself rounded up.
-/

namespace SearchBar

namespace Binary64

/-- The least magnitude that rounds to infinity. -/
def limit : Nat := 2 ^ 1024 - 2 ^ 970

theorem strictMono_units : StrictMono units := strictMono_nat_of_lt_succ units_lt_units_succ

theorem units_of_lt {k : Nat} (h : k < 2 ^ 52) : units k = k := if_pos h

theorem units_mul_add {e m : Nat} (hm : m < 2 ^ 52) :
    units ((e + 1) * 2 ^ 52 + m) = (2 ^ 52 + m) * 2 ^ e := by
  have hmod : ((e + 1) * 2 ^ 52 + m) % 2 ^ 52 = m := by omega
  have hdiv : ((e + 1) * 2 ^ 52 + m) / 2 ^ 52 - 1 = e := by omega
  rw [units, if_neg (by omega), hmod, hdiv]

theorem units_rankBelow_of_le {u : Nat} (h : 2 ^ 52 ≤ u) :
    units (rankBelow u) = u / 2 ^ (u.log2 - 52) * 2 ^ (u.log2 - 52) ∧
      units (rankBelow u + 1) = (u / 2 ^ (u.log2 - 52) + 1) * 2 ^ (u.log2 - 52) := by
  have hu : u ≠ 0 := by omega
  have hlog : 52 ≤ u.log2 := (Nat.le_log2 hu).2 h
  have hlow : 2 ^ 52 ≤ u / 2 ^ (u.log2 - 52) := by
    rw [Nat.le_div_iff_mul_le (Nat.two_pow_pos _), ← Nat.pow_add, Nat.add_sub_cancel' hlog]
    exact Nat.log2_self_le hu
  have hhigh : u / 2 ^ (u.log2 - 52) < 2 ^ 53 := by
    rw [Nat.div_lt_iff_lt_mul (Nat.two_pow_pos _), ← Nat.pow_add,
      show 53 + (u.log2 - 52) = u.log2 + 1 by omega]
    exact Nat.lt_log2_self
  rw [rankBelow]
  generalize u.log2 - 52 = e at hlow hhigh
  generalize u / 2 ^ e = m at hlow hhigh
  obtain ⟨m, rfl⟩ := Nat.exists_eq_add_of_le hlow
  have hrank : e * 2 ^ 52 + (2 ^ 52 + m) = (e + 1) * 2 ^ 52 + m := by omega
  rw [hrank, units_mul_add (by omega)]
  refine ⟨rfl, ?_⟩
  by_cases hm : m + 1 < 2 ^ 52
  · rw [Nat.add_assoc, units_mul_add hm, Nat.add_assoc]
  · have hfull : m + 1 = 2 ^ 52 := by omega
    have hnext : units ((e + 1 + 1) * 2 ^ 52) = 2 ^ 52 * 2 ^ (e + 1) := by
      simpa only [Nat.add_zero] using units_mul_add (e := e + 1) (Nat.two_pow_pos 52)
    rw [Nat.add_assoc, Nat.add_assoc, hfull, ← Nat.succ_mul, hnext, ← Nat.two_mul,
      Nat.mul_assoc, Nat.mul_left_comm, ← Nat.pow_succ']

theorem units_rankBelow_le (u : Nat) : units (rankBelow u) ≤ u := by
  by_cases h : 2 ^ 52 ≤ u
  · rw [(units_rankBelow_of_le h).1]
    exact Nat.div_mul_le_self ..
  · have hrank := rankBelow_units u
    rw [units_of_lt (by omega)] at hrank
    rw [hrank, units_of_lt (by omega)]

theorem lt_units_rankBelow (u : Nat) : u < units (rankBelow u + 1) := by
  by_cases h : 2 ^ 52 ≤ u
  · rw [(units_rankBelow_of_le h).2]
    exact Nat.lt_mul_of_div_lt (Nat.lt_succ_self _) (Nat.two_pow_pos _)
  · have hrank := rankBelow_units u
    rw [units_of_lt (by omega)] at hrank
    have hlt := units_lt_units_succ u
    rw [units_of_lt (by omega)] at hlt
    rwa [hrank]

theorem nearerRank_le (u den k : Nat) : nearerRank u den k ≤ k + 1 := by
  unfold nearerRank
  split
  · exact Nat.le_succ k
  · exact Nat.le_refl _
  · split
    · exact Nat.le_succ k
    · exact Nat.le_refl _

theorem nearerRank_lt_iff {u den k k' : Nat} (hk : k % 2 = 1) (hk' : k + 1 = k') :
    nearerRank u den k < k' ↔ 2 * u < (units k + units k') * den := by
  subst hk'
  unfold nearerRank
  cases hcmp : compare (2 * u) ((units k + units (k + 1)) * den) with
  | lt => simpa using Nat.compare_eq_lt.1 hcmp
  | gt => simpa using Nat.le_of_lt (Nat.compare_eq_gt.1 hcmp)
  | eq => simp [hk, Nat.compare_eq_eq.1 hcmp]

theorem units_add_units_ranks : units (ranks - 1) + units ranks = 2 * (limit * unitsPerOne) := by
  decide +kernel

/-- Which quotients round to a finite rank. -/
theorem nearestRank_lt_ranks_iff {num den : Nat} (hden : 0 < den) :
    nearestRank num den < ranks ↔ num < limit * den := by
  have hranks : ranks - 1 + 1 = ranks := rfl
  have hlast : units (ranks - 1) * den ≤ units ranks * den :=
    Nat.mul_le_mul_right den (strictMono_units.monotone (Nat.sub_le ranks 1))
  have hsum := units_add_units_ranks
  have hlow := units_rankBelow_le (num * unitsPerOne / den)
  have hhigh := lt_units_rankBelow (num * unitsPerOne / den)
  have hscale : num < limit * den ↔
      2 * (num * unitsPerOne) < (units (ranks - 1) + units ranks) * den := by
    rw [hsum, Nat.mul_assoc 2, Nat.mul_right_comm, Nat.mul_lt_mul_left (by decide),
      Nat.mul_lt_mul_right unitsPerOne_pos]
  rw [hscale, nearestRank]
  generalize hk : rankBelow (num * unitsPerOne / den) = k at hlow hhigh
  generalize num * unitsPerOne = u at *
  rw [Nat.le_div_iff_mul_le hden] at hlow
  rw [Nat.div_lt_iff_lt_mul hden] at hhigh
  rw [Nat.add_mul]
  rcases Nat.lt_trichotomy k (ranks - 1) with hlt | rfl | hgt
  · have hmono : units (k + 1) * den ≤ units (ranks - 1) * den :=
      Nat.mul_le_mul_right den (strictMono_units.monotone hlt)
    have hnear := nearerRank_le u den k
    exact iff_of_true (by omega) (by omega)
  · have hnear : nearerRank u den (ranks - 1) < ranks ↔ _ := nearerRank_lt_iff (by decide) hranks
    rw [hnear, Nat.add_mul]
  · have hmono : units ranks * den ≤ units k * den :=
      Nat.mul_le_mul_right den (strictMono_units.monotone (by omega))
    have hnear := le_nearerRank u den k
    exact iff_of_false (by omega) (by omega)

theorem isFinite_ofRank {s : Bool} {k : Nat} : (ofRank s k).isFinite = true ↔ k < ranks := by
  unfold ofRank
  split
  · rename_i h
    exact iff_of_true rfl h
  · rename_i h
    exact iff_of_false (by simp [isFinite]) h

theorem ofRank_ne_nan (s : Bool) (k : Nat) : ofRank s k ≠ nan := by
  unfold ofRank
  split <;> simp

end Binary64

namespace Decimal

open Binary64

def InRange (d : Decimal) : Prop := d.quotient.1 < limit * d.quotient.2

instance (d : Decimal) : Decidable d.InRange := inferInstanceAs (Decidable (_ < _))

theorem isFinite_toBinary64 (d : Decimal) : d.toBinary64.isFinite = true ↔ d.InRange := by
  rw [toBinary64_eq, isFinite_ofRank, rank, nearestRank_lt_ranks_iff d.quotient_pos, InRange]

theorem toBinary64_ne_nan (d : Decimal) : d.toBinary64 ≠ .nan := by
  rw [toBinary64_eq]
  exact ofRank_ne_nan _ _

end Decimal

end SearchBar
