import SearchBar.Text.LowerCase

/-! # Letters of both cases

Only the capitals of the ASCII block change when ASCII letters are lowered. What
holds for these does not depend on the case of a text.
-/

namespace SearchBar.Text

def capitals : List Char := (List.range 26).map fun n => Char.ofNat (65 + n)

theorem toLower_eq_self_or_mem_capitals (c : Char) : c.toLower = c ∨ c ∈ capitals := by
  by_cases h : c.val ≥ 'A'.val ∧ c.val ≤ 'Z'.val
  · right
    have h1 : 65 ≤ c.toNat := UInt32.le_iff_toNat_le.1 h.1
    have h2 : c.toNat ≤ 90 := UInt32.le_iff_toNat_le.1 h.2
    refine List.mem_map.2 ⟨c.toNat - 65, List.mem_range.2 (by omega), ?_⟩
    rw [Nat.add_sub_cancel' h1, Char.ofNat_toNat]
  · left
    exact dif_neg h

/-- A class of characters does not depend on case if that is so for the capitals. -/
theorem apply_toLower {f : Char → Bool} (h : (capitals.all fun c => f c.toLower == f c) = true)
    (c : Char) : f c.toLower = f c := by
  rcases toLower_eq_self_or_mem_capitals c with hc | hc
  · rw [hc]
  · exact beq_iff_eq.1 (List.all_eq_true.1 h c hc)

theorem toLower_eq_iff {c d : Char}
    (h : (capitals.all fun a => a.toLower != d && a != d) = true) : c.toLower = d ↔ c = d := by
  rcases toLower_eq_self_or_mem_capitals c with hc | hc
  · rw [hc]
  · have hne := List.all_eq_true.1 h c hc
    simp only [bne_iff_ne, Bool.and_eq_true] at hne
    exact iff_of_false hne.1 hne.2

theorem toNat_lt_of_toLower {c d : Char} (hd : d.toNat < 128) (h : c.toLower = d) :
    c.toNat < 128 := by
  have hall : (capitals.all fun a => decide (a.toNat < 128)) = true := by decide
  rcases toLower_eq_self_or_mem_capitals c with hc | hc
  · rwa [← hc, h]
  · exact of_decide_eq_true (List.all_eq_true.1 hall c hc)

theorem toLower_toLower (c : Char) : c.toLower.toLower = c.toLower := by
  rcases toLower_eq_self_or_mem_capitals c with hc | hc
  · rw [hc, hc]
  · have hall : (capitals.all fun a => a.toLower.toLower == a.toLower) = true := by decide
    exact beq_iff_eq.1 (List.all_eq_true.1 hall c hc)

theorem toLower_of_isDigit {c : Char} (h : c.isDigit = true) : c.toLower = c := by
  rcases toLower_eq_self_or_mem_capitals c with hc | hc
  · exact hc
  · have hall : (capitals.all fun a => !a.isDigit) = true := by decide
    have hdigit := List.all_eq_true.1 hall c hc
    simp [h] at hdigit

theorem map_toLower_map_toLower (cs : List Char) :
    (cs.map Char.toLower).map Char.toLower = cs.map Char.toLower := by
  rw [List.map_map]
  exact List.map_congr_left fun c _ => toLower_toLower c

theorem map_toLower_of_all_isDigit {cs : List Char} (h : ∀ c ∈ cs, c.isDigit = true) :
    cs.map Char.toLower = cs :=
  (List.map_congr_left fun c hc => toLower_of_isDigit (h c hc)).trans (List.map_id' cs)

theorem apply_of_sameLetters {α : Type} {f : List Char → α}
    (h : ∀ cs, f (cs.map Char.toLower) = f cs) {a b : List Char} (hab : sameLetters a b = true) :
    f a = f b := by
  rw [← h a, sameLetters_iff.1 hab, h]

section Classes

variable {p : Char → Bool} (hp : (capitals.all fun c => p c.toLower == p c) = true)
include hp

theorem takeWhile_map_toLower (cs : List Char) :
    (cs.map Char.toLower).takeWhile p = (cs.takeWhile p).map Char.toLower := by
  rw [List.takeWhile_map, show p ∘ Char.toLower = p from funext (apply_toLower hp)]

theorem dropWhile_map_toLower (cs : List Char) :
    (cs.map Char.toLower).dropWhile p = (cs.dropWhile p).map Char.toLower := by
  rw [List.dropWhile_map, show p ∘ Char.toLower = p from funext (apply_toLower hp)]

end Classes

section Lower

variable {c : Char}

theorem lowerChar_toLower (c : Char) : lowerChar c.toLower = lowerChar c := by
  rcases toLower_eq_self_or_mem_capitals c with hc | hc
  · rw [hc]
  · have hall : (capitals.all fun a => lowerChar a.toLower == lowerChar a) = true := by decide
    exact beq_iff_eq.1 (List.all_eq_true.1 hall c hc)

theorem casedFirst_map_toLower (cs : List Char) :
    casedFirst (cs.map Char.toLower) = casedFirst cs := by
  have hcased := apply_toLower (f := isCased) (by decide)
  unfold casedFirst
  rw [dropWhile_map_toLower (by decide)]
  cases cs.dropWhile isCaseIgnorable with
  | nil => rfl
  | cons c _ => exact hcased c

theorem lowerAfter_map_toLower (before cs : List Char) :
    lowerAfter (before.map Char.toLower) (cs.map Char.toLower) = lowerAfter before cs := by
  induction cs generalizing before with
  | nil => rfl
  | cons c cs ih =>
    have hsigma : c.toLower = '\u03a3' ↔ c = '\u03a3' := toLower_eq_iff (by decide)
    rw [List.map_cons, lowerAfter, lowerAfter, ← List.map_cons, ih, lowerChar_toLower]
    simp only [casedFirst_map_toLower, hsigma]

/-- The full lower case of a text does not change when its ASCII letters are lowered. -/
theorem lower_map_toLower (cs : List Char) : lower (cs.map Char.toLower) = lower cs :=
  lowerAfter_map_toLower [] cs

theorem lowerAfter_cons (hsigma : c ≠ '\u03a3') (before cs : List Char) :
    lowerAfter before (c :: cs) = lowerChar c ++ lowerAfter (c :: before) cs := by
  rw [lowerAfter, if_neg hsigma]

theorem lowerAfter_cons_of_ascii (h : c.toNat < 128) (before cs : List Char) :
    lowerAfter before (c :: cs) = c.toLower :: lowerAfter (c :: before) cs := by
  have hsigma : c ≠ '\u03a3' := by
    rintro rfl
    exact absurd h (by decide)
  rw [lowerAfter_cons hsigma, lowerChar, if_pos h]
  rfl

theorem lower_cons_of_ascii (h : c.toNat < 128) (cs : List Char) :
    lower (c :: cs) = c.toLower :: lowerAfter [c] cs := lowerAfter_cons_of_ascii h [] cs

theorem lowerAfter_of_ascii (before : List Char) {cs : List Char} (h : ∀ c ∈ cs, c.toNat < 128) :
    lowerAfter before cs = cs.map Char.toLower := by
  induction cs generalizing before with
  | nil => rfl
  | cons c cs ih =>
    rw [lowerAfter_cons_of_ascii (h c List.mem_cons_self),
      ih _ fun c hc => h c (List.mem_cons_of_mem _ hc), List.map_cons]

theorem mem_lowerAfter (hc : lowerChar c = [c]) (hsigma : c ≠ '\u03a3') {before cs : List Char}
    (h : c ∈ cs) : c ∈ lowerAfter before cs := by
  induction cs generalizing before with
  | nil => exact h
  | cons a cs ih =>
    rw [lowerAfter, List.mem_append]
    rcases List.mem_cons.1 h with rfl | h
    · simp [hc, hsigma]
    · exact .inr (ih h)

end Lower

end SearchBar.Text
