import Mathlib.Data.List.Infix
import SearchBar.Proofs.Text.Case

/-! # The lower case of a part of a text

A capital sigma is lowered by what stands around it, every other character by itself. So a
part of a text is lowered in the text as it is lowered alone, unless what stands around a
sigma within the part leaves open whether a word ends there.
-/

namespace SearchBar.Text

def casedFirst? (cs : List Char) : Option Bool :=
  (cs.dropWhile isCaseIgnorable).head?.map isCased

/-- The lower case of a character behind the reversed text `before` and in front of `after`. -/
def lowerAt (before : List Char) (c : Char) (after : List Char) : List Char :=
  if c = '\u03a3' then
    [if casedFirst before && !casedFirst after then '\u03c2' else '\u03c3']
  else lowerChar c

/-- The lower case of the part of a text between the reversed text `before` and `after`. -/
def lowerWithin (before : List Char) : List Char → List Char → List Char
  | [], _ => []
  | c :: cs, after => lowerAt before c (cs ++ after) ++ lowerWithin (c :: before) cs after

/-- The characters around a capital sigma settle its lower case, whatever stands further off.
The text `before` is reversed. -/
def settlesSigma (before after : List Char) : Bool :=
  casedFirst? after == some true || casedFirst? before == some false ||
    casedFirst? before == some true && casedFirst? after == some false

/-- All capital sigmas of a text are settled within the text. -/
def HasSettledSigmas (cs : List Char) : Prop :=
  ∀ u v, cs = u ++ '\u03a3' :: v → settlesSigma u.reverse v = true

variable {before before' after after' cs u v : List Char} {c x : Char}

section Classes

theorem casedFirst_eq (cs : List Char) : casedFirst cs = (casedFirst? cs).getD false := by
  unfold casedFirst casedFirst?
  cases cs.dropWhile isCaseIgnorable <;> rfl

theorem casedFirst?_append (a b : List Char) :
    casedFirst? (a ++ b) = (casedFirst? a).or (casedFirst? b) := by
  unfold casedFirst?
  rw [List.dropWhile_append]
  cases a.dropWhile isCaseIgnorable <;> simp

theorem lowerAt_of_settlesSigma (h : settlesSigma before after = true) (b a : List Char) :
    lowerAt (before ++ b) '\u03a3' (after ++ a) = lowerAt before '\u03a3' after := by
  simp only [settlesSigma, Bool.or_eq_true, Bool.and_eq_true, beq_iff_eq] at h
  simp only [lowerAt, if_true, casedFirst_eq, casedFirst?_append]
  rcases h with (h | h) | ⟨h, h'⟩ <;> simp [*]

end Classes

section Parts

theorem lowerAfter_append (before cs after : List Char) : lowerAfter before (cs ++ after) =
    lowerWithin before cs after ++ lowerAfter (cs.reverse ++ before) after := by
  induction cs generalizing before with
  | nil => rfl
  | cons c cs ih =>
    rw [List.cons_append, lowerAfter, ih, lowerWithin, List.append_assoc, List.reverse_cons,
      List.append_assoc]
    rfl

theorem lower_eq (cs : List Char) : lower cs = lowerWithin [] cs [] := by
  have h := lowerAfter_append [] cs []
  rwa [List.append_nil, lowerAfter, List.append_nil] at h

theorem lowerWithin_infix_lower (a cs b : List Char) :
    lowerWithin a.reverse cs b <:+: lower (a ++ cs ++ b) := by
  refine ⟨lowerWithin [] a (cs ++ b), lowerAfter (cs.reverse ++ a.reverse) b, ?_⟩
  rw [lower, List.append_assoc a, lowerAfter_append [] a, List.append_nil,
    lowerAfter_append a.reverse, List.append_assoc]

theorem lowerWithin_of_settled (h : ∀ u v, cs = u ++ '\u03a3' :: v →
    settlesSigma (u.reverse ++ before) (v ++ after) = true) (b a : List Char) :
    lowerWithin (before ++ b) cs (after ++ a) = lowerWithin before cs after := by
  induction cs generalizing before with
  | nil => rfl
  | cons c cs ih =>
    have hc : lowerAt (before ++ b) c (cs ++ after ++ a) = lowerAt before c (cs ++ after) := by
      by_cases hsigma : c = '\u03a3'
      · subst hsigma
        exact lowerAt_of_settlesSigma (h [] cs rfl) b a
      · simp only [lowerAt, if_neg hsigma]
    have hsettled : ∀ u v, cs = u ++ '\u03a3' :: v →
        settlesSigma (u.reverse ++ c :: before) (v ++ after) = true := by
      intro u v huv
      have hbehind := h (c :: u) v (by rw [huv, List.cons_append])
      rwa [List.reverse_cons, List.append_assoc] at hbehind
    rw [lowerWithin, lowerWithin, ← List.append_assoc, hc, ← List.cons_append, ih hsettled]

/-- A part with settled sigmas is lowered as it is lowered alone. -/
theorem lower_infix_of_settled (h : HasSettledSigmas cs) (hcs : cs <:+: u) :
    lower cs <:+: lower u := by
  obtain ⟨a, b, rfl⟩ := hcs
  have hsettled : ∀ u v, cs = u ++ '\u03a3' :: v →
      settlesSigma (u.reverse ++ []) (v ++ []) = true := fun u v huv => by
    simpa using h u v huv
  have hwithin : lowerWithin a.reverse cs b = lowerWithin [] cs [] :=
    lowerWithin_of_settled hsettled a.reverse b
  rw [lower_eq cs, ← hwithin]
  exact lowerWithin_infix_lower a cs b

end Parts

section Counts

/-- Around the capital sigmas of any text, `x` stands no more often in the one surroundings
than in the other ones. -/
def Rarer (x : Char) (before' after' before after : List Char) : Prop :=
  ∀ u v, (lowerAt (u ++ before') '\u03a3' (v ++ after')).count x ≤
    (lowerAt (u ++ before) '\u03a3' (v ++ after)).count x

theorem Rarer.count_lowerAt_le (h : Rarer x before' after' before after) (c : Char)
    (u v : List Char) : (lowerAt (u ++ before') c (v ++ after')).count x ≤
      (lowerAt (u ++ before) c (v ++ after)).count x := by
  by_cases hsigma : c = '\u03a3'
  · exact hsigma ▸ h u v
  · simp only [lowerAt, if_neg hsigma, Nat.le_refl]

theorem Rarer.count_lowerWithin_le (h : Rarer x before' after' before after) (cs : List Char) :
    ∀ u, (lowerWithin (u ++ before') cs after').count x ≤
      (lowerWithin (u ++ before) cs after).count x := by
  induction cs with
  | nil => exact fun u => Nat.le_refl 0
  | cons c cs ih =>
    intro u
    simp only [lowerWithin, List.count_append]
    exact Nat.add_le_add (h.count_lowerAt_le c u cs) (ih (c :: u))

theorem Rarer.count_lowerWithin_lt (h : Rarer x before' after' before after) (v : List Char) :
    ∀ w, (lowerAt (u.reverse ++ w ++ before') '\u03a3' (v ++ after')).count x <
        (lowerAt (u.reverse ++ w ++ before) '\u03a3' (v ++ after)).count x →
      (lowerWithin (w ++ before') (u ++ '\u03a3' :: v) after').count x <
        (lowerWithin (w ++ before) (u ++ '\u03a3' :: v) after).count x := by
  induction u with
  | nil =>
    intro w hlt
    simp only [List.nil_append, lowerWithin, List.count_append]
    exact Nat.add_lt_add_of_lt_of_le hlt (h.count_lowerWithin_le v ('\u03a3' :: w))
  | cons c u ih =>
    intro w hlt
    simp only [List.cons_append, lowerWithin, List.count_append]
    have hlt' := ih (c :: w) (by simpa using hlt)
    exact Nat.add_lt_add_of_le_of_lt
      (by simpa using h.count_lowerAt_le c w (u ++ '\u03a3' :: v)) hlt'

theorem count_small_lowerAt (before after : List Char) :
    (lowerAt before '\u03a3' after).count '\u03c3' =
      if casedFirst before && !casedFirst after then 0 else 1 := by
  rw [lowerAt, if_pos rfl]
  split <;> rfl

theorem count_final_lowerAt (before after : List Char) :
    (lowerAt before '\u03a3' after).count '\u03c2' =
      if casedFirst before && !casedFirst after then 1 else 0 := by
  rw [lowerAt, if_pos rfl]
  split <;> rfl

theorem casedFirst?_alpha : casedFirst? ['\u0391'] = some true := by decide +kernel

theorem casedFirst?_nil : casedFirst? [] = none := rfl

theorem lowerChar_alpha : lowerChar '\u0391' = ['\u03b1'] := by decide

/-- Behind a letter a sigma may end a word that it does not end alone. -/
theorem rarer_small_behind : Rarer '\u03c3' ['\u0391'] [] [] [] := by
  intro u v
  simp only [count_small_lowerAt, casedFirst_eq, casedFirst?_append, casedFirst?_alpha,
    casedFirst?_nil]
  cases casedFirst? u with
  | none => simp; split <;> decide
  | some b => simp

theorem rarer_final_before : Rarer '\u03c2' [] ['\u0391'] [] [] := by
  intro u v
  simp only [count_final_lowerAt, casedFirst_eq, casedFirst?_append, casedFirst?_alpha,
    casedFirst?_nil]
  cases casedFirst? v <;> simp

theorem not_infix_of_count_lt {a b : List Char} (h : b.count x < a.count x) : ¬ a <:+: b :=
  fun hpart => absurd (hpart.sublist.count_le x) (Nat.not_le.2 h)

end Counts

theorem settlesSigma_eq_false (h : settlesSigma before after = false) :
    casedFirst? before = none ∧ (casedFirst? after).getD false = false ∨
      casedFirst? before = some true ∧ casedFirst? after = none := by
  unfold settlesSigma at h
  generalize casedFirst? before = b at h ⊢
  generalize casedFirst? after = a at h ⊢
  rcases b with _ | _ | _ <;> rcases a with _ | _ | _ <;> simp_all

/-- A text with a sigma that is not settled is a part of a text that is lowered otherwise. -/
theorem exists_not_infix_lower (h : settlesSigma u.reverse v = false) :
    ∃ s, u ++ '\u03a3' :: v <:+: s ∧ ¬ lower (u ++ '\u03a3' :: v) <:+: lower s := by
  rcases settlesSigma_eq_false h with ⟨hu, hv⟩ | ⟨hu, hv⟩
  · refine ⟨'\u0391' :: (u ++ '\u03a3' :: v), List.infix_cons (List.infix_refl _), ?_⟩
    have hlt := rarer_small_behind.count_lowerWithin_lt (u := u) v [] (by
      simp [count_small_lowerAt, casedFirst_eq, casedFirst?_append, casedFirst?_alpha, hu, hv])
    refine not_infix_of_count_lt (x := '\u03c3') ?_
    simpa [lower_eq, lowerWithin, lowerAt, lowerChar_alpha] using hlt
  · refine ⟨u ++ '\u03a3' :: v ++ ['\u0391'], (List.prefix_append _ _).isInfix, ?_⟩
    have hlt := rarer_final_before.count_lowerWithin_lt (u := u) v [] (by
      simp [count_final_lowerAt, casedFirst_eq, casedFirst?_append, casedFirst?_alpha, hu, hv])
    refine not_infix_of_count_lt (x := '\u03c2') ?_
    rw [lower_eq (u ++ _), lower, lowerAfter_append, List.count_append]
    simpa [lowerAfter, lowerChar_alpha] using hlt

/-- Exactly the texts with settled sigmas are lowered in every text as they are alone. -/
theorem hasSettledSigmas_iff :
    HasSettledSigmas cs ↔ ∀ s, cs <:+: s → lower cs <:+: lower s := by
  refine ⟨fun h s hs => lower_infix_of_settled h hs, fun h => ?_⟩
  rintro u v rfl
  by_contra hsettled
  obtain ⟨s, hs, hnot⟩ := exists_not_infix_lower (Bool.eq_false_iff.2 hsettled)
  exact hnot (h s hs)

end SearchBar.Text
