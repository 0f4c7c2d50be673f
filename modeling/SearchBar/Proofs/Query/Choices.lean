import SearchBar.Proofs.Query.Editing

/-! # Values of choices

A query may have several choices for one field, since texts may and clauses are added
one by one. Values are added to the first choice for a field and removed from the first
one that offers them, so what the steps do to the values of a field depends on how many
choices offer a value and on whether the first one does.
-/

namespace SearchBar

open Calendar

namespace Query

variable {q : Query} {name : String} {value : Value} {must : Bool}

theorem hasOneOf_eq_false_iff {value : Option Value} : q.hasOneOf name value = false ↔
    ∀ c ∈ q.clauses, c.offersValue name value = false := by
  simp [hasOneOf, getOneOf?, Option.isSome_eq_false_iff]

theorem getOneOf?_of_append {before after : List Clause} {c : Clause} {value : Option Value}
    (hq : q.clauses = before ++ c :: after)
    (hbefore : ∀ c ∈ before, c.offersValue name value = false)
    (hc : c.offersValue name value = true) : q.getOneOf? name value = some c := by
  rw [getOneOf?, hq, List.find?_append, List.find?_eq_none.2 fun c hc => by simp [hbefore c hc],
    Option.none_or, List.find?_cons_of_pos hc]

theorem choiceWithout_offers (name : String) (vs : List Value) (m : Bool) (value : Value) :
    ∀ c ∈ choiceWithout name vs m value, c.offersValue name (some value) = false := by
  intro c hc
  unfold choiceWithout at hc
  split at hc
  · simp at hc
  · rw [List.mem_singleton.1 hc]
    have hnone : (vs.filter fun v => !(v == value)).contains value = false := by
      rw [Bool.eq_false_iff, ne_eq, List.contains_iff_exists_mem_beq]
      rintro ⟨v, hv, hvalue⟩
      have hv := (List.mem_filter.1 hv).2
      rw [BEq.symm hvalue] at hv
      simp at hv
    simp [Clause.offersValue, hnone]

theorem beq_of_append_cons {before after : List Clause} {c e : Clause}
    (h : (before ++ c :: after == before ++ e :: after) = true) : (c == e) = true := by
  induction before with
  | nil =>
    rw [List.nil_append, List.nil_append, List.cons_beq_cons, Bool.and_eq_true] at h
    exact h.1
  | cons b before ih =>
    rw [List.cons_append, List.cons_append, List.cons_beq_cons, Bool.and_eq_true] at h
    exact ih h.2

/-- Removing a value from the choices for a field leaves none that offers it exactly if
one choice at most did. -/
theorem hasOneOf_removeOneOfValue_iff :
    (q.removeOneOfValue name value).hasOneOf name (some value) = false ↔
      (q.clauses.filter (·.offersValue name (some value))).length ≤ 1 := by
  rw [hasOneOf_eq_false_iff]
  rcases removeOneOfValue_cases q name value with
    ⟨hnone, hremove⟩ | ⟨before, vs, m, after, hq, hbefore, hvs, hremove⟩
  · have hfilter : q.clauses.filter (·.offersValue name (some value)) = [] :=
      List.filter_eq_nil_iff.2 fun c hc => by simp [hnone c hc]
    rw [hremove, hfilter]
    exact iff_of_true hnone (Nat.zero_le 1)
  · have hfilter : q.clauses.filter (·.offersValue name (some value)) =
        .oneOf name vs m :: after.filter (·.offersValue name (some value)) := by
      rw [hq, List.filter_append, List.filter_eq_nil_iff.2 fun c hc => by simp [hbefore c hc],
        List.nil_append, List.filter_cons_of_pos (by simpa [Clause.offersValue] using hvs)]
    have hleft := choiceWithout_offers name vs m value
    rw [hremove, hfilter, List.length_cons, Nat.succ_le_succ_iff, Nat.le_zero,
      List.length_eq_zero_iff, List.filter_eq_nil_iff]
    simp only [List.forall_mem_append, Bool.not_eq_true]
    exact ⟨fun h => h.2, fun h => ⟨⟨hbefore, hleft⟩, h⟩⟩

theorem addOneOf_of_beq (h : (q.addOneOf name value must == q) = true) :
    q.addOneOf name value must = q := by
  have hclauses : ((q.addOneOf name value must).clauses == q.clauses) = true := h
  rcases addOneOf_cases q name value must with ⟨-, hadd⟩ | ⟨before, vs, m, after, hq, -, hadd⟩
  · have hlength := List.length_eq_of_beq hclauses
    simp [hadd] at hlength
  · rw [hadd, hq] at hclauses
    have hchoice := beq_of_append_cons hclauses
    split at hadd
    · exact congrArg Query.mk (hadd.trans hq.symm)
    · rename_i hvs
      rw [if_neg hvs, Clause.beq_def] at hchoice
      simp only [Clause.same, Bool.and_eq_true] at hchoice
      have hlength := List.length_eq_of_beq hchoice.1.2
      simp at hlength

/-- Adding a value to the choices for a field changes nothing exactly if the first choice
for the field offers the value. -/
theorem addOneOf_eq_self_iff : q.addOneOf name value must = q ↔
    ∃ c, q.getOneOf? name none = some c ∧ c.offersValue name (some value) = true := by
  rcases addOneOf_cases q name value must with
    ⟨hnone, hadd⟩ | ⟨before, vs, m, after, hq, hbefore, hadd⟩
  · refine iff_of_false (fun h => ?_) ?_
    · rw [h] at hadd
      simp at hadd
    · rintro ⟨c, hget, -⟩
      have hoffers := List.find?_some hget
      rw [hnone c (List.mem_of_find?_eq_some hget)] at hoffers
      simp at hoffers
  · have hget := getOneOf?_of_append hq hbefore (by simp [Clause.offersValue])
    have hoffers : (∃ c, q.getOneOf? name none = some c ∧
        c.offersValue name (some value) = true) ↔ vs.contains value = true := by
      simp [hget, Clause.offersValue]
    rw [hoffers]
    constructor
    · intro h
      by_contra hvs
      rw [h, hq, if_neg hvs] at hadd
      simp at hadd
    · intro hvs
      rw [if_pos hvs, ← hq] at hadd
      exact congrArg Query.mk hadd

/-- What adding and removing do to the values of choices. A removed value is gone exactly
if one choice at most offered it. Adding a value changes nothing exactly if the first
choice for the field offers it, whether queries are the same or only equal. -/
theorem choices_agree_iff (q : Query) (name : String) (value : Value) (must : Bool) :
    ((q.removeOneOfValue name value).hasOneOf name (some value) = false ↔
      (q.clauses.filter (·.offersValue name (some value))).length ≤ 1) ∧
    (q.addOneOf name value must = q ↔
      ∃ c, q.getOneOf? name none = some c ∧ c.offersValue name (some value) = true) ∧
    ((q.addOneOf name value must == q) = true ↔
      q.addOneOf name value must = q ∧ (q == q) = true) := by
  refine ⟨hasOneOf_removeOneOfValue_iff, addOneOf_eq_self_iff, fun h => ?_, fun h => ?_⟩
  · have hsame := addOneOf_of_beq h
    rw [hsame] at h
    exact ⟨hsame, h⟩
  · rw [h.1]
    exact h.2

/-- Two choices offer the value, but not the first one for the field. -/
theorem not_choices_agree_second :
    ∃ q, Query.read {} (.midnight 0) "c:(a) c:(b) c:(b or d)" = .ok q ∧
      q.hasOneOf "c" (some (.text "b")) = true ∧
      (q.addOneOf "c" (.text "b") true == q) = false ∧
      (q.removeOneOfValue "c" (.text "b")).hasOneOf "c" (some (.text "b")) = true :=
  ⟨_, read_eq_ok_iff.2 ⟨by decide +kernel, rfl⟩, by decide +kernel, by decide +kernel,
    by decide +kernel⟩

end Query

end SearchBar
