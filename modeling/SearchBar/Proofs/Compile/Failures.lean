import SearchBar.Proofs.Calls
import SearchBar.Proofs.Compile.Branches

/-! # Failures of the making of a query object

The parts of a query are compiled one after the other: first the terms that must hold, then
each term and each comparison that must not, then the groups of comparisons that must hold,
and at last choices and flags. The first part that cannot be compiled ends the making with
its error. The query that is empty has no parts.
-/

namespace SearchBar

namespace Query

section Order

/-- The parts of a query in the order in which they are compiled. -/
def partsInOrder (q : Query) : List Part :=
  (if (q.termTexts true).isEmpty then [] else [.terms (q.termTexts true)])
    ++ (q.termTexts false).map (fun text => .terms [text])
    ++ (q.comparisons false).map (fun c => .all c.1 [c.2])
    ++ q.comparedFields.map (fun field => .all field (q.operations field))
    ++ q.clauses.filterMap fun
      | .oneOf n vs _ => some (.any n vs)
      | .flag n _ => some (.flag n)
      | _ => none

theorem map_snd_ownSteps (q : Query) : q.ownSteps.map (·.2) = q.clauses.filterMap fun
    | .oneOf n vs _ => some (.any n vs)
    | .flag n _ => some (.flag n)
    | _ => none := by
  rw [ownSteps, List.map_filterMap]
  refine List.filterMap_congr fun c _ => ?_
  cases c <;> rfl

theorem map_snd_steps (q : Query) : q.steps.map (·.2) = q.partsInOrder := by
  have hterms : (if (q.termTexts true).isEmpty then [] else
      [(true, Part.terms (q.termTexts true))]).map (·.2) =
        if (q.termTexts true).isEmpty then [] else [Part.terms (q.termTexts true)] := by
    cases (q.termTexts true).isEmpty <;> rfl
  simp only [steps_eq, List.map_append, hterms, List.map_map, map_snd_ownSteps, partsInOrder]
  rfl

theorem partsInOrder_perm (q : Query) : q.partsInOrder.Perm (q.mustParts ++ q.mustNotParts) := by
  obtain ⟨hmust, hnot⟩ := q.partsOf_steps
  have hfalse : (fun s : Bool × Part => s.1 == false) = fun s => !s.1 == true := by
    funext s
    cases s.1 <;> rfl
  rw [← map_snd_steps, ← hmust, ← hnot, partsOf, partsOf, ← List.map_append, hfalse]
  exact ((List.filter_append_perm (fun s : Bool × Part => s.1 == true) q.steps).map (·.2)).symm

end Order

variable {ε : Type} {q : Query} {t : PartCompiler ε} {defaultFields : List String} {e : ε}

theorem toObject_of_clauses_eq_nil (h : q.clauses = []) :
    q.toObject t defaultFields = .ok (single "match_all" (.obj [])) := by
  rw [toObject, h]
  rfl

/-- The making ends with the error of the first part that cannot be compiled. -/
theorem toObject_eq_error_iff (h : q.clauses ≠ []) : q.toObject t defaultFields = .error e ↔
    FailsFirst (t.compile defaultFields) q.partsInOrder e := by
  have hempty : q.clauses.isEmpty = false := by simpa using h
  rw [← map_snd_steps, ← failsFirst_map (fun s j => (s.1, j)), ← mapM_eq_error_iff]
  simp only [toObject, hempty, Bool.false_eq_true, if_false]
  cases q.steps.mapM fun s => (t.compile defaultFields s.2).map fun j => (s.1, j) <;>
    simp [bind, Except.bind]

/-- The making of a query object fails exactly if a part of the query cannot be compiled, and
then with the error of the first such part in the order of compiling. An empty query becomes
an object in whatever way parts are compiled. -/
theorem toObject_fails_first (q : Query) (t : PartCompiler ε) (defaultFields : List String) :
    (q.clauses = [] → q.toObject t defaultFields = .ok (single "match_all" (.obj []))) ∧
    (q.clauses ≠ [] →
      ((∃ e, q.toObject t defaultFields = .error e) ↔
        ∃ p ∈ q.mustParts ++ q.mustNotParts, ∃ e, t.compile defaultFields p = .error e) ∧
      ∀ e, q.toObject t defaultFields = .error e ↔
        FailsFirst (t.compile defaultFields) q.partsInOrder e) := by
  refine ⟨toObject_of_clauses_eq_nil, fun h => ⟨?_, fun e => toObject_eq_error_iff h⟩⟩
  simp only [toObject_eq_error_iff h, exists_failsFirst_iff, q.partsInOrder_perm.mem_iff]

/-- A term that must not hold fails before the choice that stands in front of it. -/
example : toObject ⟨[.oneOf "lid" [.bool true] true, .field "size" .gt (.text "5") true,
      .term "red" false]⟩
    { PartCompiler.standard String with
      any := fun field _ => .error field
      terms := fun texts _ => .error (String.join texts) } [] = .error "red" := rfl

end Query

end SearchBar
