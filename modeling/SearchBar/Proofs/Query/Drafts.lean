import SearchBar.Proofs.Query.Scan
import SearchBar.Query.Piece

/-! # What every draft has

Whatever delimits phrases, the flags and fields of the drafts in a text have names, and
their groups have values.
-/

namespace SearchBar

open Text

variable {d : Char} {cs rest : List Char} {ws : List Word} {negated : Bool} {draft : Draft}

def Draft.WellNamed : Draft → Prop
  | flag name => isFlagName name = true
  | group name ws => isFieldName name = true ∧ ws ≠ []
  | field name _ _ | missing name _ => isFieldName name = true
  | term _ => True

theorem ne_nil_of_takeValues (h : takeValues? d cs = some (ws, rest)) : ws ≠ [] := by
  obtain ⟨-, w, behind, -, -, -, rfl⟩ := exists_values_of_takeValues h
  exact List.cons_ne_nil _ _

theorem isFieldName_of_takeFieldName {name : List Char}
    (h : takeFieldName? cs = some (name, rest)) : isFieldName name = true :=
  (takeFieldName_eq_some_iff.1 h).2.1

theorem Draft.wellNamed_of_take? (h : Draft.take? d cs = some (draft, rest)) :
    draft.WellNamed := by
  cases takes_of_take? h with
  | flag _ hname => exact (takeFlagName_eq_some_iff.1 hname).2.1
  | group _ hname hvalues =>
    exact ⟨isFieldName_of_takeFieldName hname, ne_nil_of_takeValues hvalues⟩
  | field _ _ hname | missing _ _ _ hname => exact isFieldName_of_takeFieldName hname
  | term => trivial

theorem wellNamed_of_takePiece (h : (takePiece d cs).1 = .ok (negated, draft)) :
    draft.WellNamed := by
  rcases takeSigned_cases (takeSigned_of_takePiece h).1 with ⟨_, -, -, htake⟩ | ⟨-, -, htake⟩
  all_goals exact Draft.wellNamed_of_take? htake

/-- The drafts of a text are well named, also next to faults. -/
theorem wellNamed_of_mem_pieces {offset : Nat} {p : Piece} (hp : p ∈ pieces d offset cs)
    (h : p.content = .ok (negated, draft)) : draft.WellNamed := by
  fun_induction pieces d offset cs with
  | case1 => simp at hp
  | case2 offset cs c body htrim start found stop ih =>
    rcases List.mem_cons.1 hp with rfl | hp
    · exact wellNamed_of_takePiece h
    · exact ih hp

end SearchBar
