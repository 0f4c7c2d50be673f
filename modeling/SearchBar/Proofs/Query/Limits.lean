import SearchBar.Proofs.Calendar.Limits
import SearchBar.Query.Writer
import SearchBar.Query.Reader

/-! # Queries within the limits

Dates are the only values that meet limits. A text is read as without limits if the years
beside the present one are kept, and without a schema it is read so at any time. A query is
written as without limits exactly if each of its values is.
-/

namespace SearchBar

open Calendar

variable {dialect : Dialect} {now : Instant} {q : Query}

namespace Query

theorem checkRead_of_checkDates
    (h : ∀ field op ws, checkDates dialect now field op ws = .ok ()) (text : String) :
    checkRead dialect now text = .ok () := by
  refine checkAll_iff.2 fun p _ => ?_
  unfold Piece.checkClause
  split
  · rename_i c _
    cases c.2 with
    | field name op w => exact h name op [w]
    | group name ws => exact h name .eq ws
    | _ => rfl
  · rfl

theorem checkRead_of_yearsKept (h : now.YearsKept) (dialect : Dialect) (text : String) :
    checkRead dialect now text = .ok () := by
  refine checkRead_of_checkDates (fun field op ws => ?_) text
  unfold checkDates
  split
  · exact checkUntil_of_forall fun w _ => Calendar.checkRead_of_yearsKept h w.text
  · rfl

theorem checkRead_of_schema_eq_none (h : dialect.schema = none) (now : Instant) (text : String) :
    checkRead dialect now text = .ok () := by
  refine checkRead_of_checkDates (fun field op ws => ?_) text
  have hkind : dialect.kind? (String.ofList field) = none := by
    simp [Dialect.kind?, h]
  unfold checkDates
  rw [hkind]
  split <;> simp_all

theorem parse_of_checkRead {text : String} (h : checkRead dialect now text = .ok ()) :
    parse dialect now text = .ok (read dialect now text) := by
  rw [parse, h]
  rfl

/-- Away from the ends of the calendar, a text is read as without limits. -/
theorem parse_of_yearsKept (h : now.YearsKept) (dialect : Dialect) (text : String) :
    parse dialect now text = .ok (read dialect now text) :=
  parse_of_checkRead (checkRead_of_yearsKept h dialect text)

/-- Without a schema no word is read as a date. -/
theorem parse_of_schema_eq_none (h : dialect.schema = none) (now : Instant) (text : String) :
    parse dialect now text = .ok (read dialect now text) :=
  parse_of_checkRead (checkRead_of_schema_eq_none h now text)

theorem print_eq_ok_iff {text : String} : q.print now = .ok text ↔
    (∀ c ∈ q.clauses, ∀ v ∈ c.values, v.checkWrite now = .ok ()) ∧ q.write now = text := by
  rw [print, check_bind_eq_ok_iff, checkWrite, checkAll_iff]
  simp only [Clause.checkWrite, checkAll_iff]
  exact and_congr_right' (iff_of_eq (Except.ok.injEq _ _))

end Query

end SearchBar
