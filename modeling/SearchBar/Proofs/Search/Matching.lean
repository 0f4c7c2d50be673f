import SearchBar.Compile.QueryObject
import SearchBar.Compile.QueryString
import SearchBar.Proofs.Query.Distinct
import SearchBar.Search.Match

/-! # What clauses ask of records

A comparison looks into lists at any depth and is met by one value in them. Equal clauses
are met by the same records. A flag is compiled like a comparison with true, but it does
not look into lists, and that is all in which the two differ on records.
-/

namespace SearchBar

open Calendar Text

variable {options : SearchOptions} {op : Operator} {v w : Value}

namespace Json

mutual

/-- The values that are no lists: the value itself, or those in the list at any depth. -/
def leaves : Json → List Json
  | .arr items => allLeaves items
  | v => [v]

def allLeaves : List Json → List Json
  | [] => []
  | v :: vs => leaves v ++ allLeaves vs

end

end Json

mutual

/-- A comparison is met by one of the values that are no lists. -/
theorem meets_eq_any (op : Operator) (v : Value) :
    ∀ a : Json, meets op v a = a.leaves.any fun l => meetsScalar l op v
  | .arr items => by rw [meets, Json.leaves, anyMeets_eq_any]
  | .null | .bool _ | .int _ | .float _ | .str _ | .obj _ => by simp [meets, Json.leaves]

theorem anyMeets_eq_any (op : Operator) (v : Value) :
    ∀ items : List Json, anyMeets op v items =
      (Json.allLeaves items).any fun l => meetsScalar l op v
  | [] => rfl
  | a :: items => by
    rw [anyMeets, Json.allLeaves, List.any_append, meets_eq_any, anyMeets_eq_any]

end

section Equal

variable {a : Json} {c e : Clause}

theorem Binary64.compare?_congr {x y : Binary64} (h : (x == y) = true) (z : Binary64) :
    z.compare? x = z.compare? y := by
  obtain ⟨k, hx, hy⟩ := Binary64.beq_iff.1 h
  simp only [Binary64.compare?, hx, hy]

theorem Operator.acceptsInstant_congr {d d' : DateValue} (h : (d == d') = true) (op : Operator)
    (t : Instant) : op.acceptsInstant d t = op.acceptsInstant d' t := by
  obtain ⟨hinstant, hgranularity⟩ := DateValue.beq_iff.1 h
  have hunit : d.unit = d'.unit := congrArg (·.getD .day) hgranularity
  have hopening : d.opening = d'.opening := by
    rw [DateValue.opening, DateValue.opening, hunit, hinstant]
  have hclosing : d.closing = d'.closing := by
    rw [DateValue.closing, DateValue.closing, hunit, hinstant]
  cases op <;> simp only [acceptsInstant, hopening, hclosing]

theorem meetsScalar_congr (h : (v == w) = true) (a : Json) (op : Operator) :
    meetsScalar a op v = meetsScalar a op w := by
  rw [Value.beq_def] at h
  cases v <;> cases w <;> simp only [Value.same, Bool.false_eq_true] at h
  · rw [beq_iff_eq.1 h]
  · simp only [meetsScalar, Binary64.compare?_congr h]
  · rw [beq_iff_eq.1 h]
  · simp only [meetsScalar]
    congr 1
    funext t
    exact Operator.acceptsInstant_congr h op t

theorem meets_congr (h : (v == w) = true) (op : Operator) (a : Json) :
    meets op v a = meets op w a := by
  simp only [meets_eq_any, meetsScalar_congr h]

theorem any_congr_of_forall₂ {α : Type} {R : α → α → Prop} {f : α → Bool} {as bs : List α}
    (h : List.Forall₂ R as bs) (hf : ∀ a b, R a b → f a = f b) : as.any f = bs.any f := by
  induction h with
  | nil => rfl
  | cons hab _ ih => rw [List.any_cons, List.any_cons, hf _ _ hab, ih]

theorem Clause.holds_congr (h : (c == e) = true) (options : SearchOptions) (record : Json) :
    c.holds options record = e.holds options record := by
  rw [Clause.beq_def] at h
  cases c <;> cases e <;> simp only [same, Bool.false_eq_true, Bool.and_eq_true] at h
  · rw [beq_iff_eq.1 h.1, beq_iff_eq.1 h.2]
  · obtain ⟨⟨⟨hname, hop⟩, hv⟩, hmust⟩ := h
    rw [beq_iff_eq.1 hname, beq_iff_eq.1 hop, beq_iff_eq.1 hmust]
    simp only [holds, funext (meets_congr hv _)]
  · obtain ⟨⟨hname, hvs⟩, hmust⟩ := h
    rw [beq_iff_eq.1 hname, beq_iff_eq.1 hmust]
    have hany (a : Json) := any_congr_of_forall₂ (f := fun v => meets .eq v a)
      (beq_iff_forall₂.1 hvs) fun v w hvw => meets_congr hvw .eq a
    simp only [holds, hany]
  · rw [beq_iff_eq.1 h.1, beq_iff_eq.1 h.2]

end Equal

section Flags

theorem readBool_getD (a : Json) : a.readBool.getD false = (a.readBool == some true) := by
  cases a.readBool with
  | none => rfl
  | some b => cases b <;> rfl

theorem meets_true_eq_any (a : Json) :
    meets .eq (.bool true) a = a.leaves.any fun l => l.readBool == some true := meets_eq_any ..

theorem readBool_getD_eq_meets_iff (a : Json) :
    a.readBool.getD false = meets .eq (.bool true) a ↔
      ∀ items, a = .arr items → ∀ l ∈ a.leaves, l.readBool ≠ some true := by
  rw [readBool_getD, meets_true_eq_any]
  cases a with
  | arr items =>
    have hlist : ((Json.arr items).readBool == some true) = false := rfl
    rw [hlist, Eq.comm, List.any_eq_false]
    simp
  | null | bool | int | float | str | obj =>
    refine iff_of_true ?_ fun _ h => nomatch h
    simp [Json.leaves]

/-- A flag and a comparison with true are compiled alike. They ask the same of a record
exactly if there is no list in the field with something in it, at any depth, that reads
as true. -/
theorem flag_agrees_iff (hmatcher : options.flagMatcher = none) (record : Json) (name : String)
    (must : Bool) :
    ((Clause.flag name must).holds options record =
        (Clause.field name .eq (.bool true) must).holds options record ↔
      ∀ items, record.lookup? name = some (.arr items) →
        ∀ l ∈ (Json.arr items).leaves, l.readBool ≠ some true) ∧
    (Clause.flag name must).queryString =
      (Clause.field name .eq (.bool true) must).queryString ∧
    ∀ (ε : Type) (defaultFields : List String),
      Query.toObject ⟨[.flag name must]⟩ (.standard ε) defaultFields =
        Query.toObject ⟨[.field name .eq (.bool true) must]⟩ (.standard ε) defaultFields := by
  refine ⟨?_, ?_, fun ε defaultFields => ?_⟩
  · simp only [Clause.holds, hmatcher]
    have hmust (x y : Bool) : (x == must) = (y == must) ↔ x = y := by
      cases x <;> cases y <;> cases must <;> decide
    rw [hmust]
    cases record.lookup? name with
    | none => simp
    | some a =>
      simp only [Option.any_some, Option.some.injEq, readBool_getD_eq_meets_iff]
      exact forall_congr' fun items => ⟨fun h ha => ha ▸ h ha, fun h ha => ha ▸ h ha⟩
  · cases must <;> rfl
  · cases must <;> rfl

theorem flag_agrees_iff_refusals :
    let record := Json.obj [("read", .arr [.str "no", .arr [.bool false]])]
    ({} : SearchOptions).flagMatcher = none ∧
      (∀ items, record.lookup? "read" = some (.arr items) →
        ∀ l ∈ (Json.arr items).leaves, l.readBool ≠ some true) ∧
      (Clause.flag "read" false).holds {} record =
        (Clause.field "read" .eq (.bool true) false).holds {} record := by
  intro record
  have hleaves (items : List Json) (h : record.lookup? "read" = some (.arr items)) :
      ∀ l ∈ (Json.arr items).leaves, l.readBool ≠ some true := by
    have hlookup : record.lookup? "read" = some (.arr [.str "no", .arr [.bool false]]) := rfl
    obtain rfl := Json.arr.inj (Option.some.inj (hlookup.symm.trans h))
    decide
  exact ⟨rfl, hleaves, (flag_agrees_iff rfl record "read" false).1.2 hleaves⟩

/-- The comparison finds what the flag does not look for. -/
theorem not_flag_agrees_list :
    let record := Json.obj [("read", .arr [.bool true])]
    (Clause.flag "read" true).holds {} record = false ∧
      (Clause.field "read" .eq (.bool true) true).holds {} record = true := by
  decide

end Flags

end SearchBar
