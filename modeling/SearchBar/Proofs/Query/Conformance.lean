import SearchBar.Proofs.Query.Drafts
import SearchBar.Proofs.Query.Rereading

/-! # What a dialect lets through

Every clause that is read of a text keeps to the dialect, also next to faults and whatever
delimits phrases. Its operator is allowed, its field is declared if it has to be, and its
values are of the kind that the dialect gives to the field.
-/

namespace SearchBar

open Calendar Text

variable {dialect : Dialect} {now : Instant} {text : String} {c : Clause} {v : Value} {w : Word}
  {op : Operator} {draft : Draft} {negated : Bool} {name : List Char}

inductive Value.OfKind : FieldKind → Value → Prop
  | text (s : String) : OfKind .text (.text s)
  | number {x : Binary64} (h : x.isFinite = true) : OfKind .number (.number x)
  | bool (b : Bool) : OfKind .bool (.bool b)
  | date (d : DateValue) : OfKind .date (.date d)

inductive Value.OfTyping : Typing → Value → Prop
  | text (typing : Typing) (s : String) : OfTyping typing (.text s)
  | number (x : Binary64) : OfTyping .infer (.number x)
  | bool (b : Bool) : OfTyping .infer (.bool b)

def Value.Conforms (dialect : Dialect) (field : String) (v : Value) : Prop :=
  match dialect.kind? field with
  | some kind => v.OfKind kind
  | none => v.OfTyping dialect.typing

/-- The dialect lets a field be compared by an operator. -/
structure Dialect.Lets (dialect : Dialect) (field : String) (op : Operator) : Prop where
  begins : ∃ c cs, field.toList = c :: cs ∧ (isLetter c = true ∨ c = '_')
  /-- The name does not introduce flags, in letters of any case. -/
  not_reserved : field.toList.map Char.toLower ≠ ['i', 's']
  declared : ∀ schema, dialect.schema = some schema → schema.strict = true →
    ∃ kind, schema.kind? field = some kind
  allowed : ∀ ops, dialect.operators = some ops → op ∈ ops

def Clause.Conforms (dialect : Dialect) : Clause → Prop
  | term _ _ => True
  | field name op v _ => dialect.Lets name op ∧ v.Conforms dialect name
  | oneOf name vs _ => dialect.Lets name .eq ∧ vs ≠ [] ∧ ∀ v ∈ vs, v.Conforms dialect name
  | flag name _ => name ≠ ""

theorem Dialect.lets_of_checkField (hname : isFieldName name = true)
    (h : checkField dialect name op = .ok ()) : dialect.Lets (String.ofList name) op := by
  obtain ⟨hreserved, hrefuses, hallows⟩ := checkField_eq_ok_iff.1 h
  refine ⟨?_, ?_, fun schema hschema hstrict => ?_, fun ops hops => ?_⟩
  · cases name with
    | nil => simp [isFieldName] at hname
    | cons c cs =>
      have hstart := isNameStart_of_isFieldName hname
      rw [isNameStart, Bool.or_eq_true, beq_iff_eq] at hstart
      exact ⟨c, cs, String.toList_ofList, hstart⟩
  · rw [String.toList_ofList]
    intro hlower
    have hsame : isReserved name = true := sameLetters_iff.2 hlower
    simp [hsame] at hreserved
  · simp only [refuses, hschema, Option.any_some, hstrict, Bool.true_and] at hrefuses
    exact Option.isSome_iff_exists.1 (by simpa using hrefuses)
  · simpa [allows, hops] using hallows

theorem Value.ofKind_of_typeAs {kind : FieldKind} {cs : List Char}
    (h : typeAs now kind name cs = .ok v) : v.OfKind kind := by
  rcases typeAs_eq_ok h with ⟨rfl, rfl⟩ | ⟨rfl, x, rfl, -, hx⟩ | ⟨rfl, b, rfl⟩ | ⟨rfl, d, rfl, -⟩
  · exact .text _
  · exact .number hx
  · exact .bool b
  · exact .date d

theorem Value.ofTyping_ofWord (cs : List Char) : (ofWord cs).OfTyping .infer := by
  rcases ofWord_cases cs with ⟨b, hb⟩ | ⟨x, hx, -⟩ | htext
  · rw [hb]
    exact .bool b
  · rw [hx]
    exact .number x
  · rw [htext]
    exact .text _ _

theorem Value.conforms_of_typeWord (h : typeWord dialect now name w = .ok v) :
    v.Conforms dialect (String.ofList name) := by
  unfold Conforms
  rcases typeWord_cases dialect now name w with
    ⟨kind, hkind, htype⟩ | ⟨hkind, htype⟩ | ⟨hkind, htyping, -, htype⟩ <;> rw [hkind]
  · exact ofKind_of_typeAs (htype.symm.trans h)
  · obtain rfl := Except.ok.inj (htype.symm.trans h)
    exact .text _ _
  · obtain rfl := Except.ok.inj (htype.symm.trans h)
    rw [htyping]
    exact ofTyping_ofWord w.text

/-- A draft that is resolved gives a clause that keeps to the dialect. -/
theorem Clause.conforms_of_resolve (hdraft : draft.WellNamed)
    (h : resolve dialect now negated draft = .ok c) : c.Conforms dialect := by
  cases resolve_eq_ok_iff.1 h with
  | flag name =>
    have hname : isFlagName name = true := hdraft
    rintro hempty
    rw [← String.ofList_nil, String.ofList_inj] at hempty
    simp [hempty, isFlagName] at hname
  | term => trivial
  | field hcheck hvalue =>
    exact ⟨Dialect.lets_of_checkField hdraft hcheck, Value.conforms_of_typeWord hvalue⟩
  | group hcheck hvalues =>
    refine ⟨Dialect.lets_of_checkField hdraft.1 hcheck, ?_, fun v hv => ?_⟩
    · rintro rfl
      exact hdraft.2 (List.forall₂_nil_right_iff.1 hvalues)
    · obtain ⟨w, -, hw⟩ := exists_mem_of_forall₂ hvalues.flip hv
      exact Value.conforms_of_typeWord hw

theorem Piece.conforms_of_clause? {d : Char} {offset : Nat} {cs : List Char} {p : Piece}
    (hp : p ∈ pieces d offset cs) (h : p.clause? dialect now = some c) : c.Conforms dialect := by
  obtain ⟨negated, draft, hcontent, hresolve⟩ :=
    Piece.exists_draft_of_clause (Piece.clause?_eq_some_iff.1 h)
  exact Clause.conforms_of_resolve (wellNamed_of_mem_pieces hp hcontent) hresolve

/-- Every clause that is read of any text keeps to the dialect, whether the text has faults
or not. -/
theorem conforms_of_mem_readAll (h : c ∈ (Query.readAll dialect now text).query.clauses) :
    c.Conforms dialect := by
  rw [query_readAll] at h
  obtain ⟨p, hp, hclause⟩ := List.mem_filterMap.1 (Query.mem_of_mem_ofClauses h)
  exact Piece.conforms_of_clause? hp hclause

theorem conforms_of_mem_readAll_strict :
    let dialect : Dialect :=
      { delimiter := '|', operators := some [.eq], schema := some ⟨true, [("age", .number)]⟩ }
    let reading := Query.readAll dialect (.midnight 0) "age>3 age:(|2e1| or 1) size:3"
    reading.diagnostics.length = 2 ∧
      ∃ c, c ∈ reading.query.clauses ∧ c.isOneOf = true ∧ c.Conforms dialect := by
  intro dialect reading
  have hany : reading.query.clauses.any (·.isOneOf) = true := by decide +kernel
  obtain ⟨c, hc, hone⟩ := List.any_eq_true.1 hany
  exact ⟨by decide +kernel, c, hc, hone, conforms_of_mem_readAll hc⟩

end SearchBar
