import SearchBar.Proofs.Calendar.RoundTrip
import SearchBar.Proofs.Query.Drafts
import SearchBar.Proofs.Query.RoundTrip

/-! # Writing and reading a query that was read

In every dialect with double quotes, a query that was read is read from its written text
with the same clauses exactly if its clauses are faithful. Numbers beyond the range of
the format, fractions of a second, years that are not from 0 to 9999 in timestamps of
interchange and texts that run into the sign in front of them are what is lost.
-/

namespace SearchBar

open Calendar Text

variable {dialect : Dialect} {now : Instant} {q : Query} {text : String} {c : Clause}
  {v : Value} {draft : Draft} {negated : Bool} {name : List Char}

section Origin

theorem exists_draft_of_read (h : Query.read dialect now text = .ok q) (hc : c ∈ q.clauses) :
    ∃ negated draft, draft.WellNamed ∧ resolve dialect now negated draft = .ok c := by
  obtain ⟨cs, hcs, rfl⟩ := read_eq_ok_iff_forall₂.1 h
  obtain ⟨content, hmem, hclause⟩ :=
    exists_mem_of_forall₂ hcs.flip (Query.mem_of_mem_ofClauses hc)
  obtain ⟨p, hp, rfl⟩ := List.mem_map.1 hmem
  obtain ⟨negated, draft, hcontent, hresolve⟩ := exists_draft_of_contentClause hclause
  exact ⟨negated, draft, wellNamed_of_mem_pieces hp hcontent, hresolve⟩

theorem admitted_of_resolve (hdraft : draft.WellNamed)
    (h : resolve dialect now negated draft = .ok c) : c.Admitted dialect := by
  cases resolve_eq_ok_iff.1 h with
  | flag name =>
    have hname : isFlagName name = true := hdraft
    simpa [Clause.Admitted] using hname
  | term => trivial
  | @field name _ _ _ hcheck hvalue =>
    have hname : isFieldName name = true := hdraft
    simpa [Clause.Admitted] using And.intro hname (And.intro hcheck (fits_of_typeWord hvalue))
  | @group name _ vs hcheck hvalues =>
    obtain ⟨hname, hws⟩ := hdraft
    have hne : vs ≠ [] := by
      rintro rfl
      exact hws (List.forall₂_nil_right_iff.1 hvalues)
    have hfits (v : Value) (hv : v ∈ vs) : v.Fits dialect name := by
      obtain ⟨w, -, hw⟩ := exists_mem_of_forall₂ hvalues.flip hv
      exact fits_of_typeWord hw
    simpa [Clause.Admitted] using And.intro hname (And.intro hcheck (And.intro hne hfits))

theorem admitted_of_read (h : Query.read dialect now text = .ok q) (hc : c ∈ q.clauses) :
    c.Admitted dialect := by
  obtain ⟨negated, draft, hdraft, hresolve⟩ := exists_draft_of_read h hc
  exact admitted_of_resolve hdraft hresolve

theorem exists_word_of_resolve (h : resolve dialect now negated draft = .ok c)
    (hv : v ∈ c.values) : ∃ name w, typeWord dialect now name w = .ok v := by
  cases resolve_eq_ok_iff.1 h with
  | flag | term => simp [Clause.values] at hv
  | @field name _ w _ _ hvalue =>
    rw [List.mem_singleton.1 hv]
    exact ⟨name, w, hvalue⟩
  | @group name _ _ _ hvalues =>
    obtain ⟨w, -, hw⟩ := exists_mem_of_forall₂ hvalues.flip hv
    exact ⟨name, w, hw⟩

theorem exists_text_of_typeWord {w : Word} {date : DateValue}
    (h : typeWord dialect now name w = .ok (.date date)) :
    ∃ text, DateValue.read? now text = some date := by
  rcases typeWord_cases dialect now name w with ⟨kind, -, htype⟩ | ⟨-, htype⟩ | ⟨-, -, -, htype⟩
  · rw [htype] at h
    rcases typeAs_eq_ok h with ⟨-, hv⟩ | ⟨-, x, hv, -⟩ | ⟨-, b, hv⟩ | ⟨-, d', hv, hread⟩
    · simp at hv
    · simp at hv
    · simp at hv
    · obtain rfl := Value.date.inj hv
      exact ⟨w.text, hread⟩
  · simp [htype] at h
  · rw [htype] at h
    rcases ofWord_cases w.text with ⟨b, hb⟩ | ⟨x, hx, -⟩ | htext <;> simp_all

end Origin

/-- The value is kept when it is written and read. -/
def Value.IsFaithful : Value → Prop
  | number x => x.isFinite = true
  | date d => d.instant.fraction = 0 ∧ d.IsWritable
  | _ => True

instance (v : Value) : Decidable v.IsFaithful :=
  match v with
  | .number x => inferInstanceAs (Decidable (x.isFinite = true))
  | .date d => inferInstanceAs (Decidable (d.instant.fraction = 0 ∧ d.IsWritable))
  | .text _ | .bool _ => isTrue trivial

def Clause.IsFaithful (c : Clause) : Prop :=
  c.runsTogether = false ∧ ∀ v ∈ c.values, v.IsFaithful

instance (c : Clause) : Decidable c.IsFaithful := inferInstanceAs (Decidable (_ ∧ _))

section Dates

variable {date : DateValue} {cs : List Char}

theorem keepsDate_of_read (h : DateValue.read? now cs = some date) :
    (Value.date date).KeepsDate now := by
  intro d' hread
  by_cases hw : date.IsWritable
  · obtain ⟨e, he, hsame⟩ := read?_write_of_isWritable h hw
    rw [he] at hread
    exact Option.some.inj hread ▸ hsame
  · rw [read?_write_of_not_isWritable h hw] at hread
    simp at hread

theorem legible_iff_of_read (h : DateValue.read? now cs = some date) :
    (Value.date date).Legible now ↔ (Value.date date).IsFaithful := by
  constructor
  · rintro ⟨d', hread, hsame⟩
    have hw : date.IsWritable := by
      by_contra hw
      rw [read?_write_of_not_isWritable h hw] at hread
      simp at hread
    refine ⟨?_, hw⟩
    have hkept := (DateValue.beq_iff.1 (keepsDate_of_read h d' hread)).1
    rw [← (DateValue.beq_iff.1 hsame).1, hkept]
    exact Instant.fraction_dropFraction _
  · rintro ⟨hfraction, hw⟩
    obtain ⟨d', hread, hsame⟩ := read?_write_of_isWritable h hw
    rw [Instant.dropFraction_of_fraction hfraction] at hsame
    exact ⟨d', hread, hsame⟩

end Dates

/-- What the values of a query that was read were typed from. -/
theorem exists_word_of_read (h : Query.read dialect now text = .ok q) (hc : c ∈ q.clauses)
    (hv : v ∈ c.values) : ∃ name w, typeWord dialect now name w = .ok v := by
  obtain ⟨negated, draft, -, hresolve⟩ := exists_draft_of_read h hc
  exact exists_word_of_resolve hresolve hv

theorem survives_iff_isFaithful (h : Query.read dialect now text = .ok q) (hc : c ∈ q.clauses) :
    c.Survives now ↔ c.IsFaithful := by
  have hlegible (v : Value) (hv : v ∈ c.values) : v.Legible now ↔ v.IsFaithful := by
    cases v with
    | text | bool | number => exact Iff.rfl
    | date date =>
      obtain ⟨name, w, hw⟩ := exists_word_of_read h hc hv
      obtain ⟨cs, hcs⟩ := exists_text_of_typeWord hw
      exact legible_iff_of_read hcs
  constructor
  · rintro ⟨hrun, hvalues⟩
    exact ⟨hrun, fun v hv => (hlegible v hv).1 (hvalues v hv)⟩
  · rintro ⟨hrun, hvalues⟩
    exact ⟨hrun, fun v hv => (hlegible v hv).2 (hvalues v hv)⟩

/-- A query that was read is read again with the same clauses exactly if its clauses are
faithful. -/
theorem read_write_read_iff (hd : dialect.delimiter = '"')
    (h : Query.read dialect now text = .ok q) :
    (∃ q', Query.read dialect now (q.write now) = .ok q' ∧ q'.sameClauses q = true) ↔
      ∀ c ∈ q.clauses, c.IsFaithful := by
  have hadm : ∀ c ∈ q.clauses, c.Admitted dialect := fun c hc => admitted_of_read h hc
  have hdistinct : Query.Distinct q.clauses := by
    obtain ⟨cs, -, rfl⟩ := read_eq_ok_iff_forall₂.1 h
    exact Query.distinct_ofClauses cs
  constructor
  · rintro ⟨q', hread, hsame⟩ c hc
    refine (survives_iff_isFaithful h hc).1 (survives_of_read_write hd hadm ?_ hread hsame c hc)
    intro e he v hv
    cases v with
    | text | number | bool => trivial
    | date date =>
      obtain ⟨name, w, hw⟩ := exists_word_of_read h he hv
      obtain ⟨cs, hcs⟩ := exists_text_of_typeWord hw
      exact keepsDate_of_read hcs
  · intro hall
    obtain ⟨q', hread, hsame⟩ := read_write_of_survives hd hadm hdistinct fun c hc =>
      (survives_iff_isFaithful h hc).2 (hall c hc)
    exact ⟨q', hread, sameClauses_of_beq hsame⟩

theorem read_write_read_schema :
    ∃ q, Query.read { schema := some { fields := [("born", .date)] } } (.midnight 0)
        "born<2024-03 size>\"=5 kg\" -is:open" = .ok q ∧
      ∃ q', Query.read { schema := some { fields := [("born", .date)] } } (.midnight 0)
        (q.write (.midnight 0)) = .ok q' ∧ q'.sameClauses q = true :=
  have hread := read_eq_ok_iff.2 ⟨by decide +kernel, rfl⟩
  ⟨_, hread, (read_write_read_iff rfl hread).2 (by decide +kernel)⟩

/-- What quotes keep from the sign is written without quotes and joins the sign. -/
theorem not_read_write_read_equals_sign :
    ∃ q, Query.read {} (.midnight 0) "a>\"=5\"" = .ok q ∧
      ¬ ∃ q', Query.read {} (.midnight 0) (q.write (.midnight 0)) = .ok q' ∧
        q'.sameClauses q = true := by
  refine ⟨_, read_eq_ok_iff.2 ⟨by decide +kernel, rfl⟩, ?_⟩
  rintro ⟨q', hread, hsame⟩
  obtain ⟨-, rfl⟩ := read_eq_ok_iff.1 hread
  exact absurd hsame (by decide +kernel)

end SearchBar
