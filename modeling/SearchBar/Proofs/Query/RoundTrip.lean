import SearchBar.Proofs.Query.Rereading

/-! # Writing and reading a query

Reading undoes writing exactly for the queries whose clauses do not run together with
their signs and whose values are legible. Every other query is lost: what is read
has other clauses, or nothing is read at all.
-/

namespace SearchBar

open Calendar Text

variable {dialect : Dialect} {now : Instant} {q q' : Query} {cs ds : List Clause}

theorem exists_mem_of_sameClauses (h : q'.sameClauses q = true) {c : Clause}
    (hc : c ∈ q.clauses) : ∃ d ∈ q'.clauses, (d == c) = true := by
  simp only [Query.sameClauses, Bool.and_eq_true, List.all_eq_true] at h
  exact List.any_eq_true.1 (h.2 c hc)

theorem size_of_sameClauses (h : q'.sameClauses q = true) : q'.size = q.size := by
  simp only [Query.sameClauses, Bool.and_eq_true] at h
  exact beq_iff_eq.1 h.1.1

theorem Query.sameClauses_comm (q r : Query) : q.sameClauses r = r.sameClauses q := by
  rw [sameClauses, sameClauses, Bool.and_right_comm, Bool.beq_comm (a := q.size)]

theorem sameClauses_of_beq (h : (q' == q) = true) : q'.sameClauses q = true := by
  have hall := beq_iff_forall₂.1 (show (q'.clauses == q.clauses) = true from h)
  simp only [Query.sameClauses, Bool.and_eq_true, List.all_eq_true, List.any_eq_true]
  refine ⟨⟨beq_iff_eq.2 hall.length_eq, fun d hd => ?_⟩, fun c hc => ?_⟩
  · obtain ⟨c, hc, hdc⟩ := exists_mem_of_forall₂ hall hd
    exact ⟨c, hc, BEq.symm hdc⟩
  · obtain ⟨d, hd, hdc⟩ := exists_mem_of_forall₂ hall.flip hc
    exact ⟨d, hd, hdc⟩

def Clause.Survives (now : Instant) (c : Clause) : Prop :=
  c.runsTogether = false ∧ ∀ v ∈ c.values, v.Legible now

theorem exists_reread_of_survives (hadm : ∀ c ∈ cs, c.Admitted dialect)
    (h : ∀ c ∈ cs, c.Survives now) :
    ∃ ds, List.Forall₂ (fun c d => c.reread dialect now = .ok d) cs ds ∧
      List.Forall₂ (fun d c : Clause => (d == c) = true) ds cs := by
  induction cs with
  | nil => exact ⟨[], .nil, .nil⟩
  | cons c cs ih =>
    obtain ⟨hc, hcs⟩ := List.forall_mem_cons.1 hadm
    obtain ⟨hsc, hscs⟩ := List.forall_mem_cons.1 h
    obtain ⟨d, hd, hsame⟩ := reread_of_legible hc hsc.1 hsc.2
    obtain ⟨ds, hds, hsames⟩ := ih hcs hscs
    exact ⟨d :: ds, .cons hd hds, .cons hsame hsames⟩

theorem ofClauses_beq (hdistinct : Query.Distinct q.clauses)
    (h : List.Forall₂ (fun d c : Clause => (d == c) = true) ds q.clauses) :
    (Query.ofClauses ds == q) = true := by
  show ((Query.ofClauses ds).clauses == q.clauses) = true
  rw [Query.clauses_ofClauses_of_distinct (Query.distinct_congr h hdistinct)]
  exact beq_iff_forall₂.2 h

theorem read_write_of_survives (hd : dialect.delimiter = '"')
    (hadm : ∀ c ∈ q.clauses, c.Admitted dialect) (hdistinct : Query.Distinct q.clauses)
    (h : ∀ c ∈ q.clauses, c.Survives now) :
    ∃ q', Query.read dialect now (q.write now) = .ok q' ∧ (q' == q) = true := by
  obtain ⟨ds, hds, hsame⟩ := exists_reread_of_survives hadm h
  exact ⟨_, (read_write_eq_ok_iff hd (fun c hc => (hadm c hc).wellNamed) now).2 ⟨ds, hds, rfl⟩,
    ofClauses_beq hdistinct hsame⟩

theorem survives_of_read_write (hd : dialect.delimiter = '"')
    (hadm : ∀ c ∈ q.clauses, c.Admitted dialect)
    (hdates : ∀ c ∈ q.clauses, ∀ v ∈ c.values, v.KeepsDate now)
    (hread : Query.read dialect now (q.write now) = .ok q') (hsame : q'.sameClauses q = true) :
    ∀ c ∈ q.clauses, c.Survives now := by
  obtain ⟨ds, hds, rfl⟩ :=
    (read_write_eq_ok_iff hd (fun c hc => (hadm c hc).wellNamed) now).1 hread
  have hclauses : (Query.ofClauses ds).clauses = ds := by
    refine Query.clauses_ofClauses_of_size ((size_of_sameClauses hsame).trans ?_)
    exact hds.length_eq
  have horigin : ∀ c ∈ q.clauses, ∃ e ∈ q.clauses, ∃ d, e.reread dialect now = .ok d ∧
      (d == c) = true := by
    intro c hc
    obtain ⟨d, hd, hdc⟩ := exists_mem_of_sameClauses hsame hc
    rw [hclauses] at hd
    obtain ⟨e, he, hed⟩ := exists_mem_of_forall₂ hds.flip hd
    exact ⟨e, he, d, hed, hdc⟩
  have hruns : ∀ c ∈ q.clauses, c.runsTogether = false := by
    intro c hc
    obtain ⟨e, he, d, hd, hdc⟩ := horigin c hc
    rw [← runsTogether_of_beq hdc]
    exact reread_runsTogether (hadm e he) hd
  refine fun c hc => ⟨hruns c hc, fun v hv => ?_⟩
  obtain ⟨e, he, d, hd, hdc⟩ := horigin c hc
  obtain ⟨u, hu, huv⟩ := exists_mem_of_forall₂ (values_of_beq hdc).flip hv
  obtain ⟨name, hvalues⟩ := reread_values (hadm e he) (hruns e he) hd
  obtain ⟨w, hw, hfits, htype⟩ := exists_mem_of_forall₂ hvalues.flip hu
  have hsettled := typeWord_settled hfits (hdates e he w hw) htype
  obtain ⟨d', -, hd'⟩ := exists_mem_of_forall₂ hds hc
  obtain ⟨name', hvalues'⟩ := reread_values (hadm c hc) (hruns c hc) hd'
  obtain ⟨v', -, hfits', htype'⟩ := exists_mem_of_forall₂ hvalues' hv
  exact legible_of_settled hfits' (hdates c hc v hv) htype' hsettled huv

section Written

/-- The clause can be written: its names are names that are read, `is` is no field, a
choice offers something, and values are texts, numbers or truth values. -/
def Clause.Writable : Clause → Prop
  | term _ _ => True
  | field n _ v _ => takeFieldName? n.toList = some (n.toList, []) ∧
      isReserved n.toList = false ∧ ∀ d, v ≠ .date d
  | oneOf n vs _ => takeFieldName? n.toList = some (n.toList, []) ∧
      isReserved n.toList = false ∧ vs ≠ [] ∧ ∀ v ∈ vs, ∀ d, v ≠ .date d
  | flag n _ => n.toList ≠ [] ∧ ∀ c ∈ n.toList, isNameChar c = true

variable {c : Clause} {v : Value} {name : List Char} {op : Operator}

theorem fits_default (h : ∀ d, v ≠ .date d) : v.Fits {} name := by
  cases v with
  | text s => exact .inl rfl
  | number x => exact .inl ⟨rfl, rfl⟩
  | bool b => exact .inl ⟨rfl, rfl⟩
  | date d => exact absurd rfl (h d)

theorem checkField_default (h : isReserved name = false) : checkField {} name op = .ok () := by
  simp [checkField, h, Dialect.refuses, Dialect.allows]

theorem Clause.Writable.admitted (h : c.Writable) : c.Admitted {} := by
  cases c with
  | term => trivial
  | flag n m => simpa [Admitted, isFlagName, Writable] using h
  | field n op v m =>
    obtain ⟨hn, hr, hv⟩ := h
    exact ⟨(takeFieldName_eq_some_iff.1 hn).2.1, checkField_default hr, fits_default hv⟩
  | oneOf n vs m =>
    obtain ⟨hn, hr, hne, hvs⟩ := h
    exact ⟨(takeFieldName_eq_some_iff.1 hn).2.1, checkField_default hr, hne,
      fun v hv => fits_default (hvs v hv)⟩

theorem Clause.Writable.ne_date (h : c.Writable) (hv : v ∈ c.values) (d : DateValue) :
    v ≠ .date d := by
  cases c with
  | term | flag => simp [values] at hv
  | field n op u m =>
    rw [List.mem_singleton.1 hv]
    exact h.2.2 d
  | oneOf n vs m => exact h.2.2.2 v hv d

theorem survives_iff (h : c.Writable) : c.Survives now ↔
    (∀ x, .number x ∈ c.values → x.isFinite = true) ∧
      ∀ n op s m, c = .field n op (.text s) m → op = .gt ∨ op = .lt → s.toList.head? = some '=' →
        ∃ a ∈ s.toList, isBlank a = true ∨ a ∈ specials := by
  constructor
  · rintro ⟨hrun, hv⟩
    refine ⟨fun x hx => hv _ hx, ?_⟩
    rintro n op s m rfl hop hhead
    by_contra hplain
    push Not at hplain
    have hinto : (Value.text s).runsInto op = true :=
      Value.runsInto_iff.2 ⟨hop, s, rfl, hhead, by simpa using hplain⟩
    exact absurd hinto (Bool.eq_false_iff.1 hrun)
  · rintro ⟨hfinite, hsign⟩
    refine ⟨Bool.eq_false_iff.2 fun hrun => ?_, fun v hv => ?_⟩
    · cases c with
      | term | oneOf | flag => simp [Clause.runsTogether] at hrun
      | field n op v m =>
        obtain ⟨hop, s, rfl, hhead, hplain⟩ := Value.runsInto_iff.1 hrun
        obtain ⟨a, ha, hblank | hspecial⟩ := hsign n op s m rfl hop hhead
        · simp [(hplain a ha).1] at hblank
        · exact (hplain a ha).2 hspecial
    · cases v with
      | text | bool => trivial
      | number x => exact hfinite x hv
      | date d => exact absurd rfl (h.ne_date hv d)

/-- A query of clauses that can be written is read back, with the same clauses in the same
order, unless it has a number that is not finite, or a comparison by `>` or `<` with a
bare text that begins with an equals sign. -/
theorem read_write_eq_iff (now : Instant) (h : ∀ c ∈ cs, c.Writable) :
    (∃ q, Query.read {} now ((Query.ofClauses cs).write now) = .ok q ∧
        (q == Query.ofClauses cs) = true) ↔
      ∀ c ∈ (Query.ofClauses cs).clauses, (∀ x, .number x ∈ c.values → x.isFinite = true) ∧
        ∀ n op s m, c = .field n op (.text s) m → op = .gt ∨ op = .lt →
          s.toList.head? = some '=' → ∃ a ∈ s.toList, isBlank a = true ∨ a ∈ specials := by
  have hwritable : ∀ c ∈ (Query.ofClauses cs).clauses, c.Writable := fun c hc =>
    h c (Query.mem_of_mem_ofClauses hc)
  have hadm : ∀ c ∈ (Query.ofClauses cs).clauses, c.Admitted {} := fun c hc =>
    (hwritable c hc).admitted
  constructor
  · rintro ⟨q, hread, hsame⟩ c hc
    refine (survives_iff (hwritable c hc)).1
      (survives_of_read_write rfl hadm ?_ hread (sameClauses_of_beq hsame) c hc)
    intro e he v hv
    cases v with
    | text | number | bool => trivial
    | date d => exact absurd rfl ((hwritable e he).ne_date hv d)
  · intro hall
    exact read_write_of_survives rfl hadm (Query.distinct_ofClauses cs) fun c hc =>
      (survives_iff (hwritable c hc)).2 (hall c hc)

/-- A text with a blank is quoted, so the equals sign stays with it; a bare one loses it. -/
theorem read_write_equals_sign :
    (∃ q, Query.read {} (.midnight 0) ((Query.ofClauses [.term "or" true,
        .field "size" .gt (.text "=5 kg") false]).write (.midnight 0)) = .ok q ∧
      (q == Query.ofClauses [.term "or" true, .field "size" .gt (.text "=5 kg") false]) = true) ∧
    ¬ ∃ q, Query.read {} (.midnight 0) ((Query.ofClauses [.field "size" .gt (.text "=5")
        true]).write (.midnight 0)) = .ok q ∧
      (q == Query.ofClauses [.field "size" .gt (.text "=5") true]) = true := by
  have hsize : takeFieldName? "size".toList = some ("size".toList, []) := by decide
  have hreserved : isReserved "size".toList = false := by decide
  constructor
  · refine (read_write_eq_iff (.midnight 0) ?_).2 ?_
    · simp only [List.forall_mem_cons]
      exact ⟨trivial, ⟨hsize, hreserved, by simp⟩, by simp⟩
    · intro c hc
      have hmem := Query.mem_of_mem_ofClauses hc
      simp only [List.mem_cons, List.not_mem_nil, or_false] at hmem
      rcases hmem with rfl | rfl
      · exact ⟨by simp [Clause.values], by simp⟩
      · refine ⟨by simp [Clause.values], ?_⟩
        rintro n op s m heq - -
        cases heq
        exact ⟨' ', by decide, .inl (by decide)⟩
  · intro hread
    have hgood := (read_write_eq_iff (.midnight 0) (by
      simp only [List.forall_mem_cons]
      exact ⟨⟨hsize, hreserved, by simp⟩, by simp⟩)).1 hread
    obtain ⟨a, ha, hcase⟩ := (hgood _ List.mem_cons_self).2 "size" .gt "=5" true rfl (.inl rfl) rfl
    have hplain : ("=5".toList.all fun a => !isBlank a && !specials.contains a) = true := by decide
    have hfree := List.all_eq_true.1 hplain a ha
    simp only [Bool.and_eq_true, Bool.not_eq_true', List.contains_eq_mem,
      decide_eq_false_iff_not] at hfree
    rcases hcase with hblank | hspecial
    · simp [hfree.1] at hblank
    · exact hfree.2 hspecial

end Written

end SearchBar
