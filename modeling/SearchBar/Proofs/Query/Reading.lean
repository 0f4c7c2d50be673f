import SearchBar.Proofs.Calls
import SearchBar.Proofs.Query.Adding
import SearchBar.Proofs.Query.Pieces

/-! # Reading by pieces

What reading a text gives is put together from what its pieces give. A text is read
without diagnostics if every piece gives a clause.
-/

namespace SearchBar

open Calendar Text

variable {dialect : Dialect} {now : Instant} {text : String} {q : Query} {c : Clause}
  {negated : Bool} {name : List Char}

def Piece.diagnostic? (dialect : Dialect) (now : Instant) (text : List Char) (p : Piece) :
    Option Diagnostic :=
  match p.clause dialect now with
  | .ok _ => none
  | .error f => some (.within text p.start p.stop f.rule f.message)

def contentClause (dialect : Dialect) (now : Instant) (content : Except Fault (Bool × Draft)) :
    Except Fault Clause :=
  content.bind fun s => resolve dialect now s.1 s.2

theorem exists_draft_of_contentClause {content : Except Fault (Bool × Draft)}
    (h : contentClause dialect now content = .ok c) : ∃ negated draft,
      content = .ok (negated, draft) ∧ resolve dialect now negated draft = .ok c := by
  cases content with
  | error f => simp [contentClause, Except.bind] at h
  | ok s => exact ⟨s.1, s.2, rfl, h⟩

def Piece.clause? (dialect : Dialect) (now : Instant) (p : Piece) : Option Clause :=
  (p.clause dialect now).toOption

theorem Piece.clause?_eq_some_iff {p : Piece} :
    p.clause? dialect now = some c ↔ p.clause dialect now = .ok c := by
  unfold Piece.clause?
  cases p.clause dialect now <;> simp [Except.toOption]

@[simp] theorem Piece.clause_shift (k : Nat) (p : Piece) :
    (p.shift k).clause dialect now = p.clause dialect now := rfl

theorem Piece.exists_draft_of_clause {p : Piece} (h : p.clause dialect now = .ok c) :
    ∃ negated draft, p.content = .ok (negated, draft) ∧
      resolve dialect now negated draft = .ok c :=
  exists_draft_of_contentClause h

theorem Piece.content_ok_of_clause {p : Piece} (h : p.clause dialect now = .ok c) :
    ∃ s, p.content = .ok s := by
  obtain ⟨negated, draft, hcontent, -⟩ := Piece.exists_draft_of_clause h
  exact ⟨(negated, draft), hcontent⟩

theorem Piece.diagnostic?_eq_none_iff {cs : List Char} {p : Piece} :
    p.diagnostic? dialect now cs = none ↔ ∃ c, p.clause dialect now = .ok c := by
  unfold Piece.diagnostic?
  cases p.clause dialect now <;> simp

theorem query_readAll (dialect : Dialect) (now : Instant) (text : String) :
    (Query.readAll dialect now text).query =
      .ofClauses ((pieces dialect.delimiter 0 text.toList).filterMap (·.clause? dialect now)) := rfl

theorem diagnostics_readAll (dialect : Dialect) (now : Instant) (text : String) :
    (Query.readAll dialect now text).diagnostics =
      (pieces dialect.delimiter 0 text.toList).filterMap (·.diagnostic? dialect now text.toList) :=
  rfl

theorem offset_within {text : List Char} {start stop : Nat} (h : start ≤ stop)
    (h' : stop ≤ byteLength text) (rule message : String) :
    (Diagnostic.within text start stop rule message).start.offset = start ∧
      (Diagnostic.within text start stop rule message).stop.offset = stop := by
  rw [Diagnostic.within_eq h h']
  exact ⟨Position.offset_at (Nat.le_trans h h'), Position.offset_at h'⟩

theorem diagnostics_readAll_eq_nil_iff : (Query.readAll dialect now text).diagnostics = [] ↔
    ∀ p ∈ pieces dialect.delimiter 0 text.toList, ∃ c, p.clause dialect now = .ok c := by
  simp only [diagnostics_readAll, List.filterMap_eq_nil_iff, Piece.diagnostic?_eq_none_iff]

theorem read_eq_ok_iff : Query.read dialect now text = .ok q ↔
    (Query.readAll dialect now text).diagnostics = [] ∧
      (Query.readAll dialect now text).query = q := by
  unfold Query.read
  simp only [List.isEmpty_iff]
  split
  · rename_i h
    simp [h]
  · rename_i h
    simp [h]

theorem filterMap_clause? (dialect : Dialect) (now : Instant) (ps : List Piece) :
    ps.filterMap (·.clause? dialect now) =
      (ps.map (·.content)).filterMap fun s => (contentClause dialect now s).toOption := by
  rw [List.filterMap_map]
  rfl

/-- A text is read piece by piece. -/
theorem read_eq_ok_iff_forall₂ : Query.read dialect now text = .ok q ↔
    ∃ cs, List.Forall₂ (fun s c => contentClause dialect now s = .ok c)
      ((pieces dialect.delimiter 0 text.toList).map (·.content)) cs ∧ q = .ofClauses cs := by
  rw [read_eq_ok_iff, diagnostics_readAll_eq_nil_iff, query_readAll, filterMap_clause?]
  simp only [forall₂_ok_iff, List.forall_mem_map]
  constructor
  · rintro ⟨h, rfl⟩
    exact ⟨_, ⟨h, rfl⟩, rfl⟩
  · rintro ⟨_, ⟨h, rfl⟩, rfl⟩
    exact ⟨h, rfl⟩

theorem checkField_eq_ok_iff {op : Operator} : checkField dialect name op = .ok () ↔
    isReserved name = false ∧ dialect.refuses (String.ofList name) = false ∧
      dialect.allows op = true := by
  unfold checkField
  split
  · simp [*]
  · split
    · simp [*]
    · split <;> simp_all

/-- The ways in which a draft gives a clause. No draft without a value does. -/
inductive Resolves (dialect : Dialect) (now : Instant) (negated : Bool) : Draft → Clause → Prop
  | flag (name : List Char) :
      Resolves dialect now negated (.flag name) (.flag (String.ofList name) !negated)
  | term (w : Word) :
      Resolves dialect now negated (.term w) (.term (String.ofList w.text) !negated)
  | field {name : List Char} {op : Operator} {w : Word} {v : Value}
      (hcheck : checkField dialect name op = .ok ())
      (hvalue : typeWord dialect now name w = .ok v) :
      Resolves dialect now negated (.field name op w) (.field (String.ofList name) op v !negated)
  | group {name : List Char} {ws : List Word} {vs : List Value}
      (hcheck : checkField dialect name .eq = .ok ())
      (hvalues : List.Forall₂ (fun w v => typeWord dialect now name w = .ok v) ws vs) :
      Resolves dialect now negated (.group name ws) (.oneOf (String.ofList name) vs !negated)

theorem resolve_eq_ok_iff {draft : Draft} :
    resolve dialect now negated draft = .ok c ↔ Resolves dialect now negated draft c := by
  constructor
  · intro h
    cases draft with
    | flag name => exact Except.ok.inj h ▸ .flag name
    | term w => exact Except.ok.inj h ▸ .term w
    | missing => simp [resolve] at h
    | field name op w =>
      obtain ⟨⟨⟩, hcheck, h⟩ := bind_eq_ok_iff.1 h
      obtain ⟨v, hvalue, h⟩ := bind_eq_ok_iff.1 h
      exact Except.ok.inj h ▸ .field hcheck hvalue
    | group name ws =>
      obtain ⟨⟨⟩, hcheck, h⟩ := bind_eq_ok_iff.1 h
      obtain ⟨vs, hvalues, h⟩ := bind_eq_ok_iff.1 h
      exact Except.ok.inj h ▸ .group hcheck (mapM_eq_ok_iff.1 hvalues)
  · intro h
    cases h with
    | flag | term => rfl
    | field hcheck hvalue =>
      exact bind_eq_ok_iff.2 ⟨(), hcheck, bind_eq_ok_iff.2 ⟨_, hvalue, rfl⟩⟩
    | group hcheck hvalues =>
      exact bind_eq_ok_iff.2
        ⟨(), hcheck, bind_eq_ok_iff.2 ⟨_, mapM_eq_ok_iff.2 hvalues, rfl⟩⟩

theorem typeWord_of_schema_eq_none (h : dialect.schema = none) (now now' : Instant)
    (name : List Char) : typeWord dialect now name = typeWord dialect now' name := by
  funext w
  have hkind : dialect.kind? (String.ofList name) = none := by rw [Dialect.kind?, h]; rfl
  simp only [typeWord, hkind]

/-- Without declared fields a text is read in the same way at any time. -/
theorem read_of_schema_eq_none (h : dialect.schema = none) (now now' : Instant) (text : String) :
    Query.read dialect now text = Query.read dialect now' text := by
  have hclause (p : Piece) : p.clause dialect now = p.clause dialect now' := by
    have hresolve (negated : Bool) (draft : Draft) :
        resolve dialect now negated draft = resolve dialect now' negated draft := by
      cases draft <;> simp only [resolve, typeWord_of_schema_eq_none h now now']
    simp only [Piece.clause, hresolve]
  have hall : Query.readAll dialect now text = Query.readAll dialect now' text := by
    simp only [Query.readAll, hclause]
  rw [Query.read, Query.read, hall]

end SearchBar
