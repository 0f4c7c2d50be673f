import SearchBar.Proofs.Number.Range
import SearchBar.Proofs.Query.Conformance
import SearchBar.Proofs.Query.Faithful

/-! # Finite numbers

Numbers are read by two ways. A word of a declared number field is refused unless it is a
finite number. A bare word of a field that is not declared is rounded without such a check,
so a numeral beyond the range of the format gives an infinite number. No word gives a NaN.
-/

namespace SearchBar

open Calendar Text

variable {dialect : Dialect} {now : Instant} {text : String} {c : Clause} {v : Value} {w : Word}
  {draft : Draft} {negated : Bool} {name : List Char}

def Value.IsFinite : Value → Prop
  | number x => x.isFinite = true
  | _ => True

instance (v : Value) : Decidable v.IsFinite :=
  match v with
  | .number x => inferInstanceAs (Decidable (x.isFinite = true))
  | .text _ | .bool _ | .date _ => isTrue trivial

/-- What a value is that compiles to JSON and is written as what it is. -/
structure Value.IsProper (v : Value) : Prop where
  finite : v.IsFinite
  not_null : v.toJson ≠ .null
  numeral : ∀ x, v = .number x → ∃ n, Decimal.readPlain? x.plainText = some n

/-- If the word is typed as a number for want of a declaration, the number is in range. -/
def Word.InRange (dialect : Dialect) (name : List Char) (w : Word) : Prop :=
  dialect.kind? (String.ofList name) = none → dialect.typing = .infer → w.quoted = false →
    ∀ n, Decimal.readPlain? w.text = some n → n.InRange

def Draft.InRange (dialect : Dialect) : Draft → Prop
  | field name _ w => w.InRange dialect name
  | group name ws => ∀ w ∈ ws, w.InRange dialect name
  | _ => True

section Values

theorem Value.isProper_iff : v.IsProper ↔ v.IsFinite := by
  refine ⟨fun h => h.finite, fun h => ⟨h, ?_, ?_⟩⟩
  · cases v with
    | number x =>
      have hfinite : x.isFinite = true := h
      simp [toJson, Json.ofBinary64, hfinite]
    | text | bool | date => simp [toJson]
  · rintro x rfl
    obtain ⟨n, hn, -⟩ := Option.map_eq_some_iff.1 (Binary64.readPlain?_plainText h)
    exact ⟨n, hn⟩

theorem Value.isFinite_of_beq {u : Value} (h : (u == v) = true) (hu : u.IsFinite) :
    v.IsFinite := by
  cases v with
  | text | bool | date => trivial
  | number y =>
    cases u with
    | number x => exact SearchBar.isFinite_of_beq h hu
    | text | bool | date => simp [Value.beq_def, Value.same] at h

theorem Binary64.beq_self {x : Binary64} (h : x ≠ nan) : (x == x) = true := by
  cases x with
  | nan => exact absurd rfl h
  | finite s k => exact beq_self_of_isFinite rfl
  | infinite s => cases s <;> exact beq_iff.2 ⟨_, rfl, rfl⟩

theorem Value.beq_self (h : v ≠ .number .nan) : (v == v) = true := by
  cases v with
  | text s => exact beq_self_eq_true s
  | bool b => exact beq_self_eq_true b
  | date d => exact DateValue.beq_iff.2 ⟨rfl, rfl⟩
  | number x => exact Binary64.beq_self fun hx => h (congrArg number hx)

theorem Clause.beq_self (h : ∀ v ∈ c.values, v ≠ .number .nan) : (c == c) = true := by
  cases c with
  | term | flag => simp [Clause.beq_def, same]
  | field n op v m => simpa [Clause.beq_def, same] using Value.beq_self (h v (List.mem_singleton_self v))
  | oneOf n vs m =>
    have hvs : (vs == vs) = true :=
      beq_iff_forall₂.2 (List.forall₂_same.2 fun v hv => Value.beq_self (h v hv))
    simp [Clause.beq_def, same, hvs]

theorem typeWord_of_readPlain {n : Decimal} (hkind : dialect.kind? (String.ofList name) = none)
    (htyping : dialect.typing = .infer) (hquoted : w.quoted = false)
    (hn : Decimal.readPlain? w.text = some n) :
    typeWord dialect now name w = .ok (.number n.toBinary64) := by
  have hread : Binary64.readPlain? w.text = some n.toBinary64 := by
    rw [Binary64.readPlain?, hn, Option.map_some]
  rw [typeWord_of_infer hkind htyping hquoted, ofWord_of_readPlain hread]

/-- What a word is typed as is finite exactly if the word is in range. -/
theorem isFinite_iff_of_typeWord (h : typeWord dialect now name w = .ok v) :
    v.IsFinite ↔ w.InRange dialect name := by
  constructor
  · intro hv hkind htyping hquoted n hn
    obtain rfl := Except.ok.inj ((typeWord_of_readPlain hkind htyping hquoted hn).symm.trans h)
    exact n.isFinite_toBinary64.1 hv
  · intro hw
    rcases typeWord_cases dialect now name w with
      ⟨kind, -, htype⟩ | ⟨-, htype⟩ | ⟨hkind, htyping, hquoted, htype⟩
    · cases Value.ofKind_of_typeAs (htype.symm.trans h) with
      | number hx => exact hx
      | text | bool | date => trivial
    · obtain rfl := Except.ok.inj (htype.symm.trans h)
      trivial
    · obtain rfl := Except.ok.inj (htype.symm.trans h)
      rcases ofWord_cases w.text with ⟨b, hb⟩ | ⟨x, hx, hread⟩ | htext
      · rw [hb]
        trivial
      · obtain ⟨n, hn, rfl⟩ := Option.map_eq_some_iff.1 hread
        rw [hx]
        exact n.isFinite_toBinary64.2 (hw hkind htyping hquoted n hn)
      · rw [htext]
        trivial

theorem ne_nan_of_typeWord (h : typeWord dialect now name w = .ok v) : v ≠ .number .nan := by
  rintro rfl
  rcases typeWord_cases dialect now name w with ⟨kind, -, htype⟩ | ⟨-, htype⟩ | ⟨-, -, -, htype⟩
  · cases Value.ofKind_of_typeAs (htype.symm.trans h) with
    | number hx => simp [Binary64.isFinite] at hx
  · simp [htype] at h
  · have hword := Except.ok.inj (htype.symm.trans h)
    rcases ofWord_cases w.text with ⟨b, hb⟩ | ⟨x, hx, hread⟩ | htext
    · simp [hb] at hword
    · obtain ⟨n, -, rfl⟩ := Option.map_eq_some_iff.1 hread
      rw [hx] at hword
      exact n.toBinary64_ne_nan (Value.number.inj hword)
    · simp [htext] at hword

end Values

section Readings

theorem ne_nan_of_resolve (h : resolve dialect now negated draft = .ok c) (hv : v ∈ c.values) :
    v ≠ .number .nan := by
  obtain ⟨name, w, hw⟩ := exists_word_of_resolve h hv
  exact ne_nan_of_typeWord hw

theorem forall_iff_of_forall₂ {α β : Type} {R : α → β → Prop} {p : α → Prop} {q : β → Prop}
    {as : List α} {bs : List β} (h : List.Forall₂ R as bs) (hpq : ∀ a b, R a b → (p a ↔ q b)) :
    (∀ a ∈ as, p a) ↔ ∀ b ∈ bs, q b := by
  induction h with
  | nil => simp
  | cons hab _ ih => rw [List.forall_mem_cons, List.forall_mem_cons, hpq _ _ hab, ih]

theorem isFinite_iff_of_resolve (h : resolve dialect now negated draft = .ok c) :
    (∀ v ∈ c.values, v.IsFinite) ↔ draft.InRange dialect := by
  cases resolve_eq_ok_iff.1 h with
  | flag | term => simp [Clause.values, Draft.InRange]
  | field _ hvalue => exact List.forall_mem_singleton.trans (isFinite_iff_of_typeWord hvalue)
  | group _ hvalues =>
    exact (forall_iff_of_forall₂ hvalues fun w v hw => (isFinite_iff_of_typeWord hw).symm).symm

/-- A clause of a piece that has values is kept in the query, up to equality. -/
theorem any_clauses_readAll {p : Piece} (hp : p ∈ pieces dialect.delimiter 0 text.toList)
    (h : p.clause dialect now = .ok c) (hflag : c.isFlag = false) (hself : (c == c) = true) :
    (Query.readAll dialect now text).query.clauses.any (· == c) = true := by
  rw [query_readAll]
  refine Query.any_foldl_add hflag (.inr (List.any_eq_true.2 ⟨c, ?_, hself⟩))
  exact List.mem_filterMap.2 ⟨p, hp, Piece.clause?_eq_some_iff.2 h⟩

end Readings

/-- No number that is read of any text is a NaN. All of them are finite, none is null in
JSON and all are written as numerals, exactly if the bare numerals of fields that are not
declared are in range, in every piece of the text that gives a clause. -/
theorem numbers_proper_iff (dialect : Dialect) (now : Instant) (text : String) :
    (∀ c ∈ (Query.readAll dialect now text).query.clauses, ∀ v ∈ c.values, v ≠ .number .nan) ∧
      ((∀ c ∈ (Query.readAll dialect now text).query.clauses, ∀ v ∈ c.values, v.IsProper) ↔
        ∀ p ∈ pieces dialect.delimiter 0 text.toList, ∀ negated draft c,
          p.content = .ok (negated, draft) → p.clause dialect now = .ok c →
            draft.InRange dialect) := by
  have horigin {c : Clause} (hc : c ∈ (Query.readAll dialect now text).query.clauses) :
      ∃ p ∈ pieces dialect.delimiter 0 text.toList, ∃ negated draft,
        p.content = .ok (negated, draft) ∧ p.clause dialect now = .ok c := by
    rw [query_readAll] at hc
    obtain ⟨p, hp, hclause⟩ := List.mem_filterMap.1 (Query.mem_of_mem_ofClauses hc)
    have hclause := Piece.clause?_eq_some_iff.1 hclause
    obtain ⟨⟨negated, draft⟩, hcontent⟩ := Piece.content_ok_of_clause hclause
    exact ⟨p, hp, negated, draft, hcontent, hclause⟩
  have hresolve {p : Piece} {negated : Bool} {draft : Draft} {c : Clause}
      (hcontent : p.content = .ok (negated, draft)) (hclause : p.clause dialect now = .ok c) :
      resolve dialect now negated draft = .ok c := by
    rwa [Piece.clause, hcontent] at hclause
  simp only [Value.isProper_iff]
  refine ⟨fun c hc v hv => ?_, fun h p hp negated draft c hcontent hclause => ?_,
    fun h c hc => ?_⟩
  · obtain ⟨p, -, negated, draft, hcontent, hclause⟩ := horigin hc
    exact ne_nan_of_resolve (hresolve hcontent hclause) hv
  · refine (isFinite_iff_of_resolve (hresolve hcontent hclause)).1 ?_
    cases hflag : c.isFlag with
    | true => cases c <;> simp [Clause.isFlag, Clause.values] at hflag ⊢
    | false =>
      have hself := Clause.beq_self fun v hv => ne_nan_of_resolve (hresolve hcontent hclause) hv
      obtain ⟨e, he, hec⟩ := List.any_eq_true.1 (any_clauses_readAll hp hclause hflag hself)
      intro v hv
      obtain ⟨u, hu, huv⟩ := exists_mem_of_forall₂ (values_of_beq hec).flip hv
      exact Value.isFinite_of_beq huv (h e he u hu)
  · obtain ⟨p, hp, negated, draft, hcontent, hclause⟩ := horigin hc
    exact (isFinite_iff_of_resolve (hresolve hcontent hclause)).2
      (h p hp negated draft c hcontent hclause)

/-- A one and three hundred and nine zeros, without a fault, are an infinite number. -/
theorem not_proper_long_numeral :
    let text := String.ofList ("a:1".toList ++ List.replicate 309 '0')
    (Query.readAll {} (.midnight 0) text).diagnostics.isEmpty = true ∧
      ¬ ∀ c ∈ (Query.readAll {} (.midnight 0) text).query.clauses, ∀ v ∈ c.values,
        v.IsProper := by
  simp only [Value.isProper_iff, Query.readAll, String.toList_ofList]
  decide +kernel

end SearchBar
