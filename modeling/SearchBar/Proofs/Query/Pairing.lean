import Mathlib.Data.Fintype.EquivFin
import SearchBar.Proofs.Query.Finite

/-! # Pairing the clauses of two queries

No two clauses of a query are equal, so two queries of one size in which every clause has an
equal one in the other query have their clauses in pairs. A clause with a NaN differs from
itself and is in no pair.
-/

namespace SearchBar

open Calendar

variable {c e : Clause}

def Clause.IsNanFree (c : Clause) : Prop := ∀ v ∈ c.values, v ≠ .number .nan

theorem Clause.isNanFree_of_beq (h : (c == e) = true) : c.IsNanFree := by
  rintro v hv rfl
  obtain ⟨w, -, hvw⟩ := exists_mem_of_forall₂ (values_of_beq h) hv
  cases w with
  | number x =>
    obtain ⟨k, hk, -⟩ := Binary64.beq_iff.1 hvw
    simp [Binary64.key] at hk
  | text | bool | date => simp [Value.beq_def, Value.same] at hvw

theorem Clause.clashes_of_beq (h : (e == c) = true) : c.clashes e = true := by
  cases hflag : c.isFlag with
  | false => rw [clashes_of_not_isFlag hflag, h]
  | true =>
    cases c with
    | flag n m => simp [eq_flag_of_beq (BEq.symm h), clashes, setsFlag]
    | term | field | oneOf => simp [isFlag] at hflag

namespace Query

variable {a b q : Query} {cs : List Clause}

def IsNanFree (q : Query) : Prop := ∀ c ∈ q.clauses, c.IsNanFree

/-- The queries that are made of clauses without NaN, or read of a text. -/
inductive IsMade : Query → Prop
  | ofClauses {cs : List Clause} (h : ∀ c ∈ cs, c.IsNanFree) : IsMade (ofClauses cs)
  | readAll (dialect : Dialect) (now : Instant) (text : String) :
      IsMade (readAll dialect now text).query

theorem IsMade.distinct (h : IsMade q) : Distinct q.clauses := by
  cases h with
  | ofClauses => exact distinct_ofClauses _
  | readAll => exact distinct_ofClauses _

theorem isNanFree_readAll (dialect : Dialect) (now : Instant) (text : String) :
    (readAll dialect now text).query.IsNanFree := by
  intro c hc v hv
  obtain ⟨p, -, hclause⟩ := List.mem_filterMap.1 (mem_of_mem_ofClauses hc)
  have hclause := Piece.clause?_eq_some_iff.1 hclause
  obtain ⟨negated, draft, -, hresolve⟩ := exists_draft_of_contentClause hclause
  exact ne_nan_of_resolve hresolve hv

theorem IsMade.isNanFree (h : IsMade q) : q.IsNanFree := by
  cases h with
  | ofClauses h => exact fun c hc => h c (mem_of_mem_ofClauses hc)
  | readAll dialect now text => exact isNanFree_readAll dialect now text

theorem sameClauses_iff : a.sameClauses b = true ↔ a.size = b.size ∧
    (∀ c ∈ a.clauses, ∃ e ∈ b.clauses, (e == c) = true) ∧
      ∀ e ∈ b.clauses, ∃ c ∈ a.clauses, (c == e) = true := by
  simp only [sameClauses, Bool.and_eq_true, beq_iff_eq, List.all_eq_true, List.any_eq_true,
    and_assoc]

theorem eq_of_get_beq (h : Distinct cs) {i j : Fin cs.length}
    (hij : (cs.get i == cs.get j) = true) : i = j := by
  have hpair := List.pairwise_iff_get.1 h
  rcases lt_trichotomy i j with hlt | heq | hgt
  · exact absurd (Clause.clashes_of_beq hij) (Bool.eq_false_iff.1 (hpair i j hlt))
  · exact heq
  · exact absurd (Clause.clashes_of_beq (BEq.symm hij)) (Bool.eq_false_iff.1 (hpair j i hgt))

/-- The places of both queries are in pairs with equal clauses. -/
def Pairing (a b : Query) (σ : Fin a.clauses.length ≃ Fin b.clauses.length) : Prop :=
  ∀ i, (a.clauses.get i == b.clauses.get (σ i)) = true

theorem exists_pairing (ha : Distinct a.clauses) (h : a.sameClauses b = true) :
    ∃ σ, a.Pairing b σ := by
  obtain ⟨hsize, hfound, -⟩ := sameClauses_iff.1 h
  have hplace (i : Fin a.clauses.length) :
      ∃ j : Fin b.clauses.length, (b.clauses.get j == a.clauses.get i) = true := by
    obtain ⟨e, he, hec⟩ := hfound _ (a.clauses.get_mem i)
    obtain ⟨j, rfl⟩ := List.get_of_mem he
    exact ⟨j, hec⟩
  choose f hf using hplace
  -- Two places with one partner hold equal clauses, so as many places leave none without.
  have hinj : Function.Injective f := fun i j hij =>
    eq_of_get_beq ha (BEq.trans (BEq.symm (hf i)) (hij ▸ hf j))
  have hbij := (Fintype.bijective_iff_injective_and_card f).2 ⟨hinj, by simpa [size] using hsize⟩
  exact ⟨.ofBijective f hbij, fun i => BEq.symm (hf i)⟩

theorem sameClauses_of_pairing {σ : Fin a.clauses.length ≃ Fin b.clauses.length}
    (h : a.Pairing b σ) : a.sameClauses b = true := by
  refine sameClauses_iff.2 ⟨Fin.equiv_iff_eq.1 ⟨σ⟩, fun c hc => ?_, fun e he => ?_⟩
  · obtain ⟨i, rfl⟩ := List.get_of_mem hc
    exact ⟨_, b.clauses.get_mem (σ i), BEq.symm (h i)⟩
  · obtain ⟨j, rfl⟩ := List.get_of_mem he
    have hj := h (σ.symm j)
    rw [σ.apply_symm_apply] at hj
    exact ⟨_, a.clauses.get_mem (σ.symm j), hj⟩

theorem sameClauses_self (h : q.IsNanFree) : q.sameClauses q = true :=
  sameClauses_iff.2 ⟨rfl, fun c hc => ⟨c, hc, Clause.beq_self (h c hc)⟩,
    fun c hc => ⟨c, hc, Clause.beq_self (h c hc)⟩⟩

theorem sameClauses_trans {c : Query} (hab : a.sameClauses b = true)
    (hbc : b.sameClauses c = true) : a.sameClauses c = true := by
  rw [sameClauses_iff] at hab hbc ⊢
  refine ⟨hab.1.trans hbc.1, fun x hx => ?_, fun z hz => ?_⟩
  · obtain ⟨y, hy, hyx⟩ := hab.2.1 x hx
    obtain ⟨z, hz, hzy⟩ := hbc.2.1 y hy
    exact ⟨z, hz, BEq.trans hzy hyx⟩
  · obtain ⟨y, hy, hyz⟩ := hbc.2.2 z hz
    obtain ⟨x, hx, hxy⟩ := hab.2.2 y hy
    exact ⟨x, hx, BEq.trans hxy hyz⟩

/-- Queries have the same clauses exactly if the places of one of them and those of the other
one pair off with equal clauses. This is an equivalence of queries without NaN. -/
theorem sameClauses_iff_exists_pairing {a : Query} (ha : a.IsMade) (b c : Query) :
    (a.sameClauses b = true ↔ ∃ σ : Fin a.clauses.length ≃ Fin b.clauses.length,
      ∀ i, (a.clauses.get i == b.clauses.get (σ i)) = true) ∧
    a.sameClauses a = true ∧
    (a.sameClauses b = true → b.sameClauses a = true) ∧
    (a.sameClauses b = true → b.sameClauses c = true → a.sameClauses c = true) :=
  ⟨⟨exists_pairing ha.distinct, fun ⟨_, h⟩ => sameClauses_of_pairing h⟩,
    sameClauses_self ha.isNanFree, fun h => (sameClauses_comm b a).trans h, sameClauses_trans⟩

/-- The zeros are equal, and so are dates in different forms. -/
theorem sameClauses_iff_exists_pairing_forms :
    let date (format : Option String) : Value :=
      .date { instant := .midnight 0, granularity := some .month, format := format }
    let size (negative : Bool) : Clause :=
      .oneOf "size" [.number (.ofRank negative 0), .bool true] true
    let a := ofClauses [size false, .flag "sold" true, .field "due" .eq (date none) false]
    let b := ofClauses [.field "due" .eq (date (some "this month")) false, size true,
      .flag "sold" true]
    a.IsMade ∧ a.sameClauses b = true ∧ b.sameClauses a = true ∧
      ∃ σ : Fin a.clauses.length ≃ Fin b.clauses.length,
        ∀ i, (a.clauses.get i == b.clauses.get (σ i)) = true := by
  intro date size a b
  have hzero (negative : Bool) : Binary64.ofRank negative 0 ≠ .nan := by cases negative <;> decide
  have ha : a.IsMade := .ofClauses (by simp [size, date, Clause.IsNanFree, Clause.values, hzero])
  have hsame : a.sameClauses b = true := by decide +kernel
  obtain ⟨hpairs, -, hsymm, -⟩ := sameClauses_iff_exists_pairing ha b a
  exact ⟨ha, hsame, hsymm hsame, hpairs.1 hsame⟩

end Query

end SearchBar
