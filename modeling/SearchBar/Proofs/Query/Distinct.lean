import Mathlib.Data.List.Forall2
import SearchBar.Proofs.Query.Adding

/-! # Queries without repetitions

No clause of a query that is made of a list repeats or replaces another one. A list
of such clauses is kept as it is, and only such a list is kept in its length.
-/

namespace SearchBar

/-- The first clause would replace the second one or be left out because of it. -/
def Clause.clashes (c e : Clause) : Bool :=
  match c with
  | .flag n _ => e.setsFlag n
  | _ => e == c

theorem Clause.clashes_of_not_isFlag {c : Clause} (h : c.isFlag = false) (e : Clause) :
    c.clashes e = (e == c) := by
  cases c <;> first | rfl | simp [Clause.isFlag] at h

theorem Clause.clashes_comm (c e : Clause) : c.clashes e = e.clashes c := by
  cases c <;> cases e <;>
    exact Bool.eq_iff_iff.2 ⟨fun h => BEq.symm h, fun h => BEq.symm h⟩

theorem Clause.eq_flag_of_beq {c : Clause} {n : String} {m : Bool} (h : (flag n m == c) = true) :
    c = flag n m := by
  rw [beq_def] at h
  cases c with
  | flag n' m' =>
    simp only [same, Bool.and_eq_true, beq_iff_eq] at h
    rw [h.1, h.2]
  | term | field | oneOf => simp [same] at h

theorem Clause.setsFlag_congr {a b : Clause} (h : (a == b) = true) (n : String) :
    a.setsFlag n = b.setsFlag n := by
  cases a with
  | flag => rw [eq_flag_of_beq h]
  | term | field | oneOf =>
    cases b with
    | flag => exact absurd (eq_flag_of_beq (BEq.symm h)) (by simp)
    | term | field | oneOf => rfl

theorem Clause.clashes_congr {c c' e e' : Clause} (hc : (c == c') = true) (he : (e == e') = true) :
    c.clashes e = c'.clashes e' := by
  cases hf : c.isFlag with
  | true =>
    cases c with
    | flag n m =>
      rw [eq_flag_of_beq hc]
      exact setsFlag_congr he n
    | term | field | oneOf => simp [isFlag] at hf
  | false =>
    rw [clashes_of_not_isFlag hf, clashes_of_not_isFlag ((isFlag_congr hc).symm.trans hf),
      Bool.eq_iff_iff]
    exact ⟨fun h => BEq.trans (BEq.symm he) (BEq.trans h hc),
      fun h => BEq.trans he (BEq.trans h (BEq.symm hc))⟩

theorem beq_iff_forall₂ {α : Type} [BEq α] {as bs : List α} :
    (as == bs) = true ↔ List.Forall₂ (fun a b => (a == b) = true) as bs := by
  induction as generalizing bs with
  | nil => cases bs <;> simp
  | cons a as ih =>
    cases bs with
    | nil => simp
    | cons b bs => rw [List.cons_beq_cons, Bool.and_eq_true, List.forall₂_cons, ih]

theorem exists_mem_of_forall₂ {α β : Type} {R : α → β → Prop} {as : List α} {bs : List β} {a : α}
    (h : List.Forall₂ R as bs) (ha : a ∈ as) : ∃ b ∈ bs, R a b := by
  induction h with
  | nil => simp at ha
  | @cons a' b' as bs hab _ ih =>
    rcases List.mem_cons.1 ha with rfl | ha
    · exact ⟨b', List.mem_cons_self, hab⟩
    · obtain ⟨b, hb, hr⟩ := ih ha
      exact ⟨b, List.mem_cons_of_mem _ hb, hr⟩

namespace Query

variable {q : Query} {c e : Clause} {cs ds : List Clause}

def Distinct (cs : List Clause) : Prop := cs.Pairwise fun e c => c.clashes e = false

theorem add_of_not_clashes (h : ∀ e ∈ q.clauses, c.clashes e = false) : q.add c = q.push c := by
  cases c with
  | flag n m =>
    have hkeep : q.clauses.filter (fun e => !e.setsFlag n) = q.clauses :=
      List.filter_eq_self.2 fun e he => by rw [show e.setsFlag n = false from h e he]; rfl
    show ((q.without (·.setsFlag n)).push _) = _
    rw [without, hkeep]
  | term | field | oneOf =>
    rw [add_of_not_isFlag _ rfl, if_neg]
    rw [List.any_eq_true]
    rintro ⟨e, he, hec⟩
    exact absurd hec (Bool.eq_false_iff.1 (h e he))

theorem distinct_push (hq : Distinct q.clauses) (h : ∀ e ∈ q.clauses, c.clashes e = false) :
    Distinct (q.push c).clauses := by
  rw [clauses_push]
  refine List.pairwise_append.2 ⟨hq, List.pairwise_singleton _ c, fun e he c' hc' => ?_⟩
  rw [List.mem_singleton.1 hc']
  exact h e he

theorem distinct_add (hq : Distinct q.clauses) (c : Clause) : Distinct (q.add c).clauses := by
  cases c with
  | flag n m =>
    show Distinct ((q.without (·.setsFlag n)).push _).clauses
    refine distinct_push (hq.sublist List.filter_sublist) fun e he => ?_
    have he : (!e.setsFlag n) = true := (List.mem_filter.1 he).2
    exact (Bool.not_eq_eq_eq_not.1 he : e.setsFlag n = false)
  | term | field | oneOf =>
    rw [add_of_not_isFlag _ rfl]
    split
    · exact hq
    · rename_i h
      refine distinct_push hq fun e he => ?_
      rw [List.any_eq_true, not_exists] at h
      exact Bool.eq_false_iff.2 fun hec => h e ⟨he, hec⟩

theorem distinct_foldl_add (hq : Distinct q.clauses) (cs : List Clause) :
    Distinct (cs.foldl add q).clauses := by
  induction cs generalizing q with
  | nil => exact hq
  | cons c cs ih => exact ih (distinct_add hq c)

theorem distinct_ofClauses (cs : List Clause) : Distinct (ofClauses cs).clauses :=
  distinct_foldl_add .nil cs

theorem foldl_add_of_distinct (h : Distinct (q.clauses ++ cs)) :
    (cs.foldl add q).clauses = q.clauses ++ cs := by
  induction cs generalizing q with
  | nil => exact (List.append_nil _).symm
  | cons c cs ih =>
    have hc : ∀ e ∈ q.clauses, c.clashes e = false := fun e he =>
      (List.pairwise_append.1 h).2.2 e he c List.mem_cons_self
    have hpush : (q.push c).clauses ++ cs = q.clauses ++ c :: cs := by simp
    rw [List.foldl_cons, add_of_not_clashes hc, ih (by rwa [hpush]), hpush]

theorem clauses_ofClauses_of_distinct (h : Distinct cs) : (ofClauses cs).clauses = cs :=
  foldl_add_of_distinct h

theorem mem_add (h : e ∈ (q.add c).clauses) : e ∈ q.clauses ∨ e = c := by
  cases c with
  | flag n m =>
    rcases List.mem_append.1 (show e ∈ (q.without (·.setsFlag n)).clauses ++ [_] from h) with h | h
    · exact .inl (List.mem_filter.1 h).1
    · exact .inr (List.mem_singleton.1 h)
  | term | field | oneOf =>
    rw [add_of_not_isFlag _ rfl] at h
    split at h
    · exact .inl h
    · rcases List.mem_append.1 h with h | h
      · exact .inl h
      · exact .inr (List.mem_singleton.1 h)

theorem mem_foldl_add (h : e ∈ (cs.foldl add q).clauses) : e ∈ q.clauses ∨ e ∈ cs := by
  induction cs generalizing q with
  | nil => exact .inl h
  | cons c cs ih =>
    rcases ih h with h | h
    · rcases mem_add h with h | rfl
      · exact .inl h
      · exact .inr List.mem_cons_self
    · exact .inr (List.mem_cons_of_mem c h)

theorem mem_of_mem_ofClauses (h : e ∈ (ofClauses cs).clauses) : e ∈ cs :=
  (mem_foldl_add h).resolve_left (by simp [empty])

theorem size_add_le (q : Query) (c : Clause) : (q.add c).size ≤ q.size + 1 := by
  cases c with
  | flag n m =>
    show ((q.without (·.setsFlag n)).push _).clauses.length ≤ _
    rw [clauses_push, List.length_append]
    exact Nat.add_le_add_right (List.length_filter_le _ _) 1
  | term | field | oneOf =>
    rw [add_of_not_isFlag _ rfl]
    split
    · exact Nat.le_succ _
    · simp [size]

theorem add_of_size (h : (q.add c).size = q.size + 1) : q.add c = q.push c := by
  cases c with
  | flag n m =>
    refine add_of_not_clashes fun e he => ?_
    have hlen : (q.clauses.filter fun e => !e.setsFlag n).length = q.clauses.length := by
      have h : ((q.without (·.setsFlag n)).push (.flag n m)).clauses.length = q.size + 1 := h
      simpa [size] using h
    have he : (!e.setsFlag n) = true := List.length_filter_eq_length_iff.1 hlen e he
    exact (Bool.not_eq_eq_eq_not.1 he : e.setsFlag n = false)
  | term | field | oneOf =>
    rw [add_of_not_isFlag _ rfl] at h ⊢
    split at h
    · omega
    · rename_i hany
      rw [if_neg hany]

theorem size_foldl_add_le (cs : List Clause) (q : Query) :
    (cs.foldl add q).size ≤ q.size + cs.length := by
  induction cs generalizing q with
  | nil => exact Nat.le_refl _
  | cons c cs ih =>
    have h1 := ih (q.add c)
    have h2 := size_add_le q c
    rw [List.foldl_cons, List.length_cons]
    omega

theorem foldl_add_of_size (h : (cs.foldl add q).size = q.size + cs.length) :
    (cs.foldl add q).clauses = q.clauses ++ cs := by
  induction cs generalizing q with
  | nil => exact (List.append_nil _).symm
  | cons c cs ih =>
    rw [List.foldl_cons, List.length_cons] at h
    have h1 := size_foldl_add_le cs (q.add c)
    have h2 := size_add_le q c
    rw [List.foldl_cons, ih (by omega), add_of_size (by omega), clauses_push, List.append_assoc]
    rfl

theorem clauses_ofClauses_of_size (h : (ofClauses cs).size = cs.length) :
    (ofClauses cs).clauses = cs := by
  have hsize : (cs.foldl add empty).size = empty.size + cs.length := by
    rw [show empty.size = 0 from rfl, Nat.zero_add]
    exact h
  exact foldl_add_of_size hsize

theorem distinct_congr (h : List.Forall₂ (fun d c : Clause => (d == c) = true) ds cs)
    (hcs : Distinct cs) : Distinct ds := by
  induction h with
  | nil => exact .nil
  | @cons d c ds cs hdc h ih =>
    obtain ⟨hc, hcs⟩ := List.pairwise_cons.1 hcs
    refine List.pairwise_cons.2 ⟨fun x hx => ?_, ih hcs⟩
    obtain ⟨y, hy, hxy⟩ := exists_mem_of_forall₂ h hx
    rw [Clause.clashes_congr hxy hdc]
    exact hc y hy

end Query

end SearchBar
