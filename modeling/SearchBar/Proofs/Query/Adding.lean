import SearchBar.Query.Basic

/-! # Queries as sets of clauses

Equality of clauses is symmetric and transitive, but a clause with a NaN differs
from itself. Adding the clauses of one query to another gives what adding them one
by one gives.
-/

namespace SearchBar

open Calendar

instance : PartialEquivBEq Binary64 where
  symm h := by
    obtain ⟨a, ha, hb⟩ := Binary64.beq_iff.1 h
    exact Binary64.beq_iff.2 ⟨a, hb, ha⟩
  trans h h' := by
    obtain ⟨a, ha, hb⟩ := Binary64.beq_iff.1 h
    obtain ⟨b, hb', hc⟩ := Binary64.beq_iff.1 h'
    exact Binary64.beq_iff.2 ⟨a, ha, by rw [hc, ← hb', hb]⟩

instance : EquivBEq DateValue where
  rfl := DateValue.beq_iff.2 ⟨rfl, rfl⟩
  symm h := by
    rw [DateValue.beq_iff] at h ⊢
    exact ⟨h.1.symm, h.2.symm⟩
  trans h h' := by
    rw [DateValue.beq_iff] at h h' ⊢
    exact ⟨h.1.trans h'.1, h.2.trans h'.2⟩

theorem Value.beq_def (a b : Value) : (a == b) = a.same b := rfl

instance : PartialEquivBEq Value where
  symm {a b} h := by
    rw [Value.beq_def] at h ⊢
    cases a <;> cases b <;> simp only [Value.same, Bool.false_eq_true] at h ⊢
    all_goals exact BEq.symm h
  trans {a b c} h h' := by
    rw [Value.beq_def] at h h' ⊢
    cases a <;> cases b <;> simp only [Value.same, Bool.false_eq_true] at h <;>
      cases c <;> simp only [Value.same, Bool.false_eq_true] at h' ⊢
    all_goals exact BEq.trans h h'

theorem beq_list_symm : ∀ {vs ws : List Value}, (vs == ws) = true → (ws == vs) = true
  | [], [], _ => rfl
  | [], _ :: _, h => by simp at h
  | _ :: _, [], h => by simp at h
  | v :: vs, w :: ws, h => by
    rw [List.cons_beq_cons, Bool.and_eq_true] at h ⊢
    exact ⟨BEq.symm h.1, beq_list_symm h.2⟩

theorem beq_list_trans : ∀ {us vs ws : List Value}, (us == vs) = true → (vs == ws) = true →
    (us == ws) = true
  | [], [], [], _, _ => rfl
  | [], _ :: _, _, h, _ => by simp at h
  | _ :: _, [], _, h, _ => by simp at h
  | _, [], _ :: _, _, h => by simp at h
  | _, _ :: _, [], _, h => by simp at h
  | u :: us, v :: vs, w :: ws, h, h' => by
    rw [List.cons_beq_cons, Bool.and_eq_true] at h h' ⊢
    exact ⟨BEq.trans h.1 h'.1, beq_list_trans h.2 h'.2⟩

theorem Clause.beq_def (a b : Clause) : (a == b) = a.same b := rfl

instance : PartialEquivBEq Clause where
  symm {a b} h := by
    rw [Clause.beq_def] at h ⊢
    cases a <;> cases b <;> simp only [Clause.same, Bool.false_eq_true, Bool.and_eq_true] at h ⊢
    · exact ⟨BEq.symm h.1, BEq.symm h.2⟩
    · exact ⟨⟨⟨BEq.symm h.1.1.1, BEq.symm h.1.1.2⟩, BEq.symm h.1.2⟩, BEq.symm h.2⟩
    · exact ⟨⟨BEq.symm h.1.1, beq_list_symm h.1.2⟩, BEq.symm h.2⟩
    · exact ⟨BEq.symm h.1, BEq.symm h.2⟩
  trans {a b c} h h' := by
    rw [Clause.beq_def] at h h' ⊢
    cases a <;> cases b <;> simp only [Clause.same, Bool.false_eq_true, Bool.and_eq_true] at h <;>
      cases c <;> simp only [Clause.same, Bool.false_eq_true, Bool.and_eq_true] at h' ⊢
    · exact ⟨BEq.trans h.1 h'.1, BEq.trans h.2 h'.2⟩
    · exact ⟨⟨⟨BEq.trans h.1.1.1 h'.1.1.1, BEq.trans h.1.1.2 h'.1.1.2⟩,
        BEq.trans h.1.2 h'.1.2⟩, BEq.trans h.2 h'.2⟩
    · exact ⟨⟨BEq.trans h.1.1 h'.1.1, beq_list_trans h.1.2 h'.1.2⟩, BEq.trans h.2 h'.2⟩
    · exact ⟨BEq.trans h.1 h'.1, BEq.trans h.2 h'.2⟩

theorem Clause.isFlag_congr {a b : Clause} (h : (a == b) = true) : a.isFlag = b.isFlag := by
  rw [Clause.beq_def] at h
  cases a <;> cases b <;> first | rfl | simp [Clause.same] at h

theorem Clause.isFlag_of_setsFlag {c : Clause} {n : String} (h : c.setsFlag n = true) :
    c.isFlag = true := by
  cases c <;> first | rfl | simp [Clause.setsFlag] at h

namespace Query

variable {q : Query} {c e : Clause} {n : String}

@[simp] theorem clauses_push (q : Query) (c : Clause) : (q.push c).clauses = q.clauses ++ [c] := rfl

@[simp] theorem clauses_without (q : Query) (p : Clause → Bool) :
    (q.without p).clauses = q.clauses.filter fun c => !p c := rfl

theorem add_of_not_isFlag (q : Query) (h : c.isFlag = false) :
    q.add c = if q.clauses.any (· == c) then q else q.push c := by
  cases c <;> first | rfl | simp [Clause.isFlag] at h

theorem any_without (h : c.isFlag = false) (q : Query) (n : String) :
    (q.without (·.setsFlag n)).clauses.any (· == c) = q.clauses.any (· == c) := by
  rw [Bool.eq_iff_iff, List.any_eq_true, List.any_eq_true]
  simp only [clauses_without, List.mem_filter, Bool.not_eq_true']
  constructor
  · rintro ⟨e, he, hc⟩
    exact ⟨e, he.1, hc⟩
  · rintro ⟨e, he, hc⟩
    refine ⟨e, ⟨he, ?_⟩, hc⟩
    cases hs : e.setsFlag n with
    | false => rfl
    | true => simp [← Clause.isFlag_congr hc, Clause.isFlag_of_setsFlag hs] at h

theorem any_add_of_any (hc : c.isFlag = false) (h : q.clauses.any (· == c) = true) (e : Clause) :
    (q.add e).clauses.any (· == c) = true := by
  cases e with
  | flag n m =>
    show ((q.without (·.setsFlag n)).push (.flag n m)).clauses.any (· == c) = true
    rw [clauses_push, List.any_append, any_without hc, h, Bool.true_or]
  | term | field | oneOf =>
    rw [add_of_not_isFlag _ rfl]
    split
    · exact h
    · rw [clauses_push, List.any_append, h, Bool.true_or]

theorem any_add_self (hc : c.isFlag = false) (h : (e == c) = true) :
    (q.add e).clauses.any (· == c) = true := by
  rw [add_of_not_isFlag _ ((Clause.isFlag_congr h).trans hc)]
  split
  · rename_i hany
    obtain ⟨x, hx, hxe⟩ := List.any_eq_true.1 hany
    exact List.any_eq_true.2 ⟨x, hx, BEq.trans hxe h⟩
  · simp [h]

theorem any_foldl_add (hc : c.isFlag = false) {cs : List Clause} :
    ∀ {q : Query}, q.clauses.any (· == c) = true ∨ cs.any (· == c) = true →
      (cs.foldl add q).clauses.any (· == c) = true := by
  induction cs with
  | nil => simp
  | cons e cs ih =>
    rintro q (h | h)
    · exact ih (.inl (any_add_of_any hc h e))
    · rw [List.any_cons, Bool.or_eq_true] at h
      rcases h with h | h
      · exact ih (.inl (any_add_self hc h))
      · exact ih (.inr h)

theorem without_add_of_setsFlag (h : c.setsFlag n = true) :
    (q.add c).without (·.setsFlag n) = q.without (·.setsFlag n) := by
  cases c with
  | flag m b =>
    obtain rfl : m = n := by simpa [Clause.setsFlag] using h
    show ((q.without (·.setsFlag m)).push (.flag m b)).without (·.setsFlag m) = _
    simp [without, push, Clause.setsFlag]
  | term | field | oneOf => simp [Clause.setsFlag] at h

theorem without_add_of_not_setsFlag (h : c.setsFlag n = false) :
    (q.add c).without (·.setsFlag n) = (q.without (·.setsFlag n)).add c := by
  cases c with
  | flag m b =>
    show ((q.without (·.setsFlag m)).push (.flag m b)).without (·.setsFlag n) =
      ((q.without (·.setsFlag n)).without (·.setsFlag m)).push (.flag m b)
    simp [without, push, h, Bool.and_comm]
  | term | field | oneOf =>
    rw [add_of_not_isFlag _ rfl, add_of_not_isFlag _ rfl, any_without rfl]
    split
    · rfl
    · simp [without, push, h]

theorem without_foldl_add (cs : List Clause) (n : String) : ∀ q : Query,
    (cs.foldl add q).without (·.setsFlag n) =
      (cs.filter fun c => !c.setsFlag n).foldl add (q.without (·.setsFlag n)) := by
  induction cs with
  | nil => exact fun _ => rfl
  | cons c cs ih =>
    intro q
    cases h : c.setsFlag n with
    | true => simp [ih, h, without_add_of_setsFlag h]
    | false => simp [ih, h, without_add_of_not_setsFlag h]

/-- Adding a clause to a query before its clauses are added elsewhere is adding it
there in the end. -/
theorem foldl_add_add (p q : Query) (c : Clause) :
    (p.add c).clauses.foldl add q = (p.clauses.foldl add q).add c := by
  cases c with
  | flag n b =>
    show ((p.without (·.setsFlag n)).push (.flag n b)).clauses.foldl add q =
      ((p.clauses.foldl add q).without (·.setsFlag n)).push (.flag n b)
    rw [clauses_push, List.foldl_append, List.foldl_cons, List.foldl_nil]
    show (((p.without (·.setsFlag n)).clauses.foldl add q).without (·.setsFlag n)).push _ = _
    rw [without_foldl_add, without_foldl_add, clauses_without, List.filter_filter]
    simp
  | term | field | oneOf =>
    rw [add_of_not_isFlag p rfl]
    split
    · rename_i h
      rw [add_of_not_isFlag _ rfl, if_pos (any_foldl_add rfl (.inr h))]
    · rw [clauses_push, List.foldl_append, List.foldl_cons, List.foldl_nil]

theorem foldl_add_foldl (cs : List Clause) (q : Query) : ∀ p : Query,
    (cs.foldl add p).clauses.foldl add q = cs.foldl add (p.clauses.foldl add q) := by
  induction cs with
  | nil => exact fun _ => rfl
  | cons c cs ih =>
    intro p
    rw [List.foldl_cons, ih, foldl_add_add, List.foldl_cons]

theorem foldl_add_ofClauses (cs : List Clause) (q : Query) :
    (ofClauses cs).clauses.foldl add q = cs.foldl add q := foldl_add_foldl cs q empty

theorem ofClauses_append (cs es : List Clause) :
    ofClauses (cs ++ es) = (ofClauses es).clauses.foldl add (ofClauses cs) := by
  rw [foldl_add_ofClauses, ofClauses, List.foldl_append]
  rfl

end Query

end SearchBar
