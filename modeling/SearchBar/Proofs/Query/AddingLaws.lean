import Mathlib.Data.List.Perm.Basic
import SearchBar.Proofs.Query.Editing
import SearchBar.Proofs.Query.Pairing

/-! # Laws of adding clauses

A clause takes out what it replaces and comes at the end, unless an equal one is there. So it is
added only once, and two clauses may be added in either order if neither replaces the other one.
A flag that is added and removed is only removed.
-/

namespace SearchBar

open Calendar

variable {q start : Query} {c d e : Clause} {n : String}

def Clause.replaces (c e : Clause) : Bool :=
  match c with
  | .flag n _ => e.setsFlag n
  | _ => false

theorem Clause.replaces_eq_false (h : ∀ n, c.setsFlag n = true → d.setsFlag n = false) :
    c.replaces d = false := by
  cases c with
  | flag n m => exact h n (beq_self_eq_true n)
  | term | field | oneOf => rfl

theorem Clause.isNanFree_of_isFlag (h : c.isFlag = true) : c.IsNanFree := by
  cases c with
  | flag => simp [IsNanFree, values]
  | term | field | oneOf => simp [isFlag] at h

namespace Query

section Parts

def added (q : Query) (c : Clause) : List Clause :=
  if !c.isFlag && q.clauses.any (· == c) then [] else [c]

theorem clauses_add (q : Query) (c : Clause) :
    (q.add c).clauses = (q.clauses.filter fun e => !c.replaces e) ++ q.added c := by
  cases c with
  | flag => rfl
  | term | field | oneOf =>
    rw [add_of_not_isFlag q rfl, added]
    split <;> simp_all [Clause.replaces, Clause.isFlag]

theorem any_add_of_bne (hd : d.isFlag = false) (hcd : (c == d) = false) (q : Query) :
    (q.add c).clauses.any (· == d) = q.clauses.any (· == d) := by
  cases c with
  | flag n m =>
    show ((q.without (·.setsFlag n)).push (.flag n m)).clauses.any (· == d) = _
    rw [clauses_push, List.any_append, any_without hd, List.any_cons, hcd]
    simp
  | term | field | oneOf =>
    rw [add_of_not_isFlag q rfl]
    split
    · rfl
    · simp [hcd]

theorem added_add (hcd : (c == d) = false) (q : Query) : (q.add c).added d = q.added d := by
  unfold added
  cases hd : d.isFlag with
  | true => rfl
  | false => rw [any_add_of_bne hd hcd]

theorem mem_add_of_mem (he : e.isFlag = false) (h : e ∈ q.clauses) : e ∈ (q.add c).clauses := by
  rw [clauses_add]
  refine List.mem_append_left _ (List.mem_filter.2 ⟨h, ?_⟩)
  cases c with
  | flag n m => cases e <;> first | rfl | simp [Clause.isFlag] at he
  | term | field | oneOf => rfl

theorem isNanFree_add_iff (hc : c.IsNanFree) : (q.add c).IsNanFree ↔ q.IsNanFree := by
  constructor
  · intro h e he
    cases hflag : e.isFlag with
    | true => exact Clause.isNanFree_of_isFlag hflag
    | false => exact h e (mem_add_of_mem hflag he)
  · intro h e he
    rcases mem_add he with he | rfl
    · exact h e he
    · exact hc

end Parts

section Rearranging

/-- The clauses of the one query are those of the other one in some order. Clauses that are
equal may stand for each other. -/
def Rearranges (a b : Query) : Prop :=
  ∃ cs, a.clauses.Perm cs ∧ List.Forall₂ (fun c e => c = e ∨ (c == e) = true) cs b.clauses

variable {a b : Query}

theorem rearranges_of_perm (h : a.clauses.Perm b.clauses) : a.Rearranges b :=
  ⟨b.clauses, h, List.forall₂_same.2 fun _ _ => .inl rfl⟩

/-- A rearranged query has the same clauses unless one of them has a NaN. -/
theorem Rearranges.sameClauses_iff (h : a.Rearranges b) :
    a.sameClauses b = true ↔ a.IsNanFree := by
  obtain ⟨cs, hperm, hpairs⟩ := h
  rw [Query.sameClauses_iff]
  constructor
  · rintro ⟨-, hfound, -⟩ c hc
    obtain ⟨e, -, hec⟩ := hfound c hc
    exact Clause.isNanFree_of_beq (BEq.symm hec)
  · intro hfree
    have hbeq {c e : Clause} (hc : c ∈ cs) (h : c = e ∨ (c == e) = true) : (c == e) = true :=
      h.elim (fun h => h ▸ Clause.beq_self (hfree c (hperm.mem_iff.2 hc))) id
    refine ⟨hperm.length_eq.trans hpairs.length_eq, fun c hc => ?_, fun e he => ?_⟩
    · have hc := hperm.mem_iff.1 hc
      obtain ⟨e, he, hce⟩ := exists_mem_of_forall₂ hpairs hc
      exact ⟨e, he, BEq.symm (hbeq hc hce)⟩
    · obtain ⟨c, hc, hce⟩ := exists_mem_of_forall₂ hpairs.flip he
      exact ⟨c, hperm.mem_iff.2 hc, hbeq hc hce⟩

end Rearranging

section Laws

theorem add_of_any (hc : c.isFlag = false) (h : q.clauses.any (· == c) = true) : q.add c = q := by
  rw [add_of_not_isFlag q hc, if_pos h]

theorem add_add_of_beq (hc : c.isFlag = false) (h : (c == d) = true) :
    (q.add c).add d = q.add c := by
  have hd : d.isFlag = false := (Clause.isFlag_congr h).symm.trans hc
  exact add_of_any hd (any_add_self hd h)

theorem add_add_self (hc : c.IsNanFree) (q : Query) : (q.add c).add c = q.add c := by
  cases hflag : c.isFlag with
  | false => exact add_add_of_beq hflag (Clause.beq_self hc)
  | true =>
    cases c with
    | flag n m =>
      exact congrArg (push · (.flag n m)) (without_add_of_setsFlag (beq_self_eq_true n))
    | term | field | oneOf => simp [Clause.isFlag] at hflag

theorem filter_setsFlag {m : Bool} (hq : Distinct q.withoutChoices.clauses)
    (h : .flag n m ∈ q.clauses) : q.clauses.filter (·.setsFlag n) = [.flag n m] := by
  have hmem : .flag n m ∈ q.clauses.filter (·.setsFlag n) :=
    List.mem_filter.2 ⟨h, beq_self_eq_true n⟩
  have hflags : ∀ c ∈ q.clauses.filter (·.setsFlag n), ∃ m, c = .flag n m := by
    intro c hc
    have hset : c.setsFlag n = true := (List.mem_filter.1 hc).2
    cases c with
    | flag n' m' => exact ⟨m', by rw [show n' = n from beq_iff_eq.1 hset]⟩
    | term | field | oneOf => simp [Clause.setsFlag] at hset
  have hpair : (q.clauses.filter (·.setsFlag n)).Pairwise fun e c => c.clashes e = false := by
    have hkept := List.Pairwise.filter (·.setsFlag n) hq
    rw [withoutChoices, clauses_without, List.filter_filter] at hkept
    refine (List.filter_congr fun c _ => ?_) ▸ hkept
    cases c <;> simp [Clause.setsFlag, Clause.isOneOf]
  generalize q.clauses.filter (·.setsFlag n) = flags at hmem hflags hpair ⊢
  rcases flags with _ | ⟨c, _ | ⟨e, es⟩⟩
  · simp at hmem
  · rw [List.mem_singleton.1 hmem]
  · obtain ⟨m', rfl⟩ := hflags c List.mem_cons_self
    obtain ⟨m'', rfl⟩ := hflags e (List.mem_cons_of_mem _ List.mem_cons_self)
    have hclash := (List.pairwise_cons.1 hpair).1 _ List.mem_cons_self
    simp [Clause.clashes, Clause.setsFlag] at hclash

/-- A clause that is there is added without effect, or moved to the end if it is a flag. -/
theorem add_perm_of_mem (hq : Distinct q.withoutChoices.clauses) (he : e ∈ q.clauses)
    (hec : (e == c) = true) : (q.add c).clauses.Perm q.clauses := by
  cases c with
  | flag n m =>
    obtain rfl := Clause.eq_flag_of_beq (BEq.symm hec)
    have hsplit := List.filter_append_perm (·.setsFlag n) q.clauses
    rw [filter_setsFlag hq he] at hsplit
    exact List.perm_append_comm.trans hsplit
  | term | field | oneOf => rw [add_of_any rfl (List.any_eq_true.2 ⟨e, he, hec⟩)]

theorem add_add_perm (hflag : ∀ n, c.setsFlag n = true → d.setsFlag n = false)
    (hcd : (c == d) = false) :
    ((q.add c).add d).clauses.Perm ((q.add d).add c).clauses := by
  have hc := Clause.replaces_eq_false hflag
  have hd : d.replaces c = false := Clause.replaces_eq_false fun n hn =>
    Bool.eq_false_iff.2 fun hset => Bool.eq_false_iff.1 (hflag n hset) hn
  have hdc : (d == c) = false :=
    Bool.eq_false_iff.2 fun h => Bool.eq_false_iff.1 hcd (BEq.symm h)
  have hkeep {x y : Clause} (h : y.replaces x = false) (q : Query) :
      (q.added x).filter (fun e => !y.replaces e) = q.added x := by
    unfold added
    split <;> simp [h]
  simp only [clauses_add, added_add hcd, added_add hdc, List.filter_append, hkeep hd, hkeep hc,
    List.filter_filter, List.append_assoc, Bool.and_comm]
  exact List.Perm.append_left _ List.perm_append_comm

/-- Clauses for different flags, or not both for flags, are added in either order. -/
theorem add_add_rearranges (hflag : ∀ n, c.setsFlag n = true → d.setsFlag n = false) :
    ((q.add c).add d).Rearranges ((q.add d).add c) := by
  cases hcd : c == d with
  | false => exact rearranges_of_perm (add_add_perm hflag hcd)
  | true =>
    have hc : c.isFlag = false := by
      cases c with
      | flag n m =>
        have hd := hflag n (beq_self_eq_true n)
        simp [Clause.eq_flag_of_beq hcd, Clause.setsFlag] at hd
      | term | field | oneOf => rfl
    have hd : d.isFlag = false := (Clause.isFlag_congr hcd).symm.trans hc
    have hany : q.clauses.any (· == c) = q.clauses.any (· == d) :=
      List.any_congr rfl fun e => Bool.eq_iff_iff.2
        ⟨fun h => BEq.trans h hcd, fun h => BEq.trans h (BEq.symm hcd)⟩
    rw [add_add_of_beq hc hcd, add_add_of_beq hd (BEq.symm hcd), add_of_not_isFlag q hc,
      add_of_not_isFlag q hd, hany]
    split
    · exact rearranges_of_perm (.refl _)
    · refine ⟨_, .refl _, List.rel_append ?_ ?_⟩
      · exact List.forall₂_same.2 fun _ _ => .inl rfl
      · exact .cons (.inr hcd) .nil

end Laws

/-- Clauses are added to an edited query as to a set. A clause that was just added changes
nothing, one that is there changes the order at most, and two clauses that are not for one
flag may be added in either order. To set or refuse a flag before it is removed makes no
difference. The comparison of queries sees this unless the query has a NaN. -/
theorem add_to_edited (h : IsOrigin start) (es : List Edit) (hc : c.IsNanFree)
    (hd : d.IsNanFree) :
    let q := start.edited es
    (q.add c).add c = q.add c ∧
    ((∃ e ∈ q.clauses, (e == c) = true) →
      (q.add c).Rearranges q ∧ ((q.add c).sameClauses q = true ↔ q.IsNanFree)) ∧
    ((∀ n, c.setsFlag n = true → d.setsFlag n = false) →
      ((q.add c).add d).Rearranges ((q.add d).add c) ∧
        (((q.add c).add d).sameClauses ((q.add d).add c) = true ↔ q.IsNanFree)) ∧
    ∀ name must, (q.addFlag name must).removeFlag name = q.removeFlag name := by
  intro q
  have hq : Distinct q.withoutChoices.clauses := distinct_withoutChoices_edited h.distinct es
  refine ⟨add_add_self hc q, ?_, fun hflag => ?_, fun name must =>
    without_add_of_setsFlag (c := .flag name must) (beq_self_eq_true name)⟩
  · rintro ⟨e, he, hec⟩
    have hsame := rearranges_of_perm (add_perm_of_mem hq he hec)
    exact ⟨hsame, hsame.sameClauses_iff.trans (isNanFree_add_iff hc)⟩
  · have hsame := add_add_rearranges (q := q) hflag
    exact ⟨hsame, hsame.sameClauses_iff.trans
      ((isNanFree_add_iff hd).trans (isNanFree_add_iff hc))⟩

/-- A flag that is there moves to the end, and the other zero is not added. -/
theorem add_to_edited_in_place :
    let start := (readAll {} (.midnight 0) "is:sold size:0").query
    let q := start.edited [.addFlag "new" false]
    let c : Clause := .flag "sold" true
    let d : Clause := .field "size" .eq (.number (.ofRank true 0)) true
    IsOrigin start ∧ c.IsNanFree ∧ d.IsNanFree ∧ (q.add c).add c = q.add c ∧
      ((q.add c).clauses.map (·.isFlag)) ≠ (q.clauses.map (·.isFlag)) ∧
      (q.add c).sameClauses q = true ∧
      (q.add d).sameClauses q = true ∧
      ((q.add c).add d).sameClauses ((q.add d).add c) = true ∧
      (q.addFlag "new" true).removeFlag "new" = q.removeFlag "new" := by
  intro start q c d
  have hstart : IsOrigin start := .readAll ..
  have hc : c.IsNanFree := by simp [c, Clause.IsNanFree, Clause.values]
  have hzero : Binary64.ofRank true 0 ≠ .nan := by decide
  have hd : d.IsNanFree := by simp [d, Clause.IsNanFree, Clause.values, hzero]
  have hq : q.IsNanFree :=
    (isNanFree_add_iff (Clause.isNanFree_of_isFlag (c := .flag "new" false) rfl)).2
      (IsMade.readAll ..).isNanFree
  obtain ⟨honce, hthere, hswap, hflag⟩ := add_to_edited hstart [.addFlag "new" false] hc hd
  obtain ⟨-, hdthere, -⟩ := add_to_edited hstart [.addFlag "new" false] hd hd
  exact ⟨hstart, hc, hd, honce, by decide +kernel, (hthere (by decide +kernel)).2.2 hq,
    (hdthere (by decide +kernel)).2.2 hq, (hswap fun _ _ => rfl).2.2 hq, hflag "new" true⟩

end Query

end SearchBar
