import SearchBar.Proofs.Query.Conformance

/-! # Editing queries

A query is edited in steps from the empty query or from what was read of a text. Its
clauses that are no choices are kept like a set by every step, so no run of edits repeats
a term or a comparison or has two clauses for a flag.
-/

namespace SearchBar

open Calendar Text

inductive Edit
  | add (c : Clause)
  | addField (name : String) (value : Value) (must : Bool) (op : Operator)
  | removeFieldValue (name : String) (value : Value)
  | removeField (name : String)
  | addOneOf (name : String) (value : Value) (must : Bool)
  | removeOneOfValue (name : String) (value : Value)
  | removeOneOf (name : String)
  | addFlag (name : String) (must : Bool)
  | removeFlag (name : String)

def Edit.apply (q : Query) : Edit → Query
  | add c => q.add c
  | addField name value must op => q.addField name value must op
  | removeFieldValue name value => q.removeFieldValue name value
  | removeField name => q.removeField name
  | addOneOf name value must => q.addOneOf name value must
  | removeOneOfValue name value => q.removeOneOfValue name value
  | removeOneOf name => q.removeOneOf name
  | addFlag name must => q.addFlag name must
  | removeFlag name => q.removeFlag name

namespace Query

def edited (q : Query) (es : List Edit) : Query := es.foldl Edit.apply q

/-- The queries that edits begin with: the empty one and what is read of a text. -/
inductive IsOrigin : Query → Prop
  | empty : IsOrigin .empty
  | readAll (dialect : Dialect) (now : Instant) (text : String) :
      IsOrigin (readAll dialect now text).query

section Choices

variable {name : String} {value : Value} {must : Bool}

/-- The list with other members for its first one that meets a condition; if none does, with
members added at its end. -/
def replaceFirst {α : Type} (p : α → Bool) (f : α → List α) (added : List α) : List α → List α
  | [] => added
  | a :: as => if p a then f a ++ as else a :: replaceFirst p f added as

theorem replaceFirst_cases {α : Type} (p : α → Bool) (f : α → List α) (added as : List α) :
    ((∀ a ∈ as, p a = false) ∧ replaceFirst p f added as = as ++ added) ∨
    ∃ before a after, as = before ++ a :: after ∧ (∀ b ∈ before, p b = false) ∧ p a = true ∧
      replaceFirst p f added as = before ++ f a ++ after := by
  induction as with
  | nil => exact .inl ⟨by simp, rfl⟩
  | cons a as ih =>
    cases ha : p a with
    | true => exact .inr ⟨[], a, as, rfl, by simp, ha, if_pos ha⟩
    | false =>
      have hskip : replaceFirst p f added (a :: as) = a :: replaceFirst p f added as :=
        if_neg (Bool.eq_false_iff.1 ha)
      rw [hskip]
      rcases ih with ⟨hnone, heq⟩ | ⟨before, b, after, rfl, hbefore, hb, heq⟩
      · exact .inl ⟨List.forall_mem_cons.2 ⟨ha, hnone⟩, by rw [heq, List.cons_append]⟩
      · exact .inr ⟨a :: before, b, after, rfl, List.forall_mem_cons.2 ⟨ha, hbefore⟩, hb,
          by rw [heq, List.append_assoc, List.append_assoc, List.cons_append]⟩

theorem exists_of_offersValue {c : Clause} {v : Option Value} (h : c.offersValue name v = true) :
    ∃ vs m, c = .oneOf name vs m ∧ v.all vs.contains = true := by
  cases c with
  | term | field | flag => simp [Clause.offersValue] at h
  | oneOf n vs m =>
    simp only [Clause.offersValue, Bool.and_eq_true, beq_iff_eq] at h
    exact ⟨vs, m, by rw [h.1], h.2⟩

def withValue (value : Value) : Clause → List Clause
  | .oneOf n vs m => [.oneOf n (if vs.contains value then vs else vs ++ [value]) m]
  | c => [c]

theorem addOneOf_go_eq (cs : List Clause) : addOneOf.go name value must cs =
    replaceFirst (·.offersValue name none) (withValue value) [.oneOf name [value] must] cs := by
  induction cs with
  | nil => rfl
  | cons c cs ih =>
    cases c with
    | term | field | flag => exact congrArg (_ :: ·) ih
    | oneOf n vs m =>
      by_cases hn : n = name
      · simp [addOneOf.go, replaceFirst, Clause.offersValue, withValue, hn]
      · simp [addOneOf.go, replaceFirst, Clause.offersValue, hn, ih]

theorem addOneOf_cases (q : Query) (name : String) (value : Value) (must : Bool) :
    ((∀ c ∈ q.clauses, c.offersValue name none = false) ∧
      (q.addOneOf name value must).clauses = q.clauses ++ [.oneOf name [value] must]) ∨
    ∃ before vs m after, q.clauses = before ++ .oneOf name vs m :: after ∧
      (∀ c ∈ before, c.offersValue name none = false) ∧
      (q.addOneOf name value must).clauses = before ++
        .oneOf name (if vs.contains value then vs else vs ++ [value]) m :: after := by
  have hgo : (q.addOneOf name value must).clauses = _ := addOneOf_go_eq q.clauses
  rw [hgo]
  rcases replaceFirst_cases (·.offersValue name none) (withValue value)
      [.oneOf name [value] must] q.clauses with hnone | ⟨before, c, after, hq, hbefore, hc, heq⟩
  · exact .inl hnone
  · obtain ⟨vs, m, rfl, -⟩ := exists_of_offersValue hc
    exact .inr ⟨before, vs, m, after, hq, hbefore, heq.trans (by simp [withValue])⟩

def choiceWithout (name : String) (vs : List Value) (m : Bool) (value : Value) : List Clause :=
  match vs.filter (fun v => !(v == value)) with
  | [] => []
  | left => [.oneOf name left m]

def withoutValue (value : Value) : Clause → List Clause
  | .oneOf n vs m => choiceWithout n vs m value
  | c => [c]

theorem removeOneOfValue_go_eq (cs : List Clause) : removeOneOfValue.go name value cs =
    replaceFirst (·.offersValue name (some value)) (withoutValue value) [] cs := by
  induction cs with
  | nil => rfl
  | cons c cs ih =>
    cases c with
    | term | field | flag => exact congrArg (_ :: ·) ih
    | oneOf n vs m =>
      by_cases h : (n == name && vs.contains value) = true
      · simp only [removeOneOfValue.go, replaceFirst, Clause.offersValue, Option.all_some, h,
          if_true, withoutValue, choiceWithout]
        cases vs.filter (fun v => !(v == value)) <;> rfl
      · simp only [removeOneOfValue.go, replaceFirst, Clause.offersValue, Option.all_some, h, ih,
          if_false, Bool.false_eq_true]

theorem removeOneOfValue_cases (q : Query) (name : String) (value : Value) :
    ((∀ c ∈ q.clauses, c.offersValue name (some value) = false) ∧
      (q.removeOneOfValue name value).clauses = q.clauses) ∨
    ∃ before vs m after, q.clauses = before ++ .oneOf name vs m :: after ∧
      (∀ c ∈ before, c.offersValue name (some value) = false) ∧ vs.contains value = true ∧
      (q.removeOneOfValue name value).clauses =
        before ++ choiceWithout name vs m value ++ after := by
  have hgo : (q.removeOneOfValue name value).clauses = _ := removeOneOfValue_go_eq q.clauses
  rw [hgo]
  rcases replaceFirst_cases (·.offersValue name (some value)) (withoutValue value) []
      q.clauses with ⟨hnone, heq⟩ | ⟨before, c, after, hq, hbefore, hc, heq⟩
  · exact .inl ⟨hnone, heq.trans (List.append_nil _)⟩
  · obtain ⟨vs, m, rfl, hvs⟩ := exists_of_offersValue hc
    exact .inr ⟨before, vs, m, after, hq, hbefore, hvs, heq⟩

end Choices

end Query

theorem Clause.isOneOf_congr {a b : Clause} (h : (a == b) = true) : a.isOneOf = b.isOneOf := by
  rw [beq_def] at h
  cases a <;> cases b <;> first | rfl | simp [same] at h

namespace Query

theorem empty_not_mem_choiceWithout (n : String) (must : Bool) (name : String) (vs : List Value)
    (m : Bool) (value : Value) : .oneOf n [] must ∉ choiceWithout name vs m value := by
  unfold choiceWithout
  split
  · simp
  · rename_i hne
    intro hmem
    exact hne (Clause.oneOf.inj (List.mem_singleton.1 hmem)).2.1.symm

section Sets

variable {q : Query} {c : Clause}

def withoutChoices (q : Query) : Query := q.without (·.isOneOf)

theorem withoutChoices_without (q : Query) (p : Clause → Bool) :
    (q.without p).withoutChoices = q.withoutChoices.without p := by
  simp only [withoutChoices, without, List.filter_filter, Bool.and_comm]

theorem withoutChoices_push (h : c.isOneOf = false) (q : Query) :
    (q.push c).withoutChoices = q.withoutChoices.push c := by
  simp [withoutChoices, without, push, h]

theorem withoutChoices_push_of_isOneOf (h : c.isOneOf = true) (q : Query) :
    (q.push c).withoutChoices = q.withoutChoices := by
  simp [withoutChoices, without, push, h]

theorem any_withoutChoices (h : c.isOneOf = false) (q : Query) :
    q.withoutChoices.clauses.any (· == c) = q.clauses.any (· == c) := by
  rw [withoutChoices, clauses_without, List.any_filter]
  congr 1
  funext e
  cases hec : e == c with
  | true => rw [Clause.isOneOf_congr hec, h]; rfl
  | false => rw [Bool.and_false]

theorem withoutChoices_add (h : c.isOneOf = false) (q : Query) :
    (q.add c).withoutChoices = q.withoutChoices.add c := by
  cases c with
  | flag n m =>
    show ((q.without (·.setsFlag n)).push (.flag n m)).withoutChoices =
      (q.withoutChoices.without (·.setsFlag n)).push (.flag n m)
    rw [withoutChoices_push rfl, withoutChoices_without]
  | term | field =>
    rw [add_of_not_isFlag q rfl, add_of_not_isFlag _ rfl, any_withoutChoices rfl]
    split
    · rfl
    · exact withoutChoices_push rfl q
  | oneOf => simp [Clause.isOneOf] at h

theorem withoutChoices_add_of_isOneOf (h : c.isOneOf = true) (q : Query) :
    (q.add c).withoutChoices = q.withoutChoices := by
  cases c with
  | term | field | flag => simp [Clause.isOneOf] at h
  | oneOf n vs m =>
    rw [add_of_not_isFlag q rfl]
    split
    · rfl
    · exact withoutChoices_push_of_isOneOf rfl q

theorem withoutChoices_addOneOf (q : Query) (name : String) (value : Value) (must : Bool) :
    (q.addOneOf name value must).withoutChoices = q.withoutChoices := by
  rcases addOneOf_cases q name value must with ⟨-, hadd⟩ | ⟨before, vs, m, after, hq, -, hadd⟩
  · simp [withoutChoices, without, hadd, Clause.isOneOf]
  · simp [withoutChoices, without, hadd, hq, Clause.isOneOf]

theorem filter_choiceWithout (name : String) (vs : List Value) (m : Bool) (value : Value) :
    (choiceWithout name vs m value).filter (fun c => !c.isOneOf) = [] := by
  unfold choiceWithout
  split <;> rfl

theorem withoutChoices_removeOneOfValue (q : Query) (name : String) (value : Value) :
    (q.removeOneOfValue name value).withoutChoices = q.withoutChoices := by
  rcases removeOneOfValue_cases q name value with
    ⟨-, hremove⟩ | ⟨before, vs, m, after, hq, -, -, hremove⟩
  · simp only [withoutChoices, without, hremove]
  · simp only [withoutChoices, without, hremove, hq, List.filter_append, filter_choiceWithout]
    simp [Clause.isOneOf]

end Sets

end Query

theorem Edit.apply_cases (q : Query) (e : Edit) :
    (∃ c, e.apply q = q.add c ∧ (c.isOneOf = true → e = .add c)) ∨
    (∃ p, e.apply q = q.without p) ∨
    (∃ name value must, e.apply q = q.addOneOf name value must) ∨
    ∃ name value, e.apply q = q.removeOneOfValue name value := by
  cases e with
  | add c => exact .inl ⟨c, rfl, fun _ => rfl⟩
  | addField name value must op => exact .inl ⟨.field name op value must, rfl, fun h => nomatch h⟩
  | addFlag name must => exact .inl ⟨.flag name must, rfl, fun h => nomatch h⟩
  | removeFieldValue | removeField | removeOneOf | removeFlag => exact .inr (.inl ⟨_, rfl⟩)
  | addOneOf name value must => exact .inr (.inr (.inl ⟨name, value, must, rfl⟩))
  | removeOneOfValue name value => exact .inr (.inr (.inr ⟨name, value, rfl⟩))

namespace Query

section Runs

variable {q start : Query} {c : Clause} {name : String} {must : Bool}

theorem distinct_withoutChoices_apply (h : Distinct q.withoutChoices.clauses) (e : Edit) :
    Distinct (e.apply q).withoutChoices.clauses := by
  rcases e.apply_cases q with ⟨c, happly, -⟩ | ⟨p, happly⟩ | ⟨name, value, must, happly⟩ |
    ⟨name, value, happly⟩ <;> rw [happly]
  · cases hc : c.isOneOf with
    | true => rwa [withoutChoices_add_of_isOneOf hc]
    | false => exact withoutChoices_add hc q ▸ distinct_add h c
  · rw [withoutChoices_without]
    exact List.Pairwise.filter _ h
  · rwa [withoutChoices_addOneOf]
  · rwa [withoutChoices_removeOneOfValue]

theorem distinct_withoutChoices_edited (h : Distinct start.withoutChoices.clauses)
    (es : List Edit) : Distinct (start.edited es).withoutChoices.clauses := by
  induction es generalizing start with
  | nil => exact h
  | cons e es ih => exact ih (distinct_withoutChoices_apply h e)

/-- A step puts no choice without values into a query other than the clause it adds. -/
theorem mem_of_mem_apply {e : Edit} (h : .oneOf name [] must ∈ (e.apply q).clauses) :
    .oneOf name [] must ∈ q.clauses ∨ e = .add (.oneOf name [] must) := by
  rcases e.apply_cases q with ⟨c, happly, hadded⟩ | ⟨p, happly⟩ | ⟨n, value, m, happly⟩ |
    ⟨n, value, happly⟩ <;> rw [happly] at h
  · rcases mem_add h with h | rfl
    · exact .inl h
    · exact .inr (hadded rfl)
  · exact .inl (List.mem_filter.1 h).1
  · refine .inl ?_
    rcases addOneOf_cases q n value m with ⟨-, hadd⟩ | ⟨before, vs, m', after, hq, -, hadd⟩
    · rw [hadd] at h
      exact (List.mem_append.1 h).resolve_right (by simp)
    · have hgrown : [] ≠ if vs.contains value then vs else vs ++ [value] := by
        split
        · rintro rfl
          simp_all
        · simp
      rw [hadd] at h
      rw [hq]
      refine List.mem_append.2 ((List.mem_append.1 h).imp_right fun h => ?_)
      refine List.mem_cons_of_mem _ ((List.mem_cons.1 h).resolve_left fun heq => ?_)
      exact hgrown (Clause.oneOf.inj heq).2.1
  · refine .inl ?_
    rcases removeOneOfValue_cases q n value with
      ⟨-, hremove⟩ | ⟨before, vs, m', after, hq, -, -, hremove⟩
    · rwa [hremove] at h
    · rw [hremove, List.append_assoc] at h
      rw [hq]
      refine List.mem_append.2 ((List.mem_append.1 h).imp_right fun h => ?_)
      refine List.mem_cons_of_mem _ ((List.mem_append.1 h).resolve_left ?_)
      exact empty_not_mem_choiceWithout name must n vs m' value

theorem mem_of_mem_edited {es : List Edit} (h : .oneOf name [] must ∈ (start.edited es).clauses) :
    .oneOf name [] must ∈ start.clauses ∨ .add (.oneOf name [] must) ∈ es := by
  induction es generalizing start with
  | nil => exact .inl h
  | cons e es ih =>
    rcases ih h with h | h
    · exact (mem_of_mem_apply h).imp_right fun he => by rw [he]; exact List.mem_cons_self
    · exact .inr (List.mem_cons_of_mem e h)

end Runs

end Query

namespace Query

section Origins

variable {start : Query}

theorem IsOrigin.distinct (h : IsOrigin start) : Distinct start.withoutChoices.clauses := by
  cases h with
  | empty => exact .nil
  | readAll dialect now text => exact List.Pairwise.filter _ (distinct_ofClauses _)

theorem IsOrigin.oneOf_nil_not_mem (h : IsOrigin start) (name : String) (must : Bool) :
    .oneOf name [] must ∉ start.clauses := by
  cases h with
  | empty => exact List.not_mem_nil
  | readAll dialect now text =>
    intro hmem
    obtain ⟨p, hp, hclause⟩ := List.mem_filterMap.1 (mem_of_mem_ofClauses hmem)
    exact (Piece.conforms_of_clause? hp hclause).2.1 rfl

/-- Clauses at two places do not clash unless one of them is a choice. -/
theorem clashes_eq_false_of_getElem? {q : Query} {c e : Clause} {i j : Nat}
    (hq : Distinct q.withoutChoices.clauses) (hij : i ≠ j) (hc : q.clauses[i]? = some c)
    (he : q.clauses[j]? = some e) (hcone : c.isOneOf = false) (heone : e.isOneOf = false) :
    c.clashes e = false := by
  have hpair := List.pairwise_filter.1 hq
  rw [List.pairwise_iff_getElem] at hpair
  obtain ⟨hi, rfl⟩ := List.getElem?_eq_some_iff.1 hc
  obtain ⟨hj, rfl⟩ := List.getElem?_eq_some_iff.1 he
  have hkept : ∀ {c : Clause}, c.isOneOf = false → (!c.isOneOf) = true := fun h => by rw [h]; rfl
  rcases Nat.lt_or_gt_of_ne hij with hlt | hgt
  · rw [Clause.clashes_comm]
    exact hpair i j hi hj hlt (hkept hcone) (hkept heone)
  · exact hpair j i hj hi hgt (hkept heone) (hkept hcone)

/-- Edits keep the clauses that are no choices like a set: no two places hold equal terms
or equal comparisons or clauses for one flag. A choice without values is there only if
it was added. -/
theorem edited_keeps_set (h : IsOrigin start) (es : List Edit) :
    (∀ (i j : Nat) (c e : Clause), i ≠ j → (start.edited es).clauses[i]? = some c →
      (start.edited es).clauses[j]? = some e →
        (c.isTerm = true ∨ c.isField = true → (c == e) = false) ∧
        ∀ name, c.setsFlag name = true → e.setsFlag name = false) ∧
    ∀ name must, .oneOf name [] must ∈ (start.edited es).clauses →
      .add (.oneOf name [] must) ∈ es := by
  have hset {i j : Nat} {c e : Clause} (hij : i ≠ j)
      (hc : (start.edited es).clauses[i]? = some c) (he : (start.edited es).clauses[j]? = some e) :=
    clashes_eq_false_of_getElem? (distinct_withoutChoices_edited h.distinct es) hij hc he
  refine ⟨fun i j c e hij hc he => ⟨fun hkind => ?_, fun name hflag => ?_⟩, fun name must hmem =>
    (mem_of_mem_edited hmem).resolve_left (h.oneOf_nil_not_mem name must)⟩
  · obtain ⟨hcone, hcflag⟩ : c.isOneOf = false ∧ c.isFlag = false := by
      cases c <;> first | exact ⟨rfl, rfl⟩ | simp [Clause.isTerm, Clause.isField] at hkind
    refine Bool.eq_false_iff.2 fun hce => ?_
    have hclashes := hset hij hc he hcone ((Clause.isOneOf_congr hce).symm.trans hcone)
    rw [Clause.clashes_of_not_isFlag hcflag, BEq.symm hce] at hclashes
    simp at hclashes
  · cases c with
    | flag n m =>
      obtain rfl : n = name := beq_iff_eq.1 hflag
      cases e with
      | flag => exact hset hij hc he rfl rfl
      | term | field | oneOf => rfl
    | term | field | oneOf => simp [Clause.setsFlag] at hflag

theorem edited_keeps_set_sold :
    let start := (Query.readAll {} (.midnight 0) "is:sold size:5 lid:(").query
    let es : List Edit := [.addFlag "sold" false, .add (.oneOf "lid" [] true),
      .addField "size" (.bool true) true .eq, .removeOneOfValue "lid" (.text "tin")]
    IsOrigin start ∧
    (∀ (i j : Nat) (c e : Clause), i ≠ j → (start.edited es).clauses[i]? = some c →
      (start.edited es).clauses[j]? = some e →
        (c.isTerm = true ∨ c.isField = true → (c == e) = false) ∧
        ∀ name, c.setsFlag name = true → e.setsFlag name = false) ∧
    ∀ name must, .oneOf name [] must ∈ (start.edited es).clauses →
      .add (.oneOf name [] must) ∈ es :=
  ⟨.readAll .., edited_keeps_set (.readAll ..) _⟩

end Origins

end Query

end SearchBar
