import Mathlib.Data.List.Perm.Basic
import SearchBar.Compile.QueryObject
import SearchBar.Proofs.Query.Reading

/-! # The branches of a query object

The steps of the making of a query object share out the clauses of the query among its
parts. The parts of each branch are listed here kind by kind, and together they hold every
clause of the polarity of the branch once.
-/

namespace SearchBar

section Grouping

variable {α β : Type} [BEq β] (key : α → β)

theorem eraseDups_map_cons (a : α) (as : List α) : ((a :: as).map key).eraseDups =
    key a :: ((as.filter fun x => !key x == key a).map key).eraseDups := by
  rw [List.map_cons, List.eraseDups_cons, List.filter_map]
  rfl

variable [LawfulBEq β]

theorem filter_key_of_mem {a : α} {as : List α} {b : β}
    (hb : b ∈ ((as.filter fun x => !key x == key a).map key).eraseDups) :
    (a :: as).filter (key · == b) =
      (as.filter fun x => !key x == key a).filter (key · == b) := by
  obtain ⟨x, hx, rfl⟩ := List.mem_map.1 (List.mem_eraseDups.1 hb)
  have hne : key x ≠ key a := by simpa using (List.mem_filter.1 hx).2
  rw [List.filter_cons_of_neg (by simpa using Ne.symm hne), List.filter_filter]
  refine List.filter_congr fun y _ => ?_
  by_cases hy : key y = key x
  · simp [hy, hne]
  · simp [hy]

/-- Members gathered by their keys are the members in another order. -/
theorem flatMap_filter_key_perm (as : List α) :
    ((as.map key).eraseDups.flatMap fun b => as.filter (key · == b)).Perm as :=
  match as with
  | [] => .nil
  | a :: as => by
    have hshort : (as.filter fun x => !key x == key a).length ≤ as.length :=
      List.length_filter_le _ _
    have ih := flatMap_filter_key_perm (as.filter fun x => !key x == key a)
    have hhead : (a :: as).filter (key · == key a) = a :: as.filter (key · == key a) :=
      List.filter_cons_of_pos BEq.rfl
    rw [eraseDups_map_cons, List.flatMap_cons, hhead,
      List.flatMap_congr fun b hb => filter_key_of_mem key hb]
    exact ((ih.append_left _).trans (List.filter_append_perm _ as)).cons a
termination_by as.length

end Grouping

namespace Query

def comparisons (q : Query) (must : Bool) : List (String × (Operator × Value)) :=
  q.clauses.filterMap fun
    | .field n op v m => if m == must then some (n, op, v) else none
    | _ => none

/-- The fields that must compare, each where it is mentioned first. -/
def comparedFields (q : Query) : List String := ((q.comparisons true).map (·.1)).eraseDups

def operations (q : Query) (field : String) : List (Operator × Value) :=
  ((q.comparisons true).filter (·.1 == field)).map (·.2)

def ownParts (q : Query) (must : Bool) : List Part :=
  q.clauses.filterMap fun
    | .oneOf n vs m => if m == must then some (.any n vs) else none
    | .flag n m => if m == must then some (.flag n) else none
    | _ => none

/-- The parts that must hold: all terms together, the operations of each field together,
choices and flags. -/
def mustParts (q : Query) : List Part :=
  (if (q.termTexts true).isEmpty then [] else [.terms (q.termTexts true)])
    ++ q.comparedFields.map (fun field => .all field (q.operations field)) ++ q.ownParts true

/-- The parts that must not hold: each term, each comparison, choices and flags. -/
def mustNotParts (q : Query) : List Part :=
  (q.termTexts false).map (fun text => .terms [text])
    ++ (q.comparisons false).map (fun c => .all c.1 [c.2]) ++ q.ownParts false

section Groups

variable {field : String} {ops : List (Operator × Value)}

/-- Adds comparisons to the groups of their fields, one after the other. -/
def gather (groups : List (String × List (Operator × Value)))
    (cs : List (String × (Operator × Value))) : List (String × List (Operator × Value)) :=
  cs.foldl (fun done c => addToGroup c.1 c.2 done) groups

theorem gather_cons (groups : List (String × List (Operator × Value)))
    (cs : List (String × (Operator × Value))) : gather ((field, ops) :: groups) cs =
      (field, ops ++ (cs.filter (·.1 == field)).map (·.2)) ::
        gather groups (cs.filter fun c => !c.1 == field) := by
  induction cs generalizing ops groups with
  | nil => simp [gather]
  | cons c cs ih =>
    by_cases h : field = c.1
    · subst h
      have hadd : addToGroup c.1 c.2 ((c.1, ops) :: groups) = (c.1, ops ++ [c.2]) :: groups := by
        simp [addToGroup]
      rw [gather, List.foldl_cons, hadd, ← gather, ih]
      simp
    · have hadd : addToGroup c.1 c.2 ((field, ops) :: groups) =
          (field, ops) :: addToGroup c.1 c.2 groups := by simp [addToGroup, h]
      rw [gather, List.foldl_cons, hadd, ← gather, ih]
      have hne : ¬ c.1 = field := fun hc => h hc.symm
      simp [hne, gather]

/-- Comparisons are gathered under their fields in the order of first mention. -/
theorem gather_nil (cs : List (String × (Operator × Value))) : gather [] cs =
    (cs.map (·.1)).eraseDups.map fun field =>
      (field, (cs.filter (·.1 == field)).map (·.2)) :=
  match cs with
  | [] => rfl
  | c :: cs => by
    have hshort : (cs.filter fun x => !x.1 == c.1).length ≤ cs.length :=
      List.length_filter_le _ _
    have ih := gather_nil (cs.filter fun x => !x.1 == c.1)
    have hfirst : gather [] (c :: cs) = gather [(c.1, [c.2])] cs := rfl
    rw [hfirst, gather_cons, ih, eraseDups_map_cons, List.map_cons]
    congr 1
    · simp
    · refine List.map_congr_left fun field hfield => ?_
      rw [filter_key_of_mem _ hfield]
termination_by cs.length

theorem groups_eq (q : Query) :
    q.groups = q.comparedFields.map fun field => (field, q.operations field) := by
  have hgather : q.groups = gather [] (q.comparisons true) := by
    rw [groups, gather, comparisons, List.foldl_filterMap]
    congr 1
    funext done c
    cases c with
    | field n op v m => cases m <;> rfl
    | term | oneOf | flag => rfl
  rw [hgather, gather_nil]
  rfl

end Groups

section Steps

def partsOf (must : Bool) (steps : List (Bool × Part)) : List Part :=
  (steps.filter (·.1 == must)).map (·.2)

theorem partsOf_append (must : Bool) (ss ts : List (Bool × Part)) :
    partsOf must (ss ++ ts) = partsOf must ss ++ partsOf must ts := by
  simp [partsOf]

theorem partsOf_map {α : Type} (must polarity : Bool) (f : α → Part) (as : List α) :
    partsOf must (as.map fun a => (polarity, f a)) =
      if polarity == must then as.map f else [] := by
  cases h : polarity == must <;> simp [partsOf, List.filter_map, Function.comp_def, h]

def negatedSteps (q : Query) : List (Bool × Part) :=
  q.clauses.filterMap fun
    | .field n op v false => some (false, .all n [(op, v)])
    | _ => none

def ownSteps (q : Query) : List (Bool × Part) :=
  q.clauses.filterMap fun
    | .oneOf n vs m => some (m, .any n vs)
    | .flag n m => some (m, .flag n)
    | _ => none

theorem partsOf_ownSteps (q : Query) (must : Bool) : partsOf must q.ownSteps = q.ownParts must := by
  rw [partsOf, ownSteps, ownParts, List.filter_filterMap, List.map_filterMap]
  refine List.filterMap_congr fun c _ => ?_
  cases c with
  | term | field => rfl
  | oneOf n vs m | flag n m => cases m <;> cases must <;> rfl

theorem negatedSteps_eq (q : Query) :
    q.negatedSteps = (q.comparisons false).map fun c => (false, .all c.1 [c.2]) := by
  rw [negatedSteps, comparisons, List.map_filterMap]
  refine List.filterMap_congr fun c _ => ?_
  cases c with
  | field n op v m => cases m <;> rfl
  | term | oneOf | flag => rfl

theorem steps_eq (q : Query) : q.steps =
    (if (q.termTexts true).isEmpty then [] else [(true, .terms (q.termTexts true))])
      ++ (q.termTexts false).map (fun text => (false, .terms [text]))
      ++ (q.comparisons false).map (fun c => (false, .all c.1 [c.2]))
      ++ q.comparedFields.map (fun field => (true, .all field (q.operations field)))
      ++ q.ownSteps := by
  rw [← negatedSteps_eq]
  have hgroups : q.groups.map (fun g => (true, Part.all g.1 g.2)) =
      q.comparedFields.map fun field => (true, Part.all field (q.operations field)) := by
    rw [groups_eq, List.map_map]
    rfl
  rw [← hgroups]
  rfl

theorem partsOf_steps (q : Query) :
    partsOf true q.steps = q.mustParts ∧ partsOf false q.steps = q.mustNotParts := by
  have hterms (must : Bool) : partsOf must
      (if (q.termTexts true).isEmpty then [] else [(true, .terms (q.termTexts true))]) =
        if must && !(q.termTexts true).isEmpty then [.terms (q.termTexts true)] else [] := by
    cases must <;> cases (q.termTexts true).isEmpty <;> rfl
  simp only [steps_eq, partsOf_append, partsOf_map, partsOf_ownSteps, hterms, mustParts,
    mustNotParts]
  constructor
  · cases (q.termTexts true).isEmpty <;> simp
  · simp

variable {ε : Type} {q : Query} {t : PartCompiler ε} {defaultFields : List String}
  {made : Part → Json}

/-- If all parts are compiled, the compound has the queries of the parts in its branches. -/
theorem toObject_of_steps (hq : q.clauses ≠ [])
    (h : ∀ s ∈ q.steps, t.compile defaultFields s.2 = .ok (made s.2)) :
    q.toObject t defaultFields = .ok (single "bool" (.obj
      (branch "must" ((partsOf true q.steps).map made)
        ++ branch "must_not" ((partsOf false q.steps).map made)))) := by
  have hmade : (q.steps.mapM fun s => (t.compile defaultFields s.2).map fun j => (s.1, j)) =
      .ok (q.steps.map fun s => (s.1, made s.2)) :=
    mapM_eq_ok_iff.2 (List.forall₂_map_right_iff.2 (List.forall₂_same.2 fun s hs => by
      rw [h s hs]
      rfl))
  have hbranch (must : Bool) : ((q.steps.map fun s => (s.1, made s.2)).filter (·.1 == must)).map
      (·.2) = (partsOf must q.steps).map made := by
    simp [partsOf, List.filter_map, Function.comp_def]
  simp only [toObject, List.isEmpty_iff, hq, if_false, hmade]
  show Except.ok _ = _
  simp only [hbranch]

end Steps

end Query

def PartCompiler.standardObject (defaultFields : List String) : Part → Json
  | .terms texts => termsObject texts defaultFields
  | .all field operations => allObject field operations
  | .any field values => anyObject field values
  | .flag name => flagObject name true

theorem PartCompiler.compile_standard (ε : Type) (defaultFields : List String) (p : Part) :
    (standard ε).compile defaultFields p = .ok (standardObject defaultFields p) := by
  cases p <;> rfl

def Part.clauses (must : Bool) : Part → List Clause
  | terms texts => texts.map fun s => .term s must
  | all field operations => operations.map fun o => .field field o.1 o.2 must
  | any field values => [.oneOf field values must]
  | flag name => [.flag name must]

namespace Query

section Sharing

theorem clauses_termTexts (q : Query) (must : Bool) :
    (q.termTexts must).map (fun s => .term s must) =
      (q.clauses.filter (·.must == must)).filter (·.isTerm) := by
  rw [termTexts, List.map_filterMap, List.filter_filter, ← List.filterMap_eq_filter]
  refine List.filterMap_congr fun c _ => ?_
  cases c with
  | term s m => cases m <;> cases must <;> rfl
  | field | oneOf | flag => rfl

theorem clauses_comparisons (q : Query) (must : Bool) :
    (q.comparisons must).map (fun c => .field c.1 c.2.1 c.2.2 must) =
      (q.clauses.filter (·.must == must)).filter (·.isField) := by
  rw [comparisons, List.map_filterMap, List.filter_filter, ← List.filterMap_eq_filter]
  refine List.filterMap_congr fun c _ => ?_
  cases c with
  | field n op v m => cases m <;> cases must <;> rfl
  | term | oneOf | flag => rfl

theorem clauses_ownParts (q : Query) (must : Bool) :
    (q.ownParts must).flatMap (·.clauses must) =
      (q.clauses.filter (·.must == must)).filter fun c => c.isOneOf || c.isFlag := by
  rw [ownParts, List.filter_filter]
  induction q.clauses with
  | nil => rfl
  | cons c cs ih =>
    cases c with
    | term | field => simpa [Clause.isOneOf, Clause.isFlag] using ih
    | oneOf n vs m | flag n m =>
      cases m <;> cases must <;>
        simpa [Clause.isOneOf, Clause.isFlag, Clause.must, Part.clauses] using ih

theorem clauses_operations_perm (q : Query) :
    ((q.comparedFields.map fun field => Part.all field (q.operations field)).flatMap
      (·.clauses true)).Perm ((q.comparisons true).map fun c => .field c.1 c.2.1 c.2.2 true) := by
  have hfield (field : String) : (Part.all field (q.operations field)).clauses true =
      ((q.comparisons true).filter (·.1 == field)).map fun c => .field c.1 c.2.1 c.2.2 true := by
    rw [Part.clauses, operations, List.map_map]
    refine List.map_congr_left fun c hc => ?_
    rw [← beq_iff_eq.1 (List.mem_filter.1 hc).2]
    rfl
  rw [List.flatMap_map]
  simp only [hfield, ← List.map_flatMap]
  exact (flatMap_filter_key_perm (·.1) (q.comparisons true)).map _

theorem kinds_perm (cs : List Clause) :
    (cs.filter (·.isTerm) ++ cs.filter (·.isField)
      ++ cs.filter fun c => c.isOneOf || c.isFlag).Perm cs := by
  have hfield : (cs.filter fun c => !c.isTerm).filter (·.isField) = cs.filter (·.isField) := by
    rw [List.filter_filter]
    refine List.filter_congr fun c _ => ?_
    cases c <;> rfl
  have hown : (cs.filter fun c => !c.isTerm).filter (fun c => !c.isField) =
      cs.filter fun c => c.isOneOf || c.isFlag := by
    rw [List.filter_filter]
    refine List.filter_congr fun c _ => ?_
    cases c <;> rfl
  have hothers := List.filter_append_perm (·.isField) (cs.filter fun c => !c.isTerm)
  rw [hfield, hown] at hothers
  rw [List.append_assoc]
  exact (hothers.append_left _).trans (List.filter_append_perm _ cs)

theorem clauses_mustParts_perm (q : Query) :
    (q.mustParts.flatMap (·.clauses true)).Perm (q.clauses.filter (·.must)) := by
  have hterms : (if (q.termTexts true).isEmpty then [] else
      [Part.terms (q.termTexts true)]).flatMap (·.clauses true) =
        (q.termTexts true).map fun s => .term s true := by
    cases h : (q.termTexts true).isEmpty with
    | true => rw [List.isEmpty_iff.1 h]; rfl
    | false => simp [Part.clauses]
  have hkinds := kinds_perm (q.clauses.filter (·.must == true))
  simp only [beq_true] at hkinds
  rw [mustParts, List.flatMap_append, List.flatMap_append, hterms]
  refine .trans (((q.clauses_operations_perm).append_left _).append_right _) ?_
  simpa only [clauses_termTexts, clauses_comparisons, clauses_ownParts, beq_true] using hkinds

theorem clauses_mustNotParts_perm (q : Query) :
    (q.mustNotParts.flatMap (·.clauses false)).Perm (q.clauses.filter fun c => !c.must) := by
  have hkinds := kinds_perm (q.clauses.filter (·.must == false))
  have hterms : ((q.termTexts false).map fun text => Part.terms [text]).flatMap
      (·.clauses false) = (q.termTexts false).map fun s => .term s false := by
    rw [List.flatMap_map, List.map_eq_flatMap]
    rfl
  have hfields : ((q.comparisons false).map fun c => Part.all c.1 [c.2]).flatMap
      (·.clauses false) = (q.comparisons false).map fun c => .field c.1 c.2.1 c.2.2 false := by
    rw [List.flatMap_map, List.map_eq_flatMap]
    rfl
  rw [mustNotParts, List.flatMap_append, List.flatMap_append, hterms, hfields, clauses_termTexts,
    clauses_comparisons, clauses_ownParts]
  simpa only [beq_false] using hkinds

end Sharing

/-- A query that is not empty becomes a compound of the queries of its parts, if all of
them are compiled. The parts of a branch stand for the clauses of its polarity, each once. -/
theorem toObject_shares_clauses {ε : Type} {q : Query} {t : PartCompiler ε}
    {defaultFields : List String} {made : Part → Json} (hq : q.clauses ≠ [])
    (h : ∀ p ∈ q.mustParts ++ q.mustNotParts, t.compile defaultFields p = .ok (made p)) :
    q.toObject t defaultFields = .ok (single "bool" (.obj
        (branch "must" (q.mustParts.map made) ++ branch "must_not" (q.mustNotParts.map made)))) ∧
      (q.mustParts.flatMap (·.clauses true)).Perm (q.clauses.filter (·.must)) ∧
      (q.mustNotParts.flatMap (·.clauses false)).Perm (q.clauses.filter fun c => !c.must) := by
  obtain ⟨hmust, hnot⟩ := partsOf_steps q
  refine ⟨?_, q.clauses_mustParts_perm, q.clauses_mustNotParts_perm⟩
  rw [← hmust, ← hnot] at h ⊢
  refine toObject_of_steps hq fun s hs => h s.2 ?_
  have hmem : s.2 ∈ partsOf s.1 q.steps :=
    List.mem_map_of_mem (List.mem_filter.2 ⟨hs, BEq.rfl⟩)
  cases hpolarity : s.1 with
  | true => exact List.mem_append_left _ (hpolarity ▸ hmem)
  | false => exact List.mem_append_right _ (hpolarity ▸ hmem)

theorem toObject_shares_clauses_mixed :
    let q : Query := ⟨[.field "size" .gt (.text "5") true, .term "red" false, .flag "sold" false,
      .term "box" true, .oneOf "lid" [.bool true] true, .field "size" .lt (.text "9") true,
      .field "size" .eq (.text "7") false, .term "tin" true]⟩
    (q.clauses ≠ [] ∧ ∀ p ∈ q.mustParts ++ q.mustNotParts,
      (PartCompiler.standard Unit).compile ["name"] p =
        .ok (PartCompiler.standardObject ["name"] p)) ∧
    q.toObject (PartCompiler.standard Unit) ["name"] = .ok (single "bool" (.obj
      [("must", .arr [PartCompiler.termsObject ["box", "tin"] ["name"],
          PartCompiler.allObject "size" [(.gt, .text "5"), (.lt, .text "9")],
          PartCompiler.anyObject "lid" [.bool true]]),
        ("must_not", .arr [PartCompiler.termsObject ["red"] ["name"],
          PartCompiler.allObject "size" [(.eq, .text "7")],
          PartCompiler.flagObject "sold" true])])) := by
  intro q
  have hq : q.clauses ≠ [] := by simp [q]
  have hparts : ∀ p ∈ q.mustParts ++ q.mustNotParts,
      (PartCompiler.standard Unit).compile ["name"] p =
        .ok (PartCompiler.standardObject ["name"] p) :=
    fun p _ => PartCompiler.compile_standard Unit ["name"] p
  exact ⟨⟨hq, hparts⟩, (toObject_shares_clauses hq hparts).1.trans rfl⟩

end Query

end SearchBar
