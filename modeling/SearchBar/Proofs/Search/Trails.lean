import Mathlib.Data.List.Forall2
import Mathlib.Data.String.Basic
import SearchBar.Proofs.Search.Narrowing

/-! # Trails

A search with trails tries every clause on every record, a search without them stops at the
first clause that a record does not meet. Both find the same records. A trail is a member of
its own in the records that are objects: their other members stay as they are.
-/

namespace SearchBar

open Calendar

namespace Json

variable {key : String} {value : Json} {members : List (String × Json)} {m : String × Json}

def InOrder (members : List (String × Json)) : Prop := members.Pairwise fun m n => m.1 < n.1

theorem mem_insert (h : m ∈ insert key value members) : m = (key, value) ∨ m ∈ members := by
  induction members with
  | nil => exact .inl (List.mem_singleton.1 h)
  | cons n rest ih =>
    rw [insert] at h
    split at h
    · exact (List.mem_cons.1 h).imp_right (List.mem_cons_of_mem n)
    · split at h
      · exact List.mem_cons.1 h
      · rcases List.mem_cons.1 h with rfl | h
        · exact .inr List.mem_cons_self
        · exact (ih h).imp_right (List.mem_cons_of_mem n)

theorem inOrder_insert (h : InOrder members) : InOrder (insert key value members) := by
  induction members with
  | nil => exact List.pairwise_singleton _ _
  | cons n rest ih =>
    obtain ⟨hn, hrest⟩ := List.pairwise_cons.1 h
    rw [insert]
    split
    · rename_i heq
      exact List.pairwise_cons.2 ⟨heq ▸ hn, hrest⟩
    · rename_i hne
      split
      · rename_i hlt
        refine List.pairwise_cons.2 ⟨List.forall_mem_cons.2 ⟨hlt, fun m hm => ?_⟩, h⟩
        exact hlt.trans (hn m hm)
      · rename_i hlt
        refine List.pairwise_cons.2 ⟨fun m hm => ?_, ih hrest⟩
        rcases mem_insert hm with rfl | hm
        · exact lt_of_le_of_ne (not_lt.1 hlt) (Ne.symm hne)
        · exact hn m hm

theorem filter_insert (key : String) (value : Json) (members : List (String × Json)) :
    (insert key value members).filter (·.1 != key) = members.filter (·.1 != key) := by
  induction members with
  | nil => simp [insert]
  | cons n rest ih =>
    rw [insert]
    split
    · rename_i heq
      simp [heq]
    · split
      · simp
      · rw [List.filter_cons, List.filter_cons, ih]

end Json

/-- An entry of a trail says of which kind the clause is, how it is written and that the
record meets it. -/
structure Clause.IsTraced (now : Instant) (c : Clause) (entry : Json) : Prop where
  kind : entry.member? "type" = some (.str c.kind)
  text : entry.member? "clause" = some (.str (String.ofList (c.write now)))
  hit : entry.member? "hit" = some (.bool true)

namespace Query

/-- A record and what is found in its place by a search with trails. -/
inductive Explains (q : Query) (now : Instant) : Json → Json → Prop
  | object {members members' : List (String × Json)} {trail : List Json}
      (htrail : Json.find? trailKey members' = some (.arr trail))
      (hentries : List.Forall₂ (Clause.IsTraced now) q.clauses trail)
      (hothers : members'.filter (·.1 != trailKey) = members.filter (·.1 != trailKey))
      (horder : Json.InOrder members → Json.InOrder members') :
      Explains q now (.obj members) (.obj members')
  | other {v : Json} (h : ∀ members, v ≠ .obj members) : Explains q now v v

variable {q : Query} {options : SearchOptions} {record : Json} {c : Clause}

theorem search_of_explain (h : options.explain = true) (now : Instant) (records : List Json) :
    q.search now options records = (records.filter (q.holds options)).map fun record =>
      record.withTrail (q.clauses.map (·.trail now options record)) := by
  induction records with
  | nil => rfl
  | cons record records ih =>
    have hall : ((q.clauses.map (·.holds options record)).all id) = q.holds options record := by
      rw [List.all_map]
      rfl
    rw [search, List.filterMap_cons, ← search, ih, List.filter_cons]
    simp only [h, if_true, hall]
    cases q.holds options record <;> rfl

theorem holds_explain (options : SearchOptions) (explain : Bool) :
    q.holds { options with explain := explain } = q.holds options := by
  have hclause (record : Json) (c : Clause) :
      c.holds { options with explain := explain } record = c.holds options record := by
    cases c <;> rfl
  funext record
  simp only [holds, hclause]

theorem isTraced_trail (h : c.holds options record = true) (now : Instant) :
    c.IsTraced now (c.trail now options record) := by
  constructor <;> simp [Clause.trail, Json.ofMembers, Json.member?, Json.find?_insert_self,
    Json.find?_insert_of_ne, h]

theorem explains_withTrail (h : q.holds options record = true) (now : Instant) :
    q.Explains now record (record.withTrail (q.clauses.map (·.trail now options record))) := by
  have hentries : List.Forall₂ (Clause.IsTraced now) q.clauses
      (q.clauses.map (·.trail now options record)) :=
    List.forall₂_map_right_iff.2 (List.forall₂_same.2 fun c hc =>
      isTraced_trail (holds_iff.1 h c hc) now)
  cases record with
  | obj members =>
    exact .object (Json.find?_insert_self ..) hentries (Json.filter_insert ..) Json.inOrder_insert
  | null | bool | int | float | str | arr => exact .other fun _ => by simp

/-- A search with trails finds the records that the search without them finds, in the same
order and each with the trail of all clauses, whatever decides on flags and at any time. -/
theorem search_explain (q : Query) (now now' : Instant) (options : SearchOptions)
    (records : List Json) :
    List.Forall₂ (q.Explains now) (q.search now' { options with explain := false } records)
      (q.search now { options with explain := true } records) := by
  rw [search_eq_filter rfl, search_of_explain rfl, holds_explain options false,
    holds_explain options true, List.forall₂_map_right_iff, List.forall₂_same]
  intro record hrecord
  refine explains_withTrail ?_ now
  rw [holds_explain options true]
  exact (List.mem_filter.1 hrecord).2

end Query

end SearchBar
