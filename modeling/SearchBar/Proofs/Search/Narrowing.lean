import Mathlib.Data.List.Pairwise
import SearchBar.Proofs.Query.Composition
import SearchBar.Proofs.Query.RoundTrip
import SearchBar.Proofs.Search.Matching
import SearchBar.Search.Results

/-! # Searches and the clauses of a query

A search keeps the records that meet every clause, so what it finds depends on the set of
the clauses only. A clause that is added to a query narrows the search, unless it turns a
flag over: then it takes the place of the clause that was there.
-/

namespace SearchBar

open Calendar

def Clause.opposes : Clause → Clause → Bool
  | flag n m, flag n' m' => n == n' && m != m'
  | _, _ => false

theorem Clause.opposes_iff {c e : Clause} : c.opposes e = true ↔
    ∃ n m m', c = flag n m ∧ e = flag n m' ∧ m ≠ m' := by
  constructor
  · intro h
    cases c <;> cases e <;> simp only [opposes, Bool.false_eq_true, Bool.and_eq_true] at h
    exact ⟨_, _, _, rfl, by rw [beq_iff_eq.1 h.1], bne_iff_ne.1 h.2⟩
  · rintro ⟨n, m, m', rfl, rfl, hne⟩
    simp [opposes, hne]

theorem Clause.opposes_comm (c e : Clause) : c.opposes e = e.opposes c := by
  rw [Bool.eq_iff_iff, opposes_iff, opposes_iff]
  exact ⟨fun ⟨n, m, m', hc, he, hne⟩ => ⟨n, m', m, he, hc, hne.symm⟩,
    fun ⟨n, m, m', he, hc, hne⟩ => ⟨n, m', m, hc, he, hne.symm⟩⟩

namespace Query

variable {options : SearchOptions} {record : Json} {q r : Query} {c : Clause} {cs : List Clause}

section Holding

theorem holds_iff :
    q.holds options record = true ↔ ∀ c ∈ q.clauses, c.holds options record = true :=
  List.all_eq_true

theorem search_eq_filter (h : options.explain = false) (now : Instant) (records : List Json) :
    q.search now options records = records.filter (q.holds options) := by
  rw [← List.filterMap_eq_filter]
  simp only [search, h, Bool.false_eq_true, if_false]
  rfl

theorem mem_search_iff (h : options.explain = false) {now : Instant} {records : List Json} :
    record ∈ q.search now options records ↔
      record ∈ records ∧ ∀ c ∈ q.clauses, c.holds options record = true := by
  rw [search_eq_filter h, List.mem_filter, holds_iff]

end Holding

section Sets

theorem holds_of_forall_exists (h : ∀ c ∈ r.clauses, ∃ e ∈ q.clauses, (e == c) = true)
    (hq : q.holds options record = true) : r.holds options record = true := by
  refine holds_iff.2 fun c hc => ?_
  obtain ⟨e, he, hec⟩ := h c hc
  rw [← Clause.holds_congr hec]
  exact holds_iff.1 hq e he

theorem holds_of_sameClauses (h : q.sameClauses r = true) :
    q.holds options = r.holds options := by
  funext record
  rw [Bool.eq_iff_iff]
  exact ⟨holds_of_forall_exists fun _ => exists_mem_of_sameClauses h,
    holds_of_forall_exists fun _ => exists_mem_of_sameClauses ((sameClauses_comm r q).trans h)⟩

/-- Queries with the same clauses find the same records in the same order, at any time and
whatever decides on flags. -/
theorem search_eq_of_sameClauses (h : q.sameClauses r = true) (hexplain : options.explain = false)
    (now now' : Instant) (records : List Json) :
    q.search now options records = r.search now' options records := by
  rw [search_eq_filter hexplain, search_eq_filter hexplain, holds_of_sameClauses h]

end Sets

section Adding

/-- No flag is set by one clause and refused by another one. -/
def Agreeing (cs : List Clause) : Prop := ∀ c ∈ cs, ∀ e ∈ cs, c.opposes e = false

theorem Agreeing.mono {es : List Clause} (h : Agreeing es) (hsub : ∀ c ∈ cs, c ∈ es) :
    Agreeing cs := fun c hc e he => h c (hsub c hc) e (hsub e he)

theorem Agreeing.append {es : List Clause} (hcs : Agreeing cs) (hes : Agreeing es)
    (h : ∀ c ∈ cs, ∀ e ∈ es, c.opposes e = false) : Agreeing (cs ++ es) := by
  intro c hc e he
  rcases List.mem_append.1 hc with hc | hc <;> rcases List.mem_append.1 he with he | he
  · exact hcs c hc e he
  · exact h c hc e he
  · rw [Clause.opposes_comm]
    exact h e he c hc
  · exact hes c hc e he

theorem agreeing_of_distinct (h : Distinct cs) : Agreeing cs := by
  intro c hc e he
  by_contra hopposes
  rw [Bool.not_eq_false, Clause.opposes_iff] at hopposes
  obtain ⟨n, m, m', rfl, rfl, hne⟩ := hopposes
  have hsymm : Std.Symm fun e c : Clause => c.clashes e = false :=
    ⟨fun e c hec => by rwa [Clause.clashes_comm]⟩
  have hclash := h.forall hc he fun heq => hne (Clause.flag.inj heq).2
  simp [Clause.clashes, Clause.setsFlag] at hclash

/-- A clause that turns no flag over narrows the query it is added to. -/
theorem holds_add_iff (h : Agreeing (q.clauses ++ [c])) :
    (q.add c).holds options record = true ↔
      q.holds options record = true ∧ c.holds options record = true := by
  cases c with
  | flag n m =>
    show ((q.without (·.setsFlag n)).push (.flag n m)).holds options record = true ↔ _
    simp only [holds_iff, clauses_push, clauses_without, List.forall_mem_append,
      List.forall_mem_singleton, List.mem_filter, Bool.not_eq_true']
    refine ⟨fun hall => ⟨fun e he => ?_, hall.2⟩, fun hall => ⟨fun e he => hall.1 e he.1, hall.2⟩⟩
    cases hflag : e.setsFlag n with
    | false => exact hall.1 e ⟨he, hflag⟩
    | true =>
      cases e with
      | flag n' m' =>
        obtain rfl : n' = n := beq_iff_eq.1 hflag
        have hopposes := h _ (List.mem_append_left _ he) _
          (List.mem_append_right _ (List.mem_singleton_self _))
        obtain rfl : m' = m := by simpa [Clause.opposes] using hopposes
        exact hall.2
      | term | field | oneOf => simp [Clause.setsFlag] at hflag
  | term | field | oneOf =>
    rw [add_of_not_isFlag q rfl]
    split
    · rename_i hany
      obtain ⟨e, he, hec⟩ := List.any_eq_true.1 hany
      refine ⟨fun hall => ⟨hall, ?_⟩, And.left⟩
      rw [← Clause.holds_congr hec]
      exact holds_iff.1 hall e he
    · simp only [holds_iff, clauses_push, List.forall_mem_append, List.forall_mem_singleton]

theorem holds_foldl_add_iff (h : Agreeing (q.clauses ++ cs)) :
    (cs.foldl add q).holds options record = true ↔
      q.holds options record = true ∧ ∀ c ∈ cs, c.holds options record = true := by
  induction cs generalizing q with
  | nil => simp
  | cons c cs ih =>
    have hstep : Agreeing (q.clauses ++ [c]) := h.mono fun e he => by
      simp only [List.mem_append, List.mem_cons, List.not_mem_nil, or_false] at he ⊢
      exact he.imp_right .inl
    have hrest : Agreeing ((q.add c).clauses ++ cs) := h.mono fun e he => by
      rcases List.mem_append.1 he with he | he
      · rcases mem_add he with he | rfl
        · exact List.mem_append_left _ he
        · simp
      · exact List.mem_append_right _ (List.mem_cons_of_mem c he)
    rw [List.foldl_cons, ih hrest, holds_add_iff hstep, List.forall_mem_cons, and_assoc]

/-- The second query is searched for among what the first one finds. -/
theorem search_foldl_add (h : Agreeing (q.clauses ++ r.clauses))
    (hexplain : options.explain = false) (now : Instant) (records : List Json) :
    (r.clauses.foldl add q).search now options records =
      r.search now options (q.search now options records) := by
  rw [search_eq_filter hexplain, search_eq_filter hexplain, search_eq_filter hexplain,
    List.filter_filter]
  refine List.filter_congr fun record _ => ?_
  rw [Bool.eq_iff_iff, holds_foldl_add_iff h, Bool.and_eq_true, and_comm, holds_iff (q := r)]

theorem distinct_of_read {dialect : Dialect} {now : Instant} {text : String}
    (h : Query.read dialect now text = .ok q) : Distinct q.clauses := by
  obtain ⟨cs, -, rfl⟩ := read_eq_ok_iff_forall₂.1 h
  exact distinct_ofClauses cs

/-- A text behind another one and a space narrows its search to the records that meet the
clauses of both, unless one of them sets a flag that the other one refuses. The texts may be
read at different times. -/
theorem search_append_space {a b : String} {t t' : Instant} (ha : Query.read {} t a = .ok q)
    (hb : Query.read {} t' b = .ok r)
    (hflags : ∀ c ∈ q.clauses, ∀ e ∈ r.clauses, c.opposes e = false) :
    ∃ joined, ∀ now, Query.read {} now (a ++ " " ++ b) = .ok joined ∧
      ∀ options, options.explain = false → ∀ records,
        joined.search now options records =
            r.search now options (q.search now options records) ∧
          ∀ record, record ∈ joined.search now options records ↔
            record ∈ records ∧ (∀ c ∈ q.clauses, c.holds options record = true) ∧
              ∀ c ∈ r.clauses, c.holds options record = true := by
  refine ⟨r.clauses.foldl add q, fun now => ⟨?_, fun options hexplain records => ?_⟩⟩
  · rw [read_of_schema_eq_none rfl t now] at ha
    rw [read_of_schema_eq_none rfl t' now] at hb
    exact read_append_gap rfl ha hb (by decide) (by simp [Text.gaps])
  · have hagree : Agreeing (q.clauses ++ r.clauses) :=
      (agreeing_of_distinct (distinct_of_read ha)).append
        (agreeing_of_distinct (distinct_of_read hb)) hflags
    have hjoined := search_foldl_add hagree hexplain now records
    refine ⟨hjoined, fun record => ?_⟩
    rw [hjoined, mem_search_iff hexplain, mem_search_iff hexplain, and_assoc]

theorem search_append_space_repeated :
    ∃ q r, Query.read {} (.midnight 0) "is:open size:5" = .ok q ∧
      Query.read {} (.midnight 1) "size:5 -red is:open" = .ok r ∧
      (∀ c ∈ q.clauses, ∀ e ∈ r.clauses, c.opposes e = false) ∧
      ∃ joined, ∀ now,
        Query.read {} now ("is:open size:5" ++ " " ++ "size:5 -red is:open") = .ok joined ∧
          ∀ options, options.explain = false → ∀ records,
            joined.search now options records =
                r.search now options (q.search now options records) ∧
              ∀ record, record ∈ joined.search now options records ↔
                record ∈ records ∧ (∀ c ∈ q.clauses, c.holds options record = true) ∧
                  ∀ c ∈ r.clauses, c.holds options record = true :=
  have hq := read_eq_ok_iff.2 ⟨by decide +kernel, rfl⟩
  have hr := read_eq_ok_iff.2 ⟨by decide +kernel, rfl⟩
  ⟨_, _, hq, hr, by decide +kernel, search_append_space hq hr (by decide +kernel)⟩

end Adding

end Query

end SearchBar
