import Mathlib.Data.List.Forall2
import SearchBar.Proofs.Query.Reading

/-! # Reading a text in parts

A text without faults can be continued: what is read of the whole is what is read of
the two parts, with the places of the second part moved.
-/

namespace SearchBar

open Calendar Text

/-- The same message about a stretch of text that lies `k` bytes further on. -/
def Diagnostic.MovedBy (k : Nat) (e d : Diagnostic) : Prop :=
  e.rule = d.rule ∧ e.message = d.message ∧
    e.start.offset = d.start.offset + k ∧ e.stop.offset = d.stop.offset + k

theorem movedBy_within {a x : List Char} {p : Piece} (hp : p.start ≤ p.stop)
    (hx : p.stop ≤ byteLength x) (rule message : String) :
    (Diagnostic.within (a ++ x) (p.shift (byteLength a)).start (p.shift (byteLength a)).stop
      rule message).MovedBy (byteLength a) (.within x p.start p.stop rule message) := by
  have h1 := offset_within hp hx rule message
  have h2 : (p.shift (byteLength a)).start ≤ (p.shift (byteLength a)).stop := by
    simp only [Piece.shift]
    omega
  have h3 : (p.shift (byteLength a)).stop ≤ byteLength (a ++ x) := by
    simp only [Piece.shift, byteLength_append]
    omega
  have h4 := offset_within h2 h3 rule message
  refine ⟨rfl, rfl, ?_, ?_⟩
  · rw [h1.1, h4.1]
    rfl
  · rw [h1.2, h4.2]
    rfl

theorem forall₂_diagnostics_shift (dialect : Dialect) (now : Instant) (a : List Char)
    {x : List Char} : ∀ {ps : List Piece}, (∀ p ∈ ps, p.start ≤ p.stop ∧ p.stop ≤ byteLength x) →
      List.Forall₂ (Diagnostic.MovedBy (byteLength a))
        ((ps.map (Piece.shift (byteLength a))).filterMap (·.diagnostic? dialect now (a ++ x)))
        (ps.filterMap (·.diagnostic? dialect now x))
  | [], _ => .nil
  | p :: ps, h => by
    have ih := forall₂_diagnostics_shift dialect now a fun q hq => h q (List.mem_cons_of_mem _ hq)
    have hp := h p List.mem_cons_self
    simp only [List.map_cons, List.filterMap_cons, Piece.diagnostic?, Piece.clause_shift] at ih ⊢
    cases p.clause dialect now with
    | ok c => exact ih
    | error f => exact .cons (movedBy_within hp.1 hp.2 _ _) ih

/-- A text without faults, a gap and another text are cut into the pieces of both texts. -/
theorem pieces_append_gap {d : Char} (hd : IsDelimiter d) {a w x : List Char}
    (ha : ∀ p ∈ pieces d 0 a, ∃ s, p.content = .ok s) (hw : w ≠ []) (hgap : ∀ c ∈ w, c ∈ gaps) :
    pieces d 0 (a ++ w ++ x) =
      pieces d 0 a ++ (pieces d 0 x).map (Piece.shift (byteLength (a ++ w))) := by
  have hblank : ∀ c ∈ w, isBlank c = true := fun c hc => isBlank_of_isGap (isGap_iff.2 (hgap c hc))
  have hstop : stopsAt isGap (w ++ x) = true := by
    obtain ⟨c, r, rfl⟩ := List.exists_cons_of_ne_nil hw
    exact isGap_iff.2 (hgap c List.mem_cons_self)
  rw [List.append_assoc, pieces_append hd hstop 0 ha, pieces_blank_append hblank, ← pieces_shift,
    byteLength_append, Nat.zero_add, Nat.zero_add]

/-- Two texts without faults and with a gap between them are read together, as if the
clauses of the second one were added to the first one. -/
theorem read_append_gap {dialect : Dialect} {now : Instant} {a w b : String} {p q : Query}
    (hd : dialect.delimiter = '"') (ha : Query.read dialect now a = .ok p)
    (hb : Query.read dialect now b = .ok q) (hw : w.toList ≠ []) (hgap : ∀ c ∈ w.toList, c ∈ gaps) :
    Query.read dialect now (a ++ w ++ b) = .ok (q.clauses.foldl Query.add p) := by
  obtain ⟨hnil, -⟩ := read_eq_ok_iff.1 ha
  rw [diagnostics_readAll_eq_nil_iff, hd] at hnil
  have hpieces := pieces_append_gap isDelimiter_quote (x := b.toList) (fun p hp => by
    obtain ⟨c, hc⟩ := hnil p hp
    exact Piece.content_ok_of_clause hc) hw hgap
  obtain ⟨cs, hcs, rfl⟩ := read_eq_ok_iff_forall₂.1 ha
  obtain ⟨es, hes, rfl⟩ := read_eq_ok_iff_forall₂.1 hb
  refine read_eq_ok_iff_forall₂.2 ⟨cs ++ es, ?_, (Query.ofClauses_append cs es).symm⟩
  rw [hd] at hcs hes ⊢
  rw [String.toList_append, String.toList_append, hpieces, List.map_append, List.map_map]
  exact List.rel_append hcs hes

/-- A text without faults that a gap and any other text follow. Its query is
completed by the clauses of the other text, whose messages move along with it. -/
theorem readAll_append_gap {dialect : Dialect} {now : Instant} {a w x : String} {q : Query}
    (hd : dialect.delimiter = '"') (ha : Query.read dialect now a = .ok q)
    (hw : w.toList ≠ []) (hgap : ∀ c ∈ w.toList, c ∈ gaps) :
    (Query.readAll dialect now (a ++ w ++ x)).query =
        (Query.readAll dialect now x).query.clauses.foldl Query.add q ∧
      List.Forall₂ (Diagnostic.MovedBy (byteLength (a ++ w).toList))
        (Query.readAll dialect now (a ++ w ++ x)).diagnostics
        (Query.readAll dialect now x).diagnostics := by
  obtain ⟨hnil, rfl⟩ := read_eq_ok_iff.1 ha
  rw [diagnostics_readAll_eq_nil_iff, hd] at hnil
  have hdelim := isDelimiter_quote
  have hblank : ∀ c ∈ w.toList, isBlank c = true := fun c hc =>
    isBlank_of_isGap (isGap_iff.2 (hgap c hc))
  have hstop : stopsAt isGap (w.toList ++ x.toList) = true := by
    obtain ⟨c, r, hcr⟩ := List.exists_cons_of_ne_nil hw
    rw [hcr]
    exact isGap_iff.2 (hgap c (hcr ▸ List.mem_cons_self))
  have hpieces : pieces '"' 0 (a ++ w ++ x).toList = pieces '"' 0 a.toList ++
      (pieces '"' 0 x.toList).map (Piece.shift (byteLength (a ++ w).toList)) := by
    rw [String.toList_append, String.toList_append, List.append_assoc,
      pieces_append hdelim hstop 0 fun p hp => ?_, pieces_blank_append hblank, ← pieces_shift,
      byteLength_append, Nat.zero_add, Nat.zero_add]
    obtain ⟨c, hc⟩ := hnil p hp
    exact Piece.content_ok_of_clause hc
  constructor
  · rw [query_readAll, query_readAll, query_readAll, hd, hpieces, List.filterMap_append,
      Query.ofClauses_append, List.filterMap_map]
    rfl
  · have hsplit : (a ++ w ++ x).toList = (a ++ w).toList ++ x.toList := String.toList_append
    have hfirst : (pieces '"' 0 a.toList).filterMap
        (·.diagnostic? dialect now (a ++ w ++ x).toList) = [] :=
      List.filterMap_eq_nil_iff.2 fun p hp => Piece.diagnostic?_eq_none_iff.2 (hnil p hp)
    rw [diagnostics_readAll, diagnostics_readAll, hd, hpieces, List.filterMap_append, hfirst,
      List.nil_append, hsplit]
    refine forall₂_diagnostics_shift _ _ _ fun p hp => ?_
    have := pieces_bounds hdelim _ 0 p hp
    omega

theorem readAll_append_gap_faulty :
    ∃ q, Query.read {} (.midnight 0) "is:open size:5" = .ok q ∧
      (Query.readAll {} (.midnight 0) ("is:open size:5" ++ " \t" ++ "size:5 red) -is:open")).query =
          (Query.readAll {} (.midnight 0) "size:5 red) -is:open").query.clauses.foldl Query.add q ∧
        List.Forall₂ (Diagnostic.MovedBy (byteLength ("is:open size:5" ++ " \t").toList))
          (Query.readAll {} (.midnight 0)
            ("is:open size:5" ++ " \t" ++ "size:5 red) -is:open")).diagnostics
          (Query.readAll {} (.midnight 0) "size:5 red) -is:open").diagnostics :=
  have hread := read_eq_ok_iff.2 ⟨by decide +kernel, rfl⟩
  ⟨_, hread, readAll_append_gap rfl hread (by decide)
    fun c hc => List.contains_iff_mem.1 (List.all_eq_true.1 (by decide) c hc)⟩

end SearchBar
