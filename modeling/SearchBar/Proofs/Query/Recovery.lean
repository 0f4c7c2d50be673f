import SearchBar.Proofs.Query.Reading

/-! # Recovery from faults

The diagnostics of a text cover exactly what keeps it from being read. Without the
bytes that they cover the text has no faults, and the same query is read from it.
-/

namespace SearchBar

open Calendar Text

/-- A text, `offset` bytes behind the beginning, without the characters that begin in
one of the stretches of bytes. -/
def eraseBytes (spans : List (Nat × Nat)) : Nat → List Char → List Char
  | _, [] => []
  | offset, c :: cs =>
    if spans.any fun s => decide (s.1 ≤ offset) && decide (offset < s.2) then
      eraseBytes spans (offset + c.utf8Size) cs
    else c :: eraseBytes spans (offset + c.utf8Size) cs

def Diagnostic.span (d : Diagnostic) : Nat × Nat := (d.start.offset, d.stop.offset)

section Erase

variable {spans : List (Nat × Nat)} {s : Nat × Nat} {o : Nat} {cs : List Char}

theorem eraseBytes_append (spans : List (Nat × Nat)) (a b : List Char) : ∀ o,
    eraseBytes spans o (a ++ b) = eraseBytes spans o a ++ eraseBytes spans (o + byteLength a) b := by
  induction a with
  | nil => exact fun _ => rfl
  | cons c a ih =>
    intro o
    simp only [List.cons_append, eraseBytes, ih, byteLength_cons, Nat.add_assoc]
    split <;> rfl

theorem eraseBytes_eq_self (h : ∀ s ∈ spans, o + byteLength cs ≤ s.1) :
    eraseBytes spans o cs = cs := by
  induction cs generalizing o with
  | nil => rfl
  | cons c cs ih =>
    have hpos := c.utf8Size_pos
    rw [eraseBytes, if_neg, ih]
    · intro s hs
      have := h s hs
      rw [byteLength_cons] at this
      omega
    · simp only [List.any_eq_true, Bool.and_eq_true, decide_eq_true_eq, not_exists, not_and]
      intro s hs _
      have := h s hs
      rw [byteLength_cons] at this
      omega

theorem eraseBytes_eq_nil (hs : s ∈ spans) (h : s.1 ≤ o) (h' : o + byteLength cs ≤ s.2) :
    eraseBytes spans o cs = [] := by
  induction cs generalizing o with
  | nil => rfl
  | cons c cs ih =>
    have hpos := c.utf8Size_pos
    rw [byteLength_cons] at h'
    rw [eraseBytes, if_pos, ih (by omega) (by omega)]
    simp only [List.any_eq_true, Bool.and_eq_true, decide_eq_true_eq]
    exact ⟨s, hs, h, by omega⟩

theorem eraseBytes_cons_of_le (h : s.2 ≤ o) :
    eraseBytes (s :: spans) o cs = eraseBytes spans o cs := by
  induction cs generalizing o with
  | nil => rfl
  | cons c cs ih =>
    have hs : (decide (s.1 ≤ o) && decide (o < s.2)) = false := by simp; omega
    rw [eraseBytes, eraseBytes, List.any_cons, hs, Bool.false_or, ih (by omega)]

end Erase

section Cutting

variable {d : Char} {cs b raw rest : List Char} {content : Except Fault (Bool × Draft)}
  {keep : Except Fault (Bool × Draft) → Bool} {o : Nat} {ps : List Piece}

def droppedSpans (keep : Except Fault (Bool × Draft) → Bool) (ps : List Piece) :
    List (Nat × Nat) :=
  (ps.filter fun p => !keep p.content).map fun p => (p.start, p.stop)

theorem le_of_mem_droppedSpans (keep : Except Fault (Bool × Draft) → Bool)
    (h : ∀ p ∈ ps, o ≤ p.start) :
    ∀ s ∈ droppedSpans keep ps, o ≤ s.1 := by
  intro s hs
  obtain ⟨p, hp, rfl⟩ := List.mem_map.1 hs
  exact h p (List.mem_filter.1 hp).1

/-- A piece is kept or erased as a whole, and nothing else with it. -/
theorem eraseBytes_piece (hps : ∀ p ∈ ps, o + byteLength b + byteLength raw ≤ p.start) :
    eraseBytes (droppedSpans keep
        (⟨o + byteLength b, o + byteLength b + byteLength raw, content⟩ :: ps)) o
        (b ++ (raw ++ rest)) =
      b ++ ((if keep content then raw else []) ++
        eraseBytes (droppedSpans keep ps) (o + byteLength b + byteLength raw) rest) := by
  have hle := le_of_mem_droppedSpans keep hps
  have hspans : droppedSpans keep
      (⟨o + byteLength b, o + byteLength b + byteLength raw, content⟩ :: ps) =
      if keep content then droppedSpans keep ps
      else (o + byteLength b, o + byteLength b + byteLength raw) :: droppedSpans keep ps := by
    cases hk : keep content <;> simp [droppedSpans, hk]
  rw [hspans, eraseBytes_append, eraseBytes_append]
  cases keep content with
  | true =>
    rw [if_pos rfl, if_pos rfl, eraseBytes_eq_self fun s hs => by have := hle s hs; omega,
      eraseBytes_eq_self fun s hs => by have := hle s hs; omega]
  | false =>
    rw [if_neg Bool.false_ne_true, if_neg Bool.false_ne_true, eraseBytes_eq_self,
      eraseBytes_eq_nil List.mem_cons_self (Nat.le_refl _) (Nat.le_refl _),
      eraseBytes_cons_of_le (Nat.le_refl _)]
    intro s hs
    rcases List.mem_cons.1 hs with rfl | hs
    · exact Nat.le_refl _
    · have := hle s hs
      omega

theorem stopsAt_congr {p : Char → Bool} {a b : List Char} (h : a.head? = b.head?) :
    stopsAt p a = stopsAt p b := by
  rw [stopsAt, stopsAt, h]

theorem Draft.EndsAt.congr {draft : Draft} {a b : List Char} (h : a.head? = b.head?)
    (hb : draft.EndsAt b) : draft.EndsAt a := by
  unfold Draft.EndsAt at *
  rwa [atBoundary_eq_stopsAt, stopsAt_congr h, stopsAt_congr h, ← atBoundary_eq_stopsAt]

theorem head?_blank_append (hraw : stopsAt (fun c => !isBlank c) raw = true) (hne : raw ≠ [])
    (h : atBoundary (b ++ (raw ++ rest)) = true) (y : List Char) :
    (b ++ y).head? = (b ++ (raw ++ rest)).head? := by
  cases b with
  | nil =>
    obtain ⟨c, raw, rfl⟩ := List.exists_cons_of_ne_nil hne
    simp only [stopsAt_cons, Bool.not_eq_true'] at hraw
    simp [atBoundary, hraw] at h
  | cons c b => rfl

/-- Without the pieces that are not kept, a text is cut into those that are. -/
theorem pieces_eraseBytes (hd : IsDelimiter d) (hkeep : ∀ f, keep (.error f) = false)
    (cs : List Char) : ∀ o,
    (atBoundary cs = true →
      (eraseBytes (droppedSpans keep (pieces d o cs)) o cs).head? = cs.head?) ∧
    ∀ o', (pieces d o' (eraseBytes (droppedSpans keep (pieces d o cs)) o cs)).map (·.content) =
      ((pieces d o cs).map (·.content)).filter keep := by
  induction Cut.of hd cs with
  | blank hb =>
    intro o
    rw [pieces_blank hb, eraseBytes_eq_self (by simp [droppedSpans])]
    exact ⟨fun _ => rfl, fun o' => by rw [pieces_blank hb]; rfl⟩
  | @draft b raw rest negated draft hb hraw hs hr _ ih =>
    intro o
    have hps := fun p hp => (pieces_bounds hd rest (o + byteLength b + byteLength raw) p hp).1
    obtain ⟨hhead, hpieces⟩ := ih (o + byteLength b + byteLength raw)
    rw [pieces_draft hd hb hraw hs hr, eraseBytes_piece hps]
    refine ⟨fun h => head?_blank_append hraw hs.ne_nil h _, fun o' => ?_⟩
    rw [List.map_cons, List.filter_cons]
    cases hk : keep (.ok (negated, draft)) with
    | true =>
      rw [if_pos rfl, if_pos rfl, pieces_draft hd hb hraw hs (hr.congr (hhead hr.1)), List.map_cons,
        hpieces]
    | false =>
      rw [if_neg Bool.false_ne_true, if_neg Bool.false_ne_true, List.nil_append,
        pieces_blank_append hb, hpieces]
  | @fault b raw rest fault hb hraw hne ht hr _ ih =>
    intro o
    have hps := fun p hp => (pieces_bounds hd rest (o + byteLength b + byteLength raw) p hp).1
    obtain ⟨-, hpieces⟩ := ih (o + byteLength b + byteLength raw)
    rw [pieces_fault hb hraw hne ht, eraseBytes_piece hps]
    refine ⟨fun h => head?_blank_append hraw hne h _, fun o' => ?_⟩
    rw [List.map_cons, List.filter_cons, hkeep, if_neg Bool.false_ne_true,
      if_neg Bool.false_ne_true, List.nil_append, pieces_blank_append hb, hpieces]

end Cutting

section Recovery

variable {dialect : Dialect} {now : Instant} {text : String}

def isAccepted (dialect : Dialect) (now : Instant) (content : Except Fault (Bool × Draft)) : Bool :=
  (contentClause dialect now content).isOk

theorem isAccepted_eq_true_iff {p : Piece} : isAccepted dialect now p.content = true ↔
    ∃ c, p.clause dialect now = .ok c := by
  show (p.clause dialect now).isOk = true ↔ _
  cases p.clause dialect now <;> simp [Except.isOk, Except.toBool]

theorem map_span_diagnostics {cs : List Char} :
    ∀ {ps : List Piece}, (∀ p ∈ ps, p.start ≤ p.stop ∧ p.stop ≤ byteLength cs) →
      (ps.filterMap (·.diagnostic? dialect now cs)).map Diagnostic.span =
        droppedSpans (isAccepted dialect now) ps
  | [], _ => rfl
  | p :: ps, h => by
    have ih := map_span_diagnostics fun q hq => h q (List.mem_cons_of_mem _ hq)
    have hp := h p List.mem_cons_self
    have hacc : isAccepted dialect now p.content = (p.clause dialect now).isOk := rfl
    simp only [droppedSpans, List.filterMap_cons, List.filter_cons, Piece.diagnostic?, hacc] at ih ⊢
    cases p.clause dialect now with
    | ok c => exact ih
    | error f =>
      have hspan := offset_within hp.1 hp.2 f.rule f.message
      exact congrArg₂ List.cons (Prod.ext hspan.1 hspan.2) ih

theorem filterMap_clause_eq_of_contents {ps qs : List Piece}
    (h : qs.map (·.content) = (ps.map (·.content)).filter (isAccepted dialect now)) :
    qs.filterMap (·.clause? dialect now) = ps.filterMap (·.clause? dialect now) := by
  rw [filterMap_clause?, filterMap_clause?, h, List.filterMap_filter]
  refine List.filterMap_congr fun s _ => ?_
  unfold isAccepted
  cases contentClause dialect now s <;> rfl

/-- Without the bytes that the diagnostics of a text are about, the text is read
without diagnostics and gives the same query. -/
theorem read_erase_diagnostics (now : Instant) (text : String) (hd : dialect.delimiter = '"') :
    Query.read dialect now (String.ofList (eraseBytes
        ((Query.readAll dialect now text).diagnostics.map Diagnostic.span) 0 text.toList)) =
      .ok (Query.readAll dialect now text).query := by
  have hdelim := isDelimiter_quote
  have hspans : (Query.readAll dialect now text).diagnostics.map Diagnostic.span =
      droppedSpans (isAccepted dialect now) (pieces '"' 0 text.toList) := by
    rw [diagnostics_readAll, hd, map_span_diagnostics]
    intro p hp
    have := pieces_bounds hdelim _ 0 p hp
    omega
  obtain ⟨-, hcontents⟩ := pieces_eraseBytes hdelim
    (fun _ => rfl : ∀ f, isAccepted dialect now (.error f) = false) text.toList 0
  rw [hspans, read_eq_ok_iff, diagnostics_readAll_eq_nil_iff, query_readAll, query_readAll, hd,
    String.toList_ofList]
  refine ⟨fun p hp => ?_, congrArg Query.ofClauses (filterMap_clause_eq_of_contents (hcontents 0))⟩
  have hmem := List.mem_map_of_mem (f := (·.content)) hp
  rw [hcontents 0] at hmem
  exact isAccepted_eq_true_iff.1 (List.mem_filter.1 hmem).2

theorem read_erase_diagnostics_faulty :
    Query.read {} (.midnight 0) (String.ofList (eraseBytes
        ((Query.readAll {} (.midnight 0) "é a:( size:> b) is:open \"c").diagnostics.map
          Diagnostic.span) 0 "é a:( size:> b) is:open \"c".toList)) =
      .ok (Query.readAll {} (.midnight 0) "é a:( size:> b) is:open \"c").query :=
  read_erase_diagnostics _ _ rfl

end Recovery

end SearchBar
