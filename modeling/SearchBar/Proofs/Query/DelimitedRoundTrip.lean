import SearchBar.Proofs.Query.DelimitedClauses

/-! # Round trips under other delimiters

What is read of a written query is in step with its clauses, or the first clause that goes
astray makes a clause that the query does not have at that place. So the query comes back only
if its texts need no quotes and do without the delimiter.
-/

namespace SearchBar

open Calendar Text

variable {d : Char} {now : Instant} {text : String} {c e : Clause} {q q' : Query}
  {cs es cs₁ cs₂ es₁ es₂ : List Clause}

section Places

def Query.unflagged (q : Query) : List Clause := q.clauses.filter fun c => !c.isFlag

theorem Query.unflagged_add (q : Query) (c : Clause) : (q.add c).unflagged =
    if c.isFlag || q.clauses.any (· == c) then q.unflagged else q.unflagged ++ [c] := by
  cases hflag : c.isFlag with
  | true =>
    cases c with
    | flag n m =>
      have hothers : q.unflagged = (q.without (·.setsFlag n)).unflagged := by
        rw [unflagged, unflagged, clauses_without, List.filter_filter]
        refine List.filter_congr fun e _ => ?_
        cases e <;> rfl
      rw [Bool.true_or, if_pos rfl, hothers]
      show ((q.without (·.setsFlag n)).clauses ++ [_]).filter _ = _
      rw [List.filter_append]
      exact List.append_nil _
    | term | field | oneOf => simp [Clause.isFlag] at hflag
  | false =>
    rw [add_of_not_isFlag q hflag, Bool.false_or]
    split
    · rfl
    · rw [unflagged, clauses_push, List.filter_append, List.filter_cons_of_pos (by simp [hflag])]
      rfl

theorem Query.unflagged_prefix_add (q : Query) (c : Clause) :
    q.unflagged <+: (q.add c).unflagged := by
  rw [unflagged_add]
  split
  · exact List.prefix_refl _
  · exact List.prefix_append _ _

theorem Query.unflagged_prefix_foldl_add (cs : List Clause) (q : Query) :
    q.unflagged <+: (cs.foldl add q).unflagged := by
  induction cs generalizing q with
  | nil => exact List.prefix_refl _
  | cons c cs ih => exact (q.unflagged_prefix_add c).trans (ih (q.add c))

theorem Query.length_unflagged_foldl_add_le (cs : List Clause) (q : Query) :
    (cs.foldl add q).unflagged.length ≤
      q.unflagged.length + (cs.filter fun c => !c.isFlag).length := by
  induction cs generalizing q with
  | nil => simp
  | cons c cs ih =>
    have h := ih (q.add c)
    rw [unflagged_add] at h
    cases hflag : c.isFlag with
    | true => simpa [hflag] using h
    | false =>
      rw [List.foldl_cons, List.filter_cons_of_pos (by simp [hflag]), List.length_cons]
      split at h
      · omega
      · rw [List.length_append, List.length_singleton] at h
        omega

theorem Query.exists_mem_unflagged_add (hc : c.isFlag = false) (q : Query) :
    ∃ e ∈ (q.add c).unflagged, e = c ∨ (e == c) = true := by
  rw [unflagged_add, hc, Bool.false_or]
  split
  · rename_i hany
    obtain ⟨e, he, hec⟩ := List.any_eq_true.1 hany
    have hflag : e.isFlag = false := (Clause.isFlag_congr hec).trans hc
    exact ⟨e, List.mem_filter.2 ⟨he, by simp [hflag]⟩, .inr hec⟩
  · exact ⟨c, by simp, .inl rfl⟩

theorem forall₂_filter_isFlag {R : Clause → Clause → Prop}
    (hR : ∀ a b, R a b → a.isFlag = b.isFlag) (h : List.Forall₂ R cs es) :
    List.Forall₂ R (cs.filter fun c => !c.isFlag) (es.filter fun c => !c.isFlag) :=
  List.rel_filter (fun a b hab => by simp [hR a b hab]) h

/-- A clause that is no flag is found in every equal query among the first ones that are no
flags, of which there are no more than were added with it. -/
theorem Query.exists_mem_take_of_beq (hflag : e.isFlag = false)
    (h : (ofClauses (es₁ ++ e :: es₂) == q) = true) :
    ∃ c ∈ q.unflagged.take ((es₁.filter fun c => !c.isFlag).length + 1), (e == c) = true := by
  have hfirst : ofClauses (es₁ ++ e :: es₂) = es₂.foldl add ((ofClauses es₁).add e) := by
    rw [ofClauses, List.foldl_append, List.foldl_cons]
    rfl
  rw [hfirst] at h
  have hsame := forall₂_filter_isFlag (fun _ _ => Clause.isFlag_congr)
    (beq_iff_forall₂.1 (show ((es₂.foldl add ((ofClauses es₁).add e)).clauses == q.clauses) = true
      from h))
  have hlength : ((ofClauses es₁).add e).unflagged.length ≤
      (es₁.filter fun c => !c.isFlag).length + 1 := by
    have hle := length_unflagged_foldl_add_le (es₁ ++ [e]) empty
    rw [List.foldl_append, List.filter_append, List.length_append,
      List.filter_cons_of_pos (by simp [hflag])] at hle
    simpa [ofClauses, empty, unflagged] using hle
  obtain ⟨later, hlater⟩ := unflagged_prefix_foldl_add es₂ ((ofClauses es₁).add e)
  obtain ⟨x, hx, hxe⟩ := exists_mem_unflagged_add hflag (ofClauses es₁)
  have hx' : x ∈ ((es₂.foldl add ((ofClauses es₁).add e)).unflagged).take
      ((es₁.filter fun c => !c.isFlag).length + 1) := by
    rw [← hlater, List.take_append, List.take_of_length_le hlength]
    exact List.mem_append_left _ hx
  obtain ⟨c, hc, hxc⟩ := exists_mem_of_forall₂ (List.forall₂_take _ hsame) hx'
  refine ⟨c, hc, ?_⟩
  rcases hxe with rfl | hxe
  · exact hxc
  · exact BEq.trans (BEq.symm hxe) hxc

end Places

section Runs

/-- Written clauses are read in step, up to a first one that goes astray. -/
theorem exists_step_of_pieces (hd : d ≠ '"') (hcs : ∀ c ∈ cs, c.Admitted { delimiter := d }) :
    ∀ o es, List.Forall₂ (fun s e => contentClause { delimiter := d } now s = .ok e)
        ((pieces d o (writtenBehind now cs)).map (·.content)) es →
      List.Forall₂ (Clause.InStep d now) cs es ∨
        ∃ cs₁ c cs₂ es₁ e es₂, cs = cs₁ ++ c :: cs₂ ∧ es = es₁ ++ e :: es₂ ∧
          List.Forall₂ (Clause.InStep d now) cs₁ es₁ ∧ c.IsAstray e := by
  induction cs with
  | nil =>
    intro o es h
    rw [writtenBehind_nil, pieces_blank (by simp), List.map_nil] at h
    cases h
    exact .inl .nil
  | cons c cs ih =>
    intro o es h
    obtain ⟨hc, hcs⟩ := List.forall_mem_cons.1 hcs
    obtain ⟨o', hcontents⟩ := contents_pieces_cons hc.wellNamed cs now d o
    rw [hcontents] at h
    cases h with
    | @cons _ e _ es he h =>
      rcases readAs_of_takePiece hd hc (fun c hc => (hcs c hc).wellNamed) he with
        hastray | ⟨hrest, hstep⟩
      · exact .inr ⟨[], c, cs, [], e, es, rfl, rfl, .nil, hastray⟩
      · rw [hrest] at h
        rcases ih hcs o' es h with hsteps | ⟨cs₁, b, cs₂, es₁, a, es₂, rfl, rfl, hsteps, hastray⟩
        · exact .inl (.cons hstep hsteps)
        · exact .inr ⟨c :: cs₁, b, cs₂, e :: es₁, a, es₂, rfl, rfl, .cons hstep hsteps, hastray⟩

theorem Clause.isFlag_of_isMarked (h : e.IsMarked) : e.isFlag = false := by
  cases e with
  | flag => simp [IsMarked, values] at h
  | term | field | oneOf => rfl

/-- No clause of a query that comes back goes astray: what is read would stand where the
query has a clause without quotes, or the very clause that went astray. -/
theorem not_isAstray (hsteps : List.Forall₂ (Clause.InStep d now) cs₁ es₁)
    (hsame : (Query.ofClauses (es₁ ++ e :: es₂) == ⟨cs₁ ++ c :: cs₂⟩) = true) :
    ¬ c.IsAstray e := by
  intro hastray
  obtain ⟨b, hb, heb⟩ :=
    Query.exists_mem_take_of_beq (Clause.isFlag_of_isMarked hastray.isMarked) hsame
  have hlength := (forall₂_filter_isFlag (fun _ _ h => h.isFlag_eq.symm) hsteps).length_eq
  rw [Query.unflagged, List.filter_append, List.filter_cons_of_pos (by simp [hastray.isFlag_eq]),
    ← hlength, List.take_length_add_append, List.take_succ_cons, List.take_zero] at hb
  rcases List.mem_append.1 hb with hb | hb
  · obtain ⟨a, -, hstep⟩ := exists_mem_of_forall₂ hsteps (List.mem_filter.1 hb).1
    exact Clause.not_isMarked_of_words hstep.not_quoted
      (Clause.isMarked_of_beq heb hastray.isMarked)
  · rw [List.mem_singleton.1 hb, hastray.beq_eq] at heb
    simp at heb

end Runs

theorem forall_of_read_write (hd : d ≠ '"') (hadm : ∀ c ∈ q.clauses, c.Admitted { delimiter := d })
    (hread : Query.read { delimiter := d } now (q.write now) = .ok q') (hsame : (q' == q) = true) :
    ∀ c ∈ q.clauses, c.IsFaithful ∧ ∀ w ∈ c.words now, w.quoted = false ∧ d ∉ w.text := by
  obtain ⟨es, hes, rfl⟩ := read_eq_ok_iff_forall₂.1 hread
  rw [Query.write, String.toList_ofList, contents_pieces_writeChars] at hes
  rcases exists_step_of_pieces hd hadm 0 es hes with
    hsteps | ⟨cs₁, b, cs₂, es₁, e, es₂, hq, rfl, hsteps, hastray⟩
  · have hclauses : (Query.ofClauses es).clauses = es :=
      Query.clauses_ofClauses_of_size
        ((size_of_sameClauses (sameClauses_of_beq hsame)).trans hsteps.length_eq)
    have hsames : List.Forall₂ (fun e c : Clause => (e == c) = true) es q.clauses := by
      have hlists : ((Query.ofClauses es).clauses == q.clauses) = true := hsame
      rwa [hclauses, beq_iff_forall₂] at hlists
    intro c hc
    obtain ⟨e, -, hstep, hec⟩ :=
      exists_mem_of_forall₂ (hsteps.mp (fun _ _ hstep hec => And.intro hstep hec) hsames.flip) hc
    obtain ⟨hfaithful, hwords⟩ := hstep.of_beq hec
    exact ⟨hfaithful, fun w hw => ⟨hstep.not_quoted w hw, hwords w hw⟩⟩
  · obtain rfl : q = ⟨cs₁ ++ b :: cs₂⟩ := congrArg Query.mk hq
    exact absurd hastray (not_isAstray hsteps hsame)

/-- A query that was read with other options left as they are is read again from its written
text, as an equal query, exactly if its clauses are faithful, and either double quotes
delimit phrases or no word of it needs quotes or has the delimiter in it. -/
theorem read_write_delimiter_iff (h : Query.read { delimiter := d } now text = .ok q) :
    (∃ q', Query.read { delimiter := d } now (q.write now) = .ok q' ∧ (q' == q) = true) ↔
      ∀ c ∈ q.clauses, c.IsFaithful ∧
        (d = '"' ∨ ∀ w ∈ c.words now, w.quoted = false ∧ d ∉ w.text) := by
  have hadm : ∀ c ∈ q.clauses, c.Admitted { delimiter := d } := fun c hc => admitted_of_read h hc
  have hnamed : ∀ c ∈ q.clauses, c.WellNamed := fun c hc => (hadm c hc).wellNamed
  have hsurvives : ∀ c ∈ q.clauses, (c.Survives now ↔ c.IsFaithful) := fun c hc =>
    survives_iff_isFaithful h hc
  have hdistinct : Query.Distinct q.clauses := by
    obtain ⟨cs, -, rfl⟩ := read_eq_ok_iff_forall₂.1 h
    exact Query.distinct_ofClauses cs
  by_cases hd : d = '"'
  · subst hd
    simp only [true_or, and_true]
    constructor
    · rintro ⟨q', hread, hsame⟩ c hc
      refine (hsurvives c hc).1
        (survives_of_read_write rfl hadm ?_ hread (sameClauses_of_beq hsame) c hc)
      intro e he v hv
      cases v with
      | text | number | bool => trivial
      | date t => exact absurd rfl ((hadm e he).ne_date rfl hv t)
    · intro hall
      exact read_write_of_survives rfl hadm hdistinct fun c hc => (hsurvives c hc).2 (hall c hc)
  constructor
  · rintro ⟨q', hread, hsame⟩ c hc
    obtain ⟨hfaithful, hwords⟩ := forall_of_read_write hd hadm hread hsame c hc
    exact ⟨hfaithful, .inr hwords⟩
  · intro hall
    obtain ⟨ds, hds, hsame⟩ :=
      exists_reread_of_survives hadm fun c hc => (hsurvives c hc).2 (hall c hc).1
    refine ⟨_, (read_write_eq_ok_iff_of_takePiece hnamed fun c hc rest hrest => ?_).2
      ⟨ds, hds, rfl⟩, ofClauses_beq hdistinct hsame⟩
    obtain ⟨⟨hrun, -⟩, hwords⟩ := hall c hc
    exact takePiece_write (hnamed c hc) hrun (hwords.resolve_left hd) hrest

theorem read_write_delimiter_bar :
    ∃ q, Query.read { delimiter := '|' } (.midnight 0)
        "|box| -size>=5 is:open color:(red or |blue|)" = .ok q ∧
      ∃ q', Query.read { delimiter := '|' } (.midnight 0) (q.write (.midnight 0)) = .ok q' ∧
        (q' == q) = true :=
  have hread := read_eq_ok_iff.2 ⟨by decide +kernel, rfl⟩
  ⟨_, hread, (read_write_delimiter_iff hread).2 (by decide +kernel)⟩

/-- A phrase with a space is written in double quotes, and read as two words. -/
theorem not_read_write_delimiter_bar :
    ∃ q, Query.read { delimiter := '|' } (.midnight 0) "|a b|" = .ok q ∧
      ¬ ∃ q', Query.read { delimiter := '|' } (.midnight 0) (q.write (.midnight 0)) = .ok q' ∧
        (q' == q) = true := by
  refine ⟨_, read_eq_ok_iff.2 ⟨by decide +kernel, rfl⟩, ?_⟩
  rintro ⟨q', hread, hsame⟩
  obtain ⟨-, rfl⟩ := read_eq_ok_iff.1 hread
  exact absurd hsame (by decide +kernel)

end SearchBar
