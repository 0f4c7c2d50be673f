import SearchBar.Proofs.Query.Spelling

/-! # Cutting a text into pieces

A piece that holds a draft is cut off in the same way in front of every text that
may stand behind it, and what stands behind a piece begins with a blank. The pieces
of a text depend on its place only in their offsets.
-/

namespace SearchBar

open Text

variable {d : Char} {cs rest raw : List Char} {negated : Bool} {draft : Draft}

inductive SignedSpelled (d : Char) : List Char → Bool → Draft → Prop
  | positive {raw : List Char} {draft : Draft} (h : draft.Spelled d raw)
      (hm : raw.head? ≠ some '-') : SignedSpelled d raw false draft
  | negative {raw : List Char} {draft : Draft} (h : draft.Spelled d raw) :
      SignedSpelled d ('-' :: raw) true draft

theorem Draft.Spelled.ne_nil (h : draft.Spelled d raw) : raw ≠ [] := by
  cases h with
  | flag => simp
  | group => simp
  | @field name _ _ _ hn | @missing name _ hn =>
    cases name with
    | nil => simp [isFieldName] at hn
    | cons => simp
  | term hw => exact hw.ne_nil

theorem takeSigned_of_head?_ne (h : cs.head? ≠ some '-') :
    takeSigned? d cs = (Draft.take? d cs).map fun r => (false, r) := by
  unfold takeSigned?
  split
  · exact absurd rfl h
  · rfl

theorem exists_raw_of_takeSigned (hd : IsDelimiter d)
    (h : takeSigned? d cs = some (negated, draft, rest)) (hb : atBoundary rest = true) :
    ∃ raw, cs = raw ++ rest ∧ SignedSpelled d raw negated draft ∧ draft.EndsAt rest := by
  rcases takeSigned_cases h with ⟨body, rfl, rfl, htake⟩ | ⟨hminus, rfl, htake⟩
  · obtain ⟨raw, rfl, hraw, hend⟩ := Draft.exists_raw_of_take hd htake hb
    exact ⟨'-' :: raw, rfl, .negative hraw, hend⟩
  · obtain ⟨raw, rfl, hraw, hend⟩ := Draft.exists_raw_of_take hd htake hb
    refine ⟨raw, rfl, .positive hraw ?_, hend⟩
    rwa [List.head?_append_of_ne_nil _ hraw.ne_nil] at hminus

theorem takeSigned_append (hd : IsDelimiter d) (h : SignedSpelled d raw negated draft)
    (hr : draft.EndsAt rest) : takeSigned? d (raw ++ rest) = some (negated, draft, rest) := by
  cases h with
  | positive h hm =>
    rw [takeSigned_of_head?_ne (by rwa [List.head?_append_of_ne_nil _ h.ne_nil]),
      Draft.take_append hd h hr]
    rfl
  | negative h =>
    rw [List.cons_append, takeSigned?, Draft.take_append hd h hr]
    rfl

theorem takePiece_append (hd : IsDelimiter d) (h : SignedSpelled d raw negated draft)
    (hr : draft.EndsAt rest) : takePiece d (raw ++ rest) = (.ok (negated, draft), rest) := by
  simp only [takePiece, takeSigned_append hd h hr, hr.1, if_true]

theorem atBoundary_afterToken (cs : List Char) : atBoundary (afterToken cs) = true := by
  have h := stopsAt_dropWhile (fun c => !isBlank c) cs
  simpa only [atBoundary_eq_stopsAt, afterToken, Bool.not_not] using h

theorem exists_raw_of_recover (d : Char) (cs : List Char) :
    (∃ raw, cs = raw ++ (recover d cs).2) ∧ atBoundary (recover d cs).2 = true := by
  unfold recover
  split
  · exact ⟨⟨cs, by simp⟩, rfl⟩
  · split
    · split
      · exact ⟨⟨cs, by simp⟩, rfl⟩
      · rename_i close rest h
        refine ⟨⟨cs.takeWhile (· != ')') ++ close :: firstToken rest, ?_⟩, atBoundary_afterToken _⟩
        rw [List.append_assoc, List.cons_append, firstToken_append_afterToken, ← h,
          List.takeWhile_append_dropWhile]
    · exact ⟨⟨firstToken cs, (firstToken_append_afterToken cs).symm⟩, atBoundary_afterToken _⟩

/-- What a text begins with: a spelled draft, or a fault that reaches to a blank. -/
theorem takePiece_cases (hd : IsDelimiter d) (cs : List Char) :
    (∃ raw negated draft rest, cs = raw ++ rest ∧ takePiece d cs = (.ok (negated, draft), rest) ∧
      SignedSpelled d raw negated draft ∧ draft.EndsAt rest) ∨
    ∃ raw fault rest, cs = raw ++ rest ∧ takePiece d cs = (.error fault, rest) ∧
      atBoundary rest = true := by
  obtain ⟨⟨raw, hraw⟩, hb⟩ := exists_raw_of_recover d cs
  obtain ⟨negated, draft, rest, htake, hrest, hpiece⟩ | hpiece := taken_or_recovered d cs
  · obtain ⟨inside, hcs, hspelled, hend⟩ := exists_raw_of_takeSigned hd htake hrest
    exact .inl ⟨inside, negated, draft, rest, hcs, hpiece, hspelled, hend⟩
  · exact .inr ⟨raw, _, _, hraw, hpiece, hb⟩

/-! ### Places -/

namespace Piece

def shift (k : Nat) (p : Piece) : Piece := ⟨p.start + k, p.stop + k, p.content⟩

@[simp] theorem content_shift (k : Nat) (p : Piece) : (p.shift k).content = p.content := rfl

end Piece

theorem trimStart_append_takeWhile (cs : List Char) :
    cs.takeWhile isBlank ++ trimStart cs = cs := List.takeWhile_append_dropWhile

theorem trimStart_blank_append {b : List Char} (hb : ∀ c ∈ b, isBlank c = true) (cs : List Char) :
    trimStart (b ++ cs) = trimStart cs := List.dropWhile_append_of_pos hb

theorem pieces_of_trimStart_eq_nil {o : Nat} (h : trimStart cs = []) : pieces d o cs = [] := by
  rw [pieces]
  split
  · rfl
  · rename_i heq
    simp [h] at heq

theorem pieces_of_trimStart_eq_cons {o : Nat} {c : Char} {body : List Char}
    (h : trimStart cs = c :: body) :
    pieces d o cs =
      ⟨o + byteLength (cs.takeWhile isBlank),
        o + byteLength (cs.takeWhile isBlank) +
          (byteLength (c :: body) - byteLength (takePiece d (c :: body)).2),
        (takePiece d (c :: body)).1⟩ ::
      pieces d (o + byteLength (cs.takeWhile isBlank) +
          (byteLength (c :: body) - byteLength (takePiece d (c :: body)).2))
        (takePiece d (c :: body)).2 := by
  rw [pieces]
  split
  · rename_i heq
    simp [h] at heq
  · rename_i heq
    obtain ⟨rfl, rfl⟩ := List.cons.inj (h.symm.trans heq)
    rfl

theorem pieces_shift (d : Char) (o k : Nat) (cs : List Char) :
    pieces d (o + k) cs = (pieces d o cs).map (Piece.shift k) := by
  fun_induction pieces d o cs with
  | case1 o cs h => rw [pieces_of_trimStart_eq_nil h, List.map_nil]
  | case2 o cs c body h start found stop ih =>
    rw [pieces_of_trimStart_eq_cons h, List.map_cons, ← ih]
    simp only [Piece.shift, start, stop, found]
    congr 2 <;> omega

theorem pieces_blank_raw_append {b : List Char} {o : Nat}
    {content : Except Fault (Bool × Draft)} (hb : ∀ c ∈ b, isBlank c = true)
    (hraw : stopsAt (fun c => !isBlank c) raw = true) (hne : raw ≠ [])
    (h : takePiece d (raw ++ rest) = (content, rest)) :
    pieces d o (b ++ (raw ++ rest)) =
      ⟨o + byteLength b, o + byteLength b + byteLength raw, content⟩ ::
        pieces d (o + byteLength b + byteLength raw) rest := by
  obtain ⟨c, raw, rfl⟩ := List.exists_cons_of_ne_nil hne
  have htrim : trimStart (b ++ (c :: raw ++ rest)) = c :: (raw ++ rest) :=
    dropWhile_append_of_stopsAt hb hraw
  have htake : (b ++ (c :: raw ++ rest)).takeWhile isBlank = b :=
    takeWhile_append_of_stopsAt hb hraw
  rw [List.cons_append] at h
  rw [pieces_of_trimStart_eq_cons htrim, htake, h]
  simp only [← List.cons_append, byteLength_append, Nat.add_sub_cancel]

theorem pieces_blank_append {b : List Char} (hb : ∀ c ∈ b, isBlank c = true) (o : Nat)
    (cs : List Char) : pieces d o (b ++ cs) = pieces d (o + byteLength b) cs := by
  have htrim := trimStart_blank_append hb cs
  have htake : (b ++ cs).takeWhile isBlank = b ++ cs.takeWhile isBlank :=
    List.takeWhile_append_of_pos hb
  cases h : trimStart cs with
  | nil => rw [pieces_of_trimStart_eq_nil h, pieces_of_trimStart_eq_nil (htrim.trans h)]
  | cons c body =>
    rw [pieces_of_trimStart_eq_cons h, pieces_of_trimStart_eq_cons (htrim.trans h), htake]
    simp only [byteLength_append, Nat.add_assoc]

/-- How a text is made of blanks, drafts and faults. -/
inductive Cut (d : Char) : List Char → Prop
  | blank {b : List Char} (hb : ∀ c ∈ b, isBlank c = true) : Cut d b
  | draft {b raw rest : List Char} {negated : Bool} {draft : Draft}
      (hb : ∀ c ∈ b, isBlank c = true) (hraw : stopsAt (fun c => !isBlank c) raw = true)
      (hs : SignedSpelled d raw negated draft) (hr : draft.EndsAt rest) (h : Cut d rest) :
      Cut d (b ++ (raw ++ rest))
  | fault {b raw rest : List Char} {fault : Fault} (hb : ∀ c ∈ b, isBlank c = true)
      (hraw : stopsAt (fun c => !isBlank c) raw = true) (hne : raw ≠ [])
      (ht : takePiece d (raw ++ rest) = (.error fault, rest)) (hr : atBoundary rest = true)
      (h : Cut d rest) : Cut d (b ++ (raw ++ rest))

theorem Cut.of (hd : IsDelimiter d) (cs : List Char) : Cut d cs := by
  have hsplit := trimStart_append_takeWhile cs
  have hb := forall_mem_takeWhile isBlank cs
  have hstop : stopsAt (fun c => !isBlank c) (trimStart cs) = true := stopsAt_dropWhile _ _
  cases htrim : trimStart cs with
  | nil =>
    rw [htrim, List.append_nil] at hsplit
    exact .blank (hsplit ▸ hb)
  | cons c body =>
    have hc := trimStart_eq_cons htrim
    have hlt : (takePiece d (c :: body)).2.length < cs.length :=
      Nat.lt_of_lt_of_le (length_takePiece_lt hc) (htrim ▸ length_trimStart_le cs)
    have ih := Cut.of hd (takePiece d (c :: body)).2
    have hpos := @length_takePiece_lt d _ body hc
    rw [htrim] at hsplit hstop
    rw [← hsplit]
    rcases takePiece_cases hd (c :: body) with
      ⟨raw, negated, draft, rest, hcs, ht, hs, hend⟩ | ⟨raw, fault, rest, hcs, ht, hr⟩
    · rw [ht] at ih hpos
      rw [hcs, stopsAt_append (by rintro rfl; simp [hcs] at hpos)] at hstop
      rw [hcs]
      exact .draft hb hstop hs hend ih
    · rw [ht] at ih hpos
      have hne : raw ≠ [] := by
        rintro rfl
        simp [hcs] at hpos
      rw [hcs, stopsAt_append hne] at hstop
      rw [hcs] at ht ⊢
      exact .fault hb hstop hne ht hr ih
termination_by cs.length

theorem SignedSpelled.ne_nil (h : SignedSpelled d raw negated draft) : raw ≠ [] := by
  cases h with
  | positive h => exact h.ne_nil
  | negative => simp

section

variable {b : List Char} {fault : Fault}

theorem pieces_blank (hb : ∀ c ∈ b, isBlank c = true) (o : Nat) : pieces d o b = [] :=
  pieces_of_trimStart_eq_nil (by rw [← List.append_nil b, trimStart_blank_append hb]; rfl)

theorem pieces_draft (hd : IsDelimiter d) (hb : ∀ c ∈ b, isBlank c = true)
    (hraw : stopsAt (fun c => !isBlank c) raw = true) (hs : SignedSpelled d raw negated draft)
    (hr : draft.EndsAt rest) (o : Nat) : pieces d o (b ++ (raw ++ rest)) =
      ⟨o + byteLength b, o + byteLength b + byteLength raw, .ok (negated, draft)⟩ ::
        pieces d (o + byteLength b + byteLength raw) rest :=
  pieces_blank_raw_append hb hraw hs.ne_nil (takePiece_append hd hs hr)

theorem pieces_fault (hb : ∀ c ∈ b, isBlank c = true)
    (hraw : stopsAt (fun c => !isBlank c) raw = true) (hne : raw ≠ [])
    (ht : takePiece d (raw ++ rest) = (.error fault, rest)) (o : Nat) :
    pieces d o (b ++ (raw ++ rest)) =
      ⟨o + byteLength b, o + byteLength b + byteLength raw, .error fault⟩ ::
        pieces d (o + byteLength b + byteLength raw) rest :=
  pieces_blank_raw_append hb hraw hne ht

end

theorem pieces_bounds (hd : IsDelimiter d) (cs : List Char) : ∀ o, ∀ p ∈ pieces d o cs,
    o ≤ p.start ∧ p.start ≤ p.stop ∧ p.stop ≤ o + byteLength cs := by
  induction Cut.of hd cs with
  | blank hb =>
    intro o p hp
    simp [pieces_blank hb] at hp
  | draft hb hraw hs hr _ ih =>
    intro o p hp
    rw [pieces_draft hd hb hraw hs hr] at hp
    simp only [byteLength_append]
    rcases List.mem_cons.1 hp with rfl | hp
    · simp only
      omega
    · have := ih _ p hp
      omega
  | fault hb hraw hne ht hr _ ih =>
    intro o p hp
    rw [pieces_fault hb hraw hne ht] at hp
    simp only [byteLength_append]
    rcases List.mem_cons.1 hp with rfl | hp
    · simp only
      omega
    · have := ih _ p hp
      omega

theorem Draft.EndsAt.append {y : List Char} (h : draft.EndsAt rest)
    (hy : stopsAt isGap y = true) : draft.EndsAt (rest ++ y) := by
  cases rest with
  | nil =>
    refine ⟨?_, fun _ => hy⟩
    rw [List.nil_append, atBoundary_eq_stopsAt]
    exact stopsAt_mono (fun _ => isBlank_of_isGap) hy
  | cons c rest => exact h

/-- A text without faults is cut in the same way in front of a gap. -/
theorem pieces_append (hd : IsDelimiter d) {a y : List Char} (hy : stopsAt isGap y = true) :
    ∀ o, (∀ p ∈ pieces d o a, ∃ c, p.content = .ok c) →
      pieces d o (a ++ y) = pieces d o a ++ pieces d (o + byteLength a) y := by
  induction Cut.of hd a with
  | blank hb =>
    intro o _
    rw [pieces_blank_append hb, pieces_blank hb, List.nil_append]
  | @draft b raw rest negated draft hb hraw hs hr _ ih =>
    intro o hok
    rw [pieces_draft hd hb hraw hs hr] at hok ⊢
    rw [List.append_assoc, List.append_assoc, pieces_draft hd hb hraw hs (hr.append hy),
      List.cons_append, ih _ fun p hp => hok p (List.mem_cons_of_mem _ hp)]
    simp only [byteLength_append, Nat.add_assoc]
  | fault hb hraw hne ht _ _ _ =>
    intro o hok
    rw [pieces_fault hb hraw hne ht] at hok
    obtain ⟨c, hc⟩ := hok _ List.mem_cons_self
    simp at hc

section Contents

variable {b : List Char} {fault : Fault}

def contents (d : Char) (cs : List Char) : List (Except Fault (Bool × Draft)) :=
  (pieces d 0 cs).map (·.content)

theorem map_content_pieces (d : Char) (o : Nat) (cs : List Char) :
    (pieces d o cs).map (·.content) = contents d cs := by
  rw [← Nat.zero_add o, pieces_shift, List.map_map]
  rfl

theorem contents_blank (hb : ∀ c ∈ b, isBlank c = true) : contents d b = [] := by
  rw [contents, pieces_blank hb, List.map_nil]

theorem contents_draft (hd : IsDelimiter d) (hb : ∀ c ∈ b, isBlank c = true)
    (hraw : stopsAt (fun c => !isBlank c) raw = true) (hs : SignedSpelled d raw negated draft)
    (hr : draft.EndsAt rest) :
    contents d (b ++ (raw ++ rest)) = .ok (negated, draft) :: contents d rest := by
  rw [contents, pieces_draft hd hb hraw hs hr, List.map_cons, map_content_pieces]

theorem contents_fault (hb : ∀ c ∈ b, isBlank c = true)
    (hraw : stopsAt (fun c => !isBlank c) raw = true) (hne : raw ≠ [])
    (ht : takePiece d (raw ++ rest) = (.error fault, rest)) :
    contents d (b ++ (raw ++ rest)) = .error fault :: contents d rest := by
  rw [contents, pieces_fault hb hraw hne ht, List.map_cons, map_content_pieces]

end Contents

end SearchBar
