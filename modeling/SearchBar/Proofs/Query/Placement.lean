import SearchBar.Proofs.Query.Reading

/-! # Where diagnostics stand

Whatever delimits phrases, each round of reading takes a stretch of the text that begins
with no blank and reaches to a blank or to the end of the text. So the rounds come to an
end, and diagnostics are about stretches that stand apart.
-/

namespace SearchBar

open Calendar Text

variable {d : Char} {cs rest : List Char} {w : Word} {ws : List Word} {name : List Char}
  {draft : Draft} {negated : Bool}

section Scanners

theorem suffix_of_unescape {stop : Char → Bool} {text : List Char}
    (h : unescape stop cs = some (text, rest)) : rest <:+ cs := by
  obtain ⟨raw, rfl, -⟩ := exists_raw_of_unescape h
  exact List.suffix_append raw rest

theorem suffix_of_takePhrase (h : takePhrase? d cs = some (w, rest)) : rest <:+ cs := by
  obtain ⟨inside, text, rfl, -, hinside⟩ := exists_inside_of_takePhrase h
  have hbehind : d :: rest <:+ inside := by
    cases hread : unescape (endsPhrase d) inside with
    | none =>
      obtain ⟨-, rfl⟩ : [] = text ∧ inside = d :: rest := by simpa [hread] using hinside
      exact List.suffix_refl _
    | some r =>
      obtain rfl : r = (text, d :: rest) := by simpa [hread] using hinside
      exact suffix_of_unescape hread
  exact ((List.suffix_cons d rest).trans hbehind).trans (List.suffix_cons d inside)

theorem suffix_of_takeWord (h : takeWord? d cs = some (w, rest)) : rest <:+ cs := by
  rcases takeWord_eq_some h with h | h
  · exact suffix_of_takePhrase h
  · obtain ⟨raw, rfl, -⟩ := exists_raw_of_takeBare h
    exact List.suffix_append raw rest

theorem suffix_takeAlternatives (d : Char) (cs : List Char) :
    (takeAlternatives d cs).2 <:+ cs := by
  fun_induction takeAlternatives d cs with
  | case1 => exact List.suffix_refl _
  | case2 => exact List.suffix_refl _
  | case3 cs next ho w rest hw more ih =>
    obtain ⟨raw, rfl, -⟩ := takeOr_eq_some_iff.1 ho
    exact (ih.trans (suffix_of_takeWord hw)).trans (List.suffix_append raw next)

theorem suffix_of_takeValues (h : takeValues? d cs = some (ws, rest)) : rest <:+ cs := by
  obtain ⟨inside, w, behind, rfl, hword, hclose, -⟩ := exists_values_of_takeValues h
  have hbracket : ')' :: rest <:+ (takeAlternatives d behind).2 :=
    hclose ▸ List.dropWhile_suffix isGap
  have hvalues : (takeAlternatives d behind).2 <:+ inside :=
    ((suffix_takeAlternatives d behind).trans (suffix_of_takeWord hword)).trans
      (List.dropWhile_suffix isGap)
  exact (((List.suffix_cons ')' rest).trans hbracket).trans hvalues).trans
    (List.suffix_cons '(' inside)

theorem suffix_of_takeFieldName (h : takeFieldName? cs = some (name, rest)) : rest <:+ cs := by
  obtain ⟨rfl, -⟩ := takeFieldName_eq_some_iff.1 h
  exact List.suffix_append name rest

theorem Operator.suffix_of_take? {op : Operator} (h : take? cs = some (op, rest)) :
    rest <:+ cs := by
  rw [eq_sign_append_of_take? h]
  exact List.suffix_append _ _

theorem Draft.suffix_of_take? (h : take? d cs = some (draft, rest)) : rest <:+ cs := by
  cases takes_of_take? h with
  | flag hword hname =>
    obtain ⟨keyword, rfl, -⟩ := takeKeyword_eq_some_iff.1 hword
    obtain ⟨rfl, -⟩ := takeFlagName_eq_some_iff.1 hname
    exact (List.suffix_append _ rest).trans (List.suffix_append keyword _)
  | group _ hname hvalues =>
    exact ((suffix_of_takeValues hvalues).trans (List.suffix_cons ':' _)).trans
      (suffix_of_takeFieldName hname)
  | field _ _ hname hop hvalue =>
    exact ((suffix_of_takeWord hvalue).trans (Operator.suffix_of_take? hop)).trans
      (suffix_of_takeFieldName hname)
  | missing _ _ _ hname hop =>
    exact (Operator.suffix_of_take? hop).trans (suffix_of_takeFieldName hname)
  | term _ _ _ _ hvalue => exact suffix_of_takeWord hvalue

theorem suffix_of_takeSigned (h : takeSigned? d cs = some (negated, draft, rest)) :
    rest <:+ cs := by
  rcases takeSigned_cases h with ⟨body, rfl, -, htake⟩ | ⟨-, -, htake⟩
  · exact (Draft.suffix_of_take? htake).trans (List.suffix_cons '-' body)
  · exact Draft.suffix_of_take? htake

end Scanners

section Rounds

variable {o : Nat}

theorem takePiece_stops (d : Char) (cs : List Char) :
    (takePiece d cs).2 <:+ cs ∧ atBoundary (takePiece d cs).2 = true := by
  obtain ⟨⟨raw, hraw⟩, hb⟩ := exists_raw_of_recover d cs
  have hrecover : (recover d cs).2 <:+ cs := ⟨raw, hraw.symm⟩
  obtain ⟨negated, draft, rest, htake, hrest, hpiece⟩ | hpiece := taken_or_recovered d cs
  · rw [hpiece]
    exact ⟨suffix_of_takeSigned htake, hrest⟩
  · rw [hpiece]
    exact ⟨hrecover, hb⟩

theorem exists_stretch_of_takePiece {c : Char} (hc : isBlank c = false) (d : Char)
    (body : List Char) :
    ∃ inside, c :: body = inside ++ (takePiece d (c :: body)).2 ∧ inside.head? = some c := by
  obtain ⟨⟨inside, hinside⟩, -⟩ := takePiece_stops d (c :: body)
  have hlt := @length_takePiece_lt d c body hc
  refine ⟨inside, hinside.symm, ?_⟩
  cases inside with
  | nil =>
    rw [List.nil_append] at hinside
    simp [hinside] at hlt
  | cons a inside => rw [← (List.cons.inj hinside).1]; rfl

/-- One round of reading goes from a text that is not all blanks to what its first piece
leaves. -/
def Round (d : Char) (cs rest : List Char) : Prop :=
  ∃ c body, trimStart cs = c :: body ∧ rest = (takePiece d (c :: body)).2

theorem Round.length_lt (h : Round d cs rest) : rest.length < cs.length := by
  obtain ⟨c, body, htrim, rfl⟩ := h
  have hlt := @length_takePiece_lt d c body (trimStart_eq_cons htrim)
  have hle := length_trimStart_le cs
  rw [htrim] at hle
  omega

/-- No text can be read in round after round without end. -/
theorem wellFounded_round (d : Char) : WellFounded fun rest cs => Round d cs rest :=
  Subrelation.wf Round.length_lt (measure List.length).wf

/-- The bytes from `start` to `stop` are whole characters of the text. They begin with no
blank, and a blank or the end of the text stands behind them. -/
def IsStretch (text : List Char) (start stop : Nat) : Prop :=
  ∃ before inside behind, text = before ++ (inside ++ behind) ∧ byteLength before = start ∧
    byteLength (before ++ inside) = stop ∧ (∃ c, inside.head? = some c ∧ isBlank c = false) ∧
    atBoundary behind = true

theorem byteLength_pos {c : Char} (h : cs.head? = some c) : 0 < byteLength cs := by
  obtain ⟨cs, rfl⟩ := List.head?_eq_some_iff.1 h
  have hc := c.utf8Size_pos
  rw [byteLength_cons]
  omega

theorem IsStretch.bounds {start stop : Nat} (h : IsStretch cs start stop) :
    start < stop ∧ stop ≤ byteLength cs := by
  obtain ⟨before, inside, behind, rfl, rfl, rfl, ⟨c, hc, -⟩, -⟩ := h
  have hpos := byteLength_pos hc
  simp only [byteLength_append]
  omega

/-- The piece is `inside`, as it is taken of what stands behind `before`. -/
structure Piece.IsTaken (d : Char) (text : List Char) (p : Piece)
    (before inside rest : List Char) : Prop where
  text_eq : text = before ++ (inside ++ rest)
  takePiece_eq : takePiece d (inside ++ rest) = (p.content, rest)
  start_eq : byteLength before = p.start
  stop_eq : byteLength (before ++ inside) = p.stop
  head?_eq : ∃ c, inside.head? = some c ∧ isBlank c = false

section Taken

variable {p : Piece} {text before inside : List Char}

theorem Piece.IsTaken.atBoundary (h : p.IsTaken d text before inside rest) :
    atBoundary rest = true := by
  have hstops := (takePiece_stops d (inside ++ rest)).2
  rwa [h.takePiece_eq] at hstops

theorem Piece.IsTaken.isStretch (h : p.IsTaken d text before inside rest) :
    IsStretch text p.start p.stop :=
  ⟨before, inside, rest, h.text_eq, h.start_eq, h.stop_eq, h.head?_eq, h.atBoundary⟩

/-- The first piece is taken behind the blanks in front of it. -/
theorem exists_isTaken_first (front : List Char) {c : Char} {body : List Char}
    (htrim : trimStart cs = c :: body) : ∃ inside,
      cs = cs.takeWhile isBlank ++ (inside ++ (takePiece d (c :: body)).2) ∧
      Piece.IsTaken d (front ++ cs)
        ⟨byteLength front + byteLength (cs.takeWhile isBlank),
          byteLength front + byteLength (cs.takeWhile isBlank) +
            (byteLength (c :: body) - byteLength (takePiece d (c :: body)).2),
          (takePiece d (c :: body)).1⟩
        (front ++ cs.takeWhile isBlank) inside (takePiece d (c :: body)).2 := by
  have hc := trimStart_eq_cons htrim
  obtain ⟨inside, hinside, hhead⟩ := exists_stretch_of_takePiece hc d body
  have hcs : cs = cs.takeWhile isBlank ++ (inside ++ (takePiece d (c :: body)).2) := by
    rw [← hinside, ← htrim, trimStart_append_takeWhile]
  have hlength := congrArg byteLength hinside
  rw [byteLength_append] at hlength
  refine ⟨inside, hcs, ?_, by rw [← hinside], byteLength_append _ _, ?_, c, hhead, hc⟩
  · rw [List.append_assoc, ← hcs]
  · simp only [byteLength_append]
    omega

end Taken

/-- Every piece is a stretch of the text. -/
theorem isStretch_of_mem_pieces {p : Piece} (front : List Char)
    (hp : p ∈ pieces d (byteLength front) cs) : IsStretch (front ++ cs) p.start p.stop := by
  generalize ho : byteLength front = o at hp
  fun_induction pieces d o cs generalizing front with
  | case1 => simp at hp
  | case2 o cs c body htrim start found stop ih =>
    subst ho
    obtain ⟨inside, hcs, htaken⟩ := exists_isTaken_first (d := d) front htrim
    rcases List.mem_cons.1 hp with rfl | hp
    · exact htaken.isStretch
    · rw [htaken.text_eq, ← List.append_assoc]
      exact ih _ htaken.stop_eq hp

theorem le_start_of_mem_pieces {p : Piece} (hp : p ∈ pieces d o cs) : o ≤ p.start := by
  fun_induction pieces d o cs with
  | case1 => simp at hp
  | case2 o cs c body htrim start found stop ih =>
    rcases List.mem_cons.1 hp with rfl | hp
    · exact Nat.le_add_right o _
    · exact Nat.le_trans (Nat.le_trans (Nat.le_add_right o _) (Nat.le_add_right start _)) (ih hp)

theorem lt_start_of_mem_pieces {p : Piece} (hb : atBoundary cs = true)
    (hp : p ∈ pieces d o cs) : o < p.start := by
  cases cs with
  | nil => simp [pieces_blank] at hp
  | cons c cs =>
    have hblank : ∀ a ∈ [c], isBlank a = true := fun a ha => List.mem_singleton.1 ha ▸ hb
    rw [← List.singleton_append, pieces_blank_append hblank] at hp
    have hpos : 0 < byteLength [c] := byteLength_pos rfl
    have hle := le_start_of_mem_pieces hp
    omega

theorem pairwise_pieces (d : Char) (o : Nat) (cs : List Char) :
    (pieces d o cs).Pairwise fun p q => p.stop < q.start := by
  fun_induction pieces d o cs with
  | case1 => exact .nil
  | case2 o cs c body htrim start found stop ih =>
    exact .cons (fun p hp => lt_start_of_mem_pieces (takePiece_stops d (c :: body)).2 hp) ih

/-- Each round takes a character, and between two rounds there is a blank. -/
theorem two_mul_length_pieces_le (d : Char) (o : Nat) (cs : List Char) :
    2 * (pieces d o cs).length ≤ byteLength cs + 1 ∧
      (atBoundary cs = true → 2 * (pieces d o cs).length ≤ byteLength cs) := by
  fun_induction pieces d o cs with
  | case1 => simp
  | case2 o cs c body htrim start found stop ih =>
    have hc := trimStart_eq_cons htrim
    obtain ⟨inside, hinside, hhead⟩ := exists_stretch_of_takePiece hc d body
    have hrest := ih.2 (takePiece_stops d (c :: body)).2
    have hpos := byteLength_pos hhead
    have hlength : byteLength cs =
        byteLength (cs.takeWhile isBlank) + (byteLength inside + byteLength found.2) := by
      rw [← byteLength_append, ← hinside, ← htrim, ← byteLength_append,
        trimStart_append_takeWhile]
    rw [List.length_cons]
    refine ⟨by omega, fun hb => ?_⟩
    cases cs with
    | nil => simp [trimStart] at htrim
    | cons a cs =>
      have hblank : isBlank a = true := hb
      have hgap : 0 < byteLength ((a :: cs).takeWhile isBlank) :=
        byteLength_pos (c := a) (by rw [List.takeWhile_cons, if_pos hblank]; rfl)
      omega

end Rounds

section Diagnostics

variable {dialect : Dialect} {now : Instant} {text : List Char}

structure Diagnostic.IsPlaced (text : List Char) (g : Diagnostic) : Prop where
  start_lt_stop : g.start.offset < g.stop.offset
  stop_le : g.stop.offset ≤ byteLength text
  isStretch : IsStretch text g.start.offset g.stop.offset

theorem Piece.places_of_diagnostic? {p : Piece} {g : Diagnostic}
    (h : IsStretch text p.start p.stop) (hg : p.diagnostic? dialect now text = some g) :
    g.start = Position.at text p.start ∧ g.stop = Position.at text p.stop := by
  unfold diagnostic? at hg
  split at hg
  · simp at hg
  · obtain rfl := Option.some.inj hg
    obtain ⟨hlt, hle⟩ := h.bounds
    rw [Diagnostic.within_eq (Nat.le_of_lt hlt) hle]
    exact ⟨rfl, rfl⟩

theorem Piece.offsets_of_diagnostic? {p : Piece} {g : Diagnostic}
    (h : IsStretch text p.start p.stop) (hg : p.diagnostic? dialect now text = some g) :
    g.start.offset = p.start ∧ g.stop.offset = p.stop := by
  obtain ⟨hlt, hle⟩ := h.bounds
  obtain ⟨hstart, hstop⟩ := places_of_diagnostic? h hg
  rw [hstart, hstop]
  exact ⟨Position.offset_at (Nat.le_trans (Nat.le_of_lt hlt) hle), Position.offset_at hle⟩

/-- Reading comes to an end, and its rounds, counted twice, are at most one more than the bytes
of the text. Every diagnostic is about a stretch that begins with no blank and reaches to a
blank or to the end of the text, and it begins behind the end of those in front of it. -/
theorem diagnostics_placed (dialect : Dialect) (now : Instant) (text : String) :
    (WellFounded fun rest cs => Round dialect.delimiter cs rest) ∧
      2 * (pieces dialect.delimiter 0 text.toList).length ≤ byteLength text.toList + 1 ∧
      (∀ g ∈ (Query.readAll dialect now text).diagnostics, g.IsPlaced text.toList) ∧
      (Query.readAll dialect now text).diagnostics.Pairwise fun a b =>
        a.stop.offset < b.start.offset := by
  have hstretch : ∀ p ∈ pieces dialect.delimiter 0 text.toList,
      IsStretch text.toList p.start p.stop := fun p hp => isStretch_of_mem_pieces [] hp
  refine ⟨wellFounded_round _, (two_mul_length_pieces_le _ _ _).1, fun g hg => ?_, ?_⟩
  · obtain ⟨p, hp, hg⟩ := List.mem_filterMap.1 hg
    obtain ⟨hstart, hstop⟩ := Piece.offsets_of_diagnostic? (hstretch p hp) hg
    obtain ⟨hlt, hle⟩ := (hstretch p hp).bounds
    exact ⟨by omega, by omega, by rw [hstart, hstop]; exact hstretch p hp⟩
  · rw [diagnostics_readAll, List.pairwise_filterMap]
    refine (pairwise_pieces _ 0 _).imp_of_mem fun hp hq hlt g hg g' hg' => ?_
    have hg := (Piece.offsets_of_diagnostic? (hstretch _ hp) hg).2
    have hg' := (Piece.offsets_of_diagnostic? (hstretch _ hq) hg').1
    omega

end Diagnostics

end SearchBar
