import SearchBar.Proofs.Query.Placement

/-! # Open phrases

Of the characters that delimit phrases those behind a backslash do not count. What is read as
a draft has an even number of the others, so it depends on the texts of the diagnostics in
front whether a phrase is reported as open. Reading goes on behind a blank, and the blank may
stand in a phrase: then a phrase that is closed is taken for one that is open.
-/

namespace SearchBar

open Calendar Text

-- sums begin with the zero of the core library
attribute [local instance (high)] Zero.ofOfNat0

variable {d : Char} {cs raw rest : List Char} {w : Word} {ws : List Word} {draft : Draft}
  {negated : Bool}

namespace Text

variable {c : Char} {a b text : List Char} {stop : Char → Bool}

theorem countUnescaped_cons (hc : c ≠ '\\') (d : Char) (cs : List Char) :
    countUnescaped d (c :: cs) = (if c = d then 1 else 0) + countUnescaped d cs := by
  rw [countUnescaped]
  · rintro rfl
    exact absurd rfl hc
  · rintro _ _ rfl
    exact absurd rfl hc

theorem countUnescaped_plain_append (h : ∀ c ∈ raw, c ≠ d ∧ c ≠ '\\') (cs : List Char) :
    countUnescaped d (raw ++ cs) = countUnescaped d cs := by
  induction raw with
  | nil => rfl
  | cons c raw ih =>
    obtain ⟨⟨hd, hc⟩, h⟩ := List.forall_mem_cons.1 h
    rw [List.cons_append, countUnescaped_cons hc, if_neg hd, Nat.zero_add, ih h]

theorem countUnescaped_unescape_append (hd : stop d = true)
    (h : unescape stop raw = some (text, [])) (cs : List Char) :
    countUnescaped d (raw ++ cs) = countUnescaped d cs := by
  fun_induction unescape stop raw generalizing text with
  | case1 => rfl
  | case2 => simp at h
  | case3 c raw ih =>
    obtain ⟨⟨t, r⟩, ht, hr⟩ := Option.map_eq_some_iff.1 h
    obtain ⟨-, rfl⟩ := Prod.mk.inj hr
    rw [List.cons_append, List.cons_append, countUnescaped, ih ht]
  | case4 => simp at h
  | case5 c raw h1 h2 hc ih =>
    obtain ⟨⟨t, r⟩, ht, hr⟩ := Option.map_eq_some_iff.1 h
    obtain ⟨-, rfl⟩ := Prod.mk.inj hr
    have hne : c ≠ d := fun hcd => hc (hcd ▸ hd)
    rw [List.cons_append, countUnescaped_cons (ne_backslash_of_cases h1 h2), if_neg hne,
      Nat.zero_add, ih ht]

theorem countUnescaped_blank_append (hd : isBlank d = false)
    (hb : ∀ c ∈ b, isBlank c = true) (cs : List Char) :
    countUnescaped d (b ++ cs) = countUnescaped d cs := by
  refine countUnescaped_plain_append (fun c hc => ⟨?_, ?_⟩) cs
  · rintro rfl
    simp [hb c hc] at hd
  · rintro rfl
    exact absurd (hb _ hc) (by decide)

/-- In front of a blank the counts add up: a backslash at the end escapes only the blank. -/
theorem countUnescaped_append (hd : isBlank d = false) (hb : atBoundary b = true)
    (a : List Char) : countUnescaped d (a ++ b) = countUnescaped d a + countUnescaped d b := by
  fun_induction countUnescaped d a with
  | case1 => simp
  | case2 =>
    cases b with
    | nil => simp [countUnescaped]
    | cons c b =>
      have hblank : ∀ e ∈ [c], isBlank e = true := List.forall_mem_singleton.2 hb
      rw [← List.singleton_append (x := c), countUnescaped_blank_append hd hblank]
      simp [countUnescaped]
  | case3 c a ih => rw [List.cons_append, List.cons_append, countUnescaped, ih]
  | case4 c a h1 h2 ih =>
    rw [List.cons_append, countUnescaped_cons (ne_backslash_of_cases h1 h2), ih, Nat.add_assoc]

/-- In front of any text the stretch has an even number of unescaped delimiters. -/
def KeepsParity (d : Char) (raw : List Char) : Prop :=
  ∀ cs, countUnescaped d (raw ++ cs) % 2 = countUnescaped d cs % 2

theorem KeepsParity.even (h : KeepsParity d raw) : countUnescaped d raw % 2 = 0 := by
  have hraw := h []
  rwa [List.append_nil] at hraw

theorem KeepsParity.append (ha : KeepsParity d a) (hb : KeepsParity d b) :
    KeepsParity d (a ++ b) := fun cs => by
  rw [List.append_assoc, ha, hb]

theorem keepsParity_plain (h : ∀ c ∈ raw, c ≠ d ∧ c ≠ '\\') : KeepsParity d raw :=
  fun cs => congrArg (· % 2) (countUnescaped_plain_append h cs)

theorem keepsParity_unescape (hd : stop d = true) (h : unescape stop raw = some (text, [])) :
    KeepsParity d raw :=
  fun cs => congrArg (· % 2) (countUnescaped_unescape_append hd h cs)

theorem KeepsParity.delimited (hd : d ≠ '\\') (h : KeepsParity d raw) :
    KeepsParity d (d :: raw ++ [d]) := fun cs => by
  have hraw := h (d :: cs)
  rw [countUnescaped_cons hd, if_pos rfl] at hraw
  rw [List.append_assoc, List.singleton_append, List.cons_append, countUnescaped_cons hd,
    if_pos rfl]
  omega

end Text

section Spelled

theorem keepsParity_isPlain (h : ∀ c ∈ raw, IsPlain d c) : KeepsParity d raw :=
  keepsParity_plain fun c hc => ⟨(isPlain_iff.1 (h c hc)).1, (h c hc).2⟩

theorem keepsParity_gaps (hd : IsDelimiter d) (h : ∀ c ∈ raw, isGap c = true) :
    KeepsParity d raw := fun cs =>
  congrArg (· % 2)
    (countUnescaped_blank_append hd.not_blank (fun c hc => isBlank_of_isGap (h c hc)) cs)

theorem keepsParity_singleton {c : Char} (hd : IsDelimiter d) (hc : c ∈ ['(', ')', ':']) :
    KeepsParity d [c] := by
  refine keepsParity_plain (List.forall_mem_singleton.2 ⟨?_, ?_⟩)
  · rintro rfl
    have hmem := hd.not_mem
    simp only [List.mem_cons, List.not_mem_nil, or_false, not_or] at hc hmem
    rcases hc with rfl | rfl | rfl <;> simp at hmem
  · rintro rfl
    simp at hc

theorem Word.Spelled.keepsParity (hd : IsDelimiter d) (h : w.Spelled d raw) :
    KeepsParity d raw := by
  cases h with
  | phrase h =>
    have hinside : KeepsParity d _ := keepsParity_unescape (by simp [endsPhrase]) h
    exact hinside.delimited hd.ne_backslash
  | bare h _ => exact keepsParity_unescape (by simp [endsWord]) h

theorem IsOr.keepsParity (hd : IsDelimiter d) (h : IsOr raw) : KeepsParity d raw := by
  obtain ⟨before, word, behind, rfl, ⟨-, hbefore⟩, hword, -, hbehind⟩ := h
  have hplain : ∀ c ∈ word, IsPlain d c := by
    intro c hc
    have hlower := hword ▸ List.mem_map_of_mem (f := Char.toLower) hc
    have hall : ['o', 'r'].all isNameChar = true := by decide
    refine isPlain_of_isNameChar hd ?_
    rw [← apply_toLower (f := isNameChar) (by decide)]
    exact List.all_eq_true.1 hall _ hlower
  exact ((keepsParity_gaps hd hbefore).append (keepsParity_isPlain hplain)).append
    (keepsParity_gaps hd hbehind)

theorem AlternativesSpelled.keepsParity (hd : IsDelimiter d)
    (h : AlternativesSpelled d raw ws) : KeepsParity d raw := by
  induction h with
  | nil => exact fun _ => rfl
  | cons ho hw _ ih => exact ((ho.keepsParity hd).append (hw.keepsParity hd)).append ih

theorem ValuesSpelled.keepsParity (hd : IsDelimiter d) (h : ValuesSpelled d raw ws) :
    KeepsParity d raw := by
  obtain ⟨opening, first, more, closing, w, vs, rfl, -, ho, hw, hm, hc⟩ := h
  have hopen := (keepsParity_singleton hd (c := '(') (by simp)).append (keepsParity_gaps hd ho)
  exact (((hopen.append (hw.keepsParity hd)).append (hm.keepsParity hd)).append
    (keepsParity_gaps hd hc)).append (keepsParity_singleton hd (by simp))

/-- Whatever is read as a draft has its phrases closed. -/
theorem Draft.Spelled.keepsParity (hd : IsDelimiter d) (h : draft.Spelled d raw) :
    KeepsParity d raw := by
  have hname {name : List Char} (hn : isFieldName name = true) : KeepsParity d name :=
    keepsParity_isPlain fun c hc => isPlain_of_isNameChar hd (isNameChar_of_isFieldName hn c hc)
  have hsign (op : Operator) : KeepsParity d op.sign.toList :=
    keepsParity_isPlain fun c hc => isPlain_of_mem_sign hd hc
  cases h with
  | @flag reserved name hr hn =>
    rw [List.append_cons]
    have hall : ∀ c ∈ name, isNameChar c = true :=
      List.all_eq_true.1 (Bool.and_eq_true_iff.1 hn).2
    exact ((hname (isFieldName_of_isReserved hr)).append (hsign .eq)).append
      (keepsParity_isPlain fun c hc => isPlain_of_isNameChar hd (hall c hc))
  | @group name raw ws hn hv =>
    rw [List.append_cons]
    exact ((hname hn).append (hsign .eq)).append (hv.keepsParity hd)
  | field hn _ hw _ => exact ((hname hn).append (hsign _)).append (hw.keepsParity hd)
  | missing hn => exact (hname hn).append (hsign _)
  | term hw _ => exact hw.keepsParity hd

theorem SignedSpelled.keepsParity (hd : IsDelimiter d)
    (h : SignedSpelled d raw negated draft) : KeepsParity d raw := by
  cases h with
  | positive h _ => exact h.keepsParity hd
  | negative h =>
    have hminus : KeepsParity d ['-'] :=
      keepsParity_isPlain (List.forall_mem_singleton.2 (isPlain_of_isNameChar hd (by decide)))
    exact hminus.append (h.keepsParity hd)

end Spelled

section Stretches

variable {a b : List Char}

def textBetween (start stop : Nat) (cs : List Char) : List Char :=
  ((takeBytes? stop cs).getD cs).drop ((takeBytes? start cs).getD cs).length

theorem textBetween_append (a b cs : List Char) :
    textBetween (byteLength a) (byteLength (a ++ b)) (a ++ (b ++ cs)) = b := by
  have hstop := takeBytes?_append (a ++ b) cs
  rw [List.append_assoc] at hstop
  rw [textBetween, hstop, takeBytes?_append, Option.getD_some, Option.getD_some,
    List.drop_left]

theorem firstToken_append (hb : atBoundary b = true) (a : List Char) :
    firstToken (a ++ b) = firstToken a := by
  have hstop : stopsAt (fun c => !!isBlank c) b = true := by
    simpa only [atBoundary_eq_stopsAt, Bool.not_not] using hb
  rw [firstToken, List.takeWhile_append, takeWhile_eq_nil_of_stopsAt hstop, List.append_nil]
  split
  · rename_i h
    exact (List.takeWhile_prefix _).eq_of_length h |>.symm
  · rfl

end Stretches

section Pieces

variable {p : Piece} {text before inside : List Char}

def Piece.covered (text : List Char) (p : Piece) : List Char := textBetween p.start p.stop text

def Diagnostic.covered (text : List Char) (g : Diagnostic) : List Char :=
  textBetween g.start.offset g.stop.offset text

theorem Piece.IsTaken.covered_eq (h : p.IsTaken d text before inside rest) :
    p.covered text = inside := by
  rw [covered, ← h.start_eq, ← h.stop_eq, h.text_eq, textBetween_append]

/-- Where a piece is taken, and the delimiters in front of it: they stand in the pieces. -/
theorem exists_isTaken (hd : isBlank d = false) (front : List Char) (ps : List Piece)
    {qs : List Piece} (h : pieces d (byteLength front) cs = ps ++ p :: qs) :
    ∃ before inside rest, p.IsTaken d (front ++ cs) before inside rest ∧
      countUnescaped d cs = (ps.map fun q => countUnescaped d (q.covered (front ++ cs))).sum +
        countUnescaped d (inside ++ rest) := by
  generalize ho : byteLength front = o at h
  fun_induction pieces d o cs generalizing front ps with
  | case1 => simp at h
  | case2 o cs c body htrim start found stop ih =>
    subst ho
    obtain ⟨inside, hcs, htaken⟩ := exists_isTaken_first (d := d) front htrim
    have hcount : countUnescaped d cs = countUnescaped d (inside ++ found.2) :=
      (congrArg (countUnescaped d) hcs).trans
        (countUnescaped_blank_append hd (forall_mem_takeWhile isBlank cs) _)
    cases ps with
    | nil =>
      obtain ⟨rfl, -⟩ := List.cons.inj h
      exact ⟨_, inside, found.2, htaken, by simpa using hcount⟩
    | cons q ps =>
      obtain ⟨rfl, hrest⟩ := List.cons.inj h
      obtain ⟨before, inside', rest, htaken', hcount'⟩ := ih _ ps htaken.stop_eq hrest
      rw [List.append_assoc _ inside, ← htaken.text_eq] at htaken' hcount'
      refine ⟨before, inside', rest, htaken', ?_⟩
      rw [hcount, countUnescaped_append hd htaken.atBoundary, hcount', List.map_cons,
        List.sum_cons, htaken.covered_eq, Nat.add_assoc]

theorem even_covered_of_mem_pieces (hd : IsDelimiter d) {s : Bool × Draft}
    (hp : p ∈ pieces d 0 text) (hs : p.content = .ok s) :
    countUnescaped d (p.covered text) % 2 = 0 := by
  obtain ⟨ps, qs, hsplit⟩ := List.append_of_mem hp
  obtain ⟨before, inside, rest, htaken, -⟩ :=
    exists_isTaken hd.not_blank [] ps hsplit
  rw [List.nil_append] at htaken
  have htake := htaken.takePiece_eq
  rw [htaken.covered_eq]
  rcases takePiece_cases hd (inside ++ rest) with
    ⟨raw, negated, draft, rest', hraw, hok, hspelled, -⟩ | ⟨raw, fault, rest', -, herror, -⟩
  · obtain rfl : rest' = rest := (congrArg Prod.snd (hok.symm.trans htake) :)
    rw [List.append_cancel_right hraw]
    exact (hspelled.keepsParity hd).even
  · have hcontent : Except.error fault = p.content :=
      (congrArg Prod.fst (herror.symm.trans htake) :)
    simp [hs] at hcontent

end Pieces

section Faults

variable {dialect : Dialect} {now : Instant} {f : Fault} {name : List Char}

/-- The rules that are broken where no clause can be read at all. -/
def malformedRules : List String :=
  ["unterminated-phrase", "unclosed-group", "malformed-group", "unexpected-input"]

def Fault.isMalformed : Fault → Bool
  | openPhrase _ | openGroup | badGroup _ | unexpected _ => true
  | _ => false

theorem Fault.rule_mem_malformedRules (f : Fault) :
    f.rule ∈ malformedRules ↔ f.isMalformed = true := by
  cases f with
  | openPhrase | openGroup | badGroup | unexpected =>
    exact iff_of_true (by simp [rule, malformedRules]) rfl
  | missingValue | flagValue | unknownField | operatorRefused | noNumber | noBool | noDate =>
    exact iff_of_false (by simp [rule, malformedRules]) Bool.false_ne_true

theorem isMalformed_recover (d : Char) (cs : List Char) :
    (recover d cs).1.isMalformed = true := by
  unfold recover
  repeat' split
  all_goals rfl

/-- A phrase is open if a delimiter stands in front of the next blank and those of the text do not
pair up. -/
theorem rule_recover_eq_iff : (recover d cs).1.rule = "unterminated-phrase" ↔
    d ∈ firstToken cs ∧ countUnescaped d cs % 2 = 1 := by
  unfold recover
  split
  · rename_i h
    simpa [Fault.rule] using h
  · rename_i h
    have hrule : ∀ r ∈ ["unclosed-group", "malformed-group", "unexpected-input"],
        r ≠ "unterminated-phrase" := by decide
    refine iff_of_false ?_ (by simpa using h)
    split
    · split <;> exact hrule _ (by simp [Fault.rule])
    · exact hrule _ (by simp [Fault.rule])

theorem recover_eq_of_takePiece (h : takePiece d cs = (.error f, rest)) :
    recover d cs = (f, rest) := by
  obtain ⟨negated, draft, r, -, -, hpiece⟩ | hpiece := taken_or_recovered d cs
  · simp [hpiece] at h
  · simpa [hpiece, Prod.ext_iff] using h

theorem not_isMalformed_of_checkField {op : Operator}
    (h : checkField dialect name op = .error f) : f.isMalformed = false := by
  unfold checkField at h
  split at h
  · exact Except.error.inj h ▸ rfl
  · split at h
    · exact Except.error.inj h ▸ rfl
    · split at h
      · simp at h
      · exact Except.error.inj h ▸ rfl

theorem not_isMalformed_of_typeAs {kind : FieldKind} {text : List Char}
    (h : typeAs now kind name text = .error f) : f.isMalformed = false := by
  cases kind with
  | text => simp [typeAs] at h
  | bool =>
    simp only [typeAs] at h
    split at h
    · simp at h
    · split at h
      · simp at h
      · exact Except.error.inj h ▸ rfl
  | number | date =>
    simp only [typeAs] at h
    split at h
    · simp at h
    · exact Except.error.inj h ▸ rfl

theorem not_isMalformed_of_typeWord (h : typeWord dialect now name w = .error f) :
    f.isMalformed = false := by
  unfold typeWord at h
  split at h
  · exact not_isMalformed_of_typeAs h
  · split at h <;> simp at h

theorem not_isMalformed_of_resolve (h : resolve dialect now negated draft = .error f) :
    f.isMalformed = false := by
  cases draft with
  | flag | term => simp [resolve] at h
  | missing name op => exact Except.error.inj h ▸ rfl
  | field name op w =>
    obtain hcheck | ⟨-, -, h⟩ := bind_eq_error_iff.1 h
    · exact not_isMalformed_of_checkField hcheck
    · obtain hword | ⟨v, -, h⟩ := bind_eq_error_iff.1 h
      · exact not_isMalformed_of_typeWord hword
      · simp at h
  | group name ws =>
    obtain hcheck | ⟨-, -, h⟩ := bind_eq_error_iff.1 h
    · exact not_isMalformed_of_checkField hcheck
    · obtain hwords | ⟨vs, -, h⟩ := bind_eq_error_iff.1 h
      · obtain ⟨-, w, -, -, -, hw⟩ := mapM_eq_error_iff.1 hwords
        exact not_isMalformed_of_typeWord hw
      · simp at h

end Faults

section Reports

variable {dialect : Dialect} {now : Instant} {text : String} {p : Piece} {g : Diagnostic}

theorem covered_of_diagnostic? {cs : List Char} (hp : p ∈ pieces d 0 cs)
    (hg : p.diagnostic? dialect now cs = some g) : g.covered cs = p.covered cs := by
  obtain ⟨hstart, hstop⟩ := Piece.offsets_of_diagnostic? (isStretch_of_mem_pieces [] hp) hg
  rw [Diagnostic.covered, hstart, hstop, Piece.covered]

theorem sum_covered_diagnostics (hd : IsDelimiter d) (dialect : Dialect) (now : Instant)
    {ps : List Piece} (h : ∀ p ∈ ps, p ∈ pieces d 0 cs) :
    ((ps.filterMap (·.diagnostic? dialect now cs)).map
      fun g => countUnescaped d (g.covered cs)).sum % 2 =
      (ps.map fun p => countUnescaped d (p.covered cs)).sum % 2 := by
  induction ps with
  | nil => rfl
  | cons p ps ih =>
    obtain ⟨hp, h⟩ := List.forall_mem_cons.1 h
    have ih := ih h
    rw [List.filterMap_cons, List.map_cons, List.sum_cons]
    cases hg : p.diagnostic? dialect now cs with
    | none =>
      obtain ⟨c, hc⟩ := Piece.diagnostic?_eq_none_iff.1 hg
      obtain ⟨s, hs⟩ := Piece.content_ok_of_clause hc
      have heven := even_covered_of_mem_pieces hd hp hs
      simp only
      omega
    | some g =>
      rw [List.map_cons, List.sum_cons, covered_of_diagnostic? hp hg]
      omega

theorem rule_eq_iff_of_diagnostic? {cs before inside : List Char}
    (hp : p.IsTaken d cs before inside rest)
    (hg : p.diagnostic? dialect now cs = some g) :
    g.rule = "unterminated-phrase" ↔ g.rule ∈ malformedRules ∧ d ∈ firstToken inside ∧
      countUnescaped d (inside ++ rest) % 2 = 1 := by
  unfold Piece.diagnostic? at hg
  split at hg
  · simp at hg
  · rename_i f hf
    obtain rfl := Option.some.inj hg
    show f.rule = _ ↔ f.rule ∈ _ ∧ _
    rw [f.rule_mem_malformedRules]
    cases hcontent : p.content with
    | error f' =>
      obtain rfl : f' = f := by simpa [Piece.clause, hcontent, Except.bind] using hf
      have htake := hp.takePiece_eq
      rw [hcontent] at htake
      have hrecover := recover_eq_of_takePiece htake
      have hrule := @rule_recover_eq_iff d (inside ++ rest)
      have hmalformed := isMalformed_recover d (inside ++ rest)
      rw [hrecover, firstToken_append hp.atBoundary] at hrule
      rw [hrecover] at hmalformed
      simp [hrule, hmalformed]
    | ok s =>
      have hother : f.isMalformed = false :=
        not_isMalformed_of_resolve (by simpa [Piece.clause, hcontent, Except.bind] using hf)
      refine iff_of_false (fun hrule => ?_) (by simp [hother])
      have hmem : f.rule ∈ malformedRules := by rw [hrule]; decide
      simp [f.rule_mem_malformedRules, hother] at hmem

/-- A phrase is reported as open exactly where no clause can be read, a delimiter stands in
front of the next blank, and the delimiters that are left do not pair up. -/
theorem rule_diagnostics_eq_iff (hd : IsDelimiter dialect.delimiter) {gs gs' : List Diagnostic}
    (h : (Query.readAll dialect now text).diagnostics = gs ++ g :: gs') :
    g.rule = "unterminated-phrase" ↔ g.rule ∈ malformedRules ∧
      dialect.delimiter ∈ firstToken (g.covered text.toList) ∧
      (countUnescaped dialect.delimiter text.toList +
        (gs.map fun e => countUnescaped dialect.delimiter (e.covered text.toList)).sum) % 2 =
          1 := by
  rw [diagnostics_readAll] at h
  obtain ⟨ps, rs, hsplit, rfl, hrs⟩ := List.filterMap_eq_append_iff.1 h
  obtain ⟨ps', p, qs, rfl, hnone, hg, -⟩ := List.filterMap_eq_cons_iff.1 hrs
  have hgs : (ps ++ ps').filterMap (·.diagnostic? dialect now text.toList) =
      ps.filterMap (·.diagnostic? dialect now text.toList) := by
    rw [List.filterMap_append, List.filterMap_eq_nil_iff.2 hnone, List.append_nil]
  rw [← List.append_assoc] at hsplit
  have hmem : ∀ q ∈ (ps ++ ps') ++ p :: qs, q ∈ pieces dialect.delimiter 0 text.toList :=
    fun q hq => hsplit ▸ hq
  obtain ⟨before, inside, rest, htaken, hcount⟩ := exists_isTaken hd.not_blank [] _ hsplit
  rw [List.nil_append] at htaken hcount
  have hsum := sum_covered_diagnostics hd dialect now
    fun q hq => hmem q (List.mem_append_left _ hq)
  rw [hgs] at hsum
  rw [rule_eq_iff_of_diagnostic? htaken hg, covered_of_diagnostic? (hmem p (by simp)) hg,
    htaken.covered_eq]
  refine and_congr_right fun _ => and_congr_right fun _ => ?_
  omega

/-- In a text whose delimiters pair up a phrase is reported as open exactly where no clause can
be read, a delimiter stands in front of the next blank, and reading went on inside of a phrase:
the diagnostics in front are about an odd number of delimiters. -/
theorem open_phrase_reported_iff_of_even (hd : IsDelimiter dialect.delimiter)
    (heven : countUnescaped dialect.delimiter text.toList % 2 = 0) {gs gs' : List Diagnostic}
    (h : (Query.readAll dialect now text).diagnostics = gs ++ g :: gs') :
    g.rule = "unterminated-phrase" ↔ g.rule ∈ malformedRules ∧
      dialect.delimiter ∈ firstToken (g.covered text.toList) ∧
      (gs.map fun e => countUnescaped dialect.delimiter (e.covered text.toList)).sum % 2 = 1 := by
  rw [rule_diagnostics_eq_iff hd h]
  refine and_congr_right fun _ => and_congr_right fun _ => ?_
  omega

theorem open_phrase_reported_inside_phrase :
    let text := "\"a b\"c"
    let first := Diagnostic.within text.toList 0 2 "unexpected-input" "unexpected input '\"a'"
    let second := Diagnostic.within text.toList 3 6 "unterminated-phrase"
      "unterminated phrase, expected a closing \""
    IsDelimiter ({} : Dialect).delimiter ∧ countUnescaped '"' text.toList % 2 = 0 ∧
      (Query.readAll {} (.midnight 0) text).diagnostics = [first] ++ second :: [] ∧
      second.rule ∈ malformedRules ∧ '"' ∈ firstToken (second.covered text.toList) ∧
      ([first].map fun e => countUnescaped '"' (e.covered text.toList)).sum % 2 = 1 := by
  intro text first second
  have heven : countUnescaped '"' text.toList % 2 = 0 := by decide
  have hread : (Query.readAll {} (.midnight 0) text).diagnostics = [first] ++ second :: [] := by
    decide +kernel
  exact ⟨isDelimiter_quote, heven, hread,
    (open_phrase_reported_iff_of_even isDelimiter_quote heven hread).1 rfl⟩

/-- That the delimiters of a text pair up does not keep a phrase from being reported as open. -/
theorem not_open_phrase_unreported_of_even :
    ¬ ∀ text : String, countUnescaped '"' text.toList % 2 = 0 →
      ∀ g ∈ (Query.readAll {} (.midnight 0) text).diagnostics, g.rule ≠ "unterminated-phrase" := by
  intro h
  have hread : ((Query.readAll {} (.midnight 0) "\"a b\"c").diagnostics.map (·.rule)) =
      ["unexpected-input", "unterminated-phrase"] := by decide +kernel
  obtain ⟨g, hg, hrule⟩ := List.mem_map.1 (hread ▸ List.mem_cons_of_mem _ List.mem_cons_self)
  exact h _ (by decide) g hg hrule

end Reports

end SearchBar
