import SearchBar.Proofs.Query.Faithful

/-! # Written words under other delimiters

A query is written for double quotes. If another character delimits phrases, quotes are read
as characters of bare words. So a word that is written in quotes is read as another text, and
a word that is written without them is read as itself unless it holds the delimiter.
-/

namespace SearchBar

open Calendar Text

variable {d c : Char} {cs x y rest r : List Char} {w w' : Word} {ws ws' : List Word}

/-- The text holds a character that is written in quotes only. -/
def IsMarked (cs : List Char) : Prop := ∃ c ∈ cs, isBlank c = true ∨ c ∈ specials

section Marks

theorem isMarked_of_mem (hc : c ∈ cs) (h : c ∈ specials) : IsMarked cs := ⟨c, hc, .inr h⟩

theorem not_isMarked_of_needsQuotes (h : needsQuotes cs = false) : ¬ IsMarked cs := by
  obtain ⟨-, -, -, hplain, -⟩ := needsQuotes_eq_false_iff.1 h
  rintro ⟨c, hc, hblank | hspecial⟩
  · simp [(hplain c hc).1] at hblank
  · exact (hplain c hc).2 hspecial

theorem not_isMarked_of_isNumeralChar (h : ∀ c ∈ cs, isNumeralChar c = true) : ¬ IsMarked cs := by
  have hblanks : blanks.any isNumeralChar = false := by decide +kernel
  have hspecials : specials.any isNumeralChar = false := by decide
  rintro ⟨c, hc, hblank | hspecial⟩
  · exact List.any_eq_false.1 hblanks c (isBlank_iff.1 hblank) (h c hc)
  · exact List.any_eq_false.1 hspecials c hspecial (h c hc)

theorem not_backslash_mem (h : ¬ IsMarked cs) : '\\' ∉ cs := fun hc =>
  h (isMarked_of_mem hc (by decide))

theorem Decimal.isNumeralChar_of_readUnsigned {negative : Bool} {n : Decimal}
    (h : readUnsigned? negative cs = some n) : ∀ c ∈ cs, isNumeralChar c = true := by
  have hdigit {c : Char} (hc : c.isDigit = true) : isNumeralChar c = true := by
    simp [isNumeralChar, Char.isAlphanum, hc]
  have hwhole : ∀ c ∈ cs.takeWhile Char.isDigit, isNumeralChar c = true := fun c hc =>
    hdigit (forall_mem_takeWhile _ _ c hc)
  have hsplit := List.takeWhile_append_dropWhile (p := Char.isDigit) (l := cs)
  unfold readUnsigned? at h
  simp only at h
  split at h
  · simp at h
  · split at h
    · rename_i hrest
      rw [hrest, List.append_nil] at hsplit
      rwa [hsplit] at hwhole
    · rename_i part hrest
      split at h
      · rename_i hpart
        simp only [Bool.and_eq_true, List.all_eq_true] at hpart
        rw [← hsplit, hrest]
        refine List.forall_mem_append.2 ⟨hwhole, List.forall_mem_cons.2 ⟨by decide, ?_⟩⟩
        exact fun c hc => hdigit (hpart.2 c hc)
      · simp at h
    · simp at h

theorem Decimal.isNumeralChar_of_readPlain {n : Decimal} (h : readPlain? cs = some n) :
    ∀ c ∈ cs, isNumeralChar c = true := by
  have hbody := isNumeralChar_of_readUnsigned h
  unfold takeMinus at hbody
  split at hbody
  · exact List.forall_mem_cons.2 ⟨by decide, hbody⟩
  · exact hbody

theorem ofWord_of_isMarked (h : IsMarked cs) : Value.ofWord cs = .text (String.ofList cs) := by
  have hbool (b : Bool) : cs ≠ Value.boolText b := by
    rintro rfl
    have hchars : ∀ c ∈ Value.boolText b, isNumeralChar c = true :=
      List.all_eq_true.1 (by cases b <;> decide)
    exact not_isMarked_of_isNumeralChar hchars h
  have htrue : cs ≠ "true".toList := hbool true
  have hfalse : cs ≠ "false".toList := hbool false
  unfold Value.ofWord
  rw [if_neg htrue, if_neg hfalse]
  split
  · rename_i x hx
    obtain ⟨n, hn, -⟩ := Option.map_eq_some_iff.1 hx
    exact absurd h (not_isMarked_of_isNumeralChar (Decimal.isNumeralChar_of_readPlain hn))
  · rfl

end Marks

section Written

def Word.write (w : Word) : List Char := if w.quoted then Text.quoted w.text else w.text

def Word.Writable (w : Word) : Prop := w.quoted = false → w.text ≠ [] ∧ ¬ IsMarked w.text

theorem Word.Writable.of (cs : List Char) : (Word.of cs).Writable := fun h =>
  ⟨(needsQuotes_eq_false_iff.1 h).1, not_isMarked_of_needsQuotes h⟩

theorem Value.writable_word (now : Instant) (v : Value) : (v.word now).Writable := by
  cases v with
  | text s => exact .of s.toList
  | date d => exact .of (d.write now none)
  | number x =>
    exact fun _ => ⟨plainText_ne_nil x,
      not_isMarked_of_isNumeralChar fun _ => isNumeralChar_of_mem_plainText⟩
  | bool b =>
    have hchars : ∀ c ∈ boolText b, isNumeralChar c = true :=
      List.all_eq_true.1 (by cases b <;> decide)
    exact fun _ => ⟨by cases b <;> simp [boolText, word], not_isMarked_of_isNumeralChar hchars⟩

theorem Value.write_word (now : Instant) (v : Value) : (v.word now).write = v.clauseText now := by
  cases v <;> rfl

def endsWritten (c : Char) : Bool := c == ' ' || c == ')'

theorem mark_of_endsWritten (h : endsWritten c = true) :
    (isBlank c = true ∨ c ∈ specials) ∧ c ≠ '\\' := by
  simp only [endsWritten, Bool.or_eq_true, beq_iff_eq] at h
  rcases h with rfl | rfl
  · exact ⟨.inl (by decide), by decide⟩
  · exact ⟨.inr (by decide), by decide⟩

theorem head_write (hw : w.Writable) : ∃ a s, w.write = a :: s ∧ isBlank a = false ∧
    a ≠ '(' ∧ a ≠ '\\' := by
  unfold Word.write
  split
  · exact ⟨'"', _, rfl, by decide, by decide, by decide⟩
  · rename_i hq
    obtain ⟨hne, hplain⟩ := hw (Bool.eq_false_iff.2 hq)
    obtain ⟨a, s, has⟩ := List.exists_cons_of_ne_nil hne
    have ha : a ∈ w.text := by simp [has]
    refine ⟨a, s, has, Bool.eq_false_iff.2 fun hblank => hplain ⟨a, ha, .inl hblank⟩, ?_, ?_⟩
    · rintro rfl
      exact hplain (isMarked_of_mem ha (by decide))
    · rintro rfl
      exact hplain (isMarked_of_mem ha (by decide))

end Written

section Taking

theorem isPlain_of_not_isMarked (h : ¬ IsMarked cs) (hd : d ∉ cs) : ∀ c ∈ cs, IsPlain d c := by
  refine fun c hc => isPlain_iff.2 ⟨?_, fun hmem => h ⟨c, hc, ?_⟩⟩
  · rintro rfl
    exact hd hc
  · simp only [List.mem_cons, List.not_mem_nil, or_false] at hmem
    rcases hmem with rfl | rfl | rfl | rfl | rfl | rfl | rfl <;> decide

theorem takeWord_cases (hcs : cs.head? ≠ some '\\') (h : takeWord? d cs = some (w, rest)) :
    (w.quoted = true ∧ ∃ inside, cs = d :: inside ∧
      unescape (endsPhrase d) inside = some (w.text, d :: rest)) ∨
    w.quoted = false ∧ w.text ≠ [] ∧ unescape (endsWord d) cs = some (w.text, rest) := by
  rcases takeWord_eq_some h with h | h
  · have hd : d ≠ '\\' := by
      rintro rfl
      rw [takePhrase_eq_none hcs] at h
      simp at h
    exact .inl ((takePhrase_eq_some_iff hd).1 h)
  · exact .inr (takeBare_eq_some_iff.1 h)

/-- The word that is taken in the place of one that is written without quotes: the word
itself, without the delimiter, or another text, if the written one begins and ends with the
delimiter. -/
def Word.InStep (d : Char) (w w' : Word) : Prop :=
  w.quoted = false ∧ (w' = w ∧ d ∉ w.text ∨ w'.quoted = true ∧ w'.text ≠ w.text)

/-- How a written word is taken in front of `rest` if `d` delimits phrases. -/
inductive Word.TakenAs (d : Char) (rest : List Char) (w : Word) : Word → List Char → Prop
  /-- It ends inside the written text, where neither a clause nor a value may end. -/
  | inside {w' : Word} {a : Char} {s : List Char} (hblank : isBlank a = false) (hclose : a ≠ ')') :
      TakenAs d rest w w' (a :: s)
  | astray {w' : Word} {r : List Char} (hmark : IsMarked w'.text) (hne : w'.text ≠ w.text) :
      TakenAs d rest w w' r
  | inStep {w' : Word} (h : w.InStep d w') : TakenAs d rest w w' rest

theorem ne_quote_cons {text s : List Char} (hc : c ≠ '"') : '"' :: text ≠ text ++ c :: s := by
  intro h
  have hlength := congrArg List.length h
  obtain rfl : s = [] := by simpa using hlength
  have hcount := congrArg (List.count '"') h
  simp [hc] at hcount

theorem takeWord_quoted (hd : d ≠ '"') (h : takeWord? d (quoted cs ++ rest) = some (w', r)) :
    IsMarked w'.text ∧ w'.text ≠ cs := by
  have htext : quoted cs ++ rest = '"' :: (cs.flatMap escape ++ '"' :: rest) := by simp [quoted]
  rw [htext] at h
  rcases takeWord_cases (by simp) h with ⟨-, inside, hinside, -⟩ | ⟨-, -, hu⟩
  · exact absurd (List.cons.inj hinside).1.symm hd
  · have hstop : endsWord d '"' = false := by simp [endsWord, hd.symm]
    rw [unescape_cons (by decide), if_neg (by simp [hstop])] at hu
    obtain ⟨⟨t, r'⟩, ht, hu⟩ := Option.map_eq_some_iff.1 hu
    rw [← (Prod.mk.inj hu).1]
    refine ⟨isMarked_of_mem List.mem_cons_self (by decide), ?_⟩
    rcases unescape_flatMap_escape_cases ht with ⟨c, s, rfl, hc⟩ | ⟨u, rfl, -⟩
    · exact ne_quote_cons hc
    · intro hsame
      have hlength := congrArg List.length hsame
      simp at hlength
      omega

theorem unescape_of_stopsAt {stop : Char → Bool} (h : stopsAt (endsAt stop) rest = true) :
    unescape stop rest = some ([], rest) :=
  unescape_append (show unescape stop [] = some ([], []) from rfl) h

theorem stopsAt_endsWord (h : stopsAt endsWritten rest = true) :
    stopsAt (endsAt (endsWord d)) rest = true := by
  refine stopsAt_mono (fun c hc => ?_) h
  simp only [endsWritten, Bool.or_eq_true, beq_iff_eq] at hc
  rcases hc with rfl | rfl <;> simp [endsAt, endsWord]

theorem takeWord_of_not_mem (hw : w.Writable) (hq : w.quoted = false) (hd : d ∉ w.text)
    (hrest : stopsAt endsWritten rest = true) :
    takeWord? d (w.write ++ rest) = some (w, rest) := by
  obtain ⟨hne, hplain⟩ := hw hq
  obtain ⟨text, quoted⟩ := w
  obtain rfl : quoted = false := hq
  have hphrase : takePhrase? d (text ++ rest) = none := by
    obtain ⟨a, s, rfl⟩ := List.exists_cons_of_ne_nil hne
    refine takePhrase_eq_none fun h => hd ?_
    simp_all
  show takeWord? d (text ++ rest) = _
  rw [takeWord?, hphrase, takeBare_plain_append (isPlain_of_not_isMarked hplain hd) hne,
    unescape_of_stopsAt (stopsAt_endsWord hrest)]
  simp

theorem takenAs_inside {a : Char} {s : List Char} (h : ¬ IsMarked cs) (ha : a ∈ cs) :
    w.TakenAs d rest w' (a :: s) := by
  refine .inside (Bool.eq_false_iff.2 fun hblank => h ⟨a, ha, .inl hblank⟩) ?_
  rintro rfl
  exact h (isMarked_of_mem ha (by decide))

/-- A phrase that is not closed in front of what stands behind a word takes it in. -/
theorem isMarked_of_unescape (hrest : stopsAt endsWritten rest = true)
    (hd : endsWritten d = false) (h : unescape (endsPhrase d) rest = some (x, d :: r)) :
    IsMarked x := by
  cases rest with
  | nil => simp [unescape] at h
  | cons b rest =>
    obtain ⟨hmark, hslash⟩ := mark_of_endsWritten hrest
    have hbd : b ≠ d := by
      rintro rfl
      exact Bool.eq_false_iff.1 hd hrest
    rw [unescape_cons hslash, if_neg (by simp [endsPhrase, hbd, hslash])] at h
    obtain ⟨t, -, ht⟩ := Option.map_eq_some_iff.1 h
    obtain ⟨rfl, -⟩ := Prod.mk.inj ht
    exact ⟨b, List.mem_cons_self, hmark⟩

theorem takenAs_of_phrase (hplain : ¬ IsMarked (d :: cs)) (hrest : stopsAt endsWritten rest = true)
    (hq' : w'.quoted = true) (h : unescape (endsPhrase d) (cs ++ rest) = some (w'.text, d :: r)) :
    Word.TakenAs d rest ⟨d :: cs, false⟩ w' r := by
  have hslash := List.not_mem_of_not_mem_cons (not_backslash_mem hplain)
  rcases unescape_append_cases hslash h with ⟨c, s, rfl, -, hr⟩ | ⟨-, t, htext, ht⟩
  · obtain ⟨rfl, rfl⟩ := List.cons.inj hr
    cases s with
    | nil =>
      refine .inStep ⟨rfl, .inr ⟨hq', fun hsame => ?_⟩⟩
      have hlength := congrArg List.length hsame
      simp only [List.length_cons, List.length_append, List.length_nil] at hlength
      omega
    | cons b s => exact takenAs_inside hplain (by simp)
  · have hd : endsWritten d = false := Bool.eq_false_iff.2 fun hends =>
      hplain ⟨d, List.mem_cons_self, (mark_of_endsWritten hends).1⟩
    have hmark : IsMarked w'.text := by
      obtain ⟨b, hb, hmark⟩ := isMarked_of_unescape hrest hd ht
      exact ⟨b, htext ▸ List.mem_append_right cs hb, hmark⟩
    refine .astray hmark fun hsame => hplain ?_
    rwa [hsame] at hmark

theorem takenAs_of_bare (hplain : ¬ IsMarked cs) (hrest : stopsAt endsWritten rest = true)
    (hq' : w'.quoted = false) (h : unescape (endsWord d) (cs ++ rest) = some (w'.text, r)) :
    Word.TakenAs d rest ⟨cs, false⟩ w' r := by
  rcases unescape_append_cases (not_backslash_mem hplain) h with
    ⟨c, s, rfl, -, rfl⟩ | ⟨hall, t, htext, ht⟩
  · exact takenAs_inside hplain (by simp)
  · rw [unescape_of_stopsAt (stopsAt_endsWord hrest)] at ht
    obtain ⟨rfl, rfl⟩ := Prod.mk.inj (Option.some.inj ht)
    obtain ⟨text, quoted⟩ := w'
    obtain rfl : quoted = false := hq'
    obtain rfl : text = cs := by simpa using htext
    refine .inStep ⟨rfl, .inl ⟨rfl, fun hmem => ?_⟩⟩
    simpa [endsWord] using hall d hmem

theorem takenAs_of_takeWord (hd : d ≠ '"') (hw : w.Writable)
    (hrest : stopsAt endsWritten rest = true)
    (h : takeWord? d (w.write ++ rest) = some (w', r)) : w.TakenAs d rest w' r := by
  obtain ⟨text, quoted⟩ := w
  cases quoted with
  | true =>
    obtain ⟨hmark, hne⟩ := takeWord_quoted hd h
    exact .astray hmark hne
  | false =>
    obtain ⟨hne, hplain⟩ := hw rfl
    obtain ⟨a, text, rfl⟩ := List.exists_cons_of_ne_nil hne
    have hslash : a ≠ '\\' := (List.ne_of_not_mem_cons (not_backslash_mem hplain)).symm
    rcases takeWord_cases (by simpa [Word.write] using hslash) h with
      ⟨hq', inside, hcs, hu⟩ | ⟨hq', -, hu⟩
    · obtain ⟨rfl, rfl⟩ := List.cons.inj hcs
      exact takenAs_of_phrase hplain hrest hq' hu
    · exact takenAs_of_bare hplain hrest hq' hu

/-- In front of a blank, a word is taken in step or goes astray. -/
theorem inStep_of_takeWord (hd : d ≠ '"') (hw : w.Writable) (hx : stopsAt endsWritten x = true)
    (h : takeWord? d (w.write ++ x) = some (w', r)) (hr : atBoundary r = true) :
    (IsMarked w'.text ∧ w'.text ≠ w.text) ∨ w.InStep d w' ∧ r = x := by
  cases takenAs_of_takeWord hd hw hx h with
  | @inside a s hblank => simp [atBoundary, hblank] at hr
  | astray hmark hne => exact .inl ⟨hmark, hne⟩
  | inStep hstep => exact .inr ⟨hstep, rfl⟩

/-- A word that begins with a stretch without blanks, and ends in front of one, has all
characters of the stretch, apart from those that are like its first one. -/
theorem mem_of_takeWord {a b : Char} (hx : ∀ c ∈ a :: x, isBlank c = false ∧ c ≠ '\\') (hb : b ∈ x)
    (hab : b ≠ a) (h : takeWord? d (a :: x ++ y) = some (w, rest))
    (hrest : atBoundary rest = true) : b ∈ w.text := by
  have hslash : '\\' ∉ a :: x := fun hmem => (hx _ hmem).2 rfl
  have hstop {c : Char} {s : List Char} (hc : c ∈ a :: x) : rest ≠ c :: s := by
    rintro rfl
    simp [atBoundary, (hx c hc).1] at hrest
  rcases takeWord_cases (by simpa using (hx a List.mem_cons_self).2) h with
    ⟨-, inside, hcs, hu⟩ | ⟨-, -, hu⟩
  · obtain ⟨rfl, rfl⟩ := List.cons.inj hcs
    rcases unescape_append_cases (List.not_mem_of_not_mem_cons hslash) hu with
      ⟨c, s, rfl, -, hr⟩ | ⟨-, t, htext, -⟩
    · obtain ⟨rfl, hrest⟩ := List.cons.inj hr
      cases s with
      | nil => simpa [hab] using hb
      | cons e s => exact absurd hrest (hstop (by simp))
    · rw [htext]
      exact List.mem_append_left t hb
  · rcases unescape_append_cases hslash hu with ⟨c, s, heq, -, rfl⟩ | ⟨-, t, htext, -⟩
    · exact absurd rfl (hstop (c := c) (by simp [heq]))
    · rw [htext]
      exact List.mem_append_left t (List.mem_cons_of_mem a hb)

end Taking

section Lists

/-- A text with marks is taken that is not the one that was written in its place. -/
def Astray (ws ws' : List Word) : Prop :=
  (∃ w' ∈ ws', IsMarked w'.text) ∧
    ¬ List.Forall₂ (fun w w' => IsMarked w'.text → w'.text = w.text) ws ws'

theorem astray_cons (hmark : IsMarked w'.text) (hne : w'.text ≠ w.text) :
    Astray (w :: ws) (w' :: ws') :=
  ⟨⟨w', List.mem_cons_self, hmark⟩, fun h => hne ((List.forall₂_cons.1 h).1 hmark)⟩

theorem Astray.cons (h : Astray ws ws') (w w' : Word) : Astray (w :: ws) (w' :: ws') := by
  obtain ⟨⟨u, hu, hmark⟩, hne⟩ := h
  exact ⟨⟨u, List.mem_cons_of_mem w' hu, hmark⟩, fun h => hne (List.forall₂_cons.1 h).2⟩

def writtenTail (ws : List Word) (rest : List Char) : List Char :=
  ws.flatMap (fun w => [' ', 'o', 'r', ' '] ++ w.write) ++ ')' :: rest

theorem stopsAt_writtenTail (ws : List Word) (rest : List Char) :
    stopsAt endsWritten (writtenTail ws rest) = true := by
  cases ws <;> rfl

theorem isGap_of_not_isBlank (h : isBlank c = false) : isGap c = false :=
  Bool.eq_false_iff.2 fun hg => by simp [isBlank_of_isGap hg] at h

theorem takeOr_writtenTail (hw : w.Writable) (ws : List Word) (rest : List Char) :
    takeOr? (writtenTail (w :: ws) rest) = some (w.write ++ writtenTail ws rest) := by
  obtain ⟨a, s, hwrite, hblank, -⟩ := head_write hw
  refine takeOr_eq_some_iff.2 ⟨_, by simp [writtenTail], isOr_between, ?_⟩
  simp [hwrite, isGap_of_not_isBlank hblank]

theorem takeOr_of_not_blank {a : Char} {s : List Char} (h : isBlank a = false) :
    takeOr? (a :: s) = none := by
  simp [takeOr?, takeGap?, isGap_of_not_isBlank h]

theorem inStep_of_close (hd : d ≠ '"') (hw : w.Writable) (hx : stopsAt endsWritten x = true)
    (h : takeWord? d (w.write ++ x) = some (w', r))
    (hclose : (takeAlternatives d r).2.dropWhile isGap = ')' :: y) :
    (IsMarked w'.text ∧ w'.text ≠ w.text) ∨ w.InStep d w' ∧ r = x := by
  cases takenAs_of_takeWord hd hw hx h with
  | @inside a s hblank hne =>
    rw [takeAlternatives_of_takeOr_eq_none (takeOr_of_not_blank hblank), List.dropWhile_cons,
      if_neg (by simp [isGap_of_not_isBlank hblank])] at hclose
    exact absurd (List.cons.inj hclose).1 hne
  | astray hmark hne => exact .inl ⟨hmark, hne⟩
  | inStep hstep => exact .inr ⟨hstep, rfl⟩

/-- The values of a written choice are taken in step up to the closing bracket, or one of
them goes astray. -/
theorem inStep_of_takeAlternatives (hd : d ≠ '"') (hw : w.Writable)
    (hws : ∀ w ∈ ws, w.Writable)
    (h : takeWord? d (w.write ++ writtenTail ws rest) = some (w', r))
    (hclose : (takeAlternatives d r).2.dropWhile isGap = ')' :: y) :
    Astray (w :: ws) (w' :: (takeAlternatives d r).1) ∨
      y = rest ∧ List.Forall₂ (Word.InStep d) (w :: ws) (w' :: (takeAlternatives d r).1) := by
  induction ws generalizing w w' r with
  | nil =>
    rcases inStep_of_close hd hw (stopsAt_writtenTail [] rest) h hclose with
      ⟨hmark, hne⟩ | ⟨hstep, rfl⟩
    · exact .inl (astray_cons hmark hne)
    · have hnone : takeAlternatives d (writtenTail [] rest) = ([], ')' :: rest) :=
        takeAlternatives_of_takeOr_eq_none (takeOr_of_not_blank (by decide))
      rw [hnone] at hclose ⊢
      have hbracket : (')' :: rest).dropWhile isGap = ')' :: rest := rfl
      rw [hbracket] at hclose
      exact .inr ⟨(List.cons.inj hclose).2.symm, .cons hstep .nil⟩
  | cons u ws ih =>
    obtain ⟨hu, hws⟩ := List.forall_mem_cons.1 hws
    rcases inStep_of_close hd hw (stopsAt_writtenTail _ rest) h hclose with
      ⟨hmark, hne⟩ | ⟨hstep, rfl⟩
    · exact .inl (astray_cons hmark hne)
    · have ho := takeOr_writtenTail hu ws rest
      cases hword : takeWord? d (u.write ++ writtenTail ws rest) with
      | none =>
        rw [takeAlternatives_of_takeWord_eq_none ho hword] at hclose
        simp [writtenTail, isGap, gaps] at hclose
      | some t =>
        rw [takeAlternatives_of_takeWord ho hword] at hclose ⊢
        rcases ih hu hws hword hclose with hastray | ⟨rfl, hsteps⟩
        · exact .inl (hastray.cons w w')
        · exact .inr ⟨rfl, .cons hstep hsteps⟩

theorem takeValues_of_head {a : Char} (ha : isBlank a = false) :
    takeValues? d ('(' :: a :: x) = (takeWord? d (a :: x)).bind fun first =>
      match (takeAlternatives d first.2).2.dropWhile isGap with
      | ')' :: rest => some (first.1 :: (takeAlternatives d first.2).1, rest)
      | _ => none := by
  have hgap : (a :: x).dropWhile isGap = a :: x :=
    List.dropWhile_cons_of_neg (by simp [isGap_of_not_isBlank ha])
  exact congrArg (fun y => (takeWord? d y).bind _) hgap

theorem inStep_of_takeValues (hd : d ≠ '"') (hw : w.Writable) (hws : ∀ w ∈ ws, w.Writable)
    (h : takeValues? d ('(' :: (w.write ++ writtenTail ws rest)) = some (ws', y)) :
    Astray (w :: ws) ws' ∨ y = rest ∧ List.Forall₂ (Word.InStep d) (w :: ws) ws' := by
  obtain ⟨a, s, hwrite, hblank, -⟩ := head_write hw
  rw [hwrite, List.cons_append, takeValues_of_head hblank] at h
  obtain ⟨⟨w', r⟩, hword, h⟩ := Option.bind_eq_some_iff.1 h
  rw [← List.cons_append, ← hwrite] at hword
  split at h
  · rename_i hclose
    obtain ⟨rfl, rfl⟩ := Prod.mk.inj (Option.some.inj h)
    exact inStep_of_takeAlternatives hd hw hws hword hclose
  · simp at h

theorem isMarked_of_takeWord_bracket (hw : w.Writable)
    (h : takeWord? d ('(' :: (w.write ++ writtenTail ws rest)) = some (w', r)) :
    IsMarked w'.text := by
  rcases takeWord_cases (by simp) h with ⟨-, inside, hcs, hu⟩ | ⟨-, hne, hu⟩
  · obtain ⟨rfl, rfl⟩ := List.cons.inj hcs
    cases hq : w.quoted with
    | true =>
      have hstop : endsPhrase '(' '"' = false := by decide
      rw [Word.write, hq, if_pos rfl, Text.quoted, List.cons_append, List.cons_append,
        unescape_cons (by decide), if_neg (by simp [hstop])] at hu
      obtain ⟨t, -, hr⟩ := Option.map_eq_some_iff.1 hu
      rw [← (Prod.mk.inj hr).1]
      exact isMarked_of_mem List.mem_cons_self (by decide)
    | false =>
      obtain ⟨-, hplain⟩ := hw hq
      rw [Word.write, hq, if_neg (by simp)] at hu
      rcases unescape_append_cases (not_backslash_mem hplain) hu with
        ⟨c, s, htext, hc, -⟩ | ⟨-, t, htext, ht⟩
      · simp only [endsPhrase, Bool.or_eq_true, beq_iff_eq] at hc
        refine absurd (isMarked_of_mem (c := c) (by simp [htext]) ?_) hplain
        rcases hc with rfl | rfl <;> decide
      · obtain ⟨b, hb, hmark⟩ := isMarked_of_unescape (stopsAt_writtenTail ws rest) (by decide) ht
        exact ⟨b, htext ▸ List.mem_append_right w.text hb, hmark⟩
  · rw [unescape_cons (by decide), if_pos (by simp [endsWord])] at hu
    exact absurd (Prod.mk.inj (Option.some.inj hu)).1.symm hne

theorem takeAlternatives_writtenTail (hws : ∀ w ∈ ws, w.Writable)
    (hq : ∀ w ∈ ws, w.quoted = false ∧ d ∉ w.text) (rest : List Char) :
    takeAlternatives d (writtenTail ws rest) = (ws, ')' :: rest) := by
  induction ws with
  | nil => exact takeAlternatives_of_takeOr_eq_none (takeOr_of_not_blank (by decide))
  | cons w ws ih =>
    obtain ⟨hw, hws⟩ := List.forall_mem_cons.1 hws
    obtain ⟨⟨hquoted, hmem⟩, hq⟩ := List.forall_mem_cons.1 hq
    rw [takeAlternatives_of_takeWord (takeOr_writtenTail hw ws rest)
      (takeWord_of_not_mem hw hquoted hmem (stopsAt_writtenTail ws rest)), ih hws hq]

theorem takeValues_written (hw : w.Writable) (hws : ∀ w ∈ ws, w.Writable)
    (hq : ∀ u ∈ w :: ws, u.quoted = false ∧ d ∉ u.text) (rest : List Char) :
    takeValues? d ('(' :: (w.write ++ writtenTail ws rest)) = some (w :: ws, rest) := by
  obtain ⟨a, s, hwrite, hblank, -⟩ := head_write hw
  obtain ⟨⟨hquoted, hmem⟩, hq⟩ := List.forall_mem_cons.1 hq
  have hword := takeWord_of_not_mem hw hquoted hmem (stopsAt_writtenTail ws rest)
  rw [hwrite, List.cons_append] at hword ⊢
  rw [takeValues_of_head hblank, hword, Option.bind_some]
  simp only [takeAlternatives_writtenTail hws hq]
  rfl

end Lists

end SearchBar
