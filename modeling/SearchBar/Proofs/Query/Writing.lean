import Mathlib.Data.List.Forall2
import SearchBar.Proofs.Calendar.Characters
import SearchBar.Proofs.Number.PlainText
import SearchBar.Proofs.Query.Reading
import SearchBar.Query.Writer

/-! # What is written

Every written clause is read as one draft, with the polarity of the clause. The draft
compares the field by the same operator, unless the text of the value begins with an
equals sign and the sign of the operator takes it in.
-/

namespace SearchBar

open Calendar Text

variable {cs : List Char} {c : Char} {now : Instant} {op : Operator} {x : Binary64}

section Words

theorem needsQuotes_eq_false_iff : needsQuotes cs = false ↔
    cs ≠ [] ∧ cs.head? ≠ some '-' ∧ sameLetters cs ['o', 'r'] = false ∧
      (∀ c ∈ cs, isBlank c = false ∧ c ∉ specials) ∧ (Value.ofWord cs).isText = true := by
  simp only [needsQuotes, Bool.or_eq_false_iff, List.isEmpty_eq_false_iff, beq_eq_false_iff_ne,
    List.any_eq_false, Bool.or_eq_true, not_or, Bool.not_eq_true, List.contains_eq_mem,
    decide_eq_false_iff_not, Bool.not_eq_false', and_assoc]

theorem isPlain_of_not_special (hb : isBlank c = false) (hs : c ∉ specials) : IsPlain '"' c := by
  simp only [specials, List.mem_cons, List.not_mem_nil, or_false, not_or] at hs
  refine isPlain_iff.2 ⟨hs.2.2.1, ?_⟩
  simp only [List.mem_cons, List.not_mem_nil, or_false]
  rintro (rfl | rfl | rfl | rfl | rfl | rfl | rfl) <;> simp_all [isBlank, blanks]

def Word.of (cs : List Char) : Word := ⟨cs, needsQuotes cs⟩

theorem spelled_wordText (cs : List Char) : (Word.of cs).Spelled '"' (wordText cs) := by
  unfold Word.of wordText
  cases hq : needsQuotes cs with
  | true => exact .phrase (unescape_flatMap_escape (by simp +contextual [endsPhrase]) cs)
  | false =>
    obtain ⟨hne, -, -, hplain, -⟩ := needsQuotes_eq_false_iff.1 hq
    exact .bare (unescape_plain fun c hc =>
      isPlain_of_not_special (hplain c hc).1 (hplain c hc).2) hne

def isNumeralChar (c : Char) : Bool := c.isAlphanum || c == '.' || c == '-'

theorem isNumeralChar_of_mem_plainText (h : c ∈ x.plainText) : isNumeralChar c = true := by
  obtain ⟨s, cs, htext, -, hcs⟩ := x.plainText_eq_sign_append
  rw [htext] at h
  rcases List.mem_append.1 h with h | h
  · cases s with
    | true =>
      obtain rfl : c = '-' := by simpa [Binary64.signText] using h
      decide
    | false => simp [Binary64.signText] at h
  · rcases hcs c h with h | rfl
    · simp [isNumeralChar, h]
    · decide

theorem plainText_ne_nil (x : Binary64) : x.plainText ≠ [] := by
  obtain ⟨s, cs, htext, hne, -⟩ := x.plainText_eq_sign_append
  simp [htext, hne]

theorem isPlain_of_isNumeralChar (h : isNumeralChar c = true) : IsPlain '"' c := by
  refine isPlain_iff.2 ⟨?_, ?_⟩
  · rintro rfl
    simp [isNumeralChar] at h
  · have hall : ([' ', '\t', '\r', '\n', '(', ')', '\\'].any isNumeralChar) = false := by decide
    exact fun hc => List.any_eq_false.1 hall c hc h

namespace Value

def word (now : Instant) : Value → Word
  | text s => .of s.toList
  | number x => ⟨x.plainText, false⟩
  | bool b => ⟨boolText b, false⟩
  | date d => .of (d.write now none)

theorem spelled_clauseText (now : Instant) (v : Value) :
    (v.word now).Spelled '"' (v.clauseText now) := by
  cases v with
  | text s => exact spelled_wordText s.toList
  | date d => exact spelled_wordText (d.write now none)
  | number x =>
    exact .bare (unescape_plain fun c hc =>
      isPlain_of_isNumeralChar (isNumeralChar_of_mem_plainText hc)) (plainText_ne_nil x)
  | bool b => cases b <;> exact .bare rfl (by simp [boolText])

end Value

end Words

section Drafts

/-- The operator whose sign begins with the sign of the given one and an equals sign. -/
def Operator.widened : Operator → Operator
  | gt => gte
  | lt => lte
  | op => op

def Draft.ofBare (name : List Char) (op : Operator) (text : List Char) : Draft :=
  if text = [] then .missing name op else .field name op ⟨text, false⟩

def Clause.draft (now : Instant) : Clause → Draft
  | term s _ => .term (.of s.toList)
  | field n op v _ =>
    if op.widens (v.clauseText now) then .ofBare n.toList op.widened (v.word now).text.tail
    else .field n.toList op (v.word now)
  | oneOf n vs _ => .group n.toList (vs.map (·.word now))
  | flag n _ => .flag n.toList

def Clause.WellNamed : Clause → Prop
  | term _ _ => True
  | field n _ _ _ => isFieldName n.toList = true ∧ isReserved n.toList = false
  | oneOf n vs _ => isFieldName n.toList = true ∧ isReserved n.toList = false ∧ vs ≠ []
  | flag n _ => isFlagName n.toList = true

theorem Operator.widens_iff {rest : List Char} : op.widens rest = true ↔
    (op = gt ∨ op = lt) ∧ ∃ tail, rest = '=' :: tail := by
  simp [widens, List.head?_eq_some_iff]

theorem Operator.sign_widened {tail : List Char} (h : op = gt ∨ op = lt) :
    op.sign.toList ++ '=' :: tail = op.widened.sign.toList ++ tail := by
  rcases h with rfl | rfl <;> rfl

theorem Operator.widens_widened (op : Operator) (rest : List Char) :
    op.widened.widens rest = false := by
  cases op <;> rfl

theorem Word.Spelled.of_equals {w : Word} {tail : List Char} (h : w.Spelled '"' ('=' :: tail)) :
    w.quoted = false ∧ unescape (endsWord '"') tail = some (w.text.tail, []) := by
  generalize hraw : '=' :: tail = raw at h
  cases h with
  | phrase => simp at hraw
  | bare h =>
    subst hraw
    rw [unescape_cons (by decide), if_neg (by decide)] at h
    obtain ⟨⟨t, r⟩, ht, h⟩ := Option.map_eq_some_iff.1 h
    simp only [Prod.mk.injEq] at h
    obtain ⟨rfl, rfl⟩ := h
    exact ⟨rfl, ht⟩

theorem spelled_ofBare {name tail text : List Char} (hn : isFieldName name = true)
    (hr : isReserved name = false) (ho : ∀ rest, op.widens rest = false)
    (h : unescape (endsWord '"') tail = some (text, [])) :
    (Draft.ofBare name op text).Spelled '"' (name ++ op.sign.toList ++ tail) := by
  unfold Draft.ofBare
  split
  · rename_i ht
    subst ht
    rw [eq_nil_of_unescape h, List.append_nil]
    exact .missing hn
  · rename_i ht
    exact .field hn (ho tail) (.bare h ht) (by simp [hr])

theorem isOr_between : IsOr [' ', 'o', 'r', ' '] :=
  ⟨[' '], ['o', 'r'], [' '], rfl, ⟨by simp, by simp [isGap_iff, gaps]⟩, rfl, by simp,
    by simp [isGap_iff, gaps]⟩

theorem alternatives_written (now : Instant) (vs : List Value) :
    AlternativesSpelled '"' (vs.flatMap fun v => [' ', 'o', 'r', ' '] ++ v.clauseText now)
      (vs.map (·.word now)) := by
  induction vs with
  | nil => exact .nil
  | cons v vs ih => exact .cons isOr_between (v.spelled_clauseText now) ih

theorem intercalate_cons {α : Type} (sep a : List α) (l : List (List α)) :
    sep.intercalate (a :: l) = a ++ l.flatMap fun b => sep ++ b := by
  induction l generalizing a with
  | nil => simp
  | cons b l ih => rw [List.intercalate_cons_cons, ih, List.flatMap_cons, List.append_assoc,
      List.append_assoc]

theorem valuesSpelled_written (now : Instant) {vs : List Value} (hne : vs ≠ []) :
    ValuesSpelled '"' ('(' :: [' ', 'o', 'r', ' '].intercalate (vs.map (·.clauseText now)) ++ [')'])
      (vs.map (·.word now)) := by
  obtain ⟨v, vs, rfl⟩ := List.exists_cons_of_ne_nil hne
  refine ⟨[], v.clauseText now, _, [], v.word now, vs.map (·.word now), ?_, rfl, by simp,
    v.spelled_clauseText now, alternatives_written now vs, by simp⟩
  rw [List.map_cons, intercalate_cons, List.flatMap_map]
  simp

theorem not_beginsComparison_wordText (cs : List Char) :
    beginsComparison (wordText cs) = false := by
  refine Bool.eq_false_iff.2 fun h => ?_
  obtain ⟨name, op, rest, htext, hn, -⟩ := beginsComparison_iff.1 h
  unfold wordText at htext
  split at htext
  · cases name with
    | nil => simp [isFieldName] at hn
    | cons a name =>
      obtain rfl : '"' = a := (List.cons.inj htext).1
      exact absurd (isNameStart_of_isFieldName hn) (by decide)
  · rename_i hq
    obtain ⟨-, -, -, hplain, -⟩ := needsQuotes_eq_false_iff.1 (Bool.eq_false_iff.2 hq)
    have hsign : ∃ a ∈ op.sign.toList, a ∈ specials := by
      cases op with
      | eq => exact ⟨':', by simp [Operator.sign], by simp [specials]⟩
      | gt | gte => exact ⟨'>', by simp [Operator.sign], by simp [specials]⟩
      | lt | lte => exact ⟨'<', by simp [Operator.sign], by simp [specials]⟩
    obtain ⟨a, ha, hspecial⟩ := hsign
    exact (hplain a (by rw [htext]; simp [ha])).2 hspecial

theorem Clause.spelled_body {c : Clause} (hc : c.WellNamed) (now : Instant) :
    (c.draft now).Spelled '"' (c.body now) := by
  cases c with
  | term s m => exact .term (spelled_wordText s.toList) (not_beginsComparison_wordText s.toList)
  | flag n m =>
    have hreserved : isReserved ['i', 's'] = true := by decide
    exact .flag hreserved hc
  | oneOf n vs m =>
    obtain ⟨hn, hr, hne⟩ := hc
    have hbody : (oneOf n vs m).body now = n.toList ++ ':' ::
        ('(' :: [' ', 'o', 'r', ' '].intercalate (vs.map (·.clauseText now)) ++ [')']) := by
      simp [body]
    rw [hbody]
    exact .group hn (valuesSpelled_written now hne)
  | field n op v m =>
    obtain ⟨hn, hr⟩ := hc
    have hspelled := v.spelled_clauseText now
    simp only [draft, body]
    split
    · rename_i hw
      obtain ⟨hop, tail, htail⟩ := Operator.widens_iff.1 hw
      rw [htail] at hspelled ⊢
      rw [List.append_assoc, Operator.sign_widened hop, ← List.append_assoc]
      exact spelled_ofBare hn hr op.widens_widened hspelled.of_equals.2
    · rename_i hw
      exact .field hn (Bool.eq_false_iff.2 hw) hspelled (by simp [hr])

theorem Clause.head_body {c : Clause} (hc : c.WellNamed) (now : Instant) :
    ∃ a r, c.body now = a :: r ∧ a ≠ '-' ∧ isBlank a = false := by
  have hname {n : List Char} (hn : isFieldName n = true) (r : List Char) :
      ∃ a r', n ++ r = a :: r' ∧ a ≠ '-' ∧ isBlank a = false := by
    cases n with
    | nil => simp [isFieldName] at hn
    | cons a n =>
      have ha := isNameStart_of_isFieldName hn
      refine ⟨a, n ++ r, rfl, ?_, ?_⟩
      · rintro rfl
        exact absurd ha (by decide)
      · refine Bool.eq_false_iff.2 fun hb => ?_
        exact absurd (isNameChar_of_isNameStart ha) (by simp [not_isNameChar_of_isBlank hb])
  cases c with
  | term s m =>
    simp only [body, wordText]
    split
    · exact ⟨'"', _, rfl, by decide, by decide⟩
    · rename_i hq
      obtain ⟨hne, hminus, -, hplain, -⟩ :=
        needsQuotes_eq_false_iff.1 (Bool.eq_false_iff.2 hq)
      obtain ⟨a, r, har⟩ := List.exists_cons_of_ne_nil hne
      rw [har] at hminus hplain
      exact ⟨a, r, har, by simpa using hminus, (hplain a List.mem_cons_self).1⟩
  | flag n m => exact ⟨'i', _, rfl, by decide, by decide⟩
  | field n op v m =>
    simp only [body, List.append_assoc]
    exact hname hc.1 _
  | oneOf n vs m =>
    simp only [body, List.append_assoc]
    exact hname hc.1 _

theorem Clause.head_write {c : Clause} (hc : c.WellNamed) (now : Instant) :
    ∃ a r, c.write now = a :: r ∧ isBlank a = false := by
  obtain ⟨a, r, hbody, -, hblank⟩ := Clause.head_body hc now
  unfold write
  split
  · exact ⟨a, r, hbody, hblank⟩
  · exact ⟨'-', c.body now, rfl, by decide⟩

theorem Clause.spelled_write {c : Clause} (hc : c.WellNamed) (now : Instant) :
    SignedSpelled '"' (c.write now) (!c.must) (c.draft now) := by
  have hspelled := Clause.spelled_body hc now
  obtain ⟨a, r, hbody, hminus, -⟩ := Clause.head_body hc now
  unfold write
  cases c.must with
  | true => exact .positive hspelled (by simp [hbody, hminus])
  | false => exact .negative hspelled

end Drafts

section Reading

variable {dialect : Dialect} {q q' : Query} {cs : List Clause} {d : Char}

def writtenBehind (now : Instant) (cs : List Clause) : List Char :=
  cs.flatMap fun c => ' ' :: c.write now

@[simp] theorem writtenBehind_nil (now : Instant) : writtenBehind now [] = [] := rfl

@[simp] theorem writtenBehind_cons (now : Instant) (c : Clause) (cs : List Clause) :
    writtenBehind now (c :: cs) = ' ' :: (c.write now ++ writtenBehind now cs) := by
  simp [writtenBehind]

theorem stopsAt_writtenBehind (now : Instant) (cs : List Clause) :
    stopsAt (· == ' ') (writtenBehind now cs) = true := by
  cases cs <;> rfl

theorem endsAt_of_stopsAt {rest : List Char} (draft : Draft) (h : stopsAt (· == ' ') rest = true) :
    draft.EndsAt rest := by
  have hgap : stopsAt isGap rest = true :=
    stopsAt_mono (fun c hc => by rw [beq_iff_eq.1 hc]; decide) h
  refine ⟨?_, fun _ => hgap⟩
  rw [atBoundary_eq_stopsAt]
  exact stopsAt_mono (fun _ => isBlank_of_isGap) hgap

theorem contents_pieces_cons {c : Clause} (hc : c.WellNamed) (cs : List Clause) (now : Instant)
    (d : Char) (o : Nat) :
    ∃ o', (pieces d o (writtenBehind now (c :: cs))).map (·.content) =
      (takePiece d (c.write now ++ writtenBehind now cs)).1 ::
        (pieces d o' (takePiece d (c.write now ++ writtenBehind now cs)).2).map (·.content) := by
  obtain ⟨a, r, hwrite, hblank⟩ := Clause.head_write hc now
  have htrim : trimStart (writtenBehind now (c :: cs)) = a :: (r ++ writtenBehind now cs) := by
    have hspace : isBlank ' ' = true := by decide
    simp [hwrite, trimStart, hspace, hblank]
  exact ⟨_, by rw [pieces_of_trimStart_eq_cons htrim, List.map_cons, hwrite, List.cons_append]⟩

/-- The pieces of written clauses that are taken as their drafts, whatever stands in front
of them. -/
theorem contents_pieces_write (h : ∀ c ∈ cs, c.WellNamed)
    (htake : ∀ c ∈ cs, ∀ rest, stopsAt (· == ' ') rest = true →
      takePiece d (c.write now ++ rest) = (.ok (!c.must, c.draft now), rest)) :
    ∀ o, (pieces d o (writtenBehind now cs)).map (·.content) =
      cs.map fun c => .ok (!c.must, c.draft now) := by
  induction cs with
  | nil =>
    intro o
    rw [writtenBehind_nil, pieces_blank (by simp)]
    rfl
  | cons c cs ih =>
    intro o
    obtain ⟨hc, hcs⟩ := List.forall_mem_cons.1 h
    obtain ⟨htakec, htakes⟩ := List.forall_mem_cons.1 htake
    obtain ⟨o', hcontents⟩ := contents_pieces_cons hc cs now d o
    rw [hcontents, htakec _ (stopsAt_writtenBehind now cs), ih hcs htakes, List.map_cons]

theorem contents_pieces_writeChars (q : Query) (now : Instant) (d : Char) :
    (pieces d 0 (q.writeChars now)).map (·.content) =
      (pieces d 0 (writtenBehind now q.clauses)).map (·.content) := by
  obtain ⟨cs⟩ := q
  cases cs with
  | nil => rfl
  | cons c cs =>
    have hgap : ∀ a ∈ [' '], isBlank a = true := by simp [isBlank_iff, blanks]
    have hshift : pieces d 0 (' ' :: Query.writeChars now ⟨c :: cs⟩) =
        (pieces d 0 (Query.writeChars now ⟨c :: cs⟩)).map (Piece.shift (byteLength [' '])) := by
      rw [← pieces_shift]
      exact pieces_blank_append hgap 0 _
    have htext : writtenBehind now (c :: cs) = ' ' :: Query.writeChars now ⟨c :: cs⟩ := by
      simp only [writtenBehind, Query.writeChars, List.map_cons, intercalate_cons, List.flatMap_map,
        List.flatMap_cons, List.cons_append, List.nil_append]
    rw [htext, hshift, List.map_map]
    rfl

/-- What a written clause is read as. -/
def Clause.reread (dialect : Dialect) (now : Instant) (c : Clause) : Except Fault Clause :=
  resolve dialect now (!c.must) (c.draft now)

/-- A written query is read clause by clause, if its clauses are taken as their drafts. -/
theorem read_write_eq_ok_iff_of_takePiece (h : ∀ c ∈ q.clauses, c.WellNamed)
    (htake : ∀ c ∈ q.clauses, ∀ rest, stopsAt (· == ' ') rest = true →
      takePiece dialect.delimiter (c.write now ++ rest) = (.ok (!c.must, c.draft now), rest)) :
    Query.read dialect now (q.write now) = .ok q' ↔
      ∃ ds, List.Forall₂ (fun c d => c.reread dialect now = .ok d) q.clauses ds ∧
        q' = .ofClauses ds := by
  rw [read_eq_ok_iff_forall₂, Query.write, String.toList_ofList, contents_pieces_writeChars,
    contents_pieces_write h htake]
  simp only [List.forall₂_map_left_iff]
  rfl

theorem read_write_eq_ok_iff (hd : dialect.delimiter = '"') (h : ∀ c ∈ q.clauses, c.WellNamed)
    (now : Instant) : Query.read dialect now (q.write now) = .ok q' ↔
      ∃ ds, List.Forall₂ (fun c d => c.reread dialect now = .ok d) q.clauses ds ∧
        q' = .ofClauses ds := by
  refine read_write_eq_ok_iff_of_takePiece h fun c hc rest hrest => ?_
  rw [hd]
  exact takePiece_append isDelimiter_quote (Clause.spelled_write (h c hc) now)
    (endsAt_of_stopsAt _ hrest)

end Reading

end SearchBar
