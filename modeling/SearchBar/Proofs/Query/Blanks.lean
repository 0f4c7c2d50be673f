import SearchBar.Proofs.Query.DelimitedWords
import SearchBar.Proofs.Query.Finite

/-! # Blanks in bare words

Clauses are separated by every blank, but bare words end in front of gaps only. So in a text
without quotes and backslashes the blanks that are no gaps stand in words, or around clauses
that end by themselves. They do not stand in words exactly if the text is read in the same
way with spaces in their place.
-/

namespace SearchBar

open Calendar Text

variable {d c : Char} {cs raw raw' : List Char} {w : Word} {ws ws' : List Word} {draft : Draft}
  {negated : Bool} {dialect : Dialect} {now : Instant} {clause clause' : Clause} {s : String}

/-- A space in place of a blank that ends no bare word. -/
def plainBlank (c : Char) : Char := if isBlank c && !isGap c then ' ' else c

def Draft.words : Draft → List Word
  | flag _ | missing _ _ => []
  | group _ ws => ws
  | field _ _ w | term w => [w]

def Value.text? : Value → Option String
  | text s => some s
  | _ => none

def Clause.texts : Clause → List String
  | term s _ => [s]
  | field _ _ v _ => v.text?.toList
  | oneOf _ vs _ => vs.filterMap Value.text?
  | flag _ _ => []

def Clause.IsFreeOf (p : Char → Bool) (clause : Clause) : Prop :=
  ∀ s ∈ clause.texts, ∀ c ∈ s.toList, p c = false

instance (p : Char → Bool) (clause : Clause) : Decidable (clause.IsFreeOf p) :=
  decidable_of_iff (clause.texts.all (·.toList.all (!p ·)) = true) (by simp [Clause.IsFreeOf])

section Texts

theorem Value.text?_eq_some_iff {v : Value} : v.text? = some s ↔ .text s = v := by
  cases v <;> simp [text?, eq_comm]

theorem Clause.mem_texts_iff :
    s ∈ clause.texts ↔ (∃ m, clause = .term s m) ∨ .text s ∈ clause.values := by
  cases clause with
  | term t m => simp [texts, values, eq_comm]
  | field n op v m => simp [texts, values, Value.text?_eq_some_iff]
  | oneOf n vs m => simp [texts, values, Value.text?_eq_some_iff]
  | flag n m => simp [texts, values]

theorem Clause.isFlag_of_mem_texts (h : s ∈ clause.texts) : clause.isFlag = false := by
  cases clause <;> first | rfl | simp [texts] at h

theorem Clause.mem_texts_of_beq (h : (clause' == clause) = true) (hs : s ∈ clause.texts) :
    s ∈ clause'.texts := by
  rcases mem_texts_iff.1 hs with ⟨m, rfl⟩ | hs
  · cases clause' <;> simp [Clause.beq_def, same] at h
    exact mem_texts_iff.2 (.inl ⟨_, by rw [h.1]⟩)
  · obtain ⟨v, hv, hsame⟩ := exists_mem_of_forall₂ (values_of_beq h).flip hs
    cases v <;> simp [Value.beq_def, Value.same] at hsame
    exact mem_texts_iff.2 (.inr (hsame ▸ hv))

theorem kind?_of_schema_eq_none (hschema : dialect.schema = none) (field : String) :
    dialect.kind? field = none := by rw [Dialect.kind?, hschema]; rfl

theorem eq_of_typeWord_text (hschema : dialect.schema = none) {name : List Char}
    (h : typeWord dialect now name w = .ok (.text s)) : s = String.ofList w.text := by
  rcases typeWord_cases dialect now name w with ⟨_, hk, -⟩ | ⟨-, htype⟩ | ⟨-, -, -, htype⟩
  · simp [kind?_of_schema_eq_none hschema] at hk
  · exact Value.text.inj (Except.ok.inj (h.symm.trans htype))
  · have hword := Except.ok.inj (h.symm.trans htype)
    rw [ofWord_of_isText (by rw [← hword]; rfl)] at hword
    exact Value.text.inj hword

theorem typeWord_of_isBlank (hschema : dialect.schema = none) (hb : ∃ c ∈ w.text, isBlank c = true)
    (now : Instant) (name : List Char) :
    typeWord dialect now name w = .ok (.text (String.ofList w.text)) := by
  rcases typeWord_cases dialect now name w with ⟨_, hk, -⟩ | ⟨-, htype⟩ | ⟨-, -, -, htype⟩
  · simp [kind?_of_schema_eq_none hschema] at hk
  · exact htype
  · obtain ⟨c, hc, hb⟩ := hb
    rw [htype, ofWord_of_isMarked ⟨c, hc, .inl hb⟩]

theorem exists_word_of_mem_texts (hschema : dialect.schema = none)
    (h : resolve dialect now negated draft = .ok clause) (hs : s ∈ clause.texts) :
    ∃ w ∈ draft.words, s = String.ofList w.text := by
  cases resolve_eq_ok_iff.1 h with
  | flag => simp [Clause.texts] at hs
  | term w => exact ⟨w, List.mem_singleton_self w, List.mem_singleton.1 hs⟩
  | @field name op w v _ hvalue =>
    obtain rfl := Value.text?_eq_some_iff.1 (Option.mem_toList.1 hs)
    exact ⟨w, List.mem_singleton_self w, eq_of_typeWord_text hschema hvalue⟩
  | group _ hvalues =>
    obtain ⟨v, hv, htext⟩ := List.mem_filterMap.1 hs
    obtain rfl := Value.text?_eq_some_iff.1 htext
    obtain ⟨w, hw, htype⟩ := exists_mem_of_forall₂ hvalues.flip hv
    exact ⟨w, hw, eq_of_typeWord_text hschema htype⟩

theorem mem_texts_of_mem_words (hschema : dialect.schema = none)
    (h : resolve dialect now negated draft = .ok clause) (hw : w ∈ draft.words)
    (hb : ∃ c ∈ w.text, isBlank c = true) : String.ofList w.text ∈ clause.texts := by
  cases resolve_eq_ok_iff.1 h with
  | flag => simp [Draft.words] at hw
  | term =>
    obtain rfl := List.mem_singleton.1 hw
    exact List.mem_singleton_self _
  | @field name _ _ _ _ hvalue =>
    obtain rfl := List.mem_singleton.1 hw
    obtain rfl := Except.ok.inj ((typeWord_of_isBlank hschema hb now name).symm.trans hvalue)
    exact List.mem_singleton_self _
  | @group name _ _ _ hvalues =>
    obtain ⟨v, hv, htype⟩ := exists_mem_of_forall₂ hvalues hw
    obtain rfl := Except.ok.inj ((typeWord_of_isBlank hschema hb now name).symm.trans htype)
    exact List.mem_filterMap.2 ⟨_, hv, rfl⟩

end Texts

section Words

/-- The words of a stretch of text hold all of its blanks but the gaps, and no gap. -/
structure HoldBlanks (ws : List Word) (raw : List Char) : Prop where
  within : ∀ w ∈ ws, ∀ c ∈ w.text, c ∈ raw ∧ isGap c = false
  covers : ∀ c ∈ raw, isBlank c = true → isGap c = false → ∃ w ∈ ws, c ∈ w.text

def IsUnquoted (d : Char) (cs : List Char) : Prop := ∀ c ∈ cs, c ≠ '\\' ∧ c ≠ d

theorem isUnquoted_append : IsUnquoted d (raw ++ raw') ↔ IsUnquoted d raw ∧ IsUnquoted d raw' :=
  List.forall_mem_append

theorem isUnquoted_cons : IsUnquoted d (c :: cs) ↔ (c ≠ '\\' ∧ c ≠ d) ∧ IsUnquoted d cs :=
  List.forall_mem_cons

theorem holdBlanks_nil (h : ∀ c ∈ raw, isBlank c = true → isGap c = true) : HoldBlanks [] raw where
  within := by simp
  covers c hc hb hg := absurd (h c hc hb) (by simp [hg])

theorem HoldBlanks.append (h : HoldBlanks ws raw) (h' : HoldBlanks ws' raw') :
    HoldBlanks (ws ++ ws') (raw ++ raw') where
  within := List.forall_mem_append.2
    ⟨fun w hw c hc => ⟨List.mem_append_left _ (h.within w hw c hc).1, (h.within w hw c hc).2⟩,
      fun w hw c hc => ⟨List.mem_append_right _ (h'.within w hw c hc).1, (h'.within w hw c hc).2⟩⟩
  covers c hc hb hg := by
    rcases List.mem_append.1 hc with hc | hc
    · obtain ⟨w, hw, hcw⟩ := h.covers c hc hb hg
      exact ⟨w, List.mem_append_left _ hw, hcw⟩
    · obtain ⟨w, hw, hcw⟩ := h'.covers c hc hb hg
      exact ⟨w, List.mem_append_right _ hw, hcw⟩

theorem HoldBlanks.behind (h : HoldBlanks ws raw)
    (hb : ∀ c ∈ raw', isBlank c = true → isGap c = true) : HoldBlanks ws (raw' ++ raw) :=
  (holdBlanks_nil hb).append h

theorem HoldBlanks.before (h : HoldBlanks ws raw)
    (hb : ∀ c ∈ raw', isBlank c = true → isGap c = true) : HoldBlanks ws (raw ++ raw') := by
  simpa using h.append (holdBlanks_nil hb)

theorem Word.Spelled.eq_of_isUnquoted (h : w.Spelled d raw) (hplain : IsUnquoted d raw) :
    w.text = raw ∧ ∀ c ∈ raw, endsWord d c = false := by
  cases h with
  | phrase h => exact absurd rfl (hplain d (by simp)).2
  | bare h hne =>
    rw [← List.append_nil raw] at h
    rcases unescape_append_cases (fun hm => (hplain _ hm).1 rfl) h with
      ⟨c, s, -, -, hrest⟩ | ⟨hall, t, rfl, ht⟩
    · simp at hrest
    · obtain ⟨rfl, -⟩ := Prod.mk.inj (Option.some.inj ht)
      exact ⟨List.append_nil raw, hall⟩

theorem Word.Spelled.holdBlanks (h : w.Spelled d raw) (hplain : IsUnquoted d raw) :
    HoldBlanks [w] raw := by
  obtain ⟨rfl, hends⟩ := h.eq_of_isUnquoted hplain
  have hgap : ∀ c ∈ w.text, isGap c = false := by
    intro c hc
    cases hg : isGap c with
    | false => rfl
    | true =>
      have hend : endsAt (endsWord d) c = true := endsAt_of_isGap hg
      simp [endsAt, hends c hc] at hend
  constructor
  · exact List.forall_mem_singleton.2 fun c hc => ⟨hc, hgap c hc⟩
  · intro c hc _ _
    exact ⟨w, List.mem_singleton_self w, hc⟩

theorem IsOr.isGap_of_isBlank (h : IsOr raw) : ∀ c ∈ raw, isBlank c = true → isGap c = true := by
  obtain ⟨before, word, behind, rfl, ⟨-, hbefore⟩, hword, -, hbehind⟩ := h
  intro c hc hb
  rcases List.mem_append.1 hc with hc | hc
  · rcases List.mem_append.1 hc with hc | hc
    · exact hbefore c hc
    · have hlower := hword ▸ List.mem_map_of_mem (f := Char.toLower) hc
      rw [← apply_toLower (f := isBlank) (by decide)] at hb
      have hnone : ['o', 'r'].any isBlank = false := by decide
      exact absurd hb (List.any_eq_false.1 hnone _ hlower)
  · exact hbehind c hc

theorem AlternativesSpelled.holdBlanks (h : AlternativesSpelled d raw ws)
    (hplain : IsUnquoted d raw) : HoldBlanks ws raw := by
  induction h with
  | nil => exact holdBlanks_nil (by simp)
  | cons ho hw _ ih =>
    rw [isUnquoted_append, isUnquoted_append] at hplain
    exact ((hw.holdBlanks hplain.1.2).behind ho.isGap_of_isBlank).append (ih hplain.2)

theorem ValuesSpelled.holdBlanks (h : ValuesSpelled d raw ws) (hplain : IsUnquoted d raw) :
    HoldBlanks ws raw := by
  obtain ⟨opening, first, more, closing, w, vs, rfl, rfl, ho, hw, hm, hc⟩ := h
  simp only [List.cons_append, isUnquoted_cons, isUnquoted_append] at hplain
  obtain ⟨-, ⟨⟨⟨-, hfirst⟩, hmore⟩, -⟩, -⟩ := hplain
  have hopening : ∀ c ∈ '(' :: opening, isBlank c = true → isGap c = true :=
    List.forall_mem_cons.2 ⟨by decide, fun c hc _ => ho c hc⟩
  exact ((((hw.holdBlanks hfirst).behind hopening).append (hm.holdBlanks hmore)).before
    fun c h _ => hc c h).before (List.forall_mem_singleton.2 (by decide))

theorem Draft.Spelled.holdBlanks (h : draft.Spelled d raw) (hplain : IsUnquoted d raw) :
    HoldBlanks draft.words raw := by
  have hsign (op : Operator) {name : List Char} (hn : isFieldName name = true) :
      ∀ c ∈ name ++ op.sign.toList, isBlank c = true → isGap c = true := by
    intro c hc hb
    simp [not_isBlank_of_mem_name_sign hn hc] at hb
  cases h with
  | @flag reserved name hr hn =>
    rw [List.append_cons]
    refine (holdBlanks_nil (hsign .eq (isFieldName_of_isReserved hr))).before fun c hc hb => ?_
    simp [not_isBlank_of_isFlagName hn c hc] at hb
  | @group name raw ws hn hv =>
    rw [List.append_cons] at hplain ⊢
    exact (hv.holdBlanks (isUnquoted_append.1 hplain).2).behind (hsign .eq hn)
  | field hn _ hw _ => exact (hw.holdBlanks (isUnquoted_append.1 hplain).2).behind (hsign _ hn)
  | missing hn => exact holdBlanks_nil (hsign _ hn)
  | term hw _ => exact hw.holdBlanks hplain

theorem SignedSpelled.holdBlanks (h : SignedSpelled d raw negated draft)
    (hplain : IsUnquoted d raw) : HoldBlanks draft.words raw := by
  cases h with
  | positive h _ => exact h.holdBlanks hplain
  | negative h =>
    have hminus : ∀ c ∈ ['-'], isBlank c = true → isGap c = true :=
      List.forall_mem_singleton.2 (by decide)
    exact (h.holdBlanks (isUnquoted_cons.1 hplain).2).behind hminus

end Words

section Contents

variable {rest : List Char}

theorem within_of_mem_contents (hd : IsDelimiter d) (hplain : IsUnquoted d cs)
    (h : .ok (negated, draft) ∈ contents d cs) (hw : w ∈ draft.words) :
    ∀ c ∈ w.text, c ∈ cs ∧ isGap c = false := by
  induction Cut.of hd cs with
  | blank hb => simp [contents_blank hb] at h
  | @draft b raw rest negated draft hb hraw hs hr _ ih =>
    rw [isUnquoted_append, isUnquoted_append] at hplain
    rw [contents_draft hd hb hraw hs hr, List.mem_cons] at h
    intro c hc
    rcases h with h | h
    · obtain ⟨rfl, rfl⟩ := Prod.mk.inj (Except.ok.inj h)
      have hin := (hs.holdBlanks hplain.2.1).within w hw c hc
      exact ⟨by simp [hin.1], hin.2⟩
    · have hin := ih hplain.2.2 h c hc
      exact ⟨by simp [hin.1], hin.2⟩
  | fault hb hraw hne ht _ _ ih =>
    rw [isUnquoted_append, isUnquoted_append] at hplain
    rw [contents_fault hb hraw hne ht, List.mem_cons] at h
    intro c hc
    have hin := ih hplain.2.2 (h.resolve_left (by simp)) c hc
    exact ⟨by simp [hin.1], hin.2⟩

theorem plainBlank_cases (c : Char) : plainBlank c = ' ' ∧ isBlank c = true ∨
    plainBlank c = c ∧ (isBlank c = true → isGap c = true) := by
  unfold plainBlank
  split
  · rename_i h
    exact .inl ⟨rfl, (Bool.and_eq_true_iff.1 h).1⟩
  · rename_i h
    exact .inr ⟨rfl, by simpa using h⟩

theorem isBlank_plainBlank (c : Char) : isBlank (plainBlank c) = isBlank c := by
  rcases plainBlank_cases c with ⟨h, hb⟩ | ⟨h, -⟩
  · rw [h, hb]
    decide
  · rw [h]

theorem isGap_plainBlank (h : isBlank (plainBlank c) = true) : isGap (plainBlank c) = true := by
  rcases plainBlank_cases c with ⟨hc, -⟩ | ⟨hc, hgap⟩
  · rw [hc]
    decide
  · rw [hc] at h ⊢
    exact hgap h

theorem map_plainBlank_eq_self (h : ∀ c ∈ cs, isBlank c = true → isGap c = true) :
    cs.map plainBlank = cs := by
  refine (List.map_congr_left fun c hc => ?_).trans (List.map_id' cs)
  rw [plainBlank, if_neg]
  simpa using h c hc

theorem IsUnquoted.map_plainBlank (hd : IsDelimiter d) (h : IsUnquoted d cs) :
    IsUnquoted d (cs.map plainBlank) := by
  refine List.forall_mem_map.2 ?_
  intro c hc
  rcases plainBlank_cases c with ⟨hspace, -⟩ | ⟨hself, -⟩
  · rw [hspace]
    refine ⟨by decide, ?_⟩
    rintro rfl
    exact absurd hd.not_blank (by decide)
  · rw [hself]
    exact h c hc

theorem Draft.EndsAt.map_plainBlank (h : draft.EndsAt rest) :
    draft.EndsAt (rest.map plainBlank) := by
  cases rest with
  | nil => exact h
  | cons c rest =>
    have hb : isBlank (plainBlank c) = true := (isBlank_plainBlank c).trans h.1
    exact ⟨hb, fun _ => isGap_plainBlank hb⟩

/-- A text of which the words hold no blank is cut in the same way with spaces for the blanks
between its clauses. -/
theorem contents_map_plainBlank (hd : IsDelimiter d) (hplain : IsUnquoted d cs)
    (h : ∀ content ∈ contents d cs, ∃ negated draft, content = .ok (negated, draft) ∧
      ∀ w ∈ draft.words, ∀ c ∈ w.text, isBlank c = false) :
    contents d (cs.map plainBlank) = contents d cs := by
  have hblank {b : List Char} (hb : ∀ c ∈ b, isBlank c = true) :
      ∀ c ∈ b.map plainBlank, isBlank c = true :=
    List.forall_mem_map.2 fun c hc => (isBlank_plainBlank c).trans (hb c hc)
  induction Cut.of hd cs with
  | blank hb => rw [contents_blank hb, contents_blank (hblank hb)]
  | @draft b raw rest negated draft hb hraw hs hr _ ih =>
    rw [isUnquoted_append, isUnquoted_append] at hplain
    rw [contents_draft hd hb hraw hs hr] at h ⊢
    obtain ⟨⟨_, _, hcontent, hwords⟩, h⟩ := List.forall_mem_cons.1 h
    obtain ⟨rfl, rfl⟩ := Prod.mk.inj (Except.ok.inj hcontent)
    have hself : raw.map plainBlank = raw := by
      apply map_plainBlank_eq_self
      intro c hc hb
      by_contra hg
      obtain ⟨w, hw, hcw⟩ := (hs.holdBlanks hplain.2.1).covers c hc hb (by simpa using hg)
      simp [hwords w hw c hcw] at hb
    rw [List.map_append, List.map_append, hself,
      contents_draft hd (hblank hb) hraw hs hr.map_plainBlank, ih hplain.2.2 h]
  | fault hb hraw hne ht _ _ _ =>
    rw [contents_fault hb hraw hne ht] at h
    obtain ⟨_, _, hcontent, -⟩ := h _ List.mem_cons_self
    simp at hcontent

end Contents

variable {text : String} {q : Query}

/-- No text of a clause holds a gap, or a character that does not stand in the query text. -/
theorem not_isGap_of_read (hschema : dialect.schema = none) (hd : IsDelimiter dialect.delimiter)
    (hplain : IsUnquoted dialect.delimiter text.toList) (h : Query.read dialect now text = .ok q)
    (hclause : clause ∈ q.clauses) (hs : s ∈ clause.texts) :
    ∀ c ∈ s.toList, c ∈ text.toList ∧ isGap c = false := by
  obtain ⟨clauses, hclauses, rfl⟩ := read_eq_ok_iff_forall₂.1 h
  obtain ⟨content, hmem, hcontent⟩ :=
    exists_mem_of_forall₂ hclauses.flip (Query.mem_of_mem_ofClauses hclause)
  obtain ⟨negated, draft, rfl, hresolve⟩ := exists_draft_of_contentClause hcontent
  obtain ⟨w, hw, rfl⟩ := exists_word_of_mem_texts hschema hresolve hs
  rw [String.toList_ofList]
  exact within_of_mem_contents hd hplain hmem hw

theorem exists_mem_texts_of_mem_contents (hschema : dialect.schema = none)
    (h : Query.read dialect now text = .ok q)
    (hmem : .ok (negated, draft) ∈ contents dialect.delimiter text.toList) (hw : w ∈ draft.words)
    (hb : ∃ c ∈ w.text, isBlank c = true) :
    ∃ clause ∈ q.clauses, String.ofList w.text ∈ clause.texts := by
  obtain ⟨clauses, hclauses, rfl⟩ := read_eq_ok_iff_forall₂.1 h
  obtain ⟨clause, hclause, hresolve⟩ := exists_mem_of_forall₂ hclauses hmem
  have hs := mem_texts_of_mem_words hschema hresolve hw hb
  have hself := Clause.beq_self fun v hv => ne_nan_of_resolve hresolve hv
  obtain ⟨kept, hkept, hsame⟩ := List.any_eq_true.1 <|
    Query.any_foldl_add (q := .empty) (Clause.isFlag_of_mem_texts hs)
      (.inr (List.any_eq_true.2 ⟨clause, hclause, hself⟩))
  exact ⟨kept, hkept, Clause.mem_texts_of_beq hsame hs⟩

theorem forall_words_of_isFreeOf (hschema : dialect.schema = none)
    (h : Query.read dialect now text = .ok q) (hall : ∀ clause ∈ q.clauses, clause.IsFreeOf isBlank) :
    ∀ content ∈ contents dialect.delimiter text.toList, ∃ negated draft,
      content = .ok (negated, draft) ∧ ∀ w ∈ draft.words, ∀ c ∈ w.text, isBlank c = false := by
  intro content hmem
  obtain ⟨clauses, hclauses, -⟩ := read_eq_ok_iff_forall₂.1 h
  obtain ⟨clause, -, hclause⟩ := exists_mem_of_forall₂ hclauses hmem
  obtain ⟨negated, draft, rfl, -⟩ := exists_draft_of_contentClause hclause
  refine ⟨negated, draft, rfl, ?_⟩
  intro w hw c hc
  cases hb : isBlank c with
  | false => rfl
  | true =>
    obtain ⟨kept, hkept, hs⟩ := exists_mem_texts_of_mem_contents hschema h hmem hw ⟨c, hc, hb⟩
    have hfree := hall kept hkept _ hs c (by rwa [String.toList_ofList])
    exact hb.symm.trans hfree

/-- In a query that is read of a text without quotes and backslashes, no term and no text of a
value holds a gap. None of them holds a blank exactly if the same query is read with spaces in
place of the blanks that are no gaps. -/
theorem blankless_iff_read_plain (hslash : '\\' ∉ text.toList) (hquote : '"' ∉ text.toList)
    (h : Query.read {} now text = .ok q) :
    (∀ clause ∈ q.clauses, clause.IsFreeOf isGap) ∧
      ((∀ clause ∈ q.clauses, clause.IsFreeOf isBlank) ↔
        Query.read {} now (text.map plainBlank) = .ok q) := by
  have hplain : IsUnquoted '"' text.toList := by
    intro c hc
    exact ⟨ne_of_mem_of_not_mem hc hslash, ne_of_mem_of_not_mem hc hquote⟩
  constructor
  · intro clause hclause s hs c hc
    exact (not_isGap_of_read rfl isDelimiter_quote hplain h hclause hs c hc).2
  constructor
  · intro hall
    have hsame : contents '"' (text.map plainBlank).toList = contents '"' text.toList := by
      rw [String.toList_map]
      exact contents_map_plainBlank isDelimiter_quote hplain (forall_words_of_isFreeOf rfl h hall)
    obtain ⟨clauses, hclauses, hq⟩ := read_eq_ok_iff_forall₂.1 h
    refine read_eq_ok_iff_forall₂.2 ⟨clauses, ?_, hq⟩
    rw [map_content_pieces] at hclauses ⊢
    rwa [hsame]
  · intro hread clause hclause s hs c hc
    have hplain' : IsUnquoted '"' (text.map plainBlank).toList := by
      rw [String.toList_map]
      exact hplain.map_plainBlank isDelimiter_quote
    obtain ⟨hmem, hgap⟩ := not_isGap_of_read rfl isDelimiter_quote hplain' hread hclause hs c hc
    rw [String.toList_map] at hmem
    obtain ⟨x, -, rfl⟩ := List.mem_map.1 hmem
    cases hb : isBlank (plainBlank x) with
    | false => rfl
    | true => exact absurd (isGap_plainBlank hb) (by simp [hgap])

theorem blankless_around_group :
    let text := "\u00a0a:(b or\tc)\u2003is:d\u00a0"
    text.map plainBlank ≠ text ∧ ∃ q, Query.read {} (.midnight 0) text = .ok q ∧
      Query.read {} (.midnight 0) (text.map plainBlank) = .ok q :=
  have hread := read_eq_ok_iff.2 ⟨by decide +kernel, rfl⟩
  ⟨by decide +kernel, _, hread,
    (blankless_iff_read_plain (by decide) (by decide) hread).2.1 (by decide +kernel)⟩

/-- A no-break space does not end a bare word. -/
theorem not_blankless_no_break_space :
    '\\' ∉ "a\u00a0b".toList ∧ '"' ∉ "a\u00a0b".toList ∧
      ∃ q, Query.read {} (.midnight 0) "a\u00a0b" = .ok q ∧
        ¬ ∀ clause ∈ q.clauses, clause.IsFreeOf isBlank :=
  ⟨by decide, by decide, _, read_eq_ok_iff.2 ⟨by decide +kernel, rfl⟩, by decide +kernel⟩

end SearchBar
