import SearchBar.Compile.QueryString
import SearchBar.Proofs.Query.Faithful

/-! # One reading of a query string

Query strings are spelled in a grammar of texts, choices and clauses. A part of one ends
at one place and has one reading, whatever stands behind it, so no text of a value brings
in the structure of a query. Queries with one query string differ only in what their
values and flags are written for.
-/

namespace SearchBar

open Calendar Text

/-- A text begins with one part at most, which has one reading, if an end stands behind it. -/
def Unambiguous {α : Type} (ends : Char → Bool) (Spells : List Char → α → Prop) : Prop :=
  ∀ ⦃raw raw' rest rest' : List Char⦄ ⦃x y : α⦄, Spells raw x → Spells raw' y →
    stopsAt ends rest = true → stopsAt ends rest' = true → raw ++ rest = raw' ++ rest' →
    x = y ∧ rest = rest'

section Lists

variable {α : Type} {ends : Char → Bool} {Spells : List Char → α → Prop} {sep : List Char}

/-- The text ends a list: it begins with an end, and with no separator. -/
def Closes (ends : Char → Bool) (sep close : List Char) : Prop :=
  stopsAt ends close = true ∧ ∀ cs, close ≠ sep ++ cs

theorem Closes.stopsAt_flatMap {close : List Char} (h : Closes ends sep close)
    (hsep : ∀ cs, stopsAt ends (sep ++ cs) = true) (raws : List (List Char)) :
    stopsAt ends (raws.flatMap (sep ++ ·) ++ close) = true := by
  cases raws with
  | nil => exact h.1
  | cons raw raws =>
    rw [List.flatMap_cons, List.append_assoc, List.append_assoc]
    exact hsep _

theorem Unambiguous.flatMap (h : Unambiguous ends Spells)
    (hsep : ∀ cs, stopsAt ends (sep ++ cs) = true) {close close' : List Char}
    (hclose : Closes ends sep close) (hclose' : Closes ends sep close')
    {raws raws' : List (List Char)} {xs ys : List α} (hx : List.Forall₂ Spells raws xs)
    (hy : List.Forall₂ Spells raws' ys)
    (heq : raws.flatMap (sep ++ ·) ++ close = raws'.flatMap (sep ++ ·) ++ close') :
    xs = ys ∧ close = close' := by
  induction hx generalizing raws' ys with
  | nil =>
    cases hy with
    | nil => exact ⟨rfl, heq⟩
    | @cons raw y raws ys =>
      rw [List.flatMap_cons, List.append_assoc, List.append_assoc] at heq
      exact absurd heq (hclose.2 _)
  | @cons raw x raws xs hraw _ ih =>
    cases hy with
    | nil =>
      rw [List.flatMap_cons, List.append_assoc, List.append_assoc] at heq
      exact absurd heq.symm (hclose'.2 _)
    | @cons raw' y raws' ys hraw' hy =>
      simp only [List.flatMap_cons, List.append_assoc] at heq
      obtain ⟨rfl, hrest⟩ := h hraw hraw' (hclose.stopsAt_flatMap hsep raws)
        (hclose'.stopsAt_flatMap hsep raws') (List.append_cancel_left heq)
      obtain ⟨rfl, hrest⟩ := ih hy hrest
      exact ⟨rfl, hrest⟩

/-- Parts with separators between them are told apart one by one. -/
theorem Unambiguous.intercalate (h : Unambiguous ends Spells)
    (hsep : ∀ cs, stopsAt ends (sep ++ cs) = true) {close close' : List Char}
    (hclose : Closes ends sep close) (hclose' : Closes ends sep close')
    {raws raws' : List (List Char)} {xs ys : List α} (hne : raws ≠ []) (hne' : raws' ≠ [])
    (hx : List.Forall₂ Spells raws xs) (hy : List.Forall₂ Spells raws' ys)
    (heq : sep.intercalate raws ++ close = sep.intercalate raws' ++ close') :
    xs = ys ∧ close = close' := by
  -- a separator in front of the parts makes the two forms of a list one
  have hfront : ∀ {raws : List (List Char)}, raws ≠ [] →
      sep ++ sep.intercalate raws = raws.flatMap (sep ++ ·) := by
    intro raws hne
    obtain ⟨raw, raws, rfl⟩ := List.exists_cons_of_ne_nil hne
    rw [intercalate_cons, List.flatMap_cons, List.append_assoc]
  refine h.flatMap hsep hclose hclose' hx hy ?_
  rw [← hfront hne, ← hfront hne', List.append_assoc, List.append_assoc, heq]

end Lists

section Texts

variable {raw text rest : List Char}

def isBareChar (c : Char) : Bool := !(isBlank c || reservedChars.contains c)

inductive TextSpelled : List Char → List Char → Prop
  | bare {text : List Char} (hne : text ≠ []) (h : ∀ c ∈ text, isBareChar c = true) :
      TextSpelled text text
  | quoted (text : List Char) : TextSpelled (quoted text) text
  | minus {text : List Char} (h : ∀ c ∈ text, isBareChar c = true) :
      TextSpelled ('\\' :: '-' :: text) ('-' :: text)

def takeText? (cs : List Char) : Option (List Char × List Char) :=
  if cs.head? = some '"' then takeQuoted? cs
  else if cs.head? = some '\\' then
    some ('-' :: (cs.drop 2).takeWhile isBareChar, (cs.drop 2).dropWhile isBareChar)
  else some (cs.takeWhile isBareChar, cs.dropWhile isBareChar)

theorem isBareChar_iff {c : Char} :
    isBareChar c = true ↔ isBlank c = false ∧ c ∉ reservedChars := by
  simp [isBareChar]

theorem TextSpelled.cases_head (h : TextSpelled raw text) :
    (raw ≠ [] ∧ ∀ c ∈ raw, isBareChar c = true) ∨
      ∃ c cs, raw = c :: cs ∧ (c = '"' ∨ c = '\\') := by
  cases h with
  | bare hne h => exact .inl ⟨hne, h⟩
  | quoted => exact .inr ⟨_, _, rfl, .inl rfl⟩
  | minus => exact .inr ⟨_, _, rfl, .inr rfl⟩

theorem takeText?_append (h : TextSpelled raw text)
    (hr : stopsAt (fun c => !isBareChar c) rest = true) :
    takeText? (raw ++ rest) = some (text, rest) := by
  cases h with
  | quoted => exact (if_pos rfl).trans (takeQuoted?_quoted_append text rest)
  | minus h =>
    show some _ = _
    simp only [List.cons_append, List.drop_succ_cons, List.drop_zero,
      takeWhile_append_of_stopsAt h hr, dropWhile_append_of_stopsAt h hr]
  | bare hne h =>
    obtain ⟨c, cs, rfl⟩ := List.exists_cons_of_ne_nil hne
    have hc := (isBareChar_iff.1 (h c List.mem_cons_self)).2
    have hquote : c ≠ '"' := by
      rintro rfl
      exact hc (by decide)
    have hslash : c ≠ '\\' := by
      rintro rfl
      exact hc (by decide)
    rw [takeText?, List.cons_append, if_neg (by simpa using hquote),
      if_neg (by simpa using hslash), ← List.cons_append, takeWhile_append_of_stopsAt h hr,
      dropWhile_append_of_stopsAt h hr]

theorem unambiguous_textSpelled : Unambiguous (fun c => !isBareChar c) TextSpelled := by
  intro raw raw' rest rest' x y hx hy hr hr' heq
  have hleft := takeText?_append hx hr
  rw [heq, takeText?_append hy hr'] at hleft
  obtain ⟨rfl, rfl⟩ := Prod.mk.inj (Option.some.inj hleft)
  exact ⟨rfl, rfl⟩

end Texts

/-- What a clause says, apart from its polarity: values count as their texts, and a flag as
a comparison with `true`. -/
inductive Outline
  | term (text : List Char)
  | field (name : String) (op : Operator) (text : List Char)
  | oneOf (name : String) (texts : List (List Char))
deriving DecidableEq, Repr

def Clause.outline (now : Instant) : Clause → Outline
  | term s _ => .term s.toList
  | field n op v _ => .field n op (v.plainText now)
  | oneOf n vs _ => .oneOf n (vs.map (·.plainText now))
  | flag n _ => .field n .eq "true".toList

section Clauses

variable {raw rest : List Char} {o : Outline}

/-- The spellings of what a clause says. A bare term is no word that stands in front of a
clause. -/
inductive Outline.Spelled : List Char → Outline → Prop
  | term {raw text : List Char} (h : TextSpelled raw text) (hword : raw ≠ "NOT".toList) :
      Spelled raw (.term text)
  | field {name : String} {op : Operator} {raw text : List Char}
      (hn : ∀ c ∈ name.toList, isNameChar c = true) (h : TextSpelled raw text) :
      Spelled (name.toList ++ ':' :: (comparisonSign op ++ raw)) (.field name op text)
  | oneOf {name : String} {raws texts : List (List Char)}
      (hn : ∀ c ∈ name.toList, isNameChar c = true) (hne : raws ≠ [])
      (h : List.Forall₂ TextSpelled raws texts) :
      Spelled (name.toList ++ ':' :: '(' :: (" OR ".toList.intercalate raws ++ [')']))
        (.oneOf name texts)

def takeComparisonSign (cs : List Char) : Operator × List Char := (Operator.take? cs).getD (.eq, cs)

theorem TextSpelled.exists_cons {text : List Char} (h : TextSpelled raw text) :
    ∃ c cs, raw = c :: cs ∧ c ∉ signChars ∧ c ≠ '(' := by
  rcases h.cases_head with ⟨hne, hbare⟩ | ⟨c, cs, rfl, hmark⟩
  · obtain ⟨c, cs, rfl⟩ := List.exists_cons_of_ne_nil hne
    have hc := (isBareChar_iff.1 (hbare c List.mem_cons_self)).2
    have hsigns : ∀ c ∈ '(' :: signChars, c ∈ reservedChars := by simp [signChars, reservedChars]
    refine ⟨c, cs, rfl, fun hsign => hc (hsigns c (List.mem_cons_of_mem _ hsign)), ?_⟩
    rintro rfl
    exact hc (hsigns _ List.mem_cons_self)
  · have hmarks : c ∉ signChars ∧ c ≠ '(' := by rcases hmark with rfl | rfl <;> decide
    exact ⟨c, cs, rfl, hmarks⟩

theorem takeComparisonSign_append {text : List Char} (op : Operator) (h : TextSpelled raw text)
    (rest : List Char) :
    takeComparisonSign (comparisonSign op ++ (raw ++ rest)) = (op, raw ++ rest) := by
  obtain ⟨c, cs, rfl, hc, -⟩ := h.exists_cons
  have hwide : op.widens (c :: cs ++ rest) = false :=
    Operator.widens_cons fun heq => hc (heq ▸ by decide)
  by_cases hop : op = .eq
  · subst hop
    have hnone : Operator.take? (c :: cs ++ rest) = none := by
      cases htake : Operator.take? (c :: cs ++ rest) with
      | none => rfl
      | some r =>
        obtain ⟨hsign, -⟩ := Operator.take_eq_some_iff.1 htake
        obtain ⟨d, ds, hd⟩ : ∃ d ds, r.1.sign.toList = d :: ds := by
          cases r.1 <;> exact ⟨_, _, rfl⟩
        have hmem : d ∈ signChars := mem_sign (hd ▸ List.mem_cons_self)
        rw [hd] at hsign
        obtain ⟨rfl, -⟩ := List.cons.inj hsign
        exact absurd hmem hc
    rw [takeComparisonSign, comparisonSign, if_pos rfl, List.nil_append, hnone]
    rfl
  · rw [takeComparisonSign, comparisonSign, if_neg hop, Operator.take_sign_append hwide]
    rfl

theorem head_comparison_ne {text : List Char} (op : Operator) (h : TextSpelled raw text)
    (cs : List Char) : comparisonSign op ++ (raw ++ rest) ≠ '(' :: cs := by
  obtain ⟨c, tail, rfl, -, hc⟩ := h.exists_cons
  cases op with
  | eq => exact fun heq => hc (List.cons.inj heq).1
  | gt | gte | lt | lte => exact fun heq => absurd (List.cons.inj heq).1 (by decide)

theorem name_append_inj {name name' : String} {tail tail' : List Char}
    (hn : ∀ c ∈ name.toList, isNameChar c = true) (hn' : ∀ c ∈ name'.toList, isNameChar c = true)
    (h : name.toList ++ ':' :: tail = name'.toList ++ ':' :: tail') : name = name' ∧ tail = tail' := by
  obtain ⟨hname, htail⟩ := append_inj_of_stopsAt h hn hn' rfl rfl
  exact ⟨String.toList_inj.1 hname, List.tail_eq_of_cons_eq htail⟩

theorem not_isBareChar_of_isBlank {c : Char} (h : isBlank c = true) : (!isBareChar c) = true := by
  simp [isBareChar, h]

theorem term_append_ne {name text tail : List Char} (h : TextSpelled raw text)
    (hr : stopsAt isBlank rest = true) (hn : ∀ c ∈ name, isNameChar c = true) :
    raw ++ rest ≠ name ++ ':' :: tail := by
  intro heq
  rcases h.cases_head with ⟨-, hbare⟩ | ⟨c, cs, rfl, hmark⟩
  · have hraw : ∀ c ∈ raw, (!isBlank c && c != ':') = true := by
      intro c hc
      obtain ⟨hblank, hreserved⟩ := isBareChar_iff.1 (hbare c hc)
      have hcolon : c ≠ ':' := by
        rintro rfl
        exact hreserved (by decide)
      simp [hblank, hcolon]
    have hname : ∀ c ∈ name, (!isBlank c && c != ':') = true := by
      intro c hc
      have hblank : isBlank c = false := by
        cases hblank : isBlank c with
        | false => rfl
        | true => simpa [hn c hc] using not_isNameChar_of_isBlank hblank
      have hcolon : c ≠ ':' := by
        rintro rfl
        exact absurd (hn _ hc) (by decide)
      simp [hblank, hcolon]
    have hstop := stopsAt_mono (q := fun c => !(!isBlank c && c != ':'))
      (fun c hc => by simp [hc]) hr
    obtain ⟨-, rfl⟩ := append_inj_of_stopsAt heq hraw hname hstop rfl
    have hcolon : isBlank ':' = true := hr
    exact absurd hcolon (by decide)
  · obtain ⟨hstop, hcolon⟩ : (!isNameChar c) = true ∧ c ≠ ':' := by
      rcases hmark with rfl | rfl <;> decide
    obtain ⟨-, htail⟩ := append_inj_of_stopsAt (p := isNameChar) (a := []) heq (by simp) hn hstop rfl
    exact hcolon (List.cons.inj htail).1

theorem unambiguous_outline : Unambiguous isBlank Outline.Spelled := by
  intro raw raw' rest rest' o o' ho ho' hr hr' heq
  have hstop := stopsAt_mono (fun c => not_isBareChar_of_isBlank) hr
  have hstop' := stopsAt_mono (fun c => not_isBareChar_of_isBlank) hr'
  cases ho with
  | term h =>
    cases ho' with
    | term h' =>
      obtain ⟨rfl, hrest⟩ := unambiguous_textSpelled h h' hstop hstop' heq
      exact ⟨rfl, hrest⟩
    | field hn' | oneOf hn' =>
      rw [List.append_assoc, List.cons_append] at heq
      exact absurd heq (term_append_ne h hr hn')
  | field hn h =>
    cases ho' with
    | term h' =>
      rw [List.append_assoc, List.cons_append] at heq
      exact absurd heq.symm (term_append_ne h' hr' hn)
    | field hn' h' =>
      simp only [List.append_assoc, List.cons_append] at heq
      obtain ⟨rfl, htail⟩ := name_append_inj hn hn' heq
      have hsign := congrArg takeComparisonSign htail
      rw [takeComparisonSign_append _ h, takeComparisonSign_append _ h'] at hsign
      obtain ⟨rfl, hraw⟩ := Prod.mk.inj hsign
      obtain ⟨rfl, hrest⟩ := unambiguous_textSpelled h h' hstop hstop' hraw
      exact ⟨rfl, hrest⟩
    | oneOf hn' =>
      simp only [List.append_assoc, List.cons_append] at heq
      exact absurd (name_append_inj hn hn' heq).2 (head_comparison_ne _ h _)
  | oneOf hn hne h =>
    cases ho' with
    | term h' =>
      rw [List.append_assoc, List.cons_append] at heq
      exact absurd heq.symm (term_append_ne h' hr' hn)
    | field hn' h' =>
      simp only [List.append_assoc, List.cons_append] at heq
      exact absurd (name_append_inj hn hn' heq).2.symm (head_comparison_ne _ h' _)
    | oneOf hn' hne' h' =>
      simp only [List.append_assoc, List.cons_append, List.nil_append] at heq
      obtain ⟨rfl, htail⟩ := name_append_inj hn hn' heq
      have hclose (cs : List Char) : Closes (fun c => !isBareChar c) " OR ".toList (')' :: cs) :=
        ⟨rfl, fun _ heq => absurd (List.cons.inj heq).1 (by decide)⟩
      obtain ⟨rfl, hrest⟩ := unambiguous_textSpelled.intercalate (fun _ => rfl) (hclose rest)
        (hclose rest') hne hne' h h' (List.cons.inj htail).2
      exact ⟨rfl, (List.cons.inj hrest).2⟩

theorem Outline.Spelled.append_ne_not (h : o.Spelled raw) (hr : stopsAt isBlank rest = true)
    (cs : List Char) : raw ++ rest ≠ "NOT ".toList ++ cs := by
  have hword : "NOT ".toList ++ cs = "NOT".toList ++ ' ' :: cs := rfl
  rw [hword]
  intro heq
  cases h with
  | term h hword =>
    rcases h.cases_head with ⟨-, hbare⟩ | ⟨c, cs, rfl, hmark⟩
    · have hstop := stopsAt_mono (fun c => not_isBareChar_of_isBlank) hr
      have hnot : ∀ c ∈ "NOT".toList, isBareChar c = true := List.all_eq_true.1 (by decide)
      exact hword (append_inj_of_stopsAt heq hbare hnot hstop rfl).1
    · have hmarks : c ≠ 'N' := by rcases hmark with rfl | rfl <;> decide
      exact hmarks (List.cons.inj heq).1
  | field hn | oneOf hn =>
    rw [List.append_assoc, List.cons_append] at heq
    have hnot : ∀ c ∈ "NOT".toList, isNameChar c = true := List.all_eq_true.1 (by decide)
    have htail := (append_inj_of_stopsAt heq hn hnot rfl rfl).2
    exact absurd (List.cons.inj htail).1 (by decide)

inductive Clause.Spelled : List Char → Bool × Outline → Prop
  | must {raw : List Char} {o : Outline} (h : o.Spelled raw) : Spelled raw (true, o)
  | mustNot {raw : List Char} {o : Outline} (h : o.Spelled raw) :
      Spelled ("NOT ".toList ++ raw) (false, o)

theorem unambiguous_clause : Unambiguous isBlank Clause.Spelled := by
  intro raw raw' rest rest' o o' ho ho' hr hr' heq
  cases ho with
  | must h =>
    cases ho' with
    | must h' =>
      obtain ⟨rfl, hrest⟩ := unambiguous_outline h h' hr hr' heq
      exact ⟨rfl, hrest⟩
    | mustNot h' =>
      rw [List.append_assoc] at heq
      exact absurd heq (h.append_ne_not hr _)
  | mustNot h =>
    rw [List.append_assoc] at heq
    cases ho' with
    | must h' => exact absurd heq.symm (h'.append_ne_not hr' _)
    | mustNot h' =>
      rw [List.append_assoc] at heq
      obtain ⟨rfl, hrest⟩ := unambiguous_outline h h' hr hr' (List.append_cancel_left heq)
      exact ⟨rfl, hrest⟩

/-- The spellings of queries: the empty query, or clauses with a word between them. -/
inductive Query.Spelled : List Char → List (Bool × Outline) → Prop
  | empty : Spelled ['*'] []
  | clauses {raws : List (List Char)} {os : List (Bool × Outline)} (hne : raws ≠ [])
      (h : List.Forall₂ Clause.Spelled raws os) : Spelled (" AND ".toList.intercalate raws) os

theorem Outline.Spelled.append_ne_star (h : o.Spelled raw) : raw ++ rest ≠ ['*'] := by
  intro heq
  cases h with
  | term h =>
    rcases h.cases_head with ⟨hne, hbare⟩ | ⟨c, cs, rfl, hmark⟩
    · obtain ⟨c, cs, rfl⟩ := List.exists_cons_of_ne_nil hne
      obtain ⟨rfl, -⟩ := List.cons.inj heq
      exact absurd (hbare '*' List.mem_cons_self) (by decide)
    · have hmarks : c ≠ '*' := by rcases hmark with rfl | rfl <;> decide
      exact hmarks (List.cons.inj heq).1
  | field hn | oneOf hn =>
    rw [List.append_assoc, List.cons_append] at heq
    have htail := (append_inj_of_stopsAt (a := []) heq.symm (by simp) hn rfl rfl).2
    exact absurd (List.cons.inj htail).1 (by decide)

theorem Clause.Spelled.append_ne_star {s : Bool × Outline} (h : Clause.Spelled raw s) :
    raw ++ rest ≠ ['*'] := by
  cases h with
  | must h => exact h.append_ne_star
  | mustNot h => exact fun heq => absurd (List.cons.inj heq).1 (by decide)

theorem intercalate_ne_star {sep : List Char} {raws : List (List Char)}
    {os : List (Bool × Outline)} (hne : raws ≠ []) (h : List.Forall₂ Clause.Spelled raws os) :
    sep.intercalate raws ≠ ['*'] := by
  cases h with
  | nil => exact absurd rfl hne
  | cons h _ =>
    rw [intercalate_cons]
    exact h.append_ne_star

/-- A query string has one reading. -/
theorem Query.Spelled.unique {raw' : List Char} {os os' : List (Bool × Outline)}
    (h : Query.Spelled raw os) (h' : Query.Spelled raw' os') (heq : raw = raw') : os = os' := by
  cases h with
  | empty =>
    cases h' with
    | empty => rfl
    | clauses hne h' => exact absurd heq.symm (intercalate_ne_star hne h')
  | clauses hne h =>
    cases h' with
    | empty => exact absurd heq (intercalate_ne_star hne h)
    | clauses hne' h' =>
      have hclose : Closes isBlank " AND ".toList [] := ⟨rfl, fun cs heq => by simp at heq⟩
      refine (unambiguous_clause.intercalate (fun _ => rfl) hclose hclose hne hne' h h' ?_).1
      rw [heq]

end Clauses

section Writing

variable {c : Clause} {v : Value} {q : Query}

theorem isBareChar_of_not_isReservedText {cs : List Char} (h : isReservedText cs = false) :
    cs ≠ [] ∧ cs ∉ keywords ∧ ∀ c ∈ cs, isBareChar c = true := by
  simp only [isReservedText, Bool.or_eq_false_iff, List.isEmpty_eq_false_iff] at h
  refine ⟨h.1.1, by simpa using h.1.2, fun c hc => ?_⟩
  have hany := List.any_eq_false.1 h.2 c hc
  rw [isBareChar, Bool.eq_false_iff.2 hany]
  rfl

theorem spelled_escaped (cs : List Char) : TextSpelled (escaped cs) cs := by
  unfold escaped
  split
  · exact .quoted cs
  · rename_i h
    obtain ⟨hne, -, hbare⟩ := isBareChar_of_not_isReservedText (Bool.not_eq_true _ ▸ h)
    exact .bare hne hbare

theorem escaped_not_mem_keywords (cs : List Char) : escaped cs ∉ keywords := by
  unfold escaped
  split
  · have hquote : ∀ word ∈ keywords, word.head? ≠ some '"' := by simp [keywords]
    exact fun hword => hquote _ hword rfl
  · rename_i h
    exact (isBareChar_of_not_isReservedText (Bool.not_eq_true _ ▸ h)).2.1

theorem isBareChar_of_isAlphanum {c : Char} (h : c.isAlphanum = true ∨ c = '.') :
    isBareChar c = true := by
  have hnone : (blanks ++ reservedChars).any (fun c => c.isAlphanum || c == '.') = false := by
    decide
  have hc : c ∉ blanks ++ reservedChars := fun hc => List.any_eq_false.1 hnone c hc (by simpa using h)
  rw [List.mem_append, not_or, ← isBlank_iff, Bool.not_eq_true] at hc
  exact isBareChar_iff.2 hc

theorem spelled_escapedNumber (x : Binary64) :
    TextSpelled (escapedNumber x.plainText) x.plainText := by
  obtain ⟨s, cs, htext, hne, hcs⟩ := x.plainText_eq_sign_append
  have hbare : ∀ c ∈ cs, isBareChar c = true := fun c hc => isBareChar_of_isAlphanum (hcs c hc)
  rw [htext]
  cases s with
  | true => exact .minus hbare
  | false =>
    have hminus : escapedNumber cs = cs := by
      unfold escapedNumber
      split
      · exact absurd (hbare '-' List.mem_cons_self) (by decide)
      · rfl
    show TextSpelled (escapedNumber cs) cs
    rw [hminus]
    exact .bare hne hbare

theorem exists_spelled_comparisonText (op : Operator) (hv : ∀ d, v ≠ .date d) (now : Instant) :
    ∃ raw, comparisonText op v = comparisonSign op ++ raw ∧ TextSpelled raw (v.plainText now) := by
  cases v with
  | text s => exact ⟨_, rfl, spelled_escaped s.toList⟩
  | number x => exact ⟨_, rfl, spelled_escapedNumber x⟩
  | bool b => exact ⟨_, rfl, spelled_escaped (Value.boolText b)⟩
  | date d => exact absurd rfl (hv d)

/-- The body of a clause without dates is spelled as its outline. -/
theorem spelled_queryStringBody (h : c.WellNamed) (hv : ∀ v ∈ c.values, ∀ d, v ≠ .date d)
    (now : Instant) : (c.outline now).Spelled c.queryStringBody := by
  cases c with
  | term s m =>
    have hword : escaped s.toList ≠ "NOT".toList := fun hword =>
      escaped_not_mem_keywords s.toList (hword ▸ by decide)
    exact .term (spelled_escaped _) hword
  | flag n m =>
    have hn : ∀ c ∈ n.toList, isNameChar c = true := by
      have hname : isFlagName n.toList = true := h
      rw [isFlagName, Bool.and_eq_true] at hname
      exact List.all_eq_true.1 hname.2
    have htrue : TextSpelled "true".toList "true".toList := .bare (by simp) (List.all_eq_true.1 (by decide))
    exact @Outline.Spelled.field n .eq _ _ hn htrue
  | field n op v m =>
    obtain ⟨raw, htext, hraw⟩ :=
      exists_spelled_comparisonText op (hv v List.mem_cons_self) now
    rw [Clause.queryStringBody, htext]
    exact .field (isNameChar_of_isFieldName h.1) hraw
  | oneOf n vs m =>
    have hspelled : List.Forall₂ TextSpelled (vs.map (comparisonText .eq))
        (vs.map (·.plainText now)) := by
      rw [List.forall₂_map_left_iff, List.forall₂_map_right_iff, List.forall₂_same]
      intro v hvs
      obtain ⟨raw, htext, hraw⟩ := exists_spelled_comparisonText .eq (hv v hvs) now
      rw [htext]
      exact hraw
    have hbody := Outline.Spelled.oneOf (isNameChar_of_isFieldName h.1) (by simpa using h.2.2)
      hspelled
    simpa [Clause.queryStringBody, Clause.outline] using hbody

theorem spelled_toStringChars (h : ∀ c ∈ q.clauses, c.WellNamed)
    (hv : ∀ c ∈ q.clauses, ∀ v ∈ c.values, ∀ d, v ≠ .date d) (now : Instant) :
    Query.Spelled q.toStringChars (q.clauses.map fun c => (c.must, c.outline now)) := by
  unfold Query.toStringChars
  split
  · rename_i hempty
    rw [List.isEmpty_iff.1 hempty]
    exact .empty
  · rename_i hne
    refine .clauses (by simpa using hne) ?_
    rw [List.forall₂_map_left_iff, List.forall₂_map_right_iff, List.forall₂_same]
    intro c hc
    have hbody := spelled_queryStringBody (h c hc) (hv c hc) now
    unfold Clause.queryString
    cases c.must with
    | true => exact .must hbody
    | false => exact .mustNot hbody

theorem wellNamed_of_read {now : Instant} {text : String} (h : Query.read {} now text = .ok q)
    (hc : c ∈ q.clauses) : c.WellNamed ∧ ∀ v ∈ c.values, ∀ d, v ≠ .date d := by
  have hadm := admitted_of_read h hc
  exact ⟨hadm.wellNamed, fun v hv => hadm.ne_date rfl hv⟩

/-- Queries that were read and have one query string agree in all clauses, at every place:
in the polarity, and in what the clause says. -/
theorem outlines_of_toQueryString {q' : Query} {now now' : Instant} {text text' : String}
    (hq : Query.read {} now text = .ok q) (hq' : Query.read {} now' text' = .ok q')
    (h : q.toQueryString = q'.toQueryString) (t : Instant) :
    q.clauses.map (fun c => (c.must, c.outline t)) =
      q'.clauses.map fun c => (c.must, c.outline t) := by
  have hspelled := spelled_toStringChars (fun c hc => (wellNamed_of_read hq hc).1)
    (fun c hc => (wellNamed_of_read hq hc).2) t
  have hspelled' := spelled_toStringChars (fun c hc => (wellNamed_of_read hq' hc).1)
    (fun c hc => (wellNamed_of_read hq' hc).2) t
  exact hspelled.unique hspelled' (String.ofList_injective h)

/-- Flags are written as comparisons with `true`, and numbers as texts of digits. -/
theorem outlines_of_toQueryString_sold :
    ∃ q q', Query.read {} (.midnight 0) "is:sold size:5 -box" = .ok q ∧
      Query.read {} (.midnight 1) "sold:true size:\"5\" -\"box\"" = .ok q' ∧
      q.toQueryString = q'.toQueryString ∧
      q.clauses.map (fun c => (c.must, c.outline (.midnight 0))) =
        q'.clauses.map fun c => (c.must, c.outline (.midnight 0)) := by
  have hq := read_eq_ok_iff.2 ⟨(by decide +kernel :
    (Query.readAll {} (.midnight 0) "is:sold size:5 -box").diagnostics = []), rfl⟩
  have hq' := read_eq_ok_iff.2 ⟨(by decide +kernel :
    (Query.readAll {} (.midnight 1) "sold:true size:\"5\" -\"box\"").diagnostics = []), rfl⟩
  exact ⟨_, _, hq, hq', by decide +kernel, outlines_of_toQueryString hq hq' (by decide +kernel) _⟩

end Writing

end SearchBar
