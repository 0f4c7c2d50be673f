import SearchBar.Compile.QueryObject
import SearchBar.Proofs.Compile.Unambiguous

/-! # Terms as literals

All terms of a query object stand in one simple query text, where some characters are
operators. A term is a word of this text or a phrase between double quotes, in which every
quote and every backslash of the term stands behind a backslash. So the terms are found
again in the text, and no operator in them works as one.
-/

namespace SearchBar

open Text

variable {raw raw' body text rest cs cs' : List Char}

/-- Where a character of a simple query text stands: between phrases, in a phrase, or in a
phrase behind a backslash. -/
inductive Place
  | outside
  | inside
  | escaped
deriving DecidableEq, Repr

namespace Place

/-- The place behind a character. A double quote begins a phrase, and the next one that is
not escaped ends it. -/
def next : Place → Char → Place
  | outside, c => if c = '"' then inside else outside
  | inside, c => if c = '"' then outside else if c = '\\' then escaped else inside
  | escaped, _ => inside

def behind (p : Place) (cs : List Char) : Place := cs.foldl next p

theorem behind_append (p : Place) (a b : List Char) : p.behind (a ++ b) = (p.behind a).behind b :=
  List.foldl_append

/-- Up to its end, an escaped text stays in the phrase that it stands in. -/
theorem behind_inside (h : unescape (· == '"') body = some (text, [])) :
    inside.behind body = inside ∧ ∀ before, before <+: body → inside.behind before ≠ outside := by
  fun_induction unescape (· == '"') body generalizing text with
  | case1 => simp [behind]
  | case2 => simp at h
  | case3 c cs ih =>
    obtain ⟨⟨t, r⟩, ht, hr⟩ := Option.map_eq_some_iff.1 h
    obtain ⟨rfl, rfl⟩ := Prod.mk.inj hr
    obtain ⟨hend, hbegin⟩ := ih ht
    refine ⟨hend, fun before hbefore => ?_⟩
    rcases before with - | ⟨d, - | ⟨d', before⟩⟩
    · simp [behind]
    · obtain ⟨rfl, -⟩ := List.cons_prefix_cons.1 hbefore
      simp [behind, next]
    · obtain ⟨rfl, hbehind⟩ := List.cons_prefix_cons.1 hbefore
      exact hbegin before (List.cons_prefix_cons.1 hbehind).2
  | case4 => simp at h
  | case5 c cs h1 h2 hc ih =>
    obtain ⟨⟨t, r⟩, ht, hr⟩ := Option.map_eq_some_iff.1 h
    obtain ⟨rfl, rfl⟩ := Prod.mk.inj hr
    obtain ⟨hend, hbegin⟩ := ih ht
    have hnext : inside.next c = inside := by
      rw [next, if_neg (by simpa using hc), if_neg (ne_backslash_of_cases h1 h2)]
    refine ⟨by rwa [behind, List.foldl_cons, hnext], fun before hbefore => ?_⟩
    cases before with
    | nil => simp [behind]
    | cons d before =>
      obtain ⟨rfl, hbehind⟩ := List.cons_prefix_cons.1 hbefore
      rw [behind, List.foldl_cons, hnext]
      exact hbegin before hbehind

end Place

section Shields

/-- Every phrase of a text ends in it, and outside of phrases no operator stands but the
quotes that begin them. -/
def ShieldsOperators (cs : List Char) : Prop :=
  Place.outside.behind cs = .outside ∧ ∀ before c rest, cs = before ++ c :: rest →
    c ∈ PartCompiler.operatorChars → Place.outside.behind before = .outside → c = '"'

theorem shieldsOperators_nil : ShieldsOperators [] :=
  ⟨rfl, fun before c rest h => by simp at h⟩

theorem ShieldsOperators.append (h : ShieldsOperators cs) (h' : ShieldsOperators cs') :
    ShieldsOperators (cs ++ cs') := by
  refine ⟨by rw [Place.behind_append, h.1, h'.1], fun before c rest heq hc hplace => ?_⟩
  rcases List.append_eq_append_iff.1 heq with ⟨a, rfl, ha⟩ | ⟨a, ha, hrest⟩
  · rw [Place.behind_append, h.1] at hplace
    exact h'.2 a c rest ha hc hplace
  · cases a with
    | nil =>
      rw [List.append_nil] at ha
      subst ha
      exact h'.2 [] c rest hrest.symm hc rfl
    | cons d a =>
      obtain ⟨rfl, -⟩ := List.cons.inj hrest
      exact h.2 before _ a ha hc hplace

theorem shieldsOperators_of_forall (h : ∀ c ∈ cs, c ∉ PartCompiler.operatorChars) :
    ShieldsOperators cs := by
  refine ⟨?_, fun before c rest heq hc => absurd hc (h c (by simp [heq]))⟩
  induction cs with
  | nil => rfl
  | cons c cs ih =>
    obtain ⟨hc, hcs⟩ := List.forall_mem_cons.1 h
    have hquote : c ≠ '"' := by
      rintro rfl
      exact hc (by decide)
    rw [Place.behind, List.foldl_cons, Place.next, if_neg hquote]
    exact ih hcs

theorem shieldsOperators_phrase (h : unescape (· == '"') body = some (text, [])) :
    ShieldsOperators ('"' :: (body ++ ['"'])) := by
  obtain ⟨hend, hbegin⟩ := Place.behind_inside h
  have hopen (cs : List Char) : Place.outside.behind ('"' :: cs) = Place.inside.behind cs := rfl
  refine ⟨by rw [hopen, Place.behind_append, hend]; rfl, fun before c rest heq _ hplace => ?_⟩
  cases before with
  | nil => exact (List.cons.inj heq).1.symm
  | cons d before =>
    obtain ⟨rfl, -⟩ := List.cons.inj heq
    have htail : body ++ ['"'] = before ++ c :: rest := (List.cons.inj heq).2
    have hbefore : before <+: body := by
      rw [← List.dropLast_append_getLast (List.cons_ne_nil c rest), ← List.append_assoc] at htail
      exact ⟨_, (List.append_inj' htail rfl).1.symm⟩
    exact absurd hplace (hbegin before hbefore)

theorem shieldsOperators_intercalate {raws : List (List Char)}
    (h : ∀ raw ∈ raws, ShieldsOperators raw) : ShieldsOperators ([' '].intercalate raws) := by
  have hspace : ShieldsOperators [' '] :=
    shieldsOperators_of_forall (List.forall_mem_singleton.2 (by decide))
  cases raws with
  | nil => exact shieldsOperators_nil
  | cons raw raws =>
    obtain ⟨hraw, hraws⟩ := List.forall_mem_cons.1 h
    rw [intercalate_cons]
    refine hraw.append ?_
    induction raws with
    | nil => exact shieldsOperators_nil
    | cons raw' raws ih =>
      obtain ⟨hraw', hraws⟩ := List.forall_mem_cons.1 hraws
      rw [List.flatMap_cons]
      exact (hspace.append hraw').append (ih (List.forall_mem_cons.2 ⟨hraw, hraws⟩) hraws)

end Shields

section Reading

def isLiteralChar (c : Char) : Bool := !(isBlank c || PartCompiler.operatorChars.contains c)

/-- A term is a word without blanks and operators, or a phrase that is read as the term
before its quote ends it. -/
inductive LiteralSpelled : List Char → List Char → Prop
  | word {text : List Char} (hne : text ≠ []) (h : ∀ c ∈ text, isLiteralChar c = true) :
      LiteralSpelled text text
  | phrase {body text : List Char} (h : unescape (· == '"') body = some (text, [])) :
      LiteralSpelled ('"' :: (body ++ ['"'])) text

def takeLiteral? (cs : List Char) : Option (List Char × List Char) :=
  if cs.head? = some '"' then takeQuoted? cs
  else some (cs.takeWhile isLiteralChar, cs.dropWhile isLiteralChar)

theorem isLiteralChar_iff {c : Char} :
    isLiteralChar c = true ↔ isBlank c = false ∧ c ∉ PartCompiler.operatorChars := by
  simp [isLiteralChar]

theorem takeLiteral?_append (h : LiteralSpelled raw text) (hr : stopsAt isBlank rest = true) :
    takeLiteral? (raw ++ rest) = some (text, rest) := by
  cases h with
  | word hne h =>
    obtain ⟨c, cs, rfl⟩ := List.exists_cons_of_ne_nil hne
    have hquote : c ≠ '"' := by
      rintro rfl
      exact absurd (h '"' List.mem_cons_self) (by decide)
    have hstop := stopsAt_mono (q := fun c => !isLiteralChar c)
      (fun c hc => by simp [isLiteralChar, hc]) hr
    rw [takeLiteral?, List.cons_append, if_neg (by simpa using hquote), ← List.cons_append,
      takeWhile_append_of_stopsAt h hstop, dropWhile_append_of_stopsAt h hstop]
  | @phrase body _ h =>
    have hread : unescape (· == '"') (body ++ '"' :: rest) = some (text, '"' :: rest) :=
      unescape_append h rfl
    have htext : '"' :: (body ++ ['"']) ++ rest = '"' :: (body ++ '"' :: rest) := by simp
    rw [htext, takeLiteral?, List.head?_cons, if_pos rfl, takeQuoted?, hread]
    rfl

theorem unambiguous_literal : Unambiguous isBlank LiteralSpelled := by
  intro raw raw' rest rest' x y hx hy hr hr' heq
  have hleft := takeLiteral?_append hx hr
  rw [heq, takeLiteral?_append hy hr'] at hleft
  obtain ⟨rfl, rfl⟩ := Prod.mk.inj (Option.some.inj hleft)
  exact ⟨rfl, rfl⟩

theorem LiteralSpelled.ne_nil (h : LiteralSpelled raw text) : raw ≠ [] := by
  cases h with
  | word hne => exact hne
  | phrase => exact List.cons_ne_nil _ _

theorem LiteralSpelled.shieldsOperators (h : LiteralSpelled raw text) : ShieldsOperators raw := by
  cases h with
  | word hne h => exact shieldsOperators_of_forall fun c hc => (isLiteralChar_iff.1 (h c hc)).2
  | phrase h => exact shieldsOperators_phrase h

def TermsSpelled (cs : List Char) (texts : List (List Char)) : Prop :=
  ∃ raws, cs = [' '].intercalate raws ∧ List.Forall₂ LiteralSpelled raws texts

theorem intercalate_ne_nil {raws texts : List (List Char)} (hne : raws ≠ [])
    (h : List.Forall₂ LiteralSpelled raws texts) : [' '].intercalate raws ≠ [] := by
  cases h with
  | nil => exact absurd rfl hne
  | cons h _ =>
    rw [intercalate_cons]
    exact List.append_ne_nil_of_left_ne_nil h.ne_nil _

/-- A simple query text has one list of terms. -/
theorem TermsSpelled.unique {texts texts' : List (List Char)} (h : TermsSpelled cs texts)
    (h' : TermsSpelled cs texts') : texts = texts' := by
  obtain ⟨raws, rfl, hraws⟩ := h
  obtain ⟨raws', heq, hraws'⟩ := h'
  by_cases hne : raws = []
  · subst hne
    have hnil : raws' = [] := by
      by_contra hne
      exact intercalate_ne_nil hne hraws' heq.symm
    subst hnil
    rw [List.forall₂_nil_left_iff.1 hraws, List.forall₂_nil_left_iff.1 hraws']
  · have hne' : raws' ≠ [] := by
      rintro rfl
      exact intercalate_ne_nil hne hraws heq
    have hclose : Closes isBlank [' '] [] := ⟨rfl, fun cs heq => by simp at heq⟩
    refine (unambiguous_literal.intercalate (fun _ => rfl) hclose hclose hne hne' hraws hraws'
      ?_).1
    rw [heq]

end Reading

namespace PartCompiler

theorem spelled_termText (cs : List Char) : LiteralSpelled (termText cs) cs := by
  unfold termText
  split
  · rename_i h
    rw [Bool.and_eq_true, Bool.not_eq_true', Bool.not_eq_true', List.any_eq_false] at h
    refine .word (by simpa using h.1) fun c hc => ?_
    rw [isLiteralChar, Bool.eq_false_iff.2 (h.2 c hc)]
    rfl
  · exact .phrase (unescape_flatMap_escape (by simp +contextual) cs)

theorem spelled_termsText (texts : List String) :
    TermsSpelled (termsText texts) (texts.map String.toList) := by
  refine ⟨_, rfl, ?_⟩
  rw [List.forall₂_map_left_iff, List.forall₂_map_right_iff, List.forall₂_same]
  exact fun t _ => spelled_termText t.toList

def simpleText? (query : Json) : Option (List Char) :=
  match (query.member? "simple_query_string").bind (Json.member? "query") with
  | some (.str s) => some s.toList
  | _ => none

theorem simpleText?_termsObject (texts defaultFields : List String) :
    simpleText? (termsObject texts defaultFields) = some (termsText texts) := by
  have hfields : "query" ≠ "fields" := by decide
  have hoperator : "query" ≠ "default_operator" := by decide
  have hbody : ((termsObject texts defaultFields).member? "simple_query_string").bind
      (Json.member? "query") = some (.str (String.ofList (termsText texts))) := by
    show Json.find? "query" (List.foldl _ _ _) = _
    cases defaultFields.isEmpty with
    | true =>
      simp only [if_true, List.append_nil, List.foldl_cons, List.foldl_nil]
      rw [Json.find?_insert_of_ne hoperator, Json.find?_insert_self]
    | false =>
      simp only [Bool.false_eq_true, if_false, List.cons_append, List.nil_append, List.foldl_cons,
        List.foldl_nil]
      rw [Json.find?_insert_of_ne hfields, Json.find?_insert_of_ne hoperator,
        Json.find?_insert_self]
  rw [simpleText?, hbody]
  simp

/-- The query for terms has one simple query text, which holds these terms and no other ones,
and in which no operator but the quotes of phrases stands outside of them. So queries with
this text are for the same terms. -/
theorem termsObject_literal (texts defaultFields : List String) : ∃ cs,
    simpleText? (termsObject texts defaultFields) = some cs ∧
    (∀ texts', TermsSpelled cs texts' ↔ texts' = texts.map String.toList) ∧
    ShieldsOperators cs ∧
    ∀ texts' defaultFields', simpleText? (termsObject texts' defaultFields') = some cs →
      texts' = texts := by
  have hspelled := spelled_termsText texts
  refine ⟨_, simpleText?_termsObject texts defaultFields, fun texts' => ?_, ?_, ?_⟩
  · constructor
    · exact fun h => h.unique hspelled
    · rintro rfl
      exact hspelled
  · obtain ⟨raws, hraws, hall⟩ := hspelled
    rw [hraws]
    exact shieldsOperators_intercalate fun raw hraw =>
      (exists_mem_of_forall₂ hall hraw).elim fun _ h => h.2.shieldsOperators
  · intro texts' defaultFields' h
    rw [simpleText?_termsObject] at h
    have hsame := (spelled_termsText texts').unique (Option.some.inj h ▸ hspelled)
    exact List.map_injective_iff.2 (fun _ _ => String.toList_inj.1) hsame

example : termsText ["a", "-b c", "\\\""] = "a \"-b c\" \"\\\\\\\"\"".toList := by decide

end PartCompiler

end SearchBar
