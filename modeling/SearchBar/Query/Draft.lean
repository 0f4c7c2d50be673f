import SearchBar.Text.Blank
import SearchBar.Text.Escaped
import SearchBar.Text.Letter
import SearchBar.Query.Operator

/-! # Drafts

A draft is a clause as it is written, before its field is checked and its values
are typed. A text is tried for the kinds of drafts in a fixed order: flags,
groups, comparisons, comparisons without a value, terms.

Scanners give what they have found and the rest of the text, which is shorter.
-/

namespace SearchBar

open Text

structure Word where
  text : List Char
  quoted : Bool
deriving DecidableEq, Repr

inductive Draft
  | flag (name : List Char)
  | group (field : List Char) (values : List Word)
  | field (field : List Char) (op : Operator) (value : Word)
  /-- An operator with nothing behind it. -/
  | missing (field : List Char) (op : Operator)
  | term (value : Word)
deriving DecidableEq, Repr

def isNameStart (c : Char) : Bool := isLetter c || c == '_'

def isNameChar (c : Char) : Bool := isLetterOrNumeral c || c == '_' || c == '.' || c == '-'

theorem isNameChar_of_isNameStart {c : Char} (h : isNameStart c = true) :
    isNameChar c = true := by
  simp only [isNameStart, isNameChar, isLetterOrNumeral, Bool.or_eq_true] at *
  exact h.elim (fun h => .inl (.inl (.inl (.inl h)))) fun h => .inl (.inl (.inr h))

def endsWord (d c : Char) : Bool := [' ', '\t', '\r', '\n', '(', ')', d, '\\'].contains c

def endsPhrase (d c : Char) : Bool := c == d || c == '\\'

section Scanners

/-- Splits off a word of a fixed spelling, in letters of any case. -/
def takeKeyword? (word cs : List Char) : Option (List Char) :=
  if (cs.take word.length).map Char.toLower = word then some (cs.drop word.length) else none

/-- Splits off a name of which the first character is one of its own. -/
def takeName? (first : Char → Bool) : List Char → Option (List Char × List Char)
  | [] => none
  | c :: cs =>
    if first c then some (c :: cs.takeWhile isNameChar, cs.dropWhile isNameChar) else none

/-- Splits off a name that begins with a letter or an underscore. -/
def takeFieldName? : List Char → Option (List Char × List Char) := takeName? isNameStart

/-- Splits off a name that begins with any of its characters. -/
def takeFlagName? : List Char → Option (List Char × List Char) := takeName? isNameChar

/-- Splits off a phrase between two delimiters. If its inside cannot be read the
phrase is empty or no phrase at all. -/
def takePhrase? (d : Char) : List Char → Option (Word × List Char)
  | [] => none
  | c :: cs =>
    if c = d then
      let inside := (unescape (endsPhrase d) cs).getD ([], cs)
      match inside.2 with
      | [] => none
      | e :: rest => if e = d then some (⟨inside.1, true⟩, rest) else none
    else none

def takeBare? (d : Char) (cs : List Char) : Option (Word × List Char) :=
  match unescape (endsWord d) cs with
  | some (c :: text, rest) => some (⟨c :: text, false⟩, rest)
  | _ => none

def takeWord? (d : Char) (cs : List Char) : Option (Word × List Char) :=
  takePhrase? d cs <|> takeBare? d cs

def takeGap? : List Char → Option (List Char)
  | [] => none
  | c :: cs => if isGap c then some (cs.dropWhile isGap) else none

def takeOr? (cs : List Char) : Option (List Char) :=
  ((takeGap? cs).bind (takeKeyword? ['o', 'r'])).bind takeGap?

end Scanners

section Lengths

variable {d : Char} {cs rest name : List Char} {w : Word}

theorem length_lt_of_takeName {first : Char → Bool} (h : takeName? first cs = some (name, rest)) :
    rest.length < cs.length := by
  unfold takeName? at h
  split at h
  · simp at h
  · split at h
    · simp only [Option.some.injEq, Prod.mk.injEq] at h
      rw [← h.2, List.length_cons]
      exact Nat.lt_succ_of_le (List.dropWhile_sublist _).length_le
    · simp at h

/-- What was found between the delimiters of a phrase, which is nothing if it cannot be read. -/
theorem exists_inside_of_takePhrase (h : takePhrase? d cs = some (w, rest)) :
    ∃ inside text, cs = d :: inside ∧ w = ⟨text, true⟩ ∧
      (unescape (endsPhrase d) inside).getD ([], inside) = (text, d :: rest) := by
  unfold takePhrase? at h
  split at h
  · simp at h
  · rename_i c inside
    split at h
    · rename_i hopening
      generalize hread : (unescape (endsPhrase d) inside).getD ([], inside) = found at h
      simp only at h
      split at h
      · simp at h
      · rename_i e r hbehind
        split at h
        · rename_i hclosing
          obtain ⟨rfl, rfl⟩ := Prod.mk.inj (Option.some.inj h)
          exact ⟨inside, found.1, by rw [hopening], rfl, by rw [hread, ← hclosing, ← hbehind]⟩
        · simp at h
    · simp at h

theorem length_lt_of_takePhrase (h : takePhrase? d cs = some (w, rest)) :
    rest.length < cs.length := by
  obtain ⟨inside, text, rfl, -, hinside⟩ := exists_inside_of_takePhrase h
  cases hread : unescape (endsPhrase d) inside with
  | none =>
    obtain ⟨-, rfl⟩ : [] = text ∧ inside = d :: rest := by simpa [hread] using hinside
    simp only [List.length_cons]
    omega
  | some r =>
    obtain rfl : r = (text, d :: rest) := by simpa [hread] using hinside
    have hle := length_le_of_unescape hread
    simp only [List.length_cons] at *
    omega

theorem length_lt_of_takeBare (h : takeBare? d cs = some (w, rest)) :
    rest.length < cs.length := by
  unfold takeBare? at h
  split at h
  · rename_i c text r hu
    have := length_le_of_unescape hu
    simp only [Option.some.injEq, Prod.mk.injEq] at h
    rw [← h.2]
    simp only [List.length_cons] at this
    omega
  · simp at h

theorem takeWord_eq_some (h : takeWord? d cs = some (w, rest)) :
    takePhrase? d cs = some (w, rest) ∨ takeBare? d cs = some (w, rest) := by
  simp only [takeWord?, Option.orElse_eq_orElse, Option.orElse_eq_or, Option.or_eq_some_iff] at h
  exact h.imp_right And.right

theorem length_lt_of_takeWord (h : takeWord? d cs = some (w, rest)) :
    rest.length < cs.length := by
  rcases takeWord_eq_some h with h | h
  · exact length_lt_of_takePhrase h
  · exact length_lt_of_takeBare h

theorem length_lt_of_takeGap (h : takeGap? cs = some rest) : rest.length < cs.length := by
  unfold takeGap? at h
  split at h
  · simp at h
  · split at h
    · simp only [Option.some.injEq] at h
      rw [← h, List.length_cons]
      exact Nat.lt_succ_of_le (List.dropWhile_sublist _).length_le
    · simp at h

theorem length_le_of_takeKeyword {word : List Char} (h : takeKeyword? word cs = some rest) :
    rest.length ≤ cs.length := by
  unfold takeKeyword? at h
  split at h
  · rw [← Option.some.inj h]
    exact (List.drop_sublist _ _).length_le
  · simp at h

theorem length_lt_of_takeOr (h : takeOr? cs = some rest) : rest.length < cs.length := by
  unfold takeOr? at h
  obtain ⟨behind, hbehind, hlast⟩ := Option.bind_eq_some_iff.1 h
  obtain ⟨before, hfirst, hword⟩ := Option.bind_eq_some_iff.1 hbehind
  have hbefore := length_lt_of_takeGap hfirst
  have hle := length_le_of_takeKeyword hword
  have hlt := length_lt_of_takeGap hlast
  omega

end Lengths

/-- The values of a group behind the first one, each behind an `or`. -/
def takeAlternatives (d : Char) (cs : List Char) : List Word × List Char :=
  match _ho : takeOr? cs with
  | none => ([], cs)
  | some next =>
    match _hw : takeWord? d next with
    | none => ([], cs)
    | some (w, rest) =>
      let more := takeAlternatives d rest
      (w :: more.1, more.2)
termination_by cs.length
decreasing_by
  have := length_lt_of_takeOr _ho
  have := length_lt_of_takeWord _hw
  omega

theorem length_le_of_takeAlternatives (d : Char) (cs : List Char) :
    (takeAlternatives d cs).2.length ≤ cs.length := by
  fun_induction takeAlternatives d cs with
  | case1 => simp
  | case2 => simp
  | case3 cs next ho w rest hw more ih =>
    have := length_lt_of_takeOr ho
    have := length_lt_of_takeWord hw
    show (takeAlternatives d rest).2.length ≤ _
    omega

/-- Splits off the values of a group, from bracket to bracket. -/
def takeValues? (d : Char) : List Char → Option (List Word × List Char)
  | '(' :: cs =>
    (takeWord? d (cs.dropWhile isGap)).bind fun first =>
      let more := takeAlternatives d first.2
      match more.2.dropWhile isGap with
      | ')' :: rest => some (first.1 :: more.1, rest)
      | _ => none
  | _ => none

/-- What was found between the brackets of a group. -/
theorem exists_values_of_takeValues {d : Char} {cs rest : List Char} {ws : List Word}
    (h : takeValues? d cs = some (ws, rest)) : ∃ inside w behind, cs = '(' :: inside ∧
      takeWord? d (inside.dropWhile isGap) = some (w, behind) ∧
      (takeAlternatives d behind).2.dropWhile isGap = ')' :: rest ∧
      ws = w :: (takeAlternatives d behind).1 := by
  unfold takeValues? at h
  split at h
  · rename_i inside
    obtain ⟨⟨w, behind⟩, hword, h⟩ := Option.bind_eq_some_iff.1 h
    simp only at h
    split at h
    · rename_i r hclose
      obtain ⟨rfl, rfl⟩ := Prod.mk.inj (Option.some.inj h)
      exact ⟨inside, w, behind, rfl, hword, hclose, rfl⟩
    · simp at h
  · simp at h

theorem length_lt_of_takeValues {d : Char} {cs rest : List Char} {ws : List Word}
    (h : takeValues? d cs = some (ws, rest)) : rest.length < cs.length := by
  obtain ⟨inside, w, behind, rfl, hword, hclose, -⟩ := exists_values_of_takeValues h
  have hopening := (List.dropWhile_sublist isGap (l := inside)).length_le
  have hvalue := length_lt_of_takeWord hword
  have hvalues := length_le_of_takeAlternatives d behind
  have hclosing := (List.dropWhile_sublist isGap (l := (takeAlternatives d behind).2)).length_le
  rw [hclose] at hclosing
  simp only [List.length_cons] at *
  omega

namespace Draft

def takeFlag? (cs : List Char) : Option (Draft × List Char) :=
  (takeKeyword? ['i', 's', ':'] cs).bind fun rest =>
    (takeFlagName? rest).map fun r => (flag r.1, r.2)

def takeGroup? (d : Char) (cs : List Char) : Option (Draft × List Char) :=
  (takeFieldName? cs).bind fun name =>
    match name.2 with
    | ':' :: rest => (takeValues? d rest).map fun r => (group name.1 r.1, r.2)
    | _ => none

def takeComparison? (d : Char) (cs : List Char) : Option (Draft × List Char) :=
  (takeFieldName? cs).bind fun name => (Operator.take? name.2).bind fun op =>
    (takeWord? d op.2).map fun r => (field name.1 op.1 r.1, r.2)

/-- A comparison of which the value is missing: the text or a gap follows. -/
def takeMissing? (cs : List Char) : Option (Draft × List Char) :=
  (takeFieldName? cs).bind fun name => (Operator.take? name.2).bind fun op =>
    if op.2.head?.all isGap then some (missing name.1 op.1, op.2) else none

def takeTerm? (d : Char) (cs : List Char) : Option (Draft × List Char) :=
  (takeWord? d cs).map fun r => (term r.1, r.2)

/-- Splits off the first kind of draft that a text begins with. -/
def take? (d : Char) (cs : List Char) : Option (Draft × List Char) :=
  takeFlag? cs <|> takeGroup? d cs <|> takeComparison? d cs <|> takeMissing? cs <|> takeTerm? d cs

/-- The ways to take a draft from the front of a text, with what the scanners find there. No
kind that is tried before is found. -/
inductive Takes (d : Char) (cs : List Char) : Draft → List Char → Prop
  | flag {after name rest : List Char} (hword : takeKeyword? ['i', 's', ':'] cs = some after)
      (hname : takeFlagName? after = some (name, rest)) : Takes d cs (.flag name) rest
  | group {name after rest : List Char} {ws : List Word} (hflag : takeFlag? cs = none)
      (hname : takeFieldName? cs = some (name, ':' :: after))
      (hvalues : takeValues? d after = some (ws, rest)) : Takes d cs (.group name ws) rest
  | field {name behind after rest : List Char} {op : Operator} {w : Word}
      (hflag : takeFlag? cs = none) (hgroup : takeGroup? d cs = none)
      (hname : takeFieldName? cs = some (name, behind))
      (hop : Operator.take? behind = some (op, after))
      (hvalue : takeWord? d after = some (w, rest)) : Takes d cs (.field name op w) rest
  | missing {name behind rest : List Char} {op : Operator} (hflag : takeFlag? cs = none)
      (hgroup : takeGroup? d cs = none) (hfield : takeComparison? d cs = none)
      (hname : takeFieldName? cs = some (name, behind))
      (hop : Operator.take? behind = some (op, rest)) (hend : rest.head?.all isGap = true) :
      Takes d cs (.missing name op) rest
  | term {rest : List Char} {w : Word} (hflag : takeFlag? cs = none)
      (hgroup : takeGroup? d cs = none) (hfield : takeComparison? d cs = none)
      (hmissing : takeMissing? cs = none) (hvalue : takeWord? d cs = some (w, rest)) :
      Takes d cs (.term w) rest

variable {d : Char} {cs rest : List Char} {draft : Draft}

/-- Every draft is taken in the way of its kind. -/
theorem takes_of_take? (h : take? d cs = some (draft, rest)) : Takes d cs draft rest := by
  unfold take? at h
  simp only [Option.orElse_eq_orElse, Option.orElse_eq_or, Option.or_eq_some_iff] at h
  rcases h with hfound | ⟨hflag, hfound | ⟨hgroup, hfound | ⟨hfield, hfound | ⟨hmissing, hfound⟩⟩⟩⟩
  · obtain ⟨after, hword, h⟩ := Option.bind_eq_some_iff.1 hfound
    obtain ⟨⟨name, r⟩, hname, h⟩ := Option.map_eq_some_iff.1 h
    obtain ⟨rfl, rfl⟩ := Prod.mk.inj h
    exact .flag hword hname
  · obtain ⟨⟨name, behind⟩, hname, h⟩ := Option.bind_eq_some_iff.1 hfound
    split at h
    · rename_i after hcolon
      obtain ⟨⟨ws, r⟩, hvalues, h⟩ := Option.map_eq_some_iff.1 h
      obtain ⟨rfl, rfl⟩ := Prod.mk.inj h
      obtain rfl : behind = ':' :: after := hcolon
      exact .group hflag hname hvalues
    · simp at h
  · obtain ⟨⟨name, behind⟩, hname, h⟩ := Option.bind_eq_some_iff.1 hfound
    obtain ⟨⟨op, after⟩, hop, h⟩ := Option.bind_eq_some_iff.1 h
    obtain ⟨⟨w, r⟩, hvalue, h⟩ := Option.map_eq_some_iff.1 h
    obtain ⟨rfl, rfl⟩ := Prod.mk.inj h
    exact .field hflag hgroup hname hop hvalue
  · obtain ⟨⟨name, behind⟩, hname, h⟩ := Option.bind_eq_some_iff.1 hfound
    obtain ⟨⟨op, after⟩, hop, h⟩ := Option.bind_eq_some_iff.1 h
    split at h
    · rename_i hend
      obtain ⟨rfl, rfl⟩ := Prod.mk.inj (Option.some.inj h)
      exact .missing hflag hgroup hfield hname hop hend
    · simp at h
  · obtain ⟨⟨w, r⟩, hvalue, h⟩ := Option.map_eq_some_iff.1 hfound
    obtain ⟨rfl, rfl⟩ := Prod.mk.inj h
    exact .term hflag hgroup hfield hmissing hvalue

theorem length_lt_of_take? (h : take? d cs = some (draft, rest)) : rest.length < cs.length := by
  cases takes_of_take? h with
  | flag hword hname =>
    have hle := length_le_of_takeKeyword hword
    have hlt := length_lt_of_takeName hname
    omega
  | group _ hname hvalues =>
    have hcolon := length_lt_of_takeName hname
    have hlt := length_lt_of_takeValues hvalues
    rw [List.length_cons] at hcolon
    omega
  | field _ _ hname hop hvalue =>
    have hbehind := length_lt_of_takeName hname
    have hafter := Operator.length_lt_of_take? hop
    have hlt := length_lt_of_takeWord hvalue
    omega
  | missing _ _ _ hname hop =>
    have hbehind := length_lt_of_takeName hname
    have hlt := Operator.length_lt_of_take? hop
    omega
  | term _ _ _ _ hvalue => exact length_lt_of_takeWord hvalue

end Draft

end SearchBar
