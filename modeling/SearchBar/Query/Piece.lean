import SearchBar.Query.Diagnostic
import SearchBar.Query.Draft

/-! # Pieces of a query text

A query text is cut into pieces between blanks. A piece is a draft if one ends in
front of a blank or at the end of the text; otherwise it is a fault, and cutting
goes on behind it.
-/

namespace SearchBar

open Text

def firstToken (cs : List Char) : List Char := cs.takeWhile fun c => !isBlank c

def afterToken (cs : List Char) : List Char := cs.dropWhile fun c => !isBlank c

theorem firstToken_append_afterToken (cs : List Char) : firstToken cs ++ afterToken cs = cs :=
  List.takeWhile_append_dropWhile

/-- A text that begins with no clause: what is wrong with it, and where to go on. An
open phrase and an open group reach to the end of the text. -/
def recover (d : Char) (cs : List Char) : Fault × List Char :=
  if (firstToken cs).contains d && countUnescaped d cs % 2 == 1 then (.openPhrase d, [])
  else if (firstToken cs).contains '(' then
    match cs.dropWhile (· != ')') with
    | [] => (.openGroup, [])
    | close :: rest =>
      (.badGroup (String.ofList (cs.takeWhile (· != ')') ++ close :: firstToken rest)),
        afterToken rest)
  else (.unexpected (String.ofList (firstToken cs)), afterToken cs)

theorem length_recover_lt {d c : Char} {cs : List Char} (hc : isBlank c = false) :
    (recover d (c :: cs)).2.length < (c :: cs).length := by
  unfold recover
  split
  · simp
  · split
    · split
      · simp
      · rename_i close rest h
        have h1 := (List.dropWhile_sublist (· != ')') (l := c :: cs)).length_le
        have h2 : (afterToken rest).length ≤ rest.length := (List.dropWhile_sublist _).length_le
        rw [h, List.length_cons] at h1
        show (afterToken rest).length < _
        omega
    · have h2 : (afterToken cs).length ≤ cs.length := (List.dropWhile_sublist _).length_le
      simp only [afterToken, List.dropWhile_cons, hc, Bool.not_false, if_true, List.length_cons]
      exact Nat.lt_succ_of_le h2

def takeSigned? (d : Char) : List Char → Option (Bool × Draft × List Char)
  | '-' :: cs => (Draft.take? d cs).map fun r => (true, r)
  | cs => (Draft.take? d cs).map fun r => (false, r)

section Signs

variable {d : Char} {cs rest : List Char} {negated : Bool} {draft : Draft}

/-- A minus in front of a draft negates it and is taken with it. -/
theorem takeSigned_cases (h : takeSigned? d cs = some (negated, draft, rest)) :
    (∃ body, cs = '-' :: body ∧ negated = true ∧ Draft.take? d body = some (draft, rest)) ∨
      cs.head? ≠ some '-' ∧ negated = false ∧ Draft.take? d cs = some (draft, rest) := by
  unfold takeSigned? at h
  split at h
  · rename_i body
    obtain ⟨⟨taken, r⟩, htake, h⟩ := Option.map_eq_some_iff.1 h
    simp only [Prod.mk.injEq] at h
    obtain ⟨rfl, rfl, rfl⟩ := h
    exact .inl ⟨body, rfl, rfl, htake⟩
  · rename_i hminus
    obtain ⟨⟨taken, r⟩, htake, h⟩ := Option.map_eq_some_iff.1 h
    simp only [Prod.mk.injEq] at h
    obtain ⟨rfl, rfl, rfl⟩ := h
    refine .inr ⟨fun hhead => ?_, rfl, htake⟩
    obtain ⟨body, hbody⟩ := List.head?_eq_some_iff.1 hhead
    exact hminus body hbody

theorem length_lt_of_takeSigned (h : takeSigned? d cs = some (negated, draft, rest)) :
    rest.length < cs.length := by
  rcases takeSigned_cases h with ⟨body, rfl, -, htake⟩ | ⟨-, -, htake⟩
  · exact Nat.lt_succ_of_lt (Draft.length_lt_of_take? htake)
  · exact Draft.length_lt_of_take? htake

end Signs

/-- A stretch of a text, from byte to byte, and the signed draft or the fault that it
holds. -/
structure Piece where
  start : Nat
  stop : Nat
  content : Except Fault (Bool × Draft)

/-- What a text without blanks in front of it begins with, and where to go on. -/
def takePiece (d : Char) (cs : List Char) : Except Fault (Bool × Draft) × List Char :=
  match takeSigned? d cs with
  | some (negated, draft, rest) =>
    if atBoundary rest then (.ok (negated, draft), rest)
    else (.error (recover d cs).1, (recover d cs).2)
  | none => (.error (recover d cs).1, (recover d cs).2)

/-- A piece is a draft in front of a blank or of the end of the text, or it is recovered. -/
theorem taken_or_recovered (d : Char) (cs : List Char) :
    (∃ negated draft rest, takeSigned? d cs = some (negated, draft, rest) ∧
      atBoundary rest = true ∧ takePiece d cs = (.ok (negated, draft), rest)) ∨
    takePiece d cs = (.error (recover d cs).1, (recover d cs).2) := by
  unfold takePiece
  split
  · rename_i negated draft rest htake
    split
    · rename_i hrest
      exact .inl ⟨negated, draft, rest, htake, hrest, rfl⟩
    · exact .inr rfl
  · exact .inr rfl

theorem length_takePiece_lt {d c : Char} {cs : List Char} (hc : isBlank c = false) :
    (takePiece d (c :: cs)).2.length < (c :: cs).length := by
  obtain ⟨negated, draft, rest, htake, -, hpiece⟩ | hpiece := taken_or_recovered d (c :: cs)
  · rw [hpiece]
    exact length_lt_of_takeSigned htake
  · rw [hpiece]
    exact length_recover_lt hc

theorem takeSigned_of_takePiece {d : Char} {cs : List Char} {negated : Bool} {draft : Draft}
    (h : (takePiece d cs).1 = .ok (negated, draft)) :
    takeSigned? d cs = some (negated, draft, (takePiece d cs).2) ∧
      atBoundary (takePiece d cs).2 = true := by
  obtain ⟨negated', draft', rest, htake, hrest, hpiece⟩ | hpiece := taken_or_recovered d cs
  · rw [hpiece] at h ⊢
    obtain ⟨rfl, rfl⟩ := Prod.mk.inj (Except.ok.inj h)
    exact ⟨htake, hrest⟩
  · simp [hpiece] at h

/-- The pieces of a text that stands `offset` bytes behind the beginning. -/
def pieces (d : Char) (offset : Nat) (cs : List Char) : List Piece :=
  match _h : trimStart cs with
  | [] => []
  | c :: body =>
    let start := offset + byteLength (cs.takeWhile isBlank)
    let found := takePiece d (c :: body)
    let stop := start + (byteLength (c :: body) - byteLength found.2)
    ⟨start, stop, found.1⟩ :: pieces d stop found.2
termination_by cs.length
decreasing_by
  have h1 := @length_takePiece_lt d c body (trimStart_eq_cons _h)
  have h2 := length_trimStart_le cs
  rw [_h] at h2
  omega

end SearchBar
