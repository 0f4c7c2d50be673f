import SearchBar.Record.Json

/-! # Comma-separated records

A field may stand between quotes, and a quote inside is then written twice. Any
carriage return or line feed outside quotes ends a row, and rows without a character
are skipped. The first row names the fields of the others, all of which have as many
fields as it has.
-/

namespace SearchBar.Csv

def isRowEnd (c : Char) : Bool := c == '\n' || c == '\r'

inductive FieldEnd
  | comma
  | row
  | text
deriving DecidableEq, Repr

/-- The rest of a field outside quotes, its end, and the text behind. -/
def takeBare : List Char → List Char × FieldEnd × List Char
  | [] => ([], .text, [])
  | c :: rest =>
    if c = ',' then ([], .comma, rest)
    else if isRowEnd c then ([], .row, rest)
    else
      let r := takeBare rest
      (c :: r.1, r.2)

/-- The rest of a field inside quotes. Characters behind the closing quote belong to
the field as well, and a quote that is not closed runs to the end of the text. -/
def takeQuoted : List Char → List Char × FieldEnd × List Char
  | [] => ([], .text, [])
  | '"' :: '"' :: rest =>
    let r := takeQuoted rest
    ('"' :: r.1, r.2)
  | '"' :: rest => takeBare rest
  | c :: rest =>
    let r := takeQuoted rest
    (c :: r.1, r.2)

def takeField : List Char → List Char × FieldEnd × List Char
  | '"' :: rest => takeQuoted rest
  | cs => takeBare cs

theorem takeBare_length (cs : List Char) :
    (takeBare cs).2.2.length + (if (takeBare cs).2.1 = .text then 0 else 1) ≤ cs.length := by
  induction cs with
  | nil => simp [takeBare]
  | cons c rest ih =>
    unfold takeBare
    split
    · simp
    · split
      · simp
      · simp only [List.length_cons]
        omega

theorem takeQuoted_length (cs : List Char) :
    (takeQuoted cs).2.2.length + (if (takeQuoted cs).2.1 = .text then 0 else 1) ≤ cs.length := by
  fun_induction takeQuoted cs with
  | case1 => simp
  | case2 rest r ih => exact Nat.le_succ_of_le (Nat.le_succ_of_le ih)
  | case3 rest => exact Nat.le_succ_of_le (takeBare_length rest)
  | case4 c rest _ _ r ih => exact Nat.le_succ_of_le ih

theorem takeField_length (cs : List Char) :
    (takeField cs).2.2.length + (if (takeField cs).2.1 = .text then 0 else 1) ≤ cs.length := by
  unfold takeField
  split
  · exact Nat.le_succ_of_le (takeQuoted_length _)
  · exact takeBare_length _

def takeRow (cs : List Char) : List (List Char) × List Char :=
  match _h : takeField cs with
  | (field, .comma, rest) =>
    let r := takeRow rest
    (field :: r.1, r.2)
  | (field, .row, rest) => ([field], rest)
  | (field, .text, _) => ([field], [])
termination_by cs.length
decreasing_by
  have := takeField_length cs
  simp only [_h, reduceCtorEq, if_false] at this
  omega

theorem takeRow_length (cs : List Char) (h : cs ≠ []) : (takeRow cs).2.length < cs.length := by
  fun_induction takeRow cs with
  | case1 cs field rest hf r ih =>
    have := takeField_length cs
    simp only [hf, reduceCtorEq, if_false] at this
    by_cases hr : rest = []
    · subst hr
      simp only [r]
      simp [takeRow, takeField, takeBare, List.length_pos_iff.2 h]
    · have := ih hr
      simp only [r]
      omega
  | case2 cs field rest hf =>
    have := takeField_length cs
    simp only [hf, reduceCtorEq, if_false] at this
    exact this
  | case3 cs field rest hf => exact List.length_pos_iff.2 h

def rows : List Char → List (List (List Char))
  | [] => []
  | c :: rest =>
    if isRowEnd c then rows rest
    else (takeRow (c :: rest)).1 :: rows (takeRow (c :: rest)).2
termination_by cs => cs.length
decreasing_by
  · exact Nat.lt_succ_self _
  · exact takeRow_length _ (List.cons_ne_nil _ _)

def record? (names row : List (List Char)) : Option Json :=
  if row.length = names.length then
    some (.ofMembers ((names.zip row).map fun m => (String.ofList m.1, .str (String.ofList m.2))))
  else none

/-- The records of a text, in front of which a mark of the byte order may stand. -/
def read? (cs : List Char) : Option (List Json) :=
  match rows (if cs.head? == some '\ufeff' then cs.drop 1 else cs) with
  | [] => some []
  | names :: rest => rest.mapM (record? names)

end SearchBar.Csv
