import SearchBar.Calendar.Date
import SearchBar.Number.Decimal
import SearchBar.Settings.Toml

/-! # Reading settings documents

The reader turns a text into lines and the lines into a table. Arrays and tables
between braces are nested no deeper than 79, and a key has no more parts than that.
-/

namespace SearchBar.Toml

def depthLimit : Nat := 79

section Layout

def isSpace (c : Char) : Bool := c == ' ' || c == '\t'

def dropSpace (cs : List Char) : List Char := cs.dropWhile isSpace

/-- A character that may stand in a text and in a comment. -/
def isPlain (c : Char) : Bool := c == '\t' || (decide (' ' ≤ c) && c != '\x7f')

def takeNewLine? : List Char → Option (List Char)
  | '\n' :: rest => some rest
  | '\r' :: '\n' :: rest => some rest
  | _ => none

def dropComment : List Char → List Char
  | '#' :: rest => rest.dropWhile isPlain
  | cs => cs

/-- The rest behind the end of a line, in front of which a comment may stand. -/
def endLine? (cs : List Char) : Option (List Char) :=
  match dropComment (dropSpace cs) with
  | [] => some []
  | rest => takeNewLine? rest

theorem takeNewLine?_length {cs rest : List Char} (h : takeNewLine? cs = some rest) :
    rest.length < cs.length := by
  unfold takeNewLine? at h
  split at h
  · cases h
    exact Nat.lt_succ_self _
  · cases h
    exact Nat.lt_succ_of_lt (Nat.lt_succ_self _)
  · cases h

theorem dropSpace_length (cs : List Char) : (dropSpace cs).length ≤ cs.length :=
  (List.dropWhile_suffix _).length_le

theorem dropComment_length (cs : List Char) : (dropComment cs).length ≤ cs.length := by
  unfold dropComment
  split
  · exact Nat.le_succ_of_le (List.dropWhile_suffix _).length_le
  · exact Nat.le_refl _

def skipLines (cs : List Char) : List Char :=
  match _h : takeNewLine? (dropComment (dropSpace cs)) with
  | some rest => skipLines rest
  | none => dropSpace cs
termination_by cs.length
decreasing_by
  have := takeNewLine?_length _h
  have := dropComment_length (dropSpace cs)
  have := dropSpace_length cs
  omega

end Layout

section Texts

/-- The number that the first `n` characters write with sixteen digits. -/
def takeHex? : Nat → Nat → List Char → Option (Nat × List Char)
  | 0, value, cs => some (value, cs)
  | _ + 1, _, [] => none
  | n + 1, value, c :: cs => (hexDigit? c).bind fun d => takeHex? n (value * 16 + d) cs

def takeCode? (digits : Nat) (cs : List Char) : Option (Char × List Char) :=
  (takeHex? digits 0 cs).bind fun r =>
    if r.1.isValidChar then some (.ofNat r.1, r.2) else none

def takeEscape? : List Char → Option (Char × List Char)
  | 'b' :: rest => some ('\x08', rest)
  | 't' :: rest => some ('\t', rest)
  | 'n' :: rest => some ('\n', rest)
  | 'f' :: rest => some ('\x0c', rest)
  | 'r' :: rest => some ('\r', rest)
  | '"' :: rest => some ('"', rest)
  | '\\' :: rest => some ('\\', rest)
  | 'u' :: rest => takeCode? 4 rest
  | 'U' :: rest => takeCode? 8 rest
  | _ => none

theorem takeHex?_length {n value : Nat} {cs : List Char} {r : Nat × List Char}
    (h : takeHex? n value cs = some r) : r.2.length ≤ cs.length := by
  induction n generalizing value cs with
  | zero =>
    simp only [takeHex?, Option.some.injEq] at h
    simp [← h]
  | succ n ih =>
    cases cs with
    | nil => simp [takeHex?] at h
    | cons c cs =>
      obtain ⟨d, _, hd⟩ := Option.bind_eq_some_iff.1 h
      exact Nat.le_succ_of_le (ih hd)

theorem takeCode?_length {n : Nat} {cs : List Char} {r : Char × List Char}
    (h : takeCode? n cs = some r) : r.2.length ≤ cs.length := by
  obtain ⟨s, hs, hr⟩ := Option.bind_eq_some_iff.1 h
  have := takeHex?_length hs
  split at hr <;> simp_all
  simp [← hr, this]

theorem takeEscape?_length {cs : List Char} {r : Char × List Char}
    (h : takeEscape? cs = some r) : r.2.length < cs.length := by
  unfold takeEscape? at h
  split at h <;>
    first
    | (simp only [Option.some.injEq] at h; simp [← h])
    | exact Nat.lt_succ_of_le (takeCode?_length h)
    | simp at h

/-- Reads a text between quotes behind its opening quote. -/
def readQuoted? (cs : List Char) : Option (List Char × List Char) :=
  match cs with
  | [] => none
  | '"' :: rest => some ([], rest)
  | '\\' :: rest =>
    match _h : takeEscape? rest with
    | some (c, rest') => (readQuoted? rest').map fun r => (c :: r.1, r.2)
    | none => none
  | c :: rest => if isPlain c then (readQuoted? rest).map fun r => (c :: r.1, r.2) else none
termination_by cs.length
decreasing_by
  · have := takeEscape?_length _h
    simp_all
    omega
  · simp

/-- Reads a text between apostrophes, in which a backslash means itself. -/
def readLiteral? : List Char → Option (List Char × List Char)
  | [] => none
  | c :: rest =>
    if c = '\x27' then some ([], rest)
    else if isPlain c then (readLiteral? rest).map fun r => (c :: r.1, r.2)
    else none

/-- The end of a text of many lines: three marks, in front of which one or two more
may stand that belong to the text. -/
def endLong? (mark : Char) : List Char → Option (List Char × List Char)
  | a :: b :: c :: rest =>
    if a = mark ∧ b = mark ∧ c = mark then
      match rest with
      | d :: e :: rest' =>
        if d = mark ∧ e = mark then some ([mark, mark], rest')
        else if d = mark then some ([mark], e :: rest')
        else some ([], rest)
      | [d] => if d = mark then some ([mark], []) else some ([], rest)
      | [] => some ([], [])
    else none
  | _ => none

/-- Skips the line ends and spaces behind a backslash that ends a line. -/
def dropLines (cs : List Char) : List Char :=
  match _h : takeNewLine? (dropSpace cs) with
  | some rest => dropLines rest
  | none => dropSpace cs
termination_by cs.length
decreasing_by
  have := takeNewLine?_length _h
  have := dropSpace_length cs
  omega

theorem dropLines_length (cs : List Char) : (dropLines cs).length ≤ cs.length := by
  fun_induction dropLines cs with
  | case1 cs rest h ih =>
    have := takeNewLine?_length h
    have := dropSpace_length cs
    omega
  | case2 cs h => exact dropSpace_length cs

/-- Reads a text of many lines behind its opening quotes. -/
def readLongQuoted? (cs : List Char) : Option (List Char × List Char) :=
  match endLong? '"' cs with
  | some r => some r
  | none =>
    match cs with
    | [] => none
    | '\\' :: rest =>
      match _h : takeNewLine? (dropSpace rest) with
      | some rest' => readLongQuoted? (dropLines rest')
      | none =>
        match _h : takeEscape? rest with
        | some (c, rest') => (readLongQuoted? rest').map fun r => (c :: r.1, r.2)
        | none => none
    | c :: rest =>
      match _h : takeNewLine? (c :: rest) with
      | some rest' => (readLongQuoted? rest').map fun r => ('\n' :: r.1, r.2)
      | none =>
        if isPlain c then (readLongQuoted? rest).map fun r => (c :: r.1, r.2) else none
termination_by cs.length
decreasing_by
  · have := takeNewLine?_length _h
    have := dropLines_length rest'
    have := dropSpace_length rest
    simp only [List.length_cons]
    omega
  · exact Nat.lt_succ_of_lt (takeEscape?_length _h)
  · exact takeNewLine?_length _h
  · simp

/-- Reads a text of many lines behind its opening apostrophes. -/
def readLongLiteral? (cs : List Char) : Option (List Char × List Char) :=
  match endLong? '\x27' cs with
  | some r => some r
  | none =>
    match cs with
    | [] => none
    | c :: rest =>
      match _h : takeNewLine? (c :: rest) with
      | some rest' => (readLongLiteral? rest').map fun r => ('\n' :: r.1, r.2)
      | none =>
        if isPlain c then (readLongLiteral? rest).map fun r => (c :: r.1, r.2) else none
termination_by cs.length
decreasing_by
  · exact takeNewLine?_length _h
  · simp

/-- A line end right behind the opening marks of a text of many lines is dropped. -/
def dropFirstNewLine (cs : List Char) : List Char := (takeNewLine? cs).getD cs

def readText? : List Char → Option (List Char × List Char)
  | '"' :: '"' :: '"' :: rest => readLongQuoted? (dropFirstNewLine rest)
  | '"' :: rest => readQuoted? rest
  | '\x27' :: '\x27' :: '\x27' :: rest => readLongLiteral? (dropFirstNewLine rest)
  | '\x27' :: rest => readLiteral? rest
  | _ => none

end Texts

section Keys

def isBare (c : Char) : Bool := c.isAlphanum || c == '_' || c == '-'

/-- One part of a key: a text of one line, or bare characters. -/
def takeName? : List Char → Option (String × List Char)
  | '"' :: rest => (readQuoted? rest).map fun r => (String.ofList r.1, r.2)
  | '\x27' :: rest => (readLiteral? rest).map fun r => (String.ofList r.1, r.2)
  | cs =>
    let name := cs.takeWhile isBare
    if name.isEmpty then none else some (String.ofList name, cs.dropWhile isBare)

/-- A key of no more than `limit` parts, with the spaces around its parts. -/
def takeKey? : Nat → List Char → Option (Key × List Char)
  | 0, _ => none
  | limit + 1, cs => (takeName? (dropSpace cs)).bind fun r =>
    match dropSpace r.2 with
    | '.' :: rest => (takeKey? limit rest).map fun k =>
      ({ path := r.1 :: k.1.path, name := k.1.name }, k.2)
    | rest => some ({ path := [], name := r.1 }, rest)

end Keys

section Scalars

/-- Digits, between which single underscores may stand; the digits alone. -/
def ungroup? (digit : Char → Bool) : List Char → Option (List Char)
  | [] => none
  | [c] => if digit c then some [c] else none
  | c :: '_' :: rest => if digit c then (ungroup? digit rest).map (c :: ·) else none
  | c :: rest => if digit c then (ungroup? digit rest).map (c :: ·) else none

def wholeDigits? (cs : List Char) : Option (List Char) :=
  (ungroup? Char.isDigit cs).bind fun ds =>
    if ds.head? == some '0' && decide (1 < ds.length) then none else some ds

def radixValue (radix : Nat) (digits : List Char) : Nat :=
  digits.foldl (fun n c => n * radix + (hexDigit? c).getD 0) 0

def readRadix? (radix : Nat) (digit : Char → Bool) (cs : List Char) : Option Int :=
  (ungroup? digit cs).bind fun ds =>
    if radixValue radix ds < 2 ^ 63 then some (radixValue radix ds) else none

/-- An integer of 64 bits. -/
def readInt? : List Char → Option Int
  | '0' :: 'x' :: cs => readRadix? 16 (fun c => (hexDigit? c).isSome) cs
  | '0' :: 'o' :: cs => readRadix? 8 (fun c => decide ('0' ≤ c ∧ c ≤ '7')) cs
  | '0' :: 'b' :: cs => readRadix? 2 (fun c => c == '0' || c == '1') cs
  | cs =>
    let (negative, cs) := Decimal.takeSign cs
    (wholeDigits? cs).bind fun ds =>
      let n := Decimal.natOfDigits ds
      if negative then if n ≤ 2 ^ 63 then some (-(n : Int)) else none
      else if n < 2 ^ 63 then some n else none

def exponentDigits? (cs : List Char) : Option (List Char) :=
  let (negative, cs) := Decimal.takeSign cs
  (ungroup? Char.isDigit cs).map fun ds => if negative then '-' :: ds else ds

def isExponentMark (c : Char) : Bool := c == 'e' || c == 'E'

/-- The text of a number that has a fraction or an exponent, without underscores. -/
def floatText? (cs : List Char) : Option (List Char) :=
  let whole := cs.takeWhile fun c => c != '.' && !isExponentMark c
  let rest := cs.dropWhile fun c => c != '.' && !isExponentMark c
  (wholeDigits? whole).bind fun ds =>
    match rest with
    | [] => none
    | '.' :: rest =>
      let part := rest.takeWhile fun c => !isExponentMark c
      (ungroup? Char.isDigit part).bind fun ps =>
        match rest.dropWhile fun c => !isExponentMark c with
        | [] => some (ds ++ '.' :: ps)
        | _ :: rest => (exponentDigits? rest).map fun es => ds ++ '.' :: ps ++ 'e' :: es
    | _ :: rest => (exponentDigits? rest).map fun es => ds ++ 'e' :: es

/-- A number that is no integer. One that is too large is refused if it is
positive. -/
def readFloat? (cs : List Char) : Option Binary64 :=
  let (negative, cs) := Decimal.takeSign cs
  if cs = "inf".toList then some (.infinite negative)
  else if cs = "nan".toList then some .nan
  else
    (floatText? cs).bind fun t =>
      match Binary64.read? (if negative then '-' :: t else t) with
      | some (.infinite false) => none
      | x => x

/-- The number that two digits write, if it is in a range. -/
def twoDigits? (lo hi : Nat) (a b : Char) : Option Nat :=
  if a.isDigit && b.isDigit then
    let n := Decimal.natOfDigits [a, b]
    if lo ≤ n ∧ n ≤ hi then some n else none
  else none

def takeDay? : List Char → Option (List Char)
  | a :: b :: c :: d :: '-' :: e :: f :: '-' :: g :: h :: rest =>
    if [a, b, c, d].all Char.isDigit then
      (twoDigits? 1 12 e f).bind fun m =>
        (twoDigits? 1 (Calendar.monthLength (Decimal.natOfDigits [a, b, c, d]) m) g h).map
          fun _ => rest
    else none
  | _ => none

def takeClock? : List Char → Option (List Char)
  | a :: b :: ':' :: c :: d :: ':' :: e :: f :: rest =>
    if (twoDigits? 0 23 a b).isSome && (twoDigits? 0 59 c d).isSome &&
        (twoDigits? 0 60 e f).isSome then
      match rest with
      | '.' :: part =>
        if part.head?.any Char.isDigit then some (part.dropWhile Char.isDigit) else none
      | _ => some rest
    else none
  | _ => none

def isOffset : List Char → Bool
  | [] => true
  | [c] => c == 'Z' || c == 'z'
  | [s, a, b, ':', c, d] =>
    (s == '+' || s == '-') && (twoDigits? 0 23 a b).isSome && (twoDigits? 0 59 c d).isSome
  | _ => false

def isClock (cs : List Char) : Bool := (takeClock? cs).any isOffset

/-- A date, a time, or a date and a time. -/
def isMoment (cs : List Char) : Bool :=
  match takeDay? cs with
  | some [] => true
  | some (c :: rest) => (c == 'T' || c == 't') && isClock rest
  | none => (takeClock? cs).any List.isEmpty

/-- The characters of which numbers, moments and truth values consist. -/
def isToken (c : Char) : Bool := c.isAlphanum || ['+', '-', '_', '.', ':'].contains c

def readToken? (cs : List Char) : Option Toml :=
  if cs = "true".toList then some (.bool true)
  else if cs = "false".toList then some (.bool false)
  else if isMoment cs then some (.moment cs)
  else ((readInt? cs).map .int) <|> ((readFloat? cs).map .float)

/-- Reads a value that is no text, array or table. A space may stand between a date
and a time. -/
def readScalar? (cs : List Char) : Option (Toml × List Char) :=
  let token := cs.takeWhile isToken
  let rest := cs.dropWhile isToken
  let clock := (rest.drop 1).takeWhile isToken
  if takeDay? token == some [] && rest.head? == some ' ' && isClock clock then
    some (.moment (token ++ ' ' :: clock), (rest.drop 1).dropWhile isToken)
  else (readToken? token).map fun t => (t, rest)

end Scalars

mutual

/-- Reads a value; `depth` arrays and tables may still be opened. Each step takes a
character, so the length of the text is fuel enough. -/
def readValue? (fuel depth : Nat) (cs : List Char) : Option (Toml × List Char) :=
  match fuel with
  | 0 => none
  | fuel + 1 =>
    match cs with
    | '[' :: rest => match depth with
      | 0 => none
      | depth + 1 => (readItems? fuel depth rest).map fun r => (.array r.1, r.2)
    | '\x7b' :: rest => match depth with
      | 0 => none
      | depth + 1 => match dropSpace rest with
        | '\x7d' :: rest => some (.table .closed [], rest)
        | rest => (readMembers? fuel depth rest).bind fun r =>
          (ofMembers? r.1).map fun t => (t, r.2)
    | '"' :: _ => (readText? cs).map fun r => (.text (String.ofList r.1), r.2)
    | '\x27' :: _ => (readText? cs).map fun r => (.text (String.ofList r.1), r.2)
    | _ => readScalar? cs

def readItems? (fuel depth : Nat) (cs : List Char) : Option (List Toml × List Char) :=
  match fuel with
  | 0 => none
  | fuel + 1 =>
    match skipLines cs with
    | ']' :: rest => some ([], rest)
    | rest => (readValue? fuel depth rest).bind fun r =>
      match skipLines r.2 with
      | ',' :: rest => (readItems? fuel depth rest).map fun t => (r.1 :: t.1, t.2)
      | ']' :: rest => some ([r.1], rest)
      | _ => none

/-- Reads the members of a table up to its closing brace. -/
def readMembers? (fuel depth : Nat) (cs : List Char) : Option (List (Key × Toml) × List Char) :=
  match fuel with
  | 0 => none
  | fuel + 1 => (takeKey? depthLimit cs).bind fun k =>
    match k.2 with
    | '=' :: rest => (readValue? fuel depth (dropSpace rest)).bind fun r =>
      match dropSpace r.2 with
      | ',' :: rest => (readMembers? fuel depth rest).map fun t => ((k.1, r.1) :: t.1, t.2)
      | '\x7d' :: rest => some ([(k.1, r.1)], rest)
      | _ => none
    | _ => none

end

def readLine? : List Char → Option (Line × List Char)
  | '[' :: '[' :: rest => (takeKey? depthLimit rest).bind fun k =>
    match k.2 with
    | ']' :: ']' :: rest => some (.append k.1, rest)
    | _ => none
  | '[' :: rest => (takeKey? depthLimit rest).bind fun k =>
    match k.2 with
    | ']' :: rest => some (.header k.1, rest)
    | _ => none
  | cs => (takeKey? depthLimit cs).bind fun k =>
    match k.2 with
    | '=' :: rest => (readValue? (2 * rest.length + 1) depthLimit (dropSpace rest)).map fun r =>
      (.member k.1 r.1, r.2)
    | _ => none

/-- Reads lines to the end. Each takes a character, so the length of the text is fuel
enough. -/
def readLines? : Nat → List Char → Option (List Line)
  | 0, _ => none
  | fuel + 1, cs =>
    match skipLines cs with
    | [] => some []
    | rest =>
      match dropComment rest with
      | [] => some []
      | _ => (readLine? rest).bind fun l => (endLine? l.2).bind fun rest' =>
        (readLines? fuel rest').map (l.1 :: ·)

/-- Reads a document; a mark of the byte order may begin it. -/
def read? (cs : List Char) : Option Toml :=
  let cs := if cs.head? == some '\ufeff' then cs.drop 1 else cs
  (readLines? (cs.length + 1) cs).bind ofLines?

end SearchBar.Toml
