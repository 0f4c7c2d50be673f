import SearchBar.Record.Json

/-! # Reading JSON

A strict reader: one value, blanks around it, and no more than 127 arrays and
objects inside each other. An integer that fits into 64 bits, signed or unsigned,
stays an integer. Of any other number the leading digits that fit into 64 bits
are rounded first and then scaled by powers of ten, rounding after each step.
-/

namespace SearchBar.Json

def isSpace (c : Char) : Bool := [' ', '\n', '\t', '\r'].contains c

def skipSpace (cs : List Char) : List Char := cs.dropWhile isSpace

section Numbers

def tenRank (e : Nat) : Nat := Binary64.nearestRank (10 ^ e) 1

/-- Divides the magnitude of rank `k` by `10 ^ e`, by no more than `10 ^ 308` at
once. -/
def scaleDown (k e : Nat) : Nat :=
  if e ≤ 308 then Binary64.nearestRank (Binary64.units k) (Binary64.units (tenRank e))
  else if k = 0 then 0
  else scaleDown (Binary64.nearestRank (Binary64.units k) (Binary64.units (tenRank 308))) (e - 308)
termination_by e

/-- The number `±significand · 10 ^ exponent`; `none` if it is too large. -/
def scaled? (negative : Bool) (significand : Nat) (exponent : Int) : Option Json :=
  let k := Binary64.nearestRank significand 1
  if exponent < 0 then some (.float (.ofRank negative (scaleDown k exponent.natAbs)))
  else if significand = 0 then some (.float (.ofRank negative 0))
  else if 308 < exponent then none
  else
    let r := Binary64.nearestRank
      (Binary64.units k * Binary64.units (tenRank exponent.natAbs)) (2 ^ 2148)
    if r < Binary64.ranks then some (.float (.ofRank negative r)) else none

/-- Splits digits into the longest number below `2 ^ 64` that begins them and the
digits that are left. -/
def takeSignificand (n : Nat) : List Char → Nat × List Char
  | [] => (n, [])
  | c :: cs =>
    let n' := n * 10 + (c.toNat - '0'.toNat)
    if n' < 2 ^ 64 then takeSignificand n' cs else (n, c :: cs)

/-- The exponent behind the letter: its sign and digits, and the rest. -/
def takeExponent? (cs : List Char) : Option (Bool × List Char × List Char) :=
  let (negative, cs) := Decimal.takeSign cs
  let digits := cs.takeWhile Char.isDigit
  if digits.isEmpty then none else some (negative, digits, cs.dropWhile Char.isDigit)

/-- The number with a significand and a scale, and an exponent if one follows. An
exponent past 31 bits leaves zero or nothing. -/
def withExponent? (negative : Bool) (significand : Nat) (scale : Int) :
    List Char → Option (Json × List Char)
  | [] => (scaled? negative significand scale).map fun x => (x, [])
  | c :: cs =>
    if c = 'e' ∨ c = 'E' then
      match takeExponent? cs with
      | none => none
      | some (down, digits, rest) =>
        let e := Decimal.natOfDigits digits
        if e < 2 ^ 31 then
          (scaled? negative significand (if down then scale - e else scale + e)).map fun x => (x, rest)
        else if significand ≠ 0 ∧ !down then none
        else some (.float (.ofRank negative 0), rest)
    else (scaled? negative significand scale).map fun x => (x, c :: cs)

def readNumber? (negative : Bool) (cs : List Char) : Option (Json × List Char) :=
  let whole := cs.takeWhile Char.isDigit
  let rest := cs.dropWhile Char.isDigit
  if whole.isEmpty || (whole.head? == some '0' && decide (1 < whole.length)) then none
  else
    let (n, extra) := takeSignificand 0 whole
    match rest with
    | '.' :: r =>
      let part := r.takeWhile Char.isDigit
      if part.isEmpty then none
      else
        let (m, dropped) := takeSignificand n part
        let scale := (extra.length : Int) - (part.length - dropped.length : Nat)
        withExponent? negative m scale (r.dropWhile Char.isDigit)
    | _ =>
      if extra.isEmpty && !(rest.head? == some 'e' || rest.head? == some 'E') then
        if !negative then some (.int n, rest)
        else if n = 0 ∨ 2 ^ 63 < n then some (.float (.ofQuotient true n 1), rest)
        else some (.int (-(n : Int)), rest)
      else withExponent? negative n extra.length rest

end Numbers

section Strings

def hexCode? (cs : List Char) : Option Nat :=
  cs.foldl (fun n c => n.bind fun n => (hexDigit? c).map fun d => n * 16 + d) (some 0)

def escaped? : Char → Option Char
  | '"' => some '"'
  | '\\' => some '\\'
  | '/' => some '/'
  | 'b' => some '\x08'
  | 'f' => some '\x0c'
  | 'n' => some '\n'
  | 'r' => some '\r'
  | 't' => some '\t'
  | _ => none

/-- Reads the text of a string up to the closing quote. Halves of a surrogate pair
stand together or not at all. -/
def readText? : List Char → Option (List Char × List Char)
  | '"' :: rest => some ([], rest)
  | '\\' :: 'u' :: a :: b :: c :: d :: '\\' :: 'u' :: e :: f :: g :: h :: rest =>
    match hexCode? [a, b, c, d], hexCode? [e, f, g, h] with
    | some n, some m =>
      if 0xD800 ≤ n ∧ n < 0xDC00 then
        if 0xDC00 ≤ m ∧ m < 0xE000 then
          (readText? rest).map fun r =>
            (Char.ofNat (0x10000 + (n - 0xD800) * 0x400 + (m - 0xDC00)) :: r.1, r.2)
        else none
      else if 0xDC00 ≤ n ∧ n < 0xE000 then none
      else (readText? ('\\' :: 'u' :: e :: f :: g :: h :: rest)).map fun r =>
        (Char.ofNat n :: r.1, r.2)
    | _, _ => none
  | '\\' :: 'u' :: a :: b :: c :: d :: rest =>
    match hexCode? [a, b, c, d] with
    | some n =>
      if 0xD800 ≤ n ∧ n < 0xE000 then none
      else (readText? rest).map fun r => (Char.ofNat n :: r.1, r.2)
    | none => none
  | '\\' :: c :: rest =>
    match escaped? c with
    | some e => (readText? rest).map fun r => (e :: r.1, r.2)
    | none => none
  | c :: rest =>
    if c.toNat < 32 ∨ c = '\\' then none else (readText? rest).map fun r => (c :: r.1, r.2)
  | [] => none

end Strings

def afterWord? (word : String) (cs : List Char) : Option (List Char) :=
  if word.toList.isPrefixOf cs then some (cs.drop word.length) else none

mutual

/-- Reads a value; `depth` arrays and objects may still be opened. Each step takes a
character, so the length of the text is fuel enough. -/
def readValue? (fuel depth : Nat) (cs : List Char) : Option (Json × List Char) :=
  match fuel with
  | 0 => none
  | fuel + 1 =>
    match skipSpace cs with
    | '"' :: rest => (readText? rest).map fun r => (.str (String.ofList r.1), r.2)
    | '[' :: rest => match depth with
      | 0 => none
      | depth + 1 => match skipSpace rest with
        | ']' :: rest => some (.arr [], rest)
        | rest => (readItems? fuel depth rest).map fun r => (.arr r.1, r.2)
    | '{' :: rest => match depth with
      | 0 => none
      | depth + 1 => match skipSpace rest with
        | '}' :: rest => some (.obj [], rest)
        | rest => (readMembers? fuel depth rest).map fun r => (ofMembers r.1, r.2)
    | '-' :: rest => readNumber? true rest
    | rest =>
      ((afterWord? "null" rest).map fun r => (.null, r))
        <|> ((afterWord? "true" rest).map fun r => (.bool true, r))
        <|> ((afterWord? "false" rest).map fun r => (.bool false, r))
        <|> readNumber? false rest

def readItems? (fuel depth : Nat) (cs : List Char) : Option (List Json × List Char) :=
  match fuel with
  | 0 => none
  | fuel + 1 => (readValue? fuel depth cs).bind fun r =>
    match skipSpace r.2 with
    | ',' :: rest => (readItems? fuel depth rest).map fun t => (r.1 :: t.1, t.2)
    | ']' :: rest => some ([r.1], rest)
    | _ => none

def readMembers? (fuel depth : Nat) (cs : List Char) : Option (List (String × Json) × List Char) :=
  match fuel with
  | 0 => none
  | fuel + 1 => match skipSpace cs with
    | '"' :: rest => (readText? rest).bind fun k => match skipSpace k.2 with
      | ':' :: rest => (readValue? fuel depth rest).bind fun r =>
        let m := (String.ofList k.1, r.1)
        match skipSpace r.2 with
        | ',' :: rest => (readMembers? fuel depth rest).map fun t => (m :: t.1, t.2)
        | '}' :: rest => some ([m], rest)
        | _ => none
      | _ => none
    | _ => none

end

def read? (cs : List Char) : Option Json :=
  (readValue? (2 * cs.length + 1) 127 cs).bind fun r =>
    if (skipSpace r.2).isEmpty then some r.1 else none

end SearchBar.Json
