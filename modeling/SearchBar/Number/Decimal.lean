import SearchBar.Number.Binary64

/-! # Decimal numerals

Two grammars of numerals: the plain one decides whether a word of a query is a
number, the general one reads the values of declared number fields and the
numbers of records written as text.
-/

namespace SearchBar

def hexDigit? (c : Char) : Option Nat :=
  if c.isDigit then some (c.toNat - '0'.toNat)
  else if 'a' ≤ c ∧ c ≤ 'f' then some (c.toNat - 'a'.toNat + 10)
  else if 'A' ≤ c ∧ c ≤ 'F' then some (c.toNat - 'A'.toNat + 10)
  else none

/-- The decimal number `±digits · 10 ^ exponent`. -/
structure Decimal where
  negative : Bool
  digits : Nat
  exponent : Int
deriving DecidableEq, Repr

namespace Decimal

def natOfDigits (cs : List Char) : Nat := Nat.ofDigitChars 10 cs 0

def digitsOfNat (n : Nat) : List Char := Nat.toDigits 10 n

theorem natOfDigits_digitsOfNat (n : Nat) : natOfDigits (digitsOfNat n) = n :=
  Nat.ofDigitChars_toDigits (by decide) (by decide)

theorem isDigit_of_mem_digitsOfNat {n : Nat} {c : Char} (h : c ∈ digitsOfNat n) :
    c.isDigit = true :=
  Nat.isDigit_of_mem_toDigits (by decide) (by decide) h

theorem digitsOfNat_ne_nil (n : Nat) : digitsOfNat n ≠ [] := Nat.toDigits_ne_nil

/-- The magnitude of a decimal as a quotient of natural numbers. -/
def quotient (d : Decimal) : Nat × Nat :=
  match d.exponent with
  | .ofNat e => (d.digits * 10 ^ e, 1)
  | .negSucc e => (d.digits, 10 ^ (e + 1))

/-- The nearest binary64 number. Exponents far outside the range of the format
are decided without writing the power of ten out. -/
def toBinary64 (d : Decimal) : Binary64 :=
  if d.digits = 0 then .ofRank d.negative 0
  else if 310 < d.exponent then .infinite d.negative
  else if d.exponent + (digitsOfNat d.digits).length < -330 then .ofRank d.negative 0
  else .ofQuotient d.negative d.quotient.1 d.quotient.2

def takeMinus : List Char → Bool × List Char
  | '-' :: cs => (true, cs)
  | cs => (false, cs)

/-- The decimal with the digits `whole` before and `part` after the point. -/
def ofParts (negative : Bool) (whole part : List Char) : Decimal :=
  ⟨negative, natOfDigits (whole ++ part), -(part.length : Int)⟩

def readUnsigned? (negative : Bool) (cs : List Char) : Option Decimal :=
  let whole := cs.takeWhile Char.isDigit
  if whole.isEmpty then none
  else match cs.dropWhile Char.isDigit with
    | [] => some (ofParts negative whole [])
    | '.' :: part =>
      if !part.isEmpty && part.all Char.isDigit then some (ofParts negative whole part) else none
    | _ => none

/-- Reads a plain numeral: an optional minus, digits, and perhaps a point and
more digits. -/
def readPlain? (cs : List Char) : Option Decimal :=
  readUnsigned? (takeMinus cs).1 (takeMinus cs).2

def takeSign : List Char → Bool × List Char
  | '-' :: cs => (true, cs)
  | '+' :: cs => (false, cs)
  | cs => (false, cs)

/-- Reads the exponent of a general numeral, which may be absent. -/
def readExponent? : List Char → Option Int
  | [] => some 0
  | e :: cs =>
    if e = 'e' ∨ e = 'E' then
      let ds := (takeSign cs).2
      if !ds.isEmpty && ds.all Char.isDigit then
        some (if (takeSign cs).1 then -(natOfDigits ds : Int) else natOfDigits ds)
      else none
    else none

/-- Reads the digits and the exponent of a general numeral behind its sign. One
digit at least stands before or after the point. -/
def readGeneralUnsigned? (negative : Bool) (cs : List Char) : Option Decimal :=
  let whole := cs.takeWhile Char.isDigit
  let rest := cs.dropWhile Char.isDigit
  let (part, rest) := match rest with
    | '.' :: r => (r.takeWhile Char.isDigit, r.dropWhile Char.isDigit)
    | r => ([], r)
  if (whole ++ part).isEmpty then none
  else (readExponent? rest).map fun e =>
    { ofParts negative whole part with exponent := e - part.length }

end Decimal

namespace Binary64

def readPlain? (cs : List Char) : Option Binary64 :=
  (Decimal.readPlain? cs).map Decimal.toBinary64

/-- Reads a general numeral: a sign, a point without digits on one side and an
exponent are allowed, and so are the names of the infinities and of NaN. -/
def read? (cs : List Char) : Option Binary64 :=
  let (negative, body) := Decimal.takeSign cs
  let word := body.map Char.toLower
  if word = "inf".toList ∨ word = "infinity".toList then some (.infinite negative)
  else if word = "nan".toList then some .nan
  else (Decimal.readGeneralUnsigned? negative body).map Decimal.toBinary64

end Binary64

end SearchBar
