import SearchBar.Number.Decimal

/-! # Shortest decimal text

A finite number is written with the fewest decimal digits that read back as the
same number. Clauses write it positionally; records write it with a fraction or,
far from one, with an exponent.
-/

namespace SearchBar.Binary64

/-- Which of two equally near decimals is taken. -/
inductive Tie
  | up
  | even
deriving DecidableEq, Repr

/-- The exponent of the leading decimal digit of `num / den`. -/
def leadingExponent (num den : Nat) : Int :=
  if den ≤ num then ((Decimal.digitsOfNat (num / den)).length : Int) - 1
  else -((Decimal.digitsOfNat ((den - 1) / num)).length : Int)

def readsAs (k : Nat) (d : Decimal) : Bool :=
  d.toBinary64 == ofRank false k

/-- The magnitude of rank `k` on the grid of multiples of `10 ^ e`: of its two
neighbours that read back, the nearer one. -/
def onGrid? (tie : Tie) (k : Nat) (e : Int) : Option Decimal :=
  let num := units k * 10 ^ (-e).toNat
  let den := unitsPerOne * 10 ^ e.toNat
  let low := num / den
  let below : Decimal := ⟨false, low, e⟩
  let above : Decimal := ⟨false, low + 1, e⟩
  match readsAs k below, readsAs k above with
  | true, true =>
    match compare (2 * num) ((2 * low + 1) * den), tie with
    | .lt, _ => some below
    | .gt, _ => some above
    | .eq, .up => some above
    | .eq, .even => some (if low % 2 = 0 then below else above)
  | true, false => some below
  | false, true => some above
  | false, false => none

def exactDecimal (k : Nat) : Decimal := ⟨false, units k * 5 ^ leastPower, -leastPower⟩

/-- The first of the grids with one, two, … seventeen digits that holds a decimal
reading as rank `k`, and that decimal. -/
def shortestDecimal (tie : Tie) (k : Nat) : Decimal :=
  let lead := leadingExponent (units k) unitsPerOne
  ((List.range 17).findSome? fun n : Nat => onGrid? tie k (lead - n)).getD (exactDecimal k)

/-- Moves trailing zeros of the digits into the exponent, at most `fuel` of them. -/
def dropZeros : Nat → Decimal → Decimal
  | 0, d => d
  | fuel + 1, d =>
    if d.digits ≠ 0 ∧ d.digits % 10 = 0 then
      dropZeros fuel { d with digits := d.digits / 10, exponent := d.exponent + 1 }
    else d

/-- The shortest digits of the magnitude of rank `k`, the last one not zero. -/
def shortestDigits (tie : Tie) (k : Nat) : Decimal :=
  let d := shortestDecimal tie k
  dropZeros (Decimal.digitsOfNat d.digits).length d

/-- Digits with the decimal point at its place and no exponent. -/
def positional (digits : List Char) (exponent : Int) : List Char :=
  match exponent with
  | .ofNat e => digits ++ List.replicate e '0'
  | .negSucc e =>
    let places := e + 1
    if places < digits.length then
      digits.take (digits.length - places) ++ '.' :: digits.drop (digits.length - places)
    else '0' :: '.' :: (List.replicate (places - digits.length) '0' ++ digits)

def plainMagnitude (k : Nat) : List Char :=
  if k = 0 then ['0']
  else
    let d := shortestDigits .up k
    positional (Decimal.digitsOfNat d.digits) d.exponent

def signText (negative : Bool) : List Char := if negative then ['-'] else []

/-- Text of a number in a clause: positional, without a fraction where there is
none. -/
def plainText : Binary64 → List Char
  | finite negative k => signText negative ++ plainMagnitude k
  | infinite negative => signText negative ++ "inf".toList
  | nan => "NaN".toList

/-- Digits in front of an exponent: one before the point, the others behind it. -/
def scientific (digits : List Char) (exponent : Int) : List Char :=
  let lead := exponent + digits.length - 1
  let power := (if lead < 0 then '-' else '+') :: Decimal.digitsOfNat lead.natAbs
  match digits with
  | [d] => d :: 'e' :: power
  | d :: ds => d :: '.' :: ds ++ 'e' :: power
  | [] => 'e' :: power

/-- Text of a magnitude in a record: a fraction is always written, and an exponent
from `10 ^ 16` on and below `10 ^ -5`. -/
def recordMagnitude (k : Nat) : List Char :=
  if k = 0 then "0.0".toList
  else
    let d := shortestDigits .even k
    let digits := Decimal.digitsOfNat d.digits
    let lead := d.exponent + digits.length - 1
    if 16 ≤ lead ∨ lead < -5 then scientific digits d.exponent
    else if 0 ≤ d.exponent then positional digits d.exponent ++ ".0".toList
    else positional digits d.exponent

/-- Text of a number in a record, which has no infinities and no NaN. -/
def recordText : Binary64 → List Char
  | finite negative k => signText negative ++ recordMagnitude k
  | _ => "null".toList

end SearchBar.Binary64
