import SearchBar.Query.Operator
import SearchBar.Query.Value

/-! # Clauses

A clause is one condition on a record. Each kind of clause has a polarity: the
condition must hold, or must not.
-/

namespace SearchBar

inductive Clause
  /-- Free text, looked for in the default fields. -/
  | term (value : String) (must : Bool)
  /-- One comparison of a field. -/
  | field (name : String) (operator : Operator) (value : Value) (must : Bool)
  /-- A field equals one of several values. -/
  | oneOf (name : String) (values : List Value) (must : Bool)
  /-- A flag is set. -/
  | flag (name : String) (must : Bool)
deriving Repr

namespace Clause

def same : Clause → Clause → Bool
  | term a m, term b n => a == b && m == n
  | field a o v m, field b p w n => a == b && o == p && v == w && m == n
  | oneOf a vs m, oneOf b ws n => a == b && vs == ws && m == n
  | flag a m, flag b n => a == b && m == n
  | _, _ => false

instance : BEq Clause := ⟨same⟩

def must : Clause → Bool
  | term _ m | field _ _ _ m | oneOf _ _ m | flag _ m => m

def isTerm : Clause → Bool
  | term _ _ => true
  | _ => false

def isField : Clause → Bool
  | field _ _ _ _ => true
  | _ => false

def isOneOf : Clause → Bool
  | oneOf _ _ _ => true
  | _ => false

def isFlag : Clause → Bool
  | flag _ _ => true
  | _ => false

def fieldName? : Clause → Option String
  | field n _ _ _ | oneOf n _ _ => some n
  | _ => none

def values : Clause → List Value
  | field _ _ v _ => [v]
  | oneOf _ vs _ => vs
  | _ => []

def kind : Clause → String
  | term _ _ => "term"
  | field _ _ _ _ => "field"
  | oneOf _ _ _ => "or_field"
  | flag _ _ => "is"

/-- A single comparison of the field, and with the value if one is given. -/
def comparesField (name : String) (value : Option Value) : Clause → Bool
  | field n _ v _ => n == name && value.all (· == v)
  | _ => false

/-- A choice of values for the field, with the value among them if one is given. -/
def offersValue (name : String) (value : Option Value) : Clause → Bool
  | oneOf n vs _ => n == name && value.all vs.contains
  | _ => false

def setsFlag (name : String) : Clause → Bool
  | flag n _ => n == name
  | _ => false

end Clause

end SearchBar
