import SearchBar.Query.Operator

/-! # Dialects

A dialect settles how a query text is read: which character delimits phrases,
which operators may be used, and which fields are declared with which kind of
value.
-/

namespace SearchBar

inductive FieldKind
  | text
  | number
  | bool
  | date
deriving DecidableEq, Repr

def FieldKind.all : List FieldKind := [.text, .number, .bool, .date]

def FieldKind.name : FieldKind → String
  | text => "string"
  | number => "number"
  | bool => "boolean"
  | date => "date"

def FieldKind.ofName? (s : String) : Option FieldKind := all.find? (·.name == s)

/-- How words stand for values of fields that are not declared. -/
inductive Typing
  /-- Words may be truth values and numbers. -/
  | infer
  /-- Words are texts. -/
  | text
deriving DecidableEq, Repr

def Typing.name : Typing → String
  | infer => "infer"
  | text => "string"

def Typing.ofName? (s : String) : Option Typing :=
  [infer, text].find? fun t => t.name.toList == Text.lower s.toList

structure Schema where
  /-- Fields that are not declared are refused. -/
  strict : Bool := false
  fields : List (String × FieldKind) := []
deriving DecidableEq, Repr

def Schema.kind? (s : Schema) (name : String) : Option FieldKind :=
  (s.fields.find? fun f => f.1 == name).map (·.2)

structure Dialect where
  delimiter : Char := '"'
  typing : Typing := .infer
  /-- The operators that may be used; all of them if there is no list. -/
  operators : Option (List Operator) := none
  schema : Option Schema := none
deriving DecidableEq, Repr

def Dialect.allows (d : Dialect) (op : Operator) : Bool := d.operators.all (·.contains op)

def Dialect.kind? (d : Dialect) (name : String) : Option FieldKind := d.schema.bind (·.kind? name)

def Dialect.refuses (d : Dialect) (name : String) : Bool :=
  d.schema.any fun s => s.strict && (s.kind? name).isNone

end SearchBar
