import SearchBar.Query.Clause

/-! # Queries

A query is a list of clauses that all have to be met. It is kept like a set: a
clause that is there already is not added, and a flag has one clause at most.
-/

namespace SearchBar

structure Query where
  clauses : List Clause
deriving Repr

namespace Query

def empty : Query := ⟨[]⟩

def size (q : Query) : Nat := q.clauses.length

/-- Queries are equal if they have equal clauses in the same order. -/
instance : BEq Query := ⟨fun a b => a.clauses == b.clauses⟩

def sameClauses (a b : Query) : Bool :=
  a.size == b.size
    && a.clauses.all (fun c => b.clauses.any (· == c))
    && b.clauses.all (fun c => a.clauses.any (· == c))

def without (q : Query) (p : Clause → Bool) : Query := ⟨q.clauses.filter fun c => !p c⟩

def push (q : Query) (c : Clause) : Query := ⟨q.clauses ++ [c]⟩

/-- Adds a clause. A clause for a flag replaces the one there is; any other clause is
added only if it is not there. -/
def add (q : Query) (c : Clause) : Query :=
  match c with
  | .flag name _ => (q.without (·.setsFlag name)).push c
  | _ => if q.clauses.any (· == c) then q else q.push c

/-- The query of a list of clauses, added one after the other. -/
def ofClauses (cs : List Clause) : Query := cs.foldl add empty

def terms (q : Query) : List Clause := q.clauses.filter (·.isTerm)

def flags (q : Query) : List Clause := q.clauses.filter (·.isFlag)

/-- The single comparisons, of one field if a name is given. -/
def fields (q : Query) (name : Option String) : List Clause :=
  q.clauses.filter fun c => c.isField && name.all fun n => c.fieldName? == some n

def getField? (q : Query) (name : String) (value : Option Value) : Option Clause :=
  q.clauses.find? (·.comparesField name value)

def hasField (q : Query) (name : String) (value : Option Value) : Bool :=
  (q.getField? name value).isSome

def addField (q : Query) (name : String) (value : Value) (must : Bool) (op : Operator) : Query :=
  q.add (.field name op value must)

/-- Removes the comparisons of a field with a value, whatever their operators. -/
def removeFieldValue (q : Query) (name : String) (value : Value) : Query :=
  q.without (·.comparesField name (some value))

def removeField (q : Query) (name : String) : Query := q.without (·.comparesField name none)

def getOneOf? (q : Query) (name : String) (value : Option Value) : Option Clause :=
  q.clauses.find? (·.offersValue name value)

def hasOneOf (q : Query) (name : String) (value : Option Value) : Bool :=
  (q.getOneOf? name value).isSome

/-- Adds a value to the first choice for the field, which keeps its place and
polarity; without one, a choice of this value is added. -/
def addOneOf (q : Query) (name : String) (value : Value) (must : Bool) : Query :=
  ⟨go q.clauses⟩
where
  go : List Clause → List Clause
    | [] => [.oneOf name [value] must]
    | .oneOf n vs m :: cs =>
      if n == name then .oneOf n (if vs.contains value then vs else vs ++ [value]) m :: cs
      else .oneOf n vs m :: go cs
    | c :: cs => c :: go cs

/-- Removes a value from the first choice for the field that offers it. A choice
that offers nothing more is removed. -/
def removeOneOfValue (q : Query) (name : String) (value : Value) : Query :=
  ⟨go q.clauses⟩
where
  go : List Clause → List Clause
    | [] => []
    | .oneOf n vs m :: cs =>
      if n == name && vs.contains value then
        match vs.filter (fun v => !(v == value)) with
        | [] => cs
        | left => .oneOf n left m :: cs
      else .oneOf n vs m :: go cs
    | c :: cs => c :: go cs

def removeOneOf (q : Query) (name : String) : Query := q.without (·.offersValue name none)

def getFlag? (q : Query) (name : String) : Option Clause := q.clauses.find? (·.setsFlag name)

def hasFlag (q : Query) (name : String) : Bool := (q.getFlag? name).isSome

def addFlag (q : Query) (name : String) (must : Bool) : Query := q.add (.flag name must)

def removeFlag (q : Query) (name : String) : Query := q.without (·.setsFlag name)

end Query

end SearchBar
