import SearchBar.Query.Basic
import SearchBar.Text.Blank
import SearchBar.Text.Escaped

/-! # Query objects

A query becomes a Boolean compound of a search engine: a list of queries that must
hold and a list of queries that must not. The compound is made in steps, each of
which compiles a part of the query. Any kind of part may be compiled in another way,
and the first step that fails ends the making.
-/

namespace SearchBar

open Calendar Text

/-- A part of a query that is compiled as a whole. -/
inductive Part
  | terms (texts : List String)
  | all (field : String) (operations : List (Operator × Value))
  | any (field : String) (values : List Value)
  | flag (name : String)

/-- How the parts of a query are compiled. -/
structure PartCompiler (ε : Type) where
  flag : String → Bool → Except ε Json
  terms : List String → List String → Except ε Json
  all : String → List (Operator × Value) → Except ε Json
  any : String → List Value → Except ε Json

def single (key : String) (value : Json) : Json := .obj [(key, value)]

namespace PartCompiler

/-- A flag is a field that is true. -/
def flagObject (name : String) (value : Bool) : Json :=
  single "term" (single name (.bool value))

/-- Characters that simple query texts read as operators. -/
def operatorChars : List Char := ['+', '-', '|', '*', '(', ')', '~', '"', '\\']

/-- A term stands for itself; if it is empty or has blanks or operators it is quoted. -/
def termText (cs : List Char) : List Char :=
  if !cs.isEmpty && !cs.any (fun c => isBlank c || operatorChars.contains c) then cs else quoted cs

def termsText (texts : List String) : List Char :=
  [' '].intercalate (texts.map fun t => termText t.toList)

/-- One query for all terms, in the given fields if there are any. -/
def termsObject (texts defaultFields : List String) : Json :=
  single "simple_query_string" (.ofMembers
    ([("query", .str (String.ofList (termsText texts))), ("default_operator", .str "and")]
      ++ if defaultFields.isEmpty then [] else [("fields", .arr (defaultFields.map .str))]))

def timeText (t : Instant) : Json := .str (String.ofList (isoText t))

def range (field : String) (bounds : List (String × Json)) : Json :=
  single "range" (single field (.ofMembers bounds))

def dateObject (field : String) (op : Operator) (d : DateValue) : Json :=
  match op with
  | .eq => range field [("gte", timeText d.opening), ("lt", timeText d.closing)]
  | .gt => range field [("gte", timeText d.closing)]
  | .gte => range field [("gte", timeText d.opening)]
  | .lt => range field [("lt", timeText d.opening)]
  | .lte => range field [("lt", timeText d.closing)]

/-- One comparison of a field. Texts with blanks are phrases. -/
def comparison (field : String) (op : Operator) : Value → Json
  | .date d => dateObject field op d
  | .text s =>
    if op = .eq then
      if s.toList.any isBlank then single "match_phrase" (single field (.str s))
      else single "match" (single field (.ofMembers [("query", .str s), ("operator", .str "and")]))
    else range field [(op.name, .str s)]
  | v =>
    if op = .eq then single "term" (single field v.toJson) else range field [(op.name, v.toJson)]

def allObject (field : String) (operations : List (Operator × Value)) : Json :=
  match operations.map fun o => comparison field o.1 o.2 with
  | [q] => q
  | qs => single "bool" (single "must" (.arr qs))

def anyObject (field : String) (values : List Value) : Json :=
  single "bool" (.ofMembers
    [("should", .arr (values.map (comparison field .eq))), ("minimum_should_match", .int 1)])

/-- The way in which parts are compiled where no other is given. -/
def standard (ε : Type) : PartCompiler ε where
  flag n v := .ok (flagObject n v)
  terms ts fs := .ok (termsObject ts fs)
  all f ops := .ok (allObject f ops)
  any f vs := .ok (anyObject f vs)

def limited (ε : Type) (stop : Limit → ε) : PartCompiler ε where
  flag n v := .ok (flagObject n v)
  terms ts fs := .ok (termsObject ts fs)
  all f ops := do
    (checkAll (fun o => Value.checkRange o.2) ops).mapError stop
    return allObject f ops
  any f vs := do
    (checkAll Value.checkRange vs).mapError stop
    return anyObject f vs

def compile {ε : Type} (t : PartCompiler ε) (defaultFields : List String) : Part → Except ε Json
  | .terms texts => t.terms texts defaultFields
  | .all field operations => t.all field operations
  | .any field values => t.any field values
  | .flag name => t.flag name true

end PartCompiler

namespace Query

/-- Adds an operation to the group of its field, which keeps its place. -/
def addToGroup (field : String) (op : Operator × Value) :
    List (String × List (Operator × Value)) → List (String × List (Operator × Value))
  | [] => [(field, [op])]
  | (f, ops) :: groups =>
    if f = field then (f, ops ++ [op]) :: groups else (f, ops) :: addToGroup field op groups

/-- The operations that must hold, grouped by field in the order of first mention. -/
def groups (q : Query) : List (String × List (Operator × Value)) :=
  q.clauses.foldl (fun done c => match c with
    | .field n op v true => addToGroup n (op, v) done
    | _ => done) []

def termTexts (q : Query) (must : Bool) : List String :=
  q.clauses.filterMap fun
    | .term s m => if m == must then some s else none
    | _ => none

/-- The steps of the making of a query object, each with its polarity: the terms that
must hold together, each term and each comparison that must not hold by itself, the
groups of comparisons that must hold, and at last choices and flags. -/
def steps (q : Query) : List (Bool × Part) :=
  (if (q.termTexts true).isEmpty then [] else [(true, .terms (q.termTexts true))])
    ++ (q.termTexts false).map (fun s => (false, .terms [s]))
    ++ q.clauses.filterMap (fun
      | .field n op v false => some (false, .all n [(op, v)])
      | _ => none)
    ++ q.groups.map (fun g => (true, .all g.1 g.2))
    ++ q.clauses.filterMap (fun
      | .oneOf n vs m => some (m, .any n vs)
      | .flag n m => some (m, .flag n)
      | _ => none)

/-- The member for a polarity, left out if it would be empty. -/
def branch (key : String) (queries : List Json) : List (String × Json) :=
  if queries.isEmpty then [] else [(key, .arr queries)]

def toObject {ε : Type} (q : Query) (t : PartCompiler ε) (defaultFields : List String) :
    Except ε Json :=
  if q.clauses.isEmpty then .ok (single "match_all" (.obj []))
  else do
    let made ← q.steps.mapM fun s => (t.compile defaultFields s.2).map fun j => (s.1, j)
    let ofPolarity (must : Bool) := (made.filter (·.1 == must)).map (·.2)
    .ok (single "bool" (.obj (branch "must" (ofPolarity true) ++ branch "must_not" (ofPolarity false))))

end Query

end SearchBar
