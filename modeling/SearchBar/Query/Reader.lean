import SearchBar.Query.Basic
import SearchBar.Query.Dialect
import SearchBar.Query.Piece

/-! # Reading a query text

Drafts are resolved in a dialect: the field is checked and the values are typed.
Reading never fails as a whole. It gives the query of the clauses that could be
resolved, and a diagnostic for each fault.
-/

namespace SearchBar

open Calendar Text

def isReserved (field : List Char) : Bool := sameLetters field ['i', 's']

/-- A field that may be compared by an operator in the dialect. -/
def checkField (dialect : Dialect) (field : List Char) (op : Operator) : Except Fault Unit :=
  if isReserved field then .error .flagValue
  else if dialect.refuses (String.ofList field) then
    .error (.unknownField (String.ofList field))
  else if dialect.allows op then .ok ()
  else .error (.operatorRefused op)

def typeAs (now : Instant) (kind : FieldKind) (field text : List Char) : Except Fault Value :=
  match kind with
  | .text => .ok (.text (String.ofList text))
  | .number => match (Binary64.read? text).filter (·.isFinite) with
    | some x => .ok (.number x)
    | none => .error (.noNumber (String.ofList field) (String.ofList text))
  | .bool =>
    if lower text = "true".toList then .ok (.bool true)
    else if lower text = "false".toList then .ok (.bool false)
    else .error (.noBool (String.ofList field) (String.ofList text))
  | .date => match DateValue.read? now text with
    | some d => .ok (.date d)
    | none => .error (.noDate (String.ofList text))

/-- The value of a word: of the declared kind if there is one, a text if the word is
quoted, otherwise as the dialect types words. -/
def typeWord (dialect : Dialect) (now : Instant) (field : List Char) (w : Word) :
    Except Fault Value :=
  match dialect.kind? (String.ofList field) with
  | some kind => typeAs now kind field w.text
  | none =>
    if w.quoted || dialect.typing == .text then .ok (.text (String.ofList w.text))
    else .ok (.ofWord w.text)

def resolve (dialect : Dialect) (now : Instant) (negated : Bool) : Draft → Except Fault Clause
  | .flag name => .ok (.flag (String.ofList name) !negated)
  | .term w => .ok (.term (String.ofList w.text) !negated)
  | .missing field op => .error (.missingValue (String.ofList field) op)
  | .field field op w => do
    checkField dialect field op
    let value ← typeWord dialect now field w
    .ok (.field (String.ofList field) op value !negated)
  | .group field ws => do
    checkField dialect field .eq
    let values ← ws.mapM (typeWord dialect now field)
    .ok (.oneOf (String.ofList field) values !negated)

def Piece.clause (dialect : Dialect) (now : Instant) (p : Piece) : Except Fault Clause :=
  p.content.bind fun c => resolve dialect now c.1 c.2

/-- The words of a date field are read one after another, up to one that is no date. -/
def checkDates (dialect : Dialect) (now : Instant) (field : List Char) (op : Operator)
    (ws : List Word) : Attempt Unit :=
  match checkField dialect field op, dialect.kind? (String.ofList field) with
  | .ok _, some .date =>
    checkUntil (fun w => DateValue.checkRead now w.text)
      (fun w => (DateValue.read? now w.text).isNone) ws
  | _, _ => .ok ()

def Draft.checkResolve (dialect : Dialect) (now : Instant) : Draft → Attempt Unit
  | .field name op w => checkDates dialect now name op [w]
  | .group name ws => checkDates dialect now name .eq ws
  | _ => .ok ()

def Piece.checkClause (dialect : Dialect) (now : Instant) (p : Piece) : Attempt Unit :=
  match p.content with
  | .ok c => c.2.checkResolve dialect now
  | .error _ => .ok ()

/-- What reading a text gives. -/
structure Reading where
  query : Query
  diagnostics : List Diagnostic

namespace Query

def readAll (dialect : Dialect) (now : Instant) (text : String) : Reading :=
  let found := pieces dialect.delimiter 0 text.toList
  { query := .ofClauses (found.filterMap fun p => (p.clause dialect now).toOption)
    diagnostics := found.filterMap fun p => match p.clause dialect now with
      | .ok _ => none
      | .error f => some (.within text.toList p.start p.stop f.rule f.message) }

def read (dialect : Dialect) (now : Instant) (text : String) : Except (List Diagnostic) Query :=
  let r := readAll dialect now text
  if r.diagnostics.isEmpty then .ok r.query else .error r.diagnostics

def checkRead (dialect : Dialect) (now : Instant) (text : String) : Attempt Unit :=
  checkAll (·.checkClause dialect now) (pieces dialect.delimiter 0 text.toList)

/-- Reads as much of a text as can be read, within the limits of dates. -/
def parseAll (dialect : Dialect) (now : Instant) (text : String) : Attempt Reading := do
  checkRead dialect now text
  return readAll dialect now text

/-- Reads a text that has no faults, within the limits of dates. -/
def parse (dialect : Dialect) (now : Instant) (text : String) :
    Attempt (Except (List Diagnostic) Query) := do
  checkRead dialect now text
  return read dialect now text

end Query

end SearchBar
