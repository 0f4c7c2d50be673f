import SearchBar.Query.Clause
import SearchBar.Search.Lookup

/-! # Matching

Whether a record meets a clause. A list in a record meets a comparison if one of
its items does.
-/

namespace SearchBar

open Calendar Text

/-- An ordering of a record's value against the value of a clause that satisfies an
operator. -/
def Operator.accepts : Operator → Ordering → Bool
  | eq, o => o == .eq
  | gt, o => o == .gt
  | gte, o => o != .lt
  | lt, o => o == .lt
  | lte, o => o != .gt

def containsText (part : List Char) : List Char → Bool
  | [] => part.isEmpty
  | c :: cs => part.isPrefixOf (c :: cs) || containsText part cs

/-- A date clause is met by the instants on the right side of its window. -/
def Operator.acceptsInstant (op : Operator) (d : DateValue) (t : Instant) : Bool :=
  match op with
  | eq => decide (d.opening ≤ t) && decide (t < d.closing)
  | gt => decide (d.closing ≤ t)
  | gte => decide (d.opening ≤ t)
  | lt => decide (t < d.opening)
  | lte => decide (t < d.closing)

/-- A text clause is met by texts in order of their lower case, and equality also by
numbers and truth values of the same text. -/
def Operator.acceptsText (op : Operator) (expected : List Char) (actual : Json) : Bool :=
  match op, actual with
  | eq, .str s => lower s.toList == expected
  | eq, .bool b => Value.boolText b == expected
  | eq, v => v.numberText? == some expected
  | _, .str s => op.accepts (compare (lower s.toList) expected)
  | _, _ => false

def meetsScalar (actual : Json) (op : Operator) : Value → Bool
  | .date d => (actual.readInstant).any (op.acceptsInstant d)
  | .number x => ((actual.readNumber).bind (·.compare? x)).any op.accepts
  | .bool b => op == .eq && actual.readBool == some b
  | .text s => op.acceptsText (lower s.toList) actual

mutual

def meets (op : Operator) (expected : Value) : Json → Bool
  | .arr items => anyMeets op expected items
  | actual => meetsScalar actual op expected

def anyMeets (op : Operator) (expected : Value) : List Json → Bool
  | [] => false
  | v :: vs => meets op expected v || anyMeets op expected vs

end

mutual

/-- A value contains a text in lower case. Numbers and truth values are searched only
in `wide` search. -/
def mentions (wide : Bool) (needle : List Char) : Json → Bool
  | .str s => containsText needle (lower s.toList)
  | .arr items => anyMentions wide needle items
  | .bool b => wide && containsText needle (Value.boolText b)
  | v => wide && v.numberText?.any (containsText needle)

def anyMentions (wide : Bool) (needle : List Char) : List Json → Bool
  | [] => false
  | v :: vs => mentions wide needle v || anyMentions wide needle vs

end

structure SearchOptions where
  /-- The fields in which terms are looked for; all texts of a record if empty. -/
  defaultFields : List String := []
  /-- Records carry the trail of their clauses. -/
  explain : Bool := false
  /-- Takes the place of looking a flag up: record, flag and polarity. -/
  flagMatcher : Option (Json → String → Bool → Bool) := none

/-- A record contains a term in the fields that are searched. -/
def mentionsTerm (options : SearchOptions) (record : Json) (term : String) : Bool :=
  let needle := lower term.toList
  if options.defaultFields.isEmpty then
    match record with
    | .obj members => members.any fun m => mentions false needle m.2
    | _ => false
  else
    options.defaultFields.any fun f => (record.lookup? f).any (mentions true needle)

/-- The polarity of a clause agrees with its condition on the record. -/
def Clause.holds (options : SearchOptions) (record : Json) : Clause → Bool
  | term s must => mentionsTerm options record s == must
  | field n op v must => (record.lookup? n).any (meets op v) == must
  | oneOf n vs must => (record.lookup? n).any (fun a => vs.any fun v => meets .eq v a) == must
  | flag n must => match options.flagMatcher with
    | some hit => hit record n must
    | none => (record.lookup? n).any (fun a => a.readBool.getD false) == must

section Limits

def checkMeetsScalar (actual : Json) : Value → Attempt Unit
  | .date d => if actual.readInstant.isSome then discard d.range else .ok ()
  | _ => .ok ()

mutual

def checkMeets (op : Operator) (expected : Value) : Json → Attempt Unit
  | .arr items => checkAnyMeets op expected items
  | actual => checkMeetsScalar actual expected

def checkAnyMeets (op : Operator) (expected : Value) : List Json → Attempt Unit
  | [] => .ok ()
  | v :: vs => do
    checkMeets op expected v
    if meets op expected v then .ok () else checkAnyMeets op expected vs

end

def Clause.checkHolds (record : Json) : Clause → Attempt Unit
  | field n op v _ => match record.lookup? n with
    | some actual => checkMeets op v actual
    | none => .ok ()
  | oneOf n vs _ => match record.lookup? n with
    | some actual => checkUntil (fun v => checkMeets .eq v actual) (fun v => meets .eq v actual) vs
    | none => .ok ()
  | term _ _ | flag _ _ => .ok ()

end Limits

end SearchBar
