import SearchBar.Calendar.Expression
import SearchBar.Query.Operator
import SearchBar.Record.Json

/-! # Diagnostics

A fault in a query text is reported with its place: offsets count the bytes of
the text in UTF-8, lines and columns count from one, columns in characters.
-/

namespace SearchBar

-- sums begin with the zero of the core library
attribute [local instance (high)] Zero.ofOfNat0

def byteLength (cs : List Char) : Nat := (cs.map Char.utf8Size).sum

theorem byteLength_cons (c : Char) (cs : List Char) :
    byteLength (c :: cs) = c.utf8Size + byteLength cs := rfl

theorem byteLength_append (a b : List Char) :
    byteLength (a ++ b) = byteLength a + byteLength b := by
  simp [byteLength]

/-- The characters in front of an offset, if it lies between two characters. -/
def takeBytes? : Nat → List Char → Option (List Char)
  | 0, _ => some []
  | _ + 1, [] => none
  | n + 1, c :: cs =>
    if c.utf8Size ≤ n + 1 then (takeBytes? (n + 1 - c.utf8Size) cs).map (c :: ·) else none

theorem takeBytes?_append (a b : List Char) : takeBytes? (byteLength a) (a ++ b) = some a := by
  induction a with
  | nil => rw [List.nil_append]; cases b <;> rfl
  | cons c a ih =>
    obtain ⟨n, hn⟩ := Nat.exists_eq_add_one.2 c.utf8Size_pos
    rw [byteLength_cons, List.cons_append, hn, Nat.add_right_comm, takeBytes?, hn,
      if_pos (by omega), show n + byteLength a + 1 - (n + 1) = byteLength a by omega, ih]
    rfl

structure Position where
  offset : Nat
  line : Nat
  column : Nat
deriving DecidableEq, Repr

/-- The place of an offset; offsets past the end mean the end. -/
def Position.at (text : List Char) (offset : Nat) : Position :=
  let offset := min offset (byteLength text)
  let before := (takeBytes? offset text).getD text
  ⟨offset, before.count '\n' + 1, (before.reverse.takeWhile (· != '\n')).length + 1⟩

theorem Position.offset_at {text : List Char} {offset : Nat} (h : offset ≤ byteLength text) :
    (Position.at text offset).offset = offset :=
  Nat.min_eq_left h

inductive Fault
  | missingValue (field : String) (op : Operator)
  | flagValue
  | unknownField (field : String)
  | operatorRefused (op : Operator)
  | noNumber (field text : String)
  | noBool (field text : String)
  | noDate (text : String)
  | openPhrase (delimiter : Char)
  | openGroup
  | badGroup (text : String)
  | unexpected (text : String)
deriving DecidableEq, Repr

def Fault.rule : Fault → String
  | missingValue _ _ => "missing-value"
  | flagValue => "invalid-flag"
  | unknownField _ => "unknown-field"
  | operatorRefused _ => "operator-not-allowed"
  | noNumber _ _ => "invalid-value"
  | noBool _ _ => "invalid-value"
  | noDate _ => "invalid-date"
  | openPhrase _ => "unterminated-phrase"
  | openGroup => "unclosed-group"
  | badGroup _ => "malformed-group"
  | unexpected _ => "unexpected-input"

def Fault.message : Fault → String
  | missingValue f op => "expected a value after '" ++ f ++ op.sign ++ "'"
  | flagValue => "'is' expects a single flag name"
  | unknownField f => "unknown field '" ++ f ++ "'"
  | operatorRefused op => "operator '" ++ op.sign ++ "' is not allowed"
  | noNumber f t => "expected a number for field '" ++ f ++ "', found '" ++ t ++ "'"
  | noBool f t => "expected true or false for field '" ++ f ++ "', found '" ++ t ++ "'"
  | noDate t => Calendar.unreadable t
  | openPhrase d => "unterminated phrase, expected a closing " ++ d.toString
  | openGroup => "unclosed group, expected ')'"
  | badGroup t => "malformed group '" ++ t ++ "', expected field:(value or value)"
  | unexpected t => "unexpected input '" ++ t ++ "'"

/-- A message about a stretch of a text. -/
structure Diagnostic where
  rule : String
  message : String
  start : Position
  stop : Position
deriving DecidableEq, Repr

namespace Diagnostic

/-- The message about the bytes from `start` to `stop`; a stretch does not end
before it begins. -/
def within (text : List Char) (start stop : Nat) (rule message : String) : Diagnostic :=
  let first := Position.at text start
  ⟨rule, message, first, Position.at text (max stop first.offset)⟩

theorem within_eq {text : List Char} {start stop : Nat} (h : start ≤ stop)
    (h' : stop ≤ byteLength text) (rule message : String) :
    within text start stop rule message =
      ⟨rule, message, Position.at text start, Position.at text stop⟩ := by
  rw [within, Position.offset_at (Nat.le_trans h h'), Nat.max_eq_left h]

def name (d : Diagnostic) : String :=
  toString d.start.line ++ ":" ++ toString d.start.column ++ "-" ++
    toString d.stop.line ++ ":" ++ toString d.stop.column

def text (d : Diagnostic) : String := d.name ++ ": " ++ d.message

def summary (ds : List Diagnostic) : String := "; ".intercalate (ds.map text)

end Diagnostic

def Position.toJson (p : Position) : Json :=
  .obj [("offset", .int p.offset), ("line", .int p.line), ("column", .int p.column)]

def Diagnostic.toJson (d : Diagnostic) : Json :=
  .obj [("message", .str d.message), ("name", .str d.name), ("reason", .str d.message),
    ("line", .int d.start.line), ("column", .int d.start.column),
    ("location", .obj [("start", d.start.toJson), ("end", d.stop.toJson)]),
    ("source", .str "search-query"), ("ruleId", .str d.rule), ("fatal", .bool true)]

end SearchBar
