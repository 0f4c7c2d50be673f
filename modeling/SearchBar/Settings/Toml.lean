import SearchBar.Number.Binary64

/-! # Settings documents

A settings document is a TOML table of named values, some of which are tables
again. Its lines build it: a header states a table, or one more table of an array,
and the members behind it go there. What has been stated once is not stated again.
-/

namespace SearchBar

inductive TableForm
  /-- A header states it. -/
  | stated
  /-- A header states one of its parts. -/
  | implied
  /-- A dotted key states one of its parts. -/
  | dotted
  /-- It is written between braces, as a whole. -/
  | closed
deriving DecidableEq, Repr

/-- Whether a path that makes tables of one form may lead through a table of
another form. A dotted key leads through no table that a header states. -/
def TableForm.leadsThrough : TableForm → TableForm → Bool
  | _, closed => false
  | dotted, stated => false
  | _, _ => true

inductive Toml
  | text (s : String)
  | int (n : Int)
  | float (x : Binary64)
  | bool (b : Bool)
  /-- A date, a time or both, as they are written. -/
  | moment (written : List Char)
  | array (items : List Toml)
  /-- An array whose tables are stated by headers. -/
  | tables (items : List Toml)
  | table (form : TableForm) (members : List (String × Toml))
deriving Repr, Inhabited

namespace Toml

/-- A dotted key: the tables on the way, and a name in the last of them. -/
structure Key where
  path : List String
  name : String
deriving DecidableEq, Repr

inductive Line
  /-- Opens a table. -/
  | header (key : Key)
  /-- Opens one more table of an array. -/
  | append (key : Key)
  | member (key : Key) (value : Toml)
deriving Repr

def setMember (name : String) (value : Toml) (members : List (String × Toml)) :
    List (String × Toml) :=
  members.map fun m => if m.1 == name then (name, value) else m

/-- Changes the table at the end of a path. Tables that are missing on the way are
made with the form `via`, and an array of tables leads to its last one. -/
def alter (via : TableForm) (change : Toml → Option Toml) : List String → Toml → Option Toml
  | [], t => change t
  | name :: path, .table form members =>
    match members.lookup name with
    | none => (alter via change path (.table via [])).map fun t =>
      .table form (members ++ [(name, t)])
    | some (.table g inner) =>
      if via.leadsThrough g then
        (alter via change path (.table g inner)).map fun t => .table form (setMember name t members)
      else none
    | some (.tables items) => items.getLast?.bind fun last =>
      (alter via change path last).map fun t =>
        .table form (setMember name (.tables (items.dropLast ++ [t])) members)
    | some _ => none
  | _ :: _, _ => none

/-- Adds a member that is not there yet. Members of a table that dotted keys made are
added by dotted keys, members of other tables by plain ones. -/
def add (dotted : Bool) (name : String) (value : Toml) : Toml → Option Toml
  | .table form members =>
    if (form == .dotted) == dotted && (members.lookup name).isNone then
      some (.table form (members ++ [(name, value)]))
    else none
  | _ => none

def assign (key : Key) (value : Toml) (t : Toml) : Option Toml :=
  alter .dotted (add (!key.path.isEmpty) key.name value) key.path t

def openTable (name : String) : Toml → Option Toml
  | .table form members =>
    match members.lookup name with
    | none => some (.table form (members ++ [(name, .table .stated [])]))
    | some (.table .implied inner) =>
      some (.table form (setMember name (.table .stated inner) members))
    | some _ => none
  | _ => none

def appendTable (name : String) : Toml → Option Toml
  | .table form members =>
    match members.lookup name with
    | none => some (.table form (members ++ [(name, .tables [.table .stated []])]))
    | some (.tables items) =>
      some (.table form (setMember name (.tables (items ++ [.table .stated []])) members))
    | some _ => none
  | _ => none

/-- The document with one more line, and the path of the table that is open then. -/
def addLine : Toml × List String → Line → Option (Toml × List String)
  | (t, _), .header key =>
    (alter .implied (openTable key.name) key.path t).map fun t => (t, key.path ++ [key.name])
  | (t, _), .append key =>
    (alter .implied (appendTable key.name) key.path t).map fun t => (t, key.path ++ [key.name])
  | (t, path), .member key value =>
    (alter .implied (assign key value) path t).map fun t => (t, path)

def ofLines? (lines : List Line) : Option Toml :=
  (lines.foldlM addLine (.table .stated [], [])).map (·.1)

def ofMembers? (members : List (Key × Toml)) : Option Toml :=
  match members.foldlM (fun t m => assign m.1 m.2 t) (.table .stated []) with
  | some (.table _ ms) => some (.table .closed ms)
  | _ => none

section Parts

def text? : Toml → Option String
  | text s => some s
  | _ => none

def bool? : Toml → Option Bool
  | bool b => some b
  | _ => none

def items? : Toml → Option (List Toml)
  | array items => some items
  | tables items => some items
  | _ => none

def members? : Toml → Option (List (String × Toml))
  | table _ members => some members
  | _ => none

/-- The part of a section that has a name, or the place `index` if the section is
written as an array. A moment is a section without named parts. -/
def part? (index : Nat) (name : String) : Toml → Option (Option Toml)
  | table _ members => some (members.lookup name)
  | array items => some items[index]?
  | tables items => some items[index]?
  | moment _ => some none
  | _ => none

def isEmptyPart : Toml → Bool
  | array items => items.isEmpty
  | tables items => items.isEmpty
  | table _ members => members.isEmpty
  | _ => false

/-- One of several names: a text, or a table whose only member has the name and is
empty. -/
def choice? : Toml → Option String
  | text s => some s
  | table _ [(name, t)] => if t.isEmptyPart then some name else none
  | _ => none

end Parts

end Toml

end SearchBar
