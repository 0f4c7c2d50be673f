import SearchBar.Command.Page
import SearchBar.Compile.QueryObject
import SearchBar.Compile.QueryString
import SearchBar.Query.Encoding
import SearchBar.Query.Reader
import SearchBar.Record.Csv
import SearchBar.Record.JsonReader
import SearchBar.Record.JsonWriter
import SearchBar.Search.Results
import SearchBar.Settings.Basic
import SearchBar.Settings.Template
import SearchBar.Text.Shown

/-! # Outcomes

What the program prints and writes for its arguments, given the files and variables
around it and the present instant. The settings are read first, then the query, and
the records last, so the first of these that cannot be used is the one complained of.
-/

namespace SearchBar.Command

open Calendar Text

structure Surroundings where
  file? : String → Option String
  environment : String → Option String
  /-- The files in which settings are looked for if none is named. -/
  settingsFiles : List String
  now : Instant

structure Outcome where
  code : Nat := 0
  output : String := ""
  errors : String := ""
  /-- A file to write, with its content. -/
  written : Option (String × String) := none
deriving DecidableEq, Repr

inductive Failure
  | settingsUnread (path : String)
  | settingsUnusable (path : String)
  | unreadableQuery (diagnostics : List Diagnostic)
  | rowsUnread (path : String)
  /-- Not all rows have the same number of fields. -/
  | rowsUneven (path : String)
  | recordsUnread (path : String)
  | recordsUnusable (path : String)
  | unreadableDate (text : String)
  | stopped (limit : Limit)

def printed (j : Json) : String := String.ofList (j.laidOut 0) ++ "\n"

def complaint (what path : String) : String := "Error: Failed to " ++ what ++ " " ++ shown path ++ "\n"

/-- The outcome of a failure. Diagnostics are results; all else is an error message. -/
def Failure.outcome : Failure → Outcome
  | settingsUnread path => { code := 1, errors := complaint "read config file" path }
  | settingsUnusable path => { code := 1, errors := complaint "parse config file" path }
  | unreadableQuery ds => { code := 1, output := printed (.arr (ds.map (·.toJson))) }
  | rowsUnread path => { code := 1, errors := complaint "open" path }
  | rowsUneven path => { code := 1, errors := complaint "read" path }
  | recordsUnread path => { code := 1, errors := complaint "read" path }
  | recordsUnusable path => { code := 1, errors := "Error: Invalid JSON in " ++ shown path ++ "\n" }
  | unreadableDate text => { code := 1, errors := unreadable text ++ "\n" }
  | stopped _ => { code := 101 }

section Records

/-- The name of a file without the directories in front of it. -/
def fileName (path : String) : List Char :=
  ((path.toList.splitOn '/').filter fun p => !p.isEmpty && p != ['.']).getLast?.getD []

/-- The ending of a name behind its last point, unless the point begins the name. -/
def ending? (name : List Char) : Option (List Char) :=
  let back := name.reverse
  let ending := back.takeWhile (· != '.')
  if back.length ≤ ending.length + 1 then none else some ending.reverse

/-- Rows are kept in files with the ending `csv`, in letters of any case. -/
def holdsRows (path : String) : Bool :=
  (ending? (fileName path)).any fun e => e.map Char.toLower == ['c', 's', 'v']

/-- The records of a file: rows, or a JSON value, which is a list of records if it is
an array. -/
def readRecords (s : Surroundings) (path : String) : Except Failure (List Json) :=
  match s.file? path with
  | none => .error (if holdsRows path then .rowsUnread path else .recordsUnread path)
  | some content =>
    if holdsRows path then
      match Csv.read? content.toList with
      | some records => .ok records
      | none => .error (.rowsUneven path)
    else
      match Json.read? content.toList with
      | some (.arr records) => .ok records
      | some record => .ok [record]
      | none => .error (.recordsUnusable path)

end Records

/-- The settings of an invocation. A file that is named has to be there and usable. -/
def Invocation.readSettings (s : Surroundings) (i : Invocation) : Except Failure Settings :=
  match i.settings with
  | none => .ok (Settings.choose s.environment (s.settingsFiles.map s.file?))
  | some path =>
    match s.file? path with
    | none => .error (.settingsUnread path)
    | some document =>
      match Settings.read? document with
      | some settings => .ok (settings.override s.environment)
      | none => .error (.settingsUnusable path)

/-- A limit that an attempt meets is a failure of the request. -/
def attempt {α : Type} (a : Attempt α) : Except Failure α := a.mapError .stopped

def readQuery (s : Surroundings) (settings : Settings) (text : String) : Except Failure Query := do
  match ← attempt (Query.parse settings.reading.dialect s.now text) with
  | .ok q => return q
  | .error ds => .error (.unreadableQuery ds)

/-- The fields named by options, or those of the settings if there are none. -/
def fieldsOr (fields : List String) (settings : Settings) : List String :=
  if fields.isEmpty then settings.search.defaultFields else fields

def textOrNull (t : Option String) : Json := (t.map Json.str).getD .null

def describeDate (now : Instant) (d : DateValue) : Attempt Json := do
  let text ← d.print now none
  return .ofMembers [("granularity", textOrNull (d.granularity.map (·.name))),
    ("format", textOrNull d.format), ("instant", .str (String.ofList (isoText d.instant))),
    ("text", .str (String.ofList text))]

def Request.answer (s : Surroundings) (settings : Settings) : Request → Except Failure Outcome
  | .parse text => do
    let q ← readQuery s settings text
    let printing ← attempt (q.print s.now)
    return { output := printed (.ofMembers [("text", .str printing), ("ast", q.encode)]) }
  | .execute text input fields explain => do
    let q ← readQuery s settings text
    let records ← readRecords s input
    let options : SearchOptions :=
      { defaultFields := fieldsOr fields settings, explain := explain || settings.search.explain }
    return { output := printed (.arr (← attempt (q.execute s.now options records))) }
  | .dsl text fields => do
    let q ← readQuery s settings text
    let object ← attempt (q.toObject (.limited Limit id) (fieldsOr fields settings))
    return { output := printed object }
  | .queryString text => do
    let q ← readQuery s settings text
    return { output := (← attempt q.compileString) ++ "\n" }
  | .date text => do
    match ← attempt (DateValue.parse s.now text.toList) with
    | some d => return { output := printed (← attempt (describeDate s.now d)) }
    | none => .error (.unreadableDate text)
  | .template none => return { output := Settings.template }
  | .template (some path) =>
    return { output := "Config written to " ++ shown path ++ "\n", written := some (path, Settings.template) }

def Refusal.outcome : Refusal → Outcome
  | misuse => { code := 2, errors := Page.text .program }
  | page p => { output := p.text }
  | version => { output := programName ++ " " ++ programVersion ++ "\n" }

/-- The outcome of a run with the given arguments. -/
def run (s : Surroundings) (args : List String) : Outcome :=
  match Invocation.read args with
  | .error r => r.outcome
  | .ok i =>
    match i.readSettings s >>= fun settings => i.request.answer s settings with
    | .ok outcome => outcome
    | .error failure => failure.outcome

/-- The files that a run with the given arguments may read. -/
def filesRead (settingsFiles args : List String) : List String :=
  match Invocation.read args with
  | .error _ => []
  | .ok i =>
    (match i.settings with
      | some path => [path]
      | none => settingsFiles)
    ++ match i.request with
      | .execute _ input _ _ => [input]
      | _ => []

end SearchBar.Command
