import SearchBar.Command.Arguments

/-! # Requests

The commands of the program and what each of them asks for. A settings file can be
named in front of the command and behind it; the one behind counts.
-/

namespace SearchBar.Command

inductive Verb
  | parse
  | execute
  | dsl
  | queryString
  | date
  | config
deriving DecidableEq, Repr

namespace Verb

def all : List Verb := [parse, execute, dsl, queryString, date, config]

def name : Verb → String
  | parse => "parse"
  | execute => "execute"
  | dsl => "dsl"
  | queryString => "query-string"
  | date => "date"
  | config => "config"

def ofName? (s : String) : Option Verb := all.find? (·.name == s)

def about : Verb → String
  | parse => "Parse a query and print its canonical text and AST"
  | execute => "Run a query against a file of records"
  | dsl => "Compile a query to the search engine's query object"
  | queryString => "Compile a query to a query string"
  | date => "Parse a date expression (e.g. \"last week\", \"2024-03-15\", \"March 2024\")"
  | config => "Generate default config file"

def operand? : Verb → Option (String × String)
  | config => none
  | date => some ("EXPRESSION", "Date expression")
  | _ => some ("QUERY", "Query text")

end Verb

def settingsOption : OptionForm where
  name := "config"
  letter := some 'c'
  kind := .path
  valueName := "CONFIG"
  about := "Config file (default: searched in the usual locations)"

def helpOption : OptionForm where
  name := "help"
  letter := some 'h'
  kind := .help
  about := "Print help"

def versionOption : OptionForm where
  name := "version"
  letter := some 'V'
  kind := .version
  about := "Print version"

def inputOption : OptionForm where
  name := "input"
  letter := some 'i'
  kind := .path
  valueName := "INPUT"
  required := true
  about := "JSON array or CSV file with a header row"

def fieldOption : OptionForm where
  name := "default-field"
  letter := some 'f'
  kind := .texts
  valueName := "DEFAULT_FIELD"
  about := "Fields searched by free-text terms"

def explainOption : OptionForm where
  name := "explain"
  kind := .switch
  about := "Attach a per-clause trail to each match"

def outputOption : OptionForm where
  name := "output"
  letter := some 'o'
  kind := .path
  valueName := "OUTPUT"
  about := "Output path (default: stdout)"

def commonOptions : List OptionForm := [settingsOption, helpOption, versionOption]

/-- The options of a verb, apart from the settings file and help. -/
def Verb.ownOptions : Verb → List OptionForm
  | .execute => [inputOption, fieldOption, explainOption]
  | .dsl => [fieldOption]
  | .config => [outputOption]
  | _ => []

def Verb.options (v : Verb) : List OptionForm := settingsOption :: v.ownOptions ++ [helpOption]

inductive Request
  | parse (query : String)
  | execute (query input : String) (fields : List String) (explain : Bool)
  | dsl (query : String) (fields : List String)
  | queryString (query : String)
  | date (expression : String)
  /-- Writes the settings template to a file, or prints it. -/
  | template (output : Option String)
deriving DecidableEq, Repr

/-- A request under the settings of a file, if one is named. -/
structure Invocation where
  settings : Option String := none
  request : Request
deriving DecidableEq, Repr

/-- The request that a verb makes of its arguments; `none` if one is missing. -/
def Verb.request? : Verb → Given → Option Request
  | .config, g => some (.template (g.value? "output"))
  | v, g => g.operands.head?.bind fun text =>
    match v with
    | .parse => some (.parse text)
    | .execute => (g.value? "input").map fun input =>
      .execute text input (g.values "default-field") (g.has "explain")
    | .dsl => some (.dsl text (g.values "default-field"))
    | .queryString => some (.queryString text)
    | .date => some (.date text)
    | .config => none

/-- The page that describes the program, or one of its verbs. -/
inductive Page
  | program
  | verb (v : Verb)
  | help
deriving DecidableEq, Repr

/-- What the arguments ask for, if they ask for no request. -/
inductive Refusal
  | misuse
  | page (p : Page)
  | version
deriving DecidableEq, Repr

def Stop.on (p : Page) : Stop → Refusal
  | misuse => .misuse
  | help => .page p
  | version => .version

def pageOf? : List String → Option Page
  | [] => some .program
  | [word] => if word = "help" then some .help else (Verb.ofName? word).map .verb
  | _ => none

def readVerb (settings : Option String) (v : Verb) (args : List String) :
    Except Refusal Invocation :=
  match readArguments v.options (if v.operand?.isSome then 1 else 0) {} args with
  | .error e => .error (e.on (.verb v))
  | .ok (g, []) =>
    match v.request? g with
    | some r => .ok { settings := (g.value? "config") <|> settings, request := r }
    | none => .error .misuse
  | .ok (_, _ :: _) => .error .misuse

def Invocation.read (args : List String) : Except Refusal Invocation :=
  match readArguments commonOptions 0 {} args with
  | .error e => .error (e.on .program)
  | .ok (_, []) => .error .misuse
  | .ok (g, word :: rest) =>
    if word = "help" then
      match pageOf? rest with
      | some p => .error (.page p)
      | none => .error .misuse
    else match Verb.ofName? word with
      | some v => readVerb (g.value? "config") v rest
      | none => .error .misuse

end SearchBar.Command
