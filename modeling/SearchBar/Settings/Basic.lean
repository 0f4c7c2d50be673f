import SearchBar.Query.Dialect
import SearchBar.Search.Match
import SearchBar.Settings.TomlReader
import SearchBar.Text.Blank

/-! # Settings

Settings come from a document and from variables of the environment, which override
the document. A part that the document leaves out has its default, a part that no
setting names is ignored, and a part of the wrong kind makes the document unusable.
-/

namespace SearchBar

structure ReadingSettings where
  strict : Bool := false
  delimiter : Char := '"'
  typing : Typing := .infer
  /-- The operators that may be used; all of them if there are none. -/
  operators : List Operator := []
  fields : List (String × FieldKind) := []
deriving DecidableEq, Repr

structure SearchSettings where
  defaultFields : List String := []
  explain : Bool := false
deriving DecidableEq, Repr

structure LogSettings where
  level : String := "info"
  format : String := "pretty"
deriving DecidableEq, Repr

structure Settings where
  reading : ReadingSettings := {}
  search : SearchSettings := {}
  log : LogSettings := {}
deriving DecidableEq, Repr

def ReadingSettings.dialect (s : ReadingSettings) : Dialect where
  delimiter := s.delimiter
  typing := s.typing
  operators := if s.operators.isEmpty then none else some s.operators
  schema :=
    if s.strict || !s.fields.isEmpty then some { strict := s.strict, fields := s.fields } else none

def SearchSettings.options (s : SearchSettings) : SearchOptions :=
  { defaultFields := s.defaultFields, explain := s.explain }

section Documents

/-- The setting at a place of a section; the default if there is none. -/
def settingOf {α : Type} (whole : Toml) (index : Nat) (name : String)
    (read : Toml → Option α) (default : α) : Option α :=
  match whole.part? index name with
  | none => none
  | some none => some default
  | some (some t) => read t

/-- The only character of a text. -/
def onlyChar? (s : String) : Option Char :=
  match s.toList with
  | [c] => some c
  | _ => none

def Typing.ofToml? (t : Toml) : Option Typing :=
  t.choice?.bind fun s => [infer, text].find? (·.name == s)

def Operator.ofToml? (t : Toml) : Option Operator :=
  t.choice?.bind fun s => all.find? (·.name == s)

def FieldKind.ofToml? (t : Toml) : Option FieldKind := t.choice?.bind FieldKind.ofName?

def listOf? {α : Type} (read : Toml → Option α) (t : Toml) : Option (List α) :=
  t.items?.bind (·.mapM read)

def fieldsOf? (t : Toml) : Option (List (String × FieldKind)) :=
  t.members?.bind (·.mapM fun m => (FieldKind.ofToml? m.2).map fun k => (m.1, k))

def ReadingSettings.ofToml? (t : Toml) : Option ReadingSettings := do
  let strict ← settingOf t 0 "strict" Toml.bool? false
  let delimiter ← settingOf t 1 "phrase_delimiter" (fun v => v.text?.bind onlyChar?) '"'
  let typing ← settingOf t 2 "value_typing" Typing.ofToml? .infer
  let operators ← settingOf t 3 "operators" (listOf? Operator.ofToml?) []
  let fields ← settingOf t 4 "fields" fieldsOf? []
  return { strict, delimiter, typing, operators, fields }

def SearchSettings.ofToml? (t : Toml) : Option SearchSettings := do
  let defaultFields ← settingOf t 0 "default_fields" (listOf? Toml.text?) []
  let explain ← settingOf t 1 "explain" Toml.bool? false
  return { defaultFields, explain }

def LogSettings.ofToml? (t : Toml) : Option LogSettings := do
  let level ← settingOf t 0 "level" Toml.text? "info"
  let format ← settingOf t 1 "format" Toml.text? "pretty"
  return { level, format }

namespace Settings

def ofToml? (t : Toml) : Option Settings := do
  let reading ← settingOf t 0 "parser" ReadingSettings.ofToml? {}
  let search ← settingOf t 1 "execution" SearchSettings.ofToml? {}
  let log ← settingOf t 2 "logging" LogSettings.ofToml? {}
  return { reading, search, log }

def read? (document : String) : Option Settings := (Toml.read? document.toList).bind ofToml?

end Settings

end Documents

section Environment

def truthOfWord? (word : String) : Option Bool :=
  let s := String.ofList (Text.lower word.toList)
  if ["1", "true", "yes"].contains s then some true
  else if ["0", "false", "no"].contains s then some false
  else none

/-- The names in a list with commas between them; blanks around a name do not
count. -/
def namesOf (s : String) : List String :=
  ((s.toList.splitOn ',').map Text.trim).filterMap fun cs =>
    if cs.isEmpty then none else some (String.ofList cs)

/-- The settings overridden by the variables of an environment. A variable whose value
makes no sense is ignored. -/
def Settings.override (env : String → Option String) (s : Settings) : Settings where
  reading :=
    { s.reading with
      strict := ((env "SEARCHQL_STRICT").bind truthOfWord?).getD s.reading.strict
      delimiter := ((env "SEARCHQL_PHRASE_DELIMITER").bind onlyChar?).getD s.reading.delimiter
      typing := ((env "SEARCHQL_VALUE_TYPING").bind Typing.ofName?).getD s.reading.typing }
  search :=
    { s.search with
      defaultFields := ((env "SEARCHQL_DEFAULT_FIELDS").map namesOf).getD s.search.defaultFields }
  log :=
    { level := (env "SEARCHQL_LOG_LEVEL").getD s.log.level
      format := (env "SEARCHQL_LOG_FORMAT").getD s.log.format }

end Environment

namespace Settings

/-- The settings of the first document that is there and can be used, overridden by
the environment; the defaults if there is no such document. -/
def choose (env : String → Option String) (documents : List (Option String)) : Settings :=
  ((documents.findSome? (Option.bind · read?)).getD {}).override env

end Settings

end SearchBar
