import SearchBar.Command.Request

/-! # Description pages

The pages that describe the program and its commands: a usage line, and the commands,
operands and options in columns.
-/

namespace SearchBar.Command

def programName : String := "searchql"

def programVersion : String := "0.1.0"

/-- An option with its value, as it stands in a usage line. -/
def OptionForm.usage (o : OptionForm) : String := "--" ++ o.name ++ " <" ++ o.valueName ++ ">"

def OptionForm.heading (o : OptionForm) : String :=
  (match o.letter with
    | some c => String.ofList ['-', c] ++ ", "
    | none => "    ")
    ++ if o.kind.takesValue then o.usage else "--" ++ o.name

/-- Two columns, indented by two spaces and kept two spaces apart. -/
def columns (rows : List (String × String)) : List String :=
  let width := (rows.map (·.1.length)).foldl max 0
  rows.map fun r => "  " ++ r.1 ++ String.ofList (List.replicate (width - r.1.length + 2) ' ') ++ r.2

/-- A heading with columns below, and an empty line in front. -/
def block (title : String) (rows : List (String × String)) : List String :=
  if rows.isEmpty then [] else "" :: (title ++ ":") :: columns rows

def optionRows (os : List OptionForm) : List (String × String) := os.map fun o => (o.heading, o.about)

def helpAbout : String := "Print this message or the help of the given subcommand(s)"

def Verb.usage (v : Verb) : String :=
  " ".intercalate ([programName, v.name, "[OPTIONS]"]
    ++ (v.ownOptions.filter (·.required)).map (·.usage)
    ++ (v.operand?.map fun o => "<" ++ o.1 ++ ">").toList)

def Page.lines : Page → List String
  | .program =>
    ["Parse, execute and compile search-bar queries", "",
      "Usage: " ++ programName ++ " [OPTIONS] <COMMAND>"]
    ++ block "Commands" (Verb.all.map (fun v => (v.name, v.about)) ++ [("help", helpAbout)])
    ++ block "Options" (optionRows commonOptions)
  | .verb v =>
    [v.about, "", "Usage: " ++ v.usage]
    ++ block "Arguments" (v.operand?.map fun o => ("<" ++ o.1 ++ ">", o.2)).toList
    ++ block "Options" (optionRows v.options)
  | .help =>
    [helpAbout, "", "Usage: " ++ programName ++ " help [COMMAND]..."]
    ++ block "Arguments" [("[COMMAND]...", "Print help for the subcommand(s)")]

def Page.text (p : Page) : String := "\n".intercalate p.lines ++ "\n"

end SearchBar.Command
