import Std.Time.DateTime.Timestamp
import SearchBar.Command.Outcome

/-! # The program

Gathers the files and variables that a run may look at, and carries out its outcome.
-/

namespace SearchBar.Command

def readText? (path : String) : IO (Option String) := do
  try
    return some (← IO.FS.readFile path)
  catch _ => return none

def userSettings : IO (List String) := do
  match ← IO.getEnv "XDG_CONFIG_HOME", ← IO.getEnv "HOME" with
  | some dir, home =>
    if dir.startsWith "/" then return [dir] else return (home.map (· ++ "/.config")).toList
  | none, home => return (home.map (· ++ "/.config")).toList

def settingsFiles : IO (List String) := do
  return (← userSettings).map (· ++ "/searchql/config.toml")
    ++ ["/etc/searchql/config.toml", "./searchql.toml"]

def variableNames : List String :=
  ["SEARCHQL_STRICT", "SEARCHQL_PHRASE_DELIMITER", "SEARCHQL_VALUE_TYPING",
    "SEARCHQL_DEFAULT_FIELDS", "SEARCHQL_LOG_LEVEL", "SEARCHQL_LOG_FORMAT"]

def presentInstant : IO Calendar.Instant := do
  let time ← Std.Time.Timestamp.now
  return .ofMillis time.toMillisecondsSinceUnixEpoch.val

def pairsOf (names : List String) (find : String → IO (Option String)) :
    IO (List (String × Option String)) :=
  names.mapM fun name => do return (name, ← find name)

def surroundings (args : List String) : IO Surroundings := do
  let places ← settingsFiles
  let files ← pairsOf (filesRead places args) readText?
  let values ← pairsOf variableNames fun name => IO.getEnv name
  return {
    file? := fun path => (files.lookup path).join
    environment := fun name => (values.lookup name).join
    settingsFiles := places
    now := ← presentInstant }

/-- Writes a file, and makes the directories that lead to it. -/
def writeText (path content : String) : IO Unit := do
  let directory := "/".intercalate (path.splitOn "/").dropLast
  unless directory.isEmpty do IO.FS.createDirAll directory
  IO.FS.writeFile path content

def perform (o : Outcome) : IO UInt32 := do
  if let some (path, content) := o.written then writeText path content
  (← IO.getStdout).putStr o.output
  (← IO.getStderr).putStr o.errors
  return o.code.toUInt32

end SearchBar.Command

def main (args : List String) : IO UInt32 := do
  SearchBar.Command.perform (SearchBar.Command.run (← SearchBar.Command.surroundings args) args)
