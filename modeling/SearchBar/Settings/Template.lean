/-! # The settings template

A settings document that states every default, with a word on each setting.
-/

namespace SearchBar

def Settings.templateLines : List String := [
  "# searchql Configuration",
  "#",
  "# Environment variables override these settings:",
  "# - SEARCHQL_STRICT",
  "# - SEARCHQL_PHRASE_DELIMITER",
  "# - SEARCHQL_VALUE_TYPING",
  "# - SEARCHQL_DEFAULT_FIELDS (comma separated)",
  "# - SEARCHQL_LOG_LEVEL",
  "# - SEARCHQL_LOG_FORMAT",
  "",
  "[parser]",
  "# Reject fields that are not declared in [parser.fields]",
  "strict = false",
  "",
  "# Character that delimits phrases",
  "phrase_delimiter = '\"'",
  "",
  "# How undeclared field values are typed: infer (numbers, true/false) or string",
  "value_typing = \"infer\"",
  "",
  "# Permissible operators: eq, gt, gte, lt, lte (empty allows all)",
  "operators = []",
  "",
  "[parser.fields]",
  "# Field types: string, number, boolean, date",
  "# created = \"date\"",
  "# price = \"number\"",
  "",
  "[execution]",
  "# Fields searched by free-text terms (empty searches every string field)",
  "default_fields = []",
  "",
  "# Attach a per-clause trail to each match",
  "explain = false",
  "",
  "[logging]",
  "# Log level: trace, debug, info, warn, error",
  "level = \"info\"",
  "",
  "# Log format: pretty (for development) or json (for production)",
  "format = \"pretty\""]

def Settings.template : String := "\n".intercalate Settings.templateLines ++ "\n"

end SearchBar
