/-! # Arguments

The arguments of a command are options and operands. An option has a name behind
two hyphens, and it may have a letter behind one; letters can be joined. A value
follows its option directly, behind an equals sign, or as the next argument, which
then does not look like an option. Behind two hyphens there are operands only.
-/

namespace SearchBar.Command

inductive OptionKind
  /-- One value that is not empty, at most once. -/
  | path
  /-- A value each time. -/
  | texts
  /-- No value, at most once. -/
  | switch
  /-- No value; asks for a description of the command. -/
  | help
  /-- No value; asks for the version of the program. -/
  | version
deriving DecidableEq, Repr

def OptionKind.takesValue : OptionKind → Bool
  | path | texts => true
  | _ => false

structure OptionForm where
  name : String
  letter : Option Char := none
  kind : OptionKind
  /-- Stands for the value in descriptions. -/
  valueName : String := ""
  required : Bool := false
  about : String
deriving DecidableEq, Repr

inductive Stop
  /-- The arguments make no command. -/
  | misuse
  | help
  | version
deriving DecidableEq, Repr

/-- The options and operands of a command, in their order. -/
structure Given where
  options : List (String × String) := []
  operands : List String := []
deriving DecidableEq, Repr

namespace Given

def values (g : Given) (name : String) : List String :=
  (g.options.filter (·.1 == name)).map (·.2)

def value? (g : Given) (name : String) : Option String := (g.values name).head?

def has (g : Given) (name : String) : Bool := (g.value? name).isSome

/-- Adds an option with its value, which is empty for an option without value. -/
def add (form : OptionForm) (value : String) (g : Given) : Except Stop Given :=
  match form.kind with
  | .help => .error .help
  | .version => .error .version
  | .texts => .ok { g with options := g.options ++ [(form.name, value)] }
  | .path =>
    if value.isEmpty || g.has form.name then .error .misuse
    else .ok { g with options := g.options ++ [(form.name, value)] }
  | .switch =>
    if g.has form.name then .error .misuse
    else .ok { g with options := g.options ++ [(form.name, value)] }

end Given

/-- An argument that cannot be the value of the option in front of it. -/
def looksLikeOption (arg : String) : Bool :=
  match arg.toList with
  | '-' :: _ :: _ => true
  | _ => false

inductive Step
  /-- It is complete by itself. -/
  | done (g : Given)
  /-- It ends with an option whose value is still missing. -/
  | wants (form : OptionForm) (g : Given)
deriving DecidableEq, Repr

/-- An option with a name, and a value if an equals sign follows. -/
def stepNamed (forms : List OptionForm) (cs : List Char) (g : Given) : Except Stop Step :=
  let name := String.ofList (cs.takeWhile (· != '='))
  match forms.find? (·.name == name), cs.dropWhile (· != '=') with
  | none, _ => .error .misuse
  | some form, [] =>
    if form.kind.takesValue then .ok (.wants form g) else (g.add form "").map .done
  | some form, _ :: value =>
    if form.kind.takesValue then (g.add form (String.ofList value)).map .done else .error .misuse

/-- Options with letters. What follows the letter of an option that takes a value is
its value. -/
def stepLetters (forms : List OptionForm) (g : Given) : List Char → Except Stop Step
  | [] => .ok (.done g)
  | c :: cs =>
    match forms.find? (·.letter == some c) with
    | none => .error .misuse
    | some form =>
      if form.kind.takesValue then
        match cs with
        | [] => .ok (.wants form g)
        | '=' :: value => (g.add form (String.ofList value)).map .done
        | value => (g.add form (String.ofList value)).map .done
      else (g.add form "").bind fun g => stepLetters forms g cs

/-- Reads the arguments of a command with no more than `limit` operands. A word past
the limit ends the reading, and the arguments from there on are left. -/
def readArguments (forms : List OptionForm) (limit : Nat) (g : Given) :
    List String → Except Stop (Given × List String)
  | [] => .ok (g, [])
  | arg :: rest =>
    if arg = "--" then
      if g.operands.length + rest.length ≤ limit then
        .ok ({ g with operands := g.operands ++ rest }, [])
      else .error .misuse
    else if looksLikeOption arg then
      let step := match arg.toList with
        | '-' :: '-' :: cs => stepNamed forms cs g
        | cs => stepLetters forms g (cs.drop 1)
      match step, rest with
      | .error e, _ => .error e
      | .ok (.done g), rest => readArguments forms limit g rest
      | .ok (.wants _ _), [] => .error .misuse
      | .ok (.wants form g), value :: rest' =>
        if looksLikeOption value then .error .misuse
        else match g.add form value with
          | .error e => .error e
          | .ok g => readArguments forms limit g rest'
    else if g.operands.length < limit then
      readArguments forms limit { g with operands := g.operands ++ [arg] } rest
    else .ok (g, arg :: rest)

end SearchBar.Command
