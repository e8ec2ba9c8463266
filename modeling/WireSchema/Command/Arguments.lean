import WireSchema.Codegen.Generate

/-!
# Command line arguments

The command takes schema files, an output directory (`-o DIR`, `--out DIR`), a language (`-l LANG`,
`--lang LANG`) and the switches `--stdout` and `--json`, in any order. A value may be joined to its
option: `-oDIR`, `-o=DIR`, `--out=DIR`. After `--` every argument is an input. The arguments are
read one by one by `Draft.step`; an argument that fits nowhere, an option that comes twice, and an
empty value refuse them all.
-/

namespace WireSchema

/-- An option that has a value. -/
inductive ValueOption
  | out | lang
  deriving DecidableEq, Repr

/-- What the next argument may be. -/
inductive Awaiting
  /-- An input or an option. -/
  | anything
  /-- The value of an option. -/
  | value (option : ValueOption)
  /-- An input, whatever it looks like. -/
  | input
  deriving DecidableEq, Repr

/-- What the arguments ask for: inputs in their order, and how their code is delivered. -/
structure Invocation where
  inputs : List String
  out : String
  target : Target
  stdout : Bool
  json : Bool
  deriving DecidableEq, Repr

/-- What the arguments up to some point ask for. -/
structure Draft where
  inputs : List String := []
  out : Option String := none
  target : Option Target := none
  stdout : Bool := false
  json : Bool := false
  awaiting : Awaiting := .anything
  deriving DecidableEq, Repr

/-- The target of the given name on the command line. -/
def Target.ofName? (name : String) : Option Target :=
  if name = "rust" then some .rust else if name = "cpp" then some .cpp else none

namespace Draft

/-- Takes an input, which may not be empty. -/
def addInput (d : Draft) (arg : String) : Option Draft :=
  if arg.isEmpty then none else some { d with inputs := d.inputs ++ [arg] }

/-- Takes the value of an option that has none so far. -/
def setValue (d : Draft) (option : ValueOption) (value : String) : Option Draft :=
  match option with
  | .out =>
    if value.isEmpty || d.out.isSome then none
    else some { d with out := some value, awaiting := .anything }
  | .lang =>
    match Target.ofName? value with
    | none => none
    | some t =>
      if d.target.isSome then none
      else some { d with target := some t, awaiting := .anything }

/-- Whether an argument is an option as it stands; a lone hyphen is not. -/
def isOption (arg : String) : Bool := arg.toList.head? = some '-' && arg != "-"

/-- Takes a switch that is not set so far. -/
def setSwitch (d : Draft) (name : List Char) : Option Draft :=
  if name = "stdout".toList then if d.stdout then none else some { d with stdout := true }
  else if name = "json".toList then if d.json then none else some { d with json := true }
  else none

/-- Takes an option of one letter with the characters joined to it. -/
def shortOption (d : Draft) (letter : Char) (joined : List Char) : Option Draft :=
  let option? : Option ValueOption :=
    if letter = 'o' then some .out else if letter = 'l' then some .lang else none
  match option?, joined with
  | none, _ => none
  | some option, [] => some { d with awaiting := .value option }
  | some option, c :: r =>
    d.setValue option (String.ofList (if c = '=' then r else c :: r))

/-- Takes an option of several letters, with the value after an equals sign if it has one. -/
def longOption (d : Draft) (word : List Char) : Option Draft :=
  let name := word.takeWhile (· != '=')
  let joined := word.dropWhile (· != '=')
  let option? : Option ValueOption :=
    if name = "out".toList then some .out else if name = "lang".toList then some .lang else none
  match option?, joined with
  | none, [] => d.setSwitch name
  | none, _ :: _ => none
  | some option, [] => some { d with awaiting := .value option }
  | some option, _ :: value => d.setValue option (String.ofList value)

/-- Takes the next argument. -/
def step (d : Draft) (arg : String) : Option Draft :=
  match d.awaiting with
  | .input => d.addInput arg
  | .value option => if isOption arg then none else d.setValue option arg
  | .anything =>
    if arg = "--" then some { d with awaiting := .input }
    else if isOption arg then
      match arg.toList with
      | '-' :: '-' :: word => d.longOption word
      | '-' :: letter :: joined => d.shortOption letter joined
      | _ => none
    else d.addInput arg

/-- What the arguments ask for in the end: there are inputs and an output directory, and no value
is left open. -/
def finish (d : Draft) : Option Invocation :=
  match d.awaiting, d.inputs, d.out with
  | .value _, _, _ => none
  | _, [], _ => none
  | _, _, none => none
  | _, inputs, some out => some ⟨inputs, out, d.target.getD .rust, d.stdout, d.json⟩

end Draft

/-- What the arguments ask for, unless they are refused. -/
def Invocation.ofArguments? (args : List String) : Option Invocation :=
  (args.foldlM Draft.step {}).bind Draft.finish

end WireSchema
