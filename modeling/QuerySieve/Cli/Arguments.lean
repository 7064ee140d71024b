import QuerySieve.Text

/-!
# QuerySieve.Cli.Arguments

Command line arguments as options.

An option has a long name and may have a letter: `--name value`, `--name=value`, `-n value`,
`-nvalue` and `-n=value` mean the same, and letters of options without a value can share one dash. A
value cannot begin with a dash unless it is attached. An option can be given once, unless it is one
whose occurrences are counted. Arguments are read from the left; the first that is no option ends
them.
-/

namespace QuerySieve.Cli

/-- Why no command is run. -/
inductive Stop
  /-- The arguments make no sense. -/
  | misuse
  /-- The usage was asked for. -/
  | help
  /-- The version was asked for. -/
  | version
  deriving DecidableEq, Repr

/-- What an option does. -/
inductive OptionKind
  | switch
  | counter
  /-- Takes a value that passes a test. -/
  | value (isValid : String → Bool)
  /-- Ends the reading at once. -/
  | stop (why : Stop)

/-- An option. -/
structure OptionSpec where
  name : String
  letter : Option Char
  kind : OptionKind

/-- The options found, each with its value; the value of one without is empty. -/
abbrev Found := List (String × String)

namespace Found

/-- The value of an option. -/
def value? (found : Found) (name : String) : Option String := found.lookup name

/-- Was an option given? -/
def has (found : Found) (name : String) : Bool := found.any fun f => f.1 == name

/-- How often an option was given. -/
def count (found : Found) (name : String) : Nat := (found.filter fun f => f.1 == name).length

end Found

/-- Adds an option without a value. -/
def addPlain (found : Found) (spec : OptionSpec) : Except Stop Found :=
  match spec.kind with
  | .switch => if found.has spec.name then .error .misuse else .ok (found ++ [(spec.name, "")])
  | .counter => .ok (found ++ [(spec.name, "")])
  | .value _ => .error .misuse
  | .stop why => .error why

/-- Adds an option with its value. -/
def addValue (found : Found) (spec : OptionSpec) (value : String) : Except Stop Found :=
  match spec.kind with
  | .value isValid =>
    if isValid value && !found.has spec.name then .ok (found ++ [(spec.name, value)])
    else .error .misuse
  | _ => .error .misuse

/-- Does an option take a value? -/
def OptionSpec.takesValue (spec : OptionSpec) : Bool :=
  match spec.kind with
  | .value _ => true
  | _ => false

/-- Reads a long option from the text after its dashes. What is returned with the options is the one
whose value is still to come. -/
def readLong (specs : List OptionSpec) (found : Found) (cs : List Char) :
    Except Stop (Found × Option OptionSpec) :=
  let name := String.ofList (cs.takeWhile (· != '='))
  match specs.find? fun spec => spec.name == name with
  | none => .error .misuse
  | some spec =>
    match cs.dropWhile (· != '=') with
    | _ :: value => (addValue found spec (.ofList value)).map fun found => (found, none)
    | [] =>
      if spec.takesValue then .ok (found, some spec)
      else (addPlain found spec).map fun found => (found, none)

/-- Reads the letters after one dash. -/
def readLetters (specs : List OptionSpec) (found : Found) : List Char →
    Except Stop (Found × Option OptionSpec)
  | [] => .ok (found, none)
  | c :: cs =>
    match specs.find? fun spec => spec.letter == some c with
    | none => .error .misuse
    | some spec =>
      if spec.takesValue then
        match cs with
        | [] => .ok (found, some spec)
        | '=' :: value => (addValue found spec (.ofList value)).map fun found => (found, none)
        | value => (addValue found spec (.ofList value)).map fun found => (found, none)
      else
        match addPlain found spec with
        | .error why => .error why
        | .ok found => readLetters specs found cs

/-- Does an argument look like an option? A dash alone does not. -/
def isOption (arg : String) : Bool := Text.startsWith "-" arg && arg != "-"

/-- Reads the options at the start of the arguments. After `--` there are no options and no
commands, so nothing may follow it. -/
def readOptions (specs : List OptionSpec) (found : Found) : List String →
    Except Stop (Found × List String)
  | [] => .ok (found, [])
  | arg :: args =>
    if arg = "--" then if args = [] then .ok (found, []) else .error .misuse
    else if !isOption arg then .ok (found, arg :: args)
    else
      let read := match Text.dropStart? "--" arg with
        | some rest => readLong specs found rest.toList
        | none => readLetters specs found (arg.toList.drop 1)
      match read, args with
      | .error why, _ => .error why
      | .ok (found, none), args => readOptions specs found args
      | .ok (_, some _), [] => .error .misuse
      | .ok (found, some spec), value :: args =>
        if isOption value then .error .misuse
        else
          match addValue found spec value with
          | .error why => .error why
          | .ok found => readOptions specs found args

end QuerySieve.Cli
