/-! Splitting a command line into options and the arguments between them. Options are written
`--name`, `--name value` or `--name=value`, those with a letter also `-n`, `-n value`, `-nvalue` and
`-n=value`; letters may share a dash, of which only the last may take a value. A value cannot start
with a dash unless it is attached. Behind `--` there are no more options.
-/

namespace ClauseRules

/-- An option that a command knows. -/
structure OptionSpec where
  name : String
  letter : Option Char := none
  takesValue : Bool := false
  /-- Whether the option may be given more than once. -/
  repeats : Bool := false
  /-- Whether nothing after the option counts. -/
  isFinal : Bool := false
deriving DecidableEq, Repr

/-- The arguments of a command in the order in which they were given. -/
structure Arguments where
  /-- The options that were given, by name; an option without a value has an empty one. -/
  options : List (String × String) := []
  operands : List String := []
deriving DecidableEq, Repr

namespace Arguments

def has (a : Arguments) (name : String) : Bool := a.options.any (·.1 == name)

def value? (a : Arguments) (name : String) : Option String := a.options.lookup name

/-- Adds an option, unless it was given before and does not repeat. -/
def addOption? (a : Arguments) (spec : OptionSpec) (value : String) : Option Arguments :=
  if !spec.repeats && a.has spec.name then none
  else some { a with options := a.options ++ [(spec.name, value)] }

def addOperand (a : Arguments) (operand : String) : Arguments :=
  { a with operands := a.operands ++ [operand] }

/-- Whether an argument is a value or an operand rather than an option. A lone dash is. -/
def isOperand (arg : List Char) : Bool :=
  match arg with
  | '-' :: _ :: _ => false
  | _ => true

/-- How reading goes on after an option. -/
inductive Next where
  | argument
  /-- The next argument is the value of the option. -/
  | value (spec : OptionSpec)
  /-- Nothing else is read. -/
  | nothing

/-- Adds an option that takes no value. -/
def addFlag? (a : Arguments) (spec : OptionSpec) : Option (Arguments × Next) := do
  return (← a.addOption? spec "", if spec.isFinal then .nothing else .argument)

/-- Reads the letters behind a dash. -/
def readLetters? (specs : List OptionSpec) (a : Arguments) : List Char → Option (Arguments × Next)
  | [] => some (a, .argument)
  | c :: rest => do
      let spec ← specs.find? (·.letter == some c)
      if spec.takesValue then
        match rest with
        | [] => return (a, .value spec)
        | '=' :: value | value => return (← a.addOption? spec (String.ofList value), .argument)
      else
        match ← a.addFlag? spec with
        | (a, .argument) => readLetters? specs a rest
        | (a, next) => return (a, next)

/-- Reads what follows two dashes. -/
def readName? (specs : List OptionSpec) (a : Arguments) (cs : List Char)
    : Option (Arguments × Next) := do
  let (name, value) := cs.span (· != '=')
  let spec ← specs.find? (·.name == String.ofList name)
  match spec.takesValue, value with
  | true, [] => return (a, .value spec)
  | true, _ :: value => return (← a.addOption? spec (String.ofList value), .argument)
  | false, [] => a.addFlag? spec
  | false, _ :: _ => none

/-- Reads the arguments of a command that knows the given options; nothing if one of them is
unknown, repeated, or given without its value or with one that it does not take. -/
def read? (specs : List OptionSpec) (a : Arguments) : List String → Option Arguments
  | [] => some a
  | arg :: rest =>
      let goOn := fun (a : Arguments) (next : Next) =>
        match next, rest with
        | .argument, rest => read? specs a rest
        | .nothing, _ => some a
        | .value spec, value :: rest =>
            if isOperand value.toList then
              match a.addOption? spec value with
              | some a => read? specs a rest
              | none => none
            else none
        | .value _, [] => none
      match arg.toList with
      | ['-', '-'] => some (rest.foldl addOperand a)
      | '-' :: '-' :: name => do
          let (a, next) ← readName? specs a name
          goOn a next
      | '-' :: c :: letters => do
          let (a, next) ← readLetters? specs a (c :: letters)
          goOn a next
      | _ => read? specs (a.addOperand arg) rest

end Arguments

end ClauseRules
