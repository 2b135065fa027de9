import ClauseRules.CommandLine.Options
import ClauseRules.Files.Path

/-! What a command line asks for. -/

namespace ClauseRules

/-- A way of writing compiled rules. -/
inductive RuleFormat where
  /-- The language of the rule engine. -/
  | drl
  | json
deriving DecidableEq, Repr

/-- How rules are compiled and where they go. -/
structure Emission where
  format : RuleFormat := .drl
  /-- The file for the rules, which otherwise become the command's output. -/
  output : Option FilePath := none
  config : Option FilePath := none
deriving DecidableEq, Repr

inductive Invocation where
  /-- Compiles a document. -/
  | compile (document dictionary : FilePath) (emission : Emission)
  /-- Says whether a document can be compiled, and which of its properties are unknown. -/
  | validate (document : FilePath) (dictionary : Option FilePath) (quiet : Bool)
  /-- Audits documents, and those in directories, against a dictionary. -/
  | check (dictionary : FilePath) (paths : List FilePath) (quiet : Bool)
  /-- Compiles a file of clause records under a name, by default that of the file. -/
  | records (file : FilePath) (name : Option String) (emission : Emission)
deriving DecidableEq, Repr

/-- What a command line amounts to. -/
inductive Request where
  | run (invocation : Invocation)
  /-- The command line asks for help or for the version. -/
  | information
  | misuse
deriving DecidableEq, Repr

namespace Invocation

/-! ### The options of the commands -/

def helpOption : OptionSpec := { name := "help", letter := some 'h', isFinal := true }

def versionOption : OptionSpec := { name := "version", letter := some 'V', isFinal := true }

/-- Asks for more of the log, each time it is given. -/
def verboseOption : OptionSpec := { name := "verbose", letter := some 'v', repeats := true }

def quietOption : OptionSpec := { name := "quiet", letter := some 'q' }

def configOption : OptionSpec := { name := "config", takesValue := true }

def dictionaryOption : OptionSpec := { name := "dictionary", takesValue := true }

def nameOption : OptionSpec := { name := "name", takesValue := true }

def emissionOptions : List OptionSpec :=
  [{ name := "output", letter := some 'o', takesValue := true },
    { name := "format", letter := some 'f', takesValue := true }, configOption]

/-- The options that every command knows. -/
def commonOptions : List OptionSpec := [verboseOption, helpOption]

/-- The commands and the options of their own. -/
def commands : List (String × List OptionSpec) :=
  [("compile", emissionOptions),
    ("validate", [dictionaryOption, quietOption]),
    ("check", [quietOption]),
    ("records", nameOption :: emissionOptions)]

/-! ### Reading arguments -/

/-- Paths are never empty. -/
def path? (text : String) : Option FilePath := if text.isEmpty then none else some ⟨text⟩

/-- The path given as an option, if any; nothing if it is not a path. -/
def optionalPath? (a : Arguments) (spec : String) : Option (Option FilePath) :=
  match a.value? spec with
  | none => some none
  | some text => some <$> path? text

def ruleFormat? (a : Arguments) : Option RuleFormat :=
  match a.value? "format" with
  | none | some "drl" => some .drl
  | some "json" => some .json
  | some _ => none

def emission? (a : Arguments) : Option Emission := do
  let format ← ruleFormat? a
  let output ← optionalPath? a "output"
  let config ← optionalPath? a configOption.name
  return { format, output, config }

/-- The invocation of a command with the arguments that were read for it. -/
def ofArguments? (command : String) (a : Arguments) : Option Invocation := do
  let operands ← a.operands.mapM path?
  match command, operands with
  | "compile", [document, dictionary] => return .compile document dictionary (← emission? a)
  | "validate", [document] =>
      return .validate document (← optionalPath? a dictionaryOption.name) (a.has quietOption.name)
  | "check", dictionary :: path :: paths =>
      return .check dictionary (path :: paths) (a.has quietOption.name)
  | "records", [file] =>
      return .records file (a.value? nameOption.name) (← emission? a)
  | _, _ => none

end Invocation

namespace Request

open Invocation

def ofArguments (command : String) (specs : List OptionSpec) (args : List String) : Request :=
  match Arguments.read? (specs ++ commonOptions) {} args with
  | none => .misuse
  | some a =>
      if a.has helpOption.name then .information
      else
        match ofArguments? command a with
        | some invocation => .run invocation
        | none => .misuse

/-- Whether the arguments of the command `help` name at most one command. -/
def isHelpTopic : List String → Bool
  | [] => true
  | [name] => name == helpOption.name || (commands.lookup name).isSome
  | _ => false

/-- Reads a command line. Common options may stand in front of the command too. -/
def ofCommandLine (args : List String) : Request :=
  let isLead := fun (arg : String) => !Arguments.isOperand arg.toList && arg != "--"
  let (lead, rest) := args.span isLead
  match Arguments.read? (versionOption :: commonOptions) {} lead, rest with
  | none, _ => .misuse
  | some a, rest =>
      if a.has helpOption.name || a.has versionOption.name then .information
      else
        match rest with
        | [] => .misuse
        | command :: args =>
            match commands.lookup command with
            | some specs => ofArguments command specs args
            | none =>
                if command == helpOption.name && isHelpTopic args then .information else .misuse

end Request

end ClauseRules
