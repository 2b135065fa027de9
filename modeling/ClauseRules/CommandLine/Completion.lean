import ClauseRules.Compile
import ClauseRules.Files.Load

/-! How commands end, and how a failure is told: the message, and below it what caused it. -/

namespace ClauseRules

/-- What ends a command before it is done: a message, and the causes of it, the nearest first. -/
structure Failure where
  message : String
  causes : List String := []
deriving DecidableEq, Repr

namespace Failure

/-- Starts all lines of a text but the first with blanks. -/
def indent (width : Nat) (text : String) : String :=
  String.ofList (text.toList.flatMap fun c =>
    if c == '\n' then '\n' :: List.replicate width ' ' else [c])

/-- The causes on lines of their own, numbered if there is more than one. -/
def causeLines : List String → List String
  | [cause] => ["    " ++ indent 4 cause]
  | causes => causes.zipIdx.map fun (cause, i) =>
      let number := toString i
      String.ofList (List.replicate (5 - number.length) ' ') ++ number ++ ": " ++ indent 7 cause

/-- The failure as it is shown. -/
def text (failure : Failure) : String :=
  let causes :=
    if failure.causes.isEmpty then [] else ["", "Caused by:"] ++ causeLines failure.causes
  "\n".intercalate (("Error: " ++ failure.message) :: causes)

def ofLoadError (error : LoadError) : Failure :=
  let causes :=
    match error with
    | .malformed _ _ (.document (.entry error)) => [error.message]
    | .malformed _ _ (.document (.json (.mismatch m))) | .malformed _ _ (.json (.mismatch m)) =>
        [m.message]
    | _ => []
  { message := error.message, causes }

def ofCompileError (path : FilePath) (error : CompileError) : Failure :=
  { message := "failed to compile '" ++ path.text ++ "'", causes := error.chain }

end Failure

/-- How a command ended that was not cut short. -/
inductive Verdict where
  | clean
  /-- The command found something to complain about. -/
  | findings
  /-- The command line asked for nothing that could be done. -/
  | misuse
deriving DecidableEq, Repr

structure Completion where
  output : String := ""
  warnings : List Warning := []
  verdict : Except Failure Verdict := .ok .clean

def Completion.exitCode (completion : Completion) : Nat :=
  match completion.verdict with
  | .ok .clean => 0
  | .error _ => 1
  | .ok .findings | .ok .misuse => 2

end ClauseRules
