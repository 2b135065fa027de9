import ClauseRules.CommandLine.Run

/-! The program: the command line over the files of the system. -/

namespace ClauseRules

/-- A fault of the system as a reason why a file cannot be written. -/
def WriteFault.ofSystem : IO.Error → WriteFault
  | .noFileOrDirectory _ code details => ⟨details, code.toNat⟩
  | .alreadyExists _ code details | .inappropriateType _ code details
  | .invalidArgument _ code details | .noSuchThing _ code details
  | .permissionDenied _ code details | .resourceExhausted _ code details => ⟨details, code.toNat⟩
  | .otherError code details | .unsupportedOperation code details => ⟨details, code.toNat⟩
  | fault => ⟨toString fault, 0⟩

/-- The kind of what is at a path. Links count for what they lead to at the start of a walk only. -/
def kindAt? (path : FilePath) (followsLinks : Bool) : IO (Option IO.FS.FileType) := do
  let place := (← IO.currentDir) / path.text
  try
    let found ← if followsLinks then place.metadata else place.symlinkMetadata
    return some found.type
  catch _ => return none

/-- The files at a path and below it. Directories that cannot be read count as empty. -/
partial def filesFrom (path : FilePath) (followsLinks : Bool) : IO (List FilePath) := do
  match ← kindAt? path followsLinks with
  | some .file => return [path]
  | some .dir =>
      let place := (← IO.currentDir) / path.text
      let entries ← try place.readDir catch _ => pure #[]
      let found ← entries.toList.mapM fun entry => filesFrom (path.child entry.fileName) false
      return found.flatten
  | _ => return []

instance : FileStore IO where
  read? path := try some <$> IO.FS.readFile path.text catch _ => pure none
  filesAt path := filesFrom path true
  write path text := try .ok <$> IO.FS.writeFile path.text text
    catch fault => pure (.error (.ofSystem fault))

/-- Whether colors are shown: as the environment demands, or else on terminals. -/
def showsColors : IO Bool := do
  if (← IO.getEnv "FORCE_COLOR").isSome then return true
  if (← IO.getEnv "NO_COLOR").isSome then return false
  if (← IO.getEnv "TERM") == some "dumb" then return false
  (← IO.getStdout).isTty

/-- A remark as a line of the log. -/
def Warning.logLine (warning : Warning) : String :=
  let parts := warning.fields.map fun (name, value) =>
    if name == "message" then value else name ++ "=" ++ value
  "WARN " ++ " ".intercalate parts

end ClauseRules

open ClauseRules

def main (args : List String) : IO UInt32 := do
  let completion ← ((Request.ofCommandLine args).answer (← showsColors) : IO Completion)
  for warning in completion.warnings do
    IO.eprintln warning.logLine
  IO.print completion.output
  match completion.verdict with
  | .error failure => IO.eprintln failure.text
  | .ok .misuse => IO.eprint usage
  | .ok _ => pure ()
  return completion.exitCode.toUInt32
