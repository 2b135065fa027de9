import ClauseRules.Files.Path

/-! Stores of files, as far as commands need them. -/

namespace ClauseRules

/-- Why a file cannot be written: the system's words and its number for them. -/
structure WriteFault where
  details : String
  code : Nat
deriving DecidableEq, Repr

namespace WriteFault

/-- There is no directory to hold the file. -/
def noSuchFile : WriteFault := ⟨"No such file or directory", 2⟩

/-- A step on the way is a file. -/
def notDirectory : WriteFault := ⟨"Not a directory", 20⟩

/-- There is a directory in the place of the file. -/
def isDirectory : WriteFault := ⟨"Is a directory", 21⟩

def message (fault : WriteFault) : String :=
  fault.details ++ " (os error " ++ toString fault.code ++ ")"

end WriteFault

/-- A place in which files are found and kept. -/
class FileStore (m : Type → Type) where
  /-- The text of a file, or nothing when it cannot be read or is no text. -/
  read? : FilePath → m (Option String)
  /-- The path itself if there is a file, and the files anywhere below it if it is a directory, in
  any order. -/
  filesAt : FilePath → m (List FilePath)
  /-- Writes a file, in place of any that is there. -/
  write : FilePath → String → m (Except WriteFault Unit)

end ClauseRules
