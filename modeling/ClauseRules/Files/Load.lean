import ClauseRules.Config.File
import ClauseRules.Dictionary.Json
import ClauseRules.Document.File
import ClauseRules.Files.Store
import ClauseRules.Record.File

/-! Reading the files that compilations start from, and keeping settings. -/

namespace ClauseRules

/-- What a file is read as. -/
inductive FileKind where
  | config
  | dictionary
  | document
  | records
deriving DecidableEq, Repr

def FileKind.name : FileKind → String
  | .config => "config file"
  | .dictionary => "dictionary"
  | .document => "document"
  | .records => "clause records"

/-- Why the text of a file is not what the file is read as. -/
inductive ContentError where
  | config
  | json (error : Json.Error)
  | document (error : DocumentError)

/-- Why a file cannot be loaded. -/
inductive LoadError where
  | unreadable (kind : FileKind) (path : FilePath)
  | malformed (kind : FileKind) (path : FilePath) (cause : ContentError)
  /-- The name of a document says nothing about its syntax. -/
  | unsupportedFormat (path : FilePath)

def LoadError.message : LoadError → String
  | .unreadable kind path => "failed to read " ++ kind.name ++ " '" ++ path.text ++ "'"
  | .malformed kind path _ => "failed to parse " ++ kind.name ++ " '" ++ path.text ++ "'"
  | .unsupportedFormat path =>
      "unsupported document format '" ++ path.text ++ "': expected .yaml, .yml or .json"

variable {m : Type → Type} [Monad m] [FileStore m]

/-- Loads a file from its text. -/
def load {α : Type} (kind : FileKind) (path : FilePath) (read : String → Except ContentError α)
    : ExceptT LoadError m α := do
  match ← (FileStore.read? path : m (Option String)) with
  | none => throw (.unreadable kind path)
  | some text =>
      match read text with
      | .ok value => return value
      | .error cause => throw (.malformed kind path cause)

def Config.load (path : FilePath) : ExceptT LoadError m Config :=
  ClauseRules.load .config path fun text =>
    match Config.ofTomlText? text with
    | some config => .ok config
    | none => .error .config

def Dictionary.load (path : FilePath) : ExceptT LoadError m Dictionary :=
  ClauseRules.load .dictionary path fun text => (Dictionary.ofJsonText text).mapError .json

/-- Loads a document, whose name says how it is written. -/
def Document.load (path : FilePath) : ExceptT LoadError m Document :=
  match DocumentFormat.ofPath? path with
  | none => throw (.unsupportedFormat path)
  | some format =>
      ClauseRules.load .document path fun text => (Document.ofText format text).mapError .document

def loadRecords (path : FilePath) : ExceptT LoadError m (List RecordGroup) :=
  load .records path fun text => (groupsOfText text).mapError .json

/-- Why settings cannot be saved. -/
structure SaveError where
  path : FilePath
  cause : WriteFault
deriving DecidableEq, Repr

def SaveError.message (error : SaveError) : String :=
  "failed to write config file '" ++ error.path.text ++ "'"

def Config.save (config : Config) (path : FilePath) : m (Except SaveError Unit) := do
  return (← FileStore.write path config.tomlText).mapError (⟨path, ·⟩)

end ClauseRules
