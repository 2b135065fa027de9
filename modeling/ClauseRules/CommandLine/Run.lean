import ClauseRules.CommandLine.Completion
import ClauseRules.CommandLine.Invocation
import ClauseRules.CommandLine.Report
import ClauseRules.Record.Compile
import ClauseRules.Rule.Drl
import ClauseRules.Rule.Json

/-! Running a command over a store of files. Rules are written out in full before any file is
touched, so that a failure leaves the files as they were.
-/

namespace ClauseRules

/-- The findings about properties that the dictionary has never heard of. -/
def unknownProperties (document : Document) (d : Dictionary) : List Finding :=
  (audit document.nodes d).findings.toList.filter fun
    | .unknownProperty _ _ => true
    | _ => false

/-- Drops each path that equals the one before it. -/
def dropRepeated : List FilePath → List FilePath
  | [] => []
  | p :: rest => p :: go p rest
where
  go (last : FilePath) : List FilePath → List FilePath
    | [] => []
    | p :: rest => if compare last p == .eq then go last rest else p :: go p rest

/-- The paths in their order, of several that are equal the first. -/
def distinctPaths (paths : List FilePath) : List FilePath :=
  dropRepeated (paths.mergeSort fun p q => (compare p q).isLE)

namespace Invocation

variable {m : Type → Type} [Monad m] [FileStore m]

/-- A part of a command, which may fail. -/
abbrev Step (m : Type → Type) := ExceptT Failure m

def loading {α : Type} (x : ExceptT LoadError m α) : Step m α :=
  ExceptT.adapt Failure.ofLoadError x

/-- The settings in a file, or those that hold without one. -/
def loadConfig (path : Option FilePath) : Step m Config :=
  match path with
  | none => return {}
  | some path => loading (Config.load path)

def ruleText (format : RuleFormat) (config : Config) (rules : RuleSet) : Except Failure String :=
  match format with
  | .drl => (Drl.text config.imports rules).mapError fun error => { message := error.message }
  | .json => .ok rules.jsonText

/-- Writes rules to their file or to the output, and gives the output. -/
def emit (isColored : Bool) (emission : Emission) (config : Config) (rules : RuleSet)
    : Step m String := do
  match ruleText emission.format config rules, emission.output with
  | .error failure, _ => throw failure
  | .ok text, none => return text
  | .ok text, some path =>
      match ← (FileStore.write path text : m (Except WriteFault Unit)) with
      | .ok () => return writtenReport isColored rules.size path
      | .error fault =>
          throw ⟨"failed to write rules to '" ++ path.text ++ "'", [fault.message]⟩

/-- Finishes a command that compiled the file at `path`. -/
def finish (isColored : Bool) (path : FilePath) (emission : Emission) (config : Config)
    (compiled : Except CompileError RuleSet × List Warning) : Step m Completion := do
  let emitted : Step m String :=
    match compiled.1 with
    | .error error => throw (.ofCompileError path error)
    | .ok rules => emit isColored emission config rules
  tryCatch (do return { output := (← emitted), warnings := compiled.2 }) fun failure =>
    return { warnings := compiled.2, verdict := .error failure }

/-- The name of a document whose records are in a file. -/
def recordsName (path : FilePath) (name : Option String) : Except Failure String :=
  match name.or path.stem? with
  | some name => .ok name
  | none => .error { message := "cannot derive a document name, pass --name" }

/-- The output and verdict of a command that may find something. -/
def verdict (quiet : Bool) (output : String) (isClean : Bool) : Completion where
  output := if quiet then "" else output
  verdict := .ok (if isClean then .clean else .findings)

/-- The document files at and below some paths. -/
def documentFiles (paths : List FilePath) : m (List FilePath) := do
  let found ← paths.mapM fun path => (FileStore.filesAt path : m (List FilePath))
  return distinctPaths (found.flatten.filter fun path => (DocumentFormat.ofPath? path).isSome)

/-- Carries out an invocation up to the failure that cuts it short. -/
def perform (isColored : Bool) : Invocation → Step m Completion
  | .compile documentPath dictionaryPath emission => do
      let config ← loadConfig emission.config
      let d ← loading (Dictionary.load dictionaryPath)
      let document ← loading (Document.load documentPath)
      finish isColored documentPath emission config (document.compile ⟨d.vocabulary, config⟩)
  | .validate path dictionaryPath quiet => do
      let document ← loading (Document.load path)
      let unknown ← match dictionaryPath with
        | none => pure []
        | some path => unknownProperties document <$> loading (Dictionary.load path)
      return verdict quiet (validationReport isColored document unknown)
        (document.violations.isEmpty && unknown.isEmpty)
  | .check dictionaryPath paths quiet => do
      let d ← loading (Dictionary.load dictionaryPath)
      let files ← (documentFiles paths : m (List FilePath))
      let documents ← files.mapM fun path => loading (Document.load path)
      let report := audit (documents.flatMap Document.nodes) d
      return verdict quiet (auditReport isColored files.length report) report.isClean
  | .records path name emission => do
      let config ← loadConfig emission.config
      let groups ← loading (loadRecords path)
      let name ← ExceptT.mk (pure (recordsName path name))
      finish isColored path emission config (compileRecords name groups)

/-- Carries out an invocation. -/
def run (isColored : Bool) (invocation : Invocation) : m Completion := do
  match ← (perform isColored invocation).run with
  | .ok completion => return completion
  | .error failure => return { verdict := .error failure }

end Invocation

/-- Carries out what a command line asks for. -/
def Request.answer {m : Type → Type} [Monad m] [FileStore m] (isColored : Bool)
    : Request → m Completion
  | .run invocation => invocation.run isColored
  | .information => return { output := usage }
  | .misuse => return { verdict := .ok .misuse }

end ClauseRules
