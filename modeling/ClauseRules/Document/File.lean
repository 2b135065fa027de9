import ClauseRules.Document.Table
import ClauseRules.Files.Path
import ClauseRules.Json.Reader
import ClauseRules.Yaml.Reader

/-! Document files. The extension of a file's name says which syntax it is written in. -/

namespace ClauseRules

/-- A syntax of document files. -/
inductive DocumentFormat where
  | yaml
  | json
deriving DecidableEq, Repr

/-- The syntax of a file with the given path. Upper and lower case make no difference. -/
def DocumentFormat.ofPath? (p : FilePath) : Option DocumentFormat :=
  match p.extension?.map (·.map Char.toLower) with
  | some "yaml" | some "yml" => some .yaml
  | some "json" => some .json
  | _ => none

/-- Why a text is no document. -/
inductive DocumentError where
  | yaml (error : Yaml.Error)
  | json (error : Json.Error)
  | entry (error : EntryError)

namespace Document

def entryOfText (format : DocumentFormat) (text : String) : Except DocumentError DocumentEntry :=
  match format with
  | .yaml => (Yaml.readDocument DocumentEntry.read text).mapError .yaml
  | .json => ((Json.parse text).read DocumentEntry.read).mapError .json

/-- Reads a document file. -/
def ofText (format : DocumentFormat) (text : String) : Except DocumentError Document := do
  let entry ← entryOfText format text
  (ofEntry entry).mapError .entry

end Document

end ClauseRules
