import ClauseRules.Config.Json
import ClauseRules.Text.Lines
import ClauseRules.Toml.Printer
import ClauseRules.Toml.Reader

/-! Files of settings, in TOML. -/

namespace ClauseRules.Config

/-- Reads a file of settings; nothing if it is not one. -/
def ofTomlText? (text : String) : Option Config := do
  let tree ← Toml.parse? text
  (ofJson tree.toJson).toOption

/-- The version of the files that are written. -/
def currentVersion : String := "1"

/-- The settings as a file. -/
def tomlText (config : Config) : String :=
  let entries :=
    [(versionField, Toml.stringText currentVersion),
      ("fallback_object", Toml.stringText config.fallbackObject),
      ("reject_duplicate_nodes", if config.rejectDuplicateNodes then "true" else "false"),
      ("imports", Toml.arrayText config.imports)]
  Text.unlines (entries.map fun (key, value) => key ++ " = " ++ value)

end ClauseRules.Config
