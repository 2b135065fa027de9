import ClauseRules.Coverage
import ClauseRules.Document
import ClauseRules.Files.Path
import ClauseRules.Text.Lines

/-! The reports that commands print, with colors for good news and for warnings. -/

namespace ClauseRules

namespace Paint

/-- The text in a color, which is the shares of red, green and blue, if colors are shown at all. -/
def inColor (color : String) (isColored : Bool) (text : String) : String :=
  if isColored then "\x1b[38;2;" ++ color ++ "m" ++ text ++ "\x1b[39m" else text

def success : Bool → String → String := inColor "000;128;000"

def warning : Bool → String → String := inColor "255;165;000"

end Paint

/-- How the program is used. -/
def usage : String :=
  Text.unlines ["Commands:",
    "  compile <document> <dictionary> [-o <file>] [-f drl|json] [--config <file>]",
    "  validate <document> [--dictionary <file>] [-q]",
    "  check <dictionary> <document or directory>... [-q]",
    "  records <file> [--name <name>] [-o <file>] [-f drl|json] [--config <file>]"]

def bullet (text : String) : String := "  • " ++ text

/-- The report on a document, its problems and its unknown properties. -/
def validationReport (isColored : Bool) (document : Document) (unknown : List Finding) : String :=
  let violations := document.violations
  let structureLines :=
    if violations.isEmpty then
      ["✓ Structure:  " ++ toString document.sections.length ++ " sections, all compilable"]
    else
      Paint.warning isColored ("✗ Structure:  " ++ toString violations.length ++ " issues found")
        :: violations.map fun violation => bullet violation.message
  let propertyLines :=
    if unknown.isEmpty then ["✓ Properties: all tagged properties known"]
    else
      Paint.warning isColored
          ("✗ Properties: " ++ toString unknown.length ++ " unknown properties")
        :: unknown.map fun finding => bullet finding.message
  let total := violations.length + unknown.length
  let summary :=
    if total == 0 then Paint.success isColored "Document is compilable (0 issues)"
    else Paint.warning isColored ("Summary: " ++ toString total ++ " issues found")
  Text.unlines (["Validating " ++ document.base ++ "...", ""] ++ structureLines ++ propertyLines
    ++ ["", summary])

/-- The news that rules were written to a file. -/
def writtenReport (isColored : Bool) (rules : Nat) (path : FilePath) : String :=
  Text.unlines [Paint.success isColored
    ("✓ " ++ toString rules ++ " rules written to " ++ path.text)]

/-- The report on an audit of a number of documents. -/
def auditReport (isColored : Bool) (documents : Nat) (report : Report) : String :=
  let findings := report.findings.toList
  let lines :=
    if report.isClean then [Paint.success isColored "✓ Documents and dictionary agree"]
    else
      Paint.warning isColored ("✗ " ++ toString findings.length ++ " findings")
        :: findings.map fun finding => bullet finding.message
  Text.unlines (["Checked " ++ toString report.tags ++ " tags in " ++ toString documents
    ++ " documents", ""] ++ lines)

end ClauseRules
