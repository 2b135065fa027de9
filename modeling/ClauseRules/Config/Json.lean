import ClauseRules.Config
import ClauseRules.Json.Reader

/-! Settings as a tree of values, whose field `_version` says how the others are to be read. -/

namespace ClauseRules

open Json (Error)

namespace Config

/-- The field that holds the version. -/
def versionField : String := "_version"

/-- The fields of the first version. -/
def fieldNames : List String := ["fallback_object", "reject_duplicate_nodes", "imports"]

def checkVersion (v : Json) : Except Error Unit :=
  match v with
  | .string "1" => .ok ()
  | .string s => .error (.mismatch (.unknownVariant s ["1"]))
  | v => .error (Json.unexpected v "variant identifier")

/-- Reads the fields other than the version. -/
def ofFields (fields : List (String × Json)) : Except Error Config := do
  let r ← Source.fields "struct variant Versions::V1" fieldNames (Json.record fields)
  r.finish (Config.mk
    <$> r.withDefault "fallback_object" defaultFallbackObject (fun w _ => Json.readText w)
    <*> r.withDefault "reject_duplicate_nodes" false (fun w _ => Json.readBool w)
    <*> r.withDefault "imports" defaultImports (fun w _ =>
      Source.list w fun x _ => Json.readText x))

/-- Reads settings from an object, or from an array of the version and the fields in order. -/
def ofJson (v : Json) : Except Error Config :=
  match v.readingFault, v with
  | some f, _ => .error (.fault f)
  | none, .object fields _ => do
      match fields.lookup versionField with
      | some version => checkVersion version
      | none => throw (.mismatch (.missingField versionField))
      ofFields (fields.filter (·.1 != versionField))
  | none, .array (version :: items) _ => do
      checkVersion version
      let config ← ofFields (fieldNames.zip items)
      if fieldNames.length < items.length then
        throw (.mismatch (.invalidLength items.length "3 elements in sequence"))
      return config
  | none, .array [] _ => .error (.mismatch (.missingField versionField))
  | none, v => .error (Json.unexpected v "internally tagged enum Versions")

end Config

end ClauseRules
