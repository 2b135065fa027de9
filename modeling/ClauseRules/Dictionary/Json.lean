import ClauseRules.Dictionary.Basic
import ClauseRules.Json.Printer
import ClauseRules.Json.Reader

/-! Dictionaries as JSON files: classes by name, each with a list of properties. -/

namespace ClauseRules

open Json (Error list record readName)

namespace DataType

def name : DataType → String
  | .number => "number"
  | .boolean => "boolean"
  | .string => "string"

def ofJson (v : Json) : Except Error DataType :=
  readName [("number", .number), ("boolean", .boolean), ("string", .string)] v

end DataType

namespace PropertyDescriptor

/-- A field for a list that is left out when it is empty. -/
def listField (name : String) (texts : List String) : List (String × Json) :=
  if texts.isEmpty then [] else [(name, list (texts.map Json.string))]

def toJson (descriptor : PropertyDescriptor) : Json :=
  record ([("name", .string descriptor.name)]
    ++ (descriptor.dataType.map fun t => ("data_type", Json.string t.name)).toList
    ++ listField "units" descriptor.units ++ listField "references" descriptor.references
    ++ listField "values" descriptor.values)

def ofJson (v : Json) : Except Error PropertyDescriptor := do
  let r ← Source.fields "struct PropertyDescriptor"
    ["name", "data_type", "units", "references", "values"] v
  let texts := fun name => r.listOf name fun w _ => Json.readText w
  r.finish (PropertyDescriptor.mk <$> r.requiredText "name"
    <*> r.optional "data_type" (fun w _ => DataType.ofJson w)
    <*> texts "units" <*> texts "references" <*> texts "values")

end PropertyDescriptor

namespace Dictionary

def toJson (d : Dictionary) : Json :=
  record [("objects", record (d.objects.toList.map fun (object, properties) =>
    (object, record [("properties", list (properties.values.map PropertyDescriptor.toJson))])))]

/-- The dictionary as a JSON file. -/
def jsonText (d : Dictionary) : String := d.toJson.pretty

/-- The properties in the entry of a class. -/
def readEntry (v : Json) : Except Error (List PropertyDescriptor) := do
  let r ← Source.fields "struct ObjectEntry" ["properties"] v
  r.finish (r.listOf "properties" fun w _ => PropertyDescriptor.ofJson w)

/-- Entries are taken over in the order of their names, of several with one name the last. -/
def ofEntries (entries : List (String × List PropertyDescriptor)) : Dictionary :=
  let entries := entries.foldl (fun m (object, properties) => m.insert object properties)
    (∅ : SortedMap String (List PropertyDescriptor))
  entries.toList.foldl
    (fun d (object, properties) => properties.foldl (·.addProperty object ·) (d.addObject object))
    empty

def ofJson (v : Json) : Except Error Dictionary := do
  let r ← Source.fields "struct DictionaryFile" ["objects"] v
  let entries ← r.finish (r.withDefault "objects" [] fun w _ => Json.readMap w fun x _ =>
    readEntry x)
  return ofEntries entries

def ofJsonText (text : String) : Except Error Dictionary := (Json.parse text).read ofJson

end Dictionary

end ClauseRules
