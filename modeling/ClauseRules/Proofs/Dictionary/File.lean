import ClauseRules.Proofs.Dictionary.Keys
import ClauseRules.Proofs.Json.Printed
import ClauseRules.Proofs.Json.Records

/-! Files of dictionaries are lossless. Of a property all is written that is known of it, and of a
class the properties in their order; the names under which both are found are not written, but
follow from what is.
-/

namespace ClauseRules

open Json (Plain fields_object list record)

theorem DataType.ofJson_name (t : DataType) : ofJson (.string t.name) = .ok t :=
  Json.readName_string (by cases t <;> rfl)

/-! ### Properties -/

namespace PropertyDescriptor

variable {name : String} {texts : List String} {field : String × Json}

@[simp]
theorem mem_listField
    : field ∈ listField name texts ↔ texts ≠ [] ∧ field = (name, list (texts.map Json.string)) := by
  cases texts <;> simp [listField]

theorem listField_sublist : ((listField name texts).map (·.1)).Sublist [name] := by
  cases texts <;> simp [listField]

/-- The fields of a property, of which those are left out that hold nothing. -/
def jsonFields (p : PropertyDescriptor) : List (String × Json) :=
  [("name", .string p.name)] ++ (p.dataType.map fun t => ("data_type", Json.string t.name)).toList
    ++ listField "units" p.units ++ listField "references" p.references
    ++ listField "values" p.values

theorem jsonFields_sublist (p : PropertyDescriptor)
    : (p.jsonFields.map (·.1)).Sublist ["name", "data_type", "units", "references", "values"] := by
  have dataType
      : ((p.dataType.map fun t => ("data_type", Json.string t.name)).toList.map (·.1)).Sublist
          ["data_type"] := by
    cases p.dataType <;> simp
  simp only [jsonFields, List.map_append]
  exact ((((List.Sublist.refl ["name"]).append dataType).append listField_sublist).append
    listField_sublist).append listField_sublist

theorem ofJson_toJson (p : PropertyDescriptor) : ofJson p.toJson = .ok p := by
  have names := p.jsonFields_sublist
  obtain ⟨r, run, complete⟩ :=
    fields_object "struct PropertyDescriptor" ["name", "data_type", "units", "references", "values"]
      p.jsonFields
      (fun field listed => names.subset (List.mem_map_of_mem listed))
      (names.nodup (by decide))
  have name := complete.requiredText "name" (s := p.name) (by simp [jsonFields])
  have dataType
      : r.optional "data_type" (fun w _ => DataType.ofJson w) = .pure p.dataType := by
    cases type : p.dataType with
    | none => exact complete.optional_of_absent _ (by simp [jsonFields, type])
    | some t => exact complete.optional _ (by simp [jsonFields, type]) fun _ => t.ofJson_name
  have texts (name : String) (values : List String)
      (listed : values ≠ [] → (name, list (values.map Json.string)) ∈ p.jsonFields)
      (absent : values = [] → name ∉ p.jsonFields.map (·.1))
      : r.listOf name (fun w _ => Json.readText w) = .pure values := by
    by_cases none : values = []
    · rw [none]
      exact complete.withDefault_of_absent _ _ (absent none)
    · exact complete.listOf values Json.string _ (listed none) fun _ _ _ => rfl
  have units := texts "units" p.units (by simp +contextual [jsonFields])
    (by simp +contextual [jsonFields])
  have references := texts "references" p.references (by simp +contextual [jsonFields])
    (by simp +contextual [jsonFields])
  have values := texts "values" p.values (by simp +contextual [jsonFields])
    (by simp +contextual [jsonFields])
  have written : p.toJson = .object p.jsonFields none := rfl
  rw [written]
  simp only [ofJson, run, bind, Except.bind, name, dataType, units, references, values,
    Ranked.map_pure, Ranked.pure_seq_pure, complete.finish]

theorem plain_listField : ∀ field ∈ listField name texts, Plain 1 field.2 := by
  intro field listed
  obtain ⟨_, rfl⟩ := mem_listField.mp listed
  exact Json.plain_list (List.forall_mem_map.mpr fun _ _ => .string)

theorem plain (p : PropertyDescriptor) : Plain 2 p.toJson := by
  refine Json.plain_record ?_
  simp only [List.forall_mem_append]
  refine ⟨⟨⟨⟨?_, ?_⟩, plain_listField⟩, plain_listField⟩, plain_listField⟩
  · exact List.forall_mem_singleton.mpr .string
  · simpa using fun _ _ => .string

end PropertyDescriptor

/-! ### Dictionaries -/

namespace Dictionary

variable {d : Dictionary} {text : String}

/-- The entry of a class as a JSON value. -/
def entryJson (properties : List PropertyDescriptor) : Json :=
  record [("properties", list (properties.map PropertyDescriptor.toJson))]

theorem toJson_eq (d : Dictionary)
    : d.toJson
      = record [("objects", record (d.entries.map fun entry => (entry.1, entryJson entry.2)))] := by
  simp only [toJson, entries, List.map_map]
  rfl

theorem readEntry_entryJson (properties : List PropertyDescriptor)
    : readEntry (entryJson properties) = .ok properties := by
  obtain ⟨r, run, complete⟩ := fields_object "struct ObjectEntry" ["properties"]
    [("properties", list (properties.map PropertyDescriptor.toJson))] (by simp) (by simp)
  have values := complete.listOf properties PropertyDescriptor.toJson
    (fun w _ => PropertyDescriptor.ofJson w) (List.mem_singleton.mpr rfl)
    fun p _ _ => p.ofJson_toJson
  simp only [readEntry, entryJson, record, run, bind, Except.bind, values, complete.finish]

theorem ofJson_toJson (d : Dictionary) : ofJson d.toJson = .ok (ofEntries d.entries) := by
  let objects := record (d.entries.map fun entry => (entry.1, entryJson entry.2))
  obtain ⟨r, run, complete⟩ := fields_object "struct DictionaryFile" ["objects"]
    [("objects", objects)] (by simp) (by simp)
  have read
      : (r.withDefault "objects" [] fun w _ => Json.readMap w fun x _ => readEntry x)
        = .pure d.entries :=
    complete.withDefault [] _ (List.mem_singleton.mpr rfl) fun _ =>
      Json.readMap_record d.entries entryJson _ fun entry _ _ => readEntry_entryJson entry.2
  have written : d.toJson = .object [("objects", objects)] none := toJson_eq d
  rw [written]
  simp only [ofJson, run, bind, Except.bind, read, complete.finish]
  rfl

theorem plain (d : Dictionary) : Plain 6 d.toJson := by
  rw [toJson_eq]
  refine Json.plain_record (List.forall_mem_singleton.mpr (Json.plain_record ?_))
  refine List.forall_mem_map.mpr fun entry _ => Json.plain_record ?_
  refine List.forall_mem_singleton.mpr (Json.plain_list ?_)
  exact List.forall_mem_map.mpr fun p _ => p.plain

/-- A dictionary in which everything stands under its own name is read from the file that it is
written to.
-/
theorem Keyed.read_jsonText (keyed : d.Keyed) : ofJsonText d.jsonText = .ok d := by
  have parsed : Json.parse d.jsonText = ⟨d.toJson, false⟩ := by
    have text : Json.parse (d.jsonText ++ "") = ⟨d.toJson, false⟩ :=
      Json.parse_pretty_append (d.plain.mono (by decide)) (by decide)
    rwa [String.append_empty] at text
  simp only [ofJsonText, parsed, Json.Document.read, ofJson_toJson, keyed.ofEntries_entries]
  rfl

/-- However a dictionary was made, it is read from the file that it is written to, its keys are
those of the names that they stand for, and a class owns a property exactly if the property is found
on it.
-/
theorem lossless_of_reachable (reachable : d.Reachable)
    : ofJsonText d.jsonText = .ok d
      ∧ (∀ object ∈ d.objectNames, objectKey object = object)
      ∧ (∀ entry ∈ d.objects.toList, ∀ property ∈ entry.2.toList,
        property.1 = propertyKey property.2.name)
      ∧ ∀ object ∈ d.objectNames, ∀ property,
        object ∈ d.owners property ↔ (d.property? object property).isSome := by
  have keyed := reachable.keyed
  refine ⟨keyed.read_jsonText, ?_, fun entry member => (keyed.properties entry member).key,
    fun object listed property => keyed.mem_owners_iff listed property⟩
  exact List.forall_mem_map.mpr keyed.object

/-- A file in which a class is spelled in two ways, and a property of it too. -/
def doorFile : String :=
  "\x7b\"objects\": \x7b\"DOOR\": \x7b\"properties\": [\x7b\"name\": \"Width\"\x7d]\x7d, "
    ++ "\" Door\": \x7b\"properties\": [\x7b\"name\": \"wi(d)th\", \"units\": [\"mm\"]\x7d]"
    ++ "\x7d\x7d\x7d"

/-- What the file is read as. -/
def spelledDoors : Dictionary := empty.addProperty "door" { name := "Width" }

/-- The classes of the file, and one whose name ends in a sigma. -/
def spelledWays : Dictionary := spelledDoors.addObject "ΟΔΟΣ"

theorem lossless_of_reachable_spelledWays
    : ofJsonText doorFile = .ok spelledDoors ∧ spelledWays.Reachable
      ∧ spelledWays.objectNames = ["door", "οδος"]
      ∧ ofJsonText spelledWays.jsonText = .ok spelledWays
      ∧ objectKey "οδος" = "οδος"
      ∧ (spelledWays.property? "door" "WIDTH").isSome
      ∧ "door" ∈ spelledWays.owners "WIDTH" := by
  have read : ofJsonText doorFile = .ok spelledDoors := by decide +kernel
  have reachable : spelledWays.Reachable := (Reachable.ofJsonText read).addObject _
  have names : spelledWays.objectNames = ["door", "οδος"] := by decide +kernel
  obtain ⟨lossless, objects, _, owners⟩ := lossless_of_reachable reachable
  have found : (spelledWays.property? "door" "WIDTH").isSome := by decide +kernel
  exact ⟨read, reachable, names, lossless, objects _ (by simp [names]), found,
    (owners "door" (by simp [names]) "WIDTH").mpr found⟩

end Dictionary

end ClauseRules
