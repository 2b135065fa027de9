import ClauseRules.Dictionary.Json
import ClauseRules.Node.Basic
import ClauseRules.Rule.Order

/-! How documents and a dictionary match. Compilation stops at the first property that the
dictionary does not know; an audit finds all gaps on both sides.
-/

namespace ClauseRules

/-- A gap between documents and dictionary. A citation says where a tag stands. -/
inductive Finding where
  /-- No class owns the property of a tag. -/
  | unknownProperty (property citation : String)
  /-- No tag uses a property of the dictionary. -/
  | unusedProperty (object property : String)
  /-- The dictionary does not list the unit of a tag. -/
  | unlistedUnit (object property unit citation : String)
  /-- The value of a tag does not look like the data type of its property. -/
  | dataTypeMismatch (object property : String) (expected : DataType) (value citation : String)
deriving DecidableEq, Repr

namespace Finding

def expectation : DataType → String
  | .number => "Number"
  | .boolean => "Boolean"
  | .string => "String"

def message : Finding → String
  | .unknownProperty property citation =>
      "'" ++ property ++ "' is not in the dictionary [" ++ citation ++ "]"
  | .unusedProperty object property =>
      object ++ ":" ++ property ++ " is not used by any document"
  | .unlistedUnit object property unit citation =>
      object ++ ":" ++ property ++ " does not list unit '" ++ unit ++ "' [" ++ citation ++ "]"
  | .dataTypeMismatch object property expected value citation =>
      object ++ ":" ++ property ++ " expects a " ++ expectation expected ++ " value, found '"
        ++ value ++ "' [" ++ citation ++ "]"

def rank : Finding → Nat
  | .unknownProperty _ _ => 0
  | .unusedProperty _ _ => 1
  | .unlistedUnit _ _ _ _ => 2
  | .dataTypeMismatch _ _ _ _ _ => 3

/-- Findings are ordered by kind, and then part by part. -/
instance : Ord Finding where
  compare
    | .unknownProperty p c, .unknownProperty q d => compareLists [p, c] [q, d]
    | .unusedProperty o p, .unusedProperty n q => compareLists [o, p] [n, q]
    | .unlistedUnit o p u c, .unlistedUnit n q v d => compareLists [o, p, u, c] [n, q, v, d]
    | .dataTypeMismatch o p t v c, .dataTypeMismatch n q u w d =>
        (compareLists [o, p] [n, q]).then
          ((compare t.rank u.rank).then (compareLists [v, c] [w, d]))
    | a, b => compare a.rank b.rank

end Finding

def Tag.citation (tag : Tag) : String := tag.reference ++ "/" ++ tag.id.text

/-- The gaps between a tag and what its property is to a class. -/
def descriptorFindings (tag : Tag) (object : String) (descriptor : PropertyDescriptor)
    : List Finding :=
  let isListed := descriptor.units.any fun u => Text.lowerAscii u == Text.lowerAscii tag.unit
  let unit :=
    if tag.unit.isEmpty || isListed then []
    else [.unlistedUnit object descriptor.name tag.unit tag.citation]
  let type :=
    match descriptor.dataType with
    | some expected =>
        if DataType.infer tag.value == expected then []
        else [.dataTypeMismatch object descriptor.name expected tag.value tag.citation]
    | none => []
  unit ++ type

namespace Dictionary

/-- What a property is to each class that owns it. -/
def descriptors (d : Dictionary) (property : String) : List (String × PropertyDescriptor) :=
  (d.owners property).toList.filterMap fun object =>
    (d.property? object property).map fun descriptor => (object, descriptor)

/-- The gaps of a single tag. One that names a class is a declaration and has none. -/
def tagFindings (d : Dictionary) (tag : Tag) : List Finding :=
  if d.containsObject tag.property then []
  else if (d.owners tag.property).isEmpty then [.unknownProperty tag.property tag.citation]
  else
    (d.descriptors tag.property).flatMap fun (object, descriptor) =>
      descriptorFindings tag object descriptor

/-- The properties that a tag uses, each with its class. -/
def usedBy (d : Dictionary) (tag : Tag) : List (String × String) :=
  if d.containsObject tag.property then []
  else (d.descriptors tag.property).map fun (object, descriptor) => (object, descriptor.name)

end Dictionary

/-- The outcome of an audit. -/
structure Report where
  /-- The number of tags that were looked at. -/
  tags : Nat
  findings : SortedSet Finding
deriving DecidableEq, Repr

namespace Report

def isClean (report : Report) : Bool := report.findings.isEmpty

end Report

/-- Compares all tags below some nodes with a dictionary. -/
def audit (nodes : List Node) (d : Dictionary) : Report :=
  let tags := Node.tagsOfList nodes
  let used := tags.flatMap d.usedBy
  let unused := d.properties.filterMap fun (object, descriptor) =>
    if used.contains (object, descriptor.name) then none
    else some (.unusedProperty object descriptor.name)
  ⟨tags.length, SortedSet.ofList (tags.flatMap d.tagFindings ++ unused)⟩

end ClauseRules
