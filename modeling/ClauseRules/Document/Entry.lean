import ClauseRules.Source.Basic

/-! The entries of a document file, in any syntax, as they are written: ids and kinds are still
unchecked, and an entry that has to hold one of two things may hold both or none.
-/

namespace ClauseRules

variable {ν ε : Type} [Nested ν] [Source ν ε]

/-- What identifies a document. -/
structure Metadata where
  jurisdiction : String
  documentType : String
  title : String
  version : String
  startSection : Option String

namespace Metadata

def base (m : Metadata) : String :=
  "/".intercalate ([m.jurisdiction, m.documentType, m.title, m.version] ++ m.startSection.toList)

def read (v : ν) : Except ε Metadata := do
  let r ← Source.fields "struct Metadata"
    ["jurisdiction", "type", "title", "version", "start_section"] v
  r.finish (Metadata.mk <$> r.requiredScalar "jurisdiction" <*> r.requiredScalar "type"
    <*> r.requiredScalar "title" <*> r.requiredScalar "version"
    <*> r.optionalScalar "start_section")

end Metadata

structure TagEntry where
  id : String
  kind : String
  property : String
  comparator : Option String
  value : Option String
  unit : Option String
  reference : Option String

def TagEntry.read (v : ν) : Except ε TagEntry := do
  let r ← Source.fields "struct TagEntry"
    ["id", "kind", "property", "comparator", "value", "unit", "reference"] v
  r.finish (TagEntry.mk <$> r.requiredText "id" <*> r.requiredText "kind"
    <*> r.requiredText "property" <*> r.optionalText "comparator" <*> r.optionalScalar "value"
    <*> r.optionalScalar "unit" <*> r.optionalText "reference")

inductive NodeEntry where
  | tag (entry : TagEntry)
  | container (id kind : String) (reference : Option String) (children : List NodeEntry)
  /-- Both a tag and a container, or neither. -/
  | misshapen

namespace NodeEntry

/-- The entry with the given parts, of which there has to be one. -/
def ofParts : Option TagEntry → Option NodeEntry → NodeEntry
  | some entry, none => .tag entry
  | none, some node => node
  | _, _ => .misshapen

def read (v : ν) : Except ε NodeEntry := do
  let r ← Source.fields "struct NodeEntry" ["tag", "container"] v
  r.finish (ofParts <$> r.optional "tag" (fun w _ => TagEntry.read w)
    <*> r.optional "container" (fun w _ => do
      let s ← Source.fields "struct ContainerEntry" ["id", "kind", "reference", "children"] w
      s.finish (NodeEntry.container <$> s.requiredText "id" <*> s.requiredText "kind"
        <*> s.optionalText "reference" <*> s.listOf "children" (fun x _ => read x))))
termination_by v
decreasing_by exact Nested.below_trans ‹Nested.Below x w› ‹Nested.Below w v›

end NodeEntry

inductive CellEntry where
  | title (nodes : List NodeEntry)
  | data (nodes : List NodeEntry)
  /-- Both a title and data, or neither. -/
  | misshapen

namespace CellEntry

/-- The cell with the given parts, of which there has to be one. -/
def ofParts : Option (List NodeEntry) → Option (List NodeEntry) → CellEntry
  | some entries, none => .title entries
  | none, some entries => .data entries
  | _, _ => .misshapen

def read (v : ν) : Except ε CellEntry := do
  let r ← Source.fields "struct CellEntry" ["title", "data"] v
  let nodes := fun name => r.optional name fun w _ => Source.list w fun x _ => NodeEntry.read x
  r.finish (ofParts <$> nodes "title" <*> nodes "data")

end CellEntry

abbrev RowEntry := List CellEntry

abbrev TableEntry := List RowEntry

def readRow (v : ν) : Except ε RowEntry := do
  let r ← Source.fields "struct RowEntry" ["cells"] v
  r.finish (r.listOf "cells" fun w _ => CellEntry.read w)

def readTable (v : ν) : Except ε TableEntry := do
  let r ← Source.fields "struct TableEntry" ["rows"] v
  r.finish (r.listOf "rows" fun w _ => readRow w)

structure DocumentEntry where
  metadata : Metadata
  items : List NodeEntry
  tables : List TableEntry

def DocumentEntry.read (v : ν) : Except ε DocumentEntry := do
  let r ← Source.fields "struct DocumentFile" ["metadata", "items", "tables"] v
  r.finish (DocumentEntry.mk <$> r.required "metadata" (fun w _ => Metadata.read w)
    <*> r.listOf "items" (fun w _ => NodeEntry.read w)
    <*> r.listOf "tables" (fun w _ => readTable w))

end ClauseRules
