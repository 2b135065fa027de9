import ClauseRules.Document
import ClauseRules.Document.Entry

/-! Documents made from the entries of a file. A table stands for one section for each of its data
cells, which holds the nodes of the titles in the row and in the column of the cell, and then
its own.
-/

namespace ClauseRules

/-- What is wrong with the entries of a file. -/
inductive EntryError where
  | node (error : NodeError)
  | nodeShape
  | cellShape
deriving DecidableEq, Repr

def EntryError.message : EntryError → String
  | .node error => error.message
  | .nodeShape => "node entry must hold exactly one of 'tag' or 'container'"
  | .cellShape => "table cell must hold exactly one of 'title' or 'data'"

/-- A checked id and kind. -/
def checkNode (id kind : String) : Except EntryError (NodeId × Kind) :=
  let checked := do
    let id ← NodeId.ofText id
    let kind ← Kind.ofText kind
    return (id, kind)
  match checked with
  | .ok pair => .ok pair
  | .error e => .error (.node e)

/-- The tag of an entry; `reference` counts where the entry has none. -/
def TagEntry.toTag (entry : TagEntry) (reference : String) : Except EntryError Tag := do
  let (id, kind) ← checkNode entry.id entry.kind
  let tag : Tag :=
    { id, kind, property := entry.property, reference := entry.reference.getD reference
      rawComparator := entry.comparator, unit := entry.unit.getD "" }
  return tag.withValue (entry.value.getD "")

namespace NodeEntry

mutual

/-- The node of an entry; what has no reference takes that of the section around it. -/
def toNode (reference : String) : NodeEntry → Except EntryError Node
  | .tag entry => .tag <$> entry.toTag reference
  | .container id kind own children => do
      let reference := own.getD reference
      let children ← toNodes reference children
      let (id, kind) ← checkNode id kind
      return .container id reference kind children
  | .misshapen => .error .nodeShape

def toNodes (reference : String) : List NodeEntry → Except EntryError (List Node)
  | [] => .ok []
  | entry :: rest => do return (← toNode reference entry) :: (← toNodes reference rest)

end

end NodeEntry

/-- A cell of a table: a title, which is part of other cells, or data. -/
structure Cell where
  isTitle : Bool
  nodes : List NodeEntry

def CellEntry.toCell : CellEntry → Except EntryError Cell
  | .title nodes => .ok ⟨true, nodes⟩
  | .data nodes => .ok ⟨false, nodes⟩
  | .misshapen => .error .cellShape

namespace Table

/-- The nodes that the data cell in a row and column stands for. -/
def cellNodes (rows : List (List Cell)) (row : List Cell) (column : Nat) (cell : Cell)
    : List NodeEntry :=
  let inColumn := rows.filterMap (·[column]?)
  (row.filter (·.isTitle) ++ inColumn.filter (·.isTitle) ++ [cell]).flatMap (·.nodes)

/-- The id of the section for a cell. Tables count from one, rows and columns from zero. -/
def sectionId (table row column : Nat) : NodeId where
  text :=
    String.ofList ("Table".toList ++ (toString table ++ "_R" ++ toString row ++ "_C_"
      ++ toString column).toList)
  ne_empty h := by
    have := congrArg String.toList h
    simp at this

/-- The sections of the data cells from left to right and from top to bottom, less those
without nodes. -/
def sections (reference : String) (table : Nat) (rows : List (List Cell))
    : Except EntryError (List Container) := do
  let made ← rows.zipIdx.mapM fun (row, i) =>
    row.zipIdx.mapM fun (cell, j) =>
      if cell.isTitle then pure none
      else do
        let children ← NodeEntry.toNodes reference (cellNodes rows row j cell)
        if children.isEmpty then return none
        else
          return some
            { id := sectionId table i j, reference, kind := .requirement, children : Container }
  return made.flatten.filterMap id

end Table

namespace Document

/-- The sections of tables, whose numbers start at `number`. -/
def tableSections (base : String) (number : Nat)
    : List TableEntry → Except EntryError (List Container)
  | [] => .ok []
  | table :: rest => do
      let rows ← table.mapM fun row => row.mapM CellEntry.toCell
      let sections ← Table.sections (base ++ "/Table/" ++ toString number) number rows
      return sections ++ (← tableSections base (number + 1) rest)

def ofEntry (entry : DocumentEntry) : Except EntryError Document := do
  let base := entry.metadata.base
  let items ← NodeEntry.toNodes "" entry.items
  let tables ← tableSections base 1 entry.tables
  return ⟨base, items, tables⟩

end Document

end ClauseRules
