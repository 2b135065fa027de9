import ClauseRules.Proofs.Document.Independence
import ClauseRules.Proofs.Except
import ClauseRules.Proofs.Rule.Names
import Mathlib.Data.List.Nodup
import Mathlib.Data.List.Range

/-! What the tables of a document come to. The sections made from them stand in the order of their
cells, each of them holds the nodes of the titles of its row and of its column and those of its own
cell, and no two have the same id.
-/

namespace ClauseRules

/-! ### Positions in a table -/

def CellEntry.isTitle : CellEntry → Bool
  | .title _ => true
  | .data _ | .misshapen => false

namespace Table

variable {table : TableEntry} {row column : Nat}

def cell? (table : TableEntry) (row column : Nat) : Option CellEntry :=
  table[row]?.bind (·[column]?)

def isTitleAt (table : TableEntry) (row column : Nat) : Bool :=
  (cell? table row column).any (·.isTitle)

def nodesAt (table : TableEntry) (row column : Nat) : List NodeEntry :=
  (cell? table row column).elim [] (·.nodes)

/-- The positions of the titles in a row, from left to right. -/
def rowTitles (table : TableEntry) (row : Nat) : List (Nat × Nat) :=
  ((List.range (table.getD row []).length).filter (isTitleAt table row)).map (row, ·)

/-- The positions of the titles in a column, from top to bottom. -/
def columnTitles (table : TableEntry) (column : Nat) : List (Nat × Nat) :=
  ((List.range table.length).filter (isTitleAt table · column)).map (·, column)

/-- The positions of the cells that the section for a data cell is made from. -/
def sources (table : TableEntry) (row column : Nat) : List (Nat × Nat) :=
  rowTitles table row ++ columnTitles table column ++ [(row, column)]

def entriesFor (table : TableEntry) (row column : Nat) : List NodeEntry :=
  (sources table row column).flatMap fun position => nodesAt table position.1 position.2

/-- A data cell is no title, so none of the titles of its row is one of its column. -/
theorem nodup_sources (data : isTitleAt table row column = false)
    : (sources table row column).Nodup := by
  have inRow : (rowTitles table row).Nodup :=
    (List.nodup_range.filter _).map fun _ _ same => (Prod.mk.inj same).2
  have inColumn : (columnTitles table column).Nodup :=
    (List.nodup_range.filter _).map fun _ _ same => (Prod.mk.inj same).1
  have apart : (rowTitles table row).Disjoint (columnTitles table column) := by
    intro position left right
    simp only [rowTitles, columnTitles, List.mem_map, List.mem_filter] at left right
    obtain ⟨_, ⟨_, title⟩, rfl⟩ := left
    obtain ⟨_, _, same⟩ := right
    obtain ⟨-, rfl⟩ := Prod.mk.inj same
    exact absurd title (by simp [data])
  have own : (row, column) ∉ rowTitles table row ++ columnTitles table column := by
    simp [rowTitles, columnTitles, data]
  exact (inRow.append inColumn apart).append (List.nodup_singleton _)
    (List.disjoint_singleton.mpr own)

/-- Selected elements of a list, by their indices. -/
theorem flatMap_filter_filterMap {α β γ : Type} (l : List α) (g : α → Option β) (p : β → Bool)
    (h : β → List γ)
    : ((l.filterMap g).filter p).flatMap h
      = ((List.range l.length).filter fun k => (l[k]?.bind g).any p).flatMap fun k =>
          (l[k]?.bind g).elim [] h := by
  induction l with
  | nil => rfl
  | cons a rest ih =>
      rw [List.length_cons, List.range_succ_eq_map, List.filter_cons, List.filter_map]
      cases found : g a with
      | none => simp [found, ih, Function.comp_def, List.flatMap_map]
      | some b =>
          cases wanted : p b <;>
            simp [found, wanted, ih, Function.comp_def, List.flatMap_map]

end Table

/-! ### Cells -/

namespace CellEntry

/-- The cell of an entry; one that holds no cell has no nodes either. -/
def cell (entry : CellEntry) : Cell := ⟨entry.isTitle, entry.nodes⟩

theorem cell_eq (entry : CellEntry) (c : Cell) (converted : entry.toCell = .ok c)
    : entry.cell = c := by
  cases entry with
  | title nodes | data nodes => exact Except.ok.inj converted
  | misshapen => cases converted

end CellEntry

namespace Table

theorem filter_isTitle_cells (cells : List CellEntry)
    : ((cells.map CellEntry.cell).filter (·.isTitle)).flatMap (·.nodes)
      = (cells.filter (·.isTitle)).flatMap (·.nodes) := by
  rw [List.filter_map, List.flatMap_map]
  rfl

theorem flatMap_rowTitles {cells : RowEntry} (here : table[row]? = some cells)
    : ((rowTitles table row).flatMap fun position => nodesAt table position.1 position.2)
      = (cells.filter (·.isTitle)).flatMap (·.nodes) := by
  have indexed := flatMap_filter_filterMap cells some (·.isTitle) (·.nodes)
  rw [List.filterMap_some] at indexed
  have title : isTitleAt table row = fun k => (cells[k]?.bind some).any (·.isTitle) := by
    funext k
    simp [isTitleAt, cell?, here]
  rw [indexed, rowTitles, title, List.flatMap_map]
  simp [here, nodesAt, cell?]

theorem flatMap_columnTitles (table : TableEntry) (column : Nat)
    : ((columnTitles table column).flatMap fun position => nodesAt table position.1 position.2)
      = ((table.filterMap (·[column]?)).filter (·.isTitle)).flatMap (·.nodes) := by
  rw [flatMap_filter_filterMap, columnTitles, List.flatMap_map]
  rfl

/-- The nodes that a cell stands for are those at its sources. -/
theorem cellNodes_eq {cells : RowEntry} {cell : CellEntry} (here : table[row]? = some cells)
    (inside : cells[column]? = some cell)
    : cellNodes (table.map (·.map CellEntry.cell)) (cells.map CellEntry.cell) column cell.cell
      = entriesFor table row column := by
  have inColumn
      : (table.map (·.map CellEntry.cell)).filterMap (·[column]?)
        = (table.filterMap (·[column]?)).map CellEntry.cell := by
    simp [List.filterMap_map, List.map_filterMap]
  have own : nodesAt table row column = cell.nodes := by simp [nodesAt, cell?, here, inside]
  simp only [cellNodes, entriesFor, sources, List.flatMap_append, inColumn, filter_isTitle_cells,
    flatMap_rowTitles here, flatMap_columnTitles, List.flatMap_singleton, own]
  rfl

end Table

/-! ### Places of sections -/

/-- A position in one of the tables of a document, which count from one. -/
structure Place where
  table : Nat
  row : Nat
  column : Nat

namespace Place

/-- By tables, then by rows, then by columns. -/
def Before (p q : Place) : Prop :=
  p.table < q.table
    ∨ p.table = q.table ∧ (p.row < q.row ∨ p.row = q.row ∧ p.column < q.column)

theorem Before.ne {p q : Place} (before : p.Before q) : p ≠ q := by
  rintro rfl
  simp [Before] at before

def name (p : Place) : String :=
  "Table" ++ toString p.table ++ "_R" ++ toString p.row ++ "_C_" ++ toString p.column

theorem toDigits_injective : Function.Injective (Nat.toDigits 10) := fun m n same =>
  calc
    m = Nat.ofDigitChars 10 (Nat.toDigits 10 m) 0 := Nat.ofDigitChars_ten_toDigits.symm
    _ = Nat.ofDigitChars 10 (Nat.toDigits 10 n) 0 := congrArg (Nat.ofDigitChars 10 · 0) same
    _ = n := Nat.ofDigitChars_ten_toDigits

theorem toList_name (p : Place)
    : p.name.toList
      = "Table".toList
        ++ (Nat.toDigits 10 p.table
          ++ '_' :: 'R' :: (Nat.toDigits 10 p.row
            ++ '_' :: 'C' :: '_' :: Nat.toDigits 10 p.column)) := by
  simp [name]

/-- The numbers in a name end before the next underscore. -/
theorem name_injective : Function.Injective name := by
  have plain (n : Nat) : '_' ∉ Nat.toDigits 10 n := fun member =>
    absurd (Nat.isDigit_of_mem_toDigits (by decide) (by decide) member) (by decide)
  rintro ⟨t, r, c⟩ ⟨t', r', c'⟩ same
  have letters := congrArg String.toList same
  rw [toList_name, toList_name, List.append_right_inj] at letters
  obtain ⟨table, letters⟩ := eq_of_first_cut (plain t) (plain t') letters
  obtain ⟨row, letters⟩ := eq_of_first_cut (plain r) (plain r') (List.tail_eq_of_cons_eq letters)
  have column : Nat.toDigits 10 c = Nat.toDigits 10 c' := by simpa using letters
  obtain rfl := toDigits_injective table
  obtain rfl := toDigits_injective row
  obtain rfl := toDigits_injective column
  rfl

theorem text_sectionId (p : Place) : (Table.sectionId p.table p.row p.column).text = p.name := by
  have text
      : (Table.sectionId p.table p.row p.column).text
        = String.ofList ("Table".toList
          ++ (toString p.table ++ "_R" ++ toString p.row ++ "_C_" ++ toString p.column).toList) :=
    rfl
  rw [text, ← String.toList_inj, String.toList_ofList, name]
  simp only [String.toList_append, List.append_assoc]

/-- A data cell that itself has nodes or shares its row or column with a title that has some. -/
structure Filled (tables : List TableEntry) (p : Place) : Prop where
  positive : 1 ≤ p.table
  data
    : ∃ table nodes,
        tables[p.table - 1]? = some table ∧ Table.cell? table p.row p.column = some (.data nodes)
        ∧ Table.entriesFor table p.row p.column ≠ []

end Place

namespace Table

/-- A section made from a cell. Its children are made from the entries for the cell, which come from
each of their sources once.
-/
structure StandsFor (base : String) (table : TableEntry) (p : Place) (c : Container) : Prop where
  id : c.id.text = p.name
  kind : c.kind = .requirement
  reference : c.reference = base ++ "/Table/" ++ toString p.table
  children : NodeEntry.toNodes c.reference (entriesFor table p.row p.column) = .ok c.children
  once : (sources table p.row p.column).Nodup

end Table

/-- The sections made from some tables: one for each place that is filled, in the order of places,
and each of them with an id of its own.
-/
structure Expansion (base : String) (tables : List TableEntry) (sections : List Container) : Prop
    where
  placed
    : ∃ places : List Place,
        places.Pairwise Place.Before ∧ (∀ p, p ∈ places ↔ p.Filled tables)
        ∧ List.Forall₂
            (fun p c =>
              ∃ table, tables[p.table - 1]? = some table ∧ Table.StandsFor base table p c)
            places sections
  ids : (sections.map (·.id)).Nodup

/-! ### Places in order -/

/-- The place of a cell, if it needs a section. -/
def Table.place? (table : TableEntry) (number row column : Nat) (cell : CellEntry)
    : Option Place :=
  if cell.isTitle || (entriesFor table row column).isEmpty then none
  else some ⟨number, row, column⟩

def Table.places (number : Nat) (table : TableEntry) : List Place :=
  table.zipIdx.flatMap fun (cells, row) =>
    cells.zipIdx.filterMap fun (cell, column) => place? table number row column cell

def Document.places (tables : List TableEntry) : List Place :=
  (tables.zipIdx 1).flatMap fun (table, number) => Table.places number table

/-- A run over the elements of a list and their indices. -/
theorem forall₂_zipIdx {ε α β γ : Type} {g : α → β} {f : β × Nat → Except ε γ} {l : List α}
    {made : List γ} (run : (l.map g).zipIdx.mapM f = .ok made)
    : List.Forall₂ (fun a c => l[a.2]? = some a.1 ∧ f (g a.1, a.2) = .ok c) l.zipIdx made := by
  have results := mapM_eq_ok_iff.mp run
  rw [List.zipIdx_map, List.forall₂_map_left_iff] at results
  exact (List.forall₂_and_left _ _).mpr
    ⟨fun _ listed => List.mem_zipIdx_iff_getElem?.mp listed, results⟩

theorem pairwise_zipIdx {α : Type} (l : List α) (start : Nat)
    : (l.zipIdx start).Pairwise fun a b => a.2 < b.2 := by
  rw [← List.pairwise_map (f := Prod.snd) (R := (· < ·)), List.zipIdx_map_snd]
  exact List.pairwise_lt_range'

namespace Table

variable {table : TableEntry} {number row column : Nat} {cell : CellEntry} {p : Place}

theorem place?_eq_some
    : place? table number row column cell = some p
      ↔ cell.isTitle = false ∧ entriesFor table row column ≠ [] ∧ ⟨number, row, column⟩ = p := by
  simp [place?, and_assoc]

theorem mem_places
    : p ∈ places number table
      ↔ ∃ cell, cell? table p.row p.column = some cell ∧ cell.isTitle = false
          ∧ entriesFor table p.row p.column ≠ [] ∧ number = p.table := by
  simp only [places, List.mem_flatMap, List.mem_filterMap, Prod.exists,
    List.mk_mem_zipIdx_iff_getElem?, place?_eq_some, cell?, Option.bind_eq_some_iff]
  constructor
  · rintro ⟨cells, row, here, cell, column, inside, data, filled, rfl⟩
    exact ⟨cell, ⟨cells, here, inside⟩, data, filled, rfl⟩
  · rintro ⟨cell, ⟨cells, here, inside⟩, data, filled, rfl⟩
    exact ⟨cells, p.row, here, cell, p.column, inside, data, filled, rfl⟩

theorem pairwise_places : (places number table).Pairwise Place.Before := by
  refine List.pairwise_flatMap.mpr ⟨fun _ _ => ?_, ?_⟩
  · refine List.pairwise_filterMap.mpr ((pairwise_zipIdx _ _).imp ?_)
    rintro ⟨_, j⟩ ⟨_, k⟩ (before : j < k) p left q right
    obtain ⟨_, _, rfl⟩ := place?_eq_some.mp left
    obtain ⟨_, _, rfl⟩ := place?_eq_some.mp right
    exact .inr ⟨rfl, .inr ⟨rfl, before⟩⟩
  · refine (pairwise_zipIdx _ _).imp ?_
    rintro ⟨_, i⟩ ⟨_, k⟩ (before : i < k) p left q right
    obtain ⟨_, _, left⟩ := List.mem_filterMap.mp left
    obtain ⟨_, _, right⟩ := List.mem_filterMap.mp right
    obtain ⟨_, _, rfl⟩ := place?_eq_some.mp left
    obtain ⟨_, _, rfl⟩ := place?_eq_some.mp right
    exact .inr ⟨rfl, .inl before⟩

/-! ### Sections in their places -/

theorem toNodes_eq_mapM (reference : String) (entries : List NodeEntry)
    : NodeEntry.toNodes reference entries = entries.mapM (NodeEntry.toNode reference) := by
  induction entries with
  | nil => rw [NodeEntry.toNodes, List.mapM_nil]; rfl
  | cons entry rest ih => rw [NodeEntry.toNodes, ih, List.mapM_cons]

theorem isEmpty_toNodes {reference : String} {entries : List NodeEntry} {nodes : List Node}
    (converted : NodeEntry.toNodes reference entries = .ok nodes)
    : nodes.isEmpty = entries.isEmpty := by
  rw [toNodes_eq_mapM] at converted
  have length := (mapM_eq_ok_iff.mp converted).length_eq
  rw [Bool.eq_iff_iff, List.isEmpty_iff_length_eq_zero, List.isEmpty_iff_length_eq_zero, length]

theorem rows_eq {rows : List (List Cell)}
    (converted : (table.mapM fun cells => cells.mapM CellEntry.toCell) = .ok rows)
    : rows = table.map (·.map CellEntry.cell) :=
  mapM_eq_map (fun _ _ converted => (mapM_eq_map CellEntry.cell_eq converted).symm) converted

/-- The sections of a table stand for its places, one by one. -/
theorem sections_placed {base : String} {made : List Container}
    (succeeds
      : sections (base ++ "/Table/" ++ toString number) number (table.map (·.map CellEntry.cell))
        = .ok made)
    : List.Forall₂ (fun p c => p.table = number ∧ StandsFor base table p c) (places number table)
        made := by
  obtain ⟨lines, run, same⟩ := exists_of_bind succeeds
  obtain rfl := Except.ok.inj same
  rw [List.filterMap_flatten]
  refine List.rel_flatMap (forall₂_zipIdx run) ?_
  rintro ⟨cells, row⟩ line ⟨here, run⟩
  refine List.rel_filterMap ?_ (forall₂_zipIdx run)
  rintro ⟨cell, column⟩ outcome ⟨inside, run⟩
  simp only [id] at here inside run ⊢
  rw [cellNodes_eq here inside] at run
  by_cases title : cell.isTitle
  · obtain rfl := Except.ok.inj ((if_pos title).symm.trans run)
    simp [place?, title]
  obtain ⟨children, converted, run⟩ := exists_of_bind ((if_neg title).symm.trans run)
  have empty := isEmpty_toNodes converted
  have once : (sources table row column).Nodup :=
    nodup_sources (by simp [isTitleAt, cell?, here, inside, title])
  by_cases none : children.isEmpty
  · obtain rfl := Except.ok.inj ((if_pos none).symm.trans run)
    simp [place?, ← empty, none]
  · obtain rfl := Except.ok.inj ((if_neg none).symm.trans run)
    rw [place?, if_neg (by simp [← empty, none, title])]
    exact .some ⟨rfl, Place.text_sectionId ⟨number, row, column⟩, rfl, rfl, converted, once⟩

/-- The sections of one table of a document. -/
def expand (base : String) (table : TableEntry) (number : Nat)
    : Except EntryError (List Container) := do
  let rows ← table.mapM fun cells => cells.mapM CellEntry.toCell
  sections (base ++ "/Table/" ++ toString number) number rows

/-- A table that is expanded has titles and data only. -/
theorem exists_cell_of_expand {base : String} {made : List Container}
    (succeeds : expand base table number = .ok made) (found : cell? table row column = some cell)
    : ∃ c, cell.toCell = .ok c := by
  obtain ⟨rows, converted, _⟩ := exists_of_bind succeeds
  obtain ⟨cells, here, inside⟩ := Option.bind_eq_some_iff.mp found
  obtain ⟨_, _, line⟩ := exists_of_mapM converted cells (List.mem_of_getElem? here)
  obtain ⟨c, _, shaped⟩ := exists_of_mapM line cell (List.mem_of_getElem? inside)
  exact ⟨c, shaped⟩

theorem mem_cellNodes {rows : List (List Cell)} {cells : List Cell} {cell : Cell}
    {entry : NodeEntry} (listed : cells ∈ rows) (inside : cell ∈ cells)
    (member : entry ∈ cellNodes rows cells column cell)
    : ∃ cells ∈ rows, ∃ cell ∈ cells, entry ∈ cell.nodes := by
  obtain ⟨source, part, own⟩ := List.mem_flatMap.mp member
  simp only [List.mem_append, List.mem_filter, List.mem_filterMap, List.mem_singleton] at part
  rcases part with (⟨other, _⟩ | ⟨⟨others, here, other⟩, _⟩) | rfl
  · exact ⟨cells, listed, source, other, own⟩
  · exact ⟨others, here, source, List.mem_of_getElem? other, own⟩
  · exact ⟨cells, listed, source, inside, own⟩

theorem exists_sections {reference : String} {rows : List (List Cell)}
    (each
      : ∀ cells ∈ rows, ∀ cell ∈ cells, ∀ entry ∈ cell.nodes, ∃ node,
          NodeEntry.toNode reference entry = .ok node)
    : ∃ made, sections reference number rows = .ok made := by
  refine exists_bind (exists_mapM ?_) fun _ _ => ⟨_, rfl⟩
  rintro ⟨cells, row⟩ listed
  refine exists_mapM ?_
  rintro ⟨cell, column⟩ inside
  have listed := List.mem_of_getElem? (List.mem_zipIdx_iff_getElem?.mp listed)
  have inside := List.mem_of_getElem? (List.mem_zipIdx_iff_getElem?.mp inside)
  by_cases title : cell.isTitle
  · exact ⟨_, if_pos title⟩
  · simp only [if_neg title]
    refine exists_bind ?_ fun children _ => by split <;> exact ⟨_, rfl⟩
    rw [toNodes_eq_mapM]
    refine exists_mapM fun entry member => ?_
    obtain ⟨cells, listed, cell, inside, own⟩ := mem_cellNodes listed inside member
    exact each cells listed cell inside entry own

theorem exists_expand {base : String}
    (shaped : ∀ cells ∈ table, ∀ cell ∈ cells, ∃ c, cell.toCell = .ok c)
    (each
      : ∀ cells ∈ table, ∀ cell ∈ cells, ∀ entry ∈ cell.nodes, ∃ node,
          NodeEntry.toNode (base ++ "/Table/" ++ toString number) entry = .ok node)
    : ∃ made, expand base table number = .ok made := by
  refine exists_bind (exists_mapM fun cells listed => exists_mapM (shaped cells listed))
    fun rows converted => exists_sections ?_
  rw [rows_eq converted]
  simp only [List.forall_mem_map]
  exact each

end Table

theorem tableSections_eq (base : String) (number : Nat) (tables : List TableEntry)
    : Document.tableSections base number tables
      = List.flatten <$> (tables.zipIdx number).mapM fun (table, n) =>
          Table.expand base table n := by
  induction tables generalizing number with
  | nil => rfl
  | cons table rest ih =>
      rw [Document.tableSections, List.zipIdx_cons, List.mapM_cons, ih]
      simp [Table.expand]

namespace Document

variable {base : String} {tables : List TableEntry} {sections : List Container}

theorem pairwise_places : (places tables).Pairwise Place.Before := by
  refine List.pairwise_flatMap.mpr ⟨fun _ _ => Table.pairwise_places, ?_⟩
  refine (pairwise_zipIdx _ _).imp ?_
  rintro ⟨_, m⟩ ⟨_, n⟩ (before : m < n) p left q right
  obtain ⟨_, _, _, _, rfl⟩ := Table.mem_places.mp left
  obtain ⟨_, _, _, _, rfl⟩ := Table.mem_places.mp right
  exact .inl before

theorem mem_places {p : Place}
    : p ∈ places tables
      ↔ 1 ≤ p.table ∧ ∃ table cell,
          tables[p.table - 1]? = some table ∧ Table.cell? table p.row p.column = some cell
          ∧ cell.isTitle = false ∧ Table.entriesFor table p.row p.column ≠ [] := by
  simp only [places, List.mem_flatMap, Prod.exists, List.mk_mem_zipIdx_iff_le_and_getElem?_sub,
    Table.mem_places]
  constructor
  · rintro ⟨table, _, ⟨positive, here⟩, cell, found, data, filled, rfl⟩
    exact ⟨positive, table, cell, here, found, data, filled⟩
  · rintro ⟨positive, table, cell, here, found, data, filled⟩
    exact ⟨table, p.table, ⟨positive, here⟩, cell, found, data, filled, rfl⟩

/-- Only titles and data stand in tables that are expanded. -/
theorem mem_places_iff_filled {parts : List (List Container)}
    (run : ((tables.zipIdx 1).mapM fun (table, n) => Table.expand base table n) = .ok parts)
    (p : Place)
    : p ∈ places tables ↔ p.Filled tables := by
  rw [mem_places]
  constructor
  · rintro ⟨positive, table, cell, here, found, data, filled⟩
    obtain ⟨made, _, run⟩ := exists_of_mapM run (table, p.table)
      (List.mk_mem_zipIdx_iff_le_and_getElem?_sub.mpr ⟨positive, here⟩)
    obtain ⟨c, shaped⟩ := Table.exists_cell_of_expand run found
    cases cell with
    | title nodes => cases data
    | data nodes => exact ⟨positive, table, nodes, here, found, filled⟩
    | misshapen => cases shaped
  · rintro ⟨positive, table, nodes, here, found, filled⟩
    exact ⟨positive, table, _, here, found, rfl, filled⟩

/-- The sections of all tables stand for the places in them, one by one. -/
theorem sections_placed {parts : List (List Container)}
    (run : ((tables.zipIdx 1).mapM fun (table, n) => Table.expand base table n) = .ok parts)
    : List.Forall₂
        (fun p c => ∃ table, tables[p.table - 1]? = some table ∧ Table.StandsFor base table p c)
        (places tables) parts.flatten := by
  have each := (List.forall₂_and_left _ _).mpr
    ⟨fun _ listed => List.mem_zipIdx_iff_le_and_getElem?_sub.mp listed, mapM_eq_ok_iff.mp run⟩
  rw [← List.flatMap_id]
  refine List.rel_flatMap each ?_
  rintro ⟨table, number⟩ part ⟨⟨_, here⟩, run⟩
  obtain ⟨rows, converted, run⟩ := exists_of_bind run
  rw [Table.rows_eq converted] at run
  refine (Table.sections_placed run).imp ?_
  rintro p c ⟨rfl, stands⟩
  exact ⟨table, here, stands⟩

/-- The sections made from tables are as described, whenever they can be made. -/
theorem expansion_of_tableSections (succeeds : tableSections base 1 tables = .ok sections)
    : Expansion base tables sections := by
  rw [tableSections_eq] at succeeds
  obtain ⟨parts, run, rfl⟩ := exists_of_map succeeds
  have placed := sections_placed run
  have names : (places tables).map Place.name = parts.flatten.map (·.id.text) := by
    rw [← List.forall₂_eq_eq_eq, List.forall₂_map_left_iff, List.forall₂_map_right_iff]
    exact placed.imp fun _ _ ⟨_, _, stands⟩ => stands.id.symm
  have distinct : (places tables).Nodup := pairwise_places.imp Place.Before.ne
  refine ⟨⟨places tables, pairwise_places, mem_places_iff_filled run, placed⟩, ?_⟩
  apply List.Nodup.of_map (·.text)
  rw [List.map_map]
  exact names ▸ distinct.map Place.name_injective

/-- The cells of some tables hold a title or data, and all that stands in them makes nodes. -/
def TablesConvert (base : String) (tables : List TableEntry) : Prop :=
  ∀ numbered ∈ tables.zipIdx 1, ∀ cells ∈ numbered.1, ∀ cell ∈ cells,
    cell.toCell.isOk = true
    ∧ ∀ entry ∈ cell.nodes,
        (NodeEntry.toNode (base ++ "/Table/" ++ toString numbered.2) entry).isOk = true

instance : Decidable (TablesConvert base tables) := by
  delta TablesConvert
  infer_instance

/-- Tables that convert are expanded cell by cell, and so they are as part of a document. -/
theorem tableSections_expand (convert : TablesConvert base tables)
    : ∃ sections,
        tableSections base 1 tables = .ok sections ∧ Expansion base tables sections
        ∧ ∀ entry document,
            entry.metadata.base = base → entry.tables = tables → ofEntry entry = .ok document →
              document.tables = sections := by
  obtain ⟨parts, run⟩
      : ∃ parts, ((tables.zipIdx 1).mapM fun (table, n) => Table.expand base table n)
          = .ok parts := by
    refine exists_mapM fun ⟨table, n⟩ listed => ?_
    have each := convert (table, n) listed
    exact Table.exists_expand
      (fun cells listed cell inside => exists_of_isOk (each cells listed cell inside).1)
      fun cells listed cell inside entry own =>
        exists_of_isOk ((each cells listed cell inside).2 entry own)
  have made : tableSections base 1 tables = .ok parts.flatten := by
    rw [tableSections_eq, run]
    rfl
  refine ⟨parts.flatten, made, expansion_of_tableSections made, ?_⟩
  rintro entry document rfl rfl read
  obtain ⟨items, _, read⟩ := exists_of_bind read
  obtain ⟨sections, again, same⟩ := exists_of_bind read
  obtain rfl := Except.ok.inj same
  exact Except.ok.inj (again.symm.trans made)

/-- Titles above and beside data, of which the one above the first data is empty; a shorter row
whose data is empty as well; and a second table.
-/
def doorTables : List TableEntry :=
  let tag id kind property := NodeEntry.tag ⟨id, kind, property, none, none, none, none⟩
  [[[.title [], .title [], .title [tag "w" "Requirement" "width"]],
    [.title [tag "d" "Application" "door"], .data [], .data [tag "h" "Requirement" "height"]],
    [.title [], .data []]],
   [[.data [tag "e" "Exception" "exit"]]]]

theorem tableSections_expand_doorTables
    : TablesConvert "B" doorTables
      ∧ ∃ sections,
          Expansion "B" doorTables sections
          ∧ sections.map (fun c => (c.id.text, c.children.map (·.id.text)))
            = [("Table1_R1_C_1", ["d"]), ("Table1_R1_C_2", ["d", "w", "h"]),
              ("Table2_R0_C_0", ["e"])] := by
  have convert : TablesConvert "B" doorTables := by decide
  obtain ⟨sections, made, expansion, _⟩ := tableSections_expand convert
  refine ⟨convert, sections, expansion, ?_⟩
  have shown
      : (tableSections "B" 1 doorTables).toOption.map
          (·.map (fun c => (c.id.text, c.children.map (·.id.text))))
        = some [("Table1_R1_C_1", ["d"]), ("Table1_R1_C_2", ["d", "w", "h"]),
            ("Table2_R0_C_0", ["e"])] := by rfl
  rw [made] at shown
  exact Option.some.inj shown

end Document

end ClauseRules
