import ClauseRules.Document.Table
import ClauseRules.Proofs.Compile.Frame
import ClauseRules.Proofs.Document.Sequence

/-! The sections of a document are compiled one after the other by one compiler. What a section gets
depends on those before it only by the ids that it shares with them.
-/

namespace ClauseRules

variable {env : CompileEnv} {before after : List Container} {r : Rule}

namespace Document

variable {document : Document} {rules : RuleSet} {t : Container}

/-- A section gets the rules and the object class that it gets alone from a compiler that has met as
much of it as the sections before it hold.
-/
theorem compile_section (succeeds : (document.compile env).1 = .ok rules)
    (sections : document.sections = before ++ t :: after)
    (unshared : ∀ k ∈ before ++ after, t.path ∉ k.paths) (inner : document.path ≠ t.path)
    {visited : SortedSet NodeId}
    (met : ∀ id ∈ t.ids, id ∈ visited ↔ id ∈ (compileAll env {} before).1.visited)
    : (∃ out, (t.compile env none none { visited }).context = .ok out)
      ∧ ∀ r, r.clause = t.path →
        (r ∈ rules ↔ r ∈ (t.compile env none none { visited }).state.rules) := by
  obtain ⟨paths, compiled, same⟩ := compile_ok succeeds
  rw [sections] at compiled same
  obtain ⟨first, rest, runBefore, run, moved⟩ := compileAll_append compiled
  obtain ⟨out, rest, context, runAfter, ends⟩ := compileAll_cons run
  obtain ⟨old, gainBefore, clausesBefore⟩ := compileAll_gain runBefore
  obtain ⟨new, gainAfter, clausesAfter⟩ := compileAll_gain runAfter
  have frames : (t.compile env).Frames { id | id ∈ t.ids } :=
    t.compile_frames fun _ member => member
  obtain ⟨_, sameContext, alike⟩ :=
    frames none none (compileAll env {} before).1 { visited } fun id member => (met id member).symm
  obtain ⟨added, left, right⟩ := alike.rules
  refine ⟨⟨out, sameContext.trans context⟩, fun r clause => ?_⟩
  -- No rule about the clause comes from the other sections or from the document.
  have absentBefore : r ∉ old := fun member =>
    have ⟨k, listed, shared⟩ := clausesBefore r member
    unshared k (List.mem_append_left _ listed) (clause ▸ shared)
  have absentAfter : r ∉ new := fun member =>
    have ⟨k, listed, shared⟩ := clausesAfter r member
    unshared k (List.mem_append_right _ listed) (clause ▸ shared)
  have elsewhere : ¬(paths ≠ [] ∧ r ∈ documentRules document.path paths) := fun ⟨_, own⟩ =>
    inner ((documentRules_clause own).symm.trans clause)
  calc
    r ∈ rules ↔ r ∈ (t.compile env none none (compileAll env {} before).1).state.rules := by
      rw [same, or_iff_left elsewhere, moved, ends, gainAfter.rules, or_iff_left absentAfter]
    _ ↔ r ∈ added := by
      rw [left, gainBefore.rules]
      simp [absentBefore]
    _ ↔ r ∈ (t.compile env none none { visited }).state.rules := by
      rw [right]
      simp

end Document

/-! ### Cells of a table -/

mutual

/-- The ids that an entry of a file gives to nodes. -/
def NodeEntry.ids : NodeEntry → List String
  | .tag entry => [entry.id]
  | .container id _ _ children => id :: NodeEntry.idsOfList children
  | .misshapen => []

def NodeEntry.idsOfList : List NodeEntry → List String
  | [] => []
  | entry :: rest => entry.ids ++ NodeEntry.idsOfList rest

end

def CellEntry.nodes : CellEntry → List NodeEntry
  | .title nodes | .data nodes => nodes
  | .misshapen => []

def DocumentEntry.ids (entry : DocumentEntry) : List String :=
  NodeEntry.idsOfList (entry.items ++ entry.tables.flatten.flatten.flatMap CellEntry.nodes)

/-- If the document of an entry compiles, every data cell gets the rules that it gets alone. -/
def DocumentEntry.CellsCompileAlone (entry : DocumentEntry) (env : CompileEnv) : Prop :=
  ∀ document rules,
    Document.ofEntry entry = .ok document → (document.compile env).1 = .ok rules →
      ∀ t ∈ document.tables, ∀ r : Rule,
        r.clause = t.path → (r ∈ rules ↔ r ∈ (t.compile env none none {}).state.rules)

namespace DocumentEntry

/-- One rule tells that a cell does not get its rules alone. -/
theorem not_cellsCompileAlone {entry : DocumentEntry} {document : Document} {t : Container}
    {p : Rule → Prop} (read : Document.ofEntry entry = .ok document)
    (succeeds : (document.compile env).1.isOk = true) (listed : t ∈ document.tables)
    (together
      : ∀ rules, (document.compile env).1 = .ok rules → ∃ r ∈ rules, r.clause = t.path ∧ p r)
    (alone : ∀ r ∈ (t.compile env none none {}).state.rules, ¬p r)
    : ¬entry.CellsCompileAlone env := by
  intro independent
  cases compiled : (document.compile env).1 with
  | error e => exact absurd (compiled ▸ succeeds) nofun
  | ok rules =>
      obtain ⟨r, member, clause, is⟩ := together rules compiled
      exact alone r ((independent document rules read compiled t listed r clause).mp member) is

/-- Doors have a width, and windows a height. -/
def openings : CompileEnv where
  vocabulary :=
    ((Dictionary.empty.addProperty "door" { name := "width" }).addProperty "window"
      { name := "height" }).vocabulary
  config := {}

def tagEntry (id kind property : String) : NodeEntry :=
  .tag ⟨id, kind, property, none, none, none, none⟩

def tag (id : NodeId) (kind : Kind) (property : String) : Node :=
  .tag { id, kind, property, reference := "GB/R/B/1/Table/1" }

def title (id tagId : NodeId) (object : String) : Node :=
  .container id "GB/R/B/1/Table/1" .application [tag tagId .application object]

def cell (row column : Nat) (children : List Node) : Container where
  id := Table.sectionId 1 row column
  reference := "GB/R/B/1/Table/1"
  kind := .requirement
  children := children

/-! Titles of a table that are part of several cells. -/

/-- A table with two cells in its first row and one in its second, and a title in each row. -/
def twoRows : DocumentEntry where
  metadata := ⟨"GB", "R", "B", "1", none⟩
  items := []
  tables := [[
    [.title [.container "c1" "Application" none [tagEntry "o1" "Application" "door"]],
      .data [tagEntry "w1" "Requirement" "width"],
      .data [tagEntry "w2" "Requirement" "width"]],
    [.title [.container "c2" "Application" none [tagEntry "o2" "Application" "window"]],
      .data [tagEntry "h1" "Requirement" "height"]]]]

def first : Container :=
  cell 0 1 [title { text := "c1" } { text := "o1" } "door",
    tag { text := "w1" } .requirement "width"]

/-- The cell next to the first one, with the title of the same row. -/
def second : Container :=
  cell 0 2 [title { text := "c1" } { text := "o1" } "door",
    tag { text := "w2" } .requirement "width"]

/-- The cell of the second row, with a title of its own. -/
def third : Container :=
  cell 1 1 [title { text := "c2" } { text := "o2" } "window",
    tag { text := "h1" } .requirement "height"]

def twoRowsDocument : Document := ⟨"GB/R/B/1", [], [first, second, third]⟩

theorem ofEntry_twoRows : Document.ofEntry twoRows = .ok twoRowsDocument := by rfl

theorem compile_twoRows : (twoRowsDocument.compile openings).1.isOk = true := by decide +kernel

/-- What is known once the first cell is compiled. -/
def metFirst : SortedSet NodeId := .ofList [first.id, { text := "c1" }, { text := "w1" }]

theorem visited_first : (compileAll openings {} [first]).1.visited = metFirst := by decide +kernel

theorem mem_iff_second {rules : RuleSet}
    (succeeds : (twoRowsDocument.compile openings).1 = .ok rules) {r : Rule}
    (clause : r.clause = second.path)
    : r ∈ rules
      ↔ r ∈ (second.compile openings none none { visited := metFirst }).state.rules := by
  have sections : twoRowsDocument.sections = [first] ++ second :: [third] := by
    simp [Document.sections, twoRowsDocument]
  refine (Document.compile_section succeeds sections ?_ ?_ fun id _ => ?_).2 r clause
  · decide +kernel
  · decide +kernel
  · rw [visited_first]

/-- The second cell is about buildings, because its title is met with the first cell. -/
theorem twoRows_not_alone : ¬twoRows.CellsCompileAlone openings := by
  obtain ⟨together, alone⟩
      : (∃ r ∈ (second.compile openings none none { visited := metFirst }).state.rules,
          r.clause = second.path ∧ r.entityType = some "Building")
        ∧ ∀ r ∈ (second.compile openings none none {}).state.rules,
          r.entityType ≠ some "Building" := by
    decide +kernel
  have listed : second ∈ twoRowsDocument.tables := List.mem_cons_of_mem _ List.mem_cons_self
  refine not_cellsCompileAlone ofEntry_twoRows compile_twoRows listed ?_ alone
  intro rules succeeds
  obtain ⟨r, member, clause, building⟩ := together
  exact ⟨r, (mem_iff_second succeeds clause).mpr member, clause, building⟩

/-! Paths that are spelled the same for sections with different ids, and for a document. -/

/-- A section of the body that cites the table, with an id like that of the only cell. -/
def citesTable : DocumentEntry where
  metadata := ⟨"GB", "R", "B", "1", none⟩
  items := [.container "Table1_R0_C_0!" "Requirement" (some "GB/R/B/1/Table/1")
    [tagEntry "h2" "Requirement" "height"]]
  tables := [[[.data [tagEntry "w3" "Requirement" "width"]]]]

def citing : Container where
  id := { text := "Table1_R0_C_0!" }
  reference := "GB/R/B/1/Table/1"
  kind := .requirement
  children := [tag { text := "h2" } .requirement "height"]

def cited : Container := cell 0 0 [tag { text := "w3" } .requirement "width"]

def citesTableDocument : Document := ⟨"GB/R/B/1", [citing.toNode], [cited]⟩

/-- The rules about the cell include those of the section in the body. -/
theorem citesTable_not_alone : ¬citesTable.CellsCompileAlone openings := by
  obtain ⟨succeeds, together, alone⟩
      : (citesTableDocument.compile openings).1.isOk = true
        ∧ (∃ r ∈ (compileAll openings {} citesTableDocument.sections).1.rules,
          r.clause = cited.path ∧ r.entityType = some "window")
        ∧ ∀ r ∈ (cited.compile openings none none {}).state.rules,
          r.entityType ≠ some "window" := by
    decide +kernel
  have read : Document.ofEntry citesTable = .ok citesTableDocument := by rfl
  refine not_cellsCompileAlone read succeeds List.mem_cons_self (fun rules compiled => ?_) alone
  obtain ⟨r, member, clause, window⟩ := together
  obtain ⟨_, _, same⟩ := Document.compile_ok compiled
  exact ⟨r, (same r).mpr (.inl member), clause, window⟩

/-- A document that is found by the query of an address, which paths do without. -/
def foundByQuery : DocumentEntry where
  metadata := ⟨"https:", "", "b", "?", none⟩
  items := []
  tables := [[[.data [tagEntry "w4" "Requirement" "width"]]]]

def queried : Container where
  id := Table.sectionId 1 0 0
  reference := "https://b/?/Table/1"
  kind := .requirement
  children := [.tag
    { id := { text := "w4" }, kind := .requirement, property := "width"
      reference := "https://b/?/Table/1" }]

def foundByQueryDocument : Document := ⟨"https://b/?", [], [queried]⟩

/-- The rules about the cell include those about the document. -/
theorem foundByQuery_not_alone : ¬foundByQuery.CellsCompileAlone openings := by
  obtain ⟨succeeds, paths, final, alone⟩
      : (foundByQueryDocument.compile openings).1.isOk = true
        ∧ (compileAll openings {} foundByQueryDocument.sections).2 = .ok [queried.path]
        ∧ (∃ r ∈ documentRules foundByQueryDocument.path [queried.path],
          r.clause = queried.path ∧ r.purpose = .documentFinalPass)
        ∧ ∀ r ∈ (queried.compile openings none none {}).state.rules,
          r.purpose ≠ .documentFinalPass := by
    decide +kernel
  have read : Document.ofEntry foundByQuery = .ok foundByQueryDocument := by rfl
  refine not_cellsCompileAlone read succeeds List.mem_cons_self (fun rules compiled => ?_) alone
  obtain ⟨r, member, clause, purpose⟩ := final
  obtain ⟨found, run, same⟩ := Document.compile_ok compiled
  cases Except.ok.inj (paths.symm.trans run)
  exact ⟨r, (same r).mpr (.inr ⟨List.cons_ne_nil _ _, member⟩), clause, purpose⟩

/-- Cells are not compiled like alone where a title is part of several cells, where a section is
named like a cell, and where a document is.
-/
theorem cells_meddle
    : (twoRows.ids.Nodup ∧ ¬twoRows.CellsCompileAlone openings)
      ∧ (citesTable.ids.Nodup ∧ ¬citesTable.CellsCompileAlone openings)
      ∧ foundByQuery.ids.Nodup ∧ ¬foundByQuery.CellsCompileAlone openings :=
  ⟨⟨by decide, twoRows_not_alone⟩, ⟨by decide, citesTable_not_alone⟩,
    by decide, foundByQuery_not_alone⟩

end DocumentEntry

namespace Document

variable {document : Document} {rules : RuleSet} {t : Container}

/-- Compiled after others, a section gets the rules of a compiler that starts with what they have
made known. Where it repeats none of their sections, it gets the rules that it gets alone.
-/
theorem compile_section_alone (succeeds : (document.compile env).1 = .ok rules)
    (sections : document.sections = before ++ t :: after)
    (unshared : ∀ k ∈ before ++ after, t.path ∉ k.paths) (inner : document.path ≠ t.path)
    : (∀ r, r.clause = t.path →
        (r ∈ rules
          ↔ r ∈ (t.compile env none none
            { visited := (compileAll env {} before).1.visited }).state.rules))
      ∧ ((∀ k ∈ before, ∀ id ∈ t.ids, id ∉ k.ids) →
        (∃ out, (t.compile env none none {}).context = .ok out)
        ∧ ∀ r, r.clause = t.path →
          (r ∈ rules ↔ r ∈ (t.compile env none none {}).state.rules)) := by
  refine ⟨(compile_section succeeds sections unshared inner fun _ _ => Iff.rfl).2, fun apart => ?_⟩
  refine compile_section succeeds sections unshared inner fun id member => ?_
  obtain ⟨paths, compiled, _⟩ := compile_ok succeeds
  rw [sections] at compiled
  obtain ⟨_, _, runBefore, _⟩ := compileAll_append compiled
  obtain ⟨_, gain, _⟩ := compileAll_gain runBefore
  refine iff_of_false SortedSet.not_mem_empty fun known => ?_
  rcases gain.visited id known with never | listed
  · exact SortedSet.not_mem_empty never
  · obtain ⟨k, isBefore, shared⟩ := List.mem_flatMap.mp listed
    exact apart k isBefore id member shared

/-- The cell of the second row of a table gets the rules that it gets alone. -/
theorem compile_section_alone_third
    : ∃ rules,
        (DocumentEntry.twoRowsDocument.compile DocumentEntry.openings).1 = .ok rules
        ∧ ∀ r, r.clause = DocumentEntry.third.path →
          (r ∈ rules
            ↔ r
              ∈ (DocumentEntry.third.compile DocumentEntry.openings none none {}).state.rules) := by
  have succeeds := DocumentEntry.compile_twoRows
  have sections
      : DocumentEntry.twoRowsDocument.sections
        = [DocumentEntry.first, DocumentEntry.second] ++ DocumentEntry.third :: [] := by
    simp [Document.sections, DocumentEntry.twoRowsDocument]
  cases compiled : (DocumentEntry.twoRowsDocument.compile DocumentEntry.openings).1 with
  | error e => exact absurd (compiled ▸ succeeds) nofun
  | ok rules =>
      exact ⟨rules, rfl, ((compile_section_alone compiled sections (by decide +kernel)
        (by decide +kernel)).2 (by decide +kernel)).2⟩

end Document

end ClauseRules
