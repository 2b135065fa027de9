import ClauseRules.Proofs.Document.Coverage
import ClauseRules.Proofs.Document.RuleNames
import ClauseRules.Proofs.Drl.Unbroken
import ClauseRules.Proofs.Name.Spelling

/-! Line feeds in rules come from what stands in a document as it is: from ids of sections, from
what tags compare with and from the names of object classes. Paths and the names of properties are
brought into an alphabet that has none.
-/

namespace ClauseRules

open Text (IsLine)

/-! ### Names -/

namespace Name

theorem isLine_ofRule (text : String) : IsLine (ofRule text) := fun member =>
  absurd (isPathChar_of_mem_ofRule '\n' member) (by decide)

theorem isLine_ofProperty (text : String) : IsLine (ofProperty text) := fun member =>
  absurd ((plain_ofProperty text).allowed '\n' member) (by decide)

end Name

theorem RulePath.isLine_ofText (text : String) : IsLine (ofText text).text := Name.isLine_ofRule _

theorem Container.isLine_path (c : Container) : IsLine c.path.text := Name.isLine_ofRule _

theorem RulePath.isLine_ruleId {path : RulePath} {suffix : String} (line : IsLine path.text)
    (also : IsLine suffix)
    : IsLine (path.ruleId suffix) := by
  simp only [ruleId, Text.isLine_append]
  exact ⟨⟨line, by decide⟩, also⟩

theorem Purpose.isLine_suffix (purpose : Purpose) : IsLine purpose.suffix := by
  cases purpose <;> decide

/-! ### Sections -/

/-- No line feed stands in what a tag compares with. -/
structure Tag.Unbroken (t : Tag) : Prop where
  symbol : IsLine t.comparator.symbol
  value : IsLine t.value
  unit : IsLine t.unit

theorem Tag.Unbroken.of_test {t u : Tag} (unbroken : u.Unbroken) (same : u.test = t.test)
    : t.Unbroken := by
  obtain ⟨symbol, value, unit⟩ := unbroken
  obtain ⟨_, comparators, values, units⟩ := PropertyTest.mk.inj same
  exact ⟨comparators ▸ symbol, values ▸ value, units ▸ unit⟩

theorem Tag.Unbroken.condition {t : Tag} (unbroken : t.Unbroken)
    : (Condition.test t.test).Unbroken :=
  .test (Name.isLine_ofProperty _) unbroken.symbol unbroken.value unbroken.unit

/-- Neither the id of the section nor what its tags compare with has a line feed. -/
structure Container.Unbroken (c : Container) : Prop where
  id : IsLine c.id.text
  tags : ∀ t ∈ c.tags, t.Unbroken

/-- What is tested in a section of a tree is tested by a tag of the tree. -/
theorem Container.exists_tag {c k : Container} {t : Tag} (inside : k ∈ c.sections)
    (member : t ∈ k.tags)
    : ∃ u ∈ c.toNode.tags, u.test = t.test := by
  induction c using inductionOnParts with
  | step c below =>
      simp only [toNode, Node.tags, Node.tagsOfList_eq_flatMap]
      rw [sections_eq c] at inside
      rcases List.mem_cons.mp inside with rfl | inside
      · obtain ⟨node, child, isTag⟩ := List.mem_filterMap.mp member
        cases node with
        | tag u =>
            cases isTag
            exact ⟨t, List.mem_flatMap.mpr ⟨_, child, List.mem_singleton_self t⟩, rfl⟩
        | container => cases isTag
      · obtain ⟨part, listed, inside⟩ := List.mem_flatMap.mp inside
        obtain ⟨u, among, same⟩ := below part listed inside
        simp only [parts] at listed
        split at listed
        · obtain ⟨node, child, rfl⟩ := List.mem_map.mp listed
          cases node with
          | tag v =>
              obtain rfl := List.mem_singleton.mp among
              exact ⟨v, List.mem_flatMap.mpr ⟨_, child, List.mem_singleton_self v⟩, same⟩
          | container => exact ⟨u, List.mem_flatMap.mpr ⟨_, child, among⟩, same⟩
        · exact absurd listed List.not_mem_nil

theorem Document.allSections_unbroken {document : Document} (valid : document.violations = [])
    (ids : ∀ k ∈ document.allSections, IsLine k.id.text)
    (tags : ∀ t ∈ Node.tagsOfList document.nodes, t.Unbroken)
    : ∀ k ∈ document.allSections, k.Unbroken := by
  refine fun k inside => ⟨ids k inside, fun t member => ?_⟩
  obtain ⟨c, listed, inside⟩ := List.mem_flatMap.mp inside
  obtain ⟨u, among, same⟩ := Container.exists_tag inside member
  refine (tags u ?_).of_test same
  rw [Node.tagsOfList_eq_flatMap]
  exact List.mem_flatMap.mpr ⟨_, (mem_nodes valid).mpr ⟨c, listed, rfl⟩, among⟩

/-! ### Rules -/

variable {r : Rule} {path child : RulePath} {scope : Scope} {operands : Operands}

theorem Scope.mainRules_unbroken (own : IsLine scope.path.text)
    (around : ∀ ancestor, scope.ancestor = some ancestor → IsLine ancestor.text)
    (each : ∀ k, ∀ operand ∈ operands.role k, operand.holds.Unbroken ∧ operand.fails.Unbroken)
    (member : r ∈ scope.mainRules operands)
    : r.Unbroken := by
  obtain ⟨clause, _, _, _, effect⟩ := mainRules_shape member
  obtain ⟨conjuncts, guard, unbroken⟩ :=
    exists_conjuncts Condition.unbroken_closed each (fun _ _ => .status own)
      (fun ancestor above _ _ => .status (around ancestor above)) member
  refine ⟨?_, clause ▸ own, guard ▸ .and unbroken, effect ▸ own⟩
  rw [(mainRules_named member).2]
  exact RulePath.isLine_ruleId own (Purpose.isLine_suffix _)

theorem summaryRule_unbroken {purpose : Purpose} {condition : Condition} {outcome : Outcome}
    (own : IsLine path.text) (unbroken : condition.Unbroken)
    : (summaryRule path purpose condition outcome).Unbroken where
  id := RulePath.isLine_ruleId own (Purpose.isLine_suffix _)
  clause := own
  guard := .and (List.forall_mem_cons.mpr
    ⟨unbroken, List.forall_mem_singleton.mpr (.not (.result own))⟩)
  effect := own

theorem aggregationRules_unbroken (own : IsLine path.text) (member : r ∈ aggregationRules path)
    : r.Unbroken := by
  rcases mem_aggregationRules.mp member with rfl | rfl | rfl
  · exact summaryRule_unbroken own (.forAll (.status own) (.status own))
  · exact summaryRule_unbroken own (.forNone (.status own))
  · exact summaryRule_unbroken own (.forSome (.status own))

theorem transferRules_unbroken {object id : String} (own : IsLine path.text)
    (below : IsLine child.text) (part : IsLine id) (member : r ∈ transferRules path object id child)
    : r.Unbroken := by
  obtain ⟨clause, _, _, _, _, effect⟩ := transferRules_shape member
  refine ⟨?_, clause ▸ own, ?_, effect ▸ below⟩
  · rw [(transferRules_named member).2]
    refine RulePath.isLine_ruleId own ?_
    simp only [Text.isLine_append]
    exact ⟨⟨⟨by decide, part⟩, by decide⟩, Purpose.isLine_suffix _⟩
  · rcases mem_transferRules.mp member with rfl | rfl | rfl
    · exact .forAll (.status below) (.status below)
    · exact .forNone (.status below)
    · exact .forSome (.status below)

theorem documentRules_unbroken {sections : List RulePath} (own : IsLine path.text)
    (each : ∀ p ∈ sections, IsLine p.text) (member : r ∈ documentRules path sections)
    : r.Unbroken := by
  have some (s : Status)
      : ∀ c ∈ sections.map fun p => Condition.forSome (.has p s), c.Unbroken :=
    List.forall_mem_map.mpr fun p listed => .forSome (.status (each p listed))
  rcases mem_documentRules.mp member with rfl | rfl
  · exact summaryRule_unbroken own (.and (some .pass))
  · exact summaryRule_unbroken own (.or (some .fail))

namespace Container

variable {c left : Container} {ancestor : Option RulePath} {object : String}

theorem mem_tags_of_undeclared {vocabulary : Vocabulary} {t : Tag}
    (member : t ∈ (c.undeclared vocabulary).tags)
    : t ∈ c.tags := by
  obtain ⟨node, listed, isTag⟩ := List.mem_filterMap.mp member
  refine List.mem_filterMap.mpr ⟨node, ?_, isTag⟩
  simp only [undeclared] at listed
  split at listed
  · exact (List.eraseIdx_sublist _ _).subset listed
  · exact listed

/-- The results of sections are asked for by their paths, so only tags matter. -/
theorem operands_unbroken (tags : ∀ t ∈ left.tags, t.Unbroken) (k : Kind)
    : ∀ operand ∈ left.operands.role k, operand.holds.Unbroken ∧ operand.fails.Unbroken := by
  intro operand member
  obtain ⟨node, listed, _, rfl⟩ := exists_of_mem_role member
  cases node with
  | tag t =>
      have unbroken := (tags t (List.mem_filterMap.mpr ⟨_, listed, rfl⟩)).condition
      exact ⟨unbroken, .not unbroken⟩
  | container id reference kind children =>
      have line := isLine_path ⟨id, reference, kind, children⟩
      exact ⟨.status line, .status line⟩

theorem ownRules_unbroken (around : ∀ path, ancestor = some path → IsLine path.text)
    (tags : ∀ t ∈ left.tags, t.Unbroken) (member : r ∈ c.ownRules ancestor object left)
    : r.Unbroken := by
  rcases mem_ownRules.mp member with main | summary
  · refine Scope.mainRules_unbroken ?_ around (operands_unbroken tags) main
    exact c.isLine_path
  · exact aggregationRules_unbroken c.isLine_path summary

end Container

/-- The rules of a tree have line feeds only from its sections. -/
theorem Compiles.rules_unbroken {env : CompileEnv} {repeats : NodeId → Prop}
    {ancestor : Option RulePath} {context : Option String} {c : Container} {y : Yield}
    (compiles : Compiles env repeats ancestor context c y)
    (around : ∀ path, ancestor = some path → IsLine path.text)
    (sections : ∀ k ∈ c.sections, k.Unbroken)
    : ∀ r ∈ y.rules, r.Unbroken := by
  induction compiles with
  | repeated | empty => exact List.forall_mem_nil _
  | @tags ancestor context c object flat resolved =>
      intro r member
      simp only at member
      split at member
      · exact absurd member List.not_mem_nil
      · refine Container.ownRules_unbroken around (fun t inside => ?_) member
        exact (sections c c.mem_sections_self).tags t (Container.mem_tags_of_undeclared inside)
  | @sections ancestor context c object left parts nested origins entered below resolved rest ih =>
      have part (k : CompiledPart) (listed : k ∈ parts) : k.origin ∈ c.parts :=
        origins ▸ List.mem_map_of_mem listed
      intro r member
      simp only [List.mem_append, List.mem_flatMap, CompiledPart.mem_transfers] at member
      rcases member with (⟨k, listed, inPart⟩ | own) | ⟨k, listed, _, _, transfer⟩
      · have around (path : RulePath) (same : some c.path = some path) : IsLine path.text :=
          Option.some.inj same ▸ c.isLine_path
        refine ih k listed around (fun j inside => ?_) r inPart
        exact sections j (Container.mem_sections_of_part (part k listed) inside)
      · -- Nothing but sections is left of a section of sections.
        refine Container.ownRules_unbroken around (fun t inside => ?_) own
        obtain ⟨node, isLeft, isTag⟩ := List.mem_filterMap.mp inside
        rw [← rest] at isLeft
        obtain ⟨k, _, rfl⟩ := List.mem_map.mp isLeft
        cases isTag
      · have id := (sections k.origin
          (Container.mem_sections_of_part (part k listed) k.origin.mem_sections_self)).id
        rw [← (below k listed).id_eq] at id
        exact transferRules_unbroken c.isLine_path k.left.isLine_path id transfer

namespace Document

variable {document : Document} {env : CompileEnv} {rules : RuleSet}

/-- Where no line feed stands in the ids of a document's sections and in what its tags compare with,
none stands in its rules.
-/
theorem compile_unbroken (succeeds : (document.compile env).1 = .ok rules)
    (ids : ∀ k ∈ document.allSections, IsLine k.id.text)
    (tags : ∀ t ∈ Node.tagsOfList document.nodes, t.Unbroken)
    : ∀ r ∈ rules, r.Unbroken := by
  have sections := allSections_unbroken (valid_of_compile succeeds) ids tags
  intro r member
  rcases derivation_of_compile succeeds member with ⟨c, listed, y, compiles, inside⟩ | final
  · refine compiles.rules_unbroken nofun (fun k within => ?_) r inside
    exact sections k (List.mem_flatMap.mpr ⟨c, listed, within⟩)
  · refine documentRules_unbroken (RulePath.isLine_ofText _) ?_ final
    exact List.forall_mem_map.mpr fun c _ => c.isLine_path

end Document

end ClauseRules
