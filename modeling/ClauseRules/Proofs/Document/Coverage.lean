import ClauseRules.Coverage
import ClauseRules.Proofs.Document.Classes
import ClauseRules.Proofs.Document.Validity

/-! Properties that the dictionary does not know. An audit walks over the tags of the trees as they
were written, compilation meets them section by section until it fails. Both come to the same
properties, and a section of tags has an object class only if the dictionary knows all of them.
-/

namespace ClauseRules

open Std (LawfulEqOrd)
open Std.LawfulEqOrd renaming compare_eq_iff_eq → lawful_iff

/-- No object class owns the property, which is not the name of one either. -/
structure Vocabulary.Lacks (vocabulary : Vocabulary) (property : String) : Prop where
  unnamed : vocabulary.isObject property = false
  unowned : (vocabulary.owners property).isEmpty = true

/-! ### Findings -/

instance : LawfulEqOrd Finding := lawfulEqOrd_of_iff fun a b => by
  have types {t u : DataType} : t.rank = u.rank ↔ t = u := by
    cases t <;> cases u <;> simp [DataType.rank]
  cases a <;> cases b
  case unknownProperty.unknownProperty =>
    exact compareLists_eq_iff.trans (by simp)
  case unusedProperty.unusedProperty =>
    exact compareLists_eq_iff.trans (by simp)
  case unlistedUnit.unlistedUnit =>
    exact compareLists_eq_iff.trans (by simp)
  case dataTypeMismatch.dataTypeMismatch o p t v c n q u w d =>
    have fields : compare (Finding.dataTypeMismatch o p t v c) (.dataTypeMismatch n q u w d)
        = (compareLists [o, p] [n, q]).then
          ((compare t.rank u.rank).then (compareLists [v, c] [w, d])) := rfl
    simp [fields, Ordering.then_eq_eq, compareLists_eq_iff, types, and_assoc]
  all_goals exact iff_of_false nofun nofun

namespace Dictionary

variable {d : Dictionary} {t : Tag} {property citation : String}

theorem unknownProperty_mem_tagFindings
    : .unknownProperty property citation ∈ d.tagFindings t
      ↔ d.vocabulary.Lacks t.property ∧ t.property = property ∧ t.citation = citation := by
  have lacks
      : d.vocabulary.Lacks t.property
        ↔ d.containsObject t.property = false ∧ (d.owners t.property).isEmpty = true :=
    ⟨fun lacks => ⟨lacks.unnamed, lacks.unowned⟩, fun lacks => ⟨lacks.1, lacks.2⟩⟩
  rw [lacks]
  cases isObject : d.containsObject t.property with
  | true => simp [tagFindings, isObject]
  | false =>
      cases unowned : (d.owners t.property).isEmpty with
      | true => simp [tagFindings, isObject, unowned, eq_comm]
      | false =>
          simp only [tagFindings, isObject, unowned, Bool.false_eq_true, if_false, and_false,
            false_and, iff_false, List.mem_flatMap, not_exists, not_and]
          rintro ⟨object, descriptor⟩ _ member
          simp only [descriptorFindings, List.mem_append] at member
          rcases member with unit | type
          · split at unit <;> simp at unit
          · split at type
            · split at type <;> simp at type
            · simp at type

/-- An audit reports the unknown properties of all tags. -/
theorem unknownProperty_mem_audit {nodes : List Node}
    : .unknownProperty property citation ∈ (audit nodes d).findings
      ↔ ∃ t ∈ Node.tagsOfList nodes,
          d.vocabulary.Lacks t.property ∧ t.property = property ∧ t.citation = citation := by
  simp only [audit, SortedSet.mem_ofList, List.mem_append, List.mem_flatMap,
    unknownProperty_mem_tagFindings, List.mem_filterMap]
  constructor
  · rintro (found | ⟨_, _, unused⟩)
    · exact found
    · split at unused <;> cases unused
  · exact .inl

end Dictionary

/-! ### Object classes of sections of tags -/

section

variable {vocabulary : Vocabulary} {declared context : Option String} {container id : NodeId}
  {tags : List Tag} {candidates found : Option (SortedSet String)} {property object : String}
  {c : Container}

theorem Vocabulary.classesOf_error {t : Tag}
    (outcome : vocabulary.classesOf declared t = .error (.unknownProperty id property))
    : (vocabulary.owners t.property).isEmpty = true ∧ t.property = property := by
  simp only [classesOf] at outcome
  split at outcome
  case isTrue unowned =>
    cases outcome
    exact ⟨unowned, rfl⟩
  · split at outcome
    · split at outcome <;> cases outcome
    · cases outcome

theorem exists_lacks_of_narrow
    (outcome
      : (narrow vocabulary declared container candidates tags).1
        = .error (.unknownProperty id property))
    : ∃ t ∈ tags, vocabulary.Lacks t.property ∧ t.property = property := by
  induction tags generalizing candidates with
  | nil => cases outcome
  | cons head rest ih =>
      have later (candidates : Option (SortedSet String))
          (outcome
            : (narrow vocabulary declared container candidates rest).1
              = .error (.unknownProperty id property))
          : ∃ t ∈ head :: rest, vocabulary.Lacks t.property ∧ t.property = property :=
        (ih outcome).imp fun _ found => ⟨List.mem_cons_of_mem _ found.1, found.2⟩
      cases kind : vocabulary.isObject head.property with
      | true =>
          rw [narrow_of_object kind] at outcome
          exact later _ outcome
      | false =>
          simp only [narrow, kind, Bool.false_eq_true, if_false] at outcome
          split at outcome
          case h_1 e checked =>
            cases outcome
            obtain ⟨unowned, same⟩ := Vocabulary.classesOf_error checked
            exact ⟨head, List.mem_cons_self, ⟨kind, unowned⟩, same⟩
          · exact later _ outcome
          · split at outcome <;> exact later _ outcome

theorem not_lacks_of_narrow
    (outcome : (narrow vocabulary declared container candidates tags).1 = .ok found)
    : ∀ t ∈ tags, ¬vocabulary.Lacks t.property := by
  induction tags generalizing candidates with
  | nil => exact List.forall_mem_nil _
  | cons head rest ih =>
      cases kind : vocabulary.isObject head.property with
      | true =>
          rw [narrow_of_object kind] at outcome
          exact List.forall_mem_cons.mpr
            ⟨fun lacks => absurd (kind.symm.trans lacks.unnamed) nofun, ih outcome⟩
      | false =>
          have owned : ¬vocabulary.Lacks head.property := by
            intro lacks
            simp [narrow, kind, Vocabulary.classesOf, lacks.unowned] at outcome
          obtain ⟨_, kept, _, _, outcome⟩ := narrow_of_property kind outcome
          exact List.forall_mem_cons.mpr ⟨owned, ih outcome⟩

theorem choose_ne_unknownProperty {preferred : List String} {candidates : SortedSet String}
    : choose container preferred candidates ≠ .error (.unknownProperty id property) := by
  intro unknown
  simp only [choose] at unknown
  split at unknown
  · cases unknown
  · cases unknown
  · split at unknown <;> cases unknown

namespace Container

/-- A section of tags fails for an unknown property only if one of its tags has it. -/
theorem exists_lacks_of_object
    (unresolved : c.object vocabulary context = .error (.unknownProperty id property))
    : ∃ t ∈ c.tags, vocabulary.Lacks t.property ∧ t.property = property := by
  simp only [object, resolveContext, bind, Except.bind] at unresolved
  split at unresolved
  case h_1 e outcome =>
    cases unresolved
    exact exists_lacks_of_narrow outcome
  · exact absurd unresolved choose_ne_unknownProperty

theorem not_lacks_of_object (resolved : c.object vocabulary context = .ok object)
    : ∀ t ∈ c.tags, ¬vocabulary.Lacks t.property := by
  simp only [Container.object, resolveContext, bind, Except.bind] at resolved
  split at resolved
  · cases resolved
  case h_2 found outcome => exact not_lacks_of_narrow outcome

end Container

end

/-! ### The properties of trees -/

theorem Node.tagsOfList_eq_flatMap (nodes : List Node) : tagsOfList nodes = nodes.flatMap tags := by
  induction nodes with
  | nil => rfl
  | cons node rest ih => simp [tagsOfList, ih]

/-- A section that a tag is repaired to asks for the same property. -/
theorem Node.properties_part (node : Node)
    : node.part.toNode.tags.map (·.property) = node.tags.map (·.property) := by
  cases node <;> rfl

namespace Container

variable {c : Container} {property : String}

/-- The properties that the tags of a tree ask for, as they were written. -/
def properties (c : Container) : List String := c.toNode.tags.map (·.property)

theorem properties_of_nested (nested : c.hasContainers = true)
    : c.properties = c.parts.flatMap properties := by
  have children : c.properties = c.children.flatMap fun node => node.tags.map (·.property) := by
    simp only [properties, toNode, Node.tags, Node.tagsOfList_eq_flatMap, List.map_flatMap]
  rw [children, parts, if_pos nested, List.flatMap_map]
  exact List.flatMap_congr fun node _ => (Node.properties_part node).symm

theorem properties_of_flat (flat : c.hasContainers = false)
    : c.properties = c.tags.map (·.property) := by
  have each := children_of_flat flat
  simp only [properties, toNode, Node.tags, Node.tagsOfList_eq_flatMap, tags]
  generalize c.children = nodes at each
  induction nodes with
  | nil => rfl
  | cons node rest ih =>
      obtain ⟨⟨t, rfl⟩, others⟩ := List.forall_mem_cons.mp each
      simp only [List.flatMap_cons, List.map_append, ih others]
      rfl

/-- The tags of a tree and those of its sections of tags ask for the same properties. -/
theorem mem_properties
    : property ∈ c.properties
      ↔ ∃ k ∈ c.sections, k.hasContainers = false ∧ ∃ t ∈ k.tags, t.property = property := by
  induction c using inductionOnParts with
  | step c below =>
      simp only [sections_eq c, List.exists_mem_cons_iff, List.mem_flatMap]
      cases nested : c.hasContainers with
      | true =>
          simp only [properties_of_nested nested, List.mem_flatMap, Bool.true_eq_false, false_and,
            false_or]
          constructor
          · rintro ⟨part, listed, member⟩
            obtain ⟨k, inside, found⟩ := (below part listed).mp member
            exact ⟨k, ⟨part, listed, inside⟩, found⟩
          · rintro ⟨k, ⟨part, listed, inside⟩, found⟩
            exact ⟨part, listed, (below part listed).mpr ⟨k, inside, found⟩⟩
      | false =>
          simp [properties_of_flat nested, parts, nested]

theorem hasTags_of_mem {t : Tag} (member : t ∈ c.tags) : c.hasTags = true := by
  cases tags : c.tags with
  | nil => simp [tags] at member
  | cons => simp [hasTags, tags]

end Container

namespace Document

variable {document : Document} {env : CompileEnv} {rules : RuleSet} {property : String}

/-- A valid document has no tags but those of its sections. -/
theorem mem_nodes (valid : document.violations = []) {node : Node}
    : node ∈ document.nodes ↔ ∃ c ∈ document.sections, c.toNode = node := by
  simp only [nodes, sections, List.mem_append, List.mem_map, List.mem_filterMap]
  constructor
  · rintro (item | ⟨c, isTable, same⟩)
    · cases node with
      | tag t =>
          have refused : RootError.tagAtRoot t.id ∈ document.violations :=
            List.mem_append_left _ (List.mem_flatMap.mpr ⟨_, item, List.mem_cons_self⟩)
          simp [valid] at refused
      | container => exact ⟨_, .inl ⟨_, item, rfl⟩, rfl⟩
    · exact ⟨c, .inr isTable, same⟩
  · rintro ⟨c, ⟨node, item, isSection⟩ | isTable, rfl⟩
    · cases node with
      | tag => cases isSection
      | container =>
          cases isSection
          exact .inl item
    · exact .inr ⟨c, isTable, rfl⟩

/-- An audit and a compilation meet the same properties. -/
theorem mem_properties (valid : document.violations = [])
    : (∃ t ∈ Node.tagsOfList document.nodes, t.property = property)
      ↔ ∃ k ∈ document.allSections,
          k.hasContainers = false ∧ ∃ t ∈ k.tags, t.property = property := by
  have trees
      : (∃ t ∈ Node.tagsOfList document.nodes, t.property = property)
        ↔ ∃ c ∈ document.sections, property ∈ c.properties := by
    simp only [Node.tagsOfList_eq_flatMap, List.mem_flatMap, mem_nodes valid,
      Container.properties, List.mem_map]
    constructor
    · rintro ⟨t, ⟨_, ⟨c, listed, rfl⟩, member⟩, same⟩
      exact ⟨c, listed, t, member, same⟩
    · rintro ⟨c, listed, t, member, same⟩
      exact ⟨t, ⟨_, ⟨c, listed, rfl⟩, member⟩, same⟩
  simp only [trees, Container.mem_properties, allSections, List.mem_flatMap]
  constructor
  · rintro ⟨c, listed, k, inside, found⟩
    exact ⟨k, ⟨c, listed, inside⟩, found⟩
  · rintro ⟨k, ⟨c, listed, inside⟩, found⟩
    exact ⟨c, listed, k, inside, found⟩

/-- Compilation stops only at a property that a section of the document asks for. -/
theorem exists_lacks_of_compile {id : NodeId}
    (failed : (document.compile env).1 = .error (.resolve (.unknownProperty id property)))
    : env.vocabulary.Lacks property
      ∧ ∃ t ∈ Node.tagsOfList document.nodes, t.property = property := by
  rcases exists_fails failed with ⟨_, _, _, other⟩ | ⟨valid, call, calls, fails⟩
  · cases other
  · cases fails with
    | unresolved _ flat unresolved =>
        obtain ⟨t, member, lacks, same⟩ := Container.exists_lacks_of_object unresolved
        obtain ⟨c, listed, inside⟩ := calls.mem_sections
        exact ⟨same ▸ lacks, (mem_properties valid).mpr
          ⟨_, List.mem_flatMap.mpr ⟨c, listed, inside⟩, flat, t, member, same⟩⟩

/-- Where every section is compiled, the dictionary knows all properties. -/
theorem not_lacks_of_compile (succeeds : (document.compile env).1 = .ok rules)
    (distinct : document.containerIds.Nodup)
    : ∀ t ∈ Node.tagsOfList document.nodes, ¬env.vocabulary.Lacks t.property := by
  intro t member
  have valid := valid_of_compile succeeds
  obtain ⟨k, inside, flat, u, listed, same⟩ := (mem_properties valid).mp ⟨t, member, rfl⟩
  obtain ⟨call, calls, rfl⟩ := exists_calls succeeds distinct inside
  have unmet := unmet_of_calls succeeds distinct calls
  obtain ⟨out, compiled⟩ := ok_of_calls succeeds calls
  rw [Call.outcome, Container.compile_of_tagged (unmet.new _ Container.id_mem_ids) flat
    (Container.hasTags_of_mem listed), compileLeaf_context] at compiled
  rw [← same]
  cases resolved : call.container.object env.vocabulary call.context with
  | ok object => exact Container.not_lacks_of_object resolved u listed
  | error problem =>
      rw [resolved] at compiled
      cases compiled

end Document

/-! ### Audits and compilations -/

variable {d : Dictionary} {config : Config} {document : Document} {property : String}

/-- An audit reports the unknown property at which a compilation stops. -/
theorem Dictionary.exists_finding_of_compile {id : NodeId}
    (failed
      : (document.compile ⟨d.vocabulary, config⟩).1
        = .error (.resolve (.unknownProperty id property)))
    : ∃ citation, .unknownProperty property citation ∈ (audit document.nodes d).findings := by
  obtain ⟨lacks, t, member, same⟩ := Document.exists_lacks_of_compile failed
  exact ⟨t.citation, unknownProperty_mem_audit.mpr ⟨t, member, same ▸ lacks, same, rfl⟩⟩

/-- Where an audit reports no unknown property, compilation stops at none. Where a document compiles
in which no section occurs twice, an audit reports none.
-/
theorem Dictionary.audit_compile (d : Dictionary) (config : Config) (document : Document)
    : ((∀ property citation,
          .unknownProperty property citation ∉ (audit document.nodes d).findings) →
        ∀ tag property,
          (document.compile ⟨d.vocabulary, config⟩).1
            ≠ .error (.resolve (.unknownProperty tag property)))
      ∧ ∀ rules, (document.compile ⟨d.vocabulary, config⟩).1 = .ok rules →
        document.containerIds.Nodup →
          ∀ property citation,
            .unknownProperty property citation ∉ (audit document.nodes d).findings := by
  refine ⟨fun clean tag property failed => ?_, fun rules succeeds distinct property citation => ?_⟩
  · obtain ⟨citation, finding⟩ := exists_finding_of_compile failed
    exact clean property citation finding
  · intro finding
    obtain ⟨t, member, lacks, _⟩ := unknownProperty_mem_audit.mp finding
    exact Document.not_lacks_of_compile succeeds distinct t member lacks

/-- Nothing is amiss with halls that have a height. -/
theorem Dictionary.audit_compile_halls
    : (∀ property citation,
        .unknownProperty property citation ∉ (audit hallDocument.nodes halls).findings)
      ∧ (∀ tag property,
        (hallDocument.compile ⟨halls.vocabulary, {}⟩).1
          ≠ .error (.resolve (.unknownProperty tag property)))
      ∧ hallDocument.containerIds.Nodup
      ∧ ∃ rules, (hallDocument.compile ⟨halls.vocabulary, {}⟩).1 = .ok rules := by
  have succeeds : (hallDocument.compile ⟨halls.vocabulary, {}⟩).1.isOk = true := by decide +kernel
  have distinct : hallDocument.containerIds.Nodup := by decide +kernel
  obtain ⟨stopsAtNone, reportsNone⟩ := audit_compile halls {} hallDocument
  cases compiled : (hallDocument.compile ⟨halls.vocabulary, {}⟩).1 with
  | error e => exact absurd (compiled ▸ succeeds) nofun
  | ok rules =>
      have clean := reportsNone rules compiled distinct
      exact ⟨clean, compiled ▸ stopsAtNone clean, distinct, rules, rfl⟩

end ClauseRules
