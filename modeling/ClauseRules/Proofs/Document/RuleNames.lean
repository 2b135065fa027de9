import ClauseRules.Proofs.Compile.RuleNames
import ClauseRules.Proofs.Document.References

/-! The rules of a compiled document by their ids. An id belongs to one rule where the ids of nodes
and the paths of sections differ and no path continues another one. Different ids of nodes are not
enough: paths may have underscores in them, as ids of rules do.
-/

namespace ClauseRules

variable {env : CompileEnv} {q r : Rule}

/-- What is found under an id is the only rule with it. -/
theorem RuleSet.get?_of_unique {rules : RuleSet} (unique : ∀ q ∈ rules, q.id = r.id → q = r)
    (member : r ∈ rules)
    : rules.get? r.id = some r := by
  cases found : rules.get? r.id with
  | none => exact absurd (List.find?_eq_none.mp found r member) (by simp)
  | some q =>
      have same : q.id = r.id := by simpa using List.find?_some found
      rw [unique q (List.mem_of_find?_eq_some found) same]

/-! ### Rules about a document -/

theorem documentRules_named {path : RulePath} {sections : List RulePath}
    (member : r ∈ documentRules path sections)
    : r.purpose ∈ Purpose.finals ∧ r.id = path.ruleId r.purpose.suffix := by
  rcases mem_documentRules.mp member with rfl | rfl
  all_goals exact ⟨by simp [Purpose.finals], rfl⟩

theorem documentRules_eq {path : RulePath} {sections : List RulePath}
    (first : q ∈ documentRules path sections) (second : r ∈ documentRules path sections)
    (same : q.id = r.id)
    : q = r := by
  obtain ⟨listed, id⟩ := documentRules_named first
  obtain ⟨also, other⟩ := documentRules_named second
  have purposes : q.purpose = r.purpose :=
    Purpose.eq_of_suffix_finals _ listed _ also
      (RulePath.ruleId_injective (id.symm.trans (same.trans other)))
  rcases mem_documentRules.mp first with rfl | rfl
  all_goals
    rcases mem_documentRules.mp second with rfl | rfl
    all_goals first | rfl | cases purposes

/-- The ids of rules about sections do not end like those of rules about a document. -/
theorem Rule.Named.id_ne_documentRules {path : RulePath} {sections : List RulePath}
    (named : q.Named) (member : r ∈ documentRules path sections)
    : q.id ≠ r.id := by
  intro same
  obtain ⟨last, listed⟩ := named.getLast?_id
  obtain ⟨final, id⟩ := documentRules_named member
  refine Purpose.last_suffix_finals _ listed _ final ?_
  rw [← last, same, id, RulePath.ruleId]
  exact r.purpose.getLast?_append_suffix

/-! ### Rules about sections -/

/-- Rules of sections next to each other that have one id are equal. -/
theorem sectionRules_eq {repeats : NodeId → Prop} {sections : List Container}
    {parts : List CompiledPart} (origins : parts.map (·.origin) = sections)
    (below
      : ∀ part ∈ parts, Compiles env repeats none none part.origin part.toYield)
    (ids : (sections.flatMap Container.ids).Nodup)
    (paths : (sections.flatMap Container.paths).Nodup)
    (apart
      : ∀ path ∈ sections.flatMap Container.paths, ∀ other ∈ sections.flatMap Container.paths,
          ¬path.Continues other)
    (first : q ∈ parts.flatMap (·.rules)) (second : r ∈ parts.flatMap (·.rules))
    (same : q.id = r.id)
    : q = r := by
  rw [← origins, List.flatMap_map] at ids paths apart
  obtain ⟨a, listed, first⟩ := List.mem_flatMap.mp first
  obtain ⟨b, also, second⟩ := List.mem_flatMap.mp second
  have makes := (below a listed).makes first
  have otherMakes := (below b also).makes second
  have inside : q.clause ∈ parts.flatMap (·.origin.paths) :=
    List.mem_flatMap.mpr ⟨a, listed, makes.clause_mem⟩
  have otherInside : r.clause ∈ parts.flatMap (·.origin.paths) :=
    List.mem_flatMap.mpr ⟨b, also, otherMakes.clause_mem⟩
  have clause : q.clause = r.clause := by
    rcases makes.named.clause_or_continues otherMakes.named same with equal | later | later
    · exact equal
    · exact absurd later (apart _ inside _ otherInside)
    · exact absurd later (apart _ otherInside _ inside)
  obtain rfl : a = b :=
    CompiledPart.eq_of_path paths listed also makes.clause_mem (clause ▸ otherMakes.clause_mem)
  exact (below a listed).eq_of_id ((List.nodup_flatMap.mp paths).1 a listed)
    ((List.nodup_flatMap.mp ids).1 a listed) first second clause same

namespace Document

/-- The ids of all nodes of a document. -/
def nodeIds (document : Document) : List NodeId := Node.allIdsOfList document.nodes

variable {document : Document} {rules : RuleSet}

theorem allSections_eq : document.allSections = Node.sectionsOfList false document.nodes := by
  have items (nodes : List Node)
      : (nodes.filterMap Node.container?).flatMap Container.sections
        = nodes.flatMap (Node.sections false) := by
    induction nodes with
    | nil => rfl
    | cons node rest ih =>
        cases node with
        | tag t => exact ih
        | container id reference kind children =>
            simp only [List.filterMap_cons, Node.container?_container, List.flatMap_cons, ih]
            rfl
  rw [Node.sectionsOfList_eq_flatMap, nodes, List.flatMap_append, List.flatMap_map, allSections,
    sections, List.flatMap_append, items]
  rfl

/-- Where the ids of the nodes differ, those of the sections do. -/
theorem distinct_allSections (distinct : document.nodeIds.Nodup)
    : (document.allSections.map (·.id)).Nodup := by
  rw [allSections_eq]
  exact distinct.sublist (Node.sectionIdsOfList_sublist false document.nodes)

theorem paths_eq
    : document.sections.flatMap Container.paths = document.allSections.map (·.path) := by
  rw [allSections, List.map_flatMap]
  rfl

/-- In a compiled document every id is that of one rule, where no section has the path of another
one or continues it.
-/
theorem compile_names (succeeds : (document.compile env).1 = .ok rules)
    (ids : document.nodeIds.Nodup) (paths : (document.allSections.map (·.path)).Nodup)
    (apart : ∀ j ∈ document.allSections, ∀ k ∈ document.allSections, ¬j.path.Continues k.path)
    : (∀ q ∈ rules, ∀ r ∈ rules, q.id = r.id → q = r)
      ∧ ∀ r ∈ rules, rules.get? r.id = some r := by
  have unique : ∀ q ∈ rules, ∀ r ∈ rules, q.id = r.id → q = r := by
    intro q first r second sameId
    obtain ⟨listed, run, same⟩ := compile_ok succeeds
    obtain ⟨parts, origins, below, gain⟩ :=
      compileAll_derives run fun _ _ _ unrepeated => absurd trivial unrepeated
    have inParts {rule : Rule} (member : rule ∈ (compileAll env {} document.sections).1.rules)
        : rule ∈ parts.flatMap (·.rules) :=
      ((gain.rules rule).mp member).resolve_left SortedSet.not_mem_empty
    have named {rule : Rule} (member : rule ∈ (compileAll env {} document.sections).1.rules)
        : rule.Named := by
      obtain ⟨part, isPart, member⟩ := List.mem_flatMap.mp (inParts member)
      exact ((below part isPart).makes member).named
    -- Ids of rules about sections and about the document differ in their last letter.
    rcases (same q).mp first with first | ⟨_, first⟩
    · rcases (same r).mp second with second | ⟨_, second⟩
      · refine sectionRules_eq origins below ?_ ?_ ?_ (inParts first) (inParts second) sameId
        · exact ids_eq ▸ distinct_allSections ids
        · exact paths_eq ▸ paths
        · rw [paths_eq]
          simpa using apart
      · exact absurd sameId ((named first).id_ne_documentRules second)
    · rcases (same r).mp second with second | ⟨_, second⟩
      · exact absurd sameId.symm ((named second).id_ne_documentRules first)
      · exact documentRules_eq first second sameId
  refine ⟨unique, fun r member => ?_⟩
  exact RuleSet.get?_of_unique (fun q also => unique q also r member) member

/-- Two sections next to each other. -/
def neighbours (second : NodeId) : Document where
  base := "GB/R/B/1"
  items := [
    .container { text := "n1" } "/b" .requirement [
      .tag { id := { text := "u1" }, kind := .requirement, property := "width" }],
    .container second "/b" .requirement [
      .tag { id := { text := "u2" }, kind := .requirement, property := "width" }]]
  tables := []

theorem compile_names_neighbours
    : ∃ rules,
        ((neighbours { text := "n2" }).compile doors).1 = .ok rules ∧ rules.size = 14
        ∧ (∀ q ∈ rules, ∀ r ∈ rules, q.id = r.id → q = r)
        ∧ ∀ r ∈ rules, rules.get? r.id = some r := by
  obtain ⟨rules, compiled, size⟩
      : ∃ rules, ((neighbours { text := "n2" }).compile doors).1 = .ok rules ∧ rules.size = 14 := by
    refine exists_of_compile (P := fun rules => rules.size = 14) ?_
    decide +kernel
  exact ⟨rules, compiled, size,
    compile_names compiled (by decide +kernel) (by decide +kernel) (by decide +kernel)⟩

/-- The ids of rules that sum up the first section are those of rules about the second one. -/
theorem neighbours_share_name
    : (neighbours { text := "n1_Meta" }).nodeIds.Nodup
      ∧ ∃ rules,
          ((neighbours { text := "n1_Meta" }).compile doors).1 = .ok rules
          ∧ ∃ q ∈ rules, ∃ r ∈ rules,
            q.id = "/b/n1_Meta_Pass" ∧ r.id = "/b/n1_Meta_Pass" ∧ q.clause ≠ r.clause := by
  refine ⟨by decide +kernel, exists_of_compile ?_⟩
  decide +kernel

end Document

end ClauseRules
