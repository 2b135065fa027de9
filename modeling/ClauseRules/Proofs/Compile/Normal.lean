import ClauseRules.Proofs.Compile.Failure
import ClauseRules.Proofs.Compile.Matching
import ClauseRules.Proofs.Compile.ObjectClass
import ClauseRules.Proofs.Node.Normal

/-! Trees that are repaired before they are compiled. Compilation repairs one section at a time,
when the turn of the section comes, and nothing of a section that it passes over. It comes to the
same as where the whole tree was repaired beforehand.
-/

namespace ClauseRules

/-! ### The parts of a repaired section -/

theorem Node.normalTrees_of_tags {nodes : List Node} (each : ∀ node ∈ nodes, ∃ t, node = .tag t)
    : normalTrees false nodes = (nodes, none) := by
  induction nodes with
  | nil => simp [normalTrees]
  | cons node rest ih =>
      obtain ⟨⟨t, rfl⟩, others⟩ := List.forall_mem_cons.mp each
      simp [normalTrees, ih others]

/-- Among tags there is nothing to repair. -/
theorem Container.normalTree_of_flat {c : Container} (flat : c.hasContainers = false)
    : c.normalTree.1 = c := by
  have pure : c.mixedContent? = none := pure_of_flat flat
  have same := Node.normalTrees_of_tags (children_of_flat flat)
  rw [hasContainers_eq_any] at flat
  simp only [mixedContent?] at pure
  simp only [normalTree, toNode, Node.normalTree, pure, flat, same]
  rfl

/-- Next to sections, every child is repaired to what it counts as, and then within. -/
theorem Node.normalTrees_of_valid {nodes : List Node} (valid : violationIn? nodes = none)
    : (normalTrees true nodes).1 = nodes.map (·.part.normalTree.1.toNode) := by
  induction nodes with
  | nil => simp [normalTrees]
  | cons node rest ih =>
      obtain ⟨here, others⟩ := Option.or_eq_none_iff.mp valid
      have later := ih others
      cases node with
      | tag t =>
          have whole : t.wrapper.normalTree.1 = t.wrapper := Container.normalTree_of_flat rfl
          simp only [normalTrees, if_true, wrapped, List.map_cons, part, whole, later]
      | container id reference kind children =>
          have fine := (normalTree_snd (.container id reference kind children)).trans here
          simp only [normalTrees, fine, List.map_cons, part, Container.toNode_normalTree, later]
          rfl

namespace Container

variable {c : Container}

/-- A repair changes nothing of a section but what it holds. -/
theorem bare_normalTree (c : Container) : c.normalTree.1.bare = c.bare := by
  simp only [normalTree, toNode, Node.normalTree]
  split <;> rfl

/-- A section of sections is repaired by repairing its parts. -/
theorem normalTree_of_nested (valid : c.violation? = none) (nested : c.hasContainers = true)
    : c.normalTree.1
      = { c with children := (c.parts.map (·.normalTree.1)).map toNode } := by
  obtain ⟨pure, below⟩ := Option.or_eq_none_iff.mp valid
  have repaired := Node.normalTrees_of_valid below
  rw [parts, if_pos nested, List.map_map, List.map_map]
  rw [hasContainers_eq_any] at nested
  simp only [normalTree, toNode, Node.normalTree, pure, nested, repaired]
  rfl

theorem parts_of_map {sections : List Container}
    : { c with children := sections.map toNode : Container }.parts = sections := by
  cases sections with
  | nil => rfl
  | cons k rest =>
      have nested
          : { c with children := (k :: rest).map toNode : Container }.hasContainers = true := by
        rw [hasContainers, containers_of_map]
        rfl
      rw [parts, if_pos nested, List.map_map]
      exact List.map_id'' (fun _ => rfl) _

theorem parts_normalTree (valid : c.violation? = none)
    : c.normalTree.1.parts = c.parts.map (·.normalTree.1) := by
  cases nested : c.hasContainers with
  | true => rw [normalTree_of_nested valid nested, parts_of_map]
  | false =>
      rw [normalTree_of_flat nested]
      simp [parts, nested]

theorem hasContainers_normalTree (valid : c.violation? = none)
    : c.normalTree.1.hasContainers = c.hasContainers := by
  have repairs := c.repairs_normalTree valid
  rw [hasContainers_eq_any, hasContainers_eq_any]
  generalize c.normalTree.1 = repaired at repairs
  obtain ⟨id, reference, kind, children⟩ := c
  obtain ⟨_, _, _, others⟩ := repaired
  cases repairs with
  | container each => exact each.any_isContainer

/-- The parts of a repaired section have their turns in the same order. -/
theorem turns_normalTree (valid : c.violation? = none)
    : c.normalTree.1.turns = c.turns.map (·.normalTree.1) := by
  have kinds (k : Container) : k.normalTree.1.kind = k.kind := kind_of_bare k.bare_normalTree
  simp only [turns, parts_normalTree valid, Kind.sort_eq, List.filter_map, List.map_append,
    Function.comp_def, kinds]

/-! ### Compilation -/

variable {env : CompileEnv}

/-- A repaired section comes to the same as the section as it was. -/
theorem compile_normalTree_matches (valid : c.violation? = none) (context : Option String)
    (ancestor : Option RulePath) (s : CompileState)
    : (c.normalTree.1.compile env context ancestor s).Matches
        (c.compile env context ancestor s) := by
  -- The state is left open, because a part has its turn after others of the same section.
  induction c using inductionOnParts generalizing context ancestor s with
  | step c below =>
      cases nested : c.hasContainers with
      | false =>
          rw [normalTree_of_flat nested]
          exact .refl _
      | true =>
          have bare := c.bare_normalTree
          have pure : c.normalTree.1.mixedContent? = none :=
            Node.mixedContent?_of_isHomogeneous (c.repairs_normalTree valid).homogeneous.1
          refine compile_matches bare pure (pure_of_valid valid c.mem_sections_self)
            ((hasContainers_normalTree valid).trans nested) nested ?_
          rw [turns_normalTree valid, progress, progress, id_of_bare bare, path_of_bare bare]
          apply Progress.after_map
          intro k listed
          have part := mem_turns.mp listed
          exact below k part (violation?_of_part valid part)

/-- A tree that can be repaired is compiled to the same object class or problem as its repair, from
every state and for every section around it. The same sections are met, the same rules are added and
the same remarks are made.
-/
theorem compile_normalTree (valid : c.violation? = none) (env : CompileEnv)
    (context : Option String) (ancestor : Option RulePath) (s : CompileState)
    : (c.normalTree.1.compile env context ancestor s).context
        = (c.compile env context ancestor s).context
      ∧ (c.normalTree.1.compile env context ancestor s).state
        = (c.compile env context ancestor s).state := by
  have same
      : (c.normalTree.1.compile env context ancestor s).Matches
          (c.compile env context ancestor s) :=
    compile_normalTree_matches valid context ancestor s
  exact ⟨same.context, same.state⟩

/-- A section with a selection next to another section. -/
def looseSelection : Node :=
  .container { text := "l3" } "/b/3" .requirement [
    .tag { id := { text := "l4" }, kind := .selection, property := "width", reference := "/b/4" },
    .container { text := "l5" } "/b/5" .requirement
      [.tag { id := { text := "l6" }, kind := .requirement, property := "width" }]]

/-- A section that names its object class by a tag next to sections. One of these occurs twice. -/
def twiceLoose : Container where
  id := { text := "l1" }
  reference := "/b"
  kind := .requirement
  children := [
    .tag { id := { text := "l2" }, kind := .application, property := "door" },
    looseSelection, looseSelection]

/-- Compilation does not repair the second occurrence, which it passes over. What is left differs
for this reason, and nothing else does.
-/
theorem compile_normalTree_twiceLoose
    : twiceLoose.violation? = none
      ∧ (twiceLoose.compile garages none none {}).context = .ok (some "door")
      ∧ (twiceLoose.normalTree.1.compile garages none none {}).context = .ok (some "door")
      ∧ (twiceLoose.normalTree.1.compile garages none none {}).state
        = (twiceLoose.compile garages none none {}).state
      ∧ ((twiceLoose.normalTree.1.compile garages none none {}).container
          == (twiceLoose.compile garages none none {}).container)
        = false := by
  have valid : twiceLoose.violation? = none := by decide +kernel
  have context : (twiceLoose.compile garages none none {}).context = .ok (some "door") := by
    decide +kernel
  obtain ⟨sameContext, sameState⟩ := compile_normalTree valid garages none none {}
  exact ⟨valid, context, sameContext.trans context, sameState, by decide +kernel⟩

end Container

end ClauseRules
