import ClauseRules.Proofs.Node.Sections
import Mathlib.Data.List.Forall2

/-! Repairs of whole trees. A repair refuses what the check of the tree refuses, for the same
section. Where it succeeds, every section holds tags only or sections only, the tags test what they
tested before, and nothing has changed but that tags next to sections have got sections of their
own.
-/

namespace ClauseRules

/-- The tags test the same property in the same way and are cited at the same place. -/
structure Tag.Agrees (t u : Tag) : Prop where
  property : u.property = t.property
  rawComparator : u.rawComparator = t.rawComparator
  value : u.value = t.value
  unit : u.unit = t.unit
  reference : u.reference = t.reference

theorem Tag.Agrees.refl (t : Tag) : t.Agrees t := ⟨rfl, rfl, rfl, rfl, rfl⟩

namespace Node

mutual

/-- A tree and what it is repaired to, where the tree stands `beside` a section or not. Sections
keep their ids, references and kinds; a tag beside a section gives way to a section with its own,
which holds a tag that agrees with it.
-/
inductive Repairs : Bool → Node → Node → Prop
  | tag {t} : Repairs false (.tag t) (.tag t)
  | stray {t u} (agrees : t.Agrees u)
    : Repairs true (.tag t) (.container t.id t.reference t.kind [.tag u])
  | container {beside id reference kind children repaired}
    (each : RepairsEach (children.any (·.container?.isSome)) children repaired)
    : Repairs beside (.container id reference kind children) (.container id reference kind repaired)

/-- Trees and what they are repaired to, in the same order. -/
inductive RepairsEach : Bool → List Node → List Node → Prop
  | nil {beside} : RepairsEach beside [] []
  | cons {beside node repaired nodes others} (here : Repairs beside node repaired)
    (later : RepairsEach beside nodes others)
    : RepairsEach beside (node :: nodes) (repaired :: others)

end

mutual

/-- Every section of the tree holds tags only or sections only. -/
def Homogeneous : Node → Prop
  | .tag _ => True
  | .container id reference kind children =>
      (Container.mk id reference kind children).isHomogeneous = true ∧ AllHomogeneous children

def AllHomogeneous : List Node → Prop
  | [] => True
  | node :: rest => Homogeneous node ∧ AllHomogeneous rest

end

/-! ### What is refused -/

mutual

/-- A repair stops at the first section that cannot be repaired. -/
theorem normalTree_snd (node : Node) : (normalTree node).2 = violation? node := by
  cases node with
  | tag t => simp [normalTree, violation?]
  | container id reference kind children =>
      have below := normalTrees_snd (children.any (·.container?.isSome)) children
      simp only [normalTree, violation?]
      cases mixedContent? id children with
      | some mixed => rfl
      | none => exact below
termination_by sizeOf node

theorem normalTrees_snd (wrap : Bool) (nodes : List Node)
    : (normalTrees wrap nodes).2 = violationIn? nodes := by
  cases nodes with
  | nil => simp [normalTrees, violationIn?]
  | cons node rest =>
      have later := normalTrees_snd wrap rest
      cases node with
      | tag t => simpa [normalTrees, violationIn?, violation?] using later
      | container id reference kind children =>
          have here := normalTree_snd (.container id reference kind children)
          simp only [normalTrees, violationIn?]
          rw [← here, ← later]
          cases (normalTree (.container id reference kind children)).2 <;> rfl
termination_by sizeOf nodes

end

/-! ### What is kept -/

mutual

theorem repairs_normalTree (beside : Bool) (node : Node) (valid : violation? node = none)
    (isContainer : node.container?.isSome = true)
    : Repairs beside node (normalTree node).1 := by
  cases node with
  | tag t => cases isContainer
  | container id reference kind children =>
      simp only [violation?, Option.or_eq_none_iff] at valid
      simp only [normalTree, valid.1]
      exact .container (repairsEach_normalTrees _ children valid.2)
termination_by sizeOf node

theorem repairsEach_normalTrees (beside : Bool) (nodes : List Node)
    (valid : violationIn? nodes = none)
    : RepairsEach beside nodes (normalTrees beside nodes).1 := by
  cases nodes with
  | nil => simpa [normalTrees] using RepairsEach.nil
  | cons node rest =>
      simp only [violationIn?, Option.or_eq_none_iff] at valid
      have later := repairsEach_normalTrees beside rest valid.2
      cases node with
      | tag t =>
          simp only [normalTrees]
          refine .cons ?_ later
          cases beside with
          | true => exact .stray ⟨rfl, rfl, rfl, rfl, rfl⟩
          | false => exact .tag
      | container id reference kind children =>
          have here := repairs_normalTree beside (.container id reference kind children) valid.1 rfl
          have fine := (normalTree_snd (.container id reference kind children)).trans valid.1
          simp only [normalTrees, fine]
          exact .cons here later
termination_by sizeOf nodes

end

mutual

/-- The tags are the same in their order, up to the ids and kinds of those that moved. -/
theorem Repairs.tags {beside : Bool} {node repaired : Node} (repairs : Repairs beside node repaired)
    : List.Forall₂ Tag.Agrees node.tags repaired.tags := by
  cases repairs with
  | tag => exact .cons (.refl _) .nil
  | stray agrees => exact .cons agrees .nil
  | container each => exact each.tags
termination_by sizeOf node

theorem RepairsEach.tags {beside : Bool} {nodes others : List Node}
    (each : RepairsEach beside nodes others)
    : List.Forall₂ Tag.Agrees (tagsOfList nodes) (tagsOfList others) := by
  cases each with
  | nil => exact .nil
  | cons here later => exact List.rel_append here.tags later.tags
termination_by sizeOf nodes

end

/-! ### What a repaired tree looks like -/

section

variable {beside : Bool} {node repaired : Node} {nodes others : List Node} {c : Container}

theorem Repairs.isContainer (repairs : Repairs beside node repaired)
    : repaired.container?.isSome = (beside || node.container?.isSome) := by
  cases repairs with
  | tag => rfl
  | stray => rfl
  | container => simp

theorem RepairsEach.exists_of_mem (each : RepairsEach beside nodes others)
    (member : repaired ∈ others)
    : ∃ node ∈ nodes, Repairs beside node repaired := by
  induction nodes generalizing others with
  | nil =>
      cases each
      exact absurd member List.not_mem_nil
  | cons node rest ih =>
      cases each with
      | cons here later =>
          rcases List.mem_cons.mp member with rfl | below
          · exact ⟨node, List.mem_cons_self, here⟩
          · obtain ⟨found, listed, repairs⟩ := ih later below
            exact ⟨found, List.mem_cons_of_mem _ listed, repairs⟩

/-- Next to sections only sections are left, and tags stay among themselves. -/
theorem RepairsEach.isContainer
    (each : RepairsEach (nodes.any (·.container?.isSome)) nodes others)
    : ∀ repaired ∈ others, repaired.container?.isSome = nodes.any (·.container?.isSome) := by
  intro repaired member
  obtain ⟨node, listed, repairs⟩ := each.exists_of_mem member
  rw [repairs.isContainer, Bool.or_eq_left_iff_imp]
  exact fun isContainer => List.any_eq_true.mpr ⟨node, listed, isContainer⟩

theorem RepairsEach.any_isContainer
    (each : RepairsEach (nodes.any (·.container?.isSome)) nodes others)
    : others.any (·.container?.isSome) = nodes.any (·.container?.isSome) := by
  have same := each.isContainer
  cases each with
  | nil => rfl
  | cons here later =>
      rw [Bool.eq_iff_iff, List.any_eq_true]
      constructor
      · intro ⟨repaired, member, isContainer⟩
        exact (same repaired member).symm.trans isContainer
      · intro nested
        exact ⟨_, List.mem_cons_self, (same _ List.mem_cons_self).trans nested⟩

/-- Whether children are sections is the same of all children of a section without mixed content. -/
theorem isHomogeneous_of_forall (each : ∀ node ∈ c.children, node.container?.isSome = beside)
    : c.isHomogeneous = true := by
  cases beside with
  | true =>
      have untagged : c.tags = [] := by
        rw [Container.tags, List.filterMap_eq_nil_iff]
        intro node member
        cases node with
        | tag t => cases each _ member
        | container => rfl
      simp [Container.isHomogeneous, Container.hasTags, untagged]
  | false =>
      have flat : c.containers = [] := by
        rw [Container.containers, List.filterMap_eq_nil_iff]
        exact fun node member => Option.not_isSome_iff_eq_none.mp (by simp [each node member])
      simp [Container.isHomogeneous, Container.hasContainers, flat]

end

mutual

theorem Repairs.homogeneous {beside : Bool} {node repaired : Node}
    (repairs : Repairs beside node repaired)
    : Homogeneous repaired := by
  cases repairs with
  | tag => trivial
  | stray => exact ⟨rfl, trivial, trivial⟩
  | container each => exact ⟨isHomogeneous_of_forall each.isContainer, each.homogeneous⟩
termination_by sizeOf node

theorem RepairsEach.homogeneous {beside : Bool} {nodes others : List Node}
    (each : RepairsEach beside nodes others)
    : AllHomogeneous others := by
  cases each with
  | nil => trivial
  | cons here later => exact ⟨here.homogeneous, later.homogeneous⟩
termination_by sizeOf nodes

end

mutual

/-- A repaired tree has the sections of the tree that it was made from. -/
theorem Repairs.sections {beside : Bool} {node repaired : Node}
    (repairs : Repairs beside node repaired)
    : (repaired.sections beside).map Container.bare
      = (node.sections beside).map Container.bare := by
  cases repairs with
  | tag => rfl
  | stray => rfl
  | container each =>
      simp only [Node.sections, List.map_cons, each.any_isContainer, each.sections]
      rfl
termination_by sizeOf node

theorem RepairsEach.sections {beside : Bool} {nodes others : List Node}
    (each : RepairsEach beside nodes others)
    : (sectionsOfList beside others).map Container.bare
      = (sectionsOfList beside nodes).map Container.bare := by
  cases each with
  | nil => rfl
  | cons here later =>
      simp only [sectionsOfList, List.map_append, here.sections, later.sections]
termination_by sizeOf nodes

end

/-! ### Repairing once more -/

/-- A section that holds a section holds nothing else, if it keeps tags and sections apart. -/
theorem container_of_isHomogeneous {c : Container} (apart : c.isHomogeneous = true)
    (nested : c.hasContainers = true)
    : c.tags = [] ∧ ∀ node ∈ c.children, node.container?.isSome = true := by
  have untagged : c.tags = [] := by
    simpa [Container.isHomogeneous, Container.hasTags, nested] using apart
  refine ⟨untagged, fun node member => ?_⟩
  cases node with
  | tag t => cases List.filterMap_eq_nil_iff.mp untagged _ member
  | container => rfl

theorem mixedContent?_of_isHomogeneous {c : Container} (apart : c.isHomogeneous = true)
    : c.mixedContent? = none := by
  cases nested : c.hasContainers with
  | false => simp [Container.mixedContent?, mixedContent?, ← c.hasContainers_eq_any, nested]
  | true =>
      have single : (c.children.filterMap tag?).length = 0 :=
        congrArg List.length (container_of_isHomogeneous apart nested).1
      simp [Container.mixedContent?, mixedContent?, single]

mutual

/-- Where tags and sections are kept apart, there is nothing to repair. -/
theorem normalTree_of_homogeneous (node : Node) (homogeneous : Homogeneous node)
    : normalTree node = (node, none) := by
  cases node with
  | tag t => simp [normalTree]
  | container id reference kind children =>
      obtain ⟨apart, below⟩ := homogeneous
      have pure : mixedContent? id children = none := mixedContent?_of_isHomogeneous apart
      have same :=
        normalTrees_of_homogeneous (children.any (·.container?.isSome)) children below fun nested =>
          (container_of_isHomogeneous apart
            ((Container.hasContainers_eq_any _).trans nested)).2
      simp only [normalTree, pure, same]
termination_by sizeOf node

theorem normalTrees_of_homogeneous (wrap : Bool) (nodes : List Node)
    (homogeneous : AllHomogeneous nodes)
    (sections : wrap = true → ∀ node ∈ nodes, node.container?.isSome = true)
    : normalTrees wrap nodes = (nodes, none) := by
  cases nodes with
  | nil => simp [normalTrees]
  | cons node rest =>
      obtain ⟨here, later⟩ := homogeneous
      have others := normalTrees_of_homogeneous wrap rest later fun wraps node member =>
        sections wraps node (List.mem_cons_of_mem _ member)
      cases node with
      | tag t =>
          have unwrapped : wrap = false := by
            apply Bool.eq_false_iff.mpr
            intro wraps
            have isSection := sections wraps _ List.mem_cons_self
            simp at isSection
          subst unwrapped
          simp [normalTrees, others]
      | container id reference kind children =>
          simp [normalTrees, others,
            normalTree_of_homogeneous (.container id reference kind children) here]
termination_by sizeOf nodes

end

end Node

namespace Container

theorem toNode_normalTree (c : Container) : c.normalTree.1.toNode = c.toNode.normalTree.1 := by
  simp only [normalTree, toNode, Node.normalTree]
  split <;> rfl

theorem normalTree_of_toNode {c : Container} (same : c.toNode.normalTree = (c.toNode, none))
    : c.normalTree = (c, none) := by
  rw [normalTree, same]
  rfl

theorem repairs_normalTree (c : Container) (valid : c.violation? = none)
    : Node.Repairs false c.toNode c.normalTree.1.toNode := by
  rw [toNode_normalTree]
  exact Node.repairs_normalTree false c.toNode valid rfl

theorem ids_normalTree (c : Container) (valid : c.violation? = none)
    : c.normalTree.1.ids = c.ids := by
  have same := congrArg (List.map (·.id)) (c.repairs_normalTree valid).sections
  simp only [List.map_map] at same
  exact same

/-- A repair is refused exactly like the check of the tree, for the same section and as many tags.
Where it is not, it leaves a tree in which every section keeps tags and sections apart and which it
would not change again; the tags in it are the same, in their order, up to ids and kinds; and the
sections are the same, each in its place, but for those made of tags next to sections.
-/
theorem normalTree_repairs (c : Container)
    : c.normalTree.2 = c.violation?
      ∧ (c.violation? = none →
        c.normalTree.1.toNode.Homogeneous
        ∧ c.normalTree.1.normalTree = (c.normalTree.1, none)
        ∧ List.Forall₂ Tag.Agrees c.toNode.tags c.normalTree.1.toNode.tags
        ∧ Node.Repairs false c.toNode c.normalTree.1.toNode) := by
  refine ⟨c.toNode.normalTree_snd, fun valid => ?_⟩
  have repairs := c.repairs_normalTree valid
  exact ⟨repairs.homogeneous,
    normalTree_of_toNode (Node.normalTree_of_homogeneous _ repairs.homogeneous), repairs.tags,
    repairs⟩

/-- An application stands next to a section, within which a selection does. -/
def straysWithin : Container where
  id := { text := "z1" }
  reference := "/b"
  kind := .requirement
  children := [
    .tag { id := { text := "z2" }, kind := .application, property := "door" },
    .container { text := "z3" } "/b/1" .exception [
      .container { text := "z4" } "/b/2" .requirement [
        .tag { id := { text := "z5" }, kind := .requirement, property := "width" },
        .tag { id := { text := "z6" }, kind := .requirement, property := "height" }],
      .tag {
        id := { text := "z7" }, reference := "/b/3", kind := .selection, property := "rating" }]]

/-- Both tags get sections with their ids, in which only the selection becomes a requirement. -/
theorem normalTree_repairs_straysWithin
    : straysWithin.violation? = none
      ∧ straysWithin.normalTree.2 = none
      ∧ straysWithin.normalTree.1.toNode.Homogeneous
      ∧ straysWithin.normalTree.1.normalTree = (straysWithin.normalTree.1, none)
      ∧ List.Forall₂ Tag.Agrees straysWithin.toNode.tags straysWithin.normalTree.1.toNode.tags
      ∧ Node.Repairs false straysWithin.toNode straysWithin.normalTree.1.toNode
      ∧ straysWithin.normalTree.1.toNode.tags.map (fun t => (t.id.text, t.kind))
        = [("z2a", .application), ("z5", .requirement), ("z6", .requirement),
            ("z7a", .requirement)] := by
  have valid : straysWithin.violation? = none := by decide +kernel
  obtain ⟨same, repairs⟩ := straysWithin.normalTree_repairs
  obtain ⟨homogeneous, again, tags, repairs⟩ := repairs valid
  exact ⟨valid, same.trans valid, homogeneous, again, tags, repairs, by decide +kernel⟩

end Container

end ClauseRules
