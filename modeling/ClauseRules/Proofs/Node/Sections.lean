import ClauseRules.Node.Normal

/-! The sections of a tree as compilation meets them: every container, and the section that repair
makes of a tag next to sections. They are read off the tree as it was written.
-/

namespace ClauseRules

namespace Node

@[simp]
theorem container?_tag (t : Tag) : (Node.tag t).container? = none := rfl

@[simp]
theorem container?_container (id : NodeId) (reference : String) (kind : Kind)
    (children : List Node)
    : (Node.container id reference kind children).container?
      = some ⟨id, reference, kind, children⟩ := rfl

/-- A child of a section of sections as a section. -/
def part : Node → Container
  | .tag t => t.wrapper
  | .container id reference kind children => ⟨id, reference, kind, children⟩

mutual

/-- The sections of a tree from the top down. A tag is one if `wrap` says so. -/
def sections (wrap : Bool) : Node → List Container
  | .tag t => if wrap then [t.wrapper] else []
  | .container id reference kind children =>
      ⟨id, reference, kind, children⟩
        :: sectionsOfList (children.any (·.container?.isSome)) children

def sectionsOfList (wrap : Bool) : List Node → List Container
  | [] => []
  | node :: rest => sections wrap node ++ sectionsOfList wrap rest

end

theorem sectionsOfList_eq_flatMap (wrap : Bool) (nodes : List Node)
    : sectionsOfList wrap nodes = nodes.flatMap (sections wrap) := by
  induction nodes with
  | nil => rfl
  | cons node rest ih => simp [sectionsOfList, ih]

mutual

/-- The ids of a tree from the top down, those of tags among them. -/
def allIds : Node → List NodeId
  | .tag t => [t.id]
  | .container id _ _ children => id :: allIdsOfList children

def allIdsOfList : List Node → List NodeId
  | [] => []
  | node :: rest => allIds node ++ allIdsOfList rest

end

mutual

/-- Sections have ids of the tree, a tag that counts as a section its own. -/
theorem sectionIds_sublist (wrap : Bool) (node : Node)
    : ((node.sections wrap).map (·.id)).Sublist node.allIds := by
  cases node with
  | tag t => cases wrap <;> simp [sections, allIds, Tag.wrapper]
  | container id reference kind children =>
      simp only [sections, allIds, List.map_cons]
      exact (sectionIdsOfList_sublist _ children).cons_cons id
termination_by sizeOf node

theorem sectionIdsOfList_sublist (wrap : Bool) (nodes : List Node)
    : ((sectionsOfList wrap nodes).map (·.id)).Sublist (allIdsOfList nodes) := by
  cases nodes with
  | nil => exact List.Sublist.refl _
  | cons node rest =>
      simp only [sectionsOfList, allIdsOfList, List.map_append]
      exact (sectionIds_sublist wrap node).append (sectionIdsOfList_sublist wrap rest)
termination_by sizeOf nodes

end

end Node

namespace Container

/-- The sections directly inside of a section of sections. -/
def parts (c : Container) : List Container :=
  if c.hasContainers then c.children.map Node.part else []

def sections (c : Container) : List Container := c.toNode.sections false

/-- The ids under which compilation meets the sections of a tree. -/
def ids (c : Container) : List NodeId := c.sections.map (·.id)

/-- The paths that rules about the sections of a tree are named after. -/
def paths (c : Container) : List RulePath := c.sections.map (·.path)

theorem hasContainers_eq_any (c : Container)
    : c.hasContainers = c.children.any (·.container?.isSome) := by
  rw [Bool.eq_iff_iff]
  simp only [hasContainers, containers, Bool.not_eq_true', List.isEmpty_eq_false_iff_exists_mem,
    List.mem_filterMap, List.any_eq_true, Option.isSome_iff_exists]
  exact ⟨fun ⟨k, node, member, found⟩ => ⟨node, member, k, found⟩,
    fun ⟨node, member, k, found⟩ => ⟨k, node, member, found⟩⟩

theorem parts_wrapper (t : Tag) : t.wrapper.parts = [] := rfl

/-- A tree consists of its root and the trees of the root's parts. -/
theorem sections_eq (c : Container) : c.sections = c :: c.parts.flatMap sections := by
  have below : Node.sections true = fun node => node.part.sections := by
    funext node
    cases node <;> rfl
  simp only [sections, toNode, Node.sections, Node.sectionsOfList_eq_flatMap, parts,
    ← hasContainers_eq_any]
  cases nested : c.hasContainers with
  | true => simp only [below, if_true, List.flatMap_map, sections]
  | false =>
      have tagsOnly : ∀ node ∈ c.children, node.container? = none := by
        simpa [hasContainers_eq_any] using nested
      have empty : c.children.flatMap (Node.sections false) = [] := by
        rw [List.flatMap_eq_nil_iff]
        intro node member
        cases node with
        | tag t => rfl
        | container => exact absurd (tagsOnly _ member) nofun
      simp [empty]

theorem mem_sections_self (c : Container) : c ∈ c.sections := by simp [sections_eq c]

theorem mem_sections_of_part {c k part : Container} (listed : part ∈ c.parts)
    (member : k ∈ part.sections)
    : k ∈ c.sections := by
  rw [sections_eq c]
  exact List.mem_cons_of_mem _ (List.mem_flatMap.mpr ⟨part, listed, member⟩)

/-- A property of sections that holds of each one if it holds of its parts holds of all of them. -/
theorem inductionOnParts {motive : Container → Prop}
    (step : ∀ c, (∀ k ∈ c.parts, motive k) → motive c) (c : Container)
    : motive c := by
  refine step c fun k member => ?_
  simp only [parts] at member
  split at member
  · obtain ⟨node, below, same⟩ := List.mem_map.mp member
    cases node with
    | tag t => exact same ▸ step t.wrapper (by simp [parts_wrapper])
    | container id reference kind children =>
        have smaller : sizeOf k < sizeOf c := by
          have := List.sizeOf_lt_of_mem below
          cases c
          simp only [← same, Node.part, Container.mk.sizeOf_spec,
            Node.container.sizeOf_spec] at this ⊢
          omega
        exact inductionOnParts step k
  · exact absurd member List.not_mem_nil
termination_by sizeOf c

theorem ids_eq (c : Container) : c.ids = c.id :: c.parts.flatMap ids := by
  simp only [ids, sections_eq c, List.map_cons, List.map_flatMap]
  rfl

theorem paths_eq (c : Container) : c.paths = c.path :: c.parts.flatMap paths := by
  simp only [paths, sections_eq c, List.map_cons, List.map_flatMap]
  rfl

/-- A section without what it holds. -/
def bare (c : Container) : Container := { c with children := [] }

variable {a b : Container}

theorem kind_of_bare (same : a.bare = b.bare) : a.kind = b.kind := by
  have kinds := congrArg Container.kind same
  exact kinds

theorem id_of_bare (same : a.bare = b.bare) : a.id = b.id := by
  have ids := congrArg Container.id same
  exact ids

theorem path_of_bare (same : a.bare = b.bare) : a.path = b.path := by
  have paths := congrArg Container.path same
  exact paths

end Container

end ClauseRules
