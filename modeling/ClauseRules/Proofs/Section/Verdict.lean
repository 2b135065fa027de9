import ClauseRules.Proofs.Section.Applicability
import ClauseRules.Proofs.Section.Operands

/-! What a section comes to for an entity, by recursion over the tree and without any rules. -/

namespace ClauseRules

/-! ### Judging by the parts -/

namespace Kind

/-- The section applies: all applications are satisfied, no exception is, and one of the selections
is if there are any.
-/
def applies (values : List (Kind × Bool)) : Bool :=
  let ofKind := fun kind => values.filter (·.1 == kind)
  (ofKind .application).all (·.2) && (ofKind .exception).all (!·.2)
    && ((ofKind .selection).isEmpty || (ofKind .selection).any (·.2))

/-- The section passes: it does not apply, or all of its requirements are satisfied. -/
def passes (values : List (Kind × Bool)) : Bool :=
  !applies values || (values.filter (·.1 == .requirement)).all (·.2)

end Kind

def Tag.test (t : Tag) : PropertyTest := ⟨Name.ofProperty t.property, t.comparator, t.value, t.unit⟩

namespace Node

mutual

/-- A tag is satisfied if its test is true of the entity, a section if it passes. -/
def verdict (tests : PropertyTest → Bool) : Node → Bool
  | .tag t => tests t.test
  | .container _ _ _ children => Kind.passes (verdicts tests children)

def verdicts (tests : PropertyTest → Bool) : List Node → List (Kind × Bool)
  | [] => []
  | node :: rest => (node.kind, verdict tests node) :: verdicts tests rest

end

theorem verdicts_eq_map (tests : PropertyTest → Bool) (nodes : List Node)
    : verdicts tests nodes = nodes.map fun node => (node.kind, node.verdict tests) := by
  induction nodes with
  | nil => rfl
  | cons node rest ih => simp [verdicts, ih]

end Node

namespace Container

variable {c : Container} {tests : PropertyTest → Bool}

def applies (tests : PropertyTest → Bool) (c : Container) : Bool :=
  Kind.applies (Node.verdicts tests c.children)

def verdict (tests : PropertyTest → Bool) (c : Container) : Bool := c.toNode.verdict tests

theorem verdict_eq : c.verdict tests = Kind.passes (Node.verdicts tests c.children) := by
  simp [verdict, toNode, Node.verdict]

theorem verdict_of_not_applies (avoids : c.applies tests = false) : c.verdict tests = true := by
  rw [applies] at avoids
  simp [verdict_eq, Kind.passes, avoids]

/-! ### The same by operands -/

/-- The value of the section's operands. -/
def value (tests : PropertyTest → Bool) (c : Container) (operand : Operand) : Bool :=
  c.children.any fun node => Operand.ofNode node == operand && node.verdict tests

/-- Sections side by side are told apart by their paths. -/
def Distinct (c : Container) : Prop :=
  ∀ a ∈ c.containers, ∀ b ∈ c.containers, a.path = b.path → a = b

theorem mem_containers {k : Container} : k ∈ c.containers ↔ k.toNode ∈ c.children := by
  simp only [containers, List.mem_filterMap]
  constructor
  · rintro ⟨node, member, same⟩
    cases node with
    | tag t => cases same
    | container => cases same; exact member
  · exact fun member => ⟨_, member, rfl⟩

theorem sizeOf_lt_of_mem_containers {k : Container} (member : k ∈ c.containers)
    : sizeOf k < sizeOf c := by
  have := List.sizeOf_lt_of_mem (mem_containers.mp member)
  cases c
  cases k
  simp only [toNode, Node.container.sizeOf_spec, mk.sizeOf_spec] at this ⊢
  omega

theorem value_ofNode {node : Node} (distinct : c.Distinct) (member : node ∈ c.children)
    : c.value tests (.ofNode node) = node.verdict tests := by
  -- Children that are the same operand are tags with one test, or one and the same section.
  have same {other : Node} (listed : other ∈ c.children)
      (equal : Operand.ofNode other = Operand.ofNode node)
      : other.verdict tests = node.verdict tests := by
    cases other with
    | tag s =>
        cases node with
        | tag t =>
            simp only [Operand.ofNode, Operand.ofTag, Operand.test.injEq] at equal
            exact congrArg tests equal
        | container => cases equal
    | container i r k children =>
        cases node with
        | tag t => cases equal
        | container id reference kind others =>
            simp only [Operand.ofNode, Operand.ofContainer, Operand.nested.injEq] at equal
            have one := distinct ⟨i, r, k, children⟩ (mem_containers.mpr listed)
              ⟨id, reference, kind, others⟩ (mem_containers.mpr member) equal
            cases one
            rfl
  rw [value, Bool.eq_iff_iff, List.any_eq_true]
  constructor
  · rintro ⟨other, listed, equal⟩
    rw [Bool.and_eq_true, beq_iff_eq] at equal
    exact same listed equal.1 ▸ equal.2
  · intro satisfied
    exact ⟨node, member, by simp [satisfied]⟩

theorem role_operands (k : Kind)
    : c.operands.role k = (c.children.filter (·.kind == k)).map Operand.ofNode := by
  simp [operands, Operands.ofNodes, Operands.role_addAll]
  cases k <;> rfl

theorem exists_of_mem_role {k : Kind} {operand : Operand} (member : operand ∈ c.operands.role k)
    : ∃ node ∈ c.children, node.kind = k ∧ Operand.ofNode node = operand := by
  rw [role_operands] at member
  obtain ⟨node, listed, same⟩ := List.mem_map.mp member
  obtain ⟨child, kind⟩ := List.mem_filter.mp listed
  exact ⟨node, child, beq_iff_eq.mp kind, same⟩

/-- The values of the children of one kind are those of the operands that they are. -/
theorem filter_verdicts (tests : PropertyTest → Bool) (distinct : c.Distinct) (k : Kind)
    : ((Node.verdicts tests c.children).filter (·.1 == k)).map (·.2)
      = (c.operands.role k).map (c.value tests) := by
  rw [role_operands, Node.verdicts_eq_map, List.filter_map, List.map_map, List.map_map]
  refine List.map_congr_left fun node member => ?_
  exact (value_ofNode distinct (List.mem_filter.mp member).1).symm

theorem all_verdicts (tests : PropertyTest → Bool) (distinct : c.Distinct) (k : Kind)
    (p : Bool → Bool)
    : ((Node.verdicts tests c.children).filter (·.1 == k)).all (fun entry => p entry.2)
      = (c.operands.role k).all fun operand => p (c.value tests operand) := by
  have same := congrArg (List.all · p) (c.filter_verdicts tests distinct k)
  simpa only [List.all_map, Function.comp_def] using same

theorem any_verdicts (tests : PropertyTest → Bool) (distinct : c.Distinct) (k : Kind)
    : ((Node.verdicts tests c.children).filter (·.1 == k)).any (·.2)
      = (c.operands.role k).any (c.value tests) := by
  have same := congrArg (List.any · fun b => b) (c.filter_verdicts tests distinct k)
  simpa only [List.any_map, Function.comp_def] using same

theorem isEmpty_verdicts (tests : PropertyTest → Bool) (k : Kind)
    : ((Node.verdicts tests c.children).filter (·.1 == k)).isEmpty
      = (c.operands.role k).isEmpty := by
  rw [role_operands, Node.verdicts_eq_map, List.filter_map, List.isEmpty_map, List.isEmpty_map]
  rfl

/-- A section applies if it does so by the values of its operands. -/
theorem applies_eq (tests : PropertyTest → Bool) (distinct : c.Distinct)
    : c.applies tests = c.operands.inScope (c.value tests) := by
  have satisfied := c.all_verdicts tests distinct .application fun b => b
  have violated := c.all_verdicts tests distinct .exception not
  have selected := c.any_verdicts tests distinct .selection
  have unselected := c.isEmpty_verdicts tests .selection
  simp only [applies, Kind.applies, Operands.inScope]
  rw [satisfied, violated, selected, unselected]
  rfl

theorem verdict_eq_passes (tests : PropertyTest → Bool) (distinct : c.Distinct)
    : c.verdict tests = c.operands.passes (c.value tests) := by
  have satisfied := c.all_verdicts tests distinct .requirement fun b => b
  have applies := c.applies_eq tests distinct
  rw [Container.applies] at applies
  rw [verdict_eq, Kind.passes, Operands.passes, applies, satisfied]
  rfl

end Container

end ClauseRules
