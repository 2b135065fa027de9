import ClauseRules.Section

/-! Operands sorted by the part that they play. Within a part they keep their order; how the parts
were interleaved is forgotten.
-/

namespace ClauseRules

namespace Kind

/-- The kinds in the order in which the children of a section are compiled. -/
def all : List Kind := [.application, .selection, .exception, .requirement]

/-- A list kind by kind. -/
def sort {α : Type} (kind : α → Kind) (as : List α) : List α :=
  all.flatMap fun k => as.filter (kind · == k)

variable {α : Type} {kind : α → Kind} {as : List α} {a : α}

theorem sort_eq
    : sort kind as
      = as.filter (kind · == .application) ++ as.filter (kind · == .selection)
        ++ as.filter (kind · == .exception) ++ as.filter (kind · == .requirement) := by
  simp [sort, all]

theorem sort_perm : (sort kind as).Perm as := by
  induction as with
  | nil => simp [sort_eq]
  | cons a rest ih =>
      simp only [sort_eq, List.append_assoc] at ih
      -- In the sorted list, the head stands behind the kinds that come before its own.
      have front {before after : List α} (perm : (before ++ after).Perm rest)
          : (before ++ a :: after).Perm (a :: rest) :=
        List.perm_middle.trans (perm.cons a)
      cases same : kind a with
      | application => simpa [sort_eq, List.filter_cons, same] using ih
      | selection => simpa [sort_eq, List.filter_cons, same] using front ih
      | exception =>
          rw [← List.append_assoc] at ih
          simpa [sort_eq, List.filter_cons, same] using front ih
      | requirement =>
          rw [← List.append_assoc, ← List.append_assoc] at ih
          simpa [sort_eq, List.filter_cons, same] using front ih

@[simp]
theorem mem_sort : a ∈ sort kind as ↔ a ∈ as := sort_perm.mem_iff

theorem filter_sort (k : Kind)
    : (sort kind as).filter (kind · == k) = as.filter (kind · == k) := by
  have other {j : Kind} (differs : j ≠ k)
      : (as.filter (kind · == j)).filter (kind · == k) = [] := by
    rw [List.filter_eq_nil_iff]
    intro a member same
    exact differs ((beq_iff_eq.mp (List.mem_filter.mp member).2).symm.trans (beq_iff_eq.mp same))
  cases k <;> simp [sort_eq, other, -List.filter_filter]

end Kind

namespace Operand

/-- A child of a section as a condition of that section. -/
def ofNode : Node → Operand
  | .tag t => .ofTag t
  | .container id reference kind children => .ofContainer ⟨id, reference, kind, children⟩

end Operand

namespace Operands

/-- The operands that play a part. -/
def role (operands : Operands) : Kind → List Operand
  | .application => operands.applies
  | .selection => operands.selects
  | .exception => operands.excepts
  | .requirement => operands.requires

theorem ext_role {left right : Operands} (same : ∀ k, left.role k = right.role k)
    : left = right := by
  obtain ⟨applies, selects, excepts, requires⟩ := left
  have a := same .application
  have s := same .selection
  have e := same .exception
  have r := same .requirement
  simp only [role] at a s e r
  simp [a, s, e, r]

variable {α : Type} {kind : α → Kind} {operand : α → Operand} {operands : Operands}

theorem role_add (k j : Kind) (o : Operand)
    : (operands.add k o).role j = operands.role j ++ if k = j then [o] else [] := by
  cases k <;> cases j <;> simp [add, role]

/-- Adds an operand for every element of a list. -/
def addAll (kind : α → Kind) (operand : α → Operand) (operands : Operands) (as : List α)
    : Operands :=
  as.foldl (fun operands a => operands.add (kind a) (operand a)) operands

theorem role_addAll (as : List α) (k : Kind)
    : (addAll kind operand operands as).role k
      = operands.role k ++ (as.filter (kind · == k)).map operand := by
  induction as generalizing operands with
  | nil => simp [addAll]
  | cons a rest ih =>
      have step
          : addAll kind operand operands (a :: rest)
            = addAll kind operand (operands.add (kind a) (operand a)) rest := rfl
      rw [step, ih, role_add]
      by_cases same : kind a = k
      · simp [same]
      · simp [same]

theorem addAll_append (as bs : List α)
    : addAll kind operand operands (as ++ bs)
      = addAll kind operand (addAll kind operand operands as) bs := by
  simp [addAll]

/-- The operands of a section with these children. -/
def ofNodes (nodes : List Node) : Operands := addAll Node.kind Operand.ofNode {} nodes

end Operands

/-- The operands of a section. -/
def Container.operands (c : Container) : Operands := .ofNodes c.children

end ClauseRules
