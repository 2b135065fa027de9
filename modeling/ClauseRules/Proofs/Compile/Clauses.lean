import ClauseRules.Proofs.Compile.Success
import ClauseRules.Proofs.Section.TransferRules
import Mathlib.Data.List.Nodup
import Mathlib.Data.List.Pairwise

/-! Which rules a derivation adds. All of them are about sections of the tree; where the paths of
the sections differ, the path that a rule is about tells which section it comes from.
-/

namespace ClauseRules

/-- A rule made for a tree whose sections have the given paths. -/
inductive Rule.Makes (paths : List RulePath) (r : Rule) : Prop
  | main (scope : Scope) (operands : Operands) (listed : scope.path ∈ paths)
    (member : r ∈ scope.mainRules operands)
  | summary (path : RulePath) (listed : path ∈ paths) (member : r ∈ aggregationRules path)
  | transfer (path child : RulePath) (object id : String) (listed : path ∈ paths)
    (below : child ∈ paths) (member : r ∈ transferRules path object id child)

namespace Rule.Makes

variable {paths more : List RulePath} {r : Rule}

theorem mono (makes : r.Makes paths) (subset : ∀ path ∈ paths, path ∈ more) : r.Makes more := by
  cases makes with
  | main scope operands listed member => exact .main scope operands (subset _ listed) member
  | summary path listed member => exact .summary path (subset _ listed) member
  | transfer path child object id listed below member =>
      exact .transfer path child object id (subset _ listed) (subset _ below) member

theorem clause_mem (makes : r.Makes paths) : r.clause ∈ paths := by
  cases makes with
  | main scope operands listed member => exact (Scope.mainRules_shape member).1 ▸ listed
  | summary path listed member => exact (aggregationRules_shape member).1 ▸ listed
  | transfer path child object id listed below member =>
      exact (transferRules_shape member).1 ▸ listed

theorem target_mem {target : RulePath} {statuses : List Status} (makes : r.Makes paths)
    (effect : r.effect = .setStatus target statuses)
    : target ∈ paths := by
  cases makes with
  | main scope operands listed member =>
      obtain ⟨_, _, _, _, same⟩ := Scope.mainRules_shape member
      cases effect.symm.trans same
      exact listed
  | summary path listed member =>
      obtain ⟨_, _, _, _, _, same⟩ := aggregationRules_shape member
      cases effect.symm.trans same
  | transfer path child object id listed below member =>
      obtain ⟨_, _, _, _, _, same⟩ := transferRules_shape member
      cases effect.symm.trans same
      exact below

/-- Status rules set statuses of their own clause. -/
theorem target_of_isStatus (makes : r.Makes paths) (isStatus : r.purpose.isStatus = true)
    : ∃ statuses, r.effect = .setStatus r.clause statuses := by
  cases makes with
  | main scope operands listed member =>
      obtain ⟨clause, _, _, statuses, effect⟩ := Scope.mainRules_shape member
      exact ⟨statuses, clause ▸ effect⟩
  | summary path listed member =>
      exact absurd ((aggregationRules_shape member).2.1.symm.trans isStatus) Bool.false_ne_true
  | transfer path child object id listed below member =>
      exact absurd ((transferRules_shape member).2.2.1.symm.trans isStatus) Bool.false_ne_true

end Rule.Makes

theorem Container.mem_ownRules {c left : Container} {ancestor : Option RulePath} {object : String}
    {r : Rule}
    : r ∈ c.ownRules ancestor object left
      ↔ r ∈ (Scope.mk c.path c.kind ancestor object).mainRules left.operands
        ∨ r ∈ aggregationRules c.path := by
  rw [Container.ownRules, List.mem_append]

theorem Container.ownRules_makes {c left : Container} {ancestor : Option RulePath}
    {object : String} {paths : List RulePath} {r : Rule} (listed : c.path ∈ paths)
    (member : r ∈ c.ownRules ancestor object left)
    : r.Makes paths := by
  rcases mem_ownRules.mp member with main | summary
  · exact .main ⟨c.path, c.kind, ancestor, object⟩ left.operands listed main
  · exact .summary c.path listed summary

/-- Of a section's own rules, the status rules are those that set statuses. -/
theorem Container.main_of_ownRules {c left : Container} {ancestor : Option RulePath}
    {object : String} {r : Rule} {target : RulePath} {statuses : List Status}
    (member : r ∈ c.ownRules ancestor object left) (effect : r.effect = .setStatus target statuses)
    : r ∈ (Scope.mk c.path c.kind ancestor object).mainRules left.operands := by
  rcases mem_ownRules.mp member with main | summary
  · exact main
  · obtain ⟨_, _, _, _, _, same⟩ := aggregationRules_shape summary
    cases effect.symm.trans same

namespace Container

theorem containers_of_flat {c : Container} (flat : c.hasContainers = false)
    : c.containers = [] := by
  simpa [hasContainers] using flat

/-- The sections among children that are sections. -/
theorem containers_of_map {c : Container} {sections : List Container}
    : { c with children := sections.map toNode : Container }.containers = sections := by
  simp only [containers, List.filterMap_map]
  exact List.filterMap_some

theorem path_mem_paths (c : Container) : c.path ∈ c.paths := by simp [paths_eq c]

end Container

/-- A path tells in which of several sections it is. -/
theorem CompiledPart.eq_of_path {parts : List CompiledPart}
    (distinct : (parts.flatMap (·.origin.paths)).Nodup) {a b : CompiledPart} {path : RulePath}
    (first : a ∈ parts) (second : b ∈ parts) (inFirst : path ∈ a.origin.paths)
    (inSecond : path ∈ b.origin.paths)
    : a = b := by
  have disjoint := (List.nodup_flatMap.mp distinct).2
  have : Std.Symm (Function.onFun List.Disjoint fun part : CompiledPart => part.origin.paths) :=
    ⟨fun _ _ apart _ inSecond inFirst => apart inFirst inSecond⟩
  exact Classical.byContradiction fun differs =>
    disjoint.forall first second differs inFirst inSecond

/-- The paths of a section of sections by its parts. -/
theorem paths_eq_of_origins {c : Container} {parts : List CompiledPart}
    (origins : parts.map (·.origin) = c.parts)
    : c.paths = c.path :: parts.flatMap (·.origin.paths) := by
  rw [Container.paths_eq c, ← origins, List.flatMap_map]

/-- The sections that are left of a section are what is left of its parts. -/
theorem containers_left {c left : Container} {parts : List CompiledPart}
    (rest : { c with children := (CompiledPart.operands parts).map (·.left.toNode) } = left)
    : left.containers = (CompiledPart.operands parts).map (·.left) := by
  have nodes
      : (CompiledPart.operands parts).map (·.left.toNode)
        = ((CompiledPart.operands parts).map (·.left)).map Container.toNode := by
    rw [List.map_map]
    rfl
  rw [← rest, nodes]
  exact Container.containers_of_map

namespace Compiles

variable {env : CompileEnv} {repeats : NodeId → Prop} {ancestor : Option RulePath}
  {context : Option String} {c : Container} {y : Yield} {r : Rule}

/-- Every rule of a derivation is made for its tree. -/
theorem makes (compiles : Compiles env repeats ancestor context c y) (member : r ∈ y.rules)
    : r.Makes c.paths := by
  induction compiles with
  | repeated | empty => exact absurd member List.not_mem_nil
  | @tags ancestor context c =>
      simp only at member
      split at member
      · exact absurd member List.not_mem_nil
      · exact Container.ownRules_makes c.path_mem_paths member
  | @sections ancestor context c object left parts nested origins entered below resolved rest ih =>
      have within (part : CompiledPart) (listed : part ∈ parts)
          : ∀ path ∈ part.origin.paths, path ∈ c.paths := by
        intro path member
        rw [paths_eq_of_origins origins]
        exact List.mem_cons_of_mem _ (List.mem_flatMap.mpr ⟨part, listed, member⟩)
      simp only [List.mem_append, List.mem_flatMap, CompiledPart.mem_transfers] at member
      rcases member with (⟨part, listed, member⟩ | own) | ⟨part, listed, _, _, transfer⟩
      · exact (ih part listed member).mono (within part listed)
      · exact Container.ownRules_makes c.path_mem_paths own
      · rw [(below part listed).path_eq] at transfer
        exact .transfer _ _ _ _ c.path_mem_paths
          (within part listed _ part.origin.path_mem_paths) transfer

/-! ### Sections of sections with different paths -/

section

variable {object : String} {left : Container} {parts : List CompiledPart}

theorem apart (origins : parts.map (·.origin) = c.parts) (distinct : c.paths.Nodup)
    {part : CompiledPart} (listed : part ∈ parts)
    : c.path ∉ part.origin.paths := by
  rw [paths_eq_of_origins origins, List.nodup_cons] at distinct
  exact fun inside => distinct.1 (List.mem_flatMap.mpr ⟨part, listed, inside⟩)

theorem distinct_parts (origins : parts.map (·.origin) = c.parts) (distinct : c.paths.Nodup)
    : (parts.flatMap (·.origin.paths)).Nodup := by
  rw [paths_eq_of_origins origins, List.nodup_cons] at distinct
  exact distinct.2

theorem distinct_part (origins : parts.map (·.origin) = c.parts) (distinct : c.paths.Nodup)
    {part : CompiledPart} (listed : part ∈ parts)
    : part.origin.paths.Nodup :=
  (List.nodup_flatMap.mp (distinct_parts origins distinct)).1 part listed

theorem part_eq (origins : parts.map (·.origin) = c.parts) (distinct : c.paths.Nodup)
    {a b : CompiledPart} {path : RulePath} (first : a ∈ parts) (second : b ∈ parts)
    (inFirst : path ∈ a.origin.paths) (inSecond : path ∈ b.origin.paths)
    : a = b :=
  CompiledPart.eq_of_path (distinct_parts origins distinct) first second inFirst inSecond

variable (origins : parts.map (·.origin) = c.parts) (distinct : c.paths.Nodup)
variable
  (below
    : ∀ part ∈ parts, Compiles env repeats (some c.path) part.entered part.origin part.toYield)
variable
  (member
    : r ∈ parts.flatMap (·.rules) ++ c.ownRules ancestor object left
        ++ CompiledPart.transfers c.path object parts)

include origins distinct below member

/-- A rule that sets statuses of a section is one of the section's own. -/
theorem main_of_target {statuses : List Status} (effect : r.effect = .setStatus c.path statuses)
    : r ∈ (Scope.mk c.path c.kind ancestor object).mainRules left.operands := by
  simp only [List.mem_append, List.mem_flatMap, CompiledPart.mem_transfers] at member
  rcases member with (⟨part, listed, inPart⟩ | own) | ⟨part, listed, _, _, transfer⟩
  · have inside : c.path ∈ part.origin.paths :=
      ((below part listed).makes inPart).target_mem effect
    exact absurd inside (apart origins distinct listed)
  · exact Container.main_of_ownRules own effect
  · obtain ⟨_, _, _, _, _, same⟩ := transferRules_shape transfer
    rw [(below part listed).path_eq, effect, Effect.setStatus.injEq] at same
    have inside : c.path ∈ part.origin.paths := by
      rw [same.1]
      exact part.origin.path_mem_paths
    exact absurd inside (apart origins distinct listed)

/-- A rule that sets statuses of a section inside of a part comes from that part, or carries its
result over.
-/
theorem part_of_target {statuses : List Status} {part : CompiledPart} {path : RulePath}
    (listed : part ∈ parts) (inside : path ∈ part.origin.paths)
    (effect : r.effect = .setStatus path statuses)
    : r ∈ part.rules
      ∨ part.isSpent = false ∧ part.context ≠ some object
        ∧ r ∈ transferRules c.path object part.left.id.text part.left.path := by
  simp only [List.mem_append, List.mem_flatMap, CompiledPart.mem_transfers] at member
  rcases member with (⟨other, also, inPart⟩ | own) | ⟨other, also, unspent, foreign, transfer⟩
  · have target := ((below other also).makes inPart).target_mem effect
    obtain rfl := part_eq origins distinct also listed target inside
    exact .inl inPart
  · have main := Container.main_of_ownRules own effect
    obtain ⟨_, _, _, _, same⟩ := Scope.mainRules_shape main
    rw [effect, Effect.setStatus.injEq] at same
    have target : path = c.path := same.1
    rw [target] at inside
    exact absurd inside (apart origins distinct listed)
  · obtain ⟨_, _, _, _, _, same⟩ := transferRules_shape transfer
    rw [(below other also).path_eq, effect, Effect.setStatus.injEq] at same
    rw [same.1] at inside
    obtain rfl := part_eq origins distinct also listed other.origin.path_mem_paths inside
    exact .inr ⟨unspent, foreign, transfer⟩

end

/-- The rules that set statuses of a section are its own, and match entities of the object class
that it ends with.
-/
theorem main_of_root {statuses : List Status}
    (compiles : Compiles env repeats ancestor context c y) (distinct : c.paths.Nodup)
    (member : r ∈ y.rules) (effect : r.effect = .setStatus c.path statuses)
    : r ∈ (Scope.mk c.path c.kind ancestor (y.context.getD env.config.fallbackObject)).mainRules
        y.left.operands := by
  cases compiles with
  | repeated | empty => exact absurd member List.not_mem_nil
  | tags =>
      simp only at member
      split at member
      · exact absurd member List.not_mem_nil
      · exact Container.main_of_ownRules member effect
  | sections _ origins _ below resolved _ =>
      rw [resolved]
      exact main_of_target origins distinct below member effect

end Compiles

end ClauseRules
