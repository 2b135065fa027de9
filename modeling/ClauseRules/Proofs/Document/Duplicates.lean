import ClauseRules.Proofs.Compile.Agreement
import ClauseRules.Proofs.Document.Modularity

/-! Documents in which no section occurs twice. For these it makes no difference whether duplicates
are refused or passed over, and they are the only ones that compile where duplicates are refused.
-/

namespace ClauseRules

/-! ### The ids of sections -/

namespace Node

mutual

/-- The ids of the sections in a tree as it stands, from the top down. -/
def containerIds : Node → List NodeId
  | .tag _ => []
  | .container id _ _ children => id :: containerIdsOfList children

def containerIdsOfList : List Node → List NodeId
  | [] => []
  | node :: rest => containerIds node ++ containerIdsOfList rest

end

mutual

/-- After the repair, the sections are those under which compilation meets a tree. -/
theorem Repairs.containerIds {beside : Bool} {node repaired : Node}
    (repairs : Repairs beside node repaired)
    : repaired.containerIds = (node.sections beside).map (·.id) := by
  cases repairs with
  | tag => rfl
  | stray => rfl
  | container each => exact congrArg _ each.containerIds
termination_by sizeOf node

theorem RepairsEach.containerIds {beside : Bool} {nodes others : List Node}
    (each : RepairsEach beside nodes others)
    : containerIdsOfList others = (sectionsOfList beside nodes).map (·.id) := by
  cases each with
  | nil => rfl
  | cons here later =>
      simp only [containerIdsOfList, sectionsOfList, List.map_append, here.containerIds,
        later.containerIds]
termination_by sizeOf nodes

end

end Node

namespace Container

/-- The ids of the sections in a tree as it stands. -/
def containerIds (c : Container) : List NodeId := c.toNode.containerIds

theorem containerIds_normalTree (c : Container) (valid : c.violation? = none)
    : c.normalTree.1.containerIds = c.ids :=
  (c.repairs_normalTree valid).containerIds

end Container

namespace Document

variable {document : Document} {env : CompileEnv} {rules : RuleSet}

/-- The ids of all sections of a document after the repair. -/
def containerIds (document : Document) : List NodeId :=
  document.sections.flatMap (·.normalTree.1.containerIds)

theorem containerIds_eq (valid : document.violations = [])
    : document.containerIds = document.sections.flatMap Container.ids := by
  unfold containerIds
  rw [List.flatMap_congr]
  exact fun c member => c.containerIds_normalTree (violation?_eq_none valid member)

/-! ### Duplicates refused or passed over -/

theorem valid_of_compile (succeeds : (document.compile env).1 = .ok rules)
    : document.violations = [] := by
  cases violations : document.violations with
  | nil => rfl
  | cons e rest => simp [compile, violations] at succeeds

/-- A compiler that refuses duplicates has met every section of a document that it compiles, each
once.
-/
theorem containerIds_nodup (strict : env.config.rejectDuplicateNodes = true)
    (succeeds : (document.compile env).1 = .ok rules)
    : document.containerIds.Nodup := by
  obtain ⟨paths, run, -⟩ := compile_ok succeeds
  rw [containerIds_eq (valid_of_compile succeeds)]
  exact (compileAll_meetsOnce strict run).distinct

/-- Without duplicates none is refused. -/
theorem refusesNone_of_nodup (env : CompileEnv) (distinct : document.containerIds.Nodup)
    : RefusesNone (document.compile env).1 := by
  intro id refused
  cases violations : document.violations with
  | cons e rest =>
      simp only [compile, violations] at refused
      cases refused
  | nil =>
      rw [containerIds_eq violations] at distinct
      have accepted : RefusesNone (compileAll env {} document.sections).2 :=
        compileAll_accepts ⟨distinct, fun _ _ => SortedSet.not_mem_empty⟩
      obtain ⟨ends, fails⟩ := compile_of_valid env violations
      cases run : (compileAll env {} document.sections).2 with
      | ok paths =>
          obtain ⟨rules, compiled⟩ := ends paths run
          rw [compiled] at refused
          cases refused
      | error e =>
          rw [fails e run] at refused
          cases refused
          exact accepted id run

/-- Where no duplicate is refused, passing duplicates over makes no difference. -/
theorem compile_lenient (unrefused : RefusesNone (document.compile (env.rejecting true)).1)
    : document.compile (env.rejecting false) = document.compile (env.rejecting true) := by
  cases violations : document.violations with
  | cons e rest => simp only [compile, violations]
  | nil =>
      have same
          : compileAll (env.rejecting false) {} document.sections
            = compileAll (env.rejecting true) {} document.sections := by
        refine compileAll_agrees fun id refused => unrefused id ?_
        exact (compile_of_valid (env.rejecting true) violations).2 _ refused
      simp only [compile, same]

/-- Duplicates refused or passed over come to the same for exactly the documents without any. -/
theorem compile_rejecting (document : Document) (env : CompileEnv)
    : (∀ rules,
        (document.compile (env.rejecting true)).1 = .ok rules
        ↔ document.containerIds.Nodup ∧ (document.compile (env.rejecting false)).1 = .ok rules)
      ∧ (document.containerIds.Nodup →
        document.compile (env.rejecting true) = document.compile (env.rejecting false)
        ∧ ∀ id, (document.compile (env.rejecting true)).1 ≠ .error (.duplicateNode id)) := by
  refine ⟨fun rules => ⟨fun succeeds => ?_, fun ⟨distinct, succeeds⟩ => ?_⟩, fun distinct => ?_⟩
  · have unrefused : RefusesNone (document.compile (env.rejecting true)).1 := by
      rw [succeeds]
      exact nofun
    rw [compile_lenient unrefused]
    exact ⟨containerIds_nodup rfl succeeds, succeeds⟩
  · rwa [compile_lenient (refusesNone_of_nodup _ distinct)] at succeeds
  · have unrefused := refusesNone_of_nodup (env.rejecting true) distinct
    exact ⟨(compile_lenient unrefused).symm, unrefused⟩

/-- The section that repair makes of a tag counts like any other. -/
theorem compile_rejecting_stray
    : strayDocument.containerIds.Nodup
      ∧ strayDocument.compile (DocumentEntry.openings.rejecting true)
        = strayDocument.compile (DocumentEntry.openings.rejecting false)
      ∧ ∀ id,
        (strayDocument.compile (DocumentEntry.openings.rejecting true)).1
          ≠ .error (.duplicateNode id) := by
  have distinct : strayDocument.containerIds.Nodup := by decide +kernel
  exact ⟨distinct, (compile_rejecting strayDocument DocumentEntry.openings).2 distinct⟩

end Document

end ClauseRules
