import ClauseRules.Proofs.Compile.Success
import Mathlib.Data.Set.Basic

/-! What a compilation depends on. Of the state that it starts from, only which sections of its own
tree were met before makes a difference.
-/

namespace ClauseRules

/-- Two states have met the same of some sections. -/
def Agree (ids : Set NodeId) (s t : CompileState) : Prop :=
  ∀ id ∈ ids, id ∈ s.visited ↔ id ∈ t.visited

/-- Two states have been moved on alike: they still agree, and have gained the same rules. -/
structure Alike (ids : Set NodeId) (s moved t other : CompileState) : Prop where
  agree : Agree ids moved other
  rules
    : ∃ rules : List Rule,
        (∀ r, r ∈ moved.rules ↔ r ∈ s.rules ∨ r ∈ rules)
        ∧ ∀ r, r ∈ other.rules ↔ r ∈ t.rules ∨ r ∈ rules

namespace Alike

variable {ids : Set NodeId} {s s1 s2 t t1 t2 : CompileState}

theorem refl (agree : Agree ids s t) : Alike ids s s t t := ⟨agree, [], by simp, by simp⟩

theorem trans (first : Alike ids s s1 t t1) (second : Alike ids s1 s2 t1 t2)
    : Alike ids s s2 t t2 := by
  obtain ⟨rules, left, right⟩ := first.rules
  obtain ⟨more, left2, right2⟩ := second.rules
  refine ⟨second.agree, rules ++ more, fun r => ?_, fun r => ?_⟩
  · rw [left2, left, List.mem_append, or_assoc]
  · rw [right2, right, List.mem_append, or_assoc]

theorem warn (agree : Agree ids s t) (warnings : List Warning)
    : Alike ids s (s.warn warnings) t (t.warn warnings) :=
  ⟨agree, [], by simp [CompileState.warn], by simp [CompileState.warn]⟩

theorem visit (agree : Agree ids s t) (id : NodeId) : Alike ids s (s.visit id) t (t.visit id) where
  agree other member := by simp [CompileState.visit, agree other member]
  rules := ⟨[], by simp [CompileState.visit], by simp [CompileState.visit]⟩

theorem addRules (agree : Agree ids s t) (rules : List Rule)
    : Alike ids s (s.addRules rules) t (t.addRules rules) where
  agree := agree
  rules := ⟨rules, by simp [CompileState.addRules, or_comm],
    by simp [CompileState.addRules, or_comm]⟩

end Alike

/-- The same progress at another state. -/
def Progress.atState (p : Progress) (t : CompileState) : Progress := { p with state := t }

/-- States that agree on some sections lead a compiler to one outcome. -/
def SectionCompiler.Frames (compile : SectionCompiler) (ids : Set NodeId) : Prop :=
  ∀ context ancestor s t, Agree ids s t →
    (compile context ancestor t).container = (compile context ancestor s).container
    ∧ (compile context ancestor t).context = (compile context ancestor s).context
    ∧ Alike ids s (compile context ancestor s).state t (compile context ancestor t).state

section

variable {ids : Set NodeId} {path : RulePath} {kind : Kind} {p : Progress} {t : CompileState}
  {children : List Child} {env : CompileEnv} {c : Container}

theorem add_atState {one other : Compiled} (container : other.container = one.container)
    (context : other.context = one.context)
    : (p.atState t).add other = (p.add one).atState other.state := by
  simp only [Progress.add, Progress.atState, container, context]
  cases one.context with
  | error e => rfl
  | ok found =>
      cases one.container.kind == Kind.application <;> cases one.container.isEmpty <;> rfl

/-- A pass takes states that agree to states that agree, and is otherwise the same. -/
theorem compileKind_frames (frames : ∀ child ∈ children, child.compile.Frames ids)
    (agree : Agree ids p.state t)
    : ∃ moved,
        compileKind path kind (p.atState t) children
          = ((compileKind path kind p children).1.atState moved,
            (compileKind path kind p children).2)
        ∧ Alike ids p.state (compileKind path kind p children).1.state t moved := by
  induction children generalizing p t with
  | nil => exact ⟨t, rfl, .refl agree⟩
  | cons child rest ih =>
      have ⟨here, later⟩ := List.forall_mem_cons.mp frames
      cases compiled : child.container.kind == kind && p.failure.isNone with
      | true =>
          obtain ⟨container, context, alike⟩ := here p.context (some path) p.state t agree
          have added := add_atState (p := p) (t := t) container context
          rw [← state_add (p := p)] at alike
          obtain ⟨moved, run, more⟩ := ih later alike.agree
          rw [← added] at run
          refine ⟨moved, ?_, ?_⟩
          · rw [compileKind_cons_of_true compiled,
              compileKind_cons_of_true (p := p.atState t) compiled]
            simp only [Progress.atState] at run container ⊢
            rw [run, container]
          · rw [compileKind_cons_of_true compiled]
            exact alike.trans more
      | false =>
          obtain ⟨moved, run, alike⟩ := ih later agree
          refine ⟨moved, ?_, ?_⟩
          · rw [compileKind_cons_of_false compiled,
              compileKind_cons_of_false (p := p.atState t) compiled, run]
          · rw [compileKind_cons_of_false compiled]
            exact alike

/-- A pass takes states that agree to states that agree, and leaves compilers that depend on no
more.
-/
theorem exists_framed_pass {q : Progress} {filled : List Child}
    (run : compileKind path kind p children = (q, filled))
    (frames : ∀ child ∈ children, child.compile.Frames ids) (agree : Agree ids p.state t)
    : ∃ moved,
        compileKind path kind (p.atState t) children = (q.atState moved, filled)
        ∧ Alike ids p.state q.state t moved ∧ ∀ child ∈ filled, child.compile.Frames ids := by
  obtain ⟨moved, other, alike⟩
      : ∃ moved,
          compileKind path kind (p.atState t) children
            = ((compileKind path kind p children).1.atState moved,
              (compileKind path kind p children).2)
          ∧ Alike ids p.state (compileKind path kind p children).1.state t moved :=
    compileKind_frames frames agree
  rw [run] at other alike
  exact ⟨moved, other, alike, forall_compile_of_pass (·.Frames ids) run frames⟩

/-- So do all passes together. -/
theorem compileKinds_frames (frames : ∀ child ∈ children, child.compile.Frames ids)
    (agree : Agree ids p.state t)
    : ∃ moved,
        compileKinds path (p.atState t) children
          = ((compileKinds path p children).1.atState moved, (compileKinds path p children).2)
        ∧ Alike ids p.state (compileKinds path p children).1.state t moved := by
  rcases first : compileKind path .application p children with ⟨p1, d1⟩
  obtain ⟨t1, run1, alike1, frames1⟩ := exists_framed_pass first frames agree
  obtain ⟨kept, isKept⟩
      : ∃ kept, (if p1.failure.isNone then d1.filter (!·.isSpent) else d1) = kept := ⟨_, rfl⟩
  have framesKept : ∀ child ∈ kept, child.compile.Frames ids := by
    intro child member
    rw [← isKept] at member
    split at member
    · exact frames1 child (List.mem_filter.mp member).1
    · exact frames1 child member
  rcases second : compileKind path .selection p1 kept with ⟨p2, d2⟩
  obtain ⟨t2, run2, alike2, frames2⟩ := exists_framed_pass second framesKept alike1.agree
  rcases third : compileKind path .exception p2 d2 with ⟨p3, d3⟩
  obtain ⟨t3, run3, alike3, frames3⟩ := exists_framed_pass third frames2 alike2.agree
  rcases fourth : compileKind path .requirement p3 d3 with ⟨p4, d4⟩
  obtain ⟨t4, run4, alike4, _⟩ := exists_framed_pass fourth frames3 alike3.agree
  have alone : compileKinds path p children = (p4, d4) := by
    simp only [compileKinds, first, isKept, second, third, fourth]
  have sameFailure : (p1.atState t1).failure = p1.failure := rfl
  have together : compileKinds path (p.atState t) children = (p4.atState t4, d4) := by
    simp only [compileKinds, run1, sameFailure, isKept, run2, run3, run4]
  rw [alone, together]
  exact ⟨t4, rfl, ((alike1.trans alike2).trans alike3).trans alike4⟩

/-- Compiling a section of tags does not depend on what was met before. -/
theorem compileLeaf_frames (flat : c.hasContainers = false) : (compileLeaf env c).Frames ids := by
  intro context ancestor s t agree
  rcases outcome
      : resolveContext env.vocabulary c.tags ((declaredObject? env.vocabulary c.children).map (·.2))
        c.id context with ⟨chosen, warnings⟩
  have warned := Alike.warn agree warnings
  cases chosen with
  | error e =>
      have left
          : ∀ state, compileLeaf env c context ancestor state
              = ⟨c, state.warn warnings, .error (.resolve e)⟩ := fun _ => by
        simp only [compileLeaf, outcome]
      rw [left, left]
      exact ⟨rfl, rfl, warned⟩
  | ok object =>
      rw [compileLeaf_eq flat outcome, compileLeaf_eq flat outcome]
      cases (c.undeclared env.vocabulary).isEmpty with
      | true => exact ⟨rfl, rfl, warned⟩
      | false =>
          have again :=
            Alike.warn warned.agree ((c.undeclared env.vocabulary).tags.flatMap Tag.warnings)
          exact ⟨rfl, rfl, (warned.trans again).trans (.addRules again.agree _)⟩

theorem compileSections_frames {children : List Child}
    (frames : ∀ child ∈ children, child.compile.Frames ids)
    : (compileSections env c children).Frames ids := by
  intro context ancestor s t agree
  let p : Progress := { state := s, context := context }
  obtain ⟨moved, run, alike⟩
      : ∃ moved,
          compileKinds c.path (p.atState t) children
            = ((compileKinds c.path p children).1.atState moved,
              (compileKinds c.path p children).2)
          ∧ Alike ids s (compileKinds c.path p children).1.state t moved :=
    compileKinds_frames frames agree
  rcases outcome : compileKinds c.path p children with ⟨q, filled⟩
  rw [outcome] at run alike
  simp only [p, Progress.atState] at outcome run
  simp only [compileSections, outcome, run]
  cases q.failure with
  | some e => exact ⟨rfl, rfl, alike⟩
  | none => exact ⟨rfl, rfl, alike.trans (.addRules alike.agree _)⟩

/-- A compilation depends on what was met of its own sections, and on nothing else of the state. -/
theorem Container.compile_frames (c : Container) (inside : ∀ id ∈ c.ids, id ∈ ids)
    : (c.compile env).Frames ids := by
  -- The tests on the way look at the section and at whether it was met, so both runs branch alike.
  induction c using Container.inductionOnParts with
  | step c below =>
      intro context ancestor s t agree
      have seen : t.visited.contains c.id = s.visited.contains c.id := by
        rw [Bool.eq_iff_iff, SortedSet.contains_iff, SortedSet.contains_iff]
        exact (agree c.id (inside c.id id_mem_ids)).symm
      have visit := Alike.visit agree c.id
      simp only [Container.compile, compileSection, seen]
      cases s.visited.contains c.id with
      | true =>
          cases env.config.rejectDuplicateNodes with
          | true => exact ⟨rfl, rfl, .refl agree⟩
          | false => exact ⟨rfl, rfl, .warn agree _⟩
      | false =>
          simp only [Bool.false_eq_true, if_false]
          cases c.mixedContent? with
          | some mixed => exact ⟨rfl, rfl, visit⟩
          | none =>
              simp only
              cases nested : c.hasContainers with
              | true =>
                  have frames
                      : ∀ child ∈ Node.childList env c.children, child.compile.Frames ids := by
                    rw [childList_eq nested]
                    intro child member
                    obtain ⟨k, listed, rfl⟩ := List.mem_map.mp member
                    refine below k listed fun id member => inside id ?_
                    rw [ids_eq c]
                    exact List.mem_cons_of_mem _ (List.mem_flatMap.mpr ⟨k, listed, member⟩)
                  obtain ⟨container, result, alike⟩ :=
                    compileSections_frames frames context ancestor _ _ visit.agree
                  exact ⟨container, result, visit.trans alike⟩
              | false =>
                  cases c.hasTags with
                  | true =>
                      obtain ⟨container, result, alike⟩ :=
                        compileLeaf_frames nested context ancestor _ _ visit.agree
                      exact ⟨container, result, visit.trans alike⟩
                  | false => exact ⟨rfl, rfl, visit⟩

end

end ClauseRules
