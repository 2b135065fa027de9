import ClauseRules.Proofs.Compile.Matching
import ClauseRules.Proofs.Compile.ObjectClass

/-! The order of the children of a section. The passes over them take one kind after the other, so
only the order among children of one kind is of importance; and only applications have a say in the
object class.
-/

namespace ClauseRules

variable {env : CompileEnv} {path : RulePath} {p : Progress} {sections : List Container}
  {c d : Container} {context : Option String} {ancestor : Option RulePath} {s : CompileState}

theorem Node.kind_part (node : Node) : node.part.kind = node.kind := by
  cases node <;> rfl

/-! ### Turns -/

namespace Progress

theorem after_append {more : List Container}
    : p.after env path (sections ++ more) = (p.after env path sections).after env path more :=
  List.foldl_append

/-- A section that is no application leaves the object class for those after it as it is. -/
theorem context_turn {k : Container} (other : k.kind ≠ .application)
    : (p.turn path (k.compile env)).context = p.context := by
  cases failed : p.failure with
  | some e => rw [turn_of_failure failed]
  | none =>
      have kind := k.compile_leaves env p.context (some path) p.state
      rw [turn_of_running failed]
      simp only [add, kind, beq_eq_false_iff_ne.mpr other]
      cases (k.compile env p.context (some path) p.state).context with
      | error e => rfl
      | ok found => rfl

theorem context_after (others : ∀ k ∈ sections, k.kind ≠ .application)
    : (p.after env path sections).context = p.context := by
  induction sections generalizing p with
  | nil => rfl
  | cons k rest ih =>
      obtain ⟨here, later⟩ := List.forall_mem_cons.mp others
      rw [after_cons, ih later, context_turn here]

end Progress

namespace Container

/-- A section holds sections, and at most one tag next to them. -/
structure Composite (c : Container) : Prop where
  nested : c.hasContainers = true
  single : c.tags.length ≤ 1

theorem Composite.pure (composite : c.Composite) : c.mixedContent? = none := by
  have few : ¬1 < (c.children.filterMap Node.tag?).length := Nat.not_lt.mpr composite.single
  simp [mixedContent?, Node.mixedContent?, few]

/-- The parts have their turns in the order of the children of each kind. -/
theorem turns_eq (nested : c.hasContainers = true)
    : c.turns = (Kind.all.flatMap c.ofKind).map Node.part := by
  simp only [turns, Kind.sort, parts, nested, if_true, List.filter_map, List.map_flatMap, ofKind,
    Function.comp_def, Node.kind_part]

/-- The object class of a section of sections is the one that its applications lead to. -/
theorem context_progress (nested : c.hasContainers = true)
    : (c.progress env context s c.turns).context
      = (c.progress env context s ((c.ofKind .application).map Node.part)).context := by
  have split
      : c.turns
        = (c.ofKind .application).map Node.part
          ++ ([Kind.selection, .exception, .requirement].flatMap c.ofKind).map Node.part := by
    rw [turns_eq nested, Kind.all, List.flatMap_cons, List.map_append]
  -- After the turns of the applications, the object class stays.
  rw [split, progress, Progress.after_append]
  apply Progress.context_after
  intro k listed
  obtain ⟨node, member, rfl⟩ := List.mem_map.mp listed
  obtain ⟨kind, later, member⟩ := List.mem_flatMap.mp member
  have same : node.kind = kind := by simpa using (List.mem_filter.mp member).2
  rw [Node.kind_part, same]
  rintro rfl
  simp at later

theorem progress_eq (bare : c.bare = d.bare) (parts : List Container)
    : c.progress env context s parts = d.progress env context s parts := by
  rw [progress, progress, id_of_bare bare, path_of_bare bare]

/-- Sections whose applications are the same in the same order have the same object class, if they
compile.
-/
theorem context_eq (bare : c.bare = d.bare) (inC : c.Composite) (inD : d.Composite)
    (same : c.ofKind .application = d.ofKind .application) {out found : Option String}
    (compiles : (c.compile env context ancestor s).context = .ok out)
    (compilesOther : (d.compile env context ancestor s).context = .ok found)
    : out = found := by
  by_cases met : d.id ∈ s.visited
  · -- Either both are refused, or both keep the object class that they are compiled for.
    rw [compile_of_met met] at compilesOther
    rw [compile_of_met (id_of_bare bare ▸ met)] at compiles
    cases reject : env.config.rejectDuplicateNodes with
    | true => simp [reject] at compiles
    | false =>
        simp only [reject, Bool.false_eq_true, if_false] at compiles compilesOther
        exact Except.ok.inj (compiles.symm.trans compilesOther)
  · have new : c.id ∉ s.visited := id_of_bare bare ▸ met
    rcases c.compile_nested env context ancestor new inC.pure inC.nested with
      ⟨_, _, fails, _⟩ | ⟨_, ok, _⟩
    · cases fails.symm.trans compiles
    rcases d.compile_nested env context ancestor met inD.pure inD.nested with
      ⟨_, _, fails, _⟩ | ⟨_, okOther, _⟩
    · cases fails.symm.trans compilesOther
    cases ok.symm.trans compiles
    cases okOther.symm.trans compilesOther
    rw [context_progress inC.nested, context_progress inD.nested, same, progress_eq bare]

/-- How the children of one kind stand among those of other kinds makes no difference to the object
class, the problem and the state that a section comes to. Children that are no applications make no
difference to its object class at all.
-/
theorem compile_interleaved (bare : c.bare = d.bare) (inC : c.Composite) (inD : d.Composite)
    (env : CompileEnv) (context : Option String) (ancestor : Option RulePath) (s : CompileState)
    : ((∀ kind, c.ofKind kind = d.ofKind kind) →
        (c.compile env context ancestor s).context = (d.compile env context ancestor s).context
        ∧ (c.compile env context ancestor s).state = (d.compile env context ancestor s).state)
      ∧ (c.ofKind .application = d.ofKind .application →
        ∀ out found,
          (c.compile env context ancestor s).context = .ok out →
            (d.compile env context ancestor s).context = .ok found → out = found) := by
  constructor
  · intro same
    have turns : c.turns = d.turns := by
      rw [turns_eq inC.nested, turns_eq inD.nested, List.flatMap_congr fun kind _ => same kind]
    have alike : (c.compile env context ancestor s).Matches (d.compile env context ancestor s) := by
      apply compile_matches bare inC.pure inD.pure inC.nested inD.nested
      rw [turns, progress_eq bare]
    exact ⟨alike.context, alike.state⟩
  · intro same out found compiles compilesOther
    exact context_eq bare inC inD same compiles compilesOther

/-! Sections on garages that differ in the order of their children, or in those that do not name the
object class.
-/

def garageName : Node :=
  .container { text := "gs2" } "/b" .application
    [.tag { id := { text := "gs3" }, kind := .application, property := "garage" }]

def largeArea : Node :=
  .container { text := "gs4" } "/b" .requirement
    [.tag { id := { text := "gs5" }, kind := .requirement, property := "area" }]

/-- A tag, which gets a section of its own. -/
def someArea : Node :=
  .tag { id := { text := "gs6" }, kind := .selection, property := "area", reference := "/b" }

def wideDoor : Node :=
  .container { text := "gs7" } "/b" .exception
    [.tag { id := { text := "gs8" }, kind := .requirement, property := "width" }]

def garageSection (children : List Node) : Container :=
  { id := { text := "gs1" }, reference := "/b", kind := .requirement, children }

/-- The requirement waits for the application, wherever it stands. With an exception on doors in its
place the section is still one on garages.
-/
theorem compile_interleaved_garageSection
    : (∀ kind,
        (garageSection [largeArea, garageName, someArea]).ofKind kind
          = (garageSection [someArea, garageName, largeArea]).ofKind kind)
      ∧ ((garageSection [largeArea, garageName, someArea]).compile garages none none {}).context
        = .ok (some "garage")
      ∧ ((garageSection [someArea, garageName, largeArea]).compile garages none none {}).context
        = .ok (some "garage")
      ∧ ((garageSection [largeArea, garageName, someArea]).compile garages none none {}).state
        = ((garageSection [someArea, garageName, largeArea]).compile garages none none {}).state
      ∧ ((garageSection [wideDoor, garageName]).compile garages none none {}).context
        = .ok (some "garage") := by
  have bare (children others : List Node)
      : (garageSection children).bare = (garageSection others).bare := rfl
  have waiting : (garageSection [largeArea, garageName, someArea]).Composite := ⟨rfl, by decide⟩
  have first : (garageSection [someArea, garageName, largeArea]).Composite := ⟨rfl, by decide⟩
  have without : (garageSection [wideDoor, garageName]).Composite := ⟨rfl, by decide⟩
  have kinds (kind : Kind)
      : (garageSection [largeArea, garageName, someArea]).ofKind kind
        = (garageSection [someArea, garageName, largeArea]).ofKind kind := by
    cases kind <;> rfl
  have context
      : ((garageSection [largeArea, garageName, someArea]).compile garages none none {}).context
        = .ok (some "garage") := by
    decide +kernel
  have succeeds
      : ((garageSection [wideDoor, garageName]).compile garages none none {}).context.isOk
        = true := by
    decide +kernel
  obtain ⟨reordered, -⟩ := compile_interleaved (bare _ _) waiting first garages none none {}
  obtain ⟨-, exchanged⟩ := compile_interleaved (bare _ _) waiting without garages none none {}
  obtain ⟨sameContext, sameState⟩ := reordered kinds
  refine ⟨kinds, context, sameContext.symm.trans context, sameState, ?_⟩
  cases compiled
      : ((garageSection [wideDoor, garageName]).compile garages none none {}).context with
  | error e => exact absurd (compiled ▸ succeeds) nofun
  | ok out => rw [exchanged rfl _ out context compiled]

end Container

end ClauseRules
