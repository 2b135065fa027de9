import ClauseRules.Proofs.Compile.Duplicates
import Mathlib.Logic.Relation

/-! The compilations of single sections that the compilation of a tree consists of. Each is called
for an object class and a state, adds some rules itself and has the parts of its section compiled
before. The rules that carry results over are made from what these calls return.
-/

namespace ClauseRules

variable {env : CompileEnv} {path : RulePath} {p q : Progress} {k : Container}
  {sections : List Container} {r : Rule}

/-- An application with nothing left in it has served its purpose. -/
def Compiled.isSpent (compiled : Compiled) : Bool :=
  compiled.container.kind == .application && compiled.container.isEmpty

/-! ### Turns -/

namespace Progress

/-- One of the sections has its turn at a progress at which nothing has failed. -/
inductive Turn (env : CompileEnv) (path : RulePath)
    : Progress → List Container → Container → Progress → Prop
  | here {p k rest} (running : p.failure = none) : Turn env path p (k :: rest) k p
  | later {p first rest k q} (turn : Turn env path (p.turn path (first.compile env)) rest k q)
    : Turn env path p (first :: rest) k q

theorem turn_cons_iff {first : Container} {rest : List Container}
    : Turn env path p (first :: rest) k q
      ↔ (p.failure = none ∧ k = first ∧ q = p)
        ∨ Turn env path (p.turn path (first.compile env)) rest k q := by
  constructor
  · intro turn
    cases turn with
    | here running => exact .inl ⟨running, rfl, rfl⟩
    | later turn => exact .inr turn
  · rintro (⟨running, rfl, rfl⟩ | turn)
    · exact .here running
    · exact .later turn

theorem Turn.mem (turn : Turn env path p sections k q) : k ∈ sections := by
  induction turn with
  | here => exact List.mem_cons_self
  | later _ ih => exact List.mem_cons_of_mem _ ih

/-- Where nothing fails, every section has its turn. -/
theorem exists_turn (running : (p.after env path sections).failure = none) (listed : k ∈ sections)
    : ∃ q, Turn env path p sections k q := by
  induction sections generalizing p with
  | nil => exact absurd listed List.not_mem_nil
  | cons first rest ih =>
      rcases List.mem_cons.mp listed with rfl | later
      · exact ⟨p, .here (running_of_after running)⟩
      · obtain ⟨q, turn⟩ := ih running later
        exact ⟨q, .later turn⟩

/-- Where nothing fails, no turn does. -/
theorem Turn.ok (turn : Turn env path p sections k q)
    (running : (p.after env path sections).failure = none)
    : ∃ out, (k.compile env q.context (some path) q.state).context = .ok out := by
  induction turn with
  | here => exact (ok_of_turn (running_of_after running)).2
  | later _ ih => exact ih running

theorem Turn.unmet (turn : Turn env path p sections k q)
    (unmet : Unmet p.state (sections.flatMap Container.ids))
    : Unmet q.state k.ids := by
  induction turn with
  | here => exact unmet.left
  | @later p first _ _ _ _ ih => exact ih (unmet.right (visited_turn (first.compile_meetsOnly env)))

/-! ### What the turns come to -/

theorem results_add {compiled : Compiled}
    : (p.add compiled).results
      = match compiled.context with
        | .error _ => p.results
        | .ok context =>
            if compiled.isSpent then p.results
            else p.results ++ [(compiled.container.id, compiled.container.path, context)] := by
  have spent
      : compiled.isSpent
        = (compiled.container.kind == .application && compiled.container.isEmpty) := rfl
  rw [spent]
  simp only [add]
  cases compiled.context with
  | error e => rfl
  | ok found =>
      cases compiled.container.kind == Kind.application <;>
        cases compiled.container.isEmpty <;> rfl

/-- A section that has its turn is listed with the object class that it has come to, unless it has
served its purpose.
-/
theorem mem_results_after {entry : NodeId × RulePath × Option String}
    : entry ∈ (p.after env path sections).results
      ↔ entry ∈ p.results
        ∨ ∃ k q out,
          Turn env path p sections k q
          ∧ (k.compile env q.context (some path) q.state).context = .ok out
          ∧ (k.compile env q.context (some path) q.state).isSpent = false
          ∧ entry = (k.id, k.path, out) := by
  induction sections generalizing p with
  | nil =>
      simp only [after_nil, iff_self_or]
      rintro ⟨_, _, _, turn, _⟩
      cases turn
  | cons first rest ih =>
      have here
          : entry ∈ (p.turn path (first.compile env)).results
            ↔ entry ∈ p.results
              ∨ p.failure = none
                ∧ ∃ out,
                  (first.compile env p.context (some path) p.state).context = .ok out
                  ∧ (first.compile env p.context (some path) p.state).isSpent = false
                  ∧ entry = (first.id, first.path, out) := by
        cases failed : p.failure with
        | some e => simp [turn_of_failure failed]
        | none =>
            have bare := first.compile_bare env p.context (some path) p.state
            rw [turn_of_running failed, results_add]
            split
            case h_1 e context => simp [context]
            case h_2 out context =>
              cases spent : (first.compile env p.context (some path) p.state).isSpent with
              | true => simp
              | false =>
                  rw [Container.id_of_bare bare, Container.path_of_bare bare]
                  simp [context]
      rw [after_cons, ih, here]
      simp only [turn_cons_iff]
      constructor
      · rintro ((before | ⟨running, out, context, kept, same⟩) | ⟨k, q, out, turn, rest⟩)
        · exact .inl before
        · exact .inr ⟨first, p, out, .inl ⟨running, rfl, rfl⟩, context, kept, same⟩
        · exact .inr ⟨k, q, out, .inr turn, rest⟩
      · rintro (before | ⟨k, q, out, ⟨running, rfl, rfl⟩ | turn, context, kept, same⟩)
        · exact .inl (.inl before)
        · exact .inl (.inr ⟨running, out, context, kept, same⟩)
        · exact .inr ⟨k, q, out, turn, context, kept, same⟩

/-- The rules after all turns are those from before and what each turn has added. -/
theorem mem_rules_after {Adds : Container → Progress → Prop}
    (running : (p.after env path sections).failure = none)
    (each
      : ∀ k ∈ sections, ∀ q out,
          (k.compile env q.context (some path) q.state).context = .ok out →
            (r ∈ (k.compile env q.context (some path) q.state).state.rules
              ↔ r ∈ q.state.rules ∨ Adds k q))
    : r ∈ (p.after env path sections).state.rules
      ↔ r ∈ p.state.rules ∨ ∃ k q, Turn env path p sections k q ∧ Adds k q := by
  induction sections generalizing p with
  | nil =>
      simp only [after_nil, iff_self_or]
      rintro ⟨_, _, turn, _⟩
      cases turn
  | cons first rest ih =>
      obtain ⟨here, later⟩ := List.forall_mem_cons.mp each
      obtain ⟨start, out, context⟩ := ok_of_turn (running_of_after running)
      rw [after_cons, ih running later, state_turn start, here p out context]
      simp only [turn_cons_iff]
      constructor
      · rintro ((before | adds) | ⟨k, q, turn, adds⟩)
        · exact .inl before
        · exact .inr ⟨first, p, .inl ⟨start, rfl, rfl⟩, adds⟩
        · exact .inr ⟨k, q, .inr turn, adds⟩
      · rintro (before | ⟨k, q, ⟨_, rfl, rfl⟩ | turn, adds⟩)
        · exact .inl (.inl before)
        · exact .inl (.inr adds)
        · exact .inr ⟨k, q, turn, adds⟩

end Progress

namespace Container

variable {c : Container} {context out : Option String} {ancestor : Option RulePath}
  {s : CompileState}

/-- The rules of a section of tags, given what has become of it: none if nothing is left. -/
def rulesLeft (c : Container) (ancestor : Option RulePath) (compiled : Compiled) : List Rule :=
  match compiled.context with
  | .ok (some object) =>
      if compiled.container.isEmpty then [] else c.ownRules ancestor object compiled.container
  | _ => []

theorem mem_rules_of_flat (new : c.id ∉ s.visited) (flat : c.hasContainers = false)
    (succeeds : (c.compile env context ancestor s).context = .ok out)
    : r ∈ (c.compile env context ancestor s).state.rules
      ↔ r ∈ s.rules ∨ r ∈ c.rulesLeft ancestor (c.compile env context ancestor s) := by
  cases c.shape with
  | mixed mixed => cases mixed.symm.trans (pure_of_flat flat)
  | nested _ nested => cases flat.symm.trans nested
  | empty none =>
      rw [compile_of_empty new none]
      cases context <;> simp [rulesLeft, isEmpty, none, CompileState.visit]
  | tagged _ tagged =>
      rw [compile_of_tagged new flat tagged] at succeeds ⊢
      rcases resolved
          : resolveContext env.vocabulary c.tags
            ((declaredObject? env.vocabulary c.children).map (·.2)) c.id context
        with ⟨chosen, warnings⟩
      cases chosen with
      | error e => simp [compileLeaf, resolved] at succeeds
      | ok object =>
          rw [compileLeaf_eq flat resolved]
          cases bare : (c.undeclared env.vocabulary).isEmpty with
          | true => simp [rulesLeft, bare, CompileState.warn, CompileState.visit]
          | false =>
              simp [rulesLeft, bare, CompileState.warn, CompileState.visit, CompileState.addRules,
                or_comm]

end Container

/-! ### Calls -/

/-- A section that is compiled, and what it is compiled for. -/
structure Call where
  container : Container
  context : Option String
  ancestor : Option RulePath
  state : CompileState

namespace Call

variable {call outer inner : Call} {out : Option String}

def outcome (env : CompileEnv) (call : Call) : Compiled :=
  call.container.compile env call.context call.ancestor call.state

/-- The section counts as an operand of the one around it. -/
def Kept (env : CompileEnv) (call : Call) : Prop := (call.outcome env).isSpent = false

/-- Compiling a section compiles its parts, if it is met for the first time. -/
inductive Makes (env : CompileEnv) (outer : Call) : Call → Prop
  | part {k : Container} {q : Progress} (new : outer.container.id ∉ outer.state.visited)
    (pure : outer.container.mixedContent? = none)
    (turn
      : Progress.Turn env outer.container.path
          { state := outer.state.visit outer.container.id, context := outer.context }
          outer.container.turns k q)
    : Makes env outer ⟨k, q.context, some outer.container.path, q.state⟩

/-- Compiling a section leads to compiling another one inside of it. -/
def Reaches (env : CompileEnv) : Call → Call → Prop := Relation.ReflTransGen (Makes env)

/-- The rules that the compilation of a section adds by itself: those of its parts are added before.
None are added for a section that is passed over or has nothing left.
-/
def ownRules (env : CompileEnv) (call : Call) : List Rule :=
  if call.container.id ∈ call.state.visited then []
  else if call.container.hasContainers then
    call.container.rulesAfter env call.ancestor
      (call.container.progress env call.context call.state call.container.turns)
  else call.container.rulesLeft call.ancestor (call.outcome env)

/-- The compilation itself adds status rules for entities of the class. -/
def Decides (env : CompileEnv) (call : Call) (object : String) : Prop :=
  ∃ r ∈ call.ownRules env, r.purpose.isStatus = true ∧ r.entityType = some object

instance : Decidable (call.Kept env) :=
  inferInstanceAs (Decidable ((call.outcome env).isSpent = false))

instance {object : String} : Decidable (call.Decides env object) :=
  inferInstanceAs
    (Decidable
      (∃ r ∈ call.ownRules env, r.purpose.isStatus = true ∧ r.entityType = some object))

theorem nested_of_makes (makes : outer.Makes env inner) : outer.container.hasContainers = true := by
  cases makes with
  | part _ _ turn =>
      have listed := Container.mem_turns.mp turn.mem
      simp only [Container.parts] at listed
      split at listed
      · assumption
      · exact absurd listed List.not_mem_nil

/-- A section of sections that compiles has given all of its parts their turns. -/
theorem running_of_ok (new : call.container.id ∉ call.state.visited)
    (pure : call.container.mixedContent? = none) (nested : call.container.hasContainers = true)
    (succeeds : (call.outcome env).context = .ok out)
    : (call.container.progress env call.context call.state call.container.turns).failure = none
      ∧ out = (call.container.progress env call.context call.state call.container.turns).context
      ∧ (call.outcome env).state
        = (call.container.progress env call.context call.state
            call.container.turns).state.addRules (call.ownRules env) := by
  rcases call.container.compile_nested env call.context call.ancestor new pure nested with
    ⟨e, _, fails, _⟩ | ⟨running, context, state⟩
  · cases fails.symm.trans succeeds
  · refine ⟨running, Except.ok.inj (succeeds.symm.trans context), ?_⟩
    rw [ownRules, if_neg new, if_pos nested]
    exact state

theorem pure_of_ok (new : call.container.id ∉ call.state.visited)
    (succeeds : (call.outcome env).context = .ok out)
    : call.container.mixedContent? = none := by
  cases mixed : call.container.mixedContent? with
  | none => rfl
  | some content =>
      rw [outcome, Container.compile_of_mixed new mixed] at succeeds
      cases succeeds

theorem Makes.ok (makes : outer.Makes env inner) (succeeds : (outer.outcome env).context = .ok out)
    : ∃ found, (inner.outcome env).context = .ok found := by
  have nested := nested_of_makes makes
  cases makes with
  | part new pure turn => exact turn.ok (running_of_ok new pure nested succeeds).1

theorem Makes.unmet (makes : outer.Makes env inner)
    (unmet : Unmet outer.state outer.container.ids)
    : Unmet inner.state inner.container.ids := by
  cases makes with
  | part _ _ turn =>
      rw [Container.ids_eq] at unmet
      exact turn.unmet ((Unmet.cons_iff.mp unmet).2.perm outer.container.turns_ids_perm.symm)

/-- A section that compiles and is met for the first time has every part compiled. -/
theorem exists_makes (succeeds : (outer.outcome env).context = .ok out)
    (unmet : Unmet outer.state outer.container.ids) (listed : k ∈ outer.container.parts)
    : ∃ inner, outer.Makes env inner ∧ inner.container = k := by
  rw [Container.ids_eq] at unmet
  have new := (Unmet.cons_iff.mp unmet).1
  have pure := pure_of_ok new succeeds
  have nested : outer.container.hasContainers = true := by
    cases flat : outer.container.hasContainers with
    | true => rfl
    | false => simp [Container.parts, flat] at listed
  obtain ⟨q, turn⟩ :=
    Progress.exists_turn (running_of_ok new pure nested succeeds).1 (Container.mem_turns.mpr listed)
  exact ⟨_, .part new pure turn, rfl⟩

theorem Reaches.ok (reaches : call.Reaches env inner)
    (succeeds : (call.outcome env).context = .ok out)
    : ∃ found, (inner.outcome env).context = .ok found := by
  induction reaches with
  | refl => exact ⟨out, succeeds⟩
  | tail _ makes ih => exact makes.ok ih.choose_spec

theorem Reaches.unmet (reaches : call.Reaches env inner)
    (unmet : Unmet call.state call.container.ids)
    : Unmet inner.state inner.container.ids := by
  induction reaches with
  | refl => exact unmet
  | tail _ makes ih => exact makes.unmet ih

/-- Every section of a tree is compiled. -/
theorem exists_reaches (succeeds : (call.outcome env).context = .ok out)
    (unmet : Unmet call.state call.container.ids) (inside : k ∈ call.container.sections)
    : ∃ inner, call.Reaches env inner ∧ inner.container = k := by
  obtain ⟨c, context, ancestor, s⟩ := call
  induction c using Container.inductionOnParts generalizing context ancestor s out with
  | step c below =>
      rw [Container.sections_eq] at inside
      rcases List.mem_cons.mp inside with rfl | inside
      · exact ⟨_, .refl, rfl⟩
      obtain ⟨part, listed, inside⟩ := List.mem_flatMap.mp inside
      obtain ⟨⟨_, partContext, around, t⟩, makes, rfl⟩ := exists_makes succeeds unmet listed
      obtain ⟨found, compiled⟩ := makes.ok succeeds
      obtain ⟨inner, reaches, same⟩ :=
        below _ listed partContext around t compiled (makes.unmet unmet) inside
      exact ⟨inner, .head makes reaches, same⟩

/-! ### The rules that calls add -/

theorem not_makes_of_met (met : outer.container.id ∈ outer.state.visited)
    : ¬outer.Makes env inner := by
  rintro ⟨new, _, _⟩
  exact new met

/-- The rules after a compilation are those from before and those that its calls have added. -/
theorem mem_rules (r : Rule) (call : Call) (succeeds : (call.outcome env).context = .ok out)
    : r ∈ (call.outcome env).state.rules
      ↔ r ∈ call.state.rules ∨ ∃ inner, call.Reaches env inner ∧ r ∈ inner.ownRules env := by
  obtain ⟨c, context, ancestor, s⟩ := call
  induction c using Container.inductionOnParts generalizing context ancestor s out with
  | step c below =>
      -- A call that makes no further ones adds only what it adds itself.
      have alone (last : ∀ inner, ¬Makes env ⟨c, context, ancestor, s⟩ inner)
          : (∃ inner, Reaches env ⟨c, context, ancestor, s⟩ inner ∧ r ∈ inner.ownRules env)
            ↔ r ∈ ownRules env ⟨c, context, ancestor, s⟩ := by
        constructor
        · rintro ⟨inner, reaches, member⟩
          rcases Relation.ReflTransGen.cases_head reaches with rfl | ⟨_, makes, _⟩
          · exact member
          · exact absurd makes (last _)
        · exact fun member => ⟨_, .refl, member⟩
      by_cases met : c.id ∈ s.visited
      · rw [alone fun inner => not_makes_of_met met]
        simp only [outcome, ownRules, met, if_true, Container.compile_of_met met] at succeeds ⊢
        split at succeeds
        · cases succeeds
        · simp [CompileState.warn, *]
      cases nested : c.hasContainers with
      | false =>
          rw [alone fun inner makes => by cases nested.symm.trans (nested_of_makes makes)]
          rw [ownRules, if_neg met, if_neg (by simp [nested])]
          exact Container.mem_rules_of_flat met nested succeeds
      | true =>
          have pure := pure_of_ok met succeeds
          obtain ⟨running, _, state⟩ := running_of_ok met pure nested succeeds
          have turns :=
            Progress.mem_rules_after running fun k listed q found compiled =>
              below k (Container.mem_turns.mp listed) q.context (some c.path) q.state compiled
          rw [state, CompileState.addRules, SortedSet.mem_insertAll]
          simp only [Container.progress] at turns ⊢
          rw [turns]
          constructor
          · rintro (own | before | ⟨k, q, turn, inner, reaches, member⟩)
            · exact .inr ⟨_, .refl, own⟩
            · exact .inl before
            · exact .inr ⟨inner, .head (.part met pure turn) reaches, member⟩
          · rintro (before | ⟨inner, reaches, member⟩)
            · exact .inr (.inl before)
            rcases Relation.ReflTransGen.cases_head reaches with rfl | ⟨_, makes, reaches⟩
            · exact .inl member
            · obtain ⟨_, _, turn⟩ := makes
              exact .inr (.inr ⟨_, _, turn, inner, reaches, member⟩)

end Call

end ClauseRules
