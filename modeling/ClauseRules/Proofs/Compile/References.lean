import ClauseRules.Proofs.Compile.Clauses
import ClauseRules.Proofs.Section.References
import ClauseRules.Proofs.Section.Verdict

/-! Whether the statuses that the rules of a tree ask for are set by some rule of it. A section has
rules that set them unless nothing but the name of its object class is in it, or it was passed over
because its id was met before.
-/

namespace ClauseRules

/-- Compiling the section gives no rules: it holds nothing, or nothing but the tag that declares its
object class.
-/
def Container.Silent (c : Container) (vocabulary : Vocabulary) : Prop :=
  c.hasContainers = false ∧ (c.undeclared vocabulary).isEmpty = true

variable {env : CompileEnv} {repeats : NodeId → Prop} {ancestor : Option RulePath}
  {context : Option String} {c left : Container} {y : Yield} {object : String} {r : Rule}
  {p : RulePath} {s : Status}

namespace Container

theorem silent_of_children {vocabulary : Vocabulary} (none : c.children = [])
    : c.Silent vocabulary := by
  have undeclared : declaredObject? vocabulary [] = Option.none := rfl
  simp [Silent, hasContainers, containers, Container.undeclared, none, undeclared, isEmpty]

/-- Rules that include a section's own set its statuses. -/
theorem decides_of_own {rules : List Rule} (ancestor : Option RulePath) (object : String)
    (left : Container) (own : ∀ r ∈ c.ownRules ancestor object left, r ∈ rules)
    : Decides { r | r ∈ rules } c.path := by
  have main
      : Decides { r | r ∈ (Scope.mk c.path c.kind ancestor object).mainRules left.operands }
          c.path :=
    Scope.mainRules_decides
  exact main.mono fun r member => own r (mem_ownRules.mpr (.inl member))

/-- An operand that is the result of a section is a section that was left. -/
theorem exists_of_nests (nests : left.operands.Nests p) : ∃ k ∈ left.containers, k.path = p := by
  obtain ⟨kind, member⟩ := nests
  obtain ⟨node, child, _, same⟩ := exists_of_mem_role member
  cases node with
  | tag t => cases same
  | container id reference kind children =>
      exact ⟨⟨id, reference, kind, children⟩, mem_containers.mpr child, Operand.nested.inj same⟩

/-- A section's own rules ask for its status or for that of the section around it, and for the
results of the sections that are left of it.
-/
theorem asks_ownRules (member : r ∈ c.ownRules ancestor object left) (asks : r.Asks p s)
    : p = c.path ∨ ancestor = some p ∧ s = .applicable ∨ ∃ k ∈ left.containers, k.path = p := by
  rcases mem_ownRules.mp member with main | summary
  · rcases Scope.asks_mainRules main asks with ⟨rfl, own | around⟩ | ⟨nests, _⟩
    · exact .inl own
    · exact .inr (.inl ⟨around, rfl⟩)
    · exact .inr (.inr (exists_of_nests nests))
  · exact .inl (asks_aggregationRules summary asks)

end Container

/-- What is to be said of a status that a rule of a tree asks for: a rule sets it, or it is the
status of the section around the tree or of a section without rules.
-/
inductive Answered (env : CompileEnv) (repeats : NodeId → Prop) (ancestor : Option RulePath)
    (c : Container) (rules : List Rule) (p : RulePath) (s : Status) : Prop
  | set {q} (member : q ∈ rules) (sets : q.Sets p s)
  | around (path : ancestor = some p) (applies : s = .applicable)
  | silent {k} (inside : k ∈ c.sections) (path : k.path = p) (silent : k.Silent env.vocabulary)
    (kind : k.kind ≠ .application)
  | repeated {k} (inside : k ∈ c.sections) (path : k.path = p) (allowed : repeats k.id)

namespace Answered

variable {rules more : List Rule}

theorem of_decides (decides : Decides { r | r ∈ rules } p) (either : s = .applicable ∨ s = .pass)
    : Answered env repeats ancestor c rules p s := by
  obtain ⟨q, member, sets⟩ := decides s either
  exact .set member sets

/-- What is answered in a part is answered in the whole, whose own rules set that it applies. -/
theorem of_part {k : Container} (answered : Answered env repeats (some c.path) k rules p s)
    (isPart : k ∈ c.parts) (subset : ∀ r ∈ rules, r ∈ more)
    (decides : Decides { r | r ∈ more } c.path)
    : Answered env repeats ancestor c more p s := by
  cases answered with
  | set member sets => exact .set (subset _ member) sets
  | around path applies =>
      obtain rfl := Option.some.inj path
      exact .of_decides decides (.inl applies)
  | silent inside path silent kind =>
      exact .silent (Container.mem_sections_of_part isPart inside) path silent kind
  | repeated inside path allowed =>
      exact .repeated (Container.mem_sections_of_part isPart inside) path allowed

end Answered

namespace Compiles

/-- A section was passed over, or nothing is left of it, or it has rules that set its statuses. -/
theorem decides (compiles : Compiles env repeats ancestor context c y)
    : repeats c.id ∨ c.Silent env.vocabulary ∧ y.left.isEmpty = true
      ∨ Decides { r | r ∈ y.rules } c.path := by
  cases compiles with
  | repeated allowed => exact .inl allowed
  | empty none =>
      exact .inr (.inl ⟨Container.silent_of_children none, by simp [Container.isEmpty, none]⟩)
  | @tags _ _ _ object flat resolved =>
      cases bare : (c.undeclared env.vocabulary).isEmpty with
      | true => exact .inr (.inl ⟨⟨flat, bare⟩, rfl⟩)
      | false => exact .inr (.inr (Container.decides_of_own ancestor object _ fun _ own => own))
  | @sections _ _ _ object left parts =>
      refine .inr (.inr (Container.decides_of_own ancestor object left fun r own => ?_))
      exact List.mem_append_left _ (List.mem_append_right _ own)

/-- The results of an operand are set by its own rules, unless it has none. -/
theorem answered_of_operand {part : CompiledPart}
    (compiles : Compiles env repeats ancestor part.entered part.origin part.toYield)
    (unspent : part.isSpent = false) (path : part.left.path = p)
    (either : s = .applicable ∨ s = .pass)
    : Answered env repeats ancestor part.origin part.rules p s := by
  rw [compiles.path_eq] at path
  rcases compiles.decides with passedOver | ⟨silent, empty⟩ | decides
  · exact .repeated part.origin.mem_sections_self path passedOver
  · refine .silent part.origin.mem_sections_self path silent fun application => ?_
    have kind : part.kind = .application := compiles.kind_eq.trans application
    simp [CompiledPart.isSpent, kind, empty] at unspent
  · exact .of_decides (path ▸ decides) either

/-- Every status that the rules of a tree ask for is answered. -/
theorem answered (compiles : Compiles env repeats ancestor context c y) (member : r ∈ y.rules)
    (asks : r.Asks p s) (either : s = .applicable ∨ s = .pass)
    : Answered env repeats ancestor c y.rules p s := by
  induction compiles with
  | repeated | empty => exact absurd member List.not_mem_nil
  | @tags ancestor context c object flat resolved =>
      simp only at member ⊢
      split at member
      · exact absurd member List.not_mem_nil
      · rename_i occupied
        rw [if_neg occupied]
        rcases Container.asks_ownRules member asks with rfl | ⟨around, applies⟩ | ⟨k, nested, _⟩
        · exact .of_decides (Container.decides_of_own ancestor object _ fun _ own => own) either
        · exact .around around applies
        · rw [Container.containers_of_flat (c.undeclared_flat flat)] at nested
          exact absurd nested List.not_mem_nil
  | @sections ancestor context c object left parts nested origins entered below resolved rest ih =>
      simp only at member ⊢
      -- What answers need not be in the share of the list that the rule is in.
      generalize all
        : parts.flatMap (·.rules) ++ c.ownRules ancestor object left
            ++ CompiledPart.transfers c.path object parts
          = rules
        at member ⊢
      have own : Decides { r | r ∈ rules } c.path := by
        refine Container.decides_of_own ancestor object left fun r own => ?_
        simp only [← all, List.mem_append]
        exact .inl (.inr own)
      have ofPart {part : CompiledPart} (listed : part ∈ parts)
          (answered : Answered env repeats (some c.path) part.origin part.rules p s)
          : Answered env repeats ancestor c rules p s := by
        refine answered.of_part (origins ▸ List.mem_map_of_mem listed) (fun r inPart => ?_) own
        simp only [← all, List.mem_append]
        exact .inl (.inl (List.mem_flatMap.mpr ⟨part, listed, inPart⟩))
      simp only [← all, List.mem_append, List.mem_flatMap, CompiledPart.mem_transfers] at member
      rcases member with (⟨part, listed, inPart⟩ | inOwn) | ⟨part, listed, unspent, _, transfer⟩
      · exact ofPart listed (ih part listed inPart)
      · rcases Container.asks_ownRules inOwn asks with rfl | ⟨around, applies⟩ | ⟨k, isLeft, path⟩
        · exact .of_decides own either
        · exact .around around applies
        · rw [containers_left rest] at isLeft
          obtain ⟨part, isOperand, rfl⟩ := List.mem_map.mp isLeft
          obtain ⟨listed, unspent⟩ := CompiledPart.mem_operands.mp isOperand
          exact ofPart listed (answered_of_operand (below part listed) unspent path either)
      · have path := (asks_transferRules transfer asks).symm
        exact ofPart listed (answered_of_operand (below part listed) unspent path either)

end Compiles

end ClauseRules
