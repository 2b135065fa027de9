import ClauseRules.Compile
import ClauseRules.Proofs.Node.Sections
import ClauseRules.Proofs.Section.Operands

/-! What compilation makes of a section, as a derivation that follows the tree. Unlike the
program it does not pass a state along: every section names the rules that it adds and the object
class that it was compiled for.
-/

namespace ClauseRules

/-- What a section comes to: what is left of it, the object class that it declares, and its
rules.
-/
structure Yield where
  left : Container
  context : Option String
  rules : List Rule

/-- A section inside of another one, the object class that it was compiled for, and what it came
to.
-/
structure CompiledPart extends Yield where
  origin : Container
  entered : Option String

namespace CompiledPart

def kind (part : CompiledPart) : Kind := part.left.kind

/-- The section has only named an object class and is no condition. -/
def isSpent (part : CompiledPart) : Bool := part.kind == .application && part.left.isEmpty

/-- The object class for the sections after this one. -/
def passOn (part : CompiledPart) (context : Option String) : Option String :=
  if part.kind == .application then part.context else context

/-- The object class after some sections. -/
def contextAfter (context : Option String) (parts : List CompiledPart) : Option String :=
  parts.foldl (fun context part => part.passOn context) context

/-- Every section was compiled for the object class that those before it have led to. -/
def Entered (context : Option String) : List CompiledPart → Prop
  | [] => True
  | part :: rest => part.entered = context ∧ Entered (part.passOn context) rest

/-- The sections that are conditions. -/
def operands (parts : List CompiledPart) : List CompiledPart := parts.filter (!·.isSpent)

/-- The rules that carry the results of these sections over to another object class. -/
def transfers (path : RulePath) (object : String) (parts : List CompiledPart) : List Rule :=
  (operands parts).flatMap fun part =>
    if part.context == some object then []
    else transferRules path object part.left.id.text part.left.path

variable {context : Option String} {parts more : List CompiledPart}

theorem contextAfter_append
    : contextAfter context (parts ++ more) = contextAfter (contextAfter context parts) more :=
  List.foldl_append

theorem entered_append
    : Entered context (parts ++ more)
      ↔ Entered context parts ∧ Entered (contextAfter context parts) more := by
  induction parts generalizing context with
  | nil => simp [Entered, contextAfter]
  | cons part rest ih => simp [Entered, ih, contextAfter, and_assoc]

end CompiledPart

namespace Container

/-- A section of tags without the tag that names its object class. -/
def undeclared (c : Container) (vocabulary : Vocabulary) : Container :=
  match declaredObject? vocabulary c.children with
  | some (i, _) => { c with children := c.children.eraseIdx i }
  | none => c

/-- The object class of a section of tags inside of one with the given class. -/
def object (c : Container) (vocabulary : Vocabulary) (context : Option String)
    : Except ResolveError String :=
  (resolveContext vocabulary c.tags ((declaredObject? vocabulary c.children).map (·.2)) c.id
    context).1

/-- The rules about a section by itself, given what is left of it. -/
def ownRules (c : Container) (ancestor : Option RulePath) (object : String) (left : Container)
    : List Rule :=
  (Scope.mk c.path c.kind ancestor object).mainRules left.operands ++ aggregationRules c.path

end Container

/-- A section yields something when it is compiled below an ancestor for an object class. Sections
that were compiled before are passed over, if `repeats` allows for their ids.
-/
inductive Compiles (env : CompileEnv) (repeats : NodeId → Prop)
    : Option RulePath → Option String → Container → Yield → Prop
  | repeated {ancestor context c} (allowed : repeats c.id)
    : Compiles env repeats ancestor context c ⟨c, context, []⟩
  | empty {ancestor context c} (none : c.children = [])
    : Compiles env repeats ancestor context c ⟨c, context, []⟩
  | tags {ancestor context c} {object : String} (flat : c.hasContainers = false)
    (resolved : c.object env.vocabulary context = .ok object)
    : Compiles env repeats ancestor context c
      { left := c.undeclared env.vocabulary
        context := some object
        rules :=
          if (c.undeclared env.vocabulary).isEmpty then []
          else c.ownRules ancestor object (c.undeclared env.vocabulary) }
  | sections {ancestor context c object left} {parts : List CompiledPart}
    (nested : c.hasContainers = true)
    (origins : parts.map (·.origin) = c.parts)
    (entered : CompiledPart.Entered context (Kind.sort (·.kind) parts))
    (below
      : ∀ part ∈ parts,
          Compiles env repeats (some c.path) part.entered part.origin part.toYield)
    (resolved
      : (CompiledPart.contextAfter context (Kind.sort (·.kind) parts)).getD
          env.config.fallbackObject
        = object)
    (rest
      : { c with children := (CompiledPart.operands parts).map (·.left.toNode) } = left)
    : Compiles env repeats ancestor context c
      { left := left
        context := CompiledPart.contextAfter context (Kind.sort (·.kind) parts)
        rules :=
          parts.flatMap (·.rules) ++ c.ownRules ancestor object left
            ++ CompiledPart.transfers c.path object parts }

namespace Compiles

variable {env : CompileEnv} {repeats : NodeId → Prop} {ancestor : Option RulePath}
  {context : Option String} {c : Container} {y : Yield}

/-- What is left of a section is the same section. -/
theorem bare (compiles : Compiles env repeats ancestor context c y) : y.left.bare = c.bare := by
  cases compiles with
  | repeated | empty => rfl
  | tags =>
      simp only [Container.undeclared]
      split <;> rfl
  | sections _ _ _ _ _ rest => rw [← rest]; rfl

theorem kind_eq (compiles : Compiles env repeats ancestor context c y) : y.left.kind = c.kind :=
  Container.kind_of_bare compiles.bare

theorem id_eq (compiles : Compiles env repeats ancestor context c y) : y.left.id = c.id :=
  Container.id_of_bare compiles.bare

theorem path_eq (compiles : Compiles env repeats ancestor context c y) : y.left.path = c.path :=
  Container.path_of_bare compiles.bare

end Compiles

end ClauseRules
