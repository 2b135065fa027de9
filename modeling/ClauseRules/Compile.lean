import ClauseRules.Config
import ClauseRules.Context
import ClauseRules.Document
import ClauseRules.Rule.Set
import ClauseRules.Section

/-! Compiling documents into rules. Children are compiled before the section that holds them,
because the object class of a section follows from theirs: applications come first and narrow
it for everything after them. What a section was while it was compiled, repaired and without the
parts that only named an object class, is part of the outcome.
-/

namespace ClauseRules

/-- Why a compilation ends without rules. -/
inductive CompileError where
  | mixedContent (mixed : MixedContent)
  | resolve (error : ResolveError)
  | duplicateNode (id : NodeId)
  | invalidRoot (error : RootError)
  | unknownCommand (step command : String)
deriving DecidableEq, Repr

namespace CompileError

def message : CompileError → String
  | .mixedContent mixed => mixed.message
  | .resolve error => error.message
  | .duplicateNode id => "node '" ++ id.text ++ "' appears more than once in the document"
  | .invalidRoot error => "invalid document root: " ++ error.message
  | .unknownCommand step command => "unknown command '" ++ command ++ "' in step '" ++ step ++ "'"

/-- The messages of the error and of what lies behind it. -/
def chain (error : CompileError) : List String :=
  error.message ::
    match error with
    | .invalidRoot root => [root.message]
    | _ => []

end CompileError

/-- What a compilation has come to. -/
structure CompileState where
  visited : SortedSet NodeId := ∅
  rules : RuleSet := ∅
  warnings : List Warning := []
deriving Repr

namespace CompileState

def addRules (s : CompileState) (rules : List Rule) : CompileState :=
  { s with rules := s.rules.insertAll rules }

def warn (s : CompileState) (warnings : List Warning) : CompileState :=
  { s with warnings := s.warnings ++ warnings }

def visit (s : CompileState) (id : NodeId) : CompileState :=
  { s with visited := s.visited.insert id }

end CompileState

/-- What stays the same throughout a compilation. -/
structure CompileEnv where
  vocabulary : Vocabulary
  config : Config

/-- The outcome for a section: what has become of it, the state, and the section's object class. -/
structure Compiled where
  container : Container
  state : CompileState
  context : Except CompileError (Option String)
deriving Repr

/-- Compiles a section for the object class and the path of the enclosing one. -/
abbrev SectionCompiler := Option String → Option RulePath → CompileState → Compiled

/-- A section inside of another one, and how it is compiled. -/
structure Child where
  container : Container
  compile : SectionCompiler

/-! ### Sections of tags -/

/-- The last application among the children that names an object class: its place and the class. -/
def declaredObject? (vocabulary : Vocabulary) (children : List Node) : Option (Nat × String) :=
  (children.zipIdx.filterMap fun (child, i) =>
    child.tag?.bind fun tag =>
      if tag.kind == .application && vocabulary.isObject tag.property
      then some (i, objectKey tag.property) else none).getLast?

/-- Compiles a section of tags. The tag that names its object class is no condition. -/
def compileLeaf (env : CompileEnv) (c : Container) : SectionCompiler :=
  fun parentContext ancestor s =>
    let declared := declaredObject? env.vocabulary c.children
    let (context, warnings) :=
      resolveContext env.vocabulary c.tags (declared.map (·.2)) c.id parentContext
    let s := s.warn warnings
    match context with
    | .error e => ⟨c, s, .error (.resolve e)⟩
    | .ok context =>
        let c :=
          match declared with
          | some (i, _) => { c with children := c.children.eraseIdx i }
          | none => c
        if c.isEmpty then ⟨c, s, .ok (some context)⟩
        else
          let scope : Scope := ⟨c.path, c.kind, ancestor, context⟩
          let s := (s.warn (c.tags.flatMap Tag.warnings)).addRules
            (scope.mainRules (Operands.ofTags c.tags) ++ aggregationRules c.path)
          ⟨c, s, .ok (some context)⟩

/-! ### Sections of sections -/

/-- What the children compiled so far have come to. -/
structure Progress where
  state : CompileState
  /-- The object class for the children to come. -/
  context : Option String
  operands : Operands := {}
  /-- The children that are operands, with their paths and object classes. -/
  results : List (NodeId × RulePath × Option String) := []
  failure : Option CompileError := none

namespace Progress

/-- Takes over the outcome for a child. The object class of an application is that of all children
after it; an application with nothing left in it is no operand. -/
def add (p : Progress) (compiled : Compiled) : Progress :=
  let c := compiled.container
  let p := { p with state := compiled.state }
  match compiled.context with
  | .error e => { p with failure := some e }
  | .ok context =>
      let p := if c.kind == .application then { p with context := context } else p
      if c.kind == .application && c.isEmpty then p
      else
        { p with
          operands := p.operands.add c.kind (.ofContainer c)
          results := p.results ++ [(c.id, c.path, context)] }

end Progress

/-- Compiles the children of one kind, up to the first that fails, and leaves the others alone. -/
def compileKind (path : RulePath) (kind : Kind) (p : Progress)
    : List Child → Progress × List Child
  | [] => (p, [])
  | child :: rest =>
      if child.container.kind == kind && p.failure.isNone then
        let compiled := child.compile p.context (some path) p.state
        let (p, rest) := compileKind path kind (p.add compiled) rest
        (p, { child with container := compiled.container } :: rest)
      else
        let (p, rest) := compileKind path kind p rest
        (p, child :: rest)

/-- An application with nothing left in it has served its purpose. -/
def Child.isSpent (child : Child) : Bool :=
  child.container.kind == .application && child.container.isEmpty

/-- Compiles all children, kind by kind. -/
def compileKinds (path : RulePath) (p : Progress) (children : List Child)
    : Progress × List Child :=
  let (p, children) := compileKind path .application p children
  let children := if p.failure.isNone then children.filter (!·.isSpent) else children
  let (p, children) := compileKind path .selection p children
  let (p, children) := compileKind path .exception p children
  compileKind path .requirement p children

/-- Compiles a section of sections. -/
def compileSections (env : CompileEnv) (c : Container) (children : List Child)
    : SectionCompiler :=
  fun parentContext ancestor s =>
    let path := c.path
    let (p, children) := compileKinds path { state := s, context := parentContext } children
    let c := { c with children := children.map (·.container.toNode) }
    match p.failure with
    | some e => ⟨c, p.state, .error e⟩
    | none =>
        let entityType := p.context.getD env.config.fallbackObject
        let scope : Scope := ⟨path, c.kind, ancestor, entityType⟩
        let transfers := p.results.flatMap fun (id, child, context) =>
          if context == some entityType then [] else transferRules path entityType id.text child
        let s := p.state.addRules
          (scope.mainRules p.operands ++ transfers ++ aggregationRules path)
        ⟨c, s, .ok p.context⟩

/-! ### All sections -/

/-- Compiles a section whose children, if it holds sections, are compiled as given. A section that
was compiled before is passed over or refused. -/
def compileSection (env : CompileEnv) (c : Container) (children : List Child)
    : SectionCompiler :=
  fun parentContext ancestor s =>
    if s.visited.contains c.id then
      if env.config.rejectDuplicateNodes then ⟨c, s, .error (.duplicateNode c.id)⟩
      else ⟨c, s.warn [.duplicateNode c.id.text], .ok parentContext⟩
    else
      let s := s.visit c.id
      match c.mixedContent? with
      | some mixed => ⟨c, s, .error (.mixedContent mixed)⟩
      | none =>
          if c.hasContainers then compileSections env c children parentContext ancestor s
          else if c.hasTags then compileLeaf env c parentContext ancestor s
          else ⟨c, s, .ok parentContext⟩

namespace Node

mutual

/-- A node as a child of a section that holds sections: a tag counts as a section of its own. -/
def child (env : CompileEnv) : Node → Child
  | .tag t => ⟨t.wrapper, compileSection env t.wrapper []⟩
  | .container id reference kind children =>
      let c : Container := ⟨id, reference, kind, children⟩
      ⟨c, compileSection env c (childList env children)⟩

def childList (env : CompileEnv) : List Node → List Child
  | [] => []
  | node :: rest => child env node :: childList env rest

end

end Node

namespace Container

def compile (c : Container) (env : CompileEnv) : SectionCompiler :=
  compileSection env c (Node.childList env c.children)

end Container

/-- Compiles sections one after the other, up to the first that fails, and gives the paths of
those before. -/
def compileAll (env : CompileEnv) (s : CompileState)
    : List Container → CompileState × Except CompileError (List RulePath)
  | [] => (s, .ok [])
  | c :: rest =>
      let compiled := c.compile env none none s
      match compiled.context with
      | .error e => (compiled.state, .error e)
      | .ok _ =>
          let (s, paths) := compileAll env compiled.state rest
          (s, (c.path :: ·) <$> paths)

namespace Document

/-- Compiles a document; the remarks made on the way come with its rules or the problem. -/
def compile (document : Document) (env : CompileEnv)
    : Except CompileError RuleSet × List Warning :=
  match document.violations with
  | error :: _ => (.error (.invalidRoot error), [])
  | [] =>
      let (s, paths) := compileAll env {} document.sections
      let rules := do
        let paths ← paths
        if paths.isEmpty then return s.rules
        else return s.rules.insertAll (documentRules document.path paths)
      (rules, s.warnings)

end Document

end ClauseRules
