import ClauseRules.Node.Basic

/-! Sections that hold tags and sections side by side. A single tag next to sections is repaired: it
gets a section of its own, so that every section holds tags only or sections only. Several
tags next to sections cannot be repaired.
-/

namespace ClauseRules

/-- A section that holds several tags next to sections. -/
structure MixedContent where
  container : NodeId
  tags : Nat
deriving DecidableEq, Repr

def MixedContent.message (mixed : MixedContent) : String :=
  "container '" ++ mixed.container.text ++ "' mixes " ++ toString mixed.tags
    ++ " tags with nested sections"

namespace Tag

/-- The section that takes the place of a tag next to sections. Within it an application stays one,
so that it can still name an object class; anything else becomes its requirement. -/
def wrapper (tag : Tag) : Container where
  id := tag.id
  reference := tag.reference
  kind := tag.kind
  children := [.tag { tag with
    id := tag.id.suffixed "a"
    kind := if tag.kind == .application then .application else .requirement }]

end Tag

namespace Node

/-- A tag in a section of its own; a section as it is. -/
def wrapped : Node → Node
  | .tag t => t.wrapper.toNode
  | node => node

/-- What is wrong with the direct children of a section. -/
def mixedContent? (id : NodeId) (children : List Node) : Option MixedContent :=
  let tags := (children.filterMap tag?).length
  if 1 < tags && children.any (·.container?.isSome) then some ⟨id, tags⟩ else none

mutual

/-- The first section in a tree that cannot be repaired. -/
def violation? : Node → Option MixedContent
  | .tag _ => none
  | .container id _ _ children => (mixedContent? id children).or (violationIn? children)

def violationIn? : List Node → Option MixedContent
  | [] => none
  | node :: rest => (violation? node).or (violationIn? rest)

end

mutual

/-- Repairs every section of a tree until one cannot be repaired, whose problem comes with the tree
as it is then. -/
def normalTree : Node → Node × Option MixedContent
  | .tag t => (.tag t, none)
  | .container id reference kind children =>
      match mixedContent? id children with
      | some mixed => (.container id reference kind children, some mixed)
      | none =>
          let wrap := children.any (·.container?.isSome)
          let (children, problem) := normalTrees wrap children
          (.container id reference kind children, problem)

/-- Repairs the children of a section, tags too if `wrap` says so. -/
def normalTrees (wrap : Bool) : List Node → List Node × Option MixedContent
  | [] => ([], none)
  | .tag t :: rest =>
      let (rest, problem) := normalTrees wrap rest
      ((if wrap then wrapped (.tag t) else .tag t) :: rest, problem)
  | .container id reference kind children :: rest =>
      let (node, problem) := normalTree (.container id reference kind children)
      match problem with
      | some mixed => (node :: (if wrap then rest.map wrapped else rest), some mixed)
      | none =>
          let (rest, problem) := normalTrees wrap rest
          (node :: rest, problem)

end

end Node

namespace Container

/-- A section that cannot be repaired has several tags next to sections. -/
def mixedContent? (c : Container) : Option MixedContent := Node.mixedContent? c.id c.children

/-- Repairs the direct children. -/
def normal (c : Container) : Except MixedContent Container :=
  match c.mixedContent? with
  | some mixed => .error mixed
  | none =>
      .ok (if c.hasContainers then { c with children := c.children.map Node.wrapped } else c)

/-- Repairs the whole tree, or as much of it as can be. -/
def normalTree (c : Container) : Container × Option MixedContent :=
  let (node, problem) := c.toNode.normalTree
  ((node.container?).getD c, problem)

/-- The first section of the tree that cannot be repaired. -/
def violation? (c : Container) : Option MixedContent := c.toNode.violation?

end Container

end ClauseRules
