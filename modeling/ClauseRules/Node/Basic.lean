import ClauseRules.Comparator
import ClauseRules.Node.Kind
import ClauseRules.Rule.Path
import ClauseRules.Warning

/-! The tree of a marked-up document. Its leaves are tags, each a test of one property; containers
group tags or further containers into sections.
-/

namespace ClauseRules

structure Tag where
  id : NodeId
  /-- Where the tag is cited. -/
  reference : String := ""
  kind : Kind
  /-- The name of the property as it was written. -/
  property : String
  /-- The comparator as it was written. -/
  rawComparator : Option String := none
  /-- The value to compare with, in lower case. -/
  value : String := "true"
  /-- The unit of the value, which may be empty. -/
  unit : String := ""
deriving DecidableEq, Repr

namespace Tag

/-- An empty value stands for `true`; any other counts in lower case. -/
def withValue (tag : Tag) (value : String) : Tag :=
  { tag with value := if value.isEmpty then "true" else Text.lower value }

def withComparator (tag : Tag) (comparator : String) : Tag :=
  { tag with rawComparator := some comparator }

def withUnit (tag : Tag) (unit : String) : Tag := { tag with unit }

def withReference (tag : Tag) (reference : String) : Tag := { tag with reference }

def comparator (tag : Tag) : Comparator := Comparator.parse tag.rawComparator

/-- The remarks on the comparator. -/
def warnings (tag : Tag) : List Warning :=
  match tag.comparator with
  | .unrecognised token => [.unrecognisedComparator tag.id.text token]
  | _ => []

end Tag

/-- A tag, or a section with its children. -/
inductive Node where
  | tag (tag : Tag)
  | container (id : NodeId) (reference : String) (kind : Kind) (children : List Node)
deriving Repr

/-- A section of a document. -/
structure Container where
  id : NodeId
  /-- Where the section is cited. -/
  reference : String := ""
  kind : Kind
  children : List Node := []
deriving Repr

namespace Node

def id : Node → NodeId
  | .tag t => t.id
  | .container id _ _ _ => id

def kind : Node → Kind
  | .tag t => t.kind
  | .container _ _ kind _ => kind

def tag? : Node → Option Tag
  | .tag t => some t
  | .container _ _ _ _ => none

def container? : Node → Option Container
  | .tag _ => none
  | .container id reference kind children => some ⟨id, reference, kind, children⟩

mutual

/-- The tags of a tree from left to right. -/
def tags : Node → List Tag
  | .tag t => [t]
  | .container _ _ _ children => tagsOfList children

def tagsOfList : List Node → List Tag
  | [] => []
  | node :: rest => tags node ++ tagsOfList rest

end

mutual

def same : Node → Node → Bool
  | .tag a, .tag b => a == b
  | .container i r k cs, .container j s l ds => i == j && r == s && k == l && sameLists cs ds
  | _, _ => false

def sameLists : List Node → List Node → Bool
  | [], [] => true
  | a :: as, b :: bs => same a b && sameLists as bs
  | _, _ => false

end

instance : BEq Node := ⟨same⟩

end Node

namespace Container

def toNode (c : Container) : Node := .container c.id c.reference c.kind c.children

/-- The path that rules about the section are named after. -/
def path (c : Container) : RulePath := RulePath.ofCitation c.reference c.id.text

def isEmpty (c : Container) : Bool := c.children.isEmpty

/-- The tags among the children. -/
def tags (c : Container) : List Tag := c.children.filterMap Node.tag?

/-- The sections among the children. -/
def containers (c : Container) : List Container := c.children.filterMap Node.container?

def hasTags (c : Container) : Bool := !c.tags.isEmpty

def hasContainers (c : Container) : Bool := !c.containers.isEmpty

/-- Whether tags and sections are kept apart. -/
def isHomogeneous (c : Container) : Bool := !(c.hasTags && c.hasContainers)

def ofKind (c : Container) (kind : Kind) : List Node := c.children.filter (·.kind == kind)

instance : BEq Container := ⟨fun a b => a.toNode == b.toNode⟩

end Container

end ClauseRules
