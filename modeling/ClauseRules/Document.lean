import ClauseRules.Node.Normal

/-! A whole document: its sections, and those made from its tables. -/

namespace ClauseRules

structure Document where
  /-- What identifies the document, such as `GB/Regulation/B/2019/1`. -/
  base : String
  /-- The nodes at the top of the body. -/
  items : List Node
  /-- The sections made from tables. -/
  tables : List Container
deriving Repr

/-- Why a document cannot be compiled as a whole. -/
inductive RootError where
  | tagAtRoot (tag : NodeId)
  | notRequirement (container : NodeId) (kind : Kind)
  | mixedContent (mixed : MixedContent)
deriving DecidableEq, Repr

namespace RootError

def message : RootError → String
  | .tagAtRoot tag => "tag '" ++ tag.text ++ "' is not inside any section"
  | .notRequirement container kind =>
      "top-level section '" ++ container.text ++ "' has kind " ++ kind.name
        ++ ", expected Requirement"
  | .mixedContent mixed => mixed.message

end RootError

/-- What keeps a node from standing at the top of a body. -/
def Node.rootErrors (node : Node) : List RootError :=
  match node with
  | .tag t => [.tagAtRoot t.id]
  | .container id _ kind _ =>
      (if kind == .requirement then [] else [.notRequirement id kind])
        ++ node.violation?.toList.map .mixedContent

namespace Document

/-- The path that rules about the document are named after. -/
def path (document : Document) : RulePath := RulePath.ofText document.base

/-- The sections at the top, those of the body first. -/
def sections (document : Document) : List Container :=
  document.items.filterMap Node.container? ++ document.tables

def nodes (document : Document) : List Node :=
  document.items ++ document.tables.map Container.toNode

/-- Everything that keeps the document from being compiled, in the order of the document. -/
def violations (document : Document) : List RootError :=
  document.items.flatMap Node.rootErrors
    ++ document.tables.flatMap fun table => table.violation?.toList.map .mixedContent

end Document

end ClauseRules
