import ClauseRules.Text.Blank
import ClauseRules.Text.Case

/-! Ids and kinds of nodes. -/

namespace ClauseRules

/-- The id of a node, which is never empty. -/
structure NodeId where
  text : String
  ne_empty : text ≠ "" := by decide
deriving DecidableEq, Repr

namespace NodeId

def ofText? (text : String) : Option NodeId :=
  if h : text = "" then none else some ⟨text, h⟩

instance : Ord NodeId where
  compare a b := compare a.text b.text

/-- The id of a node made from this one. -/
def suffixed (id : NodeId) (suffix : String) : NodeId where
  text := id.text ++ suffix
  ne_empty h := id.ne_empty (by
    have h := congrArg String.toList h
    rw [String.toList_append] at h
    exact String.toList_inj.mp (List.append_eq_nil_iff.mp h).1)

end NodeId

/-- The part that a tag or section plays in a clause. -/
inductive Kind where
  /-- Something the entity has to satisfy. -/
  | requirement
  /-- A condition on which the clause applies. -/
  | application
  /-- One of several alternatives on which the clause applies. -/
  | selection
  /-- A condition on which the clause does not apply. -/
  | exception
deriving DecidableEq, Repr, Inhabited

namespace Kind

def name : Kind → String
  | .requirement => "Requirement"
  | .application => "Application"
  | .selection => "Selection"
  | .exception => "Exception"

/-- Drops an ending, if the text has it. -/
def dropEnding (ending cs : List Char) : List Char :=
  if ending.isSuffixOf cs then cs.take (cs.length - ending.length) else cs

/-- Reads the name of a kind, or of a section of that kind, in any letter case. -/
def ofText? (text : String) : Option Kind :=
  let lower := (Text.trimChars text.toList).map Char.toLower
  match String.ofList (dropEnding "section".toList lower) with
  | "requirement" => some .requirement
  | "application" => some .application
  | "selection" => some .selection
  | "exception" => some .exception
  | _ => none

end Kind

/-- Why the id and kind of a node are refused. -/
inductive NodeError where
  | emptyId
  | unknownKind (text : String)
deriving DecidableEq, Repr

namespace NodeError

def message : NodeError → String
  | .emptyId => "node ids must not be empty"
  | .unknownKind text =>
      "unknown RASE kind '" ++ text
        ++ "': expected requirement, application, selection or exception"

end NodeError

def NodeId.ofText (text : String) : Except NodeError NodeId :=
  match NodeId.ofText? text with
  | some id => .ok id
  | none => .error .emptyId

def Kind.ofText (text : String) : Except NodeError Kind :=
  match Kind.ofText? text with
  | some kind => .ok kind
  | none => .error (.unknownKind text)

end ClauseRules
