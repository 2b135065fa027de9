import ClauseRules.Dictionary.Basic
import ClauseRules.Node.Basic

/-! The object class that a group of tags applies to. Every tag narrows the classes that could own
all properties of the group; a tag that names a class adds it. Of several classes left, that of
the enclosing section is preferred and then the one that the group declares.
-/

namespace ClauseRules

/-- Why a group of tags has no object class. -/
inductive ResolveError where
  | unknownProperty (tag : NodeId) (property : String)
  /-- The declared class does not own the property. -/
  | inconsistentObject (tag : NodeId) (property object : String)
  /-- No class owns every property. -/
  | noViableParent (container : NodeId)
  /-- Several classes remain and none is preferred. -/
  | ambiguousParent (container : NodeId) (candidates : SortedSet String)
deriving DecidableEq, Repr

namespace ResolveError

def message : ResolveError → String
  | .unknownProperty tag property =>
      "property '" ++ property ++ "' (tag '" ++ tag.text ++ "') is not in the dictionary"
  | .inconsistentObject tag property object =>
      "property '" ++ property ++ "' (tag '" ++ tag.text
        ++ "') does not belong to the declared object '" ++ object ++ "'"
  | .noViableParent container => "no object class owns every property of '" ++ container.text ++ "'"
  | .ambiguousParent container candidates =>
      "'" ++ container.text ++ "' could apply to any of " ++ ", ".intercalate candidates.toList

end ResolveError

/-- The classes that own the property of a tag; a declared class has to be one of them. -/
def Vocabulary.classesOf (vocabulary : Vocabulary) (declared : Option String) (tag : Tag)
    : Except ResolveError (SortedSet String) :=
  let classes := vocabulary.owners tag.property
  if classes.isEmpty then .error (.unknownProperty tag.id tag.property)
  else
    match declared with
    | some object =>
        if classes.contains object then .ok classes
        else .error (.inconsistentObject tag.id tag.property object)
    | none => .ok classes

/-- Narrows the candidates by one tag after the other. There are none before the first tag. Remarks
on tags that leave no candidate come with the outcome. -/
def narrow (vocabulary : Vocabulary) (declared : Option String) (container : NodeId)
    (candidates : Option (SortedSet String))
    : List Tag → Except ResolveError (Option (SortedSet String)) × List Warning
  | [] => (.ok candidates, [])
  | tag :: rest =>
      if vocabulary.isObject tag.property then
        narrow vocabulary declared container
          (some ((candidates.getD ∅).insert (objectKey tag.property))) rest
      else
        match vocabulary.classesOf declared tag, candidates with
        | .error e, _ => (.error e, [])
        | .ok classes, none => narrow vocabulary declared container (some classes) rest
        | .ok classes, some before =>
            let narrowed := before.inter classes
            let (outcome, warnings) := narrow vocabulary declared container (some narrowed) rest
            if narrowed.isEmpty then
              (outcome, .noSharedClass container.text tag.id.text tag.property :: warnings)
            else (outcome, warnings)

/-- The class that a section applies to: the only candidate, or of several the first preferred
one among them. -/
def choose (container : NodeId) (preferred : List String) (candidates : SortedSet String)
    : Except ResolveError String :=
  match candidates.toList with
  | [] => .error (.noViableParent container)
  | [candidate] => .ok candidate
  | _ =>
      match preferred.find? candidates.contains with
      | some object => .ok object
      | none => .error (.ambiguousParent container candidates)

/-- The object class of a group of tags, with the remarks made on the way. -/
def resolveContext (vocabulary : Vocabulary) (tags : List Tag) (declared : Option String)
    (container : NodeId) (ancestor : Option String)
    : Except ResolveError String × List Warning :=
  let declared := declared.map Text.lower
  let ancestor := ancestor.map Text.lower
  let (outcome, warnings) := narrow vocabulary declared container none tags
  let chosen := do
    let candidates ← outcome
    choose container (ancestor.toList ++ declared.toList) (candidates.getD ∅)
  (chosen, warnings)

end ClauseRules
