import ClauseRules.Text.Blank

/-! Paths of files: steps parted by slashes. Empty steps and steps that stay where they are do not
count, except for a dot at the very start, so that several texts may stand for one path.
-/

namespace ClauseRules

structure FilePath where
  text : String
deriving DecidableEq, Repr, Inhabited

namespace FilePath

/-- A part of a path, from the start of the path to its end. -/
inductive Component where
  | root
  | current
  | parent
  | name (text : String)
deriving DecidableEq, Repr

namespace Component

def rank : Component → Nat
  | .root => 0
  | .current => 1
  | .parent => 2
  | .name _ => 3

def text : Component → String
  | .root => "/"
  | .current => "."
  | .parent => ".."
  | .name text => text

instance : Ord Component where
  compare a b := (compare a.rank b.rank).then (compare a.text b.text)

/-- The component that a step stands for when it is not the first one. -/
def ofStep? (step : String) : Option Component :=
  if step == "" || step == "." then none
  else if step == ".." then some .parent
  else some (.name step)

end Component

/-- The text between the slashes. -/
def steps (p : FilePath) : List String := (p.text.toList.splitOn '/').map String.ofList

def components (p : FilePath) : List Component :=
  match p.steps with
  | [] | [""] => []
  | "" :: rest => .root :: rest.filterMap Component.ofStep?
  | "." :: rest => .current :: rest.filterMap Component.ofStep?
  | steps => steps.filterMap Component.ofStep?

/-- Paths are ordered component by component. -/
instance : Ord FilePath where
  compare p q := List.compareLex compare p.components q.components

/-- The last step, if it is a name. -/
def fileName? (p : FilePath) : Option String :=
  match p.components.getLast? with
  | some (.name text) => some text
  | _ => none

/-- The parts of a name before and after its last dot. A dot at the start of a name is part of
it. -/
def splitName (name : List Char) : List Char × Option (List Char) :=
  let (after, rest) := name.reverse.span (· != '.')
  match rest with
  | [] | [_] => (name, none)
  | _ :: before => (before.reverse, some after.reverse)

def stem? (p : FilePath) : Option String :=
  p.fileName?.map fun name => String.ofList (splitName name.toList).1

def extension? (p : FilePath) : Option String :=
  p.fileName?.bind fun name => (splitName name.toList).2.map String.ofList

/-- The path without the slashes at its end, except for the first one of the root. -/
def withoutFinalSlashes (p : FilePath) : FilePath :=
  match Text.dropLastWhile (· == '/') p.text.toList with
  | [] => ⟨String.ofList (p.text.toList.take 1)⟩
  | cs => ⟨String.ofList cs⟩

/-- The path of an entry of a directory. -/
def child (p : FilePath) (name : String) : FilePath :=
  if p.text.isEmpty || p.text.endsWith "/" then ⟨p.text ++ name⟩ else ⟨p.text ++ "/" ++ name⟩

end FilePath

end ClauseRules
