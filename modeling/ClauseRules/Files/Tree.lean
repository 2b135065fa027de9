import ClauseRules.Files.Store

/-! Files in memory. A path that starts with a slash leads on from the root, any other one from the
working directory. A directory is there if it was made, if something is below it, or if it is on the
way to the working directory.
-/

namespace ClauseRules

namespace FileTree

/-- The names of the directories on the way from the root to a file, and its own name. -/
abbrev Place := List String

/-- The working directory unless another one is given. -/
def home : Place := ["home"]

inductive Entry where
  | file (bytes : ByteArray)
  | directory

def Entry.isDirectory : Entry → Bool
  | .file _ => false
  | .directory => true

end FileTree

structure FileTree where
  entries : List (FileTree.Place × FileTree.Entry) := []
  /-- The working directory. -/
  directory : FileTree.Place := FileTree.home

namespace FileTree

def bytes? (t : FileTree) (place : Place) : Option ByteArray :=
  match t.entries.lookup place with
  | some (.file bytes) => some bytes
  | _ => none

/-- Whether the place is a directory: the working directory or one above it, one that was made on
its own, or one that holds something. -/
def isDirectory (t : FileTree) (place : Place) : Bool :=
  place.isPrefixOf t.directory || t.entries.any fun entry =>
    place.isPrefixOf entry.1 && (place.length < entry.1.length || entry.2.isDirectory)

/-- Puts a file or a directory at a place. -/
def put (t : FileTree) (place : Place) (entry : Entry) : FileTree :=
  { t with entries := t.entries.filter (·.1 != place) ++ [(place, entry)] }

/-- The place of a file in the usual working directory, by its name there. -/
def placeOf (name : FilePath) : Place :=
  home ++ name.components.filterMap fun
    | .name text => some text
    | _ => none

/-- Goes from directory to directory. Above the root there is the root again. -/
def follow (t : FileTree) (place : Place) : List String → Except WriteFault Place
  | [] => .ok place
  | step :: rest =>
      if !t.isDirectory place then
        .error (if (t.bytes? place).isSome then .notDirectory else .noSuchFile)
      else if step == "" || step == "." then t.follow place rest
      else if step == ".." then t.follow place.dropLast rest
      else t.follow (place ++ [step]) rest

/-- The place that a path leads to. -/
def locate (t : FileTree) (p : FilePath) : Except WriteFault Place :=
  match p.steps with
  | [] | [""] => .error .noSuchFile
  | "" :: steps => t.follow [] steps
  | steps => t.follow t.directory steps

def read? (t : FileTree) (p : FilePath) : Option String :=
  match t.locate p with
  | .ok place => (t.bytes? place).bind String.fromUTF8?
  | .error _ => none

/-- The files below a directory, by the names of the steps that lead there. -/
def below (t : FileTree) (place : Place) : List Place :=
  t.entries.filterMap fun (p, entry) =>
    if place.isPrefixOf p && place.length < p.length && !entry.isDirectory then
      some (p.drop place.length)
    else none

def filesAt (t : FileTree) (p : FilePath) : List FilePath :=
  match t.locate p with
  | .error _ => []
  | .ok place =>
      if (t.bytes? place).isSome then [p]
      else (t.below place).map fun names => names.foldl FilePath.child p

/-- The place at which a path asks for a file to be written. A slash at the end asks for a
directory. -/
def writePlace (t : FileTree) (p : FilePath) : Except WriteFault Place := do
  let place ← t.locate p.withoutFinalSlashes
  if p.text.endsWith "/" || t.isDirectory place then .error .isDirectory
  else return place

def write (t : FileTree) (p : FilePath) (text : String) : Except WriteFault FileTree := do
  let place ← t.writePlace p
  return t.put place (.file text.toUTF8)

/-- The files below the working directory that are new or have other contents than before, by their
names there. -/
def changes (before after : FileTree) : List (String × Option String) :=
  after.entries.filterMap fun (place, entry) =>
    match entry with
    | .directory => none
    | .file bytes =>
        if !after.directory.isPrefixOf place then none
        else if (before.bytes? place).any (·.data == bytes.data) then none
        else
          some ("/".intercalate (place.drop after.directory.length), String.fromUTF8? bytes)

instance : FileStore (StateM FileTree) where
  read? p := return (← get).read? p
  filesAt p := return (← get).filesAt p
  write p text := do
    match (← get).write p text with
    | .ok t => set t; return .ok ()
    | .error fault => return .error fault

end FileTree

end ClauseRules
