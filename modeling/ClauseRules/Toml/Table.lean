import ClauseRules.Toml.Value

/-! Tables that are built up from keys and headers. No value is ever given twice, and each table
is defined in one place: below its header, by dotted keys, or in braces.
-/

namespace ClauseRules.Toml

/-- A table by its entries, the first of which was given first. -/
abbrev Entries := List (String × Toml)

namespace Entries

/-- Replaces the value of a key, or adds the key at the end. -/
def set (key : String) (value : Toml) : Entries → Entries
  | [] => [(key, value)]
  | (k, v) :: rest => if k == key then (key, value) :: rest else (k, v) :: set key value rest

/-- Adds a value under a dotted key, whose last part is `key`. Tables on the way are made where
there are none. Those that are there may have been passed on the way to a header, but the
table that takes the value has to be made by dotted keys alone. -/
def insertAt? (path : List String) (key : String) (value : Toml) (entries : Entries)
    : Option Entries :=
  match path with
  | [] => if (entries.lookup key).isSome then none else some (entries.set key value)
  | step :: path =>
      match entries.lookup step with
      | none => do
          let inner ← insertAt? path key value []
          return entries.set step (.table .dotted inner)
      | some (.table .dotted inner) => do
          let inner ← insertAt? path key value inner
          return entries.set step (.table .dotted inner)
      | some (.table .passed inner) =>
          if path.isEmpty then none
          else do
            let inner ← insertAt? path key value inner
            return entries.set step (.table .passed inner)
      | some (.tables elements) =>
          match path, elements.getLast? with
          | _ :: _, some last => do
              let last ← insertAt? path key value last
              return entries.set step (.tables (elements.dropLast ++ [last]))
          | _, _ => none
      | some _ => none

/-- Changes the table that the path of a header leads to. Tables on the way are made where there
are none. -/
def modifyAt? (path : List String) (change : Entries → Option Entries) (entries : Entries)
    : Option Entries :=
  match path with
  | [] => change entries
  | step :: path =>
      match entries.lookup step with
      | none => do
          let inner ← modifyAt? path change []
          return entries.set step (.table .passed inner)
      | some (.table origin inner) =>
          if origin == .braces then none
          else do
            let inner ← modifyAt? path change inner
            return entries.set step (.table origin inner)
      | some (.tables elements) => do
          let last ← modifyAt? path change (← elements.getLast?)
          return entries.set step (.tables (elements.dropLast ++ [last]))
      | some _ => none

/-- Starts the table of a header, which so far may only have been passed. -/
def openTable? (key : String) (entries : Entries) : Option Entries :=
  match entries.lookup key with
  | none => some (entries.set key (.table .header []))
  | some (.table .passed inner) => some (entries.set key (.table .header inner))
  | some _ => none

/-- Starts one more of the tables of a header that repeats. -/
def openElement? (key : String) (entries : Entries) : Option Entries :=
  match entries.lookup key with
  | none => some (entries.set key (.tables [[]]))
  | some (.tables elements) => some (entries.set key (.tables (elements ++ [[]])))
  | some _ => none

end Entries

/-- A line of a document that says something. -/
inductive Statement where
  | entry (path : List String) (key : String) (value : Toml)
  | header (path : List String) (key : String)
  /-- A header that may repeat. -/
  | elementHeader (path : List String) (key : String)

/-- The table of a document, and the path to the table that entries go to. -/
structure Assembly where
  root : Entries := []
  current : List String := []

namespace Assembly

def add? (a : Assembly) (statement : Statement) : Option Assembly :=
  match statement with
  | .entry path key value => do
      let root ← a.root.modifyAt? a.current (Entries.insertAt? path key value)
      return { a with root }
  | .header path key => do
      return ⟨← a.root.modifyAt? path (Entries.openTable? key), path ++ [key]⟩
  | .elementHeader path key => do
      return ⟨← a.root.modifyAt? path (Entries.openElement? key), path ++ [key]⟩

end Assembly

/-- The document that the statements make up. -/
def ofStatements? (statements : List Statement) : Option Toml := do
  let a ← statements.foldlM Assembly.add? {}
  return .table .header a.root

/-- A table in braces. -/
def ofEntries? (entries : List (List String × String × Toml)) : Option Toml := do
  let add := fun table (path, key, value) => Entries.insertAt? path key value table
  let entries ← entries.foldlM add []
  return .table .braces entries

end ClauseRules.Toml
