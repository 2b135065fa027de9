import ClauseRules.Json.Reader
import ClauseRules.Record.Basic
import ClauseRules.Sorted.Map

/-! Files of clause records: groups by name, each with a list of records. Records without a command
are no steps.
-/

namespace ClauseRules

/-- The step of a record with the given command and parts. -/
def stepOfParts (command clause number : Option String) (noun : String)
    (keyword : Option String) : Option Step :=
  command.map fun command => ⟨clause.getD "", number.getD "", command, noun, keyword⟩

def readStep (v : Json) : Except Json.Error (Option Step) := do
  let r ← Source.fields "struct Record"
    ["_RCmd", "_Cl_Pncon", "_Rule_Number", "_RNounStr", "_RCmdStep"] v
  r.finish (stepOfParts <$> r.optionalScalar "_RCmd" <*> r.optionalScalar "_Cl_Pncon"
    <*> r.optionalScalar "_Rule_Number"
    <*> r.withDefault "_RNounStr" "" (fun w _ => Source.scalar w)
    <*> r.optionalScalar "_RCmdStep")

def readGroup (v : Json) : Except Json.Error (List Step) := do
  let r ← Source.fields "struct GroupEntry" ["record"] v
  (·.filterMap id) <$> r.finish (r.listOf "record" fun w _ => readStep w)

/-- Groups in the order of their names, of several with one name the last. -/
def groupsOfEntries (entries : List (String × List Step)) : List RecordGroup :=
  let groups := entries.foldl (fun m (name, steps) => m.insert name steps)
    (∅ : SortedMap String (List Step))
  groups.toList.map fun (name, steps) => ⟨name, steps⟩

def readGroups (v : Json) : Except Json.Error (List RecordGroup) :=
  groupsOfEntries <$> Json.readMap v fun w _ => readGroup w

/-- Reads a file of clause records. -/
def groupsOfText (text : String) : Except Json.Error (List RecordGroup) :=
  (Json.parse text).read readGroups

end ClauseRules
