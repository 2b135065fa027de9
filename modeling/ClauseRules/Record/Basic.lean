/-! Clause records: lists of steps, each of which tests one noun on behalf of a clause. -/

namespace ClauseRules

structure Step where
  /-- The clause that the step belongs to. -/
  clause : String
  /-- The number of the step within its clause. -/
  number : String
  command : String
  /-- What the command is about. -/
  noun : String
  /-- How the record goes on after the step. -/
  keyword : Option String
deriving DecidableEq, Repr, Inhabited

/-- A named sequence of steps. -/
structure RecordGroup where
  name : String
  steps : List Step
deriving DecidableEq, Repr, Inhabited

end ClauseRules
