import ClauseRules.Text.Blank

/-! Comparators of property tests. Authors write them as operators, as markup entities or
with ampersands escaped once more; all of these are folded onto one symbol each. A token that
is none of them is kept and passed on as it is.
-/

namespace ClauseRules

inductive Comparator where
  | equal
  | lessOrEqual
  | less
  | greater
  | greaterOrEqual
  | includes
  | excludes
  /-- A token the evaluator does not know. -/
  | unrecognised (token : String)
deriving DecidableEq, Repr, Inhabited

namespace Comparator

/-- Replaces every occurrence of `old`, met from left to right, by an ampersand. `skip` counts the
characters of an occurrence that are still to be dropped. -/
def replaceByAmpersand (old : List Char) : (skip : Nat) → List Char → List Char
  | _, [] => []
  | skip + 1, _ :: rest => replaceByAmpersand old skip rest
  | 0, c :: rest =>
      if old.isPrefixOf (c :: rest) then '&' :: replaceByAmpersand old (old.length - 1) rest
      else c :: replaceByAmpersand old 0 rest

/-- Undoes the two ways in which markup escapes an ampersand, the plus form first. -/
def unescape (cs : List Char) : List Char :=
  replaceByAmpersand "&amp;".toList 0 (replaceByAmpersand "+amp;".toList 0 cs)

/-- The comparator that an unescaped token spells. -/
def ofToken (token : String) : Comparator :=
  if ["", "null", "=", "==", "&gt;&lt;"].contains token then .equal
  else if ["&le;", "&lt;=", "<="].contains token then .lessOrEqual
  else if ["&lt;", "<"].contains token then .less
  else if ["&gt;", ">"].contains token then .greater
  else if ["&ge;", "&gt;=", ">="].contains token then .greaterOrEqual
  else if token == "includes" then .includes
  else if token == "excludes" then .excludes
  else .unrecognised token

/-- The comparator of a tag; a tag without one tests for equality. -/
def parse : Option String → Comparator
  | none => .equal
  | some raw => ofToken (String.ofList (unescape (Text.trimChars raw.toList)))

def isRecognised : Comparator → Bool
  | .unrecognised _ => false
  | _ => true

/-- The operator as it stands in rules. -/
def symbol : Comparator → String
  | .equal => "=="
  | .lessOrEqual => "<="
  | .less => "<"
  | .greater => ">"
  | .greaterOrEqual => ">="
  | .includes => "includes"
  | .excludes => "excludes"
  | .unrecognised token => token

/-- The place of a comparator among the kinds of comparators. -/
def rank : Comparator → Nat
  | .equal => 0
  | .lessOrEqual => 1
  | .less => 2
  | .greater => 3
  | .greaterOrEqual => 4
  | .includes => 5
  | .excludes => 6
  | .unrecognised _ => 7

/-- Comparators are ordered by kind, unrecognised ones among themselves by their token. -/
instance : Ord Comparator where
  compare
    | .unrecognised s, .unrecognised t => compare s t
    | a, b => compare a.rank b.rank

end Comparator

end ClauseRules
