import ClauseRules.Json.Value

/-! TOML documents as trees of values. A table remembers how it came to be, because that decides
which keys and headers may still add to it.
-/

namespace ClauseRules

namespace Toml

/-- How a table came to be. -/
inductive Origin where
  /-- Written in braces. Nothing can be added to it. -/
  | braces
  /-- Written below a header of its own. -/
  | header
  /-- On the way to the table of a header, without a header of its own yet. -/
  | passed
  /-- On the way to the value of a dotted key. -/
  | dotted
deriving DecidableEq, Repr

end Toml

inductive Toml where
  | string (text : String)
  | boolean (value : Bool)
  | integer (value : Int)
  /-- A number with a point or an exponent. Infinities and what is no number have no value. -/
  | float (value : Option Binary64)
  /-- A date, a time of day or both, as it is written. -/
  | moment (text : String)
  | array (items : List Toml)
  | table (origin : Toml.Origin) (entries : List (String × Toml))
  /-- Tables below headers that repeat, the last one being open to further headers. -/
  | tables (elements : List (List (String × Toml)))
deriving Repr, Inhabited

namespace Toml

/-- An integer as a number of JSON. -/
def integerJson : Int → Json.Number
  | .ofNat n => .natural n
  | .negSucc n => .negative (n + 1)

mutual

/-- The same tree in JSON. A moment becomes an object, as it is not a text. -/
def toJson : Toml → Json
  | .string text => .string text
  | .boolean value => .bool value
  | .integer value => .number (integerJson value)
  | .float (some value) => .number (.float value)
  | .float none => .null
  | .moment text => Json.record [("moment", .string text)]
  | .array items => Json.list (listToJson items)
  | .table _ entries => Json.record (entriesToJson entries)
  | .tables elements => Json.list (elementsToJson elements)

def listToJson : List Toml → List Json
  | [] => []
  | v :: rest => toJson v :: listToJson rest

def entriesToJson : List (String × Toml) → List (String × Json)
  | [] => []
  | (key, v) :: rest => (key, toJson v) :: entriesToJson rest

def elementsToJson : List (List (String × Toml)) → List Json
  | [] => []
  | entries :: rest => Json.record (entriesToJson entries) :: elementsToJson rest

end

end Toml

end ClauseRules
