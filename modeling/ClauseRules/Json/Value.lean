import ClauseRules.Decimal.Binary64
import ClauseRules.Decimal.Width

/-! JSON texts as far as they can be read. A text that stops being JSON halfway still has a
tree: the tree holds everything before that point and, there, the fault. A reader that walks
the tree from left to right meets the problems of the text in the order of the text, so that
a value of the wrong shape is reported before a later fault.
-/

namespace ClauseRules

namespace Json

/-- A number of JSON text: an integer of up to 64 bits, or a double. -/
inductive Number where
  | natural (value : Nat)
  /-- The number `-magnitude`, for a magnitude other than zero. -/
  | negative (magnitude : Nat)
  | float (value : Binary64)
deriving DecidableEq, Repr

/-- Why a text cannot be read on. -/
inductive Fault where
  /-- A character that cannot stand there. -/
  | malformed
  /-- The text ends where more is due. -/
  | truncated
  /-- The text ends inside of `null`, `true` or `false`. -/
  | cutLiteral
  /-- The text ends inside of a number. -/
  | cutNumber
deriving DecidableEq, Repr

/-- What a reader found in place of the value that it expected. -/
inductive Found where
  | null
  | bool (value : Bool)
  | number (value : Number)
  | string (text : String)
  | sequence
  | map
  /-- The bare name of a variant. -/
  | unitVariant
deriving DecidableEq, Repr

/-- What ends the fields of an object that is not closed. -/
inductive Stop where
  /-- A fault where a comma or the closing brace was due. -/
  | atSeparator (fault : Fault)
  /-- A fault where the name of a field was due. -/
  | atName (fault : Fault)
  /-- A value other than a string where the name of a field was due. -/
  | unnamed (found : Found)
deriving DecidableEq, Repr

end Json

/-- A JSON text as far as it can be read. -/
inductive Json where
  | null
  | bool (value : Bool)
  | number (value : Json.Number)
  | string (text : String)
  /-- An array. `stop` is the fault met where a comma or the closing bracket was due. -/
  | array (items : List Json) (stop : Option Json.Fault)
  /-- An object, names repeating as they do in the text. -/
  | object (fields : List (String × Json)) (stop : Option Json.Stop)
  /-- A value that can be passed over but not read: a string with half of a surrogate pair, a
  number out of range, or a value nested too deeply. `within` is the fault met when passing
  over it. -/
  | unreadable (within : Option Json.Fault)
  /-- The point where the text stops being JSON. -/
  | broken (fault : Json.Fault)
deriving Repr, Inhabited

namespace Json

def list (items : List Json) : Json := .array items none

def record (fields : List (String × Json)) : Json := .object fields none

def ofNat (n : Nat) : Json := .number (.natural n)

def Stop.fault : Stop → Fault
  | .atSeparator f => f
  | .atName f => f
  | .unnamed _ => .malformed

/-- The fault of a number that was cut off counts as a malformed number when nobody reads it. -/
def Fault.passing : Fault → Fault
  | .cutNumber => .malformed
  | f => f

mutual

/-- The first fault met when passing over a value without reading it. -/
def passingFault : Json → Option Fault
  | .array items stop => (passingFaultList items).or stop
  | .object fields stop => (passingFaultFields fields).or (stop.map Stop.fault)
  | .unreadable within => within
  | .broken f => some f.passing
  | .null | .bool _ | .number _ | .string _ => none

def passingFaultList : List Json → Option Fault
  | [] => none
  | v :: rest => (passingFault v).or (passingFaultList rest)

def passingFaultFields : List (String × Json) → Option Fault
  | [] => none
  | (_, v) :: rest => (passingFault v).or (passingFaultFields rest)

end

mutual

/-- The first fault met when reading a value in full. -/
def readingFault : Json → Option Fault
  | .array items stop => (readingFaultList items).or stop
  | .object fields stop => (readingFaultFields fields).or (stop.map Stop.fault)
  | .unreadable _ => some .malformed
  | .broken f => some f
  | .null | .bool _ | .number _ | .string _ => none

def readingFaultList : List Json → Option Fault
  | [] => none
  | v :: rest => (readingFault v).or (readingFaultList rest)

def readingFaultFields : List (String × Json) → Option Fault
  | [] => none
  | (_, v) :: rest => (readingFault v).or (readingFaultFields rest)

end

end Json

end ClauseRules
