/-! Finite maps kept as a list of entries with strictly increasing keys. -/

namespace ClauseRules

/-- A map whose entries stand in increasing order of their keys. -/
structure SortedMap (κ α : Type) where
  toList : List (κ × α)
deriving DecidableEq, Repr, Inhabited

namespace SortedMap

variable {κ α : Type}

def empty : SortedMap κ α := ⟨[]⟩

instance : EmptyCollection (SortedMap κ α) := ⟨empty⟩

def keys (m : SortedMap κ α) : List κ := m.toList.map (·.1)

def values (m : SortedMap κ α) : List α := m.toList.map (·.2)

def size (m : SortedMap κ α) : Nat := m.toList.length

variable [Ord κ]

/-- Replaces the value at `k` in an increasing list by what `f` makes of the value found, if
any. -/
def alterIn (k : κ) (f : Option α → α) : List (κ × α) → List (κ × α)
  | [] => [(k, f none)]
  | (k', a) :: rest =>
      match compare k k' with
      | .lt => (k, f none) :: (k', a) :: rest
      | .eq => (k', f (some a)) :: rest
      | .gt => (k', a) :: alterIn k f rest

def alter (k : κ) (f : Option α → α) (m : SortedMap κ α) : SortedMap κ α :=
  ⟨alterIn k f m.toList⟩

/-- Sets the value at `k`, replacing any value it had. -/
def insert (k : κ) (a : α) (m : SortedMap κ α) : SortedMap κ α := m.alter k fun _ => a

def get? (m : SortedMap κ α) (k : κ) : Option α :=
  (m.toList.find? fun entry => compare k entry.1 == .eq).map (·.2)

def contains (m : SortedMap κ α) (k : κ) : Bool := (m.get? k).isSome

end SortedMap

end ClauseRules
