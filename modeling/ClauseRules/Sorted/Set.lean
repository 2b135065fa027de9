/-! Finite sets kept as a strictly increasing list. The list is the set's only view: two
sets with the same members are equal, whatever the order of insertion.
-/

namespace ClauseRules

/-- A set whose members stand in increasing order. -/
structure SortedSet (α : Type) where
  toList : List α
deriving DecidableEq, Repr, Inhabited

namespace SortedSet

variable {α : Type}

def empty : SortedSet α := ⟨[]⟩

instance : EmptyCollection (SortedSet α) := ⟨empty⟩

def size (s : SortedSet α) : Nat := s.toList.length

def isEmpty (s : SortedSet α) : Bool := s.toList.isEmpty

variable [Ord α]

/-- The place of `a` in an increasing list; a member already present stays as it is. -/
def insertInto (a : α) : List α → List α
  | [] => [a]
  | b :: rest =>
      match compare a b with
      | .lt => a :: b :: rest
      | .eq => b :: rest
      | .gt => b :: insertInto a rest

def insert (a : α) (s : SortedSet α) : SortedSet α := ⟨insertInto a s.toList⟩

def insertAll (as : List α) (s : SortedSet α) : SortedSet α :=
  as.foldl (fun s a => s.insert a) s

def ofList (as : List α) : SortedSet α := (empty : SortedSet α).insertAll as

def contains (s : SortedSet α) (a : α) : Bool :=
  s.toList.any fun b => compare a b == .eq

/-- The members that `t` holds too. -/
def inter (s t : SortedSet α) : SortedSet α := ⟨s.toList.filter t.contains⟩

end SortedSet

end ClauseRules
