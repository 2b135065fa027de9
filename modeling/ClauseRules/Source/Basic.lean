/-! Trees of values that files are read into, whatever the syntax of the file. A file format is
described once, by the values that it expects, and then read from any syntax with an instance
of `Source`. Parts of a value carry the proof that they are smaller, so that formats that nest
can be read by recursion on the value.
-/

namespace ClauseRules

/-- Values that nest in one another to a finite depth. -/
class Nested (ν : Type) where
  /-- One value is a part of another, or smaller than it in some other respect. -/
  Below : ν → ν → Prop
  below_wf : WellFounded Below
  below_trans : ∀ {u v w : ν}, Below u v → Below v w → Below u w

instance (priority := high) {ν : Type} [Nested ν] : WellFoundedRelation ν :=
  ⟨Nested.Below, Nested.below_wf⟩

open Nested (Below below_trans)

/-- A value below `whole`. -/
abbrev Part {ν : Type} [Nested ν] (whole : ν) := { v : ν // Below v whole }

/-- The result of reading one part of a whole, or a problem and its place in the whole. Of several
problems the one with the first place counts. -/
structure Ranked (ε α : Type) where
  result : Except (Nat × ε) α

namespace Ranked

variable {ε α β : Type}

def pure (a : α) : Ranked ε α := ⟨.ok a⟩

def error (rank : Nat) (e : ε) : Ranked ε α := ⟨.error (rank, e)⟩

/-- Reads both, reporting the problem with the lower rank, the left one of two equal ranks. -/
def seq (f : Ranked ε (α → β)) (x : Ranked ε α) : Ranked ε β :=
  match f.result, x.result with
  | .ok f, .ok a => ⟨.ok (f a)⟩
  | .ok _, .error e => ⟨.error e⟩
  | .error e, .ok _ => ⟨.error e⟩
  | .error e, .error e' => ⟨.error (if e'.1 < e.1 then e' else e)⟩

instance : Applicative (Ranked ε) where
  pure := Ranked.pure
  seq f x := Ranked.seq f (x ())

end Ranked

/-- The fields of a record. -/
structure Record {ν : Type} [Nested ν] (ε : Type) (whole : ν) where
  /-- The fields that were given: name, place and value. -/
  slots : List (String × Nat × Part whole)
  /-- The place and the problem of a required field that is missing. -/
  missing : String → Nat × ε
  /-- The first problem of the record itself. -/
  issue : Option (Nat × ε)

/-- A syntax whose values can be read as the values of a file format. -/
class Source (ν : Type) [Nested ν] (ε : outParam Type) where
  /-- Text. -/
  text : ν → Except ε String
  /-- Text, a truth value or a number, as text. -/
  scalar : ν → Except ε String
  /-- Whether the value stands for an absent one. -/
  isAbsent : ν → Except ε Bool
  /-- The items of a list, and the problem met after the last of them. -/
  items : (v : ν) → Except ε (List (Part v) × Option ε)
  /-- A record of the type `typeName` with the fields `names`, given in this order where the fields
  have no names. Other fields are passed over. -/
  fields : (typeName : String) → (names : List String) → (v : ν) →
    Except ε (Record ε v)

namespace Source

variable {ν ε α : Type} [Nested ν] [Source ν ε]

def list (v : ν) (read : (w : ν) → Below w v → Except ε α) : Except ε (List α) := do
  let (parts, problem) ← items v
  let values ← parts.mapM fun part => read part.1 part.2
  match problem with
  | none => return values
  | some e => throw e

end Source

namespace Record

variable {ν ε α : Type} [Nested ν] {whole : ν}

def find? (r : Record ε whole) (name : String) : Option (Nat × Part whole) :=
  (r.slots.find? (·.1 == name)).map (·.2)

/-- The value of a field, or `default` when it is missing. -/
def withDefault (r : Record ε whole) (name : String) (default : α)
    (read : (v : ν) → Below v whole → Except ε α) : Ranked ε α :=
  match r.find? name with
  | none => .pure default
  | some (rank, part) =>
      match read part.1 part.2 with
      | .ok a => .pure a
      | .error e => .error rank e

def required (r : Record ε whole) (name : String)
    (read : (v : ν) → Below v whole → Except ε α) : Ranked ε α :=
  match r.find? name with
  | none => ⟨.error (r.missing name)⟩
  | some (rank, part) =>
      match read part.1 part.2 with
      | .ok a => .pure a
      | .error e => .error rank e

variable [Source ν ε]

/-- The value of a field that may be missing or absent. -/
def optional (r : Record ε whole) (name : String)
    (read : (v : ν) → Below v whole → Except ε α) : Ranked ε (Option α) :=
  r.withDefault name none fun v h => do
    if ← Source.isAbsent v then return none else return some (← read v h)

def requiredText (r : Record ε whole) (name : String) : Ranked ε String :=
  r.required name fun v _ => Source.text v

def requiredScalar (r : Record ε whole) (name : String) : Ranked ε String :=
  r.required name fun v _ => Source.scalar v

def optionalText (r : Record ε whole) (name : String) : Ranked ε (Option String) :=
  r.optional name fun v _ => Source.text v

def optionalScalar (r : Record ε whole) (name : String) : Ranked ε (Option String) :=
  r.optional name fun v _ => Source.scalar v

/-- A list that is empty when it is missing. -/
def listOf (r : Record ε whole) (name : String)
    (read : (v : ν) → Below v whole → Except ε α) : Ranked ε (List α) :=
  r.withDefault name [] fun v h => Source.list v fun w h' => read w (below_trans h' h)

/-- The record read from its fields, unless the record itself has an earlier problem. -/
def finish (r : Record ε whole) (x : Ranked ε α) : Except ε α :=
  match r.issue, x.result with
  | none, .ok a => .ok a
  | some (_, e), .ok _ => .error e
  | none, .error (_, e) => .error e
  | some (i, e), .error (j, e') => .error (if j < i then e' else e)

end Record

end ClauseRules
