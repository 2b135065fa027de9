import ClauseRules.Json.Error
import ClauseRules.Json.Text
import ClauseRules.Source.Basic

/-! JSON values read as the values of a file format. A record is an object, or an array of its
fields in order; a variant is its bare name, or an object with the name as its only field.
-/

namespace ClauseRules

namespace Json

variable {α : Type}

/-- The error for a value of another type than expected. -/
def unexpected (v : Json) (expected : String) : Error :=
  let found : Found → Error := fun f => .mismatch (.invalidType f expected)
  match v with
  | .null => found .null
  | .bool b => found (.bool b)
  | .number n => found (.number n)
  | .string s => found (.string s)
  | .array _ _ => found .sequence
  | .object _ _ => found .map
  | .unreadable _ => .fault .malformed
  | .broken f => .fault f

def readText : Json → Except Error String
  | .string s => .ok s
  | v => .error (unexpected v "a string")

def readBool : Json → Except Error Bool
  | .bool b => .ok b
  | v => .error (unexpected v "a boolean")

def Number.text : Number → String
  | .natural n =>
      -- beyond the range of signed integers the number passes through a double
      if n < Width.signed64 then toString n
      else ((Binary64.ofNat n).map Binary64.plain).getD (toString n)
  | .negative n => "-" ++ toString n
  | .float x => x.plain

def readScalar (v : Json) : Except Error String :=
  match v.readingFault, v with
  | some f, _ => .error (.fault f)
  | none, .string s => .ok s
  | none, .bool b => .ok (if b then "true" else "false")
  | none, .number n => .ok n.text
  | none, _ => .error (.mismatch (.noAlternative "Scalar"))

def readIsNull : Json → Except Error Bool
  | .null => .ok true
  | _ => .ok false

theorem sizeOf_mem_items {items : List Json} {stop : Option Fault} {v : Json} (h : v ∈ items)
    : sizeOf v < sizeOf (Json.array items stop) := by
  have := List.sizeOf_lt_of_mem h
  simp only [Json.array.sizeOf_spec]
  omega

theorem sizeOf_mem_fields {fields : List (String × Json)} {stop : Option Stop}
    {field : String × Json} (h : field ∈ fields)
    : sizeOf field.2 < sizeOf (Json.object fields stop) := by
  have hm := List.sizeOf_lt_of_mem h
  have hf : sizeOf field = 1 + sizeOf field.1 + sizeOf field.2 := by cases field; rfl
  simp only [Json.object.sizeOf_spec]
  omega

instance : Nested Json where
  Below w v := sizeOf w < sizeOf v
  below_wf := (measure (sizeOf : Json → Nat)).wf
  below_trans h h' := Nat.lt_trans h h'

open Nested (Below)

def readItemList : (v : Json) → Except Error (List (Part v) × Option Error)
  | .array items stop =>
      .ok (items.attach.map fun item => ⟨item.1, sizeOf_mem_items item.2⟩, stop.map .fault)
  | v => .error (unexpected v "a sequence")

/-- Whether a name was already given among the fields before. -/
def isRepeated (fields : List (String × Json)) (index : Nat) (name : String) : Bool :=
  (fields.take index).any (·.1 == name)

/-- The first problem of an object's own: a repeated field, a fault inside of a field that is
passed over, or a fault where the object should go on. -/
def objectIssue (names : List String) (fields : List (String × Json)) (stop : Option Stop)
    : Option (Nat × Error) :=
  let ofField : (String × Json) × Nat → Option (Nat × Error) := fun ((name, value), i) =>
    if names.contains name then
      if isRepeated fields i name then some (i, .mismatch (.duplicateField name)) else none
    else value.passingFault.map fun f => (i, .fault f)
  (fields.zipIdx.findSome? ofField).or
    (stop.map fun s => (fields.length, .fault s.fault))

/-- The first problem of an array's own when it is read as a record of `size` fields. -/
def arrayIssue (size : Nat) (items : List Json) (stop : Option Fault) : Option (Nat × Error) :=
  if size < items.length then some (size, .fault .malformed)
  else stop.map fun f => (items.length, .fault f)

def recordExpectation (typeName : String) (size : Nat) : String :=
  typeName ++ " with " ++ toString size ++ (if size == 1 then " element" else " elements")

def readFieldList (typeName : String) (names : List String)
    : (v : Json) → Except Error (Record Error v)
  | .object fields stop =>
      .ok {
        slots := fields.attach.zipIdx.map fun (field, i) =>
          (field.1.1, i, ⟨field.1.2, sizeOf_mem_fields field.2⟩)
        missing := fun name => (fields.length, .mismatch (.missingField name))
        issue := objectIssue names fields stop
      }
  | .array items stop =>
      .ok {
        slots := (names.zip items.attach).zipIdx.map fun ((name, item), i) =>
          (name, i, ⟨item.1, sizeOf_mem_items item.2⟩)
        missing := fun name =>
          (items.length,
            .mismatch (.invalidLength (names.idxOf name)
              (recordExpectation typeName names.length)))
        issue := arrayIssue names.length items stop
      }
  | v => .error (unexpected v typeName)

instance : Source Json Error where
  text := readText
  scalar := readScalar
  isAbsent := readIsNull
  items := readItemList
  fields := readFieldList

/-- The entries of a map, the last of several with one key counting. -/
def readMap (v : Json) (read : (w : Json) → Below w v → Except Error α)
    : Except Error (List (String × α)) :=
  match v with
  | .object fields stop => do
      let entries ← fields.attach.mapM fun field => do
        let a ← read field.1.2 (sizeOf_mem_fields field.2)
        return (field.1.1, a)
      match stop with
      | none => return entries
      | some s => throw (.fault s.fault)
  | v => .error (unexpected v "a map")

/-! ### Variants -/

/-- A variant as it is written: its bare name, or its name with a payload. -/
inductive Variant (whole : Json) where
  | bare (name : String)
  | holding (name : String) (payload : Part whole) (stop : Option Fault)

/-- The fault that keeps an object with a first field from ending there. -/
def variantStop (more : List (String × Json)) : Option Stop → Option Fault
  | some (.atSeparator f) => if more.isEmpty then some f else some .malformed
  | some _ => some .malformed
  | none => if more.isEmpty then none else some .malformed

def readVariant : (v : Json) → Except Error (Variant v)
  | .string s => .ok (.bare s)
  | .object ((name, payload) :: more) stop =>
      .ok (.holding name
        ⟨payload, @sizeOf_mem_fields _ _ (name, payload) List.mem_cons_self⟩
        (variantStop more stop))
  | .object [] (some (.unnamed found)) =>
      .error (.mismatch (.invalidType found "variant identifier"))
  | .object [] (some (.atName f)) => .error (.fault f)
  | .broken .truncated => .error (.fault .truncated)
  | _ => .error (.fault .malformed)

def Variant.name {whole : Json} : Variant whole → String
  | .bare name => name
  | .holding name _ _ => name

def readUnit (v : Json) : Except Error Unit :=
  match v with
  | .null => .ok ()
  | v => .error (unexpected v "unit")

/-- Nothing may follow the payload of a variant. -/
def Variant.closed (stop : Option Fault) (a : α) : Except Error α :=
  match stop with
  | none => .ok a
  | some f => .error (.fault f)

/-- A variant without a payload. -/
def Variant.unit {whole : Json} (variant : Variant whole) (a : α) : Except Error α :=
  match variant with
  | .bare _ => .ok a
  | .holding _ payload stop => do
      readUnit payload.1
      closed stop a

/-- A variant with a payload; `kind` names the sort of payload in the error for a bare name. -/
def Variant.payload {whole : Json} (variant : Variant whole) (kind : String)
    (read : (v : Json) → Below v whole → Except Error α) : Except Error α :=
  match variant with
  | .bare _ => .error (.mismatch (.invalidType .unitVariant kind))
  | .holding _ payload stop => do
      let a ← read payload.1 payload.2
      closed stop a

/-- One of several bare names. -/
def readName (names : List (String × α)) (v : Json) : Except Error α := do
  let variant ← readVariant v
  match names.lookup variant.name with
  | some a => variant.unit a
  | none => .error (.mismatch (.unknownVariant variant.name (names.map (·.1))))

/-- Reads a whole text as a value of a file format. -/
def Document.read (document : Document) (read : Json → Except Error α) : Except Error α := do
  let a ← read document.value
  if document.trailing then throw (.fault .malformed) else return a

end Json

end ClauseRules
