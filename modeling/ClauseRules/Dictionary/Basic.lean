import ClauseRules.Decimal.Binary64
import ClauseRules.Name
import ClauseRules.Sorted.Map
import ClauseRules.Sorted.Set
import ClauseRules.Text.Case

/-! Dictionaries of object classes and the properties they own. Classes are found without regard to
case, properties without regard to case and to what is dropped from their names in rules.
-/

namespace ClauseRules

inductive DataType where
  | number
  | boolean
  | string
deriving DecidableEq, Repr

namespace DataType

/-- Whether a text is a decimal number in the range of doubles. -/
def isNumber (text : String) : Bool :=
  match Decimal.read? text.toList with
  | some d => (Binary64.ofDecimal d).isSome
  | none => false

/-- The data type that a value looks like. -/
def infer (value : String) : DataType :=
  let value := Text.trim value
  if isNumber value then .number
  else if ["true", "false"].contains (Text.lowerAscii value) then .boolean
  else .string

def rank : DataType → Nat
  | .number => 0
  | .boolean => 1
  | .string => 2

end DataType

/-- What is known of a property of an object class. -/
structure PropertyDescriptor where
  name : String
  dataType : Option DataType := none
  /-- The units in which the property may be given. -/
  units : List String := []
  /-- Where the property was seen. -/
  references : List String := []
  /-- Values as examples. -/
  values : List String := []
deriving DecidableEq, Repr

/-- The name under which a property is found. -/
def propertyKey (property : String) : String := Text.lower (Name.ofProperty property)

/-- The name under which an object class is found. -/
def objectKey (object : String) : String := Text.lower (Text.trim object)

/-- What compilation asks of a dictionary. -/
structure Vocabulary where
  /-- Whether a name is that of an object class. -/
  isObject : String → Bool
  /-- The object classes that own a property. -/
  owners : String → SortedSet String

structure Dictionary where
  /-- The properties of every class, both found by their keys. -/
  objects : SortedMap String (SortedMap String PropertyDescriptor)
deriving DecidableEq, Repr

namespace Dictionary

def empty : Dictionary := ⟨∅⟩

instance : Inhabited Dictionary := ⟨empty⟩

/-- Adds a class, which stays as it is if it is there already. -/
def addObject (d : Dictionary) (object : String) : Dictionary :=
  ⟨d.objects.alter (objectKey object) (·.getD ∅)⟩

/-- Adds a property in the place of any that is found under the same name. -/
def addProperty (d : Dictionary) (object : String) (descriptor : PropertyDescriptor)
    : Dictionary :=
  ⟨d.objects.alter (objectKey object) fun properties =>
    (properties.getD ∅).insert (propertyKey descriptor.name) descriptor⟩

/-- The keys of the classes, in order. -/
def objectNames (d : Dictionary) : List String := d.objects.keys

/-- Every property with the class that owns it. -/
def properties (d : Dictionary) : List (String × PropertyDescriptor) :=
  d.objects.toList.flatMap fun (object, properties) =>
    properties.values.map fun descriptor => (object, descriptor)

def containsObject (d : Dictionary) (object : String) : Bool :=
  d.objects.contains (objectKey object)

/-- The classes that own a property. -/
def owners (d : Dictionary) (property : String) : SortedSet String :=
  let key := propertyKey property
  ⟨(d.objects.toList.filter fun (_, properties) => properties.contains key).map (·.1)⟩

def property? (d : Dictionary) (object property : String) : Option PropertyDescriptor := do
  let properties ← d.objects.get? (objectKey object)
  properties.get? (propertyKey property)

def vocabulary (d : Dictionary) : Vocabulary := ⟨d.containsObject, d.owners⟩

end Dictionary

end ClauseRules
