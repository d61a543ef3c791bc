import Mathlib.Data.List.Basic

/-!
Data records: an event id and named fields in order. Field values are kept as
far as the engine looks at them; a value it only passes on is `other`.
-/
namespace WarpMotor

inductive DataValue where
  | chars (text : String)
  | ip (text : String)
  | digit (number : Int)
  | other (text : String)
  deriving DecidableEq, Repr

structure DataField where
  name : String
  value : DataValue
  deriving DecidableEq, Repr

def DataField.fromChars (name text : String) : DataField := ⟨name, .chars text⟩
def DataField.fromIp (name text : String) : DataField := ⟨name, .ip text⟩
def DataField.fromInt (name : String) (number : Int) : DataField := ⟨name, .digit number⟩

structure DataRecord where
  id : Nat
  items : List DataField
  deriving DecidableEq, Repr

namespace DataRecord

def setId (record : DataRecord) (id : Nat) : DataRecord := { record with id }

def append (record : DataRecord) (field : DataField) : DataRecord :=
  { record with items := record.items ++ [field] }

/-- `while record.remove_field(name) {}`: every field of that name goes. -/
def removeAll (record : DataRecord) (name : String) : DataRecord :=
  { record with items := record.items.filter (fun field => field.name ≠ name) }

end DataRecord

/-- Instance-wide tags, in key order, set on every record. -/
structure GlobalTags where
  tags : List (String × String)
  deriving DecidableEq, Repr

def GlobalTags.contains (tags : GlobalTags) (name : String) : Bool :=
  tags.tags.any (fun tag => tag.1 = name)

def applyGlobalTags (record : DataRecord) (tags : GlobalTags) : DataRecord :=
  tags.tags.foldl
    (fun record tag => (record.removeAll tag.1).append (DataField.fromChars tag.1 tag.2)) record

end WarpMotor
