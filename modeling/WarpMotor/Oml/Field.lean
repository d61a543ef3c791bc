import Mathlib.Data.List.Basic

/-!
The records that object models work on. A field is owned, or shared with a
name of its own kept beside it: renaming a shared field changes the current
name and leaves the field as it is. Values are kept as far as the evaluators
look at them; numbers of 64-bit floats are their bits.
-/
namespace WarpMotor.Oml

inductive DataType where
  | auto | ignore | chars | int | float | ip | time | obj | array
  | other (name : String)
  deriving DecidableEq, Repr

mutual
inductive Value where
  | null
  | ignore
  | chars (text : String)
  | int (number : Int)
  | float (bits : UInt64)
  | ipAddr (octets : List UInt8)
  | other (text : String)
  | array (items : List FieldStorage)
  | obj (members : List Member)

structure DataField where
  info : DataType
  name : String
  value : Value

inductive FieldStorage where
  | owned (field : DataField)
  | shared (field : DataField) (curName : String)

structure Member where
  key : String
  storage : FieldStorage
end

namespace DataField

def setName (field : DataField) (name : String) : DataField := ⟨field.info, name, field.value⟩

def fromChars (name text : String) : DataField := ⟨.chars, name, .chars text⟩
def fromIgnore (name : String) : DataField := ⟨.ignore, name, .ignore⟩
def fromArr (name : String) (items : List DataField) : DataField :=
  ⟨.array, name, .array (items.map .owned)⟩
def fromObj (name : String) (members : List Member) : DataField := ⟨.obj, name, .obj members⟩

@[simp] theorem setName_name (field : DataField) (name : String) :
    (field.setName name).name = name := rfl

@[simp] theorem setName_info (field : DataField) (name : String) :
    (field.setName name).info = field.info := rfl

@[simp] theorem setName_value (field : DataField) (name : String) :
    (field.setName name).value = field.value := rfl

@[simp] theorem setName_setName (field : DataField) (first second : String) :
    (field.setName first).setName second = field.setName second := rfl

@[simp] theorem setName_self (field : DataField) : field.setName field.name = field := by
  cases field
  rfl

end DataField

def Value.isNull : Value → Bool
  | .null => true
  | _ => false

def Value.isIgnore : Value → Bool
  | .ignore => true
  | _ => false

namespace FieldStorage

def fromOwned (field : DataField) : FieldStorage := .owned field
def fromShared (field : DataField) : FieldStorage := .shared field field.name

/-- The current name. -/
def getName : FieldStorage → String
  | owned field => field.name
  | shared _ curName => curName

/-- The field itself, a shared one under the name it was made with. -/
def asField : FieldStorage → DataField
  | owned field => field
  | shared field _ => field

def getMeta (storage : FieldStorage) : DataType := storage.asField.info

def isShared : FieldStorage → Bool
  | owned _ => false
  | shared _ _ => true

def setName : FieldStorage → String → FieldStorage
  | owned field, name => owned (field.setName name)
  | shared field _, name => shared field name

/-- `into_owned`. What name a shared field has afterwards, given its own and its current one, is
    `ownedName`. -/
def intoOwned (ownedName : String → String → String) : FieldStorage → DataField
  | owned field => field
  | shared field curName => field.setName (ownedName field.name curName)

/-- Marks a field as removed. -/
def isRemoveMarker (storage : FieldStorage) : Bool :=
  storage.getMeta = .ignore && storage.asField.value.isNull

end FieldStorage

mutual
/-- The value with every shared field in it replaced by an owned one of its current name. -/
def Value.plain : Value → Value
  | .null => .null
  | .ignore => .ignore
  | .chars text => .chars text
  | .int number => .int number
  | .float bits => .float bits
  | .ipAddr octets => .ipAddr octets
  | .other text => .other text
  | .array items => .array (plainItems items)
  | .obj members => .obj (plainMembers members)

def FieldStorage.plainStorage : FieldStorage → FieldStorage
  | .owned ⟨info, name, value⟩ => .owned ⟨info, name, value.plain⟩
  | .shared ⟨info, _, value⟩ curName => .owned ⟨info, curName, value.plain⟩

def plainItems : List FieldStorage → List FieldStorage
  | [] => []
  | storage :: rest => storage.plainStorage :: plainItems rest

def plainMembers : List Member → List Member
  | [] => []
  | ⟨key, storage⟩ :: rest => ⟨key, storage.plainStorage⟩ :: plainMembers rest
end

/-- What a reader of the field sees: type, current name and value. -/
def FieldStorage.view (storage : FieldStorage) : DataField :=
  ⟨storage.getMeta, storage.getName, storage.asField.value.plain⟩

end WarpMotor.Oml
