import WarpMotor.Privacy.Operators

/-!
The fields that pipe functions work on, and the dates that they compute with.
Values that hold no other field are those of the privacy operators. A date is
counted in seconds from the epoch; the calendar library holds those of a fixed
range only.
-/
namespace WarpMotor.Pipe

open Oml (Text)
open Privacy (IpAddr)

/-- A date and time without a zone: its seconds, read as universal time, and the nanoseconds in the
    second. A leap second has more than a second's worth of them. -/
structure NaiveDateTime where
  secs : Int
  nanos : Nat
  deriving DecidableEq, Repr

inductive DataType where
  | auto | ignore | chars | int | float | bool | ip | time | bigInt | json | obj | array
  | other (name : String)
  deriving DecidableEq, Repr

mutual
inductive Value where
  | plain (value : Privacy.Value)
  | time (moment : NaiveDateTime)
  | array (items : List FieldStorage)
  | obj (members : List Member)

structure DataField where
  info : DataType
  name : Text
  value : Value

inductive FieldStorage where
  | owned (field : DataField)
  | shared (field : DataField) (curName : Text)

structure Member where
  key : Text
  storage : FieldStorage
end

namespace Value

@[match_pattern] abbrev null : Value := .plain .null
@[match_pattern] abbrev ignore : Value := .plain .ignore
@[match_pattern] abbrev chars (text : Text) : Value := .plain (.chars text)
@[match_pattern] abbrev int (number : Int) : Value := .plain (.int number)
@[match_pattern] abbrev float (bits : UInt64) : Value := .plain (.float bits)
@[match_pattern] abbrev bool (truth : Bool) : Value := .plain (.bool truth)
@[match_pattern] abbrev ipAddr (ip : IpAddr) : Value := .plain (.ipAddr ip)
@[match_pattern] abbrev bigUint (number : Nat) : Value := .plain (.bigUint number)

end Value

namespace DataField

def fromChars (name text : Text) : DataField := ⟨.chars, name, .chars text⟩
def fromInt (name : Text) (number : Int) : DataField := ⟨.int, name, .int number⟩
def fromFloat (name : Text) (bits : UInt64) : DataField := ⟨.float, name, .float bits⟩
def fromBool (name : Text) (truth : Bool) : DataField := ⟨.bool, name, .bool truth⟩
def fromIp (name : Text) (ip : IpAddr) : DataField := ⟨.ip, name, .ipAddr ip⟩
def fromTime (name : Text) (moment : NaiveDateTime) : DataField := ⟨.time, name, .time moment⟩
def fromObj (name : Text) (members : List Member) : DataField := ⟨.obj, name, .obj members⟩
def fromIgnore (name : Text) : DataField := ⟨.ignore, name, .ignore⟩

end DataField

namespace FieldStorage

def fromOwned (field : DataField) : FieldStorage := .owned field

/-- The field itself, a shared one under the name it was made with. -/
def asField : FieldStorage → DataField
  | owned field => field
  | shared field _ => field

/-- `into_owned`. What name a shared field has afterwards, given its own and its current one, is
    `ownedName`. -/
def intoOwned (ownedName : Text → Text → Text) : FieldStorage → DataField
  | owned field => field
  | shared field curName => ⟨field.info, ownedName field.name curName, field.value⟩

@[simp] theorem intoOwned_fromOwned (ownedName : Text → Text → Text) (field : DataField) :
    (fromOwned field).intoOwned ownedName = field := rfl

end FieldStorage

/-- The member of that key. -/
def getMember (members : List Member) (key : Text) : Option FieldStorage :=
  (members.find? (fun member => member.key = key)).map (·.storage)

/-- The dates that can be held, by their first and their last second. -/
structure Calendar where
  firstSec : Int
  lastSec : Int

/-- Seconds east of universal time, less than a day. -/
structure FixedOffset where
  secs : Int
  inside : -86400 < secs ∧ secs < 86400

def FixedOffset.eastOpt (secs : Int) : Option FixedOffset :=
  if inside : -86400 < secs ∧ secs < 86400 then some ⟨secs, inside⟩ else none

namespace Calendar

variable (cal : Calendar)

def Holds (secs : Int) : Prop := cal.firstSec ≤ secs ∧ secs ≤ cal.lastSec

instance (secs : Int) : Decidable (cal.Holds secs) :=
  inferInstanceAs (Decidable (cal.firstSec ≤ secs ∧ secs ≤ cal.lastSec))

/-- `DateTime::from_timestamp`, and `_millis` and `_micros` by the instant they stand for. -/
def fromTimestamp (secs : Int) (nanos : Nat) : Option NaiveDateTime :=
  if cal.Holds secs then some ⟨secs, nanos⟩ else none

def fromTimestampMillis (millis : Int) : Option NaiveDateTime :=
  cal.fromTimestamp (millis / 1000) ((millis % 1000).toNat * 1000000)

def fromTimestampMicros (micros : Int) : Option NaiveDateTime :=
  cal.fromTimestamp (micros / 1000000) ((micros % 1000000).toNat * 1000)

theorem fromTimestampMillis_eq (millis : Int) :
    cal.fromTimestampMillis millis =
      cal.fromTimestamp (millis / 1000) ((millis % 1000).toNat * 1000000) := rfl

theorem fromTimestampMicros_eq (micros : Int) :
    cal.fromTimestampMicros micros =
      cal.fromTimestamp (micros / 1000000) ((micros % 1000000).toNat * 1000) := rfl

/-- The date that many seconds later, when it can be held. -/
def shifted (moment : NaiveDateTime) (secs : Int) : Option NaiveDateTime :=
  if cal.Holds (moment.secs + secs) then some ⟨moment.secs + secs, moment.nanos⟩ else none

/-- `naive_local`; it panics when the local date cannot be held. -/
def naiveLocal (utc : NaiveDateTime) (tz : FixedOffset) : Option NaiveDateTime :=
  cal.shifted utc tz.secs

/-- `and_local_timezone` and `single`: the universal time of a local one, if it can be held. -/
def andLocalTimezone (moment : NaiveDateTime) (tz : FixedOffset) : Option NaiveDateTime :=
  cal.shifted moment (-tz.secs)

theorem naiveLocal_isSome_iff (utc : NaiveDateTime) (tz : FixedOffset) :
    (cal.naiveLocal utc tz).isSome ↔ cal.Holds (utc.secs + tz.secs) := by
  unfold naiveLocal shifted
  split <;> simp_all

theorem fromTimestamp_some {secs : Int} {nanos : Nat} {moment : NaiveDateTime}
    (found : cal.fromTimestamp secs nanos = some moment) :
    cal.Holds secs ∧ moment = ⟨secs, nanos⟩ := by
  unfold fromTimestamp at found
  split at found
  · next held => exact ⟨held, (Option.some.inj found).symm⟩
  · cases found

theorem fromTimestamp_none {secs : Int} {nanos : Nat}
    (refused : cal.fromTimestamp secs nanos = none) : ¬ cal.Holds secs := by
  unfold fromTimestamp at refused
  split at refused
  · cases refused
  · assumption

end Calendar

namespace NaiveDateTime

def timestamp (utc : NaiveDateTime) : Int := utc.secs
def timestampMillis (utc : NaiveDateTime) : Int := utc.secs * 1000 + utc.nanos / 1000000
def timestampMicros (utc : NaiveDateTime) : Int := utc.secs * 1000000 + utc.nanos / 1000

end NaiveDateTime

end WarpMotor.Pipe
