import WarpMotor.Lib.Stages
import WarpMotor.Oml.Syntax
import WarpMotor.Pipe.Dispatch

/-!
A chain of pipe functions, as the parser accepts it, over the field that its
source gives. The outer `none` is a panic. Two kinds of function have one: the
conversion to text of a value that is neither a text nor an address, and the
three that make a date of an integer, when the date can be held in universal
time and cannot in the zone. A chain returns exactly when none of its functions
is given such a value.
-/
namespace WarpMotor.Pipe

open Oml (Text EvaluationTarget)

def PipeFun.isRemove : PipeFun → Bool
  | remove => true
  | _ => false

/-- `parse_zone`: a literal of 32 bits of at most 23 hours. The absolute value of the least number
    is that number itself. -/
def zoneParsed (zone : Int) : Bool :=
  decide (-2147483648 ≤ zone) && decide (zone ≤ 2147483647) &&
    (zone == -2147483648 || decide (zone.natAbs ≤ 23))

/-- The functions that the parser builds. -/
def PipeFun.parsed : PipeFun → Bool
  | timeToTs zone => zone.all zoneParsed
  | timeToTsMs zone => zone.all zoneParsed
  | timeToTsUs zone => zone.all zoneParsed
  | timeToTsZone zone _ => zoneParsed zone
  | timeFromTs zone => zone.all zoneParsed
  | timeFromTsMs zone => zone.all zoneParsed
  | timeFromTsUs zone => zone.all zoneParsed
  | dumb => false
  | _ => true

/-- `remove` is the last function of a chain. -/
def ensureRemoveTerminal (items : List PipeFun) : Bool :=
  (items.findIdx? PipeFun.isRemove).all (fun pos => pos + 1 == items.length)

/-- A chain that the parser accepts. -/
structure PiPeOperation where
  items : List PipeFun
  filled : items ≠ []
  parsed : items.all PipeFun.parsed = true
  terminal : ensureRemoveTerminal items = true

def hasRemove (items : List PipeFun) : Bool := items.any PipeFun.isRemove

def removeMarker (target : EvaluationTarget) : DataField :=
  ⟨.ignore, target.safeName.toList, .null⟩

section

variable (env : Env)

def Env.own (storage : FieldStorage) : DataField := storage.intoOwned env.ownedName

/-- The one of the trait, which every function has: that of `get` is not dispatched to. -/
def PipeFun.valueCacuStorage (function : PipeFun) (storage : FieldStorage) :
    Option FieldStorage :=
  (function.valueCacu env (env.own storage)).map .fromOwned

namespace PiPeOperation

/-- From the field that the source gives. -/
def extractOne (op : PiPeOperation) (target : EvaluationTarget) :
    Option DataField → Option (Option DataField)
  | some field =>
    (op.items.foldlM (fun field function => PipeFun.valueCacu env function field) field).map some
  | none => some (if hasRemove op.items then some (removeMarker target) else none)

def extractStorage (op : PiPeOperation) (target : EvaluationTarget) :
    Option FieldStorage → Option (Option FieldStorage)
  | some storage =>
    (op.items.foldlM (fun storage function => PipeFun.valueCacuStorage env function storage)
      storage).map some
  | none => some (if hasRemove op.items then some (.fromOwned (removeMarker target)) else none)

end PiPeOperation

end

namespace Value

def IsTextOrAddress : Value → Prop
  | chars _ => True
  | ipAddr _ => True
  | _ => False

/-- An integer, read in units of which a second has `unit`, that can be held as a date can be held
    as one of the zone too. Hours that are no zone are not looked at. -/
def StaysInZone (cal : Calendar) (zone unit : Int) : Value → Prop
  | int x => -24 < zone → zone < 24 → cal.Holds (x / unit) → cal.Holds (x / unit + zone * 3600)
  | _ => True

end Value

/-- The values that a function does not panic on. -/
def PipeFun.Fits (cal : Calendar) : PipeFun → Value → Prop
  | toStr => Value.IsTextOrAddress
  | timeFromTs zone => Value.StaysInZone cal (zone.getD 8) 1
  | timeFromTsMs zone => Value.StaysInZone cal (zone.getD 8) 1000
  | timeFromTsUs zone => Value.StaysInZone cal (zone.getD 8) 1000000
  | dumb => fun _ => False
  | _ => fun _ => True

/-- Every function of the chain is given a value that it does not panic on. -/
def ChainFits (env : Env) : List PipeFun → DataField → Prop :=
  Stages.AcceptsAll (fun function field => function.Fits env.calendar field.value)
    (fun function field => function.valueCacu env field)

theorem zoneOffset_some {zone : Int} (low : -24 < zone) (high : zone < 24) :
    ∃ tz, zoneOffset zone = some tz ∧ tz.secs = zone * 3600 := by
  have inside : -86400 < max (-2147483648) (min 2147483647 (zone * 3600)) ∧
      max (-2147483648) (min 2147483647 (zone * 3600)) < 86400 := by omega
  refine ⟨⟨_, inside⟩, ?_, ?_⟩
  · simp only [zoneOffset, FixedOffset.eastOpt, inside, and_self, dif_pos]
  · dsimp only
    omega

theorem zoneOffset_none {zone : Int} (outside : ¬ (-24 < zone ∧ zone < 24)) :
    zoneOffset zone = none := by
  unfold zoneOffset FixedOffset.eastOpt
  rw [dif_neg]
  omega

/-- The conversion panics exactly on an integer whose date leaves the calendar in the zone. -/
theorem tsToTimeValue_isSome_iff {env : Env} {conv : Int → Option NaiveDateTime} {unit : Int}
    {nanos : Int → Nat} (reads : ∀ x, conv x = env.calendar.fromTimestamp (x / unit) (nanos x))
    (field : DataField) (zone : Option Int) :
    (tsToTimeValue env field zone conv).isSome ↔
      field.value.StaysInZone env.calendar (zone.getD 8) unit := by
  obtain ⟨info, name, value⟩ := field
  unfold tsToTimeValue Value.StaysInZone
  dsimp only
  split
  · next x =>
    rw [reads]
    cases conv : env.calendar.fromTimestamp (x / unit) (nanos x) with
    | none => simp [env.calendar.fromTimestamp_none conv]
    | some utc =>
      obtain ⟨held, rfl⟩ := env.calendar.fromTimestamp_some conv
      by_cases range : -24 < zone.getD 8 ∧ zone.getD 8 < 24
      · obtain ⟨tz, offset, secs⟩ := zoneOffset_some range.1 range.2
        simp [offset, range, held, env.calendar.naiveLocal_isSome_iff, secs]
      · simp only [zoneOffset_none range, Option.isSome_some, true_iff]
        intro low high
        exact absurd ⟨low, high⟩ range
  · simp

theorem toStr_isSome_iff (env : Env) (field : DataField) :
    (ToStr.valueCacu env field).isSome ↔ field.value.IsTextOrAddress := by
  obtain ⟨info, name, value⟩ := field
  unfold ToStr.valueCacu Value.IsTextOrAddress
  dsimp only
  split <;> simp

theorem mask_returns (env : Env) (op : Privacy.Mask) (field : DataField) :
    (Mask.valueCacu env op field).isSome := by
  simp [Mask.valueCacu, op.valueCacuChecked_eq]

/-- A function returns exactly on the values that fit it. -/
theorem valueCacu_isSome_iff (env : Env) (function : PipeFun) (field : DataField) :
    (function.valueCacu env field).isSome ↔ function.Fits env.calendar field.value := by
  cases function with
  | toStr => exact toStr_isSome_iff env field
  | timeFromTs zone =>
    have reads (x : Int) :
        env.calendar.fromTimestamp x 0 = env.calendar.fromTimestamp (x / 1) 0 := by simp
    simpa [PipeFun.valueCacu, TimeFromTs.valueCacu, PipeFun.Fits] using
      tsToTimeValue_isSome_iff reads field zone
  | timeFromTsMs zone =>
    simpa [PipeFun.valueCacu, TimeFromTsMs.valueCacu, PipeFun.Fits] using
      tsToTimeValue_isSome_iff (env.calendar.fromTimestampMillis_eq) field zone
  | timeFromTsUs zone =>
    simpa [PipeFun.valueCacu, TimeFromTsUs.valueCacu, PipeFun.Fits] using
      tsToTimeValue_isSome_iff (env.calendar.fromTimestampMicros_eq) field zone
  | mask op => simpa [PipeFun.valueCacu, PipeFun.Fits] using mask_returns env op field
  | _ => simp [PipeFun.valueCacu, PipeFun.Fits]

/-- The functions without a place that panics; in a zone of no hours a date stays where it is. -/
def PipeFun.quiet : PipeFun → Bool
  | toStr => false
  | timeFromTs zone => zone == some 0
  | timeFromTsMs zone => zone == some 0
  | timeFromTsUs zone => zone == some 0
  | dumb => false
  | _ => true

theorem staysInZone_of_no_hours (cal : Calendar) (unit : Int) (value : Value) :
    value.StaysInZone cal 0 unit := by
  unfold Value.StaysInZone
  split
  · intro _ _ held
    simpa using held
  · trivial

theorem fits_of_quiet (cal : Calendar) {function : PipeFun} (quiet : function.quiet = true)
    (value : Value) : function.Fits cal value := by
  cases function with
  | toStr => cases quiet
  | dumb => cases quiet
  | timeFromTs zone =>
    have hours : zone = some 0 := by simpa [PipeFun.quiet] using quiet
    simpa [PipeFun.Fits, hours] using staysInZone_of_no_hours cal 1 value
  | timeFromTsMs zone =>
    have hours : zone = some 0 := by simpa [PipeFun.quiet] using quiet
    simpa [PipeFun.Fits, hours] using staysInZone_of_no_hours cal 1000 value
  | timeFromTsUs zone =>
    have hours : zone = some 0 := by simpa [PipeFun.quiet] using quiet
    simpa [PipeFun.Fits, hours] using staysInZone_of_no_hours cal 1000000 value
  | _ => trivial

/-- A chain of quiet functions returns on every field. -/
theorem chainFits_of_quiet (env : Env) {items : List PipeFun}
    (quiet : ∀ function ∈ items, function.quiet = true) (field : DataField) :
    ChainFits env items field :=
  Stages.acceptsAll_of_forall (fun function member field =>
    fits_of_quiet env.calendar (quiet function member) field.value) field

/-- The two loops compute the same field. -/
theorem storage_run_eq (env : Env) (items : List PipeFun) (storage : FieldStorage) :
    (items.foldlM (fun storage function => PipeFun.valueCacuStorage env function storage) storage).map
        env.own =
      items.foldlM (fun field function => PipeFun.valueCacu env function field) (env.own storage) := by
  apply Stages.foldlM_map_view
  intro function storage
  simp [PipeFun.valueCacuStorage, Env.own, Function.comp_def]

/-- A chain returns exactly when each function is given a value that fits it; a source without a
    field does not panic. -/
theorem pipe_returns_iff (env : Env) (op : PiPeOperation) (target : EvaluationTarget)
    (one : Option DataField) (storage : Option FieldStorage) :
    ((op.extractOne env target one).isSome ↔
        ∀ field, one = some field → ChainFits env op.items field) ∧
      ((op.extractStorage env target storage).isSome ↔
        ∀ held, storage = some held → ChainFits env op.items (env.own held)) := by
  have chain (field : DataField) := Stages.foldlM_isSome_iff
    (valueCacu_isSome_iff env) op.items field
  constructor
  · cases one with
    | none => simp [PiPeOperation.extractOne]
    | some field => simpa [PiPeOperation.extractOne, ChainFits] using chain field
  · cases storage with
    | none => simp [PiPeOperation.extractStorage]
    | some held =>
      have same := congrArg Option.isSome (storage_run_eq env op.items held)
      rw [Option.isSome_map] at same
      simpa [PiPeOperation.extractStorage, ChainFits, same] using chain (env.own held)

/-- An environment whose dates are those of the years -262143 to 262142, and whose texts stay as
    they are. -/
def plainEnv : Env where
  secrets := Privacy.Secrets.none
  showIp := fun _ => []
  showNet := fun _ => []
  showFloat := fun _ => []
  showHex := fun _ => []
  readIp := fun _ => none
  hmacSha256 := fun _ _ => []
  hmacSha1 := fun _ _ => []
  md5 := id
  hexEncode := fun _ => []
  base64Encode := fun _ => []
  newCipher := fun _ => none
  nonce := []
  calendar := ⟨-8334601228800, 8210266876799⟩
  ownedName := fun _ curName => curName
  defaultType := .auto
  lowercase := id
  encodeSafe := id
  decodeHtmlEntities := id
  escapeJson := id
  unescapeJson := some
  formatValue := fun _ => []
  standardEncode := fun _ => []
  standardDecode := fun _ => none
  escapeByteString := fun _ => []
  fromUtf8Lossy := fun _ => []
  decode := fun _ _ => []
  pathParent := fun _ => none
  pathFileName := fun _ => none
  parseUrl := fun _ => none
  isIntranet := fun _ => false
  isSemanticEnabled := false
  dict := ⟨[], [], [], [], [], []⟩
  tag := fun _ => []

theorem one_function_parsed (function : PipeFun) (parsed : function.parsed = true) :
    [function].all PipeFun.parsed = true := by simpa using parsed

theorem one_function_terminal (function : PipeFun) : ensureRemoveTerminal [function] = true := by
  cases function <;> rfl

def onlyFunction (function : PipeFun) (parsed : function.parsed = true) : PiPeOperation :=
  ⟨[function], by simp, one_function_parsed function parsed, one_function_terminal function⟩

def someTarget : EvaluationTarget := .new "x" .auto

/-- `to_str` on a number, and `from_ts` on the last second, eight hours before a date that cannot be
    held; with both ways to extract. -/
theorem number_and_last_second_panic :
    (onlyFunction .toStr rfl).extractOne plainEnv someTarget
        (some (.fromInt "n".toList 7)) = none ∧
      (onlyFunction .toStr rfl).extractStorage plainEnv someTarget
        (some (.fromOwned (.fromInt "n".toList 7))) = none ∧
      (onlyFunction (.timeFromTs none) rfl).extractOne plainEnv someTarget
        (some (.fromInt "n".toList 8210266876799)) = none ∧
      (onlyFunction (.timeFromTs none) rfl).extractStorage plainEnv someTarget
        (some (.fromOwned (.fromInt "n".toList 8210266876799))) = none :=
  ⟨rfl, rfl, rfl, rfl⟩

end WarpMotor.Pipe
