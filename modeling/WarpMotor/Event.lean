import Mathlib.Algebra.GroupWithZero.Nat
import Mathlib.Data.List.Basic

/-!
Source events as the collectors hand them on. A batch is the unit of every
parse channel. Lengths are byte lengths, as `RawData::len` counts them.
-/
namespace WarpMotor

inductive RawData where
  | string (text : String)
  | bytes (data : List UInt8)
  | arcBytes (data : List UInt8)
  deriving DecidableEq, Repr

def RawData.len : RawData → Nat
  | .string text => text.utf8ByteSize
  | .bytes data => data.length
  | .arcBytes data => data.length

def RawData.isEmpty (raw : RawData) : Bool := raw.len == 0

structure SourceEvent where
  eventId : Nat
  srcKey : String
  payload : RawData
  tags : List (String × String)
  upsIp : Option String
  deriving DecidableEq, Repr

abbrev SourceBatch := List SourceEvent

def eventPayloadLen (ev : SourceEvent) : Nat := ev.payload.len

def batchBytes (batch : SourceBatch) : Nat := (batch.map eventPayloadLen).sum

/-- The largest `usize`; saturating counters stop here. -/
def usizeMax : Nat := 2 ^ 64 - 1
def u64Max : Nat := 2 ^ 64 - 1
def u128Max : Nat := 2 ^ 128 - 1

/-- The largest `Duration`, in nanoseconds. -/
def durationMax : Nat := (2 ^ 64 - 1) * 10 ^ 9 + 999999999

def saturatingAdd (a b : Nat) : Nat := min (a + b) usizeMax
def saturatingMul (a b : Nat) : Nat := min (a * b) usizeMax

/-- Fallible code classifies every error into one of these strategies. -/
inductive ErrorHandlingStrategy where
  | fixRetry | tolerant | ignore | terminate | throw
  deriving DecidableEq, Repr

inductive RobustnessMode where
  | debug | normal | strict
  deriving DecidableEq, Repr

inductive UnifiedReason where
  | validationError | logicError | dataError | systemError | businessError | runRuleError
  | notFoundError | permissionError | networkError | resourceError | timeoutError
  | configError (detail : String) | externalError
  deriving DecidableEq, Repr

def universalProcStg (mode : RobustnessMode) : UnifiedReason → ErrorHandlingStrategy
  | .validationError => .throw
  | .logicError => match mode with
    | .strict => .tolerant
    | _ => .throw
  | .dataError => .tolerant
  | .systemError => .tolerant
  | .businessError => .tolerant
  | .runRuleError => .throw
  | .notFoundError => .throw
  | .permissionError => .throw
  | .networkError => .throw
  | .resourceError => .throw
  | .timeoutError => .throw
  | .configError _ => .throw
  | .externalError => .throw

end WarpMotor
