import Mathlib.Order.Monotone.Basic
import Mathlib.Order.Nat
import WarpMotor.Event
import WarpMotor.Record

/-!
What a sink runtime talks to: a backend, the rescue file, the monitor and the
channel for broken backends. Their answers are an environment indexed by a
tick that every question consumes, so a run may meet any sequence of answers.
`BatchMeta` belongs to the connector library and enters through its
operations. Times are nanoseconds of one monotone clock.
-/
namespace WarpMotor

inductive SinkReason where
  | sink | mock | stgCtrl
  | uvs (reason : UnifiedReason)
  deriving DecidableEq, Repr

structure SinkError where
  reason : SinkReason
  detail : Option String
  deriving DecidableEq, Repr

def err4SendToSink (mode : RobustnessMode) (err : SinkError) : ErrorHandlingStrategy :=
  match err.reason with
  | .sink => .fixRetry
  | .mock => .fixRetry
  | .stgCtrl => .fixRetry
  | .uvs reason => universalProcStg mode reason

/-- A backend object. Rescue files are told apart by their sequence number. -/
inductive SinkBackend where
  | real (id : Nat)
  | rescueFile (seq : Nat)
  deriving DecidableEq, Repr

structure ASinkHandle where
  name : String
  instanceId : Nat
  sink : SinkBackend
  deriving DecidableEq, Repr

/-- The operations of `BatchMeta`; `is_empty` is true of the default value only. -/
structure BatchMetaApi (M : Type) where
  default : M
  withOmlName : M → String → M
  setOutputDisabled : M → List String → M
  isEmpty : M → Bool
  isEmpty_default : ∀ batchMeta, isEmpty batchMeta = true → batchMeta = default

/-- A meta with the two parts the runtime fills in. -/
structure PlainMeta where
  omlName : Option String
  outputDisabled : List String
  deriving DecidableEq, Repr

def plainMetaApi : BatchMetaApi PlainMeta where
  default := ⟨none, []⟩
  withOmlName batchMeta name := { batchMeta with omlName := some name }
  setOutputDisabled batchMeta fields := { batchMeta with outputDisabled := fields }
  isEmpty batchMeta := decide (batchMeta = ⟨none, []⟩)
  isEmpty_default _ empty := of_decide_eq_true empty

inductive ProcMeta where
  | wplName (name : String)
  | omlName (name : String)
  | null
  deriving DecidableEq, Repr

structure SinkRecUnit where
  id : Nat
  procMeta : ProcMeta
  data : DataRecord
  deriving DecidableEq, Repr

abbrev SinkPackage := List SinkRecUnit

inductive SinkDataEnum where
  | record (procMeta : ProcMeta) (data : DataRecord)
  | ffv (fields : List DataField)
  | raw (text : String)
  deriving DecidableEq, Repr

/-- The argument of one backend call. -/
inductive SinkPayload (M : Type) where
  | record (data : DataRecord)
  | records (batchMeta : Option M) (data : List DataRecord)
  | str (text : String)
  | strBatch (texts : List String)
  deriving DecidableEq, Repr

/-- How many submitted items a call carries. -/
def SinkPayload.size {M : Type} : SinkPayload M → Nat
  | .record _ => 1
  | .records _ data => data.length
  | .str _ => 1
  | .strBatch texts => texts.length

structure SinkEnv (M : Type) where
  api : BatchMetaApi M
  mode : RobustnessMode
  now : Nat → Nat
  now_mono : Monotone now
  call : Nat → SinkBackend → Except SinkError Unit
  rescueOpen : Nat → Except SinkError Unit
  rescueSeq : Nat → Nat
  fmtTime : Nat → String
  monSend : Nat → Except SinkError Unit
  badSend : Nat → Bool
  stop : Nat → Except SinkError Unit
  rawGenFmt : List DataField → String

/-- An environment with open channels and working rescue files, in which the call at each tick
    finds the real backend broken or not. -/
def plainEnv (broken : Nat → Bool) : SinkEnv PlainMeta where
  api := plainMetaApi
  mode := .normal
  now tick := tick
  now_mono := monotone_id
  call tick backend := match backend with
    | .real _ => if broken tick then .error ⟨.sink, none⟩ else .ok ()
    | .rescueFile _ => .ok ()
  rescueOpen _ := .ok ()
  rescueSeq tick := tick
  fmtTime _ := ""
  monSend _ := .ok ()
  badSend _ := true
  stop _ := .ok ()
  rawGenFmt _ := ""

def healthBackoffBase : Nat := 5 * 10 ^ 9
def healthBackoffMax : Nat := 60 * 10 ^ 9
def u32Max : Nat := 2 ^ 32 - 1

structure SinkHealth where
  failures : Nat
  retryAt : Option Nat
  backoff : Nat
  deriving DecidableEq, Repr

namespace SinkHealth

def new : SinkHealth := { failures := 0, retryAt := none, backoff := healthBackoffBase }

def isOpen (health : SinkHealth) (now : Nat) : Bool :=
  match health.retryAt with
  | some at_ => decide (now < at_)
  | none => false

def onFailure (health : SinkHealth) (now : Nat) : SinkHealth :=
  let failures := min (health.failures + 1) u32Max
  let backoff := if 1 < failures then min (health.backoff * 2) healthBackoffMax else health.backoff
  { failures, backoff, retryAt := some (now + backoff) }

def onSuccess (_ : SinkHealth) : SinkHealth := new

end SinkHealth

inductive StatSlot where
  | normal | backup
  deriving DecidableEq, Repr

inductive StatMark where
  | started | finished
  deriving DecidableEq, Repr

/-- A batch of uncounted dimensions, or one item with the record it is filed under. -/
inductive StatUnit where
  | units (count : Nat)
  | target (record : Option DataRecord)
  deriving DecidableEq, Repr

structure StatEvent where
  mark : StatMark
  slot : StatSlot
  unit : StatUnit
  deriving DecidableEq, Repr

end WarpMotor
