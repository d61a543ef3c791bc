import Mathlib.Data.Nat.Notation

/-!
Control commands of the actor loops and the per-task controller that counts
finished work. Instants are natural numbers of milliseconds read from one
monotone clock. Rate limiting is separate: the controller here decides when
a task stops, not how long it sleeps.
-/
namespace WarpMotor

inductive ShutdownCmd where
  | immediate
  | countLimit (limit : Nat)
  | timeout (millis : Nat)
  | noOp
  deriving DecidableEq, Repr

inductive TaskScope where
  | all
  | one (name : String)
  deriving DecidableEq, Repr

inductive ActorCtrlCmd where
  | stop (how : ShutdownCmd)
  | execute (scope : TaskScope)
  | suspend (scope : TaskScope)
  | noOp
  | isolate
  deriving DecidableEq, Repr

def ActorCtrlCmd.isEnd (cmd : ActorCtrlCmd) (totalCnt lastProcTime now : Nat) : Bool :=
  match cmd with
  | .stop .immediate => true
  | .stop (.countLimit limit) => decide (limit ≤ totalCnt)
  | .stop (.timeout millis) => decide (millis < now - lastProcTime)
  | .stop .noOp => false
  | _ => false

structure TaskController where
  workCmd : ActorCtrlCmd
  totalSucCnt : Nat
  unitSucCnt : Nat
  unitSize : Nat
  lastMiss : Option Nat
  deriving DecidableEq, Repr

namespace TaskController

def fromSpeedLimit (unitSize : Nat) : TaskController :=
  { workCmd := .execute .all, totalSucCnt := 0, unitSucCnt := 0, unitSize, lastMiss := none }

/-- Without a rate a unit is 100 items. -/
def new : TaskController := fromSpeedLimit 100

def isUnitEnd (ctrl : TaskController) : Bool := decide (ctrl.unitSize ≤ ctrl.unitSucCnt)

def updateCmd (ctrl : TaskController) (cmd : ActorCtrlCmd) : TaskController :=
  { ctrl with workCmd := cmd }

def getMissTime (ctrl : TaskController) (now : Nat) : Nat := ctrl.lastMiss.getD now

/-- `is_stop` reads the clock twice: once for the missing idle mark, once for the comparison. -/
def isStop (ctrl : TaskController) (missNow now : Nat) : Bool :=
  ctrl.workCmd.isEnd ctrl.totalSucCnt (ctrl.getMissTime missNow) now

def notAlone (ctrl : TaskController) : Bool :=
  match ctrl.workCmd with
  | .isolate => false
  | .stop _ => false
  | _ => true

def totalCount (ctrl : TaskController) : Nat := ctrl.totalSucCnt

def recTaskUnitReset (ctrl : TaskController) : TaskController := { ctrl with unitSucCnt := 0 }

def recTaskSucCnt (ctrl : TaskController) (count : Nat) : TaskController :=
  { ctrl with
    totalSucCnt := ctrl.totalSucCnt + count
    unitSucCnt := ctrl.unitSucCnt + count
    lastMiss := none }

def recTaskIdle (ctrl : TaskController) (now : Nat) : TaskController :=
  if ctrl.lastMiss.isNone then { ctrl with lastMiss := some now } else ctrl

end TaskController
end WarpMotor
