import WarpMotor.Event

/-!
Scheduling policies and round statistics of the picker. `PostPolicy` skips
posting for a growing number of rounds after a round without progress.
`PullPolicy` stops pulling at the high watermark. `RoundStat` is what a round
reports to the dispatch loop.
-/
namespace WarpMotor

/-- Limits read from the memory profile or the environment. -/
structure Limits where
  pickerBurstMax : Nat
  pickerCoalesceTrigger : Nat
  pickerCoalesceMaxEvents : Nat
  pickerPendingMaxBytes : Nat
  deriving DecidableEq, Repr

def pickerPostBackoffInitialRounds : Nat := 1
def pickerPostBackoffMaxRounds : Nat := 8
def pickerPostBackoffGrowthFactor : Nat := 2
def pickerPullLoMultiplier : Nat := 2
def pickerPullHiMultiplier : Nat := 3
def pickerDefaultRoundBatch : Nat := 10
def pickerEventCntOfBatch : Nat := 100

structure PostPlan where
  allow : Bool
  batchSize : Nat
  deriving DecidableEq, Repr

structure PullPlan where
  allow : Bool
  fetchBudget : Nat
  deriving DecidableEq, Repr

structure PostPolicy where
  burst : Nat
  skipRoundsLeft : Nat
  backoffRounds : Nat
  maxBackoffRounds : Nat
  deriving DecidableEq, Repr

namespace PostPolicy

def new (burst : Nat) : PostPolicy :=
  { burst, skipRoundsLeft := 0, backoffRounds := pickerPostBackoffInitialRounds
    maxBackoffRounds := pickerPostBackoffMaxRounds }

/-- Consumes one skipped round; `true` means this round must not post. -/
def inCooldown (p : PostPolicy) : Bool × PostPolicy :=
  if 0 < p.skipRoundsLeft then (true, { p with skipRoundsLeft := p.skipRoundsLeft - 1 })
  else (false, p)

def planPost (p : PostPolicy) (pending : Nat) (fullPost : Bool) : PostPlan :=
  if pending = 0 then { allow := false, batchSize := 0 }
  else
    let batch := if fullPost then pending else min pending p.burst
    { allow := decide (0 < batch), batchSize := batch }

def onPostResult (p : PostPolicy) (progressed : Bool) : PostPolicy :=
  if progressed then { p with skipRoundsLeft := 0, backoffRounds := 1 }
  else
    { p with
      skipRoundsLeft := p.backoffRounds
      backoffRounds := min (p.backoffRounds * pickerPostBackoffGrowthFactor) p.maxBackoffRounds }

end PostPolicy

structure PullPolicy where
  burst : Nat
  lo : Nat
  hi : Nat
  deriving DecidableEq, Repr

namespace PullPolicy

def new (burst : Nat) : PullPolicy :=
  let lo := max (saturatingMul burst pickerPullLoMultiplier) 1
  { burst, lo, hi := max (saturatingMul burst pickerPullHiMultiplier) lo }

def planPull (p : PullPolicy) (pending : Nat) : PullPlan :=
  if p.hi ≤ pending then { allow := false, fetchBudget := 0 }
  else
    let budget := min (p.hi - pending) p.burst
    { allow := decide (0 < budget), fetchBudget := budget }

def planPullFixedRate (p : PullPolicy) : PullPlan :=
  { allow := decide (0 < p.burst), fetchBudget := p.burst }

end PullPolicy

inductive DistStatus where
  | ready | pending | terminal
  deriving DecidableEq, Repr

inductive SrcStatus where
  | ready | miss | terminal
  deriving DecidableEq, Repr

structure RoundStat where
  sendCnt : Nat
  mergeCount : Nat
  roundIdx : Nat
  distStatus : DistStatus
  srcStatus : SrcStatus
  deriving DecidableEq, Repr

namespace RoundStat

def new : RoundStat :=
  { sendCnt := 0, mergeCount := 0, roundIdx := 0, distStatus := .ready, srcStatus := .ready }

/-- Reports whether the burst is over and counts the round either way. -/
def terminalByRound (rs : RoundStat) (limit : Nat) : Bool × RoundStat :=
  (decide (limit ≤ rs.roundIdx), { rs with roundIdx := rs.roundIdx + 1 })

def toDistPending (rs : RoundStat) : RoundStat := { rs with distStatus := .pending }
def toDistTerminal (rs : RoundStat) : RoundStat := { rs with distStatus := .terminal }
def addProc (rs : RoundStat) (delivered : Nat) : RoundStat :=
  { rs with sendCnt := rs.sendCnt + delivered }
def upSrcStatus (rs : RoundStat) (status : SrcStatus) : RoundStat := { rs with srcStatus := status }

def isStop (rs : RoundStat) : Bool :=
  decide (rs.srcStatus = .terminal) || decide (rs.distStatus = .terminal)

/-- Both statuses are taken from `other`, also when `other` never looked at the source. -/
def merge (rs other : RoundStat) : RoundStat :=
  { rs.addProc other.sendCnt with
    mergeCount := rs.mergeCount + (other.mergeCount + 1)
    distStatus := other.distStatus
    srcStatus := other.srcStatus }

def needWait (rs : RoundStat) (haveCnt : Nat) : Bool :=
  (rs.sendCnt == 0 && decide (rs.distStatus = .pending)) ||
    (haveCnt == 0 && decide (rs.srcStatus = .miss))

end RoundStat
end WarpMotor
