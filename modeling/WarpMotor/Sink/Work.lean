import WarpMotor.Actor.Command
import WarpMotor.Actor.ReloadDrain
import WarpMotor.Sink.Dispatcher
import WarpMotor.Sink.Fill

/-!
The loops of the sink worker and of the infrastructure worker, up to the point
where each reports that it is drained and through the work it does after that.
The select of a loop takes any branch that is ready, so a run is any sequence
of events; an event whose branch is switched off leaves the worker as it is.
An error in a branch ends the worker, and the reporter it drops reports an
abort.
-/
namespace WarpMotor

inductive DrainEvent where
  | pending | allClosed | drained
  deriving DecidableEq, Repr

structure DrainState where
  draining : Bool
  openChannels : Nat
  deriving DecidableEq, Repr

namespace DrainState

def new (openChannels : Nat) : DrainState := ⟨false, openChannels⟩

def startDraining (state : DrainState) : DrainState := { state with draining := true }

def channelClosedIsDrained (state : DrainState) : DrainState × DrainEvent :=
  let state := { state with openChannels := state.openChannels - 1 }
  if state.openChannels = 0 then (state, if state.draining then .drained else .allClosed)
  else (state, .pending)

end DrainState

/-- A group's dispatcher with the receiving end of its data channel. -/
structure WorkChannel (M : Type) where
  dispatcher : SinkDispatcher M
  closed : Bool

inductive WorkKind where
  | sink | infra
  deriving DecidableEq, Repr

/-- `leaving`: out of the loop, with the final flush still ahead. -/
inductive WorkPhase where
  | running
  | leaving
  | ended (result : Except SinkError Unit)

structure SinkWorker (M : Type) where
  kind : WorkKind
  channels : List (WorkChannel M)
  runCtrl : TaskController
  drainState : DrainState
  needSendStat : Bool
  reporter : ReloadDrainReporter
  reports : List ReloadDrainEvent
  phase : WorkPhase

/-- Instants are read by the controller: when it marks itself idle and when it compares. -/
inductive WorkEvent where
  | package (channel : Nat) (package : SinkPackage) (now : Nat)
  | closed (channel : Nat)
  | command (cmd : ActorCtrlCmd) (missNow now : Nat)
  | cmdClosed
  | fix (handle : ASinkHandle)
  | statTick
  | flushTick
  deriving DecidableEq, Repr

namespace WorkChannel
variable {M : Type}

/-- A step of the dispatcher as a step of its channel. -/
def lift (f : SinkDispatcher M → SinkDispatcher M × Except SinkError Unit)
    (channel : WorkChannel M) : WorkChannel M × Except SinkError Unit :=
  let (dispatcher, result) := f channel.dispatcher
  ({ channel with dispatcher }, result)

/-- Only the sink worker counts what it receives. -/
def sendStat (kind : WorkKind) : WorkChannel M → WorkChannel M × Except SinkError Unit :=
  lift (fun d =>
    match d.forSinks SinkSlot.sendStat with
    | (d, .error e) => (d, .error e)
    | (d, .ok ()) =>
      match kind with
      | .sink => d.sendIngressStat
      | .infra => (d, .ok ()))

def flush : WorkChannel M → WorkChannel M × Except SinkError Unit :=
  lift (fun d => d.forSinks (SinkSlot.flush workCtx))

def deliver [DecidableEq M] (kind : WorkKind) (package : SinkPackage) (d : SinkDispatcher M) :
    DispatchResult M Nat :=
  match kind with
  | .sink => (d.recordIngressBatch package.length).groupSinkPackage package
  | .infra => d.groupSinkBatchDirect package

/-- The handle goes from group to group until one takes it. -/
def procFix (handle : ASinkHandle) :
    List (WorkChannel M) → List (WorkChannel M) × Except SinkError Unit
  | [] => ([], .ok ())
  | channel :: rest =>
    match channel.dispatcher.procFix handle with
    | (dispatcher, .error e) => ({ channel with dispatcher } :: rest, .error e)
    | (dispatcher, .ok none) => ({ channel with dispatcher } :: rest, .ok ())
    | (dispatcher, .ok (some unmatch)) =>
      let (rest, result) := procFix unmatch rest
      ({ channel with dispatcher } :: rest, result)

/-- `Execute` for one target: every group freezes, then the target wakes up. -/
def obey (cmd : ActorCtrlCmd) (channels : List (WorkChannel M)) : List (WorkChannel M) :=
  match cmd with
  | .execute (.one target) =>
    channels.map (fun channel =>
      { channel with dispatcher := channel.dispatcher.freezeAll.activeOne target })
  | _ => channels

end WorkChannel

namespace SinkWorker
variable {M : Type}

def slots (w : SinkWorker M) : List (SinkSlot M) :=
  w.channels.flatMap (fun channel => channel.dispatcher.sinks)

def notify (w : SinkWorker M) : SinkWorker M :=
  let (reporter, sent) := w.reporter.sendPending .drained
  { w with reporter, reports := w.reports ++ sent }

/-- The worker returns and its reporter is dropped. -/
def leave (result : Except SinkError Unit) (w : SinkWorker M) : SinkWorker M :=
  let (reporter, sent) := w.reporter.sendPending .aborted
  { w with reporter, reports := w.reports ++ sent, phase := .ended result }

/-- A loop over all groups; `andThen` follows when it met no error. -/
def forChannels (f : WorkChannel M → WorkChannel M × Except SinkError Unit)
    (andThen : SinkWorker M → SinkWorker M) (w : SinkWorker M) : SinkWorker M :=
  match Runs.tryEach f w.channels with
  | (channels, .error e) => { w with channels }.leave (.error e)
  | (channels, .ok ()) => andThen { w with channels }

def onPackage [DecidableEq M] (index : Nat) (package : SinkPackage) (now : Nat)
    (w : SinkWorker M) : SinkWorker M :=
  match w.channels[index]? with
  | none => w
  | some channel =>
    if channel.closed then w
    else
      match WorkChannel.deliver w.kind package channel.dispatcher with
      | (dispatcher, .error e) =>
        { w with channels := w.channels.set index { channel with dispatcher } }.leave (.error e)
      | (dispatcher, .ok processed) =>
        { w with
          channels := w.channels.set index { channel with dispatcher }
          runCtrl := if 0 < processed then w.runCtrl.recTaskSucCnt processed
            else w.runCtrl.recTaskIdle now
          needSendStat := true }

/-- The report goes out here, before the loop is left and the buffers are flushed. -/
def onClosed (index : Nat) (w : SinkWorker M) : SinkWorker M :=
  match w.channels[index]? with
  | none => w
  | some channel =>
    if channel.closed then w
    else
      let (drainState, event) := w.drainState.channelClosedIsDrained
      let w := { w with
        drainState, channels := w.channels.set index { channel with closed := true } }
      match event with
      | .pending => { w with needSendStat := w.needSendStat || decide (w.kind = .infra) }
      | .drained => { w.notify with phase := .leaving }
      | .allClosed => { w.notify with phase := .leaving }

def startDraining (w : SinkWorker M) : SinkWorker M :=
  { w with drainState := w.drainState.startDraining }

def onCommand (cmd : ActorCtrlCmd) (missNow now : Nat) (w : SinkWorker M) : SinkWorker M :=
  if w.drainState.draining then w
  else
    let w := { w with
      channels := WorkChannel.obey cmd w.channels, runCtrl := w.runCtrl.updateCmd cmd }
    if w.runCtrl.isStop missNow now then w.startDraining else w

def onFix (handle : ASinkHandle) (w : SinkWorker M) : SinkWorker M :=
  if w.drainState.draining then w
  else
    match WorkChannel.procFix handle w.channels with
    | (channels, .error e) => { w with channels }.leave (.error e)
    | (channels, .ok ()) => { w with channels }

/-- After the loop: flush, report the statistics, stop the backends. -/
def finish (w : SinkWorker M) : SinkWorker M :=
  w.forChannels WorkChannel.flush (fun w =>
    w.forChannels (WorkChannel.sendStat w.kind) (fun w =>
      w.forChannels (WorkChannel.lift SinkDispatcher.procEnd) (fun w => w.leave (.ok ()))))

def loopStep [DecidableEq M] (w : SinkWorker M) : WorkEvent → SinkWorker M
  | .package index package now => w.onPackage index package now
  | .closed index => w.onClosed index
  | .command cmd missNow now => w.onCommand cmd missNow now
  | .cmdClosed => if w.drainState.draining then w else w.startDraining
  | .fix handle => w.onFix handle
  | .statTick =>
    if w.needSendStat then
      { w with needSendStat := false }.forChannels (WorkChannel.sendStat w.kind) id
    else w
  | .flushTick => w.forChannels WorkChannel.flush (fun w => { w with needSendStat := true })

/-- A worker out of its loop goes on by itself, whatever happens around it. -/
def step [DecidableEq M] (w : SinkWorker M) (event : WorkEvent) : SinkWorker M :=
  match w.phase with
  | .running => w.loopStep event
  | .leaving => w.finish
  | .ended _ => w

end SinkWorker

/-- A sink as configured, on its backend. -/
structure SlotConf (M : Type) where
  env : SinkEnv M
  conf : SinkConf
  sink : SinkBackend
  cond : Option (DataRecord → Bool)
  filterExpect : Bool
  preTags : List DataField

def SlotConf.slot {M : Type} (c : SlotConf M) : SinkSlot M :=
  { env := c.env, state := SinkState.start c.env.api c.conf c.sink, ready := true, cond := c.cond
    filterExpect := c.filterExpect, preTags := c.preTags, inputs := [] }

structure GroupConf (M : Type) where
  env : DispatchEnv
  name : String
  sinks : List (SlotConf M)
  models : List DataModel
  globalTags : Option GlobalTags

def GroupConf.channel {M : Type} (c : GroupConf M) : WorkChannel M :=
  { dispatcher :=
      { env := c.env, name := c.name, sinks := c.sinks.map SlotConf.slot, models := c.models
        globalTags := c.globalTags, ingressPending := 0, errors := [], tick := 0 }
    closed := false }

structure InfraGroups (M : Type) where
  default : GroupConf M
  miss : GroupConf M
  residue : GroupConf M
  monitor : GroupConf M
  error : GroupConf M

/-- `async_proc` and `async_proc_infra` before the first turn of their loops. -/
inductive WorkStart (M : Type) where
  | sink (group : GroupConf M)
  | infra (groups : InfraGroups M)

def WorkStart.worker {M : Type} (reporter : ReloadDrainReporter) : WorkStart M → SinkWorker M
  | .sink group =>
    { kind := .sink, channels := [group.channel], runCtrl := .new, drainState := .new 1
      needSendStat := false, reporter, reports := [], phase := .running }
  | .infra groups =>
    { kind := .infra
      channels := [groups.default.channel, groups.miss.channel, groups.residue.channel,
        groups.monitor.channel, groups.error.channel]
      runCtrl := .new, drainState := .new 5, needSendStat := false, reporter, reports := []
      phase := .running }

end WarpMotor
