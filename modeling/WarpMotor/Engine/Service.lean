import WarpMotor.Lib.Runs
import WarpMotor.Actor.Routine
import WarpMotor.Picker.Router

/-!
The engine runtime: how its role groups are registered at start, and what a
processing reload does to them. A reload isolates the pickers, disconnects the
parse router, drains the processing groups and detaches them (or, when the
drain fails, stops them), installs the replacement and resumes the pickers.
Each stage of a reload runs at a moment of its own.
-/
namespace WarpMotor

structure ProcessingTaskSet where
  parserSenders : List Nat
  parserGroup : TaskGroup
  infraGroup : TaskGroup
  sinkGroup : Option TaskGroup
  maintGroup : TaskGroup
  deriving DecidableEq, Repr

structure DetachedProcessingGroup where
  rg : RoleTaskGroup
  stopDeadline : Nat
  deriving DecidableEq, Repr

structure EngineRuntime where
  taskManager : TaskManager
  parseRouter : ParseDispatchRouter Nat
  reloadTimeout : Nat
  detachedProcessingGroups : List DetachedProcessingGroup
  deriving DecidableEq, Repr

/-- The groups of a processing set in registration order. -/
def ProcessingTaskSet.groups (set : ProcessingTaskSet) : List RoleTaskGroup :=
  ⟨.infra, set.infraGroup⟩ ::
    ((set.sinkGroup.map (fun group => ⟨.sink, group⟩)).toList ++
      [⟨.maintainer, set.maintGroup⟩, ⟨.parser, set.parserGroup⟩])

def ProcessingTaskSet.install (set : ProcessingTaskSet) (tm : TaskManager) : TaskManager :=
  set.groups.foldl (fun tm rg => tm.appendGroupWithRole rg.role rg.group) tm

/-- What `start_warp_service` has built when it starts to register groups. -/
structure ServiceParts where
  acceptorGroup : Option TaskGroup
  moniGroup : TaskGroup
  processing : ProcessingTaskSet
  pickerGroup : TaskGroup
  reloadTimeout : Nat
  deriving DecidableEq, Repr

def startWarpService (parts : ServiceParts) : EngineRuntime :=
  let tm : TaskManager := { roleGroups := [] }
  let tm := match parts.acceptorGroup with
    | some group => tm.appendGroupWithRole .acceptor group
    | none => tm
  let tm := tm.appendGroupWithRole .monitor parts.moniGroup
  let tm := parts.processing.install tm
  { taskManager := tm.appendGroupWithRole .picker parts.pickerGroup
    parseRouter := ParseDispatchRouter.new parts.processing.parserSenders
    reloadTimeout := parts.reloadTimeout
    detachedProcessingGroups := [] }

namespace EngineRuntime

/-- One detached group of the prune loop: awaited when finished, stopped when overdue. -/
def closeDetached (m : Moment) (d : DetachedProcessingGroup) : GroupOutcome :=
  if m.finished d.rg.group.id then d.rg.waitFinished m else d.rg.waitGraceDownWithTimeout m

def detachedDue (m : Moment) (d : DetachedProcessingGroup) : Bool :=
  m.finished d.rg.group.id || decide (d.stopDeadline ≤ m.now)

def pruneFinishedBackgroundProcessing (rt : EngineRuntime) (m : Moment) :
    EngineRuntime × GroupOutcome :=
  let pruned := rt.taskManager.pruneFinishedGroups m
  let rt := { rt with taskManager := pruned.1 }
  if pruned.2.ok then
    let closed := forEach (closeDetached m) (rt.detachedProcessingGroups.filter (detachedDue m))
    let left := rt.detachedProcessingGroups.filter (fun d => !detachedDue m d)
    ({ rt with detachedProcessingGroups := if closed.ok then left else [] },
      ⟨pruned.2.log ++ closed.log, closed.ok⟩)
  else (rt, pruned.2)

/-- Run `next` after a stage unless the stage failed. -/
def andThen (stage : EngineRuntime × GroupOutcome)
    (next : EngineRuntime → EngineRuntime × GroupOutcome) : EngineRuntime × GroupOutcome :=
  if stage.2.ok then
    let after := next stage.1
    (after.1, ⟨stage.2.log ++ after.2.log, after.2.ok⟩)
  else stage

def stopRole (role : TaskRole) (m : Moment) (rt : EngineRuntime) : EngineRuntime × GroupOutcome :=
  let stopped := rt.taskManager.stopRole role m
  ({ rt with taskManager := stopped.1 }, stopped.2)

def isolatePicker (prune isolate : Moment) (rt : EngineRuntime) : EngineRuntime × GroupOutcome :=
  andThen (rt.pruneFinishedBackgroundProcessing prune)
    (fun rt => (rt, rt.taskManager.isolateRole .picker isolate))

def resumePicker (prune execute : Moment) (rt : EngineRuntime) : EngineRuntime × GroupOutcome :=
  andThen (rt.pruneFinishedBackgroundProcessing prune)
    (fun rt => (rt, rt.taskManager.executeRoleAll .picker execute))

def disconnectParseRouter (rt : EngineRuntime) : EngineRuntime :=
  { rt with parseRouter := rt.parseRouter.beginReload }

def detachRole (stopDeadline : Nat) (role : TaskRole) (rt : EngineRuntime) : EngineRuntime :=
  let detached := rt.taskManager.detachRole role
  { rt with
    taskManager := detached.2
    detachedProcessingGroups :=
      rt.detachedProcessingGroups ++ detached.1.map (fun rg => ⟨rg, stopDeadline⟩) }

def detachProcessingRoles (stopDeadline : Nat) (rt : EngineRuntime) : EngineRuntime :=
  detachRole stopDeadline .infra (detachRole stopDeadline .sink
    (detachRole stopDeadline .parser rt))

/-- `drained` is the end of the drain loop: every role quiesced, or a timeout or an abort. -/
def waitProcessingDrained (drained : Bool) (stopMaint prune : Moment) (rt : EngineRuntime) :
    EngineRuntime × GroupOutcome :=
  if drained then
    andThen (rt.stopRole .maintainer stopMaint) (fun rt =>
      (rt.detachProcessingRoles (stopMaint.now + rt.reloadTimeout)).pruneFinishedBackgroundProcessing
        prune)
  else (rt, ⟨[], false⟩)

def forceStopProcessing (m : TaskRole → Moment) (prune : Moment) (rt : EngineRuntime) :
    EngineRuntime × GroupOutcome :=
  andThen (rt.stopRole .parser (m .parser)) (fun rt =>
    andThen (rt.stopRole .sink (m .sink)) (fun rt =>
      andThen (rt.stopRole .infra (m .infra)) (fun rt =>
        andThen (rt.stopRole .maintainer (m .maintainer)) (fun rt =>
          rt.pruneFinishedBackgroundProcessing prune))))

def installProcessingTasks (processing : ProcessingTaskSet) (rt : EngineRuntime) : EngineRuntime :=
  { rt with
    parseRouter := rt.parseRouter.replace processing.parserSenders
    taskManager := processing.install rt.taskManager }

end EngineRuntime

/-- Inputs of one reload. `prepared = none`: loading the resources or starting the tasks failed. -/
structure ReloadEnv where
  prepared : Option ProcessingTaskSet
  pruneAtIsolate : Moment
  isolate : Moment
  drained : Bool
  stopMaint : Moment
  pruneAtDrain : Moment
  forceStop : TaskRole → Moment
  pruneAtForce : Moment
  pruneAtResume : Moment
  execute : Moment

inductive ReloadFailure where
  | prepare | isolate | forceStop | resume
  deriving DecidableEq, Repr

/-- The tail of `reload_processing_p0`, from the installation on. -/
def finishReload (env : ReloadEnv) (processing : ProcessingTaskSet) (forced : Bool)
    (rt : EngineRuntime) : EngineRuntime × Except ReloadFailure Bool :=
  let resumed := (rt.installProcessingTasks processing).resumePicker env.pruneAtResume env.execute
  (resumed.1, if resumed.2.ok then .ok forced else .error .resume)

def reloadProcessingP0 (rt : EngineRuntime) (env : ReloadEnv) :
    EngineRuntime × Except ReloadFailure Bool :=
  match env.prepared with
  | none => (rt, .error .prepare)
  | some processing =>
    let isolated := rt.isolatePicker env.pruneAtIsolate env.isolate
    if isolated.2.ok then
      let drained := isolated.1.disconnectParseRouter.waitProcessingDrained env.drained
        env.stopMaint env.pruneAtDrain
      if drained.2.ok then finishReload env processing false drained.1
      else
        let stopped := drained.1.forceStopProcessing env.forceStop env.pruneAtForce
        if stopped.2.ok then finishReload env processing true stopped.1
        else (stopped.1, .error .forceStop)
    else (isolated.1, .error .isolate)

/-- A successful reload as a step of a history. -/
def reloadStep (rt : EngineRuntime) (env : ReloadEnv) : Except ReloadFailure EngineRuntime :=
  match reloadProcessingP0 rt env with
  | (rt, .ok _) => .ok rt
  | (_, .error failure) => .error failure

end WarpMotor
