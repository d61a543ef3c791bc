import WarpMotor.Engine.ReloadFailure

/-!
Histories of a running engine: reloads with any outcome, the command with which
the daemon policy starts to quiesce, and the stop of all registered groups. The
log holds every command and wait in order. `installed` lists the groups that
were ever registered, those of the start first.
-/
namespace WarpMotor

def RoleTaskGroup.cmdStop (m : Moment) (rg : RoleTaskGroup) : GroupOutcome :=
  if m.sendOk rg.group.id then ⟨[.stopSent rg], true⟩ else ⟨[], false⟩

def TaskManager.requestRoleStop (tm : TaskManager) (role : TaskRole) (m : Moment) : GroupOutcome :=
  forEach (RoleTaskGroup.cmdStop m) (tm.runningOf role m)

/-- The groups of a set in the order in which `shutdown_unused` stops them. -/
def ProcessingTaskSet.unusedGroups (set : ProcessingTaskSet) : List RoleTaskGroup :=
  ⟨.parser, set.parserGroup⟩ ::
    ((set.sinkGroup.map (fun group => ⟨.sink, group⟩)).toList ++
      [⟨.infra, set.infraGroup⟩, ⟨.maintainer, set.maintGroup⟩])

/-- A set that was built but not installed; the result is not looked at. -/
def ProcessingTaskSet.shutdownUnused (set : ProcessingTaskSet) (m : Moment) : GroupOutcome :=
  forEach (RoleTaskGroup.waitGraceDown m) set.unusedGroups

/-- `unused` is the moment of `shutdown_unused`, should the reload come to it. -/
inductive EngineAction where
  | reload (env : ReloadEnv) (unused : Moment)
  | quiesce (m : Moment)
  | stop (acceptorForce : Bool) (m : Moment)

structure EngineTrace where
  runtime : EngineRuntime
  log : List GroupEvent
  installed : List RoleTaskGroup

/-- The set whose groups a reload registers: any set but one that is shut down unused. -/
def reloadInstalls (rt : EngineRuntime) (env : ReloadEnv) : Option ProcessingTaskSet :=
  match (reloadProcessingP0 rt env).2 with
  | .ok _ => env.prepared
  | .error .resume => env.prepared
  | .error _ => none

/-- The set that a failed reload shuts down unused. -/
def reloadDiscards (rt : EngineRuntime) (env : ReloadEnv) : Option ProcessingTaskSet :=
  match (reloadProcessingP0 rt env).2 with
  | .error .isolate => env.prepared
  | .error .forceStop => env.prepared
  | _ => none

def discardedLog (rt : EngineRuntime) (env : ReloadEnv) (unused : Moment) : List GroupEvent :=
  match reloadDiscards rt env with
  | some processing => (processing.shutdownUnused unused).log
  | none => []

def installedGroups (rt : EngineRuntime) (env : ReloadEnv) : List RoleTaskGroup :=
  match reloadInstalls rt env with
  | some processing => processing.groups
  | none => []

namespace EngineTrace

def start (rt : EngineRuntime) : EngineTrace := ⟨rt, [], rt.taskManager.roleGroups⟩

def step (trace : EngineTrace) : EngineAction → EngineTrace
  | .reload env unused =>
    { runtime := (reloadProcessingP0 trace.runtime env).1
      log := trace.log ++ (reloadLog trace.runtime env ++ discardedLog trace.runtime env unused)
      installed := trace.installed ++ installedGroups trace.runtime env }
  | .quiesce m =>
    { trace with log := trace.log ++ (trace.runtime.taskManager.requestRoleStop .acceptor m).log }
  | .stop acceptorForce m =>
    let stopped := trace.runtime.taskManager.stopRoleGroups acceptorForce m
    { trace with
      runtime := { trace.runtime with taskManager := stopped.1 }
      log := trace.log ++ stopped.2.log }

end EngineTrace

def engineHistory (rt : EngineRuntime) (actions : List EngineAction) : EngineTrace :=
  Runs.run EngineTrace.step (EngineTrace.start rt) actions

end WarpMotor
