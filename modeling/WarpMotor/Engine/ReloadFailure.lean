import WarpMotor.Engine.Shutdown

/-!
What a failed processing reload leaves behind. A reload can fail while it
builds the new tasks, while it isolates the pickers, in the forced stop and
when it resumes the pickers. Only the first two leave the engine as it was,
the second only when nothing had finished and no picker had obeyed: nothing
after the isolation is undone, so a later failure leaves the old processing
groups gone and the pickers isolated.
-/
namespace WarpMotor

/-- The commands and waits of one reload, in order. The tasks that were never installed are shut
    down apart from the registered groups and do not appear. -/
def reloadLog (rt : EngineRuntime) (env : ReloadEnv) : List GroupEvent :=
  match env.prepared with
  | none => []
  | some processing =>
    let isolated := rt.isolatePicker env.pruneAtIsolate env.isolate
    if isolated.2.ok then
      let drained := isolated.1.disconnectParseRouter.waitProcessingDrained env.drained
        env.stopMaint env.pruneAtDrain
      if drained.2.ok then
        isolated.2.log ++ drained.2.log ++ ((drained.1.installProcessingTasks processing).resumePicker
          env.pruneAtResume env.execute).2.log
      else
        let stopped := drained.1.forceStopProcessing env.forceStop env.pruneAtForce
        if stopped.2.ok then
          isolated.2.log ++ drained.2.log ++ stopped.2.log ++
            ((stopped.1.installProcessingTasks processing).resumePicker
              env.pruneAtResume env.execute).2.log
        else isolated.2.log ++ drained.2.log ++ stopped.2.log
    else isolated.2.log

/-- How one event changes whether the group `rg` is isolated. -/
def GroupEvent.alone (rg : RoleTaskGroup) (before : Bool) : GroupEvent → Bool
  | .isolated other => if other = rg then true else before
  | .executed other => if other = rg then false else before
  | .stopSent _ => before
  | .waited _ => before

def leftIsolated (log : List GroupEvent) (rg : RoleTaskGroup) : Bool :=
  log.foldl (GroupEvent.alone rg) false

/-- What a failed reload is to leave: the parsers can be reached, or are those that could be
    reached before; no picker is isolated; the registered groups are the same. -/
structure Intact (isOpen : Nat → Bool) (rt : EngineRuntime) (env : ReloadEnv) : Prop where
  routed : (∃ sender ∈ (reloadProcessingP0 rt env).1.parseRouter.senders, isOpen sender = true) ∨
    (reloadProcessingP0 rt env).1.parseRouter.senders = rt.parseRouter.senders
  free : ∀ rg ∈ rt.taskManager.roleGroups, rg.role = .picker →
    leftIsolated (reloadLog rt env) rg = false
  kept : (reloadProcessingP0 rt env).1.taskManager.roleGroups = rt.taskManager.roleGroups

/-- The new groups are not registered yet. -/
def ReloadEnv.Fresh (env : ReloadEnv) (rt : EngineRuntime) : Prop :=
  ∀ processing, env.prepared = some processing →
    ∀ rg ∈ processing.groups, rg ∉ rt.taskManager.roleGroups

def StaysFinished (first second : Moment) : Prop :=
  ∀ id, first.finished id = true → second.finished id = true

theorem StaysFinished.unfinished {first second : Moment} (stays : StaysFinished first second)
    {id : Nat} (running : second.finished id = false) : first.finished id = false := by
  cases finished : first.finished id with
  | false => rfl
  | true =>
    have ended := stays id finished
    rw [running] at ended
    cases ended

/-- A finished group stays finished through the stages. -/
def ReloadEnv.Ordered (env : ReloadEnv) : Prop :=
  [env.pruneAtIsolate, env.isolate, env.pruneAtDrain, env.pruneAtForce, env.pruneAtResume,
    env.execute].Pairwise StaysFinished

/-- No registered group is a picker or a processing group, and none has finished. -/
def EngineRuntime.Bare (rt : EngineRuntime) (m : Moment) : Prop :=
  ∀ rg ∈ rt.taskManager.roleGroups,
    rg.role ≠ .picker ∧ isProcessingRole rg.role = false ∧ m.finished rg.group.id = false

/-- When a failure at each point does no harm. -/
def FailsSafely (isOpen : Nat → Bool) (rt : EngineRuntime) (env : ReloadEnv) :
    ReloadFailure → Prop
  | .prepare => True
  | .isolate =>
    (∀ rg ∈ rt.taskManager.roleGroups, env.pruneAtIsolate.finished rg.group.id = false) ∧
    ((∃ d ∈ rt.detachedProcessingGroups, EngineRuntime.detachedDue env.pruneAtIsolate d = true ∧
        (EngineRuntime.closeDetached env.pruneAtIsolate d).ok = false) ∨
      ∃ rg rest, rt.taskManager.runningOf .picker env.isolate = rg :: rest ∧
        env.isolate.sendOk rg.group.id = false)
  | .forceStop => rt.parseRouter.senders = [] ∧ rt.Bare env.pruneAtForce
  | .resume => rt.Bare env.pruneAtResume ∧ ∃ processing, env.prepared = some processing ∧
      (∀ rg ∈ processing.groups, env.pruneAtResume.finished rg.group.id = true) ∧
      ((∃ sender ∈ processing.parserSenders, isOpen sender = true) ∨
        processing.parserSenders = rt.parseRouter.senders)

section Logs

theorem leftIsolated_of_mem {log : List GroupEvent} {rg : RoleTaskGroup}
    (isolated : .isolated rg ∈ log) (unexecuted : .executed rg ∉ log) :
    leftIsolated log rg = true := by
  unfold leftIsolated
  have stays : ∀ (rest : List GroupEvent), .executed rg ∉ rest →
      rest.foldl (GroupEvent.alone rg) true = true := by
    intro rest
    induction rest with
    | nil => intro _; rfl
    | cons event rest ih =>
      intro absent
      rw [List.mem_cons, not_or] at absent
      rw [List.foldl_cons]
      have step : event.alone rg true = true := by
        cases event with
        | executed other =>
          have different : ¬ other = rg := fun same => absent.1 (by rw [same])
          simp [GroupEvent.alone, different]
        | isolated other => simp [GroupEvent.alone]
        | stopSent other => rfl
        | waited other => rfl
      rw [step]
      exact ih absent.2
  obtain ⟨before, after, rfl⟩ := List.append_of_mem isolated
  rw [List.foldl_append, List.foldl_cons]
  have reached : GroupEvent.alone rg (before.foldl (GroupEvent.alone rg) false) (.isolated rg) =
      true := by simp [GroupEvent.alone]
  rw [reached]
  exact stays after (fun later => unexecuted (by simp [later]))

theorem leftIsolated_of_not_mem {log : List GroupEvent} {rg : RoleTaskGroup}
    (absent : .isolated rg ∉ log) : leftIsolated log rg = false := by
  unfold leftIsolated
  induction log with
  | nil => rfl
  | cons event rest ih =>
    rw [List.mem_cons, not_or] at absent
    have step : event.alone rg false = false := by
      cases event with
      | isolated other =>
        have different : ¬ other = rg := fun same => absent.1 (by rw [same])
        simp [GroupEvent.alone, different]
      | executed other => simp [GroupEvent.alone]
      | stopSent other => rfl
      | waited other => rfl
    rw [List.foldl_cons, step]
    exact ih absent.2

/-- A stop command or a wait: neither isolates nor releases a group. -/
def GroupEvent.isClosing : GroupEvent → Bool
  | .stopSent _ => true
  | .waited _ => true
  | .isolated _ => false
  | .executed _ => false

def Closing (out : GroupOutcome) : Prop := ∀ event ∈ out.log, event.isClosing = true

theorem forEach_log_mem {α : Type} {act : α → GroupOutcome} {items : List α} {event : GroupEvent}
    (member : event ∈ (forEach act items).log) : ∃ item ∈ items, event ∈ (act item).log := by
  induction items with
  | nil => simp [forEach] at member
  | cons item rest ih =>
    simp only [forEach] at member
    split at member
    · rcases List.mem_append.mp member with first | later
      · exact ⟨item, by simp, first⟩
      · obtain ⟨other, inside, logged⟩ := ih later
        exact ⟨other, by simp [inside], logged⟩
    · exact ⟨item, by simp, member⟩

/-- A loop that ends well has logged what each of its actions logs. -/
theorem forEach_logs {α : Type} {act : α → GroupOutcome} {items : List α} {item : α}
    {event : GroupEvent} (ok : (forEach act items).ok = true) (member : item ∈ items)
    (logged : event ∈ (act item).log) : event ∈ (forEach act items).log := by
  induction items with
  | nil => cases member
  | cons first rest ih =>
    have all := (forEach_ok_iff act (first :: rest)).mp ok
    have later := (forEach_ok_iff act rest).mpr (fun x inside => all x (by simp [inside]))
    simp only [forEach, all first (by simp), if_true, List.mem_append]
    rcases List.mem_cons.mp member with rfl | inside
    · exact Or.inl logged
    · exact Or.inr (ih later inside)

theorem forEach_closing {α : Type} {act : α → GroupOutcome} (each : ∀ item, Closing (act item))
    (items : List α) : Closing (forEach act items) := by
  intro event member
  obtain ⟨item, -, logged⟩ := forEach_log_mem member
  exact each item event logged

theorem waitFinished_closing (m : Moment) (rg : RoleTaskGroup) : Closing (rg.waitFinished m) := by
  unfold RoleTaskGroup.waitFinished
  split <;> simp [Closing, GroupEvent.isClosing]

theorem waitGraceDown_closing (m : Moment) (rg : RoleTaskGroup) : Closing (rg.waitGraceDown m) := by
  unfold RoleTaskGroup.waitGraceDown
  repeat' split
  all_goals simp [Closing, GroupEvent.isClosing]

theorem waitGraceDownWithTimeout_closing (m : Moment) (rg : RoleTaskGroup) :
    Closing (rg.waitGraceDownWithTimeout m) := by
  unfold RoleTaskGroup.waitGraceDownWithTimeout
  repeat' split
  all_goals simp [Closing, GroupEvent.isClosing]

end Logs

namespace EngineRuntime

section Stages

theorem andThen_closing {stage : EngineRuntime × GroupOutcome}
    {next : EngineRuntime → EngineRuntime × GroupOutcome} (first : Closing stage.2)
    (second : ∀ rt, Closing (next rt).2) : Closing (andThen stage next).2 := by
  unfold andThen
  split
  · intro event member
    rcases List.mem_append.mp member with early | late
    · exact first event early
    · exact second stage.1 event late
  · exact first

theorem prune_groups (rt : EngineRuntime) (m : Moment) :
    (rt.pruneFinishedBackgroundProcessing m).1.taskManager.roleGroups =
      rt.taskManager.roleGroups.filter (fun rg => !m.finished rg.group.id) := by
  obtain ⟨awaited, left⟩ := TaskManager.pruneFinishedGroups_spec rt.taskManager m
  simp [pruneFinishedBackgroundProcessing, awaited, left]

theorem prune_ok_iff (rt : EngineRuntime) (m : Moment) :
    (rt.pruneFinishedBackgroundProcessing m).2.ok = true ↔
      ∀ d ∈ rt.detachedProcessingGroups, detachedDue m d = true → (closeDetached m d).ok = true := by
  obtain ⟨awaited, -⟩ := TaskManager.pruneFinishedGroups_spec rt.taskManager m
  simp [pruneFinishedBackgroundProcessing, awaited, forEach_ok_iff]

theorem prune_router (rt : EngineRuntime) (m : Moment) :
    (rt.pruneFinishedBackgroundProcessing m).1.parseRouter = rt.parseRouter := by
  unfold pruneFinishedBackgroundProcessing
  dsimp only
  split <;> rfl

theorem drainGroups_closing (tm : TaskManager) (taken : RoleTaskGroup → Bool)
    {close : RoleTaskGroup → GroupOutcome} (each : ∀ rg, Closing (close rg)) :
    Closing (tm.drainGroups taken close).2 := by
  unfold TaskManager.drainGroups
  dsimp only
  split <;> exact forEach_closing each _

theorem closeDetached_closing (m : Moment) (d : DetachedProcessingGroup) :
    Closing (closeDetached m d) := by
  unfold closeDetached
  split
  · exact waitFinished_closing _ _
  · exact waitGraceDownWithTimeout_closing _ _

theorem prune_closing (rt : EngineRuntime) (m : Moment) :
    Closing (rt.pruneFinishedBackgroundProcessing m).2 := by
  have pruned : Closing (rt.taskManager.pruneFinishedGroups m).2 :=
    drainGroups_closing _ _ (waitFinished_closing m)
  unfold pruneFinishedBackgroundProcessing
  dsimp only
  split
  · intro event member
    rcases List.mem_append.mp member with early | late
    · exact pruned event early
    · exact forEach_closing (closeDetached_closing m) _ event late
  · exact pruned

theorem stopRole_closing (rt : EngineRuntime) (role : TaskRole) (m : Moment) :
    Closing (rt.stopRole role m).2 :=
  drainGroups_closing _ _ (waitGraceDown_closing m)

theorem waitProcessingDrained_closing (rt : EngineRuntime) (drained : Bool)
    (stopMaint prune : Moment) :
    Closing (rt.waitProcessingDrained drained stopMaint prune).2 := by
  unfold waitProcessingDrained
  split
  · refine andThen_closing (stopRole_closing _ _ _) ?_
    intro rt
    exact prune_closing _ _
  · intro event member
    cases member

theorem forceStopProcessing_closing (rt : EngineRuntime) (m : TaskRole → Moment) (prune : Moment) :
    Closing (rt.forceStopProcessing m prune).2 := by
  unfold forceStopProcessing
  refine andThen_closing (stopRole_closing _ _ _) (fun rt => ?_)
  refine andThen_closing (stopRole_closing _ _ _) (fun rt => ?_)
  refine andThen_closing (stopRole_closing _ _ _) (fun rt => ?_)
  exact andThen_closing (stopRole_closing _ _ _) (fun rt => prune_closing _ _)

/-- The runtime after a stage is that of one of its two parts. -/
theorem andThen_runtime {stage : EngineRuntime × GroupOutcome}
    {next : EngineRuntime → EngineRuntime × GroupOutcome} {P : EngineRuntime → Prop}
    (failed : stage.2.ok = false → P stage.1) (passed : stage.2.ok = true → P (next stage.1).1) :
    P (andThen stage next).1 := by
  unfold andThen
  split
  · rename_i ok
    exact passed ok
  · rename_i broken
    exact failed (Bool.not_eq_true _ ▸ broken)

theorem waitProcessingDrained_router (rt : EngineRuntime) (drained : Bool)
    (stopMaint prune : Moment) :
    (rt.waitProcessingDrained drained stopMaint prune).1.parseRouter = rt.parseRouter := by
  unfold waitProcessingDrained
  split
  · refine andThen_runtime (P := fun after => after.parseRouter = rt.parseRouter) ?_ ?_
    · intro _
      rfl
    · intro _
      exact prune_router ..
  · rfl

theorem forceStopProcessing_router (rt : EngineRuntime) (m : TaskRole → Moment) (prune : Moment) :
    (rt.forceStopProcessing m prune).1.parseRouter = rt.parseRouter := by
  unfold forceStopProcessing
  let P := fun (after : EngineRuntime) => after.parseRouter = rt.parseRouter
  refine andThen_runtime (P := P) (fun _ => rfl) (fun _ => ?_)
  refine andThen_runtime (P := P) (fun _ => rfl) (fun _ => ?_)
  refine andThen_runtime (P := P) (fun _ => rfl) (fun _ => ?_)
  exact andThen_runtime (P := P) (fun _ => rfl) (fun _ => prune_router ..)

/-- A stop that fails loses every group; one that succeeds removes the groups of its role. -/
theorem stopRole_groups (rt : EngineRuntime) (role : TaskRole) (m : Moment) :
    (rt.stopRole role m).1.taskManager.roleGroups =
      if (rt.stopRole role m).2.ok then
        rt.taskManager.roleGroups.filter (fun rg => !decide (rg.role = role))
      else [] := by
  simp only [stopRole, TaskManager.stopRole, TaskManager.drainGroups]
  split <;> simp_all

/-- Whether it fails or not, the forced stop leaves no processing group and none that its last
    stage found finished. -/
theorem forceStopProcessing_left (rt : EngineRuntime) (m : TaskRole → Moment) (prune : Moment) :
    ∀ rg ∈ (rt.forceStopProcessing m prune).1.taskManager.roleGroups,
      isProcessingRole rg.role = false ∧ prune.finished rg.group.id = false := by
  unfold forceStopProcessing
  let P := fun (after : EngineRuntime) => ∀ rg ∈ after.taskManager.roleGroups,
    isProcessingRole rg.role = false ∧ prune.finished rg.group.id = false
  have lost : ∀ (rt : EngineRuntime) role, (rt.stopRole role (m role)).2.ok = false →
      P (rt.stopRole role (m role)).1 := by
    intro rt role broken rg member
    rw [stopRole_groups, broken] at member
    cases member
  refine andThen_runtime (P := P) (lost _ _) (fun parserDown => ?_)
  refine andThen_runtime (P := P) (lost _ _) (fun sinkDown => ?_)
  refine andThen_runtime (P := P) (lost _ _) (fun infraDown => ?_)
  refine andThen_runtime (P := P) (lost _ _) (fun maintDown => ?_)
  intro rg member
  simp only [prune_groups, stopRole_groups, maintDown, infraDown, sinkDown, parserDown, if_true,
    List.mem_filter, Bool.not_eq_true', decide_eq_false_iff_not] at member
  obtain ⟨⟨⟨⟨⟨-, parser⟩, sink⟩, infra⟩, maint⟩, unfinished⟩ := member
  constructor
  · cases role : rg.role <;> simp_all [isProcessingRole]
  · exact unfinished

end Stages

section Points

def reloadIsolated (rt : EngineRuntime) (env : ReloadEnv) : EngineRuntime × GroupOutcome :=
  rt.isolatePicker env.pruneAtIsolate env.isolate

def reloadDrained (rt : EngineRuntime) (env : ReloadEnv) : EngineRuntime × GroupOutcome :=
  (rt.reloadIsolated env).1.disconnectParseRouter.waitProcessingDrained env.drained env.stopMaint
    env.pruneAtDrain

def reloadStopped (rt : EngineRuntime) (env : ReloadEnv) : EngineRuntime × GroupOutcome :=
  (rt.reloadDrained env).1.forceStopProcessing env.forceStop env.pruneAtForce

/-- The runtime into which the new tasks are installed, and the log that led to it. -/
def reloadEmptied (rt : EngineRuntime) (env : ReloadEnv) : EngineRuntime × List GroupEvent :=
  if (rt.reloadDrained env).2.ok then ((rt.reloadDrained env).1, (rt.reloadDrained env).2.log)
  else ((rt.reloadStopped env).1, (rt.reloadDrained env).2.log ++ (rt.reloadStopped env).2.log)

def reloadResumed (rt : EngineRuntime) (env : ReloadEnv) (processing : ProcessingTaskSet) :
    EngineRuntime × GroupOutcome :=
  ((rt.reloadEmptied env).1.installProcessingTasks processing).resumePicker env.pruneAtResume
    env.execute

theorem reload_of_prepared (rt : EngineRuntime) {env : ReloadEnv} {processing : ProcessingTaskSet}
    (prepared : env.prepared = some processing) :
    reloadProcessingP0 rt env =
      if (rt.reloadIsolated env).2.ok then
        if (rt.reloadDrained env).2.ok || (rt.reloadStopped env).2.ok then
          ((rt.reloadResumed env processing).1, if (rt.reloadResumed env processing).2.ok
            then .ok (!(rt.reloadDrained env).2.ok) else .error .resume)
        else ((rt.reloadStopped env).1, .error .forceStop)
      else ((rt.reloadIsolated env).1, .error .isolate) := by
  simp only [reloadProcessingP0, prepared, finishReload, reloadResumed, reloadEmptied]
  simp only [reloadStopped, reloadDrained, reloadIsolated]
  repeat' split
  all_goals simp_all

theorem reloadLog_of_prepared (rt : EngineRuntime) {env : ReloadEnv}
    {processing : ProcessingTaskSet} (prepared : env.prepared = some processing) :
    reloadLog rt env =
      if (rt.reloadIsolated env).2.ok then
        if (rt.reloadDrained env).2.ok || (rt.reloadStopped env).2.ok then
          (rt.reloadIsolated env).2.log ++ (rt.reloadEmptied env).2 ++
            (rt.reloadResumed env processing).2.log
        else (rt.reloadIsolated env).2.log ++ (rt.reloadDrained env).2.log ++
          (rt.reloadStopped env).2.log
      else (rt.reloadIsolated env).2.log := by
  simp only [reloadLog, prepared, reloadResumed, reloadEmptied]
  simp only [reloadStopped, reloadDrained, reloadIsolated]
  repeat' split
  all_goals simp_all

/-- What is known when the reload fails at each of its points. -/
def FailedAt (rt : EngineRuntime) (env : ReloadEnv) : ReloadFailure → Prop
  | .prepare => (reloadProcessingP0 rt env).1 = rt ∧ reloadLog rt env = []
  | .isolate => (rt.reloadIsolated env).2.ok = false ∧
      (reloadProcessingP0 rt env).1 = (rt.reloadIsolated env).1 ∧
      reloadLog rt env = (rt.reloadIsolated env).2.log
  | .forceStop => (rt.reloadIsolated env).2.ok = true ∧
      (reloadProcessingP0 rt env).1 = (rt.reloadStopped env).1 ∧
      reloadLog rt env = (rt.reloadIsolated env).2.log ++ (rt.reloadDrained env).2.log ++
        (rt.reloadStopped env).2.log
  | .resume => (rt.reloadIsolated env).2.ok = true ∧
      ∃ processing, env.prepared = some processing ∧
        (rt.reloadResumed env processing).2.ok = false ∧
        (reloadProcessingP0 rt env).1 = (rt.reloadResumed env processing).1 ∧
        reloadLog rt env = (rt.reloadIsolated env).2.log ++ (rt.reloadEmptied env).2 ++
          (rt.reloadResumed env processing).2.log

theorem reload_failed {rt : EngineRuntime} {env : ReloadEnv} {failure : ReloadFailure}
    (failed : (reloadProcessingP0 rt env).2 = .error failure) : rt.FailedAt env failure := by
  cases prepared : env.prepared with
  | none =>
    simp only [reloadProcessingP0, prepared] at failed
    cases failed
    simp [FailedAt, reloadProcessingP0, reloadLog, prepared]
  | some processing =>
    have reload := reload_of_prepared rt prepared
    have log := reloadLog_of_prepared rt prepared
    rw [reload] at failed
    split at failed
    · rename_i isolated
      rw [if_pos isolated] at reload log
      split at failed
      · rename_i emptied
        rw [if_pos emptied] at reload log
        dsimp only at failed
        split at failed
        · cases failed
        · rename_i resumed
          cases failed
          exact ⟨isolated, processing, prepared, Bool.not_eq_true _ ▸ resumed,
            by rw [reload], log⟩
      · rename_i stuck
        rw [if_neg stuck] at reload log
        cases failed
        exact ⟨isolated, by rw [reload], log⟩
    · rename_i isolated
      rw [if_neg isolated] at reload log
      cases failed
      exact ⟨Bool.not_eq_true _ ▸ isolated, by rw [reload], log⟩

theorem reloadIsolated_groups (rt : EngineRuntime) (env : ReloadEnv) :
    (rt.reloadIsolated env).1.taskManager.roleGroups =
      rt.taskManager.roleGroups.filter (fun rg => !env.pruneAtIsolate.finished rg.group.id) := by
  rw [← prune_groups]
  exact andThen_runtime (P := fun after => after.taskManager.roleGroups = _)
    (fun _ => rfl) (fun _ => rfl)

theorem reloadIsolated_router (rt : EngineRuntime) (env : ReloadEnv) :
    (rt.reloadIsolated env).1.parseRouter = rt.parseRouter := by
  rw [← prune_router rt env.pruneAtIsolate]
  exact andThen_runtime (P := fun after => after.parseRouter = _) (fun _ => rfl) (fun _ => rfl)

theorem cmdAlone_mem {m : Moment} {rg : RoleTaskGroup} {event : GroupEvent}
    (member : event ∈ (rg.cmdAlone m).log) : event = .isolated rg := by
  simpa using (cmdAlone_log m rg).subset member

theorem isolateRole_unexecuted (tm : TaskManager) (role : TaskRole) (m : Moment)
    (rg : RoleTaskGroup) : .executed rg ∉ (tm.isolateRole role m).log := by
  intro member
  obtain ⟨other, -, logged⟩ := forEach_log_mem member
  cases cmdAlone_mem logged

theorem reloadIsolated_unexecuted (rt : EngineRuntime) (env : ReloadEnv) (rg : RoleTaskGroup) :
    .executed rg ∉ (rt.reloadIsolated env).2.log := by
  have pruned : .executed rg ∉ (rt.pruneFinishedBackgroundProcessing env.pruneAtIsolate).2.log := by
    intro member
    cases prune_closing rt env.pruneAtIsolate _ member
  unfold reloadIsolated isolatePicker andThen
  split
  · intro member
    rcases List.mem_append.mp member with early | late
    · exact pruned early
    · exact isolateRole_unexecuted _ _ _ rg late
  · exact pruned

/-- An isolation that succeeds reaches every picker that is still running. -/
theorem reloadIsolated_reaches {rt : EngineRuntime} {env : ReloadEnv} {rg : RoleTaskGroup}
    (isolated : (rt.reloadIsolated env).2.ok = true) (member : rg ∈ rt.taskManager.roleGroups)
    (picker : rg.role = .picker) (unpruned : env.pruneAtIsolate.finished rg.group.id = false)
    (running : env.isolate.finished rg.group.id = false) :
    .isolated rg ∈ (rt.reloadIsolated env).2.log := by
  obtain ⟨pruned, alone, -⟩ := andThen_ok isolated
  dsimp only at alone
  have inside : rg ∈ (rt.pruneFinishedBackgroundProcessing env.pruneAtIsolate).1.taskManager.runningOf
      .picker env.isolate := by
    simp [TaskManager.runningOf, prune_groups, member, picker, unpruned, running]
  have accepted := (forEach_ok_iff _ _).mp alone rg inside
  have logged : .isolated rg ∈ (rg.cmdAlone env.isolate).log := by
    unfold RoleTaskGroup.cmdAlone at accepted ⊢
    split at accepted
    · rename_i sent
      simp [sent]
    · cases accepted
  unfold reloadIsolated isolatePicker andThen
  rw [if_pos pruned]
  exact List.mem_append_right _ (forEach_logs alone inside logged)

theorem reloadDrained_closing (rt : EngineRuntime) (env : ReloadEnv) :
    Closing (rt.reloadDrained env).2 :=
  waitProcessingDrained_closing _ _ _ _

theorem reloadStopped_closing (rt : EngineRuntime) (env : ReloadEnv) :
    Closing (rt.reloadStopped env).2 :=
  forceStopProcessing_closing _ _ _

theorem reloadEmptied_closing (rt : EngineRuntime) (env : ReloadEnv) :
    ∀ event ∈ (rt.reloadEmptied env).2, event.isClosing = true := by
  unfold reloadEmptied
  split
  · exact reloadDrained_closing rt env
  · intro event member
    rcases List.mem_append.mp member with early | late
    · exact reloadDrained_closing rt env event early
    · exact reloadStopped_closing rt env event late

theorem reloadStopped_router (rt : EngineRuntime) (env : ReloadEnv) :
    (rt.reloadStopped env).1.parseRouter.senders = [] := by
  unfold reloadStopped
  rw [forceStopProcessing_router]
  unfold reloadDrained
  rw [waitProcessingDrained_router]
  rfl

/-- Nothing of the old processing is registered when the new tasks are installed. -/
theorem reloadEmptied_left (rt : EngineRuntime) (env : ReloadEnv) :
    ∀ rg ∈ (rt.reloadEmptied env).1.taskManager.roleGroups, isProcessingRole rg.role = false := by
  intro rg member
  unfold reloadEmptied at member
  split at member
  · rename_i drained
    have roles := (waitProcessingDrained_ok drained).subset (List.mem_map_of_mem member)
    simpa using (List.mem_filter.mp roles).2
  · exact (forceStopProcessing_left _ _ _ rg member).1

section Kept
variable {rt : EngineRuntime} {env : ReloadEnv} {m : Moment}

theorem filter_unfinished {groups : List RoleTaskGroup} {before : Moment}
    (later : StaysFinished before m)
    (running : ∀ rg ∈ groups, m.finished rg.group.id = false) :
    groups.filter (fun rg => !before.finished rg.group.id) = groups := by
  rw [List.filter_eq_self]
  intro rg member
  rw [later.unfinished (running rg member)]
  rfl

theorem prune_keeps (bare : rt.Bare m) {before : Moment} (later : StaysFinished before m) :
    (rt.pruneFinishedBackgroundProcessing before).1.taskManager.roleGroups =
      rt.taskManager.roleGroups := by
  rw [prune_groups]
  exact filter_unfinished later (fun rg member => (bare rg member).2.2)

theorem Bare.congr {other : EngineRuntime} (bare : rt.Bare m)
    (same : other.taskManager.roleGroups = rt.taskManager.roleGroups) : other.Bare m := by
  unfold Bare
  rw [same]
  exact bare

/-- With no group of the role there is nothing to stop, and the stop succeeds. -/
theorem stopRole_keeps (bare : rt.Bare m) (role : TaskRole) (processing : isProcessingRole role = true)
    (moment : Moment) :
    (rt.stopRole role moment).1.taskManager.roleGroups = rt.taskManager.roleGroups := by
  have other : ∀ rg ∈ rt.taskManager.roleGroups, ¬ rg.role = role := by
    intro rg member same
    have unprocessing := (bare rg member).2.1
    rw [same, processing] at unprocessing
    cases unprocessing
  have none : rt.taskManager.roleGroups.filter (fun rg => decide (rg.role = role)) = [] := by
    rw [List.filter_eq_nil_iff]
    intro rg member
    simpa using other rg member
  have all : rt.taskManager.roleGroups.filter (fun rg => !decide (rg.role = role)) =
      rt.taskManager.roleGroups := by
    rw [List.filter_eq_self]
    intro rg member
    simpa using other rg member
  simp [stopRole, TaskManager.stopRole, TaskManager.drainGroups, none, all, forEach]

theorem detachRole_keeps (bare : rt.Bare m) (role : TaskRole)
    (processing : isProcessingRole role = true) (deadline : Nat) :
    (rt.detachRole deadline role).taskManager.roleGroups = rt.taskManager.roleGroups := by
  simp only [detachRole, TaskManager.detachRole]
  rw [List.filter_eq_self]
  intro rg member
  have unprocessing := (bare rg member).2.1
  simp only [ne_eq, decide_not, Bool.not_eq_true', decide_eq_false_iff_not]
  intro same
  rw [same, processing] at unprocessing
  cases unprocessing

theorem waitProcessingDrained_keeps (bare : rt.Bare m) (drained : Bool) (stopMaint : Moment)
    {prune : Moment} (later : StaysFinished prune m) :
    (rt.waitProcessingDrained drained stopMaint prune).1.taskManager.roleGroups =
      rt.taskManager.roleGroups := by
  have stopped := stopRole_keeps bare .maintainer rfl stopMaint
  unfold waitProcessingDrained
  split
  · refine andThen_runtime (P := fun after => after.taskManager.roleGroups = _)
      (fun _ => stopped) (fun _ => ?_)
    have bareStopped := bare.congr stopped
    generalize (rt.stopRole .maintainer stopMaint).1 = rt at stopped bareStopped ⊢
    have parsers := detachRole_keeps bareStopped .parser rfl (stopMaint.now + rt.reloadTimeout)
    have sinks := detachRole_keeps (bareStopped.congr parsers) .sink rfl
      (stopMaint.now + rt.reloadTimeout)
    have infra := detachRole_keeps ((bareStopped.congr parsers).congr sinks) .infra rfl
      (stopMaint.now + rt.reloadTimeout)
    have detached := (infra.trans sinks).trans parsers
    exact ((prune_keeps (bareStopped.congr detached) later).trans detached).trans stopped
  · rfl

theorem forceStopProcessing_keeps (bare : rt.Bare m) (moments : TaskRole → Moment)
    {prune : Moment} (later : StaysFinished prune m) :
    (rt.forceStopProcessing moments prune).1.taskManager.roleGroups =
      rt.taskManager.roleGroups := by
  let P := fun (after : EngineRuntime) => after.taskManager.roleGroups = rt.taskManager.roleGroups
  have stop : ∀ before, P before → ∀ role, isProcessingRole role = true →
      P (before.stopRole role (moments role)).1 := by
    intro before same role processing
    exact (stopRole_keeps (bare.congr same) role processing _).trans same
  have parsers := stop rt rfl .parser rfl
  have sinks := stop _ parsers .sink rfl
  have infra := stop _ sinks .infra rfl
  have maint := stop _ infra .maintainer rfl
  unfold forceStopProcessing
  refine andThen_runtime (P := P) (fun _ => parsers) (fun _ => ?_)
  refine andThen_runtime (P := P) (fun _ => sinks) (fun _ => ?_)
  refine andThen_runtime (P := P) (fun _ => infra) (fun _ => ?_)
  refine andThen_runtime (P := P) (fun _ => maint) (fun _ => ?_)
  exact (prune_keeps (bare.congr maint) later).trans maint

theorem reloadStages_keep (bare : rt.Bare m) (first : StaysFinished env.pruneAtIsolate m)
    (second : StaysFinished env.pruneAtDrain m) (third : StaysFinished env.pruneAtForce m) :
    (rt.reloadStopped env).1.taskManager.roleGroups = rt.taskManager.roleGroups ∧
      (rt.reloadEmptied env).1.taskManager.roleGroups = rt.taskManager.roleGroups := by
  have isolated : (rt.reloadIsolated env).1.taskManager.roleGroups = rt.taskManager.roleGroups := by
    rw [reloadIsolated_groups]
    exact filter_unfinished first (fun rg member => (bare rg member).2.2)
  have bareIsolated : (rt.reloadIsolated env).1.disconnectParseRouter.Bare m := bare.congr isolated
  have drained : (rt.reloadDrained env).1.taskManager.roleGroups = rt.taskManager.roleGroups :=
    (waitProcessingDrained_keeps bareIsolated _ _ second).trans isolated
  have stopped : (rt.reloadStopped env).1.taskManager.roleGroups = rt.taskManager.roleGroups :=
    (forceStopProcessing_keeps (bare.congr drained) _ third).trans drained
  constructor
  · exact stopped
  · unfold reloadEmptied
    split
    · exact drained
    · exact stopped

end Kept

theorem reloadResumed_groups (rt : EngineRuntime) (env : ReloadEnv) (processing : ProcessingTaskSet) :
    (rt.reloadResumed env processing).1.taskManager.roleGroups =
      ((rt.reloadEmptied env).1.taskManager.roleGroups ++ processing.groups).filter
        (fun rg => !env.pruneAtResume.finished rg.group.id) := by
  rw [← install_roleGroups]
  refine Eq.trans ?_ (prune_groups ((rt.reloadEmptied env).1.installProcessingTasks processing)
    env.pruneAtResume)
  exact andThen_runtime (P := fun after => after.taskManager.roleGroups = _)
    (fun _ => rfl) (fun _ => rfl)

theorem reloadResumed_router (rt : EngineRuntime) (env : ReloadEnv) (processing : ProcessingTaskSet) :
    (rt.reloadResumed env processing).1.parseRouter.senders = processing.parserSenders := by
  refine Eq.trans (congrArg ParseDispatchRouter.senders ?_) (congrArg ParseDispatchRouter.senders
    (prune_router ((rt.reloadEmptied env).1.installProcessingTasks processing) env.pruneAtResume))
  exact andThen_runtime (P := fun after => after.parseRouter = _) (fun _ => rfl) (fun _ => rfl)

/-- A resumption that fails has released no picker, or a running picker refused. -/
theorem reloadResumed_fails {rt : EngineRuntime} {env : ReloadEnv} {processing : ProcessingTaskSet}
    (broken : (rt.reloadResumed env processing).2.ok = false) :
    Closing (rt.reloadResumed env processing).2 ∨
      ∃ rg ∈ (rt.reloadResumed env processing).1.taskManager.roleGroups, rg.role = .picker ∧
        env.execute.finished rg.group.id = false ∧
        .executed rg ∉ (rt.reloadResumed env processing).2.log := by
  have closing := prune_closing ((rt.reloadEmptied env).1.installProcessingTasks processing)
    env.pruneAtResume
  unfold reloadResumed resumePicker andThen at broken ⊢
  split at broken
  · rename_i pruned
    rw [if_pos pruned]
    right
    dsimp only at broken ⊢
    generalize (((rt.reloadEmptied env).1.installProcessingTasks
      processing).pruneFinishedBackgroundProcessing env.pruneAtResume) = stage at *
    have refused : ¬ ∀ rg ∈ stage.1.taskManager.runningOf .picker env.execute,
        (rg.cmdExecuteAll env.execute).ok = true := by
      rw [← forEach_ok_iff]
      exact Bool.eq_false_iff.mp broken
    simp only [not_forall] at refused
    obtain ⟨rg, running, unsent⟩ := refused
    simp only [TaskManager.runningOf, List.mem_filter, Bool.and_eq_true, decide_eq_true_eq,
      Bool.not_eq_true'] at running
    obtain ⟨member, picker, unfinished⟩ := running
    refine ⟨rg, member, picker, unfinished, ?_⟩
    intro logged
    rcases List.mem_append.mp logged with early | late
    · cases closing _ early
    · obtain ⟨other, -, event⟩ := forEach_log_mem late
      unfold RoleTaskGroup.cmdExecuteAll at event unsent
      split at event
      · rename_i sent
        simp only [List.mem_singleton, GroupEvent.executed.injEq] at event
        rw [event, if_pos sent] at unsent
        exact unsent rfl
      · cases event
  · rename_i unpruned
    rw [if_neg unpruned]
    exact Or.inl closing

end Points

section Verdict
variable {isOpen : Nat → Bool} {rt : EngineRuntime} {env : ReloadEnv}

/-- A picker that the isolation reached and that nothing released later is left isolated. -/
theorem isolated_of_closing {rest : List GroupEvent} {rg : RoleTaskGroup}
    (isolated : .isolated rg ∈ (rt.reloadIsolated env).2.log)
    (unexecuted : .executed rg ∉ rest) :
    leftIsolated ((rt.reloadIsolated env).2.log ++ rest) rg = true := by
  refine leftIsolated_of_mem (List.mem_append_left _ isolated) ?_
  rw [List.mem_append, not_or]
  exact ⟨reloadIsolated_unexecuted rt env rg, unexecuted⟩

/-- With no finished group the pickers to isolate are those of the engine as it was. -/
theorem isolateRole_pruned
    (kept : rt.taskManager.roleGroups.filter (fun rg => !env.pruneAtIsolate.finished rg.group.id) =
      rt.taskManager.roleGroups) :
    (rt.pruneFinishedBackgroundProcessing env.pruneAtIsolate).1.taskManager.isolateRole .picker
      env.isolate = forEach (RoleTaskGroup.cmdAlone env.isolate)
        (rt.taskManager.runningOf .picker env.isolate) := by
  simp only [TaskManager.isolateRole, TaskManager.runningOf, prune_groups, kept]

theorem reloadIsolated_pruned
    (pruned : (rt.pruneFinishedBackgroundProcessing env.pruneAtIsolate).2.ok = true)
    (kept : rt.taskManager.roleGroups.filter (fun rg => !env.pruneAtIsolate.finished rg.group.id) =
      rt.taskManager.roleGroups) :
    (rt.reloadIsolated env).2.ok = (forEach (RoleTaskGroup.cmdAlone env.isolate)
        (rt.taskManager.runningOf .picker env.isolate)).ok ∧
      (rt.reloadIsolated env).2.log =
        (rt.pruneFinishedBackgroundProcessing env.pruneAtIsolate).2.log ++
          (forEach (RoleTaskGroup.cmdAlone env.isolate)
            (rt.taskManager.runningOf .picker env.isolate)).log := by
  unfold reloadIsolated isolatePicker andThen
  rw [if_pos pruned]
  dsimp only
  rw [isolateRole_pruned kept]
  exact ⟨rfl, rfl⟩

/-- An isolation that failed and left every picker free was refused by the first one. -/
theorem first_picker_refused
    (pruned : (rt.pruneFinishedBackgroundProcessing env.pruneAtIsolate).2.ok = true)
    (kept : rt.taskManager.roleGroups.filter (fun rg => !env.pruneAtIsolate.finished rg.group.id) =
      rt.taskManager.roleGroups)
    (broken : (rt.reloadIsolated env).2.ok = false)
    (free : ∀ rg ∈ rt.taskManager.roleGroups, rg.role = .picker →
      leftIsolated (rt.reloadIsolated env).2.log rg = false) :
    ∃ rg rest, rt.taskManager.runningOf .picker env.isolate = rg :: rest ∧
      env.isolate.sendOk rg.group.id = false := by
  obtain ⟨ok, log⟩ := reloadIsolated_pruned pruned kept
  rw [ok] at broken
  cases running : rt.taskManager.runningOf .picker env.isolate with
  | nil => simp [running, forEach] at broken
  | cons rg rest =>
    refine ⟨rg, rest, rfl, ?_⟩
    cases sent : env.isolate.sendOk rg.group.id with
    | false => rfl
    | true =>
      have first : rg ∈ rt.taskManager.runningOf .picker env.isolate := by simp [running]
      simp only [TaskManager.runningOf, List.mem_filter, Bool.and_eq_true,
        decide_eq_true_eq] at first
      have reached : .isolated rg ∈ (rt.reloadIsolated env).2.log := by
        simp [log, running, forEach, RoleTaskGroup.cmdAlone, sent]
      have alone := free rg first.1 first.2.1
      rw [leftIsolated_of_mem reached (reloadIsolated_unexecuted rt env rg)] at alone
      cases alone

/-- An isolation that stopped before the first picker obeyed has isolated nobody. -/
theorem nobody_isolated
    (kept : rt.taskManager.roleGroups.filter (fun rg => !env.pruneAtIsolate.finished rg.group.id) =
      rt.taskManager.roleGroups)
    (refused : (∃ d ∈ rt.detachedProcessingGroups, detachedDue env.pruneAtIsolate d = true ∧
        (closeDetached env.pruneAtIsolate d).ok = false) ∨
      ∃ rg rest, rt.taskManager.runningOf .picker env.isolate = rg :: rest ∧
        env.isolate.sendOk rg.group.id = false) (rg : RoleTaskGroup) :
    .isolated rg ∉ (rt.reloadIsolated env).2.log := by
  have closing := prune_closing rt env.pruneAtIsolate
  cases pruned : (rt.pruneFinishedBackgroundProcessing env.pruneAtIsolate).2.ok with
  | false =>
    intro logged
    unfold reloadIsolated isolatePicker andThen at logged
    rw [if_neg (by simp [pruned])] at logged
    cases closing _ logged
  | true =>
    obtain ⟨-, log⟩ := reloadIsolated_pruned pruned kept
    rw [log]
    rcases refused with ⟨d, inside, due, stuck⟩ | ⟨first, rest, running, unsent⟩
    · have closed := (prune_ok_iff rt env.pruneAtIsolate).mp pruned d inside due
      rw [stuck] at closed
      cases closed
    · intro logged
      rcases List.mem_append.mp logged with early | late
      · cases closing _ early
      · simp [running, forEach, RoleTaskGroup.cmdAlone, unsent] at late

theorem isolate_intact_iff (failed : rt.FailedAt env .isolate) :
    Intact isOpen rt env ↔ FailsSafely isOpen rt env .isolate := by
  obtain ⟨broken, runtime, log⟩ := failed
  have groups := reloadIsolated_groups rt env
  constructor
  · rintro ⟨-, free, kept⟩
    rw [runtime, groups] at kept
    rw [log] at free
    have unfinished : ∀ rg ∈ rt.taskManager.roleGroups,
        env.pruneAtIsolate.finished rg.group.id = false := by
      simpa using List.filter_eq_self.mp kept
    constructor
    · exact unfinished
    · cases pruned : (rt.pruneFinishedBackgroundProcessing env.pruneAtIsolate).2.ok with
      | false =>
        left
        have stuck := (not_congr (prune_ok_iff rt env.pruneAtIsolate)).mp (by simp [pruned])
        simpa using stuck
      | true => exact Or.inr (first_picker_refused pruned kept broken free)
  · rintro ⟨unfinished, refused⟩
    have kept : rt.taskManager.roleGroups.filter
        (fun rg => !env.pruneAtIsolate.finished rg.group.id) = rt.taskManager.roleGroups :=
      List.filter_eq_self.mpr (by simpa using unfinished)
    constructor
    · right
      rw [runtime, reloadIsolated_router]
    · intro rg _ _
      rw [log]
      exact leftIsolated_of_not_mem (nobody_isolated kept refused rg)
    · rw [runtime, groups, kept]

theorem forceStop_intact_iff (ordered : env.Ordered) (failed : rt.FailedAt env .forceStop) :
    Intact isOpen rt env ↔ FailsSafely isOpen rt env .forceStop := by
  obtain ⟨isolated, runtime, log⟩ := failed
  simp only [ReloadEnv.Ordered, List.pairwise_cons, List.mem_cons, List.not_mem_nil, or_false,
    forall_eq_or_imp, forall_eq] at ordered
  obtain ⟨⟨-, -, pruneLater, -⟩, ⟨-, isolateLater, -⟩, ⟨drainLater, -⟩, -⟩ := ordered
  constructor
  · rintro ⟨routed, free, kept⟩
    rw [runtime] at kept
    rw [runtime, reloadStopped_router] at routed
    constructor
    · rcases routed with ⟨sender, absurdMember, -⟩ | same
      · cases absurdMember
      · exact same.symm
    · intro rg member
      have left := member
      rw [← kept] at left
      obtain ⟨unprocessing, unfinished⟩ := forceStopProcessing_left _ _ _ rg left
      refine ⟨?_, unprocessing, unfinished⟩
      intro picker
      have reached := reloadIsolated_reaches isolated member picker
        (pruneLater.unfinished unfinished) (isolateLater.unfinished unfinished)
      have alone := free rg member picker
      rw [log, List.append_assoc, isolated_of_closing reached] at alone
      · cases alone
      · intro logged
        rcases List.mem_append.mp logged with early | late
        · cases reloadDrained_closing rt env _ early
        · cases reloadStopped_closing rt env _ late
  · rintro ⟨unrouted, bare⟩
    obtain ⟨kept, -⟩ := reloadStages_keep bare pruneLater drainLater (fun _ finished => finished)
    refine ⟨Or.inr ?_, ?_, ?_⟩
    · rw [runtime, reloadStopped_router, unrouted]
    · intro rg member picker
      exact absurd picker (bare rg member).1
    · rw [runtime, kept]

theorem resume_intact_iff (fresh : env.Fresh rt) (ordered : env.Ordered)
    (failed : rt.FailedAt env .resume) :
    Intact isOpen rt env ↔ FailsSafely isOpen rt env .resume := by
  obtain ⟨isolated, processing, prepared, broken, runtime, log⟩ := failed
  simp only [ReloadEnv.Ordered, List.pairwise_cons, List.mem_cons, List.not_mem_nil, or_false,
    forall_eq_or_imp, forall_eq] at ordered
  obtain ⟨⟨-, -, -, pruneLater, -⟩, ⟨-, -, isolateLater, -⟩, ⟨-, drainLater, -⟩, ⟨forceLater, -⟩, -⟩ :=
    ordered
  have groups := reloadResumed_groups rt env processing
  have senders := reloadResumed_router rt env processing
  constructor
  · rintro ⟨routed, free, kept⟩
    rw [runtime] at kept
    rw [runtime, senders] at routed
    have inside : ∀ rg ∈ rt.taskManager.roleGroups, isProcessingRole rg.role = false ∧
        env.pruneAtResume.finished rg.group.id = false := by
      intro rg member
      have final := member
      rw [← kept, groups, List.mem_filter, List.mem_append] at final
      obtain ⟨source, unfinished⟩ := final
      rcases source with old | new
      · exact ⟨reloadEmptied_left rt env rg old, by simpa using unfinished⟩
      · exact absurd member (fresh processing prepared rg new)
    -- A picker of the old groups was isolated, and must have been released since.
    have released : ∀ rg ∈ rt.taskManager.roleGroups, rg.role = .picker →
        .executed rg ∈ (rt.reloadResumed env processing).2.log := by
      intro rg member picker
      have running := (inside rg member).2
      have reached := reloadIsolated_reaches isolated member picker
        (pruneLater.unfinished running) (isolateLater.unfinished running)
      have alone := free rg member picker
      by_contra unexecuted
      rw [log, List.append_assoc, isolated_of_closing reached] at alone
      · cases alone
      · intro logged
        rcases List.mem_append.mp logged with before | after
        · cases reloadEmptied_closing rt env _ before
        · exact unexecuted after
    refine ⟨?_, processing, prepared, ?_, routed⟩
    · intro rg member
      refine ⟨?_, inside rg member⟩
      intro picker
      rcases reloadResumed_fails broken with closing | ⟨other, registered, otherPicker, -, refused⟩
      · cases closing _ (released rg member picker)
      · rw [kept] at registered
        exact refused (released other registered otherPicker)
    · intro rg new
      cases finished : env.pruneAtResume.finished rg.group.id with
      | true => rfl
      | false =>
        refine absurd ?_ (fresh processing prepared rg new)
        rw [← kept, groups, List.mem_filter]
        exact ⟨List.mem_append_right _ new, by simp [finished]⟩
  · rintro ⟨bare, other, preparedOther, finished, routed⟩
    rw [prepared, Option.some.injEq] at preparedOther
    subst preparedOther
    obtain ⟨-, kept⟩ := reloadStages_keep bare pruneLater drainLater forceLater
    refine ⟨?_, ?_, ?_⟩
    · rw [runtime, senders]
      exact routed
    · intro rg member picker
      exact absurd picker (bare rg member).1
    · have gone : processing.groups.filter (fun rg => !env.pruneAtResume.finished rg.group.id) =
          [] := by
        rw [List.filter_eq_nil_iff]
        intro rg new
        simp [finished rg new]
      rw [runtime, groups, kept, List.filter_append, gone, List.append_nil]
      exact filter_unfinished (fun _ ended => ended) (fun rg member => (bare rg member).2.2)

end Verdict

end EngineRuntime

/-- At each point at which a reload can fail, the engine is left intact exactly when that point
    does no harm. After the isolation that takes an engine with nothing left to lose. -/
theorem failed_reload_intact_iff (isOpen : Nat → Bool) (rt : EngineRuntime) (env : ReloadEnv)
    (fresh : env.Fresh rt) (ordered : env.Ordered) (failure : ReloadFailure)
    (failed : (reloadProcessingP0 rt env).2 = .error failure) :
    Intact isOpen rt env ↔ FailsSafely isOpen rt env failure := by
  have known := EngineRuntime.reload_failed failed
  cases failure with
  | prepare =>
    obtain ⟨runtime, log⟩ := known
    simp only [FailsSafely, iff_true]
    refine ⟨Or.inr (by rw [runtime]), ?_, by rw [runtime]⟩
    intro rg _ _
    rw [log]
    rfl
  | isolate => exact EngineRuntime.isolate_intact_iff known
  | forceStop => exact EngineRuntime.forceStop_intact_iff ordered known
  | resume => exact EngineRuntime.resume_intact_iff fresh ordered known

/-- The picker group refuses the isolate command: nothing has been touched yet. -/
theorem refused_isolation_is_harmless :
    (reloadProcessingP0 (startWarpService daemonParts)
        { gracefulReload with isolate := { smoothMoment with sendOk := fun id => id ≠ 6 } }).2 =
      .error .isolate ∧
    Intact (fun _ => true) (startWarpService daemonParts)
      { gracefulReload with isolate := { smoothMoment with sendOk := fun id => id ≠ 6 } } := by
  refine ⟨rfl, (failed_reload_intact_iff _ _ _ ?_ ?_ .isolate rfl).mpr ?_⟩
  · intro processing prepared
    cases prepared
    decide
  · simp [ReloadEnv.Ordered, StaysFinished, gracefulReload, smoothMoment]
  · exact ⟨by decide, Or.inr ⟨_, _, rfl, rfl⟩⟩

/-- The drain times out and a parser task ends in a panic while it is awaited. -/
def panickedParser : ReloadEnv :=
  { gracefulReload with
    drained := false
    forceStop := fun _ => { smoothMoment with joinOk := fun id => id ≠ 2 } }

/-- The reload fails with no parser in the router, no registered group and the picker isolated. -/
theorem failed_stop_leaves_engine_broken :
    (reloadProcessingP0 (startWarpService daemonParts) panickedParser).2 = .error .forceStop ∧
    (reloadProcessingP0 (startWarpService daemonParts) panickedParser).1.parseRouter.senders = [] ∧
    (reloadProcessingP0 (startWarpService daemonParts) panickedParser).1.taskManager.roleGroups =
      [] ∧
    leftIsolated (reloadLog (startWarpService daemonParts) panickedParser)
      ⟨.picker, ⟨6, "picker"⟩⟩ = true ∧
    ∀ isOpen, ¬ Intact isOpen (startWarpService daemonParts) panickedParser := by
  refine ⟨rfl, rfl, rfl, by decide, ?_⟩
  rintro isOpen ⟨-, -, kept⟩
  have lost : ([] : List RoleTaskGroup) = (startWarpService daemonParts).taskManager.roleGroups := kept
  exact absurd lost (by decide)

end WarpMotor
