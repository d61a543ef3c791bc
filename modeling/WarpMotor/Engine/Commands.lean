import WarpMotor.Lib.Broadcast
import WarpMotor.Engine.History

/-!
The command channels of the task groups. Each group keeps a receiver of its own,
which its tasks' receivers are cloned from and which never receives; tasks
subscribe, receive and leave at any time. The engine broadcasts the commands of
its history one after the other and waits at a channel that is full.
-/
namespace WarpMotor
open Broadcasting

/-- `stored` is the `cmd_sub` of the group. -/
inductive Subscriber where
  | stored
  | task (k : Nat)
  deriving DecidableEq, Repr

abbrev CmdChannel := Broadcast Subscriber ActorCtrlCmd

/-- The channel made by `TaskGroup::new`. -/
def newCmdChannel : CmdChannel := .new 1000 .stored

/-- What the tasks of a group do with their receivers. -/
inductive TaskStep where
  | subscribe (k : Nat)
  | clone (k copy : Nat)
  | receive (k : Nat)
  | leave (k : Nat)
  deriving DecidableEq, Repr

def taskStep (channel : CmdChannel) : TaskStep → CmdChannel
  | .subscribe k => channel.clone .stored (.task k)
  | .clone k copy => channel.clone (.task k) (.task copy)
  | .receive k => channel.receive (.task k)
  | .leave k => channel.close (.task k)

/-- A command and the group it is broadcast to. -/
abbrev GroupCommand := RoleTaskGroup × ActorCtrlCmd

def GroupEvent.command : GroupEvent → Option GroupCommand
  | .isolated rg => some (rg, .isolate)
  | .executed rg => some (rg, .execute .all)
  | .stopSent rg => some (rg, .stop .immediate)
  | .waited _ => none

def commandsOf (log : List GroupEvent) : List GroupCommand := log.filterMap GroupEvent.command

def commandsTo (rg : RoleTaskGroup) (commands : List GroupCommand) : Nat :=
  commands.countP (fun command => command.1 = rg)

structure CommandWorld where
  channels : RoleTaskGroup → CmdChannel
  todo : List GroupCommand

inductive CommandStep where
  | task (rg : RoleTaskGroup) (step : TaskStep)
  | send

namespace CommandWorld

def start (commands : List GroupCommand) : CommandWorld := ⟨fun _ => newCmdChannel, commands⟩

def setChannel (w : CommandWorld) (rg : RoleTaskGroup) (channel : CmdChannel) : CommandWorld :=
  { w with channels := fun other => if other = rg then channel else w.channels other }

/-- A broadcast on a full channel waits: nothing changes. -/
def step (w : CommandWorld) : CommandStep → CommandWorld
  | .task rg taskDoes => w.setChannel rg (taskStep (w.channels rg) taskDoes)
  | .send =>
    match w.todo with
    | [] => w
    | (rg, cmd) :: rest =>
      match (w.channels rg).broadcast cmd with
      | some channel => { w.setChannel rg channel with todo := rest }
      | none => w

/-- The engine stands at a broadcast that does not complete. -/
def Waits (w : CommandWorld) : Prop :=
  ∃ rg cmd rest, w.todo = (rg, cmd) :: rest ∧ (w.channels rg).isFull = true

end CommandWorld

/-- No broadcast of the commands waits, whatever the tasks do in between. -/
def EveryCommandCompletes (commands : List GroupCommand) : Prop :=
  ∀ steps, ¬ (Runs.run CommandWorld.step (CommandWorld.start commands) steps).Waits

section Channels

/-- A channel whose group still keeps its receiver. -/
structure Kept (channel : CmdChannel) : Prop where
  stored : (Subscriber.stored, 0) ∈ channel.receivers
  capacity : channel.capacity = 1000
  bounded : channel.sent.length ≤ 1000

theorem newCmdChannel_kept : Kept newCmdChannel :=
  ⟨List.mem_singleton.mpr rfl, rfl, Nat.zero_le _⟩

/-- The buffer of a group holds every command it was ever sent. -/
theorem Kept.isFull_iff {channel : CmdChannel} (kept : Kept channel) :
    channel.isFull = true ↔ channel.sent.length = 1000 := by
  have whole := Broadcast.occupancy_of_idle kept.stored
  have bounded := kept.bounded
  rw [Broadcast.isFull, decide_eq_true_iff, kept.capacity, whole]
  omega

theorem taskStep_sent (channel : CmdChannel) (taskDoes : TaskStep) :
    (taskStep channel taskDoes).sent = channel.sent := by
  cases taskDoes <;> rfl

theorem Kept.taskStep {channel : CmdChannel} (kept : Kept channel) (taskDoes : TaskStep) :
    Kept (taskStep channel taskDoes) := by
  have different : ∀ k, Subscriber.stored ≠ .task k := by
    intro k same
    cases same
  cases taskDoes with
  | subscribe k => exact ⟨Broadcast.clone_keeps kept.stored, kept.capacity, kept.bounded⟩
  | clone k copy => exact ⟨Broadcast.clone_keeps kept.stored, kept.capacity, kept.bounded⟩
  | receive k =>
    exact ⟨Broadcast.receive_keeps (different k) kept.stored, kept.capacity, kept.bounded⟩
  | leave k => exact ⟨Broadcast.close_keeps (different k) kept.stored, kept.capacity, kept.bounded⟩

theorem Kept.broadcast {channel after : CmdChannel} {cmd : ActorCtrlCmd} (kept : Kept channel)
    (sent : channel.broadcast cmd = some after) :
    Kept after ∧ after.sent.length = channel.sent.length + 1 := by
  have bounded := kept.bounded
  have full := kept.isFull_iff
  unfold Broadcast.broadcast at sent
  split at sent
  · cases sent
  · rename_i free
    cases sent
    have one : (channel.sent ++ [cmd]).length = channel.sent.length + 1 := by simp
    refine ⟨⟨kept.stored, kept.capacity, ?_⟩, one⟩
    rw [full] at free
    dsimp only
    omega

end Channels

namespace CommandWorld

/-- Of each group's commands some are in its channel and the others are still to be sent. -/
structure Sound (commands : List GroupCommand) (w : CommandWorld) : Prop where
  kept : ∀ rg, Kept (w.channels rg)
  balance : ∀ rg, (w.channels rg).sent.length + commandsTo rg w.todo = commandsTo rg commands

variable {commands : List GroupCommand} {w : CommandWorld}

theorem start_sound (commands : List GroupCommand) : Sound commands (start commands) :=
  ⟨fun _ => newCmdChannel_kept, fun _ => Nat.zero_add _⟩

theorem setChannel_same (w : CommandWorld) (rg : RoleTaskGroup) (channel : CmdChannel) :
    (w.setChannel rg channel).channels rg = channel := if_pos rfl

theorem setChannel_other {rg other : RoleTaskGroup} (channel : CmdChannel) (differs : other ≠ rg) :
    (w.setChannel rg channel).channels other = w.channels other := if_neg differs

theorem task_sound (sound : Sound commands w) (rg : RoleTaskGroup) (taskDoes : TaskStep) :
    Sound commands (w.step (.task rg taskDoes)) := by
  constructor
  · intro other
    by_cases same : other = rg
    · subst same
      rw [step, setChannel_same]
      exact (sound.kept other).taskStep taskDoes
    · rw [step, setChannel_other _ same]
      exact sound.kept other
  · intro other
    have before := sound.balance other
    by_cases same : other = rg
    · subst same
      rw [step, setChannel_same, taskStep_sent]
      exact before
    · rw [step, setChannel_other _ same]
      exact before

/-- A send either waits or moves the first command into the channel of its group. -/
theorem send_cases (w : CommandWorld) :
    (w.todo = [] ∧ w.step .send = w) ∨ (w.Waits ∧ w.step .send = w) ∨
      ∃ rg cmd rest channel, w.todo = (rg, cmd) :: rest ∧
        (w.channels rg).broadcast cmd = some channel ∧
        w.step .send = ⟨(w.setChannel rg channel).channels, rest⟩ := by
  cases pending : w.todo with
  | nil => exact Or.inl ⟨rfl, by simp [step, pending]⟩
  | cons command rest =>
    obtain ⟨rg, cmd⟩ := command
    right
    cases sent : (w.channels rg).broadcast cmd with
    | none =>
      left
      have full := (Broadcast.broadcast_eq_none_iff cmd).mp sent
      exact ⟨⟨rg, cmd, rest, pending, full⟩, by simp [step, pending, sent]⟩
    | some channel => exact Or.inr ⟨rg, cmd, rest, channel, rfl, sent, by simp [step, pending, sent]⟩

theorem commandsTo_cons (rg other : RoleTaskGroup) (cmd : ActorCtrlCmd)
    (rest : List GroupCommand) :
    commandsTo rg ((other, cmd) :: rest) = commandsTo rg rest + if other = rg then 1 else 0 := by
  simp [commandsTo, List.countP_cons]

theorem send_sound (sound : Sound commands w) : Sound commands (w.step .send) := by
  rcases send_cases w with ⟨_, same⟩ | ⟨_, same⟩ | ⟨rg, cmd, rest, channel, pending, sent, next⟩
  · rw [same]
    exact sound
  · rw [same]
    exact sound
  · obtain ⟨keeps, longer⟩ := (sound.kept rg).broadcast sent
    rw [next]
    constructor
    · intro other
      by_cases same : other = rg
      · subst same
        exact (setChannel_same w other channel).symm ▸ keeps
      · exact (setChannel_other (w := w) channel same).symm ▸ sound.kept other
    · intro other
      have before := sound.balance other
      rw [pending, commandsTo_cons] at before
      by_cases same : other = rg
      · subst same
        dsimp only
        rw [setChannel_same, longer]
        simp only [if_true] at before
        omega
      · have stored : ({ w.setChannel rg channel with todo := rest } : CommandWorld).channels
            other = w.channels other := setChannel_other channel same
        rw [stored]
        have differs : ¬ rg = other := fun equal => same equal.symm
        rw [if_neg differs] at before
        exact before

theorem run_sound (sound : Sound commands w) (steps : List CommandStep) :
    Sound commands (Runs.run step w steps) := by
  refine Runs.run_invariant (Sound commands) steps ?_ w sound
  intro state taken _ holds
  cases taken with
  | task rg taskDoes => exact task_sound holds rg taskDoes
  | send => exact send_sound holds

/-- A broadcast that waits has 1000 commands of its group before it. -/
theorem Sound.waits_many (sound : Sound commands w) (waits : w.Waits) :
    ∃ rg, 1000 < commandsTo rg commands := by
  obtain ⟨rg, cmd, rest, pending, full⟩ := waits
  have filled := (sound.kept rg).isFull_iff.mp full
  have balance := sound.balance rg
  rw [pending, commandsTo_cons, if_pos rfl] at balance
  exact ⟨rg, by omega⟩

/-- Nothing that tasks do frees a place, so a broadcast that waits never completes. -/
theorem Sound.waits_forever (sound : Sound commands w) (waits : w.Waits)
    (steps : List CommandStep) : (Runs.run step w steps).Waits := by
  suffices both : Sound commands (Runs.run step w steps) ∧ (Runs.run step w steps).Waits from both.2
  refine Runs.run_invariant (fun w => Sound commands w ∧ w.Waits) steps ?_ w ⟨sound, waits⟩
  · intro state taken _ before
    obtain ⟨holds, rg, cmd, rest, pending, full⟩ := before
    cases taken with
    | task other taskDoes =>
      have after := task_sound holds other taskDoes
      refine ⟨after, rg, cmd, rest, pending, ?_⟩
      have filled := (holds.kept rg).isFull_iff.mp full
      rw [(after.kept rg).isFull_iff]
      by_cases same : rg = other
      · subst same
        rw [step, setChannel_same, taskStep_sent]
        exact filled
      · rw [step, setChannel_other _ same]
        exact filled
    | send =>
      have stuck : state.step .send = state := by
        have waiting := (Broadcast.broadcast_eq_none_iff cmd).mpr full
        simp [step, pending, waiting]
      rw [stuck]
      exact ⟨holds, rg, cmd, rest, pending, full⟩

/-- With nothing in the way the engine sends all its commands. -/
theorem sends_all (w : CommandWorld)
    (free : ∀ count, ¬ (Runs.run step w (List.replicate count .send)).Waits) :
    (Runs.run step w (List.replicate w.todo.length .send)).todo = [] := by
  induction length : w.todo.length generalizing w with
  | zero => exact List.eq_nil_of_length_eq_zero length
  | succ count ih =>
    rcases send_cases w with ⟨empty, _⟩ | ⟨waits, _⟩ | ⟨rg, cmd, rest, channel, pending, _, next⟩
    · rw [empty] at length
      cases length
    · exact absurd waits (free 0)
    · rw [List.replicate_succ, Runs.run_cons]
      apply ih
      · intro later
        exact free (later + 1)
      · rw [next]
        rw [pending] at length
        exact Nat.succ.inj length

end CommandWorld

/-- Broadcasts complete exactly as long as no group is sent more than 1000 commands. -/
theorem everyCommandCompletes_iff (commands : List GroupCommand) :
    EveryCommandCompletes commands ↔ ∀ rg, commandsTo rg commands ≤ 1000 := by
  have start := CommandWorld.start_sound commands
  constructor
  · intro free rg
    have sent := CommandWorld.sends_all (CommandWorld.start commands) (fun count => free _)
    have reached := CommandWorld.run_sound start (List.replicate commands.length .send)
    have balance := reached.balance rg
    have bounded := (reached.kept rg).bounded
    have none : commandsTo rg (Runs.run CommandWorld.step (CommandWorld.start commands)
        (List.replicate commands.length .send)).todo = 0 := by
      rw [show commands.length = (CommandWorld.start commands).todo.length from rfl, sent]
      rfl
    omega
  · intro few steps waits
    obtain ⟨rg, many⟩ := (CommandWorld.run_sound start steps).waits_many waits
    have most := few rg
    omega

section Reloads

/-- Every command is accepted and no join fails. -/
def Moment.Obeyed (m : Moment) : Prop := ∀ id, m.sendOk id = true ∧ m.joinOk id = true

/-- A reload in which everything drains and every command and wait succeeds. -/
structure ReloadEnv.GoesWell (env : ReloadEnv) : Prop where
  drained : env.drained = true
  pruneAtIsolate : env.pruneAtIsolate.Obeyed
  isolate : env.isolate.Obeyed
  stopMaint : env.stopMaint.Obeyed
  pruneAtDrain : env.pruneAtDrain.Obeyed
  pruneAtResume : env.pruneAtResume.Obeyed
  execute : env.execute.Obeyed

/-- The group has not finished when the reload looks at it. -/
structure ReloadEnv.Outlives (env : ReloadEnv) (id : Nat) : Prop where
  pruneAtIsolate : env.pruneAtIsolate.finished id = false
  isolate : env.isolate.finished id = false
  pruneAtDrain : env.pruneAtDrain.finished id = false
  pruneAtResume : env.pruneAtResume.finished id = false
  execute : env.execute.finished id = false

namespace EngineRuntime
variable {rt : EngineRuntime} {m : Moment}

theorem prune_obeyed (obeyed : m.Obeyed) : (rt.pruneFinishedBackgroundProcessing m).2.ok = true := by
  rw [prune_ok_iff]
  intro d _ _
  obtain ⟨sent, joined⟩ := obeyed d.rg.group.id
  simp [closeDetached, RoleTaskGroup.waitFinished, RoleTaskGroup.waitGraceDownWithTimeout, sent,
    joined, apply_ite GroupOutcome.ok]

theorem stopRole_obeyed (obeyed : m.Obeyed) (role : TaskRole) : (rt.stopRole role m).2.ok = true := by
  have each : (forEach (RoleTaskGroup.waitGraceDown m)
      (rt.taskManager.roleGroups.filter (fun rg => rg.role = role))).ok = true := by
    rw [forEach_ok_iff]
    intro rg _
    obtain ⟨sent, joined⟩ := obeyed rg.group.id
    simp [RoleTaskGroup.waitGraceDown, sent, joined]
  simp [stopRole, TaskManager.stopRole, TaskManager.drainGroups, each]

theorem isolateRole_obeyed (tm : TaskManager) (obeyed : m.Obeyed) (role : TaskRole) :
    (tm.isolateRole role m).ok = true := by
  unfold TaskManager.isolateRole
  rw [forEach_ok_iff]
  intro rg _
  simp [RoleTaskGroup.cmdAlone, (obeyed rg.group.id).1]

theorem executeRoleAll_obeyed (tm : TaskManager) (obeyed : m.Obeyed) (role : TaskRole) :
    (tm.executeRoleAll role m).ok = true := by
  unfold TaskManager.executeRoleAll
  rw [forEach_ok_iff]
  intro rg _
  simp [RoleTaskGroup.cmdExecuteAll, (obeyed rg.group.id).1]

/-- The commands that a loop which succeeds sends are those of each of its groups. -/
theorem executeRoleAll_reaches {tm : TaskManager} (obeyed : m.Obeyed) {rg : RoleTaskGroup}
    (member : rg ∈ tm.roleGroups) (running : m.finished rg.group.id = false) :
    .executed rg ∈ (tm.executeRoleAll rg.role m).log := by
  have inside : rg ∈ tm.runningOf rg.role m := by
    simp [TaskManager.runningOf, member, running]
  have logged : .executed rg ∈ (rg.cmdExecuteAll m).log := by
    simp [RoleTaskGroup.cmdExecuteAll, (obeyed rg.group.id).1]
  exact forEach_logs (executeRoleAll_obeyed tm obeyed rg.role) inside logged

section Well
variable {env : ReloadEnv} {processing : ProcessingTaskSet} {rg : RoleTaskGroup}

theorem isolated_well (well : env.GoesWell) : (rt.reloadIsolated env).2.ok = true :=
  (andThen_ok_iff _ _).mpr ⟨prune_obeyed well.pruneAtIsolate, isolateRole_obeyed _ well.isolate _⟩

theorem drained_well (well : env.GoesWell) : (rt.reloadDrained env).2.ok = true := by
  unfold reloadDrained waitProcessingDrained
  rw [if_pos well.drained, andThen_ok_iff]
  exact ⟨stopRole_obeyed well.stopMaint .maintainer, prune_obeyed well.pruneAtDrain⟩

theorem resumed_well (well : env.GoesWell) : (rt.reloadResumed env processing).2.ok = true :=
  (andThen_ok_iff _ _).mpr
    ⟨prune_obeyed well.pruneAtResume, executeRoleAll_obeyed _ well.execute _⟩

/-- A picker group that keeps running is registered when the new tasks are installed. -/
theorem drained_keeps_picker (well : env.GoesWell) (member : rg ∈ rt.taskManager.roleGroups)
    (picker : rg.role = .picker) (outlives : env.Outlives rg.group.id) :
    rg ∈ (rt.reloadDrained env).1.taskManager.roleGroups := by
  have isolated : rg ∈ (rt.reloadIsolated env).1.taskManager.roleGroups := by
    rw [reloadIsolated_groups]
    simp [member, outlives.pruneAtIsolate]
  unfold reloadDrained waitProcessingDrained
  rw [if_pos well.drained]
  refine andThen_runtime (P := fun after => rg ∈ after.taskManager.roleGroups) ?_ ?_
  · intro broken
    rw [stopRole_obeyed well.stopMaint] at broken
    cases broken
  · intro stopped
    rw [prune_groups]
    simp only [detachProcessingRoles, detachRole, TaskManager.detachRole, stopRole_groups, stopped,
      if_true, List.mem_filter]
    simp [disconnectParseRouter, isolated, picker, outlives.pruneAtDrain]

theorem reload_goes_well (rt : EngineRuntime) (prepared : env.prepared = some processing)
    (well : env.GoesWell) :
    reloadProcessingP0 rt env = ((rt.reloadResumed env processing).1, .ok false) ∧
      reloadLog rt env = (rt.reloadIsolated env).2.log ++ (rt.reloadDrained env).2.log ++
        (rt.reloadResumed env processing).2.log := by
  have drained : (rt.reloadDrained env).2.ok = true := drained_well well
  constructor
  · simp [reload_of_prepared rt prepared, isolated_well well, drained, resumed_well well]
  · simp [reloadLog_of_prepared rt prepared, isolated_well well, drained, reloadEmptied]

/-- A graceful reload keeps a running picker group and sends it two commands. -/
theorem reload_picker (prepared : env.prepared = some processing) (well : env.GoesWell)
    (member : rg ∈ rt.taskManager.roleGroups) (picker : rg.role = .picker)
    (outlives : env.Outlives rg.group.id) :
    rg ∈ (reloadProcessingP0 rt env).1.taskManager.roleGroups ∧
      2 ≤ commandsTo rg (commandsOf (reloadLog rt env)) := by
  obtain ⟨reload, log⟩ := reload_goes_well rt prepared well
  have emptied : rg ∈ (rt.reloadEmptied env).1.taskManager.roleGroups := by
    simp [reloadEmptied, drained_well well, drained_keeps_picker well member picker outlives]
  have resumed : rg ∈ (rt.reloadResumed env processing).1.taskManager.roleGroups := by
    rw [reloadResumed_groups]
    simp [emptied, outlives.pruneAtResume]
  have first : .isolated rg ∈ (rt.reloadIsolated env).2.log :=
    reloadIsolated_reaches (isolated_well well) member picker outlives.pruneAtIsolate
      outlives.isolate
  have last : .executed rg ∈ (rt.reloadResumed env processing).2.log := by
    have passed : (rt.reloadResumed env processing).2.ok = true := resumed_well well
    obtain ⟨pruned, _⟩ := (andThen_ok_iff _ _).mp passed
    unfold reloadResumed resumePicker andThen
    rw [if_pos pruned]
    refine List.mem_append_right _ ?_
    dsimp only
    rw [← picker]
    apply executeRoleAll_reaches well.execute _ outlives.execute
    rw [prune_groups]
    simp [installProcessingTasks, install_roleGroups, emptied, outlives.pruneAtResume]
  constructor
  · rw [reload]
    exact resumed
  · have isolate : (rg, ActorCtrlCmd.isolate) ∈ commandsOf (rt.reloadIsolated env).2.log :=
      List.mem_filterMap.mpr ⟨.isolated rg, first, rfl⟩
    have execute : (rg, ActorCtrlCmd.execute .all) ∈
        commandsOf (rt.reloadResumed env processing).2.log :=
      List.mem_filterMap.mpr ⟨.executed rg, last, rfl⟩
    have one : 0 < commandsTo rg (commandsOf (rt.reloadIsolated env).2.log) :=
      List.countP_pos_iff.mpr ⟨_, isolate, by simp⟩
    have two : 0 < commandsTo rg (commandsOf (rt.reloadResumed env processing).2.log) :=
      List.countP_pos_iff.mpr ⟨_, execute, by simp⟩
    rw [log, commandsOf, List.filterMap_append, List.filterMap_append, commandsTo,
      List.countP_append, List.countP_append]
    unfold commandsTo commandsOf at one two
    omega

end Well
end EngineRuntime

/-- Reloads with the processing sets they install. -/
def reloadActions (envs : List ReloadEnv) : List EngineAction :=
  envs.map (fun env => .reload env env.execute)

/-- Each graceful reload that a picker group lives through leaves two more commands in its
    channel. -/
theorem reloads_fill_picker (envs : List ReloadEnv) (trace : EngineTrace) {rg : RoleTaskGroup}
    (picker : rg.role = .picker) (member : rg ∈ trace.runtime.taskManager.roleGroups)
    (well : ∀ env ∈ envs, env.prepared.isSome = true ∧ env.GoesWell ∧ env.Outlives rg.group.id) :
    commandsTo rg (commandsOf trace.log) + 2 * envs.length ≤
      commandsTo rg (commandsOf (Runs.run EngineTrace.step trace (reloadActions envs)).log) := by
  induction envs generalizing trace with
  | nil => exact Nat.le_refl _
  | cons env rest ih =>
    obtain ⟨some, goesWell, outlives⟩ := well env (List.mem_cons_self ..)
    obtain ⟨processing, prepared⟩ := Option.isSome_iff_exists.mp some
    obtain ⟨stays, two⟩ := EngineRuntime.reload_picker prepared goesWell member picker outlives
    have later := ih (trace.step (.reload env env.execute)) stays
      (fun other inside => well other (List.mem_cons_of_mem env inside))
    have grown : commandsTo rg (commandsOf trace.log) + 2 ≤
        commandsTo rg (commandsOf (trace.step (.reload env env.execute)).log) := by
      simp only [EngineTrace.step, commandsOf, List.filterMap_append, commandsTo,
        List.countP_append]
      unfold commandsTo commandsOf at two
      omega
    rw [List.length_cons]
    refine Nat.le_trans ?_ later
    omega

end Reloads

/-- No history of the engine waits at a broadcast exactly when it sends no group more than 1000
    commands. -/
theorem control_commands_complete_iff (rt : EngineRuntime) (actions : List EngineAction) :
    EveryCommandCompletes (commandsOf (engineHistory rt actions).log) ↔
      ∀ rg, commandsTo rg (commandsOf (engineHistory rt actions).log) ≤ 1000 :=
  everyCommandCompletes_iff _

/-- The `n`th of a row of graceful reloads, each with groups of its own. -/
def nthReload (n : Nat) : ReloadEnv :=
  { gracefulReload with prepared := some (oneProcessing (7 + 4 * n)) }

theorem reload_501_blocks :
    ¬ EveryCommandCompletes (commandsOf (engineHistory (startWarpService daemonParts)
      (reloadActions ((List.range 501).map nthReload))).log) := by
  intro completes
  have few := (everyCommandCompletes_iff _).mp completes ⟨.picker, ⟨6, "picker"⟩⟩
  have smooth : smoothMoment.Obeyed := fun _ => ⟨rfl, rfl⟩
  have picker : (⟨.picker, ⟨6, "picker"⟩⟩ : RoleTaskGroup).role = .picker := rfl
  have filled := reloads_fill_picker ((List.range 501).map nthReload)
    (EngineTrace.start (startWarpService daemonParts)) picker (by decide) (by
      intro env member
      obtain ⟨n, _, rfl⟩ := List.mem_map.mp member
      exact ⟨rfl, ⟨rfl, smooth, smooth, smooth, smooth, smooth, smooth⟩,
        ⟨rfl, rfl, rfl, rfl, rfl⟩⟩)
  rw [List.length_map, List.length_range] at filled
  unfold engineHistory at few
  omega

end WarpMotor
