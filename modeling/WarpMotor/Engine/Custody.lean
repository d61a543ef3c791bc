import WarpMotor.Lib.Ledger
import WarpMotor.Engine.History

/-!
Who is answerable for a task group. The engine owns its registered and its
detached groups. A stage of a reload awaits some of them; a wait that fails
drops the group and those behind it in the loop. `ReloadAnswers` says that
every group a reload stops takes the stop and is joined.
-/
namespace WarpMotor
open Ledger

def GroupEvent.awaitedGroup : GroupEvent → Option RoleTaskGroup
  | .waited rg => some rg
  | _ => none

def awaitedGroups (log : List GroupEvent) : List RoleTaskGroup :=
  log.filterMap GroupEvent.awaitedGroup

namespace Moment

/-- The group takes the stop and its tasks are joined. -/
def Stops (m : Moment) (rg : RoleTaskGroup) : Prop :=
  m.sendOk rg.group.id = true ∧ (m.finished rg.group.id = true ∨ m.joinOk rg.group.id = true)

/-- As `Stops`, where tasks that do not end in time are aborted. -/
def StopsInTime (m : Moment) (rg : RoleTaskGroup) : Prop :=
  m.sendOk rg.group.id = true ∧ (m.finished rg.group.id = true ∨ m.timedOut rg.group.id = true ∨
    m.joinOk rg.group.id = true)

end Moment

namespace EngineRuntime

def ownedGroups (rt : EngineRuntime) : List RoleTaskGroup :=
  rt.taskManager.roleGroups ++ rt.detachedProcessingGroups.map DetachedProcessingGroup.rg

/-- Every detached group that has not finished by its deadline stops. -/
def PruneAnswers (m : Moment) (rt : EngineRuntime) : Prop :=
  ∀ d ∈ rt.detachedProcessingGroups,
    m.finished d.rg.group.id = true ∨ m.now < d.stopDeadline ∨ m.StopsInTime d.rg

def StopAnswers (role : TaskRole) (m : Moment) (rt : EngineRuntime) : Prop :=
  ∀ rg ∈ rt.taskManager.roleGroups, rg.role = role → m.Stops rg

/-- After the drain: the maintainers stop, and so do the overdue groups of the prune. -/
def DrainAnswers (stopMaint prune : Moment) (rt : EngineRuntime) : Prop :=
  rt.StopAnswers .maintainer stopMaint ∧
    (((rt.stopRole .maintainer stopMaint).1).detachProcessingRoles
      (stopMaint.now + rt.reloadTimeout)).PruneAnswers prune

def ForceAnswers (m : TaskRole → Moment) (prune : Moment) (rt : EngineRuntime) : Prop :=
  (∀ rg ∈ rt.taskManager.roleGroups, isProcessingRole rg.role = true → (m rg.role).Stops rg) ∧
    rt.PruneAnswers prune

/-- Every group that the reload stops, at whichever stage, does stop. -/
structure ReloadAnswers (rt : EngineRuntime) (env : ReloadEnv) : Prop where
  isolate : rt.PruneAnswers env.pruneAtIsolate
  drain : (rt.reloadIsolated env).2.ok = true → env.drained = true →
    (rt.reloadIsolated env).1.DrainAnswers env.stopMaint env.pruneAtDrain
  force : (rt.reloadIsolated env).2.ok = true → env.drained = false →
    (rt.reloadIsolated env).1.ForceAnswers env.forceStop env.pruneAtForce
  resume : (rt.reloadIsolated env).2.ok = true →
    (rt.reloadEmptied env).1.PruneAnswers env.pruneAtResume

end EngineRuntime

section Loops
variable {α : Type} {act : α → GroupOutcome} {key : α → RoleTaskGroup}

/-- The action awaits its group exactly when it succeeds. -/
def Awaits (act : α → GroupOutcome) (key : α → RoleTaskGroup) : Prop :=
  ∀ item, awaitedGroups (act item).log = if (act item).ok then [key item] else []

theorem awaitedGroups_append (first second : List GroupEvent) :
    awaitedGroups (first ++ second) = awaitedGroups first ++ awaitedGroups second :=
  List.filterMap_append

theorem forEach_awaits_nothing (each : ∀ item, awaitedGroups (act item).log = [])
    (items : List α) : awaitedGroups (forEach act items).log = [] := by
  induction items with
  | nil => rfl
  | cons item rest ih =>
    unfold forEach
    dsimp only
    split
    · rw [awaitedGroups_append, each, ih]
      rfl
    · exact each item

/-- What is awaited in one log after the other. -/
theorem awaited_trans {held middle left : Multiset RoleTaskGroup} {first second : List GroupEvent}
    {p q : Prop} (before : Transfer held (awaitedGroups first : Multiset RoleTaskGroup) middle p)
    (after : Transfer middle (awaitedGroups second : Multiset RoleTaskGroup) left q) :
    Transfer held (awaitedGroups (first ++ second) : Multiset RoleTaskGroup) left (p ∧ q) := by
  rw [awaitedGroups_append, ← Multiset.coe_add]
  exact before.trans after

/-- A loop awaits the groups before its first failure. -/
theorem forEach_settles (awaits : Awaits act key) (items : List α) :
    Transfer (M := Multiset RoleTaskGroup) (items.map key)
      (awaitedGroups (forEach act items).log) 0 ((forEach act items).ok = true) := by
  induction items with
  | nil => exact (Transfer.idle _).congr (iff_of_true trivial rfl)
  | cons item rest ih =>
    have first := awaits item
    cases closed : (act item).ok with
    | true =>
      have one : forEach act (item :: rest) =
          ⟨(act item).log ++ (forEach act rest).log, (forEach act rest).ok⟩ := by
        simp [forEach, closed]
      rw [closed, if_pos rfl] at first
      rw [one, awaitedGroups_append, first, ← Multiset.coe_add]
      have settled : Transfer (M := Multiset RoleTaskGroup) [key item] [key item] 0 True :=
        ⟨(add_zero _).le, iff_true_intro (add_zero _)⟩
      have both := (settled.aside (rest.map key)).trans (by rw [zero_add]; exact ih)
      exact both.congr (iff_of_eq (true_and _))
    | false =>
      have one : forEach act (item :: rest) = act item := by simp [forEach, closed]
      rw [closed, if_neg Bool.false_ne_true] at first
      rw [one, first, closed]
      refine ⟨Multiset.zero_le _, ?_⟩
      constructor
      · intro empty
        have lengths := congrArg Multiset.card empty
        simp at lengths
      · intro impossible
        cases impossible

/-- A loop that drains a vector: what it does not take is kept, unless it fails. -/
theorem drain_settles (awaits : Awaits act key) (taken : α → Bool) (items left : List α)
    (kept : left = if (forEach act (items.filter taken)).ok then
      items.filter (fun item => !taken item) else []) :
    Transfer (M := Multiset RoleTaskGroup) (items.map key)
      (awaitedGroups (forEach act (items.filter taken)).log) (left.map key)
      ((forEach act (items.filter taken)).ok = true) := by
  have parts : ((items.map key : List RoleTaskGroup) : Multiset RoleTaskGroup) =
      ((items.filter taken).map key : List RoleTaskGroup) +
        ((items.filter (fun item => !taken item)).map key : List RoleTaskGroup) := by
    rw [Multiset.coe_add, Multiset.coe_eq_coe, ← List.map_append]
    exact ((List.filter_append_perm taken items).map key).symm
  have loop := (forEach_settles awaits (items.filter taken)).aside
    (M := Multiset RoleTaskGroup) ((items.filter (fun item => !taken item)).map key)
  rw [← parts, zero_add] at loop
  cases closed : (forEach act (items.filter taken)).ok with
  | true =>
    rw [closed] at loop kept
    rw [kept, if_pos rfl]
    exact loop
  | false =>
    rw [closed] at loop kept
    rw [kept, if_neg Bool.false_ne_true]
    exact loop.lose (Multiset.zero_le _) Bool.false_ne_true

end Loops

section Groups
variable {m : Moment}

theorem waitFinished_awaits (m : Moment) : Awaits (RoleTaskGroup.waitFinished m) id := by
  intro rg
  unfold RoleTaskGroup.waitFinished
  split <;> rfl

theorem waitGraceDown_awaits (m : Moment) : Awaits (RoleTaskGroup.waitGraceDown m) id := by
  intro rg
  unfold RoleTaskGroup.waitGraceDown
  split
  · split <;> rfl
  · rfl

theorem waitGraceDownWithTimeout_awaits (m : Moment) :
    Awaits (RoleTaskGroup.waitGraceDownWithTimeout m) id := by
  intro rg
  unfold RoleTaskGroup.waitGraceDownWithTimeout
  split
  · split <;> rfl
  · rfl

theorem closeDetached_awaits (m : Moment) :
    Awaits (EngineRuntime.closeDetached m) DetachedProcessingGroup.rg := by
  intro d
  unfold EngineRuntime.closeDetached
  split
  · exact waitFinished_awaits m d.rg
  · exact waitGraceDownWithTimeout_awaits m d.rg

theorem stopWait_awaits (acceptorForce : Bool) (m : Moment) :
    Awaits (TaskManager.stopWait acceptorForce m) id := by
  intro rg
  unfold TaskManager.stopWait
  split
  · exact waitGraceDownWithTimeout_awaits m rg
  · exact waitGraceDown_awaits m rg

theorem waitGraceDown_ok_iff (m : Moment) (rg : RoleTaskGroup) :
    (rg.waitGraceDown m).ok = true ↔ m.Stops rg := by
  unfold RoleTaskGroup.waitGraceDown Moment.Stops
  rw [← Bool.or_eq_true]
  split
  · rename_i sent
    split <;> simp_all
  · rename_i refused
    simp [refused]

theorem closeDetached_ok_iff (m : Moment) (d : DetachedProcessingGroup) :
    (EngineRuntime.closeDetached m d).ok = true ↔
      m.finished d.rg.group.id = true ∨ m.StopsInTime d.rg := by
  unfold EngineRuntime.closeDetached RoleTaskGroup.waitFinished
    RoleTaskGroup.waitGraceDownWithTimeout Moment.StopsInTime
  cases ended : m.finished d.rg.group.id with
  | true => simp
  | false =>
    cases sent : m.sendOk d.rg.group.id with
    | true =>
      cases late : m.timedOut d.rg.group.id <;> cases joined : m.joinOk d.rg.group.id <;> simp
    | false => simp

end Groups

namespace EngineRuntime

/-- The stage awaits or keeps only groups that the engine owned, and under the condition all of
    them. -/
def Settles (rt : EngineRuntime) (stage : EngineRuntime × GroupOutcome) (exact : Prop) : Prop :=
  Transfer (M := Multiset RoleTaskGroup) rt.ownedGroups (awaitedGroups stage.2.log)
    stage.1.ownedGroups exact

section Stages
variable {rt : EngineRuntime} {m : Moment} {p q : Prop}

theorem ownedGroups_eq (rt : EngineRuntime) :
    (rt.ownedGroups : Multiset RoleTaskGroup) =
      rt.taskManager.roleGroups + rt.detachedProcessingGroups.map DetachedProcessingGroup.rg :=
  (Multiset.coe_add _ _).symm

theorem andThen_settles {stage : EngineRuntime × GroupOutcome}
    {next : EngineRuntime → EngineRuntime × GroupOutcome} (first : rt.Settles stage p)
    (second : stage.2.ok = true → stage.1.Settles (next stage.1) q) :
    rt.Settles (andThen stage next) (p ∧ (stage.2.ok = true → q)) := by
  unfold andThen
  cases passed : stage.2.ok with
  | true =>
    apply (awaited_trans first (second passed)).congr
    simp
  | false =>
    apply first.congr
    simp

/-- A stage that succeeds exactly when it loses nothing. -/
def Honest (rt : EngineRuntime) (stage : EngineRuntime × GroupOutcome) : Prop :=
  rt.Settles stage (stage.2.ok = true)

theorem andThen_honest {stage : EngineRuntime × GroupOutcome}
    {next : EngineRuntime → EngineRuntime × GroupOutcome} (first : rt.Honest stage)
    (second : ∀ rt : EngineRuntime, rt.Honest (next rt)) : rt.Honest (andThen stage next) := by
  have both := andThen_settles first (fun _ => second stage.1)
  apply both.congr
  rw [andThen_ok_iff]
  constructor
  · intro passed
    exact ⟨passed.1, passed.2 passed.1⟩
  · intro passed
    exact ⟨passed.1, fun _ => passed.2⟩

theorem drainGroups_settles (rt : EngineRuntime) {close : RoleTaskGroup → GroupOutcome}
    (awaits : Awaits close id) (taken : RoleTaskGroup → Bool) :
    rt.Settles ({ rt with taskManager := (rt.taskManager.drainGroups taken close).1 },
        (rt.taskManager.drainGroups taken close).2)
      ((rt.taskManager.drainGroups taken close).2.ok = true) := by
  have log : (rt.taskManager.drainGroups taken close).2 =
      forEach close (rt.taskManager.roleGroups.filter taken) := by
    unfold TaskManager.drainGroups
    dsimp only
    split <;> rfl
  have left : (rt.taskManager.drainGroups taken close).1.roleGroups =
      if (forEach close (rt.taskManager.roleGroups.filter taken)).ok then
        rt.taskManager.roleGroups.filter (fun rg => !taken rg) else [] := by
    unfold TaskManager.drainGroups
    dsimp only
    split <;> rfl
  have drained := (drain_settles awaits taken rt.taskManager.roleGroups _ left).aside
    (M := Multiset RoleTaskGroup) (rt.detachedProcessingGroups.map DetachedProcessingGroup.rg)
  rw [List.map_id, List.map_id, ← log] at drained
  unfold Settles
  rw [ownedGroups_eq, ownedGroups_eq]
  exact drained

theorem stopRole_ok_iff (rt : EngineRuntime) (role : TaskRole) (m : Moment) :
    (rt.stopRole role m).2.ok = true ↔ rt.StopAnswers role m := by
  have log : (rt.stopRole role m).2 = forEach (RoleTaskGroup.waitGraceDown m)
      (rt.taskManager.roleGroups.filter (fun rg => rg.role = role)) := by
    unfold stopRole TaskManager.stopRole TaskManager.drainGroups
    dsimp only
    split <;> rfl
  rw [log, forEach_ok_iff]
  unfold StopAnswers
  simp [waitGraceDown_ok_iff]

theorem stopRole_settles (rt : EngineRuntime) (role : TaskRole) (m : Moment) :
    rt.Settles (rt.stopRole role m) (rt.StopAnswers role m) := by
  have drained := rt.drainGroups_settles (waitGraceDown_awaits m)
    (fun rg => decide (rg.role = role))
  exact drained.congr (stopRole_ok_iff rt role m)

theorem stopRole_honest (rt : EngineRuntime) (role : TaskRole) (m : Moment) :
    rt.Honest (rt.stopRole role m) :=
  (rt.stopRole_settles role m).congr (rt.stopRole_ok_iff role m).symm

theorem pruneAnswers_iff (rt : EngineRuntime) (m : Moment) :
    (rt.pruneFinishedBackgroundProcessing m).2.ok = true ↔ rt.PruneAnswers m := by
  rw [prune_ok_iff]
  unfold PruneAnswers
  apply forall₂_congr
  intro d _
  rw [closeDetached_ok_iff, detachedDue, Bool.or_eq_true, decide_eq_true_iff, ← Nat.not_lt]
  tauto

/-- The second half of the prune. -/
def closeOverdue (m : Moment) (rt : EngineRuntime) : EngineRuntime × GroupOutcome :=
  let closed := forEach (closeDetached m) (rt.detachedProcessingGroups.filter (detachedDue m))
  let left := rt.detachedProcessingGroups.filter (fun d => !detachedDue m d)
  ({ rt with detachedProcessingGroups := if closed.ok then left else [] }, closed)

theorem closeOverdue_settles (rt : EngineRuntime) (m : Moment) :
    rt.Settles (rt.closeOverdue m) ((rt.closeOverdue m).2.ok = true) := by
  have drained := (drain_settles (closeDetached_awaits m) (detachedDue m)
    rt.detachedProcessingGroups _ rfl).aside
      (M := Multiset RoleTaskGroup) rt.taskManager.roleGroups
  rw [add_comm, add_comm _ (rt.taskManager.roleGroups : Multiset RoleTaskGroup)] at drained
  unfold Settles
  rw [ownedGroups_eq, ownedGroups_eq]
  exact drained

theorem prune_eq (rt : EngineRuntime) (m : Moment) :
    rt.pruneFinishedBackgroundProcessing m =
      andThen ({ rt with taskManager := (rt.taskManager.pruneFinishedGroups m).1 },
        (rt.taskManager.pruneFinishedGroups m).2) (closeOverdue m) := rfl

theorem prune_honest (rt : EngineRuntime) (m : Moment) :
    rt.Honest (rt.pruneFinishedBackgroundProcessing m) := by
  have pruned := rt.drainGroups_settles (waitFinished_awaits m)
    (fun rg => m.finished rg.group.id)
  rw [prune_eq]
  exact andThen_honest pruned (fun rt => rt.closeOverdue_settles m)

theorem prune_settles (rt : EngineRuntime) (m : Moment) :
    rt.Settles (rt.pruneFinishedBackgroundProcessing m) (rt.PruneAnswers m) :=
  (rt.prune_honest m).congr (rt.pruneAnswers_iff m)

/-- Commands to running groups await nothing. -/
theorem command_settles (rt : EngineRuntime) {out : GroupOutcome}
    (none : awaitedGroups out.log = []) : rt.Settles (rt, out) True := by
  unfold Settles
  rw [none]
  exact Transfer.idle _

theorem isolateRole_awaits_nothing (tm : TaskManager) (role : TaskRole) (m : Moment) :
    awaitedGroups (tm.isolateRole role m).log = [] := by
  apply forEach_awaits_nothing
  intro rg
  unfold RoleTaskGroup.cmdAlone
  split <;> rfl

theorem executeRoleAll_awaits_nothing (tm : TaskManager) (role : TaskRole) (m : Moment) :
    awaitedGroups (tm.executeRoleAll role m).log = [] := by
  apply forEach_awaits_nothing
  intro rg
  unfold RoleTaskGroup.cmdExecuteAll
  split <;> rfl

/-- Both ends of the reload prune, then send a command to the pickers. -/
theorem pruneThenCommand_settles (rt : EngineRuntime) (m : Moment)
    {command : EngineRuntime → GroupOutcome} (none : ∀ rt, awaitedGroups (command rt).log = []) :
    rt.Settles (andThen (rt.pruneFinishedBackgroundProcessing m) (fun rt => (rt, command rt)))
      (rt.PruneAnswers m) := by
  have both : rt.Settles
      (andThen (rt.pruneFinishedBackgroundProcessing m) (fun rt => (rt, command rt)))
      (rt.PruneAnswers m ∧ ((rt.pruneFinishedBackgroundProcessing m).2.ok = true → True)) :=
    andThen_settles (rt.prune_settles m) (fun _ => command_settles _ (none _))
  apply both.congr
  simp

theorem isolatePicker_settles (rt : EngineRuntime) (prune isolate : Moment) :
    rt.Settles (rt.isolatePicker prune isolate) (rt.PruneAnswers prune) :=
  pruneThenCommand_settles rt prune (fun _ => isolateRole_awaits_nothing _ _ _)

theorem resumePicker_settles (rt : EngineRuntime) (prune execute : Moment) :
    rt.Settles (rt.resumePicker prune execute) (rt.PruneAnswers prune) :=
  pruneThenCommand_settles rt prune (fun _ => executeRoleAll_awaits_nothing _ _ _)

theorem detachRole_owned (stopDeadline : Nat) (role : TaskRole) (rt : EngineRuntime) :
    ((rt.detachRole stopDeadline role).ownedGroups : Multiset RoleTaskGroup) = rt.ownedGroups := by
  have parts := List.filter_append_perm (fun rg : RoleTaskGroup => decide (rg.role = role))
    rt.taskManager.roleGroups
  have kept : (rt.detachRole stopDeadline role).taskManager.roleGroups =
      rt.taskManager.roleGroups.filter (fun rg => !decide (rg.role = role)) := by
    simp [detachRole, TaskManager.detachRole]
  have detached : (rt.detachRole stopDeadline role).detachedProcessingGroups.map
      DetachedProcessingGroup.rg = rt.detachedProcessingGroups.map DetachedProcessingGroup.rg ++
        rt.taskManager.roleGroups.filter (fun rg => decide (rg.role = role)) := by
    simp [detachRole, TaskManager.detachRole, Function.comp_def]
  rw [ownedGroups, kept, detached, ownedGroups, Multiset.coe_eq_coe]
  refine List.Perm.trans ?_ (parts.append_right _)
  rw [← List.append_assoc]
  refine List.Perm.trans List.perm_append_comm ?_
  rw [← List.append_assoc]

theorem detachProcessingRoles_owned (stopDeadline : Nat) (rt : EngineRuntime) :
    ((rt.detachProcessingRoles stopDeadline).ownedGroups : Multiset RoleTaskGroup) =
      rt.ownedGroups := by
  unfold detachProcessingRoles
  rw [detachRole_owned, detachRole_owned, detachRole_owned]

/-- The groups of a role that is still to be stopped are not touched by the stops before it. -/
theorem stopRole_answers {role other : TaskRole} {later : Moment}
    (answers : rt.StopAnswers role m) (differs : other ≠ role) :
    (rt.stopRole role m).1.StopAnswers other later ↔ rt.StopAnswers other later := by
  have stopped := (rt.stopRole_ok_iff role m).mpr answers
  unfold StopAnswers
  rw [stopRole_groups, if_pos stopped]
  constructor
  · intro answers rg member same
    apply answers rg _ same
    rw [List.mem_filter]
    exact ⟨member, by simp [same, differs]⟩
  · intro answers rg member same
    exact answers rg (List.mem_filter.mp member).1 same

theorem detached_honest (rt : EngineRuntime) (stopDeadline : Nat) (m : Moment) :
    rt.Honest ((rt.detachProcessingRoles stopDeadline).pruneFinishedBackgroundProcessing m) := by
  unfold Honest Settles
  rw [← detachProcessingRoles_owned stopDeadline rt]
  exact prune_honest _ m

theorem waitProcessingDrained_ok_iff (rt : EngineRuntime) (drained : Bool)
    (stopMaint prune : Moment) :
    (rt.waitProcessingDrained drained stopMaint prune).2.ok = true ↔
      drained = true ∧ rt.DrainAnswers stopMaint prune := by
  unfold waitProcessingDrained DrainAnswers
  cases drained with
  | false => simp
  | true =>
    rw [if_pos rfl, andThen_ok_iff, stopRole_ok_iff, pruneAnswers_iff]
    constructor
    · intro passed
      exact ⟨rfl, passed⟩
    · intro passed
      exact passed.2

theorem waitProcessingDrained_settles (rt : EngineRuntime) (drained : Bool)
    (stopMaint prune : Moment) :
    rt.Settles (rt.waitProcessingDrained drained stopMaint prune)
      (drained = true → rt.DrainAnswers stopMaint prune) := by
  cases drained with
  | false =>
    have idle : rt.Settles (rt, ⟨[], false⟩) True := rt.command_settles rfl
    apply idle.congr
    simp
  | true =>
    have honest : rt.Honest (rt.waitProcessingDrained true stopMaint prune) := by
      unfold waitProcessingDrained
      rw [if_pos rfl]
      apply andThen_honest (stopRole_honest _ _ _)
      intro rt
      exact rt.detached_honest _ prune
    apply honest.congr
    rw [waitProcessingDrained_ok_iff]
    simp

theorem processing_answers_iff (moments : TaskRole → Moment) :
    (∀ rg ∈ rt.taskManager.roleGroups, isProcessingRole rg.role = true →
        (moments rg.role).Stops rg) ↔
      rt.StopAnswers .parser (moments .parser) ∧ rt.StopAnswers .sink (moments .sink) ∧
        rt.StopAnswers .infra (moments .infra) ∧
          rt.StopAnswers .maintainer (moments .maintainer) := by
  constructor
  · intro answers
    refine ⟨?_, ?_, ?_, ?_⟩
    all_goals
      intro rg member same
      have stops := answers rg member (by rw [same]; rfl)
      rw [same] at stops
      exact stops
  · intro each rg member processing
    obtain ⟨parser, sink, infra, maintainer⟩ := each
    cases role : rg.role with
    | parser => exact parser rg member role
    | sink => exact sink rg member role
    | infra => exact infra rg member role
    | maintainer => exact maintainer rg member role
    | monitor | picker | acceptor | generator | router =>
      rw [role] at processing
      cases processing

theorem forceStopProcessing_ok_iff (rt : EngineRuntime) (moments : TaskRole → Moment)
    (prune : Moment) :
    (rt.forceStopProcessing moments prune).2.ok = true ↔ rt.ForceAnswers moments prune := by
  unfold forceStopProcessing ForceAnswers
  rw [processing_answers_iff, and_assoc, and_assoc, and_assoc]
  rw [andThen_ok_iff, stopRole_ok_iff]
  apply and_congr_right
  intro parser
  rw [andThen_ok_iff, stopRole_ok_iff, stopRole_answers parser (by decide)]
  apply and_congr_right
  intro sink
  have sinkLeft := (stopRole_answers parser (by decide)).mpr sink
  rw [andThen_ok_iff, stopRole_ok_iff, stopRole_answers sinkLeft (by decide),
    stopRole_answers parser (by decide)]
  apply and_congr_right
  intro infra
  have infraLeft := (stopRole_answers sinkLeft (by decide)).mpr
    ((stopRole_answers parser (by decide)).mpr infra)
  rw [andThen_ok_iff, stopRole_ok_iff, stopRole_answers infraLeft (by decide),
    stopRole_answers sinkLeft (by decide), stopRole_answers parser (by decide), pruneAnswers_iff]
  rfl

theorem forceStopProcessing_settles (rt : EngineRuntime) (moments : TaskRole → Moment)
    (prune : Moment) :
    rt.Settles (rt.forceStopProcessing moments prune) (rt.ForceAnswers moments prune) := by
  have honest : rt.Honest (rt.forceStopProcessing moments prune) := by
    unfold forceStopProcessing
    apply andThen_honest (stopRole_honest _ _ _)
    intro rt
    apply andThen_honest (stopRole_honest _ _ _)
    intro rt
    apply andThen_honest (stopRole_honest _ _ _)
    intro rt
    apply andThen_honest (stopRole_honest _ _ _)
    intro rt
    exact rt.prune_honest prune
  exact honest.congr (rt.forceStopProcessing_ok_iff moments prune)

end Stages

section Reload
variable {rt : EngineRuntime} {env : ReloadEnv}

/-- What is asked of the groups between the isolation and the installation. -/
def EmptyAnswers (rt : EngineRuntime) (env : ReloadEnv) : Prop :=
  (env.drained = true →
    (rt.reloadIsolated env).1.DrainAnswers env.stopMaint env.pruneAtDrain) ∧
  (env.drained = false →
    (rt.reloadIsolated env).1.ForceAnswers env.forceStop env.pruneAtForce)

theorem reloadDrained_ok_iff (rt : EngineRuntime) (env : ReloadEnv) :
    (rt.reloadDrained env).2.ok = true ↔ env.drained = true ∧
      (rt.reloadIsolated env).1.DrainAnswers env.stopMaint env.pruneAtDrain :=
  waitProcessingDrained_ok_iff ..

theorem reloadDrained_undrained (undrained : env.drained = false) :
    rt.reloadDrained env = ((rt.reloadIsolated env).1.disconnectParseRouter, ⟨[], false⟩) := by
  simp [reloadDrained, waitProcessingDrained, undrained]

theorem reloadStopped_ok_iff (rt : EngineRuntime) (undrained : env.drained = false) :
    (rt.reloadStopped env).2.ok = true ↔
      (rt.reloadIsolated env).1.ForceAnswers env.forceStop env.pruneAtForce := by
  unfold reloadStopped
  rw [forceStopProcessing_ok_iff, reloadDrained_undrained undrained]
  rfl

theorem emptyAnswers_ok (answers : rt.EmptyAnswers env) :
    ((rt.reloadDrained env).2.ok || (rt.reloadStopped env).2.ok) = true := by
  rw [Bool.or_eq_true]
  cases drained : env.drained with
  | true =>
    left
    exact (reloadDrained_ok_iff rt env).mpr ⟨drained, answers.1 drained⟩
  | false =>
    right
    exact (reloadStopped_ok_iff rt drained).mpr (answers.2 drained)

theorem reloadEmptied_settles (rt : EngineRuntime) (env : ReloadEnv) :
    Transfer (M := Multiset RoleTaskGroup) (rt.reloadIsolated env).1.ownedGroups
      (awaitedGroups (rt.reloadEmptied env).2) (rt.reloadEmptied env).1.ownedGroups
      (rt.EmptyAnswers env) := by
  have drain : (rt.reloadIsolated env).1.Settles (rt.reloadDrained env) _ :=
    waitProcessingDrained_settles (rt.reloadIsolated env).1.disconnectParseRouter _ _ _
  have force : (rt.reloadDrained env).1.Settles (rt.reloadStopped env) _ :=
    forceStopProcessing_settles _ _ _
  unfold reloadEmptied
  cases drained : (rt.reloadDrained env).2.ok with
  | true =>
    rw [if_pos rfl]
    apply drain.congr
    have before := ((reloadDrained_ok_iff rt env).mp drained).1
    constructor
    · intro answers
      refine ⟨answers, ?_⟩
      intro undrained
      rw [before] at undrained
      cases undrained
    · intro answers
      exact answers.1
  | false =>
    rw [if_neg Bool.false_ne_true]
    apply (awaited_trans drain force).congr
    have failed : ¬ (rt.reloadDrained env).2.ok = true := by simp [drained]
    rw [reloadDrained_ok_iff] at failed
    cases before : env.drained with
    | true =>
      constructor
      · intro answers
        exact absurd ⟨before, answers.1 rfl⟩ failed
      · intro answers
        exact absurd ⟨before, answers.1 before⟩ failed
    | false =>
      have same := reloadStopped_ok_iff rt before
      unfold reloadStopped at same
      rw [forceStopProcessing_ok_iff] at same
      rw [same]
      constructor
      · intro answers
        refine ⟨?_, fun _ => answers.2⟩
        intro drain
        rw [before] at drain
        cases drain
      · intro answers
        refine ⟨?_, answers.2 before⟩
        intro drain
        cases drain

theorem installProcessingTasks_owned (processing : ProcessingTaskSet) (rt : EngineRuntime) :
    ((rt.installProcessingTasks processing).ownedGroups : Multiset RoleTaskGroup) =
      rt.ownedGroups + processing.groups := by
  have installed : (rt.installProcessingTasks processing).ownedGroups =
      rt.taskManager.roleGroups ++ processing.groups ++
        rt.detachedProcessingGroups.map DetachedProcessingGroup.rg := by
    unfold ownedGroups installProcessingTasks
    rw [install_roleGroups]
  rw [installed, ownedGroups_eq, ← Multiset.coe_add, ← Multiset.coe_add, add_right_comm]

theorem reloadAnswers_iff (rt : EngineRuntime) (env : ReloadEnv) :
    rt.ReloadAnswers env ↔ rt.PruneAnswers env.pruneAtIsolate ∧
      ((rt.reloadIsolated env).2.ok = true →
        rt.EmptyAnswers env ∧ (rt.reloadEmptied env).1.PruneAnswers env.pruneAtResume) := by
  constructor
  · intro answers
    refine ⟨answers.isolate, ?_⟩
    intro isolated
    exact ⟨⟨answers.drain isolated, answers.force isolated⟩, answers.resume isolated⟩
  · intro answers
    exact ⟨answers.1, fun isolated => (answers.2 isolated).1.1,
      fun isolated => (answers.2 isolated).1.2, fun isolated => (answers.2 isolated).2⟩

/-- A reload awaits or keeps the groups there were and those it installs, and it loses none exactly
    when all that it stops do stop. -/
theorem reload_settles (rt : EngineRuntime) (env : ReloadEnv) :
    Transfer (M := Multiset RoleTaskGroup) (rt.ownedGroups + installedGroups rt env)
      (awaitedGroups (reloadLog rt env)) (reloadProcessingP0 rt env).1.ownedGroups
      (env.prepared.isSome = true → rt.ReloadAnswers env) := by
  cases prepared : env.prepared with
  | none =>
    have nothing : installedGroups rt env = [] ∧ reloadLog rt env = [] ∧
        (reloadProcessingP0 rt env).1 = rt := by
      simp [installedGroups, reloadInstalls, reloadProcessingP0, reloadLog, prepared]
    rw [nothing.1, nothing.2.1, nothing.2.2, Multiset.coe_nil, add_zero]
    apply (Transfer.idle _).congr
    simp
  | some processing =>
    have reload := reload_of_prepared rt prepared
    have log := reloadLog_of_prepared rt prepared
    have isolate : rt.Settles (rt.reloadIsolated env) _ := isolatePicker_settles _ _ _
    have conditions := reloadAnswers_iff rt env
    have wanted : ((some processing).isSome = true → rt.ReloadAnswers env) ↔
        rt.ReloadAnswers env := by simp
    cases isolated : (rt.reloadIsolated env).2.ok with
    | false =>
      rw [isolated, if_neg Bool.false_ne_true] at reload log
      have nothing : installedGroups rt env = [] := by
        simp [installedGroups, reloadInstalls, reload]
      rw [nothing, log, reload, Multiset.coe_nil, add_zero]
      apply isolate.congr
      rw [wanted, conditions, isolated]
      simp
    | true =>
      rw [isolated, if_pos rfl] at reload log
      have emptied := awaited_trans isolate (rt.reloadEmptied_settles env)
      cases goesOn : (rt.reloadDrained env).2.ok || (rt.reloadStopped env).2.ok with
      | false =>
        rw [goesOn, if_neg Bool.false_ne_true] at reload log
        have nothing : installedGroups rt env = [] := by
          simp [installedGroups, reloadInstalls, reload]
        have stuck : rt.reloadEmptied env = ((rt.reloadStopped env).1,
            (rt.reloadDrained env).2.log ++ (rt.reloadStopped env).2.log) := by
          simp [reloadEmptied, (Bool.or_eq_false_iff.mp goesOn).1]
        have unanswered : ¬ rt.EmptyAnswers env := by
          intro answers
          rw [emptyAnswers_ok answers] at goesOn
          cases goesOn
        rw [stuck] at emptied
        rw [nothing, log, reload, Multiset.coe_nil, add_zero, List.append_assoc]
        apply emptied.congr
        rw [wanted, conditions, isolated]
        simp [unanswered]
      | true =>
        rw [goesOn, if_pos rfl] at reload log
        have new : installedGroups rt env = processing.groups := by
          unfold installedGroups reloadInstalls
          rw [reload, prepared]
          cases resumed : (rt.reloadResumed env processing).2.ok <;> simp
        have ready := emptied.aside (processing.groups : Multiset RoleTaskGroup)
        rw [← installProcessingTasks_owned processing (rt.reloadEmptied env).1] at ready
        have resume := awaited_trans ready (resumePicker_settles
          ((rt.reloadEmptied env).1.installProcessingTasks processing) env.pruneAtResume env.execute)
        rw [new, log, reload]
        apply resume.congr
        rw [wanted, conditions, isolated, and_assoc]
        simp only [true_implies]
        rfl

end Reload
end EngineRuntime
end WarpMotor
