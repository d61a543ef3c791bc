import Mathlib.Data.List.Basic
import WarpMotor.Actor.Command

/-!
Task groups registered by role, and the loops of `TaskManager` over them. A
`Moment` fixes what the groups do while one loop runs: whether all tasks of
a group have finished, whether a broadcast is accepted, whether joining the
tasks succeeds or times out. Groups are told apart by `id`. The log records
commands and waits in the order the loops perform them.
-/
namespace WarpMotor

inductive TaskRole where
  | monitor | infra | sink | maintainer | parser | picker | acceptor | generator | router
  deriving DecidableEq, Repr

structure TaskGroup where
  id : Nat
  name : String
  deriving DecidableEq, Repr

structure RoleTaskGroup where
  role : TaskRole
  group : TaskGroup
  deriving DecidableEq, Repr

structure Moment where
  now : Nat
  finished : Nat → Bool
  sendOk : Nat → Bool
  joinOk : Nat → Bool
  timedOut : Nat → Bool

inductive GroupEvent where
  | isolated (rg : RoleTaskGroup)
  | executed (rg : RoleTaskGroup)
  | stopSent (rg : RoleTaskGroup)
  | waited (rg : RoleTaskGroup)
  deriving DecidableEq, Repr

/-- What a command, a wait or a loop of them did; `ok = false` is an early `?`. -/
structure GroupOutcome where
  log : List GroupEvent
  ok : Bool
  deriving DecidableEq, Repr

namespace RoleTaskGroup

def cmdAlone (m : Moment) (rg : RoleTaskGroup) : GroupOutcome :=
  if m.sendOk rg.group.id then ⟨[.isolated rg], true⟩ else ⟨[], false⟩

def cmdExecuteAll (m : Moment) (rg : RoleTaskGroup) : GroupOutcome :=
  if m.sendOk rg.group.id then ⟨[.executed rg], true⟩ else ⟨[], false⟩

/-- Finished tasks are not joined, so a finished group never reports a join error. -/
def waitFinished (m : Moment) (rg : RoleTaskGroup) : GroupOutcome :=
  if m.finished rg.group.id || m.joinOk rg.group.id then ⟨[.waited rg], true⟩ else ⟨[], false⟩

def waitGraceDown (m : Moment) (rg : RoleTaskGroup) : GroupOutcome :=
  if m.sendOk rg.group.id then
    if m.finished rg.group.id || m.joinOk rg.group.id then ⟨[.stopSent rg, .waited rg], true⟩
    else ⟨[.stopSent rg], false⟩
  else ⟨[], false⟩

/-- After a timeout the remaining tasks are aborted and the wait succeeds. -/
def waitGraceDownWithTimeout (m : Moment) (rg : RoleTaskGroup) : GroupOutcome :=
  if m.sendOk rg.group.id then
    if m.finished rg.group.id || m.timedOut rg.group.id || m.joinOk rg.group.id then
      ⟨[.stopSent rg, .waited rg], true⟩
    else ⟨[.stopSent rg], false⟩
  else ⟨[], false⟩

end RoleTaskGroup

/-- A `for` loop whose body ends in `?`: the first failure ends it. -/
def forEach {α : Type} (act : α → GroupOutcome) : List α → GroupOutcome
  | [] => ⟨[], true⟩
  | rg :: rest =>
    let out := act rg
    if out.ok then
      let more := forEach act rest
      ⟨out.log ++ more.log, more.ok⟩
    else out

structure TaskManager where
  roleGroups : List RoleTaskGroup
  deriving DecidableEq, Repr

namespace TaskManager

def roles (tm : TaskManager) : List TaskRole := tm.roleGroups.map RoleTaskGroup.role

def appendGroupWithRole (tm : TaskManager) (role : TaskRole) (group : TaskGroup) : TaskManager :=
  { roleGroups := tm.roleGroups ++ [⟨role, group⟩] }

def detachRole (tm : TaskManager) (role : TaskRole) : List RoleTaskGroup × TaskManager :=
  (tm.roleGroups.filter (fun rg => rg.role = role),
    { roleGroups := tm.roleGroups.filter (fun rg => rg.role ≠ role) })

/-- The loops that `drain` the vector: groups in `taken` are closed and dropped, the others are
    kept. An early `?` leaves the drained vector behind, with no group in it. -/
def drainGroups (tm : TaskManager) (taken : RoleTaskGroup → Bool)
    (close : RoleTaskGroup → GroupOutcome) : TaskManager × GroupOutcome :=
  let out := forEach close (tm.roleGroups.filter taken)
  if out.ok then ({ roleGroups := tm.roleGroups.filter (fun rg => !taken rg) }, out)
  else ({ roleGroups := [] }, out)

def pruneFinishedGroups (tm : TaskManager) (m : Moment) : TaskManager × GroupOutcome :=
  tm.drainGroups (fun rg => m.finished rg.group.id) (RoleTaskGroup.waitFinished m)

def stopRole (tm : TaskManager) (role : TaskRole) (m : Moment) : TaskManager × GroupOutcome :=
  tm.drainGroups (fun rg => rg.role = role) (RoleTaskGroup.waitGraceDown m)

def runningOf (tm : TaskManager) (role : TaskRole) (m : Moment) : List RoleTaskGroup :=
  tm.roleGroups.filter (fun rg => rg.role = role && !m.finished rg.group.id)

def isolateRole (tm : TaskManager) (role : TaskRole) (m : Moment) : GroupOutcome :=
  forEach (RoleTaskGroup.cmdAlone m) (tm.runningOf role m)

def executeRoleAll (tm : TaskManager) (role : TaskRole) (m : Moment) : GroupOutcome :=
  forEach (RoleTaskGroup.cmdExecuteAll m) (tm.runningOf role m)

/-- The wait of `stop_role_groups`; `acceptorForce` says that a force timeout is set. -/
def stopWait (acceptorForce : Bool) (m : Moment) (rg : RoleTaskGroup) : GroupOutcome :=
  if acceptorForce && rg.role = .acceptor then rg.waitGraceDownWithTimeout m
  else rg.waitGraceDown m

/-- Isolate every group, then stop and await them one by one, last registered first. -/
def stopRoleGroups (tm : TaskManager) (acceptorForce : Bool) (m : Moment) :
    TaskManager × GroupOutcome :=
  let groups := tm.roleGroups.reverse
  let alone := forEach (RoleTaskGroup.cmdAlone m) groups
  if alone.ok then
    let down := forEach (stopWait acceptorForce m) groups
    (if down.ok then { roleGroups := [] } else { roleGroups := groups },
      ⟨alone.log ++ down.log, down.ok⟩)
  else ({ roleGroups := groups }, alone)

end TaskManager

/-- The order of the data path; roles outside it have no place in the shutdown order. -/
def TaskRole.shutdownRank : TaskRole → Option Nat
  | .picker => some 0
  | .parser => some 1
  | .sink => some 2
  | .infra => some 3
  | .monitor => some 4
  | _ => none

/-- Only stop commands and waits count for the shutdown order. -/
def GroupEvent.stopRank : GroupEvent → Option Nat
  | .stopSent rg => rg.role.shutdownRank
  | .waited rg => rg.role.shutdownRank
  | .isolated _ => none
  | .executed _ => none

def rankLe : Option Nat → Option Nat → Prop
  | some a, some b => a ≤ b
  | _, _ => True

instance (a b : Option Nat) : Decidable (rankLe a b) :=
  match a, b with
  | some a, some b => inferInstanceAs (Decidable (a ≤ b))
  | some _, none => .isTrue trivial
  | none, _ => .isTrue trivial

/-- Every stop and every wait of an upstream group comes before those of a downstream group. -/
def UpstreamFirst (log : List GroupEvent) : Prop :=
  log.Pairwise (fun a b => rankLe a.stopRank b.stopRank)

instance (log : List GroupEvent) : Decidable (UpstreamFirst log) :=
  inferInstanceAs (Decidable (log.Pairwise _))

theorem rankLe_refl (a : Option Nat) : rankLe a a := by
  cases a with
  | none => trivial
  | some n => exact Nat.le_refl n

/-- What an action on one group may log: a sublist of `full`, and all of it when it succeeds. -/
theorem forEach_log_sublist {act : RoleTaskGroup → GroupOutcome}
    {full : RoleTaskGroup → List GroupEvent} (each : ∀ rg, (act rg).log.Sublist (full rg))
    (groups : List RoleTaskGroup) : (forEach act groups).log.Sublist (groups.flatMap full) := by
  induction groups with
  | nil => simp [forEach]
  | cons rg rest ih =>
    simp only [forEach, List.flatMap_cons]
    split
    · exact (each rg).append ih
    · exact (each rg).trans (List.sublist_append_left _ _)

theorem forEach_ok_iff {α : Type} (act : α → GroupOutcome) (items : List α) :
    (forEach act items).ok = true ↔ ∀ item ∈ items, (act item).ok = true := by
  induction items with
  | nil => simp [forEach]
  | cons item rest ih =>
    simp only [forEach, List.forall_mem_cons]
    split
    · rename_i first
      simp [first, ih]
    · rename_i first
      simp [first]

/-- Awaiting finished groups cannot fail, so pruning removes exactly these. -/
theorem TaskManager.pruneFinishedGroups_spec (tm : TaskManager) (m : Moment) :
    (tm.pruneFinishedGroups m).2.ok = true ∧ (tm.pruneFinishedGroups m).1.roleGroups =
      tm.roleGroups.filter (fun rg => !m.finished rg.group.id) := by
  have awaited : (forEach (RoleTaskGroup.waitFinished m)
      (tm.roleGroups.filter (fun rg => m.finished rg.group.id))).ok = true := by
    rw [forEach_ok_iff]
    intro rg member
    have finished := (List.mem_filter.mp member).2
    simp [RoleTaskGroup.waitFinished, finished]
  simp [TaskManager.pruneFinishedGroups, TaskManager.drainGroups, awaited]

theorem forEach_log_complete (act : RoleTaskGroup → GroupOutcome)
    (full : RoleTaskGroup → List GroupEvent) (each : ∀ rg, act rg = ⟨full rg, true⟩)
    (groups : List RoleTaskGroup) : forEach act groups = ⟨groups.flatMap full, true⟩ := by
  induction groups with
  | nil => rfl
  | cons rg rest ih => simp [forEach, each, ih]

theorem stopWait_log (acceptorForce : Bool) (m : Moment) (rg : RoleTaskGroup) :
    (TaskManager.stopWait acceptorForce m rg).log.Sublist [.stopSent rg, .waited rg] := by
  unfold TaskManager.stopWait RoleTaskGroup.waitGraceDownWithTimeout RoleTaskGroup.waitGraceDown
  repeat' split
  all_goals simp

theorem cmdAlone_log (m : Moment) (rg : RoleTaskGroup) :
    (rg.cmdAlone m).log.Sublist [.isolated rg] := by
  unfold RoleTaskGroup.cmdAlone
  split <;> simp

/-- The moment at which every command is accepted and every join succeeds. -/
def smoothMoment : Moment :=
  { now := 0, finished := fun _ => false, sendOk := fun _ => true, joinOk := fun _ => true
    timedOut := fun _ => false }

/-- The whole log of an undisturbed shutdown. -/
def fullStopLog (groups : List RoleTaskGroup) : List GroupEvent :=
  groups.flatMap (fun rg => [.isolated rg]) ++
    groups.flatMap (fun rg => [.stopSent rg, .waited rg])

theorem stopRoleGroups_log (tm : TaskManager) (acceptorForce : Bool) (m : Moment) :
    (tm.stopRoleGroups acceptorForce m).2.log.Sublist (fullStopLog tm.roleGroups.reverse) := by
  have alone := forEach_log_sublist (cmdAlone_log m) tm.roleGroups.reverse
  have down := forEach_log_sublist (stopWait_log acceptorForce m) tm.roleGroups.reverse
  unfold TaskManager.stopRoleGroups fullStopLog
  dsimp only
  split
  · exact alone.append down
  · exact alone.trans (List.sublist_append_left _ _)

theorem stopRoleGroups_smooth (tm : TaskManager) :
    (tm.stopRoleGroups false smoothMoment).2.log = fullStopLog tm.roleGroups.reverse := by
  have alone := forEach_log_complete (RoleTaskGroup.cmdAlone smoothMoment)
    (fun rg => [.isolated rg]) (fun rg => rfl) tm.roleGroups.reverse
  have down := forEach_log_complete (TaskManager.stopWait false smoothMoment)
    (fun rg => [.stopSent rg, .waited rg]) (fun rg => rfl) tm.roleGroups.reverse
  simp [TaskManager.stopRoleGroups, alone, down, fullStopLog]

theorem fullStopLog_upstreamFirst (groups : List RoleTaskGroup) :
    UpstreamFirst (fullStopLog groups) ↔
      (groups.map RoleTaskGroup.role).Pairwise
        (fun a b => rankLe a.shutdownRank b.shutdownRank) := by
  unfold UpstreamFirst fullStopLog
  rw [List.pairwise_append, List.pairwise_flatMap, List.pairwise_flatMap, List.pairwise_map]
  constructor
  · rintro ⟨-, ⟨-, stops⟩, -⟩
    refine stops.imp ?_
    intro a b ordered
    exact ordered (.stopSent a) (by simp) (.stopSent b) (by simp)
  · intro ordered
    refine ⟨⟨by simp, ?_⟩, ⟨?_, ?_⟩, ?_⟩
    · refine ordered.imp ?_
      intro a b _ x isolated
      rw [List.mem_singleton] at isolated
      subst isolated
      intro y _
      trivial
    · intro rg _
      simpa [GroupEvent.stopRank] using rankLe_refl rg.role.shutdownRank
    · refine ordered.imp ?_
      intro a b le x first y second
      simp only [List.mem_cons, List.not_mem_nil, or_false] at first second
      rcases first with rfl | rfl <;> rcases second with rfl | rfl <;> exact le
    · intro x isolated
      obtain ⟨rg, -, single⟩ := List.mem_flatMap.mp isolated
      rw [List.mem_singleton] at single
      subst single
      intro y _
      trivial

/-- Whatever the groups do, the shutdown is upstream-first exactly when the registered roles,
    read backwards, are. -/
theorem stopRoleGroups_upstreamFirst (tm : TaskManager) :
    (∀ acceptorForce m, UpstreamFirst (tm.stopRoleGroups acceptorForce m).2.log) ↔
      tm.roles.reverse.Pairwise (fun a b => rankLe a.shutdownRank b.shutdownRank) := by
  have full := fullStopLog_upstreamFirst tm.roleGroups.reverse
  rw [List.map_reverse] at full
  constructor
  · intro always
    have smooth := always false smoothMoment
    rw [stopRoleGroups_smooth] at smooth
    exact full.mp smooth
  · intro ordered acceptorForce m
    exact (full.mpr ordered).sublist (stopRoleGroups_log tm acceptorForce m)

end WarpMotor
