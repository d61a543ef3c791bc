import WarpMotor.Actor.Routine

/-!
What stays registered when a loop of `TaskManager` fails. The loops that drain
the list of groups put back what they keep only at their end, so the position
of the failing group does not matter: nothing is registered any more.
-/
namespace WarpMotor

/-- A task of a group: over already, or what awaiting it gives. -/
structure TaskHandle where
  finished : Bool
  joinOk : Bool
  deriving DecidableEq, Repr

/-- The handles of a group popped one by one; what is left when one of them had panicked. -/
def popHandles : List TaskHandle → Bool × List TaskHandle
  | [] => (true, [])
  | handle :: rest => if handle.finished || handle.joinOk then popHandles rest else (false, rest)

/-- The moment of groups with these tasks, last appended first. -/
def momentOf (handles : Nat → List TaskHandle) (now : Nat) (sendOk timedOut : Nat → Bool) : Moment :=
  { now, sendOk, timedOut
    finished := fun id => (handles id).all (fun handle => handle.finished)
    joinOk := fun id => (handles id).all (fun handle => handle.finished || handle.joinOk) }

theorem popHandles_ok (handles : List TaskHandle) : (popHandles handles).1 =
    handles.all (fun handle => handle.finished || handle.joinOk) := by
  induction handles with
  | nil => rfl
  | cons handle rest ih =>
    rw [popHandles, List.all_cons]
    split
    · next joined => rw [ih, joined, Bool.true_and]
    · next panicked => rw [Bool.eq_false_iff.mpr panicked, Bool.false_and]

/-- The wait of a group succeeds when no task that is not over panics. -/
theorem waitFinished_handles (handles : Nat → List TaskHandle) (now : Nat)
    (sendOk timedOut : Nat → Bool) (rg : RoleTaskGroup) :
    (rg.waitFinished (momentOf handles now sendOk timedOut)).ok =
      (popHandles (handles rg.group.id)).1 := by
  have all_over : (handles rg.group.id).all (fun handle => handle.finished) = true →
      (handles rg.group.id).all (fun handle => handle.finished || handle.joinOk) = true := by
    simp only [List.all_eq_true, Bool.or_eq_true]
    intro finished handle member
    exact .inl (finished handle member)
  rw [popHandles_ok]
  unfold RoleTaskGroup.waitFinished momentOf
  dsimp only
  split
  · next joined =>
    rcases (Bool.or_eq_true _ _).mp joined with finished | joined
    · exact (all_over finished).symm
    · exact joined.symm
  · next failed =>
    refine (Bool.eq_false_iff.mpr (fun joined => failed ?_)).symm
    rw [joined, Bool.or_true]

namespace TaskManager

/-- The wait looks at the groups of the role at these moments until they have finished or the
    time is over; `none` when it is still waiting. -/
def waitRoleGroupsFinished (tm : TaskManager) (role : TaskRole) (startedAt waitTimeout : Nat) :
    List Moment → Option (TaskManager × GroupOutcome)
  | [] => none
  | m :: later =>
    if (tm.runningOf role m).isEmpty then
      some (tm.drainGroups (fun rg => rg.role = role) (RoleTaskGroup.waitFinished m))
    else if waitTimeout ≤ m.now - startedAt then some (tm, ⟨[], false⟩)
    else tm.waitRoleGroupsFinished role startedAt waitTimeout later

/-- After an error every group that was not stopped, and has not ended by then, is registered
    as before. -/
def KeepsOthers (tm : TaskManager) (ended : Nat → Bool) (after : TaskManager)
    (out : GroupOutcome) : Prop :=
  out.ok = false → (tm.roleGroups.filter (fun rg =>
    !ended rg.group.id && !out.log.contains (.waited rg))).Sublist after.roleGroups

end TaskManager

/-- A wait that is logged is the wait of its own group, and ended well. -/
def WaitsForItself (close : RoleTaskGroup → GroupOutcome) : Prop :=
  ∀ rg other, GroupEvent.waited other ∈ (close rg).log ↔ other = rg ∧ (close rg).ok = true

theorem waitFinished_waits (m : Moment) : WaitsForItself (RoleTaskGroup.waitFinished m) := by
  intro rg other
  unfold RoleTaskGroup.waitFinished
  split <;> simp

theorem waitGraceDown_waits (m : Moment) : WaitsForItself (RoleTaskGroup.waitGraceDown m) := by
  intro rg other
  unfold RoleTaskGroup.waitGraceDown
  repeat' split
  all_goals simp

/-- The loop has waited for the groups before the first that fails. -/
theorem waited_iff {close : RoleTaskGroup → GroupOutcome} (waits : WaitsForItself close)
    (groups : List RoleTaskGroup) (rg : RoleTaskGroup) :
    GroupEvent.waited rg ∈ (forEach close groups).log ↔
      rg ∈ groups.takeWhile (fun rg => (close rg).ok) := by
  induction groups with
  | nil => simp [forEach]
  | cons first rest ih =>
    simp only [forEach]
    cases ended : (close first).ok with
    | true =>
      rw [if_pos rfl, List.mem_append, waits, ih, ended]
      simp [ended]
    | false =>
      rw [if_neg Bool.false_ne_true, waits, ended]
      simp [ended]

/-- Where no taken group fails nothing is asked. Where one does, the others are gone, unless all
    of them have ended or stand before it. -/
theorem drainGroups_keeps_iff (tm : TaskManager) (ended : Nat → Bool)
    (taken : RoleTaskGroup → Bool) {close : RoleTaskGroup → GroupOutcome}
    (waits : WaitsForItself close) :
    tm.KeepsOthers ended (tm.drainGroups taken close).1 (tm.drainGroups taken close).2 ↔
      (∀ rg ∈ tm.roleGroups, taken rg = true → (close rg).ok = true) ∨
        ∀ rg ∈ tm.roleGroups, ended rg.group.id = true ∨
          rg ∈ (tm.roleGroups.filter taken).takeWhile (fun rg => (close rg).ok) := by
  have all_ok := forEach_ok_iff close (tm.roleGroups.filter taken)
  simp only [List.mem_filter, and_imp] at all_ok
  rw [← all_ok]
  unfold TaskManager.KeepsOthers TaskManager.drainGroups
  cases outcome : (forEach close (tm.roleGroups.filter taken)).ok with
  | true => simp [outcome]
  | false =>
    simp only [outcome, Bool.false_eq_true, if_false, forall_const, false_or, List.sublist_nil,
      List.filter_eq_nil_iff, Bool.and_eq_true, Bool.not_eq_true', List.contains_eq_mem,
      decide_eq_false_iff_not, waited_iff waits, not_and_or, Bool.not_eq_false, not_not]

/-- Pruning waits for finished groups only, and they cannot fail. -/
theorem prune_keeps (tm : TaskManager) (ended : Nat → Bool) (m : Moment) :
    tm.KeepsOthers ended (tm.pruneFinishedGroups m).1 (tm.pruneFinishedGroups m).2 := by
  intro failed
  rw [(tm.pruneFinishedGroups_spec m).1] at failed
  cases failed

/-- The wait for a role fails by its timeout only, and then no group was taken. -/
theorem wait_keeps (tm : TaskManager) (ended : Nat → Bool) (role : TaskRole)
    (startedAt waitTimeout : Nat) (polls : List Moment) {after : TaskManager} {out : GroupOutcome}
    (returned : tm.waitRoleGroupsFinished role startedAt waitTimeout polls = some (after, out)) :
    tm.KeepsOthers ended after out := by
  induction polls with
  | nil => cases returned
  | cons m later ih =>
    rw [TaskManager.waitRoleGroupsFinished] at returned
    split at returned
    · next finished =>
      rw [List.isEmpty_iff, TaskManager.runningOf, List.filter_eq_nil_iff] at finished
      have drained := (drainGroups_keeps_iff tm ended (fun rg => decide (rg.role = role))
        (waitFinished_waits m)).mpr (.inl (by
          intro rg member ofRole
          have done := finished rg member
          simp only [ofRole, Bool.true_and, Bool.not_eq_true', Bool.not_eq_false] at done
          simp [RoleTaskGroup.waitFinished, done]))
      rw [Option.some.inj returned] at drained
      exact drained
    · split at returned
      · cases returned
        intro _
        exact List.filter_sublist
      · exact ih returned

/-- The command reaches the group, and no task of it panics before it is over. -/
def RoleTaskGroup.stopsWell (m : Moment) (rg : RoleTaskGroup) : Bool :=
  m.sendOk rg.group.id && (m.finished rg.group.id || m.joinOk rg.group.id)

theorem waitGraceDown_ok (m : Moment) (rg : RoleTaskGroup) :
    (rg.waitGraceDown m).ok = rg.stopsWell m := by
  unfold RoleTaskGroup.waitGraceDown RoleTaskGroup.stopsWell
  cases m.sendOk rg.group.id with
  | false => rfl
  | true => cases m.finished rg.group.id || m.joinOk rg.group.id <;> rfl

/-- No group of the role fails to stop, or every group has ended at the return or stands, in the
    role, before the first that fails. -/
def StopsOrEnded (tm : TaskManager) (role : TaskRole) (m : Moment) (ended : Nat → Bool) : Prop :=
  (∀ rg ∈ tm.roleGroups, rg.role = role → rg.stopsWell m = true) ∨
    ∀ rg ∈ tm.roleGroups, ended rg.group.id = true ∨
      rg ∈ (tm.roleGroups.filter (fun rg => rg.role = role)).takeWhile
        (RoleTaskGroup.stopsWell m)

/-- A failing group leaves the others registered, whatever the groups do, exactly when no group
    fails while its role is stopped, or none of the others needs to be. -/
theorem failing_group_keeps_others_iff (tm : TaskManager) (role : TaskRole)
    (prune stop : Moment) (startedAt waitTimeout : Nat) (polls : List Moment)
    (ended : Nat → Bool) :
    (tm.KeepsOthers ended (tm.pruneFinishedGroups prune).1 (tm.pruneFinishedGroups prune).2 ∧
      (∀ after out, tm.waitRoleGroupsFinished role startedAt waitTimeout polls =
        some (after, out) → tm.KeepsOthers ended after out) ∧
      tm.KeepsOthers ended (tm.stopRole role stop).1 (tm.stopRole role stop).2) ↔
    StopsOrEnded tm role stop ended := by
  have stopped := drainGroups_keeps_iff tm ended (fun rg => decide (rg.role = role))
    (waitGraceDown_waits stop)
  simp only [decide_eq_true_eq, waitGraceDown_ok] at stopped
  constructor
  · rintro ⟨-, -, kept⟩
    exact stopped.mp kept
  · intro condition
    refine ⟨prune_keeps tm ended prune, ?_, stopped.mpr condition⟩
    intro after out returned
    exact wait_keeps tm ended role startedAt waitTimeout polls returned

/-- The parser panics while it is stopped, and the acceptor and the picker are forgotten. -/
theorem panicking_parser_orphans_picker :
    let tm : TaskManager := ⟨[⟨.acceptor, ⟨1, "acceptor"⟩⟩, ⟨.parser, ⟨2, "parser"⟩⟩,
      ⟨.picker, ⟨3, "picker"⟩⟩]⟩
    let panics := momentOf (fun id => [⟨false, id != 2⟩]) 0 (fun _ => true) (fun _ => false)
    (tm.stopRole .parser panics).2.ok = false ∧ (tm.stopRole .parser panics).1.roleGroups = [] ∧
      ¬ tm.KeepsOthers (fun id => id == 2) (tm.stopRole .parser panics).1
        (tm.stopRole .parser panics).2 := by
  refine ⟨by decide, by decide, ?_⟩
  intro kept
  exact absurd (kept (by decide)) (by decide)

end WarpMotor
