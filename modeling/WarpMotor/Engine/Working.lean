import WarpMotor.Actor.ExitPolicy
import WarpMotor.Engine.Custody

/-!
The main loop of the engine. A daemon reads commands and polls for its exit, a
batch run only polls. The loop ends well with the stop of all registered groups
and does nothing about detached ones, which the runtime could shut down but
which nobody asks it to.
-/
namespace WarpMotor
open Ledger

inductive RunMode where
  | batch | daemon
  deriving DecidableEq, Repr

def RunMode.exitPolicy : RunMode → ExitPolicyKind
  | .batch => .batch
  | .daemon => .daemon

/-- What one turn of the loop meets. A poll decides at `seen` and acts at `act`. -/
inductive WorkingTurn where
  | command (env : ReloadEnv)
  | poll (stop : Bool) (seen act : Moment)

/-- The loop's variables, the commands and waits so far and the groups ever installed. The set that
    a failed reload shuts down unused is never installed and does not appear. -/
structure Working where
  runtime : EngineRuntime
  exitPhase : ExitPhase
  phaseStartedAt : Nat
  log : List GroupEvent
  installed : List RoleTaskGroup

inductive WorkingExit where
  | done (w : Working)
  | failed

def TaskManager.quiesceByPolicy (tm : TaskManager) (kind : ExitPolicyKind) (m : Moment) :
    GroupOutcome :=
  match kind with
  | .daemon => tm.requestRoleStop .acceptor m
  | .batch => ⟨[], true⟩
  | .generator => ⟨[], true⟩

namespace Working

def start (parts : ServiceParts) (now : Nat) : Working :=
  let rt := startWarpService parts
  { runtime := rt, exitPhase := .running, phaseStartedAt := now, log := []
    installed := rt.taskManager.roleGroups }

/-- The loop only logs a failed reload. -/
def handleRuntimeCommand (w : Working) (env : ReloadEnv) : Working :=
  { w with
    runtime := (reloadProcessingP0 w.runtime env).1
    log := w.log ++ reloadLog w.runtime env
    installed := w.installed ++ installedGroups w.runtime env }

def nextAction (mode : RunMode) (w : Working) (stop : Bool) (seen : Moment) : Option ExitAction :=
  w.runtime.taskManager.nextExitPolicyAction seen mode.exitPolicy w.exitPhase
    (seen.now - w.phaseStartedAt) stop

def enterQuiescing (mode : RunMode) (w : Working) (act : Moment) : Except WorkingExit Working :=
  let runtime := match mode with
    | .batch => w.runtime.disconnectParseRouter
    | .daemon => w.runtime
  let quiesced := runtime.taskManager.quiesceByPolicy mode.exitPolicy act
  if quiesced.ok then
    .ok { w with
      runtime, exitPhase := .quiescing, phaseStartedAt := act.now, log := w.log ++ quiesced.log }
  else .error .failed

def enterStopping (w : Working) (trigger : ExitTrigger) (act : Moment) : WorkingExit :=
  let stopped := w.runtime.taskManager.stopRoleGroups (trigger = .quiescingTimeout) act
  if stopped.2.ok then
    .done { w with
      runtime := { w.runtime with taskManager := stopped.1 }, log := w.log ++ stopped.2.log }
  else .failed

def turn (mode : RunMode) (w : Working) : WorkingTurn → Except WorkingExit Working
  | .command env =>
    match mode with
    | .daemon => .ok (w.handleRuntimeCommand env)
    | .batch => .ok w
  | .poll stop seen act =>
    match w.nextAction mode stop seen with
    | none => .error .failed
    | some .stay => .ok w
    | some (.enterQuiescing _) => w.enterQuiescing mode act
    | some (.enterStopping trigger) => .error (w.enterStopping trigger act)

/-- Each group that was installed has a wait of its own. -/
def AllAwaited (w : Working) : Prop := w.installed.Subperm (awaitedGroups w.log)

instance (w : Working) : Decidable w.AllAwaited := inferInstanceAs (Decidable (List.Subperm ..))

/-- In a reload every group that is stopped does stop; when the loop ends nothing is detached. -/
def TurnAnswers (mode : RunMode) (w : Working) : WorkingTurn → Prop
  | .command env =>
    mode = .daemon → env.prepared.isSome = true → w.runtime.ReloadAnswers env
  | .poll stop seen _ =>
    ∀ trigger, w.nextAction mode stop seen = some (.enterStopping trigger) →
      w.runtime.detachedProcessingGroups = []

end Working

/-- The loop from the started service on. -/
def engineWorking (mode : RunMode) (parts : ServiceParts) (now : Nat) (turns : List WorkingTurn) :
    Except WorkingExit Working :=
  turns.foldlM (Working.turn mode) (Working.start parts now)

namespace Working

/-- What was installed is awaited or still owned; under `p` none of it is lost. -/
def Books (w : Working) (p : Prop) : Prop :=
  Transfer (M := Multiset RoleTaskGroup) w.installed (awaitedGroups w.log) w.runtime.ownedGroups p

variable {w : Working} {mode : RunMode} {p : Prop}

theorem start_books (parts : ServiceParts) (now : Nat) : (start parts now).Books True := by
  have owned : (startWarpService parts).ownedGroups =
      (startWarpService parts).taskManager.roleGroups := by
    simp [EngineRuntime.ownedGroups, startWarpService]
  unfold Books start
  dsimp only
  rw [owned]
  exact Transfer.idle _

theorem handleRuntimeCommand_books (books : w.Books p) (env : ReloadEnv) :
    (w.handleRuntimeCommand env).Books
      (p ∧ (env.prepared.isSome = true → w.runtime.ReloadAnswers env)) := by
  have ready := books.aside (installedGroups w.runtime env : Multiset RoleTaskGroup)
  rw [Multiset.coe_add] at ready
  exact awaited_trans ready (EngineRuntime.reload_settles w.runtime env)

theorem quiesceByPolicy_awaits_nothing (tm : TaskManager) (kind : ExitPolicyKind) (m : Moment) :
    awaitedGroups (tm.quiesceByPolicy kind m).log = [] := by
  cases kind with
  | daemon =>
    apply forEach_awaits_nothing
    intro rg
    unfold RoleTaskGroup.cmdStop
    split <;> rfl
  | batch => rfl
  | generator => rfl

theorem enterQuiescing_books (books : w.Books p) {act : Moment} {after : Working}
    (quiesced : w.enterQuiescing mode act = .ok after) : after.Books p := by
  cases mode
  all_goals
    unfold enterQuiescing at quiesced
    dsimp only at quiesced
    split at quiesced
    · cases quiesced
      unfold Books
      dsimp only
      rw [awaitedGroups_append, quiesceByPolicy_awaits_nothing, List.append_nil]
      exact books
    · cases quiesced

/-- The stop of all registered groups awaits each of them when it succeeds. -/
theorem stopRoleGroups_settles {tm : TaskManager} {force : Bool} {m : Moment}
    (stopped : (tm.stopRoleGroups force m).2.ok = true) :
    Transfer (M := Multiset RoleTaskGroup) tm.roleGroups
      (awaitedGroups (tm.stopRoleGroups force m).2.log) 0 True := by
  have quiet : awaitedGroups (forEach (RoleTaskGroup.cmdAlone m) tm.roleGroups.reverse).log = [] := by
    apply forEach_awaits_nothing
    intro rg
    unfold RoleTaskGroup.cmdAlone
    split <;> rfl
  have down := forEach_settles (stopWait_awaits force m) tm.roleGroups.reverse
  rw [List.map_id, Multiset.coe_reverse] at down
  unfold TaskManager.stopRoleGroups at stopped ⊢
  dsimp only at stopped ⊢
  split at stopped
  · rename_i alone
    rw [if_pos alone]
    dsimp only at stopped ⊢
    rw [awaitedGroups_append, quiet, List.nil_append]
    exact down.congr (iff_true_intro stopped)
  · rename_i refused
    exact absurd stopped refused

/-- The loop ends well only after every registered group was awaited. -/
theorem enterStopping_awaits {trigger : ExitTrigger} {act : Moment} {final : Working}
    (books : w.Books p) (stopped : w.enterStopping trigger act = .done final) :
    final.AllAwaited ↔ p ∧ w.runtime.detachedProcessingGroups = [] := by
  unfold enterStopping at stopped
  dsimp only at stopped
  split at stopped
  · rename_i down
    cases stopped
    have registered := (stopRoleGroups_settles down).aside
      (w.runtime.detachedProcessingGroups.map DetachedProcessingGroup.rg : Multiset RoleTaskGroup)
    unfold Books at books
    rw [EngineRuntime.ownedGroups_eq] at books
    have whole := (awaited_trans books registered).settled_covers_iff (Multiset.zero_le _)
    unfold AllAwaited
    rw [← Multiset.coe_le, whole]
    simp
  · cases stopped

theorem turn_kept {turn : WorkingTurn} {after : Working} (books : w.Books p)
    (passed : w.turn mode turn = .ok after) : after.Books (p ∧ w.TurnAnswers mode turn) := by
  cases turn with
  | command env =>
    cases mode with
    | daemon =>
      cases passed
      apply (handleRuntimeCommand_books books env).congr
      simp [TurnAnswers]
    | batch =>
      cases passed
      apply Transfer.congr books
      simp [TurnAnswers]
  | poll stop seen act =>
    unfold Working.turn at passed
    dsimp only at passed
    split at passed
    · cases passed
    · rename_i stays
      cases passed
      apply Transfer.congr books
      simp [TurnAnswers, stays]
    · rename_i quiesces
      apply Transfer.congr (enterQuiescing_books books passed)
      simp [TurnAnswers, quiesces]
    · cases passed

theorem turn_left {turn : WorkingTurn} {final : Working} (books : w.Books p)
    (exits : w.turn mode turn = .error (.done final)) :
    final.AllAwaited ↔ p ∧ w.TurnAnswers mode turn := by
  cases turn with
  | command env => cases mode <;> cases exits
  | poll stop seen act =>
    unfold Working.turn at exits
    dsimp only at exits
    split at exits
    · cases exits
    · cases exits
    · cases mode
      all_goals
        unfold enterQuiescing at exits
        dsimp only at exits
        split at exits <;> cases exits
    · rename_i trigger stops
      rw [enterStopping_awaits books (Except.error.inj exits)]
      simp [TurnAnswers, stops]

end Working

/-- When `engine_working` returns well, every group ever installed has been awaited exactly when in
    each reload the groups that it stops did stop, and no detached group was left at the end. -/
theorem working_abandons_no_group_iff (mode : RunMode) (parts : ServiceParts) (now : Nat)
    (turns : List WorkingTurn) (final : Working)
    (exits : engineWorking mode parts now turns = .error (.done final)) :
    final.AllAwaited ↔
      Runs.EveryStep (Working.turn mode) (Working.TurnAnswers mode) (Working.start parts now)
        turns := by
  have run := Runs.exit_iff_everyStep Working.Books
    (fun w p turn after books passed => Working.turn_kept books passed)
    (fun w p turn books exits => Working.turn_left books exits)
    turns (Working.start parts now) (Working.start_books parts now) exits
  rw [run]
  exact iff_of_eq (true_and _)

/-- A reload whose old groups have finished by its last prune leaves nothing detached. -/
theorem flushed_groups_are_awaited :
    ∃ final, engineWorking .daemon daemonParts 0
        [.command { gracefulReload with pruneAtResume :=
            { smoothMoment with finished := fun id => 2 ≤ id && id ≤ 4 } },
          .poll true smoothMoment smoothMoment] = .error (.done final) ∧
      final.AllAwaited ∧
      Runs.EveryStep (Working.turn .daemon) (Working.TurnAnswers .daemon)
        (Working.start daemonParts 0)
        [.command { gracefulReload with pruneAtResume :=
            { smoothMoment with finished := fun id => 2 ≤ id && id ≤ 4 } },
          .poll true smoothMoment smoothMoment] :=
  ⟨_, rfl, by decide, (working_abandons_no_group_iff .daemon daemonParts 0 _ _ rfl).mp (by decide)⟩

/-- After one graceful reload a signal ends the engine while the old parsers still flush. -/
theorem detached_groups_are_abandoned :
    ∃ final, engineWorking .daemon daemonParts 0
        [.command gracefulReload, .poll true smoothMoment smoothMoment] = .error (.done final) ∧
      ¬ final.AllAwaited :=
  ⟨_, rfl, by decide⟩

end WarpMotor
