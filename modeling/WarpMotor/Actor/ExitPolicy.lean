import WarpMotor.Actor.Routine

/-!
When the engine leaves a phase. A policy decides from a snapshot that counts the
registered groups of each role and says which roles have finished. A role
without a group is not finished, only absent. Pruning removes finished groups,
so it turns a finished role into an absent one.
-/
namespace WarpMotor

/-- `DAEMON_QUIESCING_MAX_WAIT` in milliseconds. -/
def daemonQuiescingMaxWait : Nat := 30000

inductive ExitPolicyKind where
  | batch | daemon | generator
  deriving DecidableEq, Repr

inductive ExitPhase where
  | running | quiescing
  deriving DecidableEq, Repr

inductive ExitTrigger where
  | signal
  | roleFinished (role : TaskRole)
  | quiescingTimeout
  deriving DecidableEq, Repr

inductive ExitAction where
  | stay
  | enterQuiescing (trigger : ExitTrigger)
  | enterStopping (trigger : ExitTrigger)
  deriving DecidableEq, Repr

/-- The maps of the snapshot, `none` where a role has no entry. -/
structure RuntimeSnapshot where
  phase : ExitPhase
  phaseElapsed : Nat
  signalReceived : Bool
  roleTotals : TaskRole → Option Nat
  roleFinishedMap : TaskRole → Option Bool

namespace RuntimeSnapshot

def roleFinished (snap : RuntimeSnapshot) (role : TaskRole) : Bool :=
  (snap.roleFinishedMap role).getD false

def hasRole (snap : RuntimeSnapshot) (role : TaskRole) : Bool :=
  decide (0 < (snap.roleTotals role).getD 0)

def roleFinishedOrAbsent (snap : RuntimeSnapshot) (role : TaskRole) : Bool :=
  !snap.hasRole role || snap.roleFinished role

end RuntimeSnapshot

def BatchExitPolicy.decide (snap : RuntimeSnapshot) : ExitAction :=
  match snap.phase with
  | .running =>
    if snap.signalReceived then .enterStopping .signal
    else if snap.roleFinished .picker then .enterQuiescing (.roleFinished .picker)
    else .stay
  | .quiescing =>
    if snap.signalReceived then .enterStopping .signal
    else if snap.roleFinished .parser then .enterStopping (.roleFinished .parser)
    else .stay

def DaemonExitPolicy.decide (snap : RuntimeSnapshot) : ExitAction :=
  match snap.phase with
  | .running =>
    if snap.signalReceived then .enterStopping .signal
    else if snap.roleFinished .picker then
      if snap.roleFinishedOrAbsent .acceptor then .enterStopping (.roleFinished .picker)
      else .enterQuiescing (.roleFinished .picker)
    else .stay
  | .quiescing =>
    if snap.signalReceived then .enterStopping .signal
    else if snap.roleFinishedOrAbsent .acceptor then .enterStopping (.roleFinished .picker)
    else if daemonQuiescingMaxWait ≤ snap.phaseElapsed then .enterStopping .quiescingTimeout
    else .stay

/-- The same in both phases. -/
def GeneratorExitPolicy.decide (snap : RuntimeSnapshot) : ExitAction :=
  if snap.signalReceived then .enterStopping .signal
  else if snap.roleFinished .generator then .enterStopping (.roleFinished .generator)
  else .stay

def ExitPolicyKind.decide : ExitPolicyKind → RuntimeSnapshot → ExitAction
  | .batch => BatchExitPolicy.decide
  | .daemon => DaemonExitPolicy.decide
  | .generator => GeneratorExitPolicy.decide

namespace TaskManager

/-- How many groups of the role there are, and how many of them have finished. -/
def counters (tm : TaskManager) (m : Moment) (role : TaskRole) : Nat × Nat :=
  (tm.roleGroups.countP (fun rg => rg.role = role),
    tm.roleGroups.countP (fun rg => rg.role = role && m.finished rg.group.id))

def buildRuntimeSnapshot (tm : TaskManager) (m : Moment) (phase : ExitPhase) (phaseElapsed : Nat)
    (signalReceived : Bool) : RuntimeSnapshot :=
  { phase, phaseElapsed, signalReceived
    roleTotals := fun role =>
      if (tm.counters m role).1 = 0 then none else some (tm.counters m role).1
    roleFinishedMap := fun role =>
      if (tm.counters m role).1 = 0 then none
      else some (decide ((tm.counters m role).1 = (tm.counters m role).2)) }

/-- `none`: there is no group at all, which is an error. -/
def nextExitPolicyAction (tm : TaskManager) (m : Moment) (kind : ExitPolicyKind)
    (phase : ExitPhase) (phaseElapsed : Nat) (signalReceived : Bool) : Option ExitAction :=
  if tm.roleGroups.isEmpty then none
  else some (kind.decide (tm.buildRuntimeSnapshot m phase phaseElapsed signalReceived))

end TaskManager

/-- The role whose end makes the policy leave the phase. -/
def ExitPolicyKind.watches : ExitPolicyKind → ExitPhase → Option TaskRole
  | .batch, .running => some .picker
  | .batch, .quiescing => some .parser
  | .daemon, .running => some .picker
  | .daemon, .quiescing => none
  | .generator, _ => some .generator

/-- There is a group of the role, and each of them has finished. -/
def TaskManager.RoleDone (tm : TaskManager) (m : Moment) (role : TaskRole) : Prop :=
  (∃ rg ∈ tm.roleGroups, rg.role = role) ∧
    ∀ rg ∈ tm.roleGroups, rg.role = role → m.finished rg.group.id = true

section
variable {tm : TaskManager} {m : Moment} {phase : ExitPhase} {elapsed : Nat} {signal : Bool}

theorem counters_eq_iff (tm : TaskManager) (m : Moment) (role : TaskRole) :
    (tm.counters m role).1 = (tm.counters m role).2 ↔
      ∀ rg ∈ tm.roleGroups, rg.role = role → m.finished rg.group.id = true := by
  unfold TaskManager.counters
  dsimp only
  have fewer : tm.roleGroups.countP (fun rg => rg.role = role && m.finished rg.group.id) =
      (tm.roleGroups.filter (fun rg => rg.role = role)).countP
        (fun rg => m.finished rg.group.id) := by
    rw [List.countP_filter]
    apply List.countP_congr
    intro rg _
    simp [and_comm]
  rw [fewer, List.countP_eq_length_filter, eq_comm, List.countP_eq_length]
  simp [List.mem_filter]

theorem roleFinished_iff (role : TaskRole) :
    (tm.buildRuntimeSnapshot m phase elapsed signal).roleFinished role = true ↔
      tm.RoleDone m role := by
  have total : (tm.counters m role).1 = 0 ↔ ∀ rg ∈ tm.roleGroups, rg.role ≠ role := by
    unfold TaskManager.counters
    rw [List.countP_eq_zero]
    simp
  unfold RuntimeSnapshot.roleFinished TaskManager.buildRuntimeSnapshot TaskManager.RoleDone
  dsimp only
  split
  · rename_i absent
    rw [total] at absent
    constructor
    · intro impossible
      cases impossible
    · intro done
      obtain ⟨rg, member, same⟩ := done.1
      exact absurd same (absent rg member)
  · rename_i present
    rw [total] at present
    rw [Option.getD_some, decide_eq_true_iff, counters_eq_iff]
    constructor
    · intro all
      refine ⟨?_, all⟩
      by_contra nobody
      apply present
      intro rg member same
      exact nobody ⟨rg, member, same⟩
    · intro done
      exact done.2

/-- Absent or finished: no group of the role is still at work. -/
theorem roleFinishedOrAbsent_iff (role : TaskRole) :
    (tm.buildRuntimeSnapshot m phase elapsed signal).roleFinishedOrAbsent role = true ↔
      ∀ rg ∈ tm.roleGroups, rg.role = role → m.finished rg.group.id = true := by
  rw [RuntimeSnapshot.roleFinishedOrAbsent, Bool.or_eq_true, roleFinished_iff]
  have absent : (!(tm.buildRuntimeSnapshot m phase elapsed signal).hasRole role) = true ↔
      ∀ rg ∈ tm.roleGroups, rg.role ≠ role := by
    unfold RuntimeSnapshot.hasRole TaskManager.buildRuntimeSnapshot TaskManager.counters
    dsimp only
    rw [Bool.not_eq_true', decide_eq_false_iff_not, Nat.not_lt, Nat.le_zero]
    split
    · rename_i none
      rw [List.countP_eq_zero] at none
      simpa using none
    · rename_i some
      rw [List.countP_eq_zero] at some
      simp
  rw [absent]
  constructor
  · intro either rg member same
    cases either with
    | inl gone => exact absurd same (gone rg member)
    | inr done => exact done.2 rg member same
  · intro all
    by_cases there : ∃ rg ∈ tm.roleGroups, rg.role = role
    · exact Or.inr ⟨there, all⟩
    · refine Or.inl ?_
      intro rg member same
      exact there ⟨rg, member, same⟩

end

section
variable {snap : RuntimeSnapshot}

theorem decide_signal (kind : ExitPolicyKind) (received : snap.signalReceived = true) :
    kind.decide snap = .enterStopping .signal := by
  cases kind with
  | batch =>
    unfold ExitPolicyKind.decide BatchExitPolicy.decide
    cases phase : snap.phase <;> simp [received, phase]
  | daemon =>
    unfold ExitPolicyKind.decide DaemonExitPolicy.decide
    cases phase : snap.phase <;> simp [received, phase]
  | generator => simp [ExitPolicyKind.decide, GeneratorExitPolicy.decide, received]

/-- Without a signal the phase is left exactly when the watched role has finished. -/
theorem decide_stays_iff {kind : ExitPolicyKind} {role : TaskRole}
    (watched : kind.watches snap.phase = some role) (quiet : snap.signalReceived = false) :
    kind.decide snap = .stay ↔ snap.roleFinished role = false := by
  cases kind with
  | batch =>
    unfold ExitPolicyKind.decide BatchExitPolicy.decide
    cases phase : snap.phase with
    | running =>
      rw [phase] at watched
      cases watched
      simp [quiet, phase]
    | quiescing =>
      rw [phase] at watched
      cases watched
      simp [quiet, phase]
  | daemon =>
    unfold ExitPolicyKind.decide DaemonExitPolicy.decide
    cases phase : snap.phase with
    | running =>
      rw [phase] at watched
      cases watched
      cases finished : snap.roleFinished .picker with
      | false => simp [quiet, phase, finished]
      | true =>
        simp only [quiet, phase, finished, Bool.false_eq_true, if_false, if_true]
        split <;> simp
    | quiescing =>
      rw [phase] at watched
      cases watched
  | generator =>
    cases watched
    simp [ExitPolicyKind.decide, GeneratorExitPolicy.decide, quiet]

/-- Only the daemon that quiesces watches no role: it asks whether acceptors are still at work. -/
theorem decide_unwatched {kind : ExitPolicyKind} {first second : RuntimeSnapshot}
    (unwatched : kind.watches first.phase = none) (phase : second.phase = first.phase)
    (elapsed : second.phaseElapsed = first.phaseElapsed)
    (signal : second.signalReceived = first.signalReceived)
    (acceptors : second.roleFinishedOrAbsent .acceptor = first.roleFinishedOrAbsent .acceptor) :
    kind.decide second = kind.decide first := by
  cases kind with
  | batch => cases when : first.phase <;> rw [when] at unwatched <;> cases unwatched
  | daemon =>
    show DaemonExitPolicy.decide second = DaemonExitPolicy.decide first
    unfold DaemonExitPolicy.decide
    rw [phase, elapsed, signal, acceptors]
    cases when : first.phase with
    | running =>
      rw [when] at unwatched
      cases unwatched
    | quiescing => rfl
  | generator => cases unwatched

end

section
variable {tm : TaskManager} {m : Moment}

theorem pruned_roleDone (tm : TaskManager) (m : Moment) (role : TaskRole) :
    ¬ (tm.pruneFinishedGroups m).1.RoleDone m role := by
  obtain ⟨-, left⟩ := tm.pruneFinishedGroups_spec m
  intro done
  unfold TaskManager.RoleDone at done
  rw [left] at done
  obtain ⟨⟨rg, member, same⟩, all⟩ := done
  have finished := all rg member same
  have unfinished := (List.mem_filter.mp member).2
  rw [finished] at unfinished
  cases unfinished

theorem pruned_atWork (tm : TaskManager) (m : Moment) (role : TaskRole) :
    (∀ rg ∈ (tm.pruneFinishedGroups m).1.roleGroups, rg.role = role →
        m.finished rg.group.id = true) ↔
      ∀ rg ∈ tm.roleGroups, rg.role = role → m.finished rg.group.id = true := by
  obtain ⟨-, left⟩ := tm.pruneFinishedGroups_spec m
  rw [left]
  constructor
  · intro all rg member same
    by_contra unfinished
    have kept : rg ∈ tm.roleGroups.filter (fun rg => !m.finished rg.group.id) :=
      List.mem_filter.mpr ⟨member, by simpa using unfinished⟩
    exact unfinished (all rg kept same)
  · intro all rg member same
    exact all rg (List.mem_filter.mp member).1 same

theorem pruned_isEmpty_iff (tm : TaskManager) (m : Moment) :
    (tm.pruneFinishedGroups m).1.roleGroups = [] ↔
      ∀ rg ∈ tm.roleGroups, m.finished rg.group.id = true := by
  obtain ⟨-, left⟩ := tm.pruneFinishedGroups_spec m
  rw [left, List.filter_eq_nil_iff]
  simp

end

/-- Pruning leaves the decision as it was exactly when there is nothing to decide on, or some group
    is still at work and the policy leaves the phase by a signal or not because of its role. -/
theorem pruning_keeps_decision_iff (tm : TaskManager) (m : Moment) (kind : ExitPolicyKind)
    (phase : ExitPhase) (elapsed : Nat) (signal : Bool) :
    (tm.pruneFinishedGroups m).1.nextExitPolicyAction m kind phase elapsed signal =
        tm.nextExitPolicyAction m kind phase elapsed signal ↔
      tm.roleGroups = [] ∨ (∃ rg ∈ tm.roleGroups, m.finished rg.group.id = false) ∧
        (signal = true ∨ ∀ role, kind.watches phase = some role → ¬ tm.RoleDone m role) := by
  have emptied := pruned_isEmpty_iff tm m
  cases groups : tm.roleGroups with
  | nil =>
    have none : (tm.pruneFinishedGroups m).1.roleGroups = [] := by
      rw [emptied, groups]
      intro rg member
      cases member
    simp [TaskManager.nextExitPolicyAction, groups, none]
  | cons first rest =>
    rw [← groups]
    have some : tm.roleGroups ≠ [] := by simp [groups]
    have before : tm.nextExitPolicyAction m kind phase elapsed signal =
        Option.some (kind.decide (tm.buildRuntimeSnapshot m phase elapsed signal)) := by
      simp [TaskManager.nextExitPolicyAction, groups]
    rw [before]
    by_cases gone : (tm.pruneFinishedGroups m).1.roleGroups = []
    · -- every group has finished: nothing is left to decide on
      have all := emptied.mp gone
      have after : (tm.pruneFinishedGroups m).1.nextExitPolicyAction m kind phase elapsed signal =
          none := by
        simp [TaskManager.nextExitPolicyAction, gone]
      rw [after]
      constructor
      · intro same
        cases same
      · intro condition
        rcases condition with none | ⟨⟨rg, member, unfinished⟩, _⟩
        · exact absurd none some
        · rw [all rg member] at unfinished
          cases unfinished
    · have atWork : ∃ rg ∈ tm.roleGroups, m.finished rg.group.id = false := by
        by_contra nobody
        apply gone
        rw [emptied]
        intro rg member
        by_contra unfinished
        exact nobody ⟨rg, member, Bool.not_eq_true _ ▸ unfinished⟩
      have after : (tm.pruneFinishedGroups m).1.nextExitPolicyAction m kind phase elapsed signal =
          Option.some (kind.decide
            ((tm.pruneFinishedGroups m).1.buildRuntimeSnapshot m phase elapsed signal)) := by
        simp [TaskManager.nextExitPolicyAction, gone]
      rw [after, Option.some.injEq]
      simp only [some, atWork, false_or, true_and]
      cases signal with
      | true =>
        rw [decide_signal kind rfl, decide_signal kind rfl]
        simp
      | false =>
        simp only [Bool.false_eq_true, false_or]
        cases watched : kind.watches phase with
        | none =>
          have same : kind.decide ((tm.pruneFinishedGroups m).1.buildRuntimeSnapshot m phase
              elapsed false) = kind.decide (tm.buildRuntimeSnapshot m phase elapsed false) := by
            have acceptors : ((tm.pruneFinishedGroups m).1.buildRuntimeSnapshot m phase elapsed
                false).roleFinishedOrAbsent .acceptor =
                (tm.buildRuntimeSnapshot m phase elapsed false).roleFinishedOrAbsent .acceptor := by
              rw [Bool.eq_iff_iff, roleFinishedOrAbsent_iff, roleFinishedOrAbsent_iff]
              exact pruned_atWork tm m .acceptor
            exact decide_unwatched watched rfl rfl rfl acceptors
          simp [same]
        | some role =>
          have stays : kind.decide ((tm.pruneFinishedGroups m).1.buildRuntimeSnapshot m phase
              elapsed false) = .stay := by
            rw [decide_stays_iff watched rfl, ← Bool.not_eq_true, roleFinished_iff]
            exact pruned_roleDone tm m role
          rw [stays, eq_comm, decide_stays_iff watched rfl, ← Bool.not_eq_true, roleFinished_iff]
          simp

/-- The pickers have finished and a parser still runs: the batch policy would quiesce, but after the
    pruning it stays. -/
theorem pruned_pickers_keep_running :
    TaskManager.nextExitPolicyAction
        ⟨[⟨.picker, ⟨0, "picker"⟩⟩, ⟨.parser, ⟨1, "parse"⟩⟩]⟩
        { smoothMoment with finished := fun id => id = 0 } .batch .running 0 false =
      some (.enterQuiescing (.roleFinished .picker)) ∧
    (TaskManager.pruneFinishedGroups
        ⟨[⟨.picker, ⟨0, "picker"⟩⟩, ⟨.parser, ⟨1, "parse"⟩⟩]⟩
        { smoothMoment with finished := fun id => id = 0 }).1.nextExitPolicyAction
          { smoothMoment with finished := fun id => id = 0 } .batch .running 0 false =
      some .stay := by
  decide

end WarpMotor
