import WarpMotor.Engine.Service

/-!
The shutdown order after any history of successful reloads. Role groups are
stopped in the reverse of their registration order. At start the pickers are
registered last; a reload removes the processing groups and registers their
replacements behind the surviving picker group, so from the first reload on
the pickers are stopped after the groups they feed.
-/
namespace WarpMotor

def isProcessingRole : TaskRole → Bool
  | .parser => true
  | .sink => true
  | .infra => true
  | .maintainer => true
  | _ => false

/-- Registration order at start. -/
def startOrder : List TaskRole :=
  [.acceptor, .monitor, .infra, .sink, .maintainer, .parser, .picker]

/-- Registration order from the first successful reload on. -/
def reloadOrder : List TaskRole :=
  [.acceptor, .monitor, .picker, .infra, .sink, .maintainer, .parser]

namespace TaskManager

theorem roles_filter (groups : List RoleTaskGroup) (keep : TaskRole → Bool) :
    (groups.filter (fun rg => keep rg.role)).map RoleTaskGroup.role =
      (groups.map RoleTaskGroup.role).filter keep := by
  rw [List.filter_map]
  rfl

theorem drainGroups_roles (tm : TaskManager) (taken : RoleTaskGroup → Bool)
    (close : RoleTaskGroup → GroupOutcome) :
    (tm.drainGroups taken close).1.roles.Sublist tm.roles := by
  unfold drainGroups
  dsimp only
  split
  · exact List.filter_sublist.map _
  · exact List.nil_sublist _

theorem stopRole_roles (tm : TaskManager) (role : TaskRole) (m : Moment) :
    (tm.stopRole role m).1.roles.Sublist (tm.roles.filter (fun r => !decide (r = role))) := by
  unfold stopRole drainGroups
  dsimp only
  split
  · exact (roles_filter tm.roleGroups (fun r => !decide (r = role))).subst (List.Sublist.refl _)
  · exact List.nil_sublist _

theorem detachRole_roles (tm : TaskManager) (role : TaskRole) :
    (tm.detachRole role).2.roles = tm.roles.filter (fun r => !decide (r = role)) := by
  have kept := roles_filter tm.roleGroups (fun r => !decide (r = role))
  simpa [roles, detachRole] using kept

end TaskManager

namespace EngineRuntime

def roles (rt : EngineRuntime) : List TaskRole := rt.taskManager.roles

theorem prune_roles (rt : EngineRuntime) (m : Moment) :
    (rt.pruneFinishedBackgroundProcessing m).1.roles.Sublist rt.roles := by
  unfold pruneFinishedBackgroundProcessing
  dsimp only
  split <;> exact TaskManager.drainGroups_roles ..

theorem andThen_ok {stage : EngineRuntime × GroupOutcome}
    {next : EngineRuntime → EngineRuntime × GroupOutcome} (ok : (andThen stage next).2.ok = true) :
    stage.2.ok = true ∧ (next stage.1).2.ok = true ∧
      (andThen stage next).1 = (next stage.1).1 := by
  unfold andThen at ok ⊢
  split at ok
  · rename_i first
    rw [if_pos first]
    exact ⟨first, ok, rfl⟩
  · rename_i first
    exact absurd ok first

theorem andThen_ok_iff (stage : EngineRuntime × GroupOutcome)
    (next : EngineRuntime → EngineRuntime × GroupOutcome) :
    (andThen stage next).2.ok = true ↔ stage.2.ok = true ∧ (next stage.1).2.ok = true := by
  unfold andThen
  split
  · rename_i ok
    simp [ok]
  · rename_i broken
    simp [broken]

theorem andThen_roles {stage : EngineRuntime × GroupOutcome}
    {next : EngineRuntime → EngineRuntime × GroupOutcome}
    (shrinks : (next stage.1).1.roles.Sublist stage.1.roles) :
    (andThen stage next).1.roles.Sublist stage.1.roles := by
  unfold andThen
  split
  · exact shrinks
  · exact List.Sublist.refl _

theorem stopRole_roles (rt : EngineRuntime) (role : TaskRole) (m : Moment) :
    (rt.stopRole role m).1.roles.Sublist (rt.roles.filter (fun r => !decide (r = role))) :=
  TaskManager.stopRole_roles ..

theorem detachProcessingRoles_roles (rt : EngineRuntime) (stopDeadline : Nat) :
    (rt.detachProcessingRoles stopDeadline).roles =
      ((rt.roles.filter (fun r => !decide (r = .parser))).filter
        (fun r => !decide (r = .sink))).filter (fun r => !decide (r = .infra)) := by
  simp only [detachProcessingRoles, detachRole, roles, TaskManager.detachRole_roles]

theorem isolatePicker_roles (rt : EngineRuntime) (prune isolate : Moment) :
    (rt.isolatePicker prune isolate).1.roles.Sublist rt.roles := by
  refine (andThen_roles ?_).trans (prune_roles rt prune)
  exact List.Sublist.refl _

theorem resumePicker_roles (rt : EngineRuntime) (prune execute : Moment) :
    (rt.resumePicker prune execute).1.roles.Sublist rt.roles := by
  refine (andThen_roles ?_).trans (prune_roles rt prune)
  exact List.Sublist.refl _

theorem waitProcessingDrained_roles (rt : EngineRuntime) (drained : Bool)
    (stopMaint prune : Moment) :
    (rt.waitProcessingDrained drained stopMaint prune).1.roles.Sublist rt.roles := by
  unfold waitProcessingDrained
  split
  · have stopped := (stopRole_roles rt .maintainer stopMaint).trans List.filter_sublist
    refine (andThen_roles ?_).trans stopped
    refine (prune_roles _ _).trans ?_
    rw [detachProcessingRoles_roles]
    exact (List.filter_sublist.trans List.filter_sublist).trans List.filter_sublist
  · exact List.Sublist.refl _

/-- A drained or forcibly stopped engine has no processing group left. -/
theorem filter_processing (all : List TaskRole) :
    (((all.filter (fun r => !decide (r = .maintainer))).filter
        (fun r => !decide (r = .parser))).filter (fun r => !decide (r = .sink))).filter
          (fun r => !decide (r = .infra)) = all.filter (fun r => !isProcessingRole r) := by
  simp only [List.filter_filter]
  refine List.filter_congr ?_
  intro role _
  cases role <;> rfl

theorem waitProcessingDrained_ok {rt : EngineRuntime} {drained : Bool} {stopMaint prune : Moment}
    (ok : (rt.waitProcessingDrained drained stopMaint prune).2.ok = true) :
    (rt.waitProcessingDrained drained stopMaint prune).1.roles.Sublist
      (rt.roles.filter (fun r => !isProcessingRole r)) := by
  unfold waitProcessingDrained at ok ⊢
  split at ok
  · rename_i quiesced
    rw [if_pos quiesced]
    obtain ⟨-, -, result⟩ := andThen_ok ok
    rw [result, ← filter_processing]
    refine (prune_roles _ _).trans ?_
    rw [detachProcessingRoles_roles]
    exact (((stopRole_roles rt .maintainer stopMaint).filter _).filter _).filter _
  · cases ok

theorem forceStopProcessing_ok {rt : EngineRuntime} {m : TaskRole → Moment} {prune : Moment}
    (ok : (rt.forceStopProcessing m prune).2.ok = true) :
    (rt.forceStopProcessing m prune).1.roles.Sublist
      (rt.roles.filter (fun r => !isProcessingRole r)) := by
  unfold forceStopProcessing at ok ⊢
  obtain ⟨-, parserOk, parserDown⟩ := andThen_ok ok
  obtain ⟨-, sinkOk, sinkDown⟩ := andThen_ok parserOk
  obtain ⟨-, infraOk, infraDown⟩ := andThen_ok sinkOk
  obtain ⟨-, -, maintDown⟩ := andThen_ok infraOk
  rw [parserDown, sinkDown, infraDown, maintDown]
  refine (prune_roles _ _).trans ?_
  refine (stopRole_roles _ .maintainer _).trans ?_
  refine ((stopRole_roles _ .infra _).filter _).trans ?_
  refine (((stopRole_roles _ .sink _).filter _).filter _).trans ?_
  refine ((((stopRole_roles rt .parser _).filter _).filter _).filter _).trans ?_
  simp only [List.filter_filter]
  have same : rt.roles.filter (fun r => !decide (r = .maintainer) && (!decide (r = .infra) &&
      (!decide (r = .sink) && !decide (r = .parser)))) =
        rt.roles.filter (fun r => !isProcessingRole r) := by
    refine List.filter_congr ?_
    intro role _
    cases role <;> rfl
  rw [same]

end EngineRuntime

theorem install_roleGroups (set : ProcessingTaskSet) (tm : TaskManager) :
    (set.install tm).roleGroups = tm.roleGroups ++ set.groups := by
  have appended : ∀ (groups : List RoleTaskGroup) (tm : TaskManager),
      (groups.foldl (fun tm rg => tm.appendGroupWithRole rg.role rg.group) tm).roleGroups =
        tm.roleGroups ++ groups := by
    intro groups
    induction groups with
    | nil => simp
    | cons rg rest ih =>
      intro tm
      rw [List.foldl_cons, ih]
      simp [TaskManager.appendGroupWithRole]
  exact appended set.groups tm

theorem groups_roles (set : ProcessingTaskSet) :
    (set.groups.map RoleTaskGroup.role).Sublist [.infra, .sink, .maintainer, .parser] := by
  cases sink : set.sinkGroup <;> simp [ProcessingTaskSet.groups, sink]

theorem finishReload_roles {env : ReloadEnv} {processing : ProcessingTaskSet} {forced : Bool}
    {rt rt' : EngineRuntime} {outcome : Except ReloadFailure Bool}
    (result : finishReload env processing forced rt = (rt', outcome)) :
    rt'.roles.Sublist (rt.roles ++ [.infra, .sink, .maintainer, .parser]) := by
  cases result
  refine (EngineRuntime.resumePicker_roles _ _ _).trans ?_
  simp only [EngineRuntime.roles, EngineRuntime.installProcessingTasks, TaskManager.roles,
    install_roleGroups, List.map_append]
  exact (List.Sublist.refl _).append (groups_roles processing)

/-- A successful reload keeps only roles outside the processing chain and appends the chain. -/
theorem reloadStep_roles {rt rt' : EngineRuntime} {env : ReloadEnv}
    (ok : reloadStep rt env = .ok rt') :
    rt'.roles.Sublist (rt.roles.filter (fun r => !isProcessingRole r) ++
      [.infra, .sink, .maintainer, .parser]) := by
  unfold reloadStep reloadProcessingP0 at ok
  cases prepared : env.prepared with
  | none =>
    rw [prepared] at ok
    cases ok
  | some processing =>
    rw [prepared] at ok
    dsimp only at ok
    have isolated := EngineRuntime.isolatePicker_roles rt env.pruneAtIsolate env.isolate
    split at ok
    · rename_i rt₁ forced result
      cases ok
      split at result
      · split at result
        · -- graceful: everything drained, the old groups are detached
          rename_i drained
          have gone := EngineRuntime.waitProcessingDrained_ok drained
          refine (finishReload_roles result).trans (List.Sublist.append ?_ (List.Sublist.refl _))
          exact gone.trans (isolated.filter _)
        · split at result
          · -- forced: the drain failed somewhere, the old groups are stopped
            rename_i stopped
            have gone := EngineRuntime.forceStopProcessing_ok stopped
            have kept := EngineRuntime.waitProcessingDrained_roles
              (rt.isolatePicker env.pruneAtIsolate env.isolate).1.disconnectParseRouter
              env.drained env.stopMaint env.pruneAtDrain
            refine (finishReload_roles result).trans (List.Sublist.append ?_ (List.Sublist.refl _))
            exact gone.trans ((kept.trans isolated).filter _)
          · cases result
      · cases result
    · cases ok

theorem start_roles (parts : ServiceParts) : (startWarpService parts).roles.Sublist startOrder := by
  have processing := groups_roles parts.processing
  have picker : [TaskRole.picker].Sublist [.picker] := List.Sublist.refl _
  cases acceptor : parts.acceptorGroup with
  | none =>
    simp only [startWarpService, EngineRuntime.roles, TaskManager.roles, acceptor,
      TaskManager.appendGroupWithRole, install_roleGroups, List.map_append]
    exact ((List.Sublist.cons _ (List.Sublist.refl [.monitor])).append processing).append picker
  | some group =>
    simp only [startWarpService, EngineRuntime.roles, TaskManager.roles, acceptor,
      TaskManager.appendGroupWithRole, install_roleGroups, List.map_append]
    exact ((List.Sublist.refl [.acceptor, .monitor]).append processing).append picker

/-- After at least one successful reload the pickers are registered before the processing chain. -/
theorem reloads_roles (parts : ServiceParts) (first : ReloadEnv) (rest : List ReloadEnv)
    (rt : EngineRuntime)
    (reached : (first :: rest).foldlM reloadStep (startWarpService parts) = .ok rt) :
    rt.roles.Sublist reloadOrder := by
  rw [List.foldlM_cons] at reached
  cases reloaded : reloadStep (startWarpService parts) first with
  | error failure => simp [reloaded, bind, Except.bind] at reached
  | ok rt₁ =>
    rw [reloaded] at reached
    have once : rt₁.roles.Sublist reloadOrder := by
      refine (reloadStep_roles reloaded).trans ?_
      exact ((start_roles parts).filter (fun r => !isProcessingRole r)).append
        (List.Sublist.refl [TaskRole.infra, .sink, .maintainer, .parser])
    refine Runs.foldlM_ok_invariant (fun rt => rt.roles.Sublist reloadOrder) rest ?_ rt₁ rt once
      reached
    intro s env _ t registered ok
    refine (reloadStep_roles ok).trans ?_
    exact (registered.filter (fun r => !isProcessingRole r)).append
      (List.Sublist.refl [TaskRole.infra, .sink, .maintainer, .parser])

/-- Roles that are stopped too early when they are registered behind the pickers. -/
def isFedByPicker : TaskRole → Bool
  | .parser => true
  | .sink => true
  | .infra => true
  | _ => false

theorem ordered_start {roles : List TaskRole} (registered : roles.Sublist startOrder) :
    roles.reverse.Pairwise (fun a b => rankLe a.shutdownRank b.shutdownRank) := by
  have whole : startOrder.reverse.Pairwise
      (fun a b => rankLe a.shutdownRank b.shutdownRank) := by decide
  exact whole.sublist registered.reverse

theorem ordered_without {keep : TaskRole → Bool} {roles : List TaskRole}
    (whole : (reloadOrder.filter keep).reverse.Pairwise
      (fun a b => rankLe a.shutdownRank b.shutdownRank))
    (registered : roles.Sublist reloadOrder) (kept : ∀ role ∈ roles, keep role = true) :
    roles.reverse.Pairwise (fun a b => rankLe a.shutdownRank b.shutdownRank) := by
  have restricted := registered.filter keep
  rw [List.filter_eq_self.mpr kept] at restricted
  exact whole.sublist restricted.reverse

/-- In the order of a reloaded engine a group fed by the pickers is always stopped before them. -/
theorem disordered_reload {roles : List TaskRole} {role : TaskRole}
    (registered : roles.Sublist reloadOrder) (pickers : TaskRole.picker ∈ roles)
    (member : role ∈ roles) (fed : isFedByPicker role = true)
    (ordered : roles.reverse.Pairwise (fun a b => rankLe a.shutdownRank b.shutdownRank)) :
    False := by
  have behind : reloadOrder.Pairwise (fun a b => isFedByPicker a = true → b ≠ .picker) := by decide
  have late : ∀ a b : TaskRole, rankLe b.shutdownRank a.shutdownRank →
      isFedByPicker b = true → a ≠ .picker := by
    intro a b
    cases a <;> cases b <;> decide
  have itself : ∀ a ∈ roles, isFedByPicker a = true → a ≠ .picker := by
    intro a _
    cases a <;> decide
  have backwards := (List.pairwise_reverse.mp ordered).imp (fun {a b} => late a b)
  have never := (behind.sublist registered).forall_of_forall_of_flip itself backwards
  exact never member pickers fed rfl

/-- The shutdown is upstream-first, whatever the groups do, exactly before the first reload or
    when the pickers or all the groups they feed are no longer registered. -/
theorem shutdown_upstream_first_iff (parts : ServiceParts) (reloads : List ReloadEnv)
    (rt : EngineRuntime)
    (reached : reloads.foldlM reloadStep (startWarpService parts) = .ok rt) :
    (∀ acceptorForce m,
        UpstreamFirst (rt.taskManager.stopRoleGroups acceptorForce m).2.log) ↔
      (reloads = [] ∨ TaskRole.picker ∉ rt.roles ∨
        ∀ role ∈ rt.roles, role ≠ .parser ∧ role ≠ .sink ∧ role ≠ .infra) := by
  rw [stopRoleGroups_upstreamFirst]
  cases reloads with
  | nil =>
    cases reached
    have ordered := ordered_start (start_roles parts)
    exact ⟨fun _ => Or.inl rfl, fun _ => ordered⟩
  | cons first rest =>
    have registered := reloads_roles parts first rest rt reached
    constructor
    · intro ordered
      by_cases pickers : TaskRole.picker ∈ rt.roles
      · right; right
        intro role member
        have unfed : ¬ isFedByPicker role = true := fun fed =>
          disordered_reload registered pickers member fed ordered
        refine ⟨?_, ?_, ?_⟩ <;> intro same <;> exact unfed (by rw [same]; rfl)
      · exact Or.inr (Or.inl pickers)
    · rintro (impossible | gone | unfed)
      · cases impossible
      · have kept : ∀ role ∈ rt.roles, (!decide (role = .picker)) = true := by
          intro role member
          have other : role ≠ .picker := fun same => gone (same ▸ member)
          simp [other]
        exact ordered_without (by decide) registered kept
      · have kept : ∀ role ∈ rt.roles, (!isFedByPicker role) = true := by
          intro role member
          obtain ⟨parser, sink, infra⟩ := unfed role member
          cases role <;> first | rfl | contradiction
        exact ordered_without (by decide) registered kept

section OneReload

def oneProcessing (firstId : Nat) : ProcessingTaskSet :=
  { parserSenders := [firstId], parserGroup := ⟨firstId, "parse"⟩
    infraGroup := ⟨firstId + 1, "infra"⟩, sinkGroup := some ⟨firstId + 2, "sink"⟩
    maintGroup := ⟨firstId + 3, "amt"⟩ }

def daemonParts : ServiceParts :=
  { acceptorGroup := some ⟨0, "acceptor"⟩, moniGroup := ⟨1, "moni"⟩
    processing := oneProcessing 2, pickerGroup := ⟨6, "picker"⟩, reloadTimeout := 10000 }

/-- A graceful reload in which nothing fails and nothing has finished. -/
def gracefulReload : ReloadEnv :=
  { prepared := some (oneProcessing 7), pruneAtIsolate := smoothMoment, isolate := smoothMoment
    drained := true, stopMaint := smoothMoment, pruneAtDrain := smoothMoment
    forceStop := fun _ => smoothMoment, pruneAtForce := smoothMoment
    pruneAtResume := smoothMoment, execute := smoothMoment }

theorem one_graceful_reload_stops_pickers_late :
    ∃ rt, [gracefulReload].foldlM reloadStep (startWarpService daemonParts) = .ok rt ∧
      ¬ UpstreamFirst (rt.taskManager.stopRoleGroups false smoothMoment).2.log :=
  ⟨_, rfl, by decide⟩

/-- The pickers have finished on their own when the reload prunes: nothing is left to disorder. -/
theorem finished_pickers_keep_the_order :
    ∃ rt, [{ gracefulReload with
        pruneAtIsolate := { smoothMoment with finished := fun id => id = 6 } }].foldlM reloadStep
          (startWarpService daemonParts) = .ok rt ∧
      ∀ acceptorForce m, UpstreamFirst (rt.taskManager.stopRoleGroups acceptorForce m).2.log := by
  refine ⟨_, rfl, ?_⟩
  refine (shutdown_upstream_first_iff daemonParts [{ gracefulReload with
    pruneAtIsolate := { smoothMoment with finished := fun id => id = 6 } }] _ rfl).mpr ?_
  exact Or.inr (Or.inl (by decide))

end OneReload
end WarpMotor
