import WarpMotor.Picker.Bounds

/-!
Rounds of a dispatch loop after the source has reported its end. `pulls` is
the trace of the fetches of a run. The end of the source is a status of the
round; a post in the same round overwrites it, and then the loop goes on and
asks the source again.
-/
namespace WarpMotor

/-- The fetch the source answered with its end. -/
def PullOutcome.SourceEnded (pull : PullOutcome) : Prop :=
  (∃ reason, pull.read = some (.error reason)) ∧ pull.status = .ok .terminal

/-- The pull of a turn; `none` when the turn makes no round. -/
def turnPull (cfg : WorkerConfig) (w : WorkerState) (env : LoopEnv) : Option PullOutcome :=
  match w.totalRound.terminalByRound pickerDefaultRoundBatch with
  | (true, _) => none
  | (false, _) =>
    let ctrl := pollCmdNow env w.taskCtrl
    if ctrl.isStop env.missNow env.now || reachedLimits cfg ctrl then none
    else some (roundPull cfg.lim env.toRoundEnv w.picker ctrl)

/-- The pulls of a run of the loop, its last turn included. -/
def pulls (cfg : WorkerConfig) : WorkerState → List LoopEnv → List PullOutcome
  | _, [] => []
  | w, env :: envs =>
    (turnPull cfg w env).toList ++
      match dispatchStep cfg w env with
      | .ok w => pulls cfg w envs
      | .error _ => []

/-- Every turn of the run meets `ok`, judged in the state before it. -/
def AllTurns (cfg : WorkerConfig) (ok : WorkerState → LoopEnv → Prop) :
    WorkerState → List LoopEnv → Prop
  | _, [] => True
  | w, env :: envs => ok w env ∧ ∀ w', dispatchStep cfg w env = .ok w' → AllTurns cfg ok w' envs

/-- All parser channels are closed, and the router is not being reloaded. -/
def RouterView.Closed (view : RouterView) : Prop :=
  (∀ answer ∈ view.senders, answer = .closed) ∧ (view.senders = [] → view.reloading = false)

/-- Nothing waits to be posted, or the back-off skips the post, or there are events to post and
    every parser channel is closed. -/
def EndIsKept (w : WorkerState) (env : LoopEnv) : Prop :=
  (w.picker.pending = [] ∧ returnedBeforeError env.blocking = []) ∨
    0 < w.picker.postPolicy.skipRoundsLeft ∨
    ((w.picker.pending ++ returnedBeforeError env.blocking).flatten ≠ [] ∧
      ∀ n, (env.view n).Closed)

/-- When the source ends in this turn, its end is not overwritten by a post. -/
def QuietEnd (cfg : WorkerConfig) (w : WorkerState) (env : LoopEnv) : Prop :=
  ∀ pull, turnPull cfg w env = some pull → pull.SourceEnded → EndIsKept w env

theorem trySendLoop_closed (senders : List TrySend) (start : Nat) (batch : SourceBatch)
    (offsets : List Nat) (closed : ∀ answer ∈ senders, answer = .closed) :
    trySendLoop senders start batch offsets false = .closed batch := by
  induction offsets with
  | nil => rfl
  | cons offset rest ih =>
    have answer : senders.getD ((start + offset) % senders.length) .closed = .closed := by
      rw [List.getD_eq_getElem?_getD]
      cases found : senders[(start + offset) % senders.length]? with
      | none => rfl
      | some answer => exact closed answer (List.mem_of_getElem? found)
    rw [trySendLoop, answer]
    exact ih

theorem RouterView.Closed.refuses {view : RouterView} (closed : view.Closed) (batch : SourceBatch) :
    trySendRoundRobin view batch = .closed batch := by
  unfold trySendRoundRobin
  split
  · rename_i empty
    rw [closed.2 (List.isEmpty_iff.mp empty)]
    rfl
  · exact trySendLoop_closed _ _ _ _ closed.1

/-- A post with an event to hand over to closed channels ends the loop. -/
theorem handlePendingBatch_closed (lim : Limits) (view : Nat → RouterView) {batchSize : Nat}
    (picker : JMActPicker) (ctrl : TaskController) (posts : 0 < batchSize)
    (waiting : picker.pendingEvents ≠ []) (closed : ∀ n, (view n).Closed) :
    (handlePendingBatch lim view batchSize picker ctrl).stat.distStatus = .terminal := by
  obtain ⟨left, rfl⟩ : ∃ left, batchSize = left + 1 := ⟨batchSize - 1, by omega⟩
  unfold handlePendingBatch handlePendingLoop
  cases popped : picker.popNextPayloadForPost lim with
  | mk taken picker' =>
    have events := JMActPicker.popNextPayloadForPost_events popped
    cases taken with
    | none =>
      rw [Option.getD_none, JMActPicker.pendingEvents, popNextPayloadForPost_none popped] at events
      exact absurd events.symm waiting
    | some payload =>
      dsimp only
      rw [(closed 0).refuses payload]
      rfl

/-- The end of the source survives the post of its round, or the post ends the loop itself. -/
theorem roundPost_keeps_end (lim : Limits) (env : RoundEnv) (picker : JMActPicker)
    (ctrl : TaskController) (rs : RoundStat) (ended : rs.srcStatus = .terminal)
    (kept : picker.pending = [] ∨ 0 < picker.postPolicy.skipRoundsLeft ∨
      (picker.pendingEvents ≠ [] ∧ ∀ n, (env.view n).Closed)) :
    (roundPost lim env picker ctrl rs).stat.isStop = true := by
  have stops : rs.isStop = true := by simp [RoundStat.isStop, ended]
  unfold roundPost
  split
  · exact stops
  · rename_i waiting
    split
    · exact stops
    · rename_i policy idle
      rcases kept with empty | cooling | ⟨events, closed⟩
      · rw [JMActPicker.pendingCount, empty] at waiting
        exact absurd rfl waiting
      · simp [PostPolicy.inCooldown, cooling] at idle
      · have full : policy.planPost picker.pendingCount true =
            { allow := true, batchSize := picker.pendingCount } := by
          have positive : 0 < picker.pendingCount := Nat.pos_of_ne_zero waiting
          simp [PostPolicy.planPost, waiting, positive]
        dsimp only
        rw [ended, decide_eq_true rfl, full]
        have terminal := handlePendingBatch_closed lim env.view
          { picker with postPolicy := policy } ctrl (Nat.pos_of_ne_zero waiting) events closed
        simp only [postByPlan, if_true, RoundStat.isStop, RoundStat.merge, terminal]
        simp

/-- A turn whose kept end leaves the loop. -/
theorem kept_end_exits {cfg : WorkerConfig} {w : WorkerState} {env : LoopEnv} {pull : PullOutcome}
    (pulled : turnPull cfg w env = some pull) (ended : pull.SourceEnded) (kept : EndIsKept w env) :
    ∃ final, dispatchStep cfg w env = .error final := by
  unfold turnPull at pulled
  split at pulled
  · cases pulled
  · rename_i total burst
    dsimp only at pulled
    split at pulled
    · cases pulled
    · rename_i running
      cases pulled
      obtain ⟨⟨reason, read⟩, status⟩ := ended
      let ctrl := pollCmdNow env w.taskCtrl
      have queue := roundPull_pending cfg.lim env.toRoundEnv w.picker ctrl
      rw [roundPull_error cfg.lim env.toRoundEnv w.picker ctrl reason read] at queue
      have policy := roundPull_postPolicy cfg.lim env.toRoundEnv w.picker ctrl
      have stops := roundPost_keeps_end cfg.lim env.toRoundEnv
        (roundPull cfg.lim env.toRoundEnv w.picker ctrl).picker
        (roundPull cfg.lim env.toRoundEnv w.picker ctrl).taskCtrl
        (RoundStat.new.upSrcStatus .terminal) rfl (by
          rw [policy, JMActPicker.pendingEvents, queue]
          rcases kept with ⟨empty, nothing⟩ | cooling | closed
          · left
            rw [empty, nothing]
            rfl
          · exact Or.inr (Or.inl cooling)
          · exact Or.inr (Or.inr closed))
      unfold dispatchStep
      rw [burst]
      dsimp only
      rw [if_neg running]
      have result : (roundPick cfg.lim env.toRoundEnv w.picker ctrl).result =
          .ok (roundPost cfg.lim env.toRoundEnv
            (roundPull cfg.lim env.toRoundEnv w.picker ctrl).picker
            (roundPull cfg.lim env.toRoundEnv w.picker ctrl).taskCtrl
            (RoundStat.new.upSrcStatus .terminal)).stat := by
        simp only [roundPick, ctrl, status]
      rw [show pollCmdNow env w.taskCtrl = ctrl from rfl, result]
      dsimp only
      have merged : ∀ round : RoundStat, round.isStop = true → (total.merge round).isStop = true := by
        intro round stop
        exact stop
      rw [if_pos (merged _ stops)]
      exact ⟨_, rfl⟩

/-- In a run whose turns never overwrite the end of the source, the source is not asked again
    after it has reported its end. -/
theorem terminated_source_is_not_polled (cfg : WorkerConfig) (envs : List LoopEnv)
    (w : WorkerState) (quiet : AllTurns cfg (QuietEnd cfg) w envs) :
    (pulls cfg w envs).Pairwise (fun earlier later =>
      earlier.SourceEnded → later.read = none) := by
  induction envs generalizing w with
  | nil => exact List.Pairwise.nil
  | cons env envs ih =>
    unfold pulls
    cases step : dispatchStep cfg w env with
    | error final =>
      cases turnPull cfg w env with
      | none => exact List.Pairwise.nil
      | some pull => exact List.pairwise_singleton _ _
    | ok w' =>
      have later := ih w' (quiet.2 w' step)
      cases pulled : turnPull cfg w env with
      | none => exact later
      | some pull =>
        apply List.Pairwise.cons
        · intro other _ ended
          obtain ⟨final, exits⟩ := kept_end_exits pulled ended (quiet.1 pull pulled ended)
          rw [step] at exits
          cases exits
        · exact later

/-- The batch is posted in one turn, the source ends in the next. -/
theorem source_ends_after_post :
    let envs := [quietTurn [.received [oneEvent], .deadline] .ok, quietTurn [.failed .eof] .ok]
    (pulls unlimitedConfig (WorkerState.start unlimitedConfig) envs).map PullOutcome.read =
        [some (.ok .miss), some (.error .eof)] ∧
      (pulls unlimitedConfig (WorkerState.start unlimitedConfig) envs).Pairwise
        (fun earlier later => earlier.SourceEnded → later.read = none) := by
  intro envs
  refine ⟨rfl, terminated_source_is_not_polled unlimitedConfig envs _ ?_⟩
  refine ⟨?_, ?_⟩
  · intro pull pulled ended
    cases pulled
    obtain ⟨⟨reason, read⟩, -⟩ := ended
    cases read
  · intro w' step
    cases step
    refine ⟨?_, fun _ _ => trivial⟩
    intro pull pulled ended
    exact Or.inl ⟨rfl, rfl⟩

/-- The source returns its last batch and ends in one turn; the post overwrites the end and the
    next turn asks the source again. -/
theorem ended_source_is_polled_again :
    let envs := [quietTurn [.received [oneEvent], .failed .eof] .ok, quietTurn [.failed .eof] .ok]
    (pulls unlimitedConfig (WorkerState.start unlimitedConfig) envs).map
      (fun pull => (pull.read, pull.status)) =
        [(some (.error .eof), .ok .terminal), (some (.error .eof), .ok .terminal)] :=
  rfl

end WarpMotor
