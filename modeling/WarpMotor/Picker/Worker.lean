import WarpMotor.Picker.Dispatch

/-!
`SourceWorker::run_dispatch_loop` as a step function. One step is one turn of
the inner `while` loop, or the end of a burst when its round limit is spent;
a run is a fold over the environments of the turns. Sleeping has no state and
is left out. `fetched` and `handed` are histories for the proofs: the batches
the source returned and the batches the parser channels took.
-/
namespace WarpMotor

structure WorkerConfig where
  lim : Limits
  speedLimit : Option Nat
  maxLine : Option Nat
  maxCount : Option Nat
  deriving DecidableEq, Repr

def WorkerConfig.throttleUnitSize (cfg : WorkerConfig) (roundBatch eventCntOfBatch : Nat) : Nat :=
  let defaultUnit :=
    max (saturatingMul (saturatingMul cfg.lim.pickerBurstMax roundBatch) eventCntOfBatch) 1
  match cfg.speedLimit with
  | some limit => if 0 < limit then min limit defaultUnit else defaultUnit
  | none => defaultUnit

/-- `statDue`: the statistics interval has passed; `statSent`: the monitor took the report. -/
structure LoopEnv extends RoundEnv where
  cmdNow : Option ActorCtrlCmd
  missNow : Nat
  now : Nat
  statDue : Bool
  statSent : Bool

structure WorkerState where
  picker : JMActPicker
  taskCtrl : TaskController
  totalRound : RoundStat
  fetched : List SourceBatch
  handed : List SourceBatch

/-- Why the loop ended. `stopped` keeps the last round's report and its answer from the source. -/
inductive WorkerExit where
  | limitReached
  | sourceFailed (reason : SourceReason)
  | monitorFailed
  | stopped (round : RoundStat) (read : Option (Except SourceReason SrcStatus))

structure WorkerEnd where
  why : WorkerExit
  state : WorkerState

namespace WorkerState

def start (cfg : WorkerConfig) : WorkerState :=
  let unitSize := cfg.throttleUnitSize pickerDefaultRoundBatch pickerEventCntOfBatch
  { picker := JMActPicker.new cfg.lim
    taskCtrl := (TaskController.fromSpeedLimit unitSize).recTaskUnitReset
    totalRound := RoundStat.new, fetched := [], handed := [] }

/-- The tail of the outer loop and the head of its next turn. -/
def endBurst (w : WorkerState) (env : LoopEnv) : Except WorkerEnd WorkerState :=
  if env.statDue && !env.statSent then .error ⟨.monitorFailed, w⟩
  else .ok { w with taskCtrl := w.taskCtrl.recTaskUnitReset, totalRound := RoundStat.new }

/-- The state after a round, before its report is merged. -/
def afterRound (w : WorkerState) (out : RoundOutcome) : WorkerState :=
  { w with
    picker := out.picker, taskCtrl := out.taskCtrl
    fetched := w.fetched ++ out.fetched, handed := w.handed ++ out.handed }

end WorkerState

def pollCmdNow (env : LoopEnv) (ctrl : TaskController) : TaskController :=
  match env.cmdNow with
  | some cmd => ctrl.updateCmd cmd
  | none => ctrl

def reachedLimits (cfg : WorkerConfig) (ctrl : TaskController) : Bool :=
  (match cfg.maxLine with
    | some m => decide (m ≤ ctrl.totalCount)
    | none => false) ||
  (match cfg.maxCount with
    | some m => decide (m ≤ ctrl.totalCount)
    | none => false)

def dispatchStep (cfg : WorkerConfig) (w : WorkerState) (env : LoopEnv) :
    Except WorkerEnd WorkerState :=
  match w.totalRound.terminalByRound pickerDefaultRoundBatch with
  | (true, total) => { w with totalRound := total }.endBurst env
  | (false, total) =>
    let ctrl := pollCmdNow env w.taskCtrl
    if ctrl.isStop env.missNow env.now || reachedLimits cfg ctrl then
      .error ⟨.limitReached, { w with taskCtrl := ctrl, totalRound := total }⟩
    else
      let out := roundPick cfg.lim env.toRoundEnv w.picker ctrl
      let w := { w with totalRound := total }.afterRound out
      match out.result with
      | .error reason => .error ⟨.sourceFailed reason, w⟩
      | .ok round =>
        let w := { w with totalRound := total.merge round }
        if w.totalRound.isStop then .error ⟨.stopped round out.read, w⟩
        else if w.taskCtrl.isUnitEnd then w.endBurst env
        else .ok w

/-- The loop was left because the source reported its end. -/
def WorkerEnd.ByEof (e : WorkerEnd) : Prop :=
  ∃ round, e.why = .stopped round (some (.error .eof)) ∧ round.srcStatus = .terminal

/-- Everything the source returned was handed over, in order, or is still waiting. -/
def WorkerState.Balanced (w : WorkerState) : Prop :=
  w.handed.flatten ++ w.picker.pendingEvents = w.fetched.flatten

/-- What one turn of the loop can do to picker and histories: nothing, or one round. -/
inductive TurnEffect (cfg : WorkerConfig) (w : WorkerState) (env : LoopEnv) (w' : WorkerState) : Prop
  | idle (picker : w'.picker = w.picker) (fetched : w'.fetched = w.fetched)
      (handed : w'.handed = w.handed)
  | round (picker : w'.picker =
        (roundPick cfg.lim env.toRoundEnv w.picker (pollCmdNow env w.taskCtrl)).picker)
      (fetched : w'.fetched = w.fetched ++
        (roundPick cfg.lim env.toRoundEnv w.picker (pollCmdNow env w.taskCtrl)).fetched)
      (handed : w'.handed = w.handed ++
        (roundPick cfg.lim env.toRoundEnv w.picker (pollCmdNow env w.taskCtrl)).handed)

theorem turn_balanced {cfg : WorkerConfig} {w w' : WorkerState} {env : LoopEnv}
    (effect : TurnEffect cfg w env w') (balanced : w.Balanced) : w'.Balanced := by
  unfold WorkerState.Balanced at balanced ⊢
  cases effect with
  | idle picker fetched handed =>
    rw [picker, fetched, handed]
    exact balanced
  | round picker fetched handed =>
    have moved := roundPick_events cfg.lim env.toRoundEnv w.picker (pollCmdNow env w.taskCtrl)
    rw [picker, fetched, handed, List.flatten_append, List.append_assoc, moved,
      ← List.append_assoc, balanced, List.flatten_append]

theorem endBurst_ok {w w' : WorkerState} {env : LoopEnv} (ok : w.endBurst env = .ok w') :
    w'.picker = w.picker ∧ w'.fetched = w.fetched ∧ w'.handed = w.handed := by
  unfold WorkerState.endBurst at ok
  split at ok
  · cases ok
  · cases ok
    exact ⟨rfl, rfl, rfl⟩

theorem dispatchStep_ok {cfg : WorkerConfig} {w w' : WorkerState} {env : LoopEnv}
    (ok : dispatchStep cfg w env = .ok w') : TurnEffect cfg w env w' := by
  unfold dispatchStep at ok
  split at ok
  · obtain ⟨picker, fetched, handed⟩ := endBurst_ok ok
    exact .idle picker fetched handed
  · dsimp only at ok
    split at ok
    · cases ok
    · split at ok
      · cases ok
      · split at ok
        · cases ok
        · split at ok
          · obtain ⟨picker, fetched, handed⟩ := endBurst_ok ok
            exact .round picker fetched handed
          · cases ok
            exact .round rfl rfl rfl

/-- An exit by `is_stop` comes right after a round, whose report and source answer it keeps. -/
theorem dispatchStep_stopped {cfg : WorkerConfig} {w : WorkerState} {env : LoopEnv}
    {e : WorkerEnd} {round : RoundStat} {read : Option (Except SourceReason SrcStatus)}
    (exited : dispatchStep cfg w env = .error e) (why : e.why = .stopped round read) :
    TurnEffect cfg w env e.state ∧
      e.state.picker =
        (roundPick cfg.lim env.toRoundEnv w.picker (pollCmdNow env w.taskCtrl)).picker ∧
      (roundPick cfg.lim env.toRoundEnv w.picker (pollCmdNow env w.taskCtrl)).result = .ok round ∧
      (roundPick cfg.lim env.toRoundEnv w.picker (pollCmdNow env w.taskCtrl)).read = read := by
  unfold dispatchStep at exited
  split at exited
  · unfold WorkerState.endBurst at exited
    split at exited <;> cases exited
    cases why
  · dsimp only at exited
    split at exited
    · cases exited
      cases why
    · split at exited
      · cases exited
        cases why
      · rename_i result
        split at exited
        · cases exited
          cases why
          exact ⟨.round rfl rfl rfl, rfl, result, rfl⟩
        · split at exited
          · unfold WorkerState.endBurst at exited
            split at exited <;> cases exited
            cases why
          · cases exited

theorem worker_run_balanced (cfg : WorkerConfig) (envs : List LoopEnv) (w : WorkerState)
    (reached : envs.foldlM (dispatchStep cfg) (WorkerState.start cfg) = .ok w) : w.Balanced := by
  refine Runs.foldlM_ok_invariant WorkerState.Balanced envs ?_ (WorkerState.start cfg) w ?_ reached
  · intro s env _ t balanced ok
    exact turn_balanced (dispatchStep_ok ok) balanced
  · simp [WorkerState.Balanced, WorkerState.start, JMActPicker.new, JMActPicker.pendingEvents]

/-- A round that ends terminal leaves the queue as the pull left it, and either the queue is
    empty or the back-off skipped the post. -/
theorem roundPick_terminal {lim : Limits} {env : RoundEnv} {picker : JMActPicker}
    {ctrl : TaskController} {round : RoundStat}
    (result : (roundPick lim env picker ctrl).result = .ok round)
    (ended : round.srcStatus = .terminal) :
    (roundPick lim env picker ctrl).picker.pending =
        picker.pending ++ (roundPull lim env picker ctrl).fetched ∧
      (picker.pending ++ (roundPull lim env picker ctrl).fetched = [] ∨
        0 < picker.postPolicy.skipRoundsLeft) := by
  rw [← roundPull_pending, ← roundPull_postPolicy lim env picker ctrl]
  unfold roundPick at result ⊢
  dsimp only at result ⊢
  split at result
  · cases result
  · rename_i status ok
    cases result
    exact roundPost_terminal _ _ _ _ _ ended

theorem roundPick_read (lim : Limits) (env : RoundEnv) (picker : JMActPicker)
    (ctrl : TaskController) :
    (roundPick lim env picker ctrl).read = (roundPull lim env picker ctrl).read := by
  unfold roundPick
  dsimp only
  split <;> rfl

/-- At the end of the source nothing is left behind exactly when the post back-off is over or
    there is nothing to post: an active back-off skips the last post and the loop still exits. -/
theorem eof_delivers_everything_iff (cfg : WorkerConfig) (envs : List LoopEnv) (last : LoopEnv)
    (w : WorkerState) (final : WorkerEnd)
    (reached : envs.foldlM (dispatchStep cfg) (WorkerState.start cfg) = .ok w)
    (exited : dispatchStep cfg w last = .error final) (byEof : final.ByEof) :
    (final.state.picker.pending = [] ∧
        final.state.handed.flatten = final.state.fetched.flatten) ↔
      (w.picker.postPolicy.skipRoundsLeft = 0 ∨
        (w.picker.pending = [] ∧ returnedBeforeError last.blocking = [])) := by
  obtain ⟨round, why, terminal⟩ := byEof
  obtain ⟨effect, picker, result, read⟩ := dispatchStep_stopped exited why
  have balanced := turn_balanced effect (worker_run_balanced cfg envs w reached)
  obtain ⟨queue, drained⟩ := roundPick_terminal result terminal
  rw [roundPick_read] at read
  rw [roundPull_error _ _ _ _ _ read] at queue drained
  rw [← picker] at queue
  constructor
  · rintro ⟨empty, -⟩
    rw [queue] at empty
    exact Or.inr (List.append_eq_nil_iff.mp empty)
  · intro condition
    have empty : final.state.picker.pending = [] := by
      rw [queue]
      rcases condition with idle | nothing
      · exact drained.resolve_right (by omega)
      · exact List.append_eq_nil_iff.mpr nothing
    refine ⟨empty, ?_⟩
    have accounted := balanced
    rw [WorkerState.Balanced, JMActPicker.pendingEvents, empty] at accounted
    simpa using accounted

section Backpressure

def unlimitedConfig : WorkerConfig :=
  { lim := { pickerBurstMax := 4, pickerCoalesceTrigger := 8, pickerCoalesceMaxEvents := 64
             pickerPendingMaxBytes := 4096 }
    speedLimit := none, maxLine := none, maxCount := none }

def oneEvent : SourceEvent :=
  { eventId := 1, srcKey := "file", payload := .bytes [97, 98], tags := [], upsIp := none }

/-- A turn without commands; `blocking` is what the source does, `answer` what the only parser
    channel does. -/
def quietTurn (blocking : List BlockingTurn) (answer : TrySend) : LoopEnv :=
  { mode := .normal, fixedRate := false, canTryReceive := false, tryReceive := []
    blocking, view := fun _ => { senders := [answer], reloading := false, nextIdx := 0 }
    cmdNow := none, missNow := 0, now := 0, statDue := false, statSent := true }

/-- The last batch meets a full channel in the turn of its end of file; in the next turn the
    channel has room again, yet the back-off skips the post and the loop exits. -/
theorem eof_in_backoff_loses_the_batch :
    ∃ w final,
      [quietTurn [.received [oneEvent], .failed .eof] .full].foldlM (dispatchStep unlimitedConfig)
          (WorkerState.start unlimitedConfig) = .ok w ∧
        dispatchStep unlimitedConfig w (quietTurn [.failed .eof] .ok) = .error final ∧
        final.ByEof ∧ final.state.fetched = [[oneEvent]] ∧ final.state.handed = [] ∧
        final.state.picker.pending = [[oneEvent]] :=
  ⟨_, _, rfl, rfl, ⟨_, rfl, rfl⟩, rfl, rfl, rfl⟩

/-- With room in the channel the same source is drained before the loop exits. -/
theorem eof_without_backoff_drains :
    ∃ w final,
      [quietTurn [.received [oneEvent], .failed .eof] .ok].foldlM (dispatchStep unlimitedConfig)
          (WorkerState.start unlimitedConfig) = .ok w ∧
        dispatchStep unlimitedConfig w (quietTurn [.failed .eof] .ok) = .error final ∧
        final.ByEof ∧ final.state.picker.pending = [] ∧
        final.state.handed.flatten = final.state.fetched.flatten := by
  refine ⟨_, _, rfl, rfl, ⟨_, rfl, rfl⟩, ?_⟩
  refine (eof_delivers_everything_iff unlimitedConfig
    [quietTurn [.received [oneEvent], .failed .eof] .ok] (quietTurn [.failed .eof] .ok)
    _ _ rfl rfl ⟨_, rfl, rfl⟩).mpr ?_
  exact Or.inl rfl

end Backpressure
end WarpMotor
