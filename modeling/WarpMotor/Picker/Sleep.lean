import WarpMotor.Picker.Worker

/-!
One burst of `run_dispatch_loop` and the sleep after it. A burst is the inner
`while` loop up to its round limit or the end of a rate unit; each round
overwrites the statuses of the burst's report, so `calc_sleep_duration` sees
those of the last round only. `rounds` is a history of the reports.
-/
namespace WarpMotor

/-- `ACTOR_IDLE_TICK_MS`, in nanoseconds. -/
def actorIdleTick : Nat := 50 * 10 ^ 6

/-- `unitLeft` is `unit_speed_limit_left()` of the task controller, in nanoseconds. -/
def calcSleepDuration (unitLeft : Nat) (picker : JMActPicker) (round : RoundStat)
    (ctrl : TaskController) : Nat :=
  let throttle := if ctrl.isUnitEnd then unitLeft else 0
  if throttle ≠ 0 then throttle
  else if round.needWait picker.pendingCount then actorIdleTick
  else 0

namespace WorkerState

/-- The head of the outer loop. -/
def beginBurst (w : WorkerState) : WorkerState :=
  { w with taskCtrl := w.taskCtrl.recTaskUnitReset, totalRound := RoundStat.new }

def countRound (w : WorkerState) : WorkerState :=
  { w with totalRound := (w.totalRound.terminalByRound pickerDefaultRoundBatch).2 }

def sleepDuration (w : WorkerState) (unitLeft : Nat) : Nat :=
  calcSleepDuration unitLeft w.picker w.totalRound w.taskCtrl

end WorkerState

/-- The body of the inner loop, up to the check for the end of the unit. -/
def burstRound (cfg : WorkerConfig) (w : WorkerState) (env : LoopEnv) :
    Except WorkerEnd (WorkerState × RoundStat) :=
  let ctrl := pollCmdNow env w.taskCtrl
  if ctrl.isStop env.missNow env.now || reachedLimits cfg ctrl then
    .error ⟨.limitReached, { w with taskCtrl := ctrl }⟩
  else
    let out := roundPick cfg.lim env.toRoundEnv w.picker ctrl
    match out.result with
    | .error reason => .error ⟨.sourceFailed reason, w.afterRound out⟩
    | .ok round =>
      let w := { w.afterRound out with totalRound := w.totalRound.merge round }
      if w.totalRound.isStop then .error ⟨.stopped round out.read, w⟩ else .ok (w, round)

/-- The inner loop; `env n` is what the n-th round meets. `left` bounds the turns, and
    `burst` gives one turn more than the round limit, which `burst_over` shows to be enough. -/
def burstLoop (cfg : WorkerConfig) (env : Nat → LoopEnv) :
    Nat → WorkerState → Except WorkerEnd (WorkerState × List RoundStat)
  | 0, w => .ok (w, [])
  | left + 1, w =>
    if (w.totalRound.terminalByRound pickerDefaultRoundBatch).1 then .ok (w.countRound, [])
    else
      match burstRound cfg w.countRound (env w.totalRound.roundIdx) with
      | .error e => .error e
      | .ok (w, round) =>
        if w.taskCtrl.isUnitEnd then .ok (w, [round])
        else
          match burstLoop cfg env left w with
          | .error e => .error e
          | .ok (w, rounds) => .ok (w, round :: rounds)

def burst (cfg : WorkerConfig) (env : Nat → LoopEnv) (w : WorkerState) :
    Except WorkerEnd (WorkerState × List RoundStat) :=
  burstLoop cfg env (pickerDefaultRoundBatch + 1) w.beginBurst

/-- A turn of the worker is one round of a burst, or the end of the burst. -/
theorem dispatchStep_eq_burstRound (cfg : WorkerConfig) (w : WorkerState) (env : LoopEnv) :
    dispatchStep cfg w env =
      if (w.totalRound.terminalByRound pickerDefaultRoundBatch).1 then w.countRound.endBurst env
      else burstRound cfg w.countRound env >>= fun turn =>
        if turn.1.taskCtrl.isUnitEnd then turn.1.endBurst env else .ok turn.1 := by
  unfold dispatchStep burstRound
  split
  · rename_i total limit
    rw [limit, if_pos rfl, WorkerState.countRound, limit]
  · rename_i total limit
    rw [limit, if_neg Bool.false_ne_true, WorkerState.countRound, limit]
    dsimp only
    split
    · rfl
    · cases (roundPick cfg.lim env.toRoundEnv w.picker (pollCmdNow env w.taskCtrl)).result with
      | error reason => rfl
      | ok round =>
        dsimp only
        split <;> rfl

/-- What a burst of `rounds` does to the histories and to the report of the worker. -/
structure BurstReport (w w' : WorkerState) (rounds : List RoundStat) : Prop where
  sent : w'.totalRound.sendCnt = w.totalRound.sendCnt + (rounds.map RoundStat.sendCnt).sum
  handed : ∃ batches : List SourceBatch,
    w'.handed = w.handed ++ batches ∧ batches.length = (rounds.map RoundStat.sendCnt).sum
  distStatus : w'.totalRound.distStatus = (rounds.getLast?.getD w.totalRound).distStatus
  srcStatus : w'.totalRound.srcStatus = (rounds.getLast?.getD w.totalRound).srcStatus

theorem handlePendingLoop_sendCnt (lim : Limits) (view : Nat → RouterView) (left sends : Nat)
    (picker : JMActPicker) (ctrl : TaskController) (rs : RoundStat) :
    (handlePendingLoop lim view left sends picker ctrl rs).stat.sendCnt =
      rs.sendCnt + (handlePendingLoop lim view left sends picker ctrl rs).handed.length := by
  induction left generalizing sends picker ctrl rs with
  | zero => rfl
  | succ left ih =>
    rw [handlePendingLoop]
    split
    · rfl
    · split
      · dsimp only
        rw [ih, RoundStat.addProc, List.length_cons]
        dsimp only
        omega
      all_goals rfl

theorem postByPlan_sendCnt (lim : Limits) (env : RoundEnv) (plan : PostPlan)
    (picker : JMActPicker) (ctrl : TaskController) (rs : RoundStat) :
    (postByPlan lim env plan picker ctrl rs).stat.sendCnt =
      rs.sendCnt + (postByPlan lim env plan picker ctrl rs).handed.length := by
  unfold postByPlan
  split
  · have posted := handlePendingLoop_sendCnt lim env.view plan.batchSize 0 picker ctrl RoundStat.new
    rw [show RoundStat.new.sendCnt = 0 from rfl, Nat.zero_add] at posted
    dsimp only [RoundStat.merge, RoundStat.addProc, handlePendingBatch]
    rw [posted]
  · rfl

theorem roundPost_sendCnt (lim : Limits) (env : RoundEnv) (picker : JMActPicker)
    (ctrl : TaskController) (rs : RoundStat) :
    (roundPost lim env picker ctrl rs).stat.sendCnt =
      rs.sendCnt + (roundPost lim env picker ctrl rs).handed.length := by
  unfold roundPost
  split
  · rfl
  · split
    · rfl
    · exact postByPlan_sendCnt ..

theorem roundPick_sendCnt {lim : Limits} {env : RoundEnv} {picker : JMActPicker}
    {ctrl : TaskController} {round : RoundStat}
    (result : (roundPick lim env picker ctrl).result = .ok round) :
    round.sendCnt = (roundPick lim env picker ctrl).handed.length := by
  unfold roundPick at result ⊢
  dsimp only at result ⊢
  split at result
  · cases result
  · cases result
    rw [roundPost_sendCnt]
    exact Nat.zero_add _

theorem burstRound_report {cfg : WorkerConfig} {w w' : WorkerState} {env : LoopEnv}
    {round : RoundStat} (ok : burstRound cfg w env = .ok (w', round)) :
    BurstReport w w' [round] := by
  unfold burstRound at ok
  dsimp only at ok
  split at ok
  · cases ok
  · split at ok
    · cases ok
    · rename_i result
      split at ok
      · cases ok
      · cases ok
        refine ⟨by simp [RoundStat.merge, RoundStat.addProc], ⟨_, rfl, ?_⟩, rfl, rfl⟩
        rw [← roundPick_sendCnt result]
        simp

theorem getLast?_cons_getD (round before : RoundStat) (rounds : List RoundStat) :
    (round :: rounds).getLast?.getD before = rounds.getLast?.getD round := by
  rw [List.getLast?_cons]
  rfl

theorem BurstReport.cons {w w₁ w' : WorkerState} {round : RoundStat} {rounds : List RoundStat}
    (first : BurstReport w w₁ [round]) (rest : BurstReport w₁ w' rounds) :
    BurstReport w w' (round :: rounds) := by
  obtain ⟨batches₁, handed₁, length₁⟩ := first.handed
  obtain ⟨batches₂, handed₂, length₂⟩ := rest.handed
  have sent₁ := first.sent
  have sent₂ := rest.sent
  simp only [List.map_cons, List.map_nil, List.sum_cons, List.sum_nil] at length₁ sent₁
  refine ⟨?_, ⟨batches₁ ++ batches₂, ?_, ?_⟩, ?_, ?_⟩
  · rw [List.map_cons, List.sum_cons]
    omega
  · rw [handed₂, handed₁, List.append_assoc]
  · rw [List.length_append, List.map_cons, List.sum_cons]
    omega
  · rw [getLast?_cons_getD, rest.distStatus]
    cases final : rounds.getLast? with
    | none => exact first.distStatus
    | some last => rfl
  · rw [getLast?_cons_getD, rest.srcStatus]
    cases final : rounds.getLast? with
    | none => exact first.srcStatus
    | some last => rfl

theorem burstLoop_report {cfg : WorkerConfig} {env : Nat → LoopEnv} {left : Nat}
    {w w' : WorkerState} {rounds : List RoundStat}
    (ended : burstLoop cfg env left w = .ok (w', rounds)) : BurstReport w w' rounds := by
  induction left generalizing w rounds with
  | zero =>
    cases ended
    exact ⟨rfl, ⟨[], by simp, rfl⟩, rfl, rfl⟩
  | succ left ih =>
    rw [burstLoop] at ended
    split at ended
    · cases ended
      exact ⟨rfl, ⟨[], by simp [WorkerState.countRound], rfl⟩, rfl, rfl⟩
    · split at ended
      · cases ended
      · rename_i w₁ round ok
        have first : BurstReport w w₁ [round] := by
          have report := burstRound_report ok
          exact ⟨report.sent, report.handed, report.distStatus, report.srcStatus⟩
        split at ended
        · cases ended
          exact first
        · split at ended
          · cases ended
          · rename_i rest
            cases ended
            exact first.cons (ih rest)

theorem burstRound_roundIdx {cfg : WorkerConfig} {w w' : WorkerState} {env : LoopEnv}
    {round : RoundStat} (ok : burstRound cfg w env = .ok (w', round)) :
    w'.totalRound.roundIdx = w.totalRound.roundIdx := by
  unfold burstRound at ok
  dsimp only at ok
  split at ok
  · cases ok
  · split at ok
    · cases ok
    · split at ok
      · cases ok
      · cases ok
        rfl

theorem burstLoop_over {cfg : WorkerConfig} {env : Nat → LoopEnv} {left : Nat}
    {w w' : WorkerState} {rounds : List RoundStat}
    (enough : pickerDefaultRoundBatch < w.totalRound.roundIdx + left)
    (fresh : w.totalRound.roundIdx ≤ pickerDefaultRoundBatch)
    (ended : burstLoop cfg env left w = .ok (w', rounds)) :
    w'.taskCtrl.isUnitEnd = true ∨ pickerDefaultRoundBatch < w'.totalRound.roundIdx := by
  induction left generalizing w rounds with
  | zero => omega
  | succ left ih =>
    rw [burstLoop] at ended
    split at ended
    · rename_i limit
      cases ended
      exact .inr (Nat.lt_succ_of_le (of_decide_eq_true limit))
    · rename_i more
      have below : w.totalRound.roundIdx < pickerDefaultRoundBatch :=
        Nat.lt_of_not_le fun limit => more (decide_eq_true limit)
      split at ended
      · cases ended
      · rename_i w₁ round ok
        have counted : w₁.totalRound.roundIdx = w.totalRound.roundIdx + 1 :=
          burstRound_roundIdx ok
        split at ended
        · rename_i unit
          cases ended
          exact .inl unit
        · split at ended
          · cases ended
          · rename_i rest
            cases ended
            exact ih (by omega) (by omega) rest

/-- A burst stops at the end of a unit or at its round limit, never for want of turns. -/
theorem burst_over {cfg : WorkerConfig} {env : Nat → LoopEnv} {w w' : WorkerState}
    {rounds : List RoundStat} (ended : burst cfg env w = .ok (w', rounds)) :
    w'.taskCtrl.isUnitEnd = true ∨ pickerDefaultRoundBatch < w'.totalRound.roundIdx :=
  burstLoop_over (Nat.lt_of_lt_of_le (Nat.lt_succ_self _) (Nat.le_add_left _ _))
    (Nat.zero_le _) ended

theorem sleepDuration_ne_zero_iff (w : WorkerState) (unitLeft : Nat) :
    w.sleepDuration unitLeft ≠ 0 ↔
      (w.taskCtrl.isUnitEnd = true ∧ unitLeft ≠ 0) ∨
        w.totalRound.needWait w.picker.pendingCount = true := by
  unfold WorkerState.sleepDuration calcSleepDuration actorIdleTick
  dsimp only
  cases w.taskCtrl.isUnitEnd <;>
    cases w.totalRound.needWait w.picker.pendingCount <;>
      by_cases none_left : unitLeft = 0 <;> simp [none_left]

theorem needWait_iff (round : RoundStat) (picker : JMActPicker) :
    round.needWait picker.pendingCount = true ↔
      (round.sendCnt = 0 ∧ round.distStatus = .pending) ∨
        (picker.pending = [] ∧ round.srcStatus = .miss) := by
  simp [RoundStat.needWait, JMActPicker.pendingCount]

/-- A burst is judged by its last round. With nothing delivered a full channel in that round
    makes the worker sleep. After a delivery only the end of a unit and a source that has run
    dry in that round do. -/
theorem burst_sleep_follows_last_round (cfg : WorkerConfig) (env : Nat → LoopEnv)
    (w w' : WorkerState) (rounds : List RoundStat) (last : RoundStat) (unitLeft : Nat)
    (ended : burst cfg env w = .ok (w', rounds)) (final : rounds.getLast? = some last) :
    (w'.handed = w.handed → last.distStatus = .pending → w'.sleepDuration unitLeft ≠ 0) ∧
      (w'.handed ≠ w.handed →
        (w'.sleepDuration unitLeft ≠ 0 ↔
          (w'.taskCtrl.isUnitEnd = true ∧ unitLeft ≠ 0) ∨
            (w'.picker.pending = [] ∧ last.srcStatus = .miss))) := by
  have report := burstLoop_report ended
  obtain ⟨batches, handed, length⟩ := report.handed
  have sent := report.sent
  have dist := report.distStatus
  have src := report.srcStatus
  rw [final, Option.getD_some] at dist src
  rw [← length] at sent
  rw [sleepDuration_ne_zero_iff, needWait_iff, sent, dist, src]
  have handed_iff : w'.handed = w.handed ↔ batches.length = 0 := by
    rw [handed, List.length_eq_zero_iff]
    exact List.append_right_eq_self
  have counted : w.beginBurst.totalRound.sendCnt + batches.length = batches.length :=
    Nat.zero_add _
  rw [handed_iff, counted]
  constructor
  · intro none_handed full
    exact .inr (.inl ⟨none_handed, full⟩)
  · intro some_handed
    have not_stuck : ¬ (batches.length = 0 ∧ last.distStatus = .pending) :=
      fun stuck => some_handed (handed_iff.mpr stuck.1)
    rw [or_iff_right not_stuck]

section Congestion

def crowdedConfig : WorkerConfig :=
  { unlimitedConfig with
    lim := { pickerBurstMax := 1, pickerCoalesceTrigger := 8, pickerCoalesceMaxEvents := 64
             pickerPendingMaxBytes := 4096 } }

/-- A worker with three batches pending, at its watermark. -/
def crowdedWorker (policy : PostPolicy) : WorkerState :=
  { WorkerState.start crowdedConfig with
    picker :=
      { JMActPicker.new crowdedConfig.lim with
        pending := [[oneEvent], [oneEvent], [oneEvent]]
        pendingBytes := batchBytes [oneEvent, oneEvent, oneEvent], postPolicy := policy } }

/-- How the two runs below are evaluated: as one decidable fact about the burst's outcome. -/
theorem burst_of_any {x : Except WorkerEnd (WorkerState × List RoundStat)}
    (p : WorkerState → List RoundStat → Prop) [∀ w rounds, Decidable (p w rounds)]
    (run : x.toOption.any (fun out => p out.1 out.2) = true) :
    ∃ w' rounds, x = .ok (w', rounds) ∧ p w' rounds := by
  cases x with
  | error e => cases run
  | ok out => exact ⟨out.1, out.2, rfl, of_decide_eq_true run⟩

theorem sleepDuration_of_unit_open {w : WorkerState} {unitLeft : Nat}
    (unit : w.taskCtrl.isUnitEnd = false) :
    w.sleepDuration unitLeft =
      if w.totalRound.needWait w.picker.pendingCount then actorIdleTick else 0 := by
  unfold WorkerState.sleepDuration calcSleepDuration
  rw [unit]
  rfl

/-- Three rounds of the burst meet a full channel, but the last one is skipped by the back-off
    and the worker does not sleep; and a source that runs dry after a delivery makes it sleep. -/
theorem skipped_round_hides_full_channels :
    (∃ w' rounds,
      burst crowdedConfig (fun _ => quietTurn [] .full) (crowdedWorker (PostPolicy.new 1)) =
          .ok (w', rounds) ∧
        w'.handed = [] ∧ w'.fetched = [] ∧ (rounds.map RoundStat.distStatus).count .pending = 3 ∧
        w'.picker.pending = [[oneEvent], [oneEvent], [oneEvent]] ∧
        ∀ unitLeft, w'.sleepDuration unitLeft = 0) ∧
      ∃ w' rounds,
        burst unlimitedConfig
            (fun n => quietTurn (if n = 0 then [.received [oneEvent]] else []) .ok)
            (WorkerState.start unlimitedConfig) = .ok (w', rounds) ∧
          w'.handed = [[oneEvent]] ∧ w'.taskCtrl.isUnitEnd = false ∧
          ∀ unitLeft, w'.sleepDuration unitLeft = actorIdleTick := by
  constructor
  · obtain ⟨w', rounds, ended, facts⟩ := burst_of_any (x := burst crowdedConfig
      (fun _ => quietTurn [] .full) (crowdedWorker (PostPolicy.new 1)))
      (fun w' rounds => w'.handed = [] ∧ w'.fetched = [] ∧
        (rounds.map RoundStat.distStatus).count .pending = 3 ∧
        w'.picker.pending = [[oneEvent], [oneEvent], [oneEvent]] ∧
        w'.taskCtrl.isUnitEnd = false ∧ w'.totalRound.needWait w'.picker.pendingCount = false)
      (by decide +kernel)
    obtain ⟨handed, fetched, full, pending, unit, waits⟩ := facts
    exact ⟨w', rounds, ended, handed, fetched, full, pending, fun unitLeft => by
      rw [sleepDuration_of_unit_open unit, waits, if_neg Bool.false_ne_true]⟩
  · obtain ⟨w', rounds, ended, facts⟩ := burst_of_any (x := burst unlimitedConfig
      (fun n => quietTurn (if n = 0 then [.received [oneEvent]] else []) .ok)
      (WorkerState.start unlimitedConfig))
      (fun w' _ => w'.handed = [[oneEvent]] ∧ w'.taskCtrl.isUnitEnd = false ∧
        w'.totalRound.needWait w'.picker.pendingCount = true)
      (by decide +kernel)
    obtain ⟨handed, unit, waits⟩ := facts
    exact ⟨w', rounds, ended, handed, unit, fun unitLeft => by
      rw [sleepDuration_of_unit_open unit, waits, if_pos rfl]⟩

/-- With the longest back-off the tenth round of the burst posts again. -/
theorem longest_backoff_sleeps :
    ∃ w' rounds,
      burst crowdedConfig (fun _ => quietTurn [] .full)
          (crowdedWorker { PostPolicy.new 1 with backoffRounds := 8 }) = .ok (w', rounds) ∧
        w'.sleepDuration 0 ≠ 0 := by
  obtain ⟨w', rounds, ended, handed, full⟩ := burst_of_any (x := burst crowdedConfig
    (fun _ => quietTurn [] .full) (crowdedWorker { PostPolicy.new 1 with backoffRounds := 8 }))
    (fun w' rounds => w'.handed = [] ∧
      rounds.getLast?.map RoundStat.distStatus = some .pending)
    (by decide +kernel)
  obtain ⟨last, final, pending⟩ := Option.map_eq_some_iff.mp full
  exact ⟨w', rounds, ended, (burst_sleep_follows_last_round crowdedConfig
    (fun _ => quietTurn [] .full) (crowdedWorker { PostPolicy.new 1 with backoffRounds := 8 })
    w' rounds last 0 ended final).1 handed pending⟩

end Congestion
end WarpMotor
