import WarpMotor.Picker.Queue

/-!
One scheduling round of the picker: plan the pull, fetch from the source,
then post unless the post back-off skips this round. The source and the
control channel are inputs of the round. A blocking fetch is a finite list
of what its `select!` sees; when the list runs out, the deadline has passed.
-/
namespace WarpMotor

inductive SourceReason where
  | supplierError | notData | eof | disconnect | other
  | uvs (reason : UnifiedReason)
  deriving DecidableEq, Repr

def err4DispatchData (mode : RobustnessMode) : SourceReason → ErrorHandlingStrategy
  | .supplierError => .throw
  | .notData => .tolerant
  | .eof => .terminate
  | .disconnect => .fixRetry
  | .other => .throw
  | .uvs reason => universalProcStg mode reason

/-- One turn of the `select!` of `read_batch_blocking`, or its expired deadline. -/
inductive BlockingTurn where
  | deadline
  | cmd (cmd : ActorCtrlCmd)
  | cmdClosed
  | cmdOverflowed
  | received (batch : SourceBatch)
  | failed (reason : SourceReason)
  deriving DecidableEq, Repr

/-- What a fetch leaves behind; `fetched` lists the batches the source returned. -/
structure FetchOutcome where
  picker : JMActPicker
  taskCtrl : TaskController
  read : Except SourceReason SrcStatus
  fetched : List SourceBatch

/-- `room` is `max_count - total`; `cmdOpen` is the guard `!cmd_closed` of the command branch. -/
def readBatchBlocking (lim : Limits) :
    List BlockingTurn → Nat → Bool → JMActPicker → TaskController → FetchOutcome
  | _, 0, _, picker, ctrl => ⟨picker, ctrl, .ok .ready, []⟩
  | [], _ + 1, _, picker, ctrl => ⟨picker, ctrl, .ok .miss, []⟩
  | turn :: turns, room + 1, cmdOpen, picker, ctrl =>
    match turn with
    | .deadline => ⟨picker, ctrl, .ok .miss, []⟩
    | .cmd cmd =>
      if cmdOpen then
        match cmd with
        | .stop _ => ⟨picker, ctrl.updateCmd cmd, .ok .terminal, []⟩
        | .isolate => ⟨picker, ctrl.updateCmd cmd, .ok .miss, []⟩
        | _ => readBatchBlocking lim turns (room + 1) cmdOpen picker (ctrl.updateCmd cmd)
      else readBatchBlocking lim turns (room + 1) cmdOpen picker ctrl
    | .cmdClosed => readBatchBlocking lim turns (room + 1) false picker ctrl
    | .cmdOverflowed =>
      if cmdOpen then ⟨picker, ctrl, .ok .terminal, []⟩
      else readBatchBlocking lim turns (room + 1) cmdOpen picker ctrl
    | .received batch =>
      let picker := picker.extendPending batch
      if picker.pendingBytesAtCapacity lim then ⟨picker, ctrl, .ok .ready, [batch]⟩
      else
        let out := readBatchBlocking lim turns room cmdOpen picker ctrl
        { out with fetched := batch :: out.fetched }
    | .failed reason => ⟨picker, ctrl, .error reason, []⟩

/-- `answers` is what `try_receive` returns, call by call; afterwards it returns `None`. -/
def readBatchNonblocking (lim : Limits) :
    List (Option SourceBatch) → Nat → JMActPicker → TaskController → FetchOutcome
  | _, 0, picker, ctrl => ⟨picker, ctrl, .ok .ready, []⟩
  | [], _ + 1, picker, ctrl => ⟨picker, ctrl, .ok .miss, []⟩
  | none :: _, _ + 1, picker, ctrl => ⟨picker, ctrl, .ok .miss, []⟩
  | some batch :: answers, room + 1, picker, ctrl =>
    if batch.isEmpty then ⟨picker, ctrl, .ok .miss, []⟩
    else
      let picker := picker.extendPending batch
      if picker.pendingBytesAtCapacity lim then ⟨picker, ctrl, .ok .ready, [batch]⟩
      else
        let out := readBatchNonblocking lim answers room picker ctrl
        { out with fetched := batch :: out.fetched }

/-- Everything outside the picker that one round depends on. -/
structure RoundEnv where
  mode : RobustnessMode
  fixedRate : Bool
  canTryReceive : Bool
  tryReceive : List (Option SourceBatch)
  blocking : List BlockingTurn
  view : Nat → RouterView

def readBatch (lim : Limits) (env : RoundEnv) (batchMax : Nat) (picker : JMActPicker)
    (ctrl : TaskController) : FetchOutcome :=
  if env.canTryReceive then readBatchNonblocking lim env.tryReceive batchMax picker ctrl
  else readBatchBlocking lim env.blocking batchMax true picker ctrl

/-- `fetch_into_pending`: a read error is turned into a status by its strategy; only `Throw`
    is passed on. -/
def fetchStatus (mode : RobustnessMode) : Except SourceReason SrcStatus → Except SourceReason SrcStatus
  | .ok status => .ok status
  | .error reason =>
    match err4DispatchData mode reason with
    | .fixRetry => .ok .ready
    | .tolerant => .ok .ready
    | .ignore => .ok .ready
    | .terminate => .ok .terminal
    | .throw => .error reason

/-- `read = none` when the round did not ask the source at all. -/
structure PullOutcome where
  picker : JMActPicker
  taskCtrl : TaskController
  read : Option (Except SourceReason SrcStatus)
  status : Except SourceReason SrcStatus
  fetched : List SourceBatch

def fetchIntoPending (lim : Limits) (env : RoundEnv) (batchMax : Nat) (picker : JMActPicker)
    (ctrl : TaskController) : PullOutcome :=
  if batchMax = 0 then ⟨picker, ctrl, none, .ok .ready, []⟩
  else
    let out := readBatch lim env batchMax picker ctrl
    ⟨out.picker, out.taskCtrl, some out.read, fetchStatus env.mode out.read, out.fetched⟩

def pullPlan (env : RoundEnv) (picker : JMActPicker) : PullPlan :=
  if env.fixedRate then picker.pullPolicy.planPullFixedRate
  else picker.pullPolicy.planPull picker.pendingCount

/-- The first half of `round_pick`: the pull plan and the fetch it allows. -/
def roundPull (lim : Limits) (env : RoundEnv) (picker : JMActPicker) (ctrl : TaskController) :
    PullOutcome :=
  if (pullPlan env picker).allow && !picker.pendingBytesAtCapacity lim then
    if ctrl.notAlone then fetchIntoPending lim env (pullPlan env picker).fetchBudget picker ctrl
    else ⟨picker, ctrl, none, .ok .miss, []⟩
  else ⟨picker, ctrl, none, .ok .ready, []⟩

/-- The posting of `round_pick` under a plan: `handle_pending_batch`, the policy update and the
    merge of its statistics. -/
def postByPlan (lim : Limits) (env : RoundEnv) (plan : PostPlan) (picker : JMActPicker)
    (ctrl : TaskController) (rs : RoundStat) : PostOutcome :=
  if plan.allow then
    let out := handlePendingBatch lim env.view plan.batchSize picker ctrl
    let progressed := decide (0 < out.stat.sendCnt)
    { out with
      picker := { out.picker with postPolicy := out.picker.postPolicy.onPostResult progressed }
      stat := rs.merge out.stat }
  else ⟨picker, ctrl, rs, []⟩

/-- The second half of `round_pick`: post what the plan allows unless the back-off skips it. -/
def roundPost (lim : Limits) (env : RoundEnv) (picker : JMActPicker) (ctrl : TaskController)
    (rs : RoundStat) : PostOutcome :=
  if picker.pendingCount = 0 then ⟨picker, ctrl, rs, []⟩
  else
    match picker.postPolicy.inCooldown with
    | (true, policy) => ⟨{ picker with postPolicy := policy }, ctrl, rs, []⟩
    | (false, policy) =>
      let plan := policy.planPost picker.pendingCount (decide (rs.srcStatus = .terminal))
      postByPlan lim env plan { picker with postPolicy := policy } ctrl rs

structure RoundOutcome where
  picker : JMActPicker
  taskCtrl : TaskController
  read : Option (Except SourceReason SrcStatus)
  result : Except SourceReason RoundStat
  fetched : List SourceBatch
  handed : List SourceBatch

def roundPick (lim : Limits) (env : RoundEnv) (picker : JMActPicker) (ctrl : TaskController) :
    RoundOutcome :=
  let pull := roundPull lim env picker ctrl
  match pull.status with
  | .error reason => ⟨pull.picker, pull.taskCtrl, pull.read, .error reason, pull.fetched, []⟩
  | .ok status =>
    let post := roundPost lim env pull.picker pull.taskCtrl (RoundStat.new.upSrcStatus status)
    ⟨post.picker, post.taskCtrl, pull.read, .ok post.stat, pull.fetched, post.handed⟩

theorem readBatchBlocking_pending (lim : Limits) (turns : List BlockingTurn) (room : Nat)
    (cmdOpen : Bool) (picker : JMActPicker) (ctrl : TaskController) :
    (readBatchBlocking lim turns room cmdOpen picker ctrl).picker.pending =
      picker.pending ++ (readBatchBlocking lim turns room cmdOpen picker ctrl).fetched := by
  induction turns generalizing room cmdOpen picker ctrl with
  | nil => cases room <;> simp [readBatchBlocking]
  | cons turn turns ih =>
    cases room with
    | zero => simp [readBatchBlocking]
    | succ room =>
      cases turn with
      | deadline => simp [readBatchBlocking]
      | cmd cmd =>
        simp only [readBatchBlocking]
        split
        · cases cmd <;> simp [ih]
        · exact ih ..
      | cmdClosed => exact ih ..
      | cmdOverflowed =>
        simp only [readBatchBlocking]
        split
        · simp
        · exact ih ..
      | received batch =>
        simp only [readBatchBlocking]
        split
        · rfl
        · simp [ih, JMActPicker.extendPending]
      | failed reason => simp [readBatchBlocking]

theorem readBatchNonblocking_pending (lim : Limits) (answers : List (Option SourceBatch))
    (room : Nat) (picker : JMActPicker) (ctrl : TaskController) :
    (readBatchNonblocking lim answers room picker ctrl).picker.pending =
      picker.pending ++ (readBatchNonblocking lim answers room picker ctrl).fetched := by
  induction answers generalizing room picker with
  | nil => cases room <;> simp [readBatchNonblocking]
  | cons answer answers ih =>
    cases room with
    | zero => simp [readBatchNonblocking]
    | succ room =>
      cases answer with
      | none => simp [readBatchNonblocking]
      | some batch =>
        simp only [readBatchNonblocking]
        split
        · simp
        · split
          · rfl
          · simp [ih, JMActPicker.extendPending]

/-- A pull appends the batches of the source to the queue and does nothing else to it. -/
theorem roundPull_pending (lim : Limits) (env : RoundEnv) (picker : JMActPicker)
    (ctrl : TaskController) :
    (roundPull lim env picker ctrl).picker.pending =
      picker.pending ++ (roundPull lim env picker ctrl).fetched := by
  unfold roundPull fetchIntoPending readBatch
  split
  · split
    · split
      · simp
      · dsimp only
        split
        · exact readBatchNonblocking_pending ..
        · exact readBatchBlocking_pending ..
    · simp
  · simp

/-- The batches the source returns before its first error. -/
def returnedBeforeError : List BlockingTurn → List SourceBatch
  | .received batch :: turns => batch :: returnedBeforeError turns
  | .failed _ :: _ => []
  | _ :: turns => returnedBeforeError turns
  | [] => []

/-- A blocking read that fails has queued every batch returned before the error. -/
theorem readBatchBlocking_error (lim : Limits) (turns : List BlockingTurn) (room : Nat)
    (cmdOpen : Bool) (picker : JMActPicker) (ctrl : TaskController) (reason : SourceReason) :
    (readBatchBlocking lim turns room cmdOpen picker ctrl).read = .error reason →
      (readBatchBlocking lim turns room cmdOpen picker ctrl).fetched =
        returnedBeforeError turns := by
  induction turns generalizing room cmdOpen picker ctrl with
  | nil => cases room <;> intro failed <;> cases failed
  | cons turn turns ih =>
    cases room with
    | zero => intro failed; cases failed
    | succ room =>
      cases turn with
      | deadline => intro failed; cases failed
      | cmd cmd =>
        simp only [readBatchBlocking, returnedBeforeError]
        split
        · cases cmd with
          | stop how => intro failed; cases failed
          | isolate => intro failed; cases failed
          | execute scope => exact ih _ _ _ _
          | suspend scope => exact ih _ _ _ _
          | noOp => exact ih _ _ _ _
        · exact ih _ _ _ _
      | cmdClosed => exact ih _ _ _ _
      | cmdOverflowed =>
        simp only [readBatchBlocking, returnedBeforeError]
        split
        · intro failed; cases failed
        · exact ih _ _ _ _
      | received batch =>
        simp only [readBatchBlocking, returnedBeforeError]
        split
        · intro failed; cases failed
        · intro failed
          rw [ih _ _ _ _ failed]
      | failed reason => intro _; rfl

theorem readBatchNonblocking_ok (lim : Limits) (answers : List (Option SourceBatch)) (room : Nat)
    (picker : JMActPicker) (ctrl : TaskController) :
    ∃ status, (readBatchNonblocking lim answers room picker ctrl).read = .ok status := by
  fun_induction readBatchNonblocking lim answers room picker ctrl <;>
    first | exact ⟨_, rfl⟩ | assumption

theorem roundPull_error (lim : Limits) (env : RoundEnv) (picker : JMActPicker)
    (ctrl : TaskController) (reason : SourceReason) :
    (roundPull lim env picker ctrl).read = some (.error reason) →
      (roundPull lim env picker ctrl).fetched = returnedBeforeError env.blocking := by
  unfold roundPull fetchIntoPending readBatch
  split
  · split
    · split
      · intro failed; cases failed
      · dsimp only
        split
        · intro failed
          obtain ⟨status, read⟩ := readBatchNonblocking_ok lim env.tryReceive
            (pullPlan env picker).fetchBudget picker ctrl
          rw [read] at failed
          cases failed
        · intro failed
          exact readBatchBlocking_error _ _ _ _ _ _ reason (Option.some.inj failed)
    · intro failed; cases failed
  · intro failed; cases failed

theorem postByPlan_events (lim : Limits) (env : RoundEnv) (plan : PostPlan)
    (picker : JMActPicker) (ctrl : TaskController) (rs : RoundStat) :
    (postByPlan lim env plan picker ctrl rs).handed.flatten ++
      (postByPlan lim env plan picker ctrl rs).picker.pendingEvents = picker.pendingEvents := by
  unfold postByPlan
  split
  · exact handlePendingBatch_events ..
  · simp

theorem roundPost_events (lim : Limits) (env : RoundEnv) (picker : JMActPicker)
    (ctrl : TaskController) (rs : RoundStat) :
    (roundPost lim env picker ctrl rs).handed.flatten ++
      (roundPost lim env picker ctrl rs).picker.pendingEvents = picker.pendingEvents := by
  unfold roundPost
  split
  · simp
  · split
    · simp [JMActPicker.pendingEvents]
    · exact postByPlan_events ..

/-- A round moves events from the source to the queue and from the queue to the channels. -/
theorem roundPick_events (lim : Limits) (env : RoundEnv) (picker : JMActPicker)
    (ctrl : TaskController) :
    (roundPick lim env picker ctrl).handed.flatten ++
      (roundPick lim env picker ctrl).picker.pendingEvents =
        picker.pendingEvents ++ (roundPick lim env picker ctrl).fetched.flatten := by
  have pulled : (roundPull lim env picker ctrl).picker.pendingEvents =
      picker.pendingEvents ++ (roundPull lim env picker ctrl).fetched.flatten := by
    simp only [JMActPicker.pendingEvents, roundPull_pending, List.flatten_append]
  dsimp only [roundPick]
  split
  · simpa using pulled
  · rename_i status ok
    simp only [roundPost_events, pulled]

theorem handlePendingLoop_srcStatus (lim : Limits) (view : Nat → RouterView) (left sends : Nat)
    (picker : JMActPicker) (ctrl : TaskController) (rs : RoundStat) :
    (handlePendingLoop lim view left sends picker ctrl rs).stat.srcStatus = rs.srcStatus := by
  induction left generalizing sends picker ctrl rs with
  | zero => rfl
  | succ left ih =>
    rw [handlePendingLoop]
    split
    · rfl
    · split
      · simp [ih, RoundStat.addProc]
      all_goals rfl

/-- A round that posts never reports a terminal source: the merged status comes from the post. -/
theorem postByPlan_srcStatus (lim : Limits) (env : RoundEnv) (plan : PostPlan)
    (picker : JMActPicker) (ctrl : TaskController) (rs : RoundStat) (allowed : plan.allow = true) :
    (postByPlan lim env plan picker ctrl rs).stat.srcStatus = .ready := by
  unfold postByPlan
  rw [if_pos allowed]
  exact handlePendingLoop_srcStatus ..

theorem planPost_full_allowed (p : PostPolicy) (pending : Nat) (waiting : pending ≠ 0) :
    (p.planPost pending true).allow = true := by
  have positive : 0 < pending := Nat.pos_of_ne_zero waiting
  simp [PostPolicy.planPost, waiting, positive]

theorem inCooldown_true {p q : PostPolicy} (cooling : p.inCooldown = (true, q)) :
    0 < p.skipRoundsLeft := by
  by_contra idle
  simp [PostPolicy.inCooldown, idle] at cooling

theorem roundPost_terminal (lim : Limits) (env : RoundEnv) (picker : JMActPicker)
    (ctrl : TaskController) (rs : RoundStat)
    (ended : (roundPost lim env picker ctrl rs).stat.srcStatus = .terminal) :
    (roundPost lim env picker ctrl rs).picker.pending = picker.pending ∧
      (picker.pending = [] ∨ 0 < picker.postPolicy.skipRoundsLeft) := by
  unfold roundPost at ended ⊢
  split at ended
  · rename_i empty
    rw [if_pos empty]
    exact ⟨rfl, Or.inl (List.length_eq_zero_iff.mp empty)⟩
  · rename_i waiting
    rw [if_neg waiting]
    split at ended
    · rename_i policy cooling
      exact ⟨rfl, Or.inr (inCooldown_true cooling)⟩
    · -- not cooling: a terminal status asks for a full post, which overwrites the status
      rename_i policy idle
      exfalso
      dsimp only at ended
      by_cases allowed :
          (policy.planPost picker.pendingCount (decide (rs.srcStatus = .terminal))).allow = true
      · rw [postByPlan_srcStatus _ _ _ _ _ _ allowed] at ended
        cases ended
      · rw [postByPlan, if_neg allowed] at ended
        have terminal : rs.srcStatus = .terminal := ended
        rw [terminal, decide_eq_true rfl] at allowed
        exact allowed (planPost_full_allowed policy picker.pendingCount waiting)

theorem readBatchBlocking_postPolicy (lim : Limits) (turns : List BlockingTurn) (room : Nat)
    (cmdOpen : Bool) (picker : JMActPicker) (ctrl : TaskController) :
    (readBatchBlocking lim turns room cmdOpen picker ctrl).picker.postPolicy =
      picker.postPolicy := by
  fun_induction readBatchBlocking lim turns room cmdOpen picker ctrl <;>
    first | rfl | assumption

theorem readBatchNonblocking_postPolicy (lim : Limits) (answers : List (Option SourceBatch))
    (room : Nat) (picker : JMActPicker) (ctrl : TaskController) :
    (readBatchNonblocking lim answers room picker ctrl).picker.postPolicy = picker.postPolicy := by
  fun_induction readBatchNonblocking lim answers room picker ctrl <;> first | rfl | assumption

theorem roundPull_postPolicy (lim : Limits) (env : RoundEnv) (picker : JMActPicker)
    (ctrl : TaskController) :
    (roundPull lim env picker ctrl).picker.postPolicy = picker.postPolicy := by
  unfold roundPull fetchIntoPending readBatch
  split
  · split
    · split
      · rfl
      · dsimp only
        split
        · exact readBatchNonblocking_postPolicy ..
        · exact readBatchBlocking_postPolicy ..
    · rfl
  · rfl

end WarpMotor
