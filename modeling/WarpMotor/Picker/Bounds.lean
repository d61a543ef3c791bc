import WarpMotor.Picker.Worker

/-!
How long the pending queue can get without a fixed rate. A pull stops at the
high watermark; a refused post puts its payload back, and when that payload
was split off a larger batch the queue is one longer than before. The extra
batch has exactly `max_events` events, so the next post takes it whole. Bytes
are checked before every fetched batch, so one batch can lie above the cap.
-/
namespace WarpMotor

/-- The lower bounds that `MemoryLimits::normalize` puts on the picker's limits. -/
def Limits.normalize (raw : Limits) : Limits :=
  { pickerBurstMax := max raw.pickerBurstMax 1
    pickerCoalesceTrigger := max raw.pickerCoalesceTrigger 1
    pickerCoalesceMaxEvents := max raw.pickerCoalesceMaxEvents 1
    pickerPendingMaxBytes := max raw.pickerPendingMaxBytes 1024 }

/-- The bytes of the largest single batch. -/
def largestBatch (fetched : List SourceBatch) : Nat := (fetched.map batchBytes).foldr max 0

theorem batchBytes_append (one other : SourceBatch) :
    batchBytes (one ++ other) = batchBytes one + batchBytes other := by
  simp [batchBytes]

theorem largestBatch_append (one other : List SourceBatch) :
    largestBatch (one ++ other) = max (largestBatch one) (largestBatch other) := by
  induction one with
  | nil => simp [largestBatch]
  | cons batch one ih =>
    simp only [largestBatch, List.cons_append, List.map_cons, List.foldr_cons] at ih ⊢
    omega

/-- The queue is within the watermark, or one above it with a front of exactly `max_events`. -/
def WithinWatermark (lim : Limits) (hi : Nat) (queue : List SourceBatch) : Prop :=
  queue.length ≤ hi ∨
    (queue.length = hi + 1 ∧ ∃ front rest, queue = front :: rest ∧
      front.length = lim.pickerCoalesceMaxEvents)

/-- Either `pending_bytes` is the exact sum and below the cap plus the largest batch, or the
    counter itself may saturate. -/
structure QueueBound (lim : Limits) (largest : Nat) (p : JMActPicker) : Prop where
  policy : p.pullPolicy = PullPolicy.new lim.pickerBurstMax
  count : WithinWatermark lim p.pullPolicy.hi p.pending
  no_wrap : p.pendingBytes ≤ usizeMax
  bytes : lim.pickerPendingMaxBytes + largest ≤ usizeMax →
    p.pendingBytes = batchBytes p.pendingEvents ∧
      p.pendingBytes < lim.pickerPendingMaxBytes + largest

theorem QueueBound.mono {lim : Limits} {largest larger : Nat} {p : JMActPicker}
    (bound : QueueBound lim largest p) (grows : largest ≤ larger) : QueueBound lim larger p := by
  constructor
  · exact bound.policy
  · exact bound.count
  · exact bound.no_wrap
  · intro fits
    obtain ⟨total, below⟩ := bound.bytes (by omega)
    exact ⟨total, by omega⟩

theorem extendPending_room {p : JMActPicker} (batch : SourceBatch) {room : Nat}
    (space : p.pending.length + (room + 1) ≤ p.pullPolicy.hi) :
    (p.extendPending batch).pending.length + room ≤ (p.extendPending batch).pullPolicy.hi := by
  simp only [JMActPicker.extendPending, List.length_append, List.length_cons, List.length_nil]
  omega

/-- Fetching below the watermark and below the cap. -/
theorem QueueBound.extendPending {lim : Limits} {largest : Nat} {p : JMActPicker}
    (bound : QueueBound lim largest p) (batch : SourceBatch)
    (room : p.pending.length < p.pullPolicy.hi)
    (below_cap : p.pendingBytesAtCapacity lim = false) :
    QueueBound lim (max largest (batchBytes batch)) (p.extendPending batch) := by
  simp only [JMActPicker.pendingBytesAtCapacity, decide_eq_false_iff_not] at below_cap
  constructor
  · exact bound.policy
  · left
    simp only [JMActPicker.extendPending, List.length_append, List.length_cons, List.length_nil]
    omega
  · simp only [JMActPicker.extendPending, saturatingAdd]
    omega
  · intro fits
    obtain ⟨total, -⟩ := bound.bytes (by omega)
    rw [JMActPicker.extendPending_events, batchBytes_append, ← total]
    simp only [JMActPicker.extendPending, saturatingAdd]
    omega

section Coalesce

/-- The merge loop takes whole batches, or ends by splitting one when it has `maxEvents`. -/
theorem coalesceLoop_shape (maxEvents : Nat) (queue : List SourceBatch) (merged : SourceBatch)
    (bytes : Nat) :
    (∃ dropped, queue = dropped ++ (JMActPicker.coalesceLoop maxEvents merged bytes queue).2.1 ∧
      (JMActPicker.coalesceLoop maxEvents merged bytes queue).1 = merged ++ dropped.flatten) ∨
    ∃ dropped b rest tail, queue = dropped ++ b :: tail ∧
      (JMActPicker.coalesceLoop maxEvents merged bytes queue).2.1 = rest :: tail ∧
      (JMActPicker.coalesceLoop maxEvents merged bytes queue).1.length = maxEvents ∧
      0 < maxEvents ∧ (dropped = [] → maxEvents < merged.length + b.length) := by
  induction queue generalizing merged bytes with
  | nil => exact Or.inl ⟨[], by simp [JMActPicker.coalesceLoop], by simp [JMActPicker.coalesceLoop]⟩
  | cons b queue ih =>
    unfold JMActPicker.coalesceLoop
    by_cases filling : merged.length < maxEvents
    · rw [if_pos filling]
      dsimp only
      by_cases fits : merged.length + b.length ≤ maxEvents
      · rw [if_pos fits]
        rcases ih (merged ++ b) (bytes - batchBytes b) with
          ⟨dropped, left, taken⟩ | ⟨dropped, last, rest, tail, left, queue_eq, size, positive, -⟩
        · refine Or.inl ⟨b :: dropped, ?_, ?_⟩
          · rw [List.cons_append, ← left]
          · rw [taken]
            simp
        · refine Or.inr ⟨b :: dropped, last, rest, tail, ?_, queue_eq, size, positive, ?_⟩
          · rw [List.cons_append, ← left]
          · intro empty
            cases empty
      · rw [if_neg fits]
        refine Or.inr ⟨[], b, b.drop (maxEvents - merged.length), queue, rfl, rfl, ?_, ?_, ?_⟩
        · rw [List.length_append, List.length_take_of_le (by omega)]
          omega
        · omega
        · intro _
          omega
    · rw [if_neg filling]
      exact Or.inl ⟨[], by simp, by simp⟩

theorem coalesceLoop_no_wrap (maxEvents : Nat) (queue : List SourceBatch) (merged : SourceBatch)
    (bytes : Nat) (small : bytes ≤ usizeMax) :
    (JMActPicker.coalesceLoop maxEvents merged bytes queue).2.2 ≤ usizeMax := by
  induction queue generalizing merged bytes with
  | nil => exact small
  | cons b queue ih =>
    unfold JMActPicker.coalesceLoop
    split
    · dsimp only
      split
      · exact ih (merged ++ b) (bytes - batchBytes b) (by omega)
      · simp only [saturatingAdd]
        omega
    · exact small

theorem coalesceLoop_bytes (maxEvents : Nat) (queue : List SourceBatch) (merged : SourceBatch)
    (bytes : Nat) (small : bytes ≤ usizeMax) (total : bytes = batchBytes queue.flatten) :
    (JMActPicker.coalesceLoop maxEvents merged bytes queue).2.2 =
      batchBytes (JMActPicker.coalesceLoop maxEvents merged bytes queue).2.1.flatten := by
  induction queue generalizing merged bytes with
  | nil => simpa [JMActPicker.coalesceLoop] using total
  | cons b queue ih =>
    rw [List.flatten_cons, batchBytes_append] at total
    unfold JMActPicker.coalesceLoop
    split
    · dsimp only
      split
      · exact ih (merged ++ b) (bytes - batchBytes b) (by omega) (by omega)
      · -- The rest of the split batch is counted again.
        have parts := batchBytes_append (b.take (maxEvents - merged.length))
          (b.drop (maxEvents - merged.length))
        rw [List.take_append_drop] at parts
        simp only [saturatingAdd, List.flatten_cons, batchBytes_append]
        omega
    · rw [List.flatten_cons, batchBytes_append]
      exact total

end Coalesce

/-- What taking a payload off the queue does to its batches. -/
inductive PopEffect (lim : Limits) (p : JMActPicker) (payload : SourceBatch) (q : JMActPicker) :
    Prop where
  | whole (dropped : List SourceBatch) (nonempty : dropped ≠ [])
      (queue : p.pending = dropped ++ q.pending) (taken : payload = dropped.flatten)
  | split (dropped : List SourceBatch) (b rest : SourceBatch) (tail : List SourceBatch)
      (queue : p.pending = dropped ++ b :: tail) (left : q.pending = rest :: tail)
      (size : payload.length = lim.pickerCoalesceMaxEvents)
      (large : dropped = [] → lim.pickerCoalesceMaxEvents < b.length)

theorem takePending_some {p q : JMActPicker} {payload : SourceBatch}
    (taken : p.takePending = (some payload, q)) : p.pending = payload :: q.pending := by
  unfold JMActPicker.takePending at taken
  split at taken
  · cases taken
  · rename_i queue
    cases taken
    exact queue

/-- Where the merge yields no payload it has dropped empty batches only. -/
theorem coalescePendingFront_none {p q : JMActPicker} {maxEvents : Nat}
    (nothing : p.coalescePendingFront maxEvents = (none, q)) :
    ∃ dropped, p.pending = dropped ++ q.pending ∧ dropped.flatten = [] := by
  unfold JMActPicker.coalescePendingFront at nothing
  split at nothing
  · cases nothing
    exact ⟨[], by simp, by simp⟩
  · dsimp only at nothing
    rcases coalesceLoop_shape maxEvents p.pending [] p.pendingBytes with
      ⟨dropped, left, merged⟩ | ⟨dropped, b, rest, tail, -, -, size, positive, -⟩
    · cases nothing_merged : (JMActPicker.coalesceLoop maxEvents [] p.pendingBytes p.pending).1 with
      | nil =>
        rw [nothing_merged] at nothing merged
        cases nothing
        exact ⟨dropped, left, by simpa using merged.symm⟩
      | cons event events =>
        rw [nothing_merged] at nothing
        cases nothing
    · have some_merged :
          (JMActPicker.coalesceLoop maxEvents [] p.pendingBytes p.pending).1 ≠ [] := by
        intro empty
        rw [empty, List.length_nil] at size
        omega
      rw [if_neg (by simpa using some_merged)] at nothing
      cases nothing

theorem coalescePendingFront_some {lim : Limits} {p q : JMActPicker} {payload : SourceBatch}
    (taken : p.coalescePendingFront lim.pickerCoalesceMaxEvents = (some payload, q)) :
    PopEffect lim p payload q := by
  unfold JMActPicker.coalescePendingFront at taken
  split at taken
  · cases taken
  · dsimp only at taken
    split at taken
    · cases taken
    · rename_i some_merged
      cases taken
      rcases coalesceLoop_shape lim.pickerCoalesceMaxEvents p.pending [] p.pendingBytes with
        ⟨dropped, left, merged⟩ | ⟨dropped, b, rest, tail, left, queue, size, -, large⟩
      · refine .whole dropped ?_ left (by simpa using merged)
        rintro rfl
        rw [merged] at some_merged
        simp at some_merged
      · refine .split dropped b rest tail left queue size ?_
        intro empty
        simpa using large empty

theorem popNextPayloadForPost_some {lim : Limits} {p q : JMActPicker} {payload : SourceBatch}
    (popped : p.popNextPayloadForPost lim = (some payload, q)) : PopEffect lim p payload q := by
  unfold JMActPicker.popNextPayloadForPost at popped
  split at popped
  · split at popped
    · rename_i b p' merged
      cases popped
      exact coalescePendingFront_some merged
    · rename_i p' nothing
      obtain ⟨dropped, queue, empty⟩ := coalescePendingFront_none nothing
      refine .whole (dropped ++ [payload]) (by simp) ?_ ?_
      · rw [queue, takePending_some popped, List.append_assoc]
        rfl
      · rw [List.flatten_append, empty]
        simp
  · exact .whole [payload] (by simp) (takePending_some popped) (by simp)

theorem takePending_none {p q : JMActPicker} (taken : p.takePending = (none, q)) :
    q.pending = [] := by
  unfold JMActPicker.takePending at taken
  split at taken
  · rename_i empty
    cases taken
    exact empty
  · cases taken

theorem popNextPayloadForPost_none {lim : Limits} {p q : JMActPicker}
    (popped : p.popNextPayloadForPost lim = (none, q)) : q.pending = [] := by
  unfold JMActPicker.popNextPayloadForPost at popped
  split at popped
  · split at popped
    · cases popped
    · exact takePending_none popped
  · exact takePending_none popped

/-- The byte counter along a pop: it does not wrap, and it stays exact. -/
theorem popNextPayloadForPost_bytes {lim : Limits} {p q : JMActPicker}
    {taken : Option SourceBatch} (popped : p.popNextPayloadForPost lim = (taken, q))
    (small : p.pendingBytes ≤ usizeMax) :
    q.pullPolicy = p.pullPolicy ∧ q.pendingBytes ≤ usizeMax ∧
      (p.pendingBytes = batchBytes p.pendingEvents →
        q.pendingBytes = batchBytes q.pendingEvents) := by
  have taking : ∀ (p q : JMActPicker) (taken : Option SourceBatch), p.takePending = (taken, q) →
      p.pendingBytes ≤ usizeMax → q.pullPolicy = p.pullPolicy ∧ q.pendingBytes ≤ usizeMax ∧
        (p.pendingBytes = batchBytes p.pendingEvents →
          q.pendingBytes = batchBytes q.pendingEvents) := by
    intro p q taken take small
    unfold JMActPicker.takePending at take
    split at take
    · cases take
      exact ⟨rfl, small, id⟩
    · rename_i batch rest queue
      cases take
      refine ⟨rfl, by simp only; omega, ?_⟩
      intro total
      simp only [JMActPicker.pendingEvents, queue, List.flatten_cons, batchBytes_append] at total ⊢
      omega
  have merging : ∀ (q : JMActPicker) (taken : Option SourceBatch),
      p.coalescePendingFront lim.pickerCoalesceMaxEvents = (taken, q) →
      q.pullPolicy = p.pullPolicy ∧ q.pendingBytes ≤ usizeMax ∧
        (p.pendingBytes = batchBytes p.pendingEvents →
          q.pendingBytes = batchBytes q.pendingEvents) := by
    intro q taken merge
    unfold JMActPicker.coalescePendingFront at merge
    split at merge
    · cases merge
      exact ⟨rfl, small, id⟩
    · cases merge
      refine ⟨rfl, coalesceLoop_no_wrap _ _ _ _ small, ?_⟩
      intro total
      exact coalesceLoop_bytes _ _ _ _ small total
  unfold JMActPicker.popNextPayloadForPost at popped
  split at popped
  · split at popped
    · rename_i b p' merged
      cases popped
      exact merging q (some b) merged
    · rename_i p' nothing
      obtain ⟨policy, kept, total⟩ := merging p' none nothing
      obtain ⟨policy', kept', total'⟩ := taking p' q taken popped kept
      exact ⟨policy'.trans policy, kept', fun exact_sum => total' (total exact_sum)⟩
  · exact taking p q taken popped small

/-- A payload that is put back makes the queue at most one longer, and then it has
    `max_events` events. -/
theorem WithinWatermark.pop {lim : Limits} {hi : Nat} {p q : JMActPicker} {payload : SourceBatch}
    (within : WithinWatermark lim hi p.pending) (effect : PopEffect lim p payload q) :
    WithinWatermark lim hi q.pending ∧ WithinWatermark lim hi (payload :: q.pending) := by
  cases effect with
  | whole dropped nonempty queue taken =>
    have some_dropped : 0 < dropped.length := List.length_pos_of_ne_nil nonempty
    have total := congrArg List.length queue
    rw [List.length_append] at total
    rcases within with below | ⟨above, front, rest, shape, size⟩
    · constructor
      · left
        omega
      · left
        rw [List.length_cons]
        omega
    · refine ⟨Or.inl (by omega), ?_⟩
      by_cases single : dropped.length = 1
      · -- Only the front was taken, and it returns.
        obtain ⟨only, rfl⟩ := List.length_eq_one_iff.mp single
        rw [shape, List.singleton_append, List.cons.injEq] at queue
        right
        refine ⟨by rw [List.length_cons]; omega, payload, q.pending, rfl, ?_⟩
        rw [taken, ← queue.1]
        simpa using size
      · left
        rw [List.length_cons]
        omega
  | split dropped b rest tail queue left size large =>
    have total := congrArg List.length queue
    rw [List.length_append, List.length_cons] at total
    rw [left]
    rcases within with below | ⟨above, front, others, shape, front_size⟩
    · constructor
      · left
        rw [List.length_cons]
        omega
      · by_cases grown : dropped.length + hi = p.pending.length
        · right
          refine ⟨?_, payload, rest :: tail, rfl, size⟩
          simp only [List.length_cons]
          omega
        · left
          simp only [List.length_cons]
          omega
    · -- The front is exactly `max_events` long, so it was not the batch that was split.
      have some_dropped : dropped ≠ [] := by
        intro empty
        have longer := large empty
        rw [empty, List.nil_append, shape, List.cons.injEq] at queue
        rw [← queue.1] at longer
        omega
      have positive : 0 < dropped.length := List.length_pos_of_ne_nil some_dropped
      constructor
      · left
        rw [List.length_cons]
        omega
      · by_cases single : dropped.length = 1
        · right
          refine ⟨?_, payload, rest :: tail, rfl, size⟩
          simp only [List.length_cons]
          omega
        · left
          simp only [List.length_cons]
          omega

theorem QueueBound.pop {lim : Limits} {largest : Nat} {p q : JMActPicker} {payload : SourceBatch}
    (bound : QueueBound lim largest p) (popped : p.popNextPayloadForPost lim = (some payload, q)) :
    QueueBound lim largest q ∧ QueueBound lim largest (q.setPendingFront payload) := by
  obtain ⟨policy, kept, total⟩ := popNextPayloadForPost_bytes popped bound.no_wrap
  have within := bound.count
  rw [← policy] at within
  obtain ⟨without, back⟩ := within.pop (popNextPayloadForPost_some popped)
  have conserved := congrArg batchBytes (JMActPicker.popNextPayloadForPost_events popped)
  rw [Option.getD_some, batchBytes_append] at conserved
  constructor
  · constructor
    · exact policy.trans bound.policy
    · exact without
    · exact kept
    · intro fits
      obtain ⟨exact_sum, below⟩ := bound.bytes fits
      have left := total exact_sum
      exact ⟨left, by omega⟩
  · constructor
    · exact policy.trans bound.policy
    · exact back
    · simp only [JMActPicker.setPendingFront, saturatingAdd]
      omega
    · intro fits
      obtain ⟨exact_sum, below⟩ := bound.bytes fits
      have left := total exact_sum
      rw [JMActPicker.setPendingFront_events, batchBytes_append]
      simp only [JMActPicker.setPendingFront, saturatingAdd]
      omega

theorem QueueBound.pop_none {lim : Limits} {largest : Nat} {p q : JMActPicker}
    (bound : QueueBound lim largest p) (popped : p.popNextPayloadForPost lim = (none, q)) :
    QueueBound lim largest q := by
  obtain ⟨policy, kept, total⟩ := popNextPayloadForPost_bytes popped bound.no_wrap
  have conserved := congrArg batchBytes (JMActPicker.popNextPayloadForPost_events popped)
  rw [Option.getD_none, List.nil_append] at conserved
  constructor
  · exact policy.trans bound.policy
  · left
    simp [popNextPayloadForPost_none popped]
  · exact kept
  · intro fits
    obtain ⟨exact_sum, below⟩ := bound.bytes fits
    have left := total exact_sum
    exact ⟨left, by omega⟩

theorem handlePendingLoop_bound {lim : Limits} {largest : Nat} (view : Nat → RouterView)
    (left sends : Nat) {picker : JMActPicker} (ctrl : TaskController) (rs : RoundStat)
    (bound : QueueBound lim largest picker) :
    QueueBound lim largest (handlePendingLoop lim view left sends picker ctrl rs).picker := by
  induction left generalizing sends picker ctrl rs with
  | zero => exact bound
  | succ left ih =>
    rw [handlePendingLoop]
    split
    · rename_i picker' popped
      exact bound.pop_none popped
    · rename_i payload picker' popped
      obtain ⟨without, back⟩ := bound.pop popped
      have returned := trySendRoundRobin_returns (view sends) payload
      split
      · exact ih (sends + 1) _ _ without
      all_goals
        rename_i batch refused
        rw [refused] at returned
        cases returned
        exact back

theorem planPull_budget (policy : PullPolicy) (pending : Nat)
    (allowed : (policy.planPull pending).allow = true) :
    pending + (policy.planPull pending).fetchBudget ≤ policy.hi := by
  unfold PullPolicy.planPull at allowed ⊢
  by_cases reached : policy.hi ≤ pending
  · rw [if_pos reached] at allowed
    cases allowed
  · rw [if_neg reached]
    dsimp only
    omega

section Pull
variable {lim : Limits} {picker : JMActPicker}

/-- A fetch loop below the watermark: the queue ends within it, and the largest batch counts. -/
theorem readBatchBlocking_bound (turns : List BlockingTurn) (room : Nat) (cmdOpen : Bool)
    (ctrl : TaskController) {largest : Nat} (bound : QueueBound lim largest picker)
    (space : picker.pending.length + room ≤ picker.pullPolicy.hi)
    (below_cap : picker.pendingBytesAtCapacity lim = false) :
    QueueBound lim
      (max largest (largestBatch (readBatchBlocking lim turns room cmdOpen picker ctrl).fetched))
      (readBatchBlocking lim turns room cmdOpen picker ctrl).picker := by
  have still : QueueBound lim (max largest (largestBatch [])) picker :=
    bound.mono (Nat.le_max_left ..)
  induction turns generalizing room cmdOpen picker ctrl largest with
  | nil => cases room <;> exact still
  | cons turn turns ih =>
    cases room with
    | zero => exact still
    | succ room =>
      cases turn with
      | deadline => exact still
      | cmd cmd =>
        simp only [readBatchBlocking]
        split
        · cases cmd with
          | stop how => exact still
          | isolate => exact still
          | execute scope => exact ih _ _ _ bound space below_cap still
          | suspend scope => exact ih _ _ _ bound space below_cap still
          | noOp => exact ih _ _ _ bound space below_cap still
        · exact ih _ _ _ bound space below_cap still
      | cmdClosed => exact ih _ _ _ bound space below_cap still
      | cmdOverflowed =>
        simp only [readBatchBlocking]
        split
        · exact still
        · exact ih _ _ _ bound space below_cap still
      | received batch =>
        have extended := bound.extendPending batch (by omega) below_cap
        simp only [readBatchBlocking]
        split
        · simpa [largestBatch] using extended
        · rename_i open_cap
          have longer := extendPending_room batch space
          have later := ih room cmdOpen ctrl extended longer (by simpa using open_cap)
            (extended.mono (Nat.le_max_left ..))
          simpa [largestBatch, Nat.max_assoc] using later
      | failed reason => exact still

theorem readBatchNonblocking_bound (answers : List (Option SourceBatch)) (room : Nat)
    (ctrl : TaskController) {largest : Nat} (bound : QueueBound lim largest picker)
    (space : picker.pending.length + room ≤ picker.pullPolicy.hi)
    (below_cap : picker.pendingBytesAtCapacity lim = false) :
    QueueBound lim
      (max largest (largestBatch (readBatchNonblocking lim answers room picker ctrl).fetched))
      (readBatchNonblocking lim answers room picker ctrl).picker := by
  have still : QueueBound lim (max largest (largestBatch [])) picker :=
    bound.mono (Nat.le_max_left ..)
  induction answers generalizing room picker largest with
  | nil => cases room <;> exact still
  | cons answer answers ih =>
    cases room with
    | zero => exact still
    | succ room =>
      cases answer with
      | none => exact still
      | some batch =>
        have extended := bound.extendPending batch (by omega) below_cap
        simp only [readBatchNonblocking]
        split
        · exact still
        · split
          · simpa [largestBatch] using extended
          · rename_i open_cap
            have longer := extendPending_room batch space
            have later := ih room extended longer (by simpa using open_cap)
              (extended.mono (Nat.le_max_left ..))
            simpa [largestBatch, Nat.max_assoc] using later

theorem roundPull_bound {largest : Nat} (env : RoundEnv) (flexible : env.fixedRate = false)
    (ctrl : TaskController) (bound : QueueBound lim largest picker) :
    QueueBound lim (max largest (largestBatch (roundPull lim env picker ctrl).fetched))
      (roundPull lim env picker ctrl).picker := by
  have still : QueueBound lim (max largest (largestBatch [])) picker :=
    bound.mono (Nat.le_max_left ..)
  unfold roundPull
  split
  · rename_i allowed
    simp only [Bool.and_eq_true, Bool.not_eq_true'] at allowed
    have budget : picker.pending.length + (pullPlan env picker).fetchBudget ≤
        picker.pullPolicy.hi := by
      have plan : pullPlan env picker = picker.pullPolicy.planPull picker.pendingCount := by
        simp [pullPlan, flexible]
      rw [plan] at allowed ⊢
      exact planPull_budget picker.pullPolicy picker.pendingCount allowed.1
    split
    · unfold fetchIntoPending
      split
      · exact still
      · dsimp only [readBatch]
        split
        · exact readBatchNonblocking_bound _ _ _ bound budget allowed.2
        · exact readBatchBlocking_bound _ _ _ _ bound budget allowed.2
    · exact still
  · exact still

theorem roundPost_bound {largest : Nat} (env : RoundEnv) (ctrl : TaskController) (rs : RoundStat)
    (bound : QueueBound lim largest picker) :
    QueueBound lim largest (roundPost lim env picker ctrl rs).picker := by
  have renamed : ∀ {p : JMActPicker} (policy : PostPolicy), QueueBound lim largest p →
      QueueBound lim largest { p with postPolicy := policy } := by
    intro p policy bound
    exact ⟨bound.policy, bound.count, bound.no_wrap, bound.bytes⟩
  unfold roundPost
  split
  · exact bound
  · split
    · rename_i policy _
      exact renamed policy bound
    · rename_i policy _
      dsimp only [postByPlan]
      split
      · exact renamed _ (handlePendingLoop_bound _ _ _ _ _ (renamed policy bound))
      · exact renamed policy bound

theorem roundPick_bound {largest : Nat} (env : RoundEnv) (flexible : env.fixedRate = false)
    (ctrl : TaskController) (bound : QueueBound lim largest picker) :
    QueueBound lim (max largest (largestBatch (roundPick lim env picker ctrl).fetched))
      (roundPick lim env picker ctrl).picker := by
  have pulled := roundPull_bound env flexible ctrl bound
  dsimp only [roundPick]
  split
  · exact pulled
  · exact roundPost_bound env _ _ pulled

end Pull

/-- The bound of a worker's queue, by the batches its source has returned. -/
def WorkerState.Bounded (lim : Limits) (w : WorkerState) : Prop :=
  QueueBound lim (largestBatch w.fetched) w.picker

theorem turn_bounded {cfg : WorkerConfig} {w w' : WorkerState} {env : LoopEnv}
    (flexible : env.fixedRate = false) (effect : TurnEffect cfg w env w')
    (bounded : w.Bounded cfg.lim) : w'.Bounded cfg.lim := by
  unfold WorkerState.Bounded at bounded ⊢
  cases effect with
  | idle picker fetched handed =>
    rw [picker, fetched]
    exact bounded
  | round picker fetched handed =>
    rw [picker, fetched, largestBatch_append]
    exact roundPick_bound env.toRoundEnv flexible _ bounded

/-- A loop that ends has made its last turn like any other. -/
theorem dispatchStep_error {cfg : WorkerConfig} {w : WorkerState} {env : LoopEnv} {final : WorkerEnd}
    (exited : dispatchStep cfg w env = .error final) : TurnEffect cfg w env final.state := by
  unfold dispatchStep WorkerState.endBurst at exited
  split at exited
  · split at exited
    · cases exited
      exact .idle rfl rfl rfl
    · cases exited
  · dsimp only at exited
    split at exited
    · cases exited
      exact .idle rfl rfl rfl
    · split at exited
      · cases exited
        exact .round rfl rfl rfl
      · split at exited
        · cases exited
          exact .round rfl rfl rfl
        · split at exited
          · split at exited
            · cases exited
              exact .round rfl rfl rfl
            · cases exited
          · cases exited

/-- What the invariant says in the numbers of the configuration. -/
theorem QueueBound.limits {raw : Limits} {largest : Nat} {p : JMActPicker}
    (bound : QueueBound raw.normalize largest p) :
    p.pending.length ≤ 3 * raw.normalize.pickerBurstMax + 1 ∧
      p.pendingBytes < raw.normalize.pickerPendingMaxBytes + largest := by
  have burst : 1 ≤ raw.normalize.pickerBurstMax := Nat.le_max_right ..
  have hi : p.pullPolicy.hi ≤ 3 * raw.normalize.pickerBurstMax := by
    rw [bound.policy]
    simp only [PullPolicy.new, saturatingMul, pickerPullLoMultiplier, pickerPullHiMultiplier]
    omega
  constructor
  · rcases bound.count with below | ⟨above, -⟩
    · omega
    · omega
  · by_cases fits : raw.normalize.pickerPendingMaxBytes + largest ≤ usizeMax
    · exact (bound.bytes fits).2
    · have kept := bound.no_wrap
      omega

theorem start_bounded (cfg : WorkerConfig) (positive : 0 < cfg.lim.pickerPendingMaxBytes) :
    (WorkerState.start cfg).Bounded cfg.lim := by
  constructor
  · rfl
  · left
    simp [WorkerState.start, JMActPicker.new]
  · simp [WorkerState.start, JMActPicker.new]
  · intro _
    constructor
    · rfl
    · simp only [WorkerState.start, JMActPicker.new]
      omega

/-- Without a fixed rate the pending queue stays within three bursts and one batch, and its bytes
    below the cap and the largest fetched batch: between the turns, after the fetch of a turn and
    when the loop ends. -/
theorem pending_queue_is_bounded (raw : Limits) (cfg : WorkerConfig)
    (limits : cfg.lim = raw.normalize) (envs : List LoopEnv)
    (flexible : ∀ env ∈ envs, env.fixedRate = false) (w : WorkerState)
    (reached : envs.foldlM (dispatchStep cfg) (WorkerState.start cfg) = .ok w) :
    let bounded := fun (picker : JMActPicker) (fetched : List SourceBatch) =>
      picker.pending.length ≤ 3 * cfg.lim.pickerBurstMax + 1 ∧
        picker.pendingBytes < cfg.lim.pickerPendingMaxBytes + largestBatch fetched
    bounded w.picker w.fetched ∧
      ∀ env : LoopEnv, env.fixedRate = false →
        bounded (roundPull cfg.lim env.toRoundEnv w.picker (pollCmdNow env w.taskCtrl)).picker
          (w.fetched ++
            (roundPull cfg.lim env.toRoundEnv w.picker (pollCmdNow env w.taskCtrl)).fetched) ∧
        ∀ final, dispatchStep cfg w env = .error final →
          bounded final.state.picker final.state.fetched := by
  intro bounded
  have positive : 0 < cfg.lim.pickerPendingMaxBytes := by
    rw [limits]
    simp only [Limits.normalize]
    omega
  have inv : w.Bounded cfg.lim := by
    refine Runs.foldlM_ok_invariant (WorkerState.Bounded cfg.lim) envs ?_ _ w
      (start_bounded cfg positive) reached
    intro s env member t before ok
    exact turn_bounded (flexible env member) (dispatchStep_ok ok) before
  have numbers : ∀ (picker : JMActPicker) (fetched : List SourceBatch),
      QueueBound cfg.lim (largestBatch fetched) picker → bounded picker fetched := by
    intro picker fetched bound
    rw [limits] at bound
    have inside := bound.limits
    rw [← limits] at inside
    exact inside
  refine ⟨numbers _ _ inv, ?_⟩
  intro env plain
  constructor
  · apply numbers
    rw [largestBatch_append]
    exact roundPull_bound env.toRoundEnv plain _ inv
  · intro final exited
    exact numbers _ _ (turn_bounded plain (dispatchStep_error exited) inv)

/-- The smallest limits a configuration can have. -/
def smallestConfig : WorkerConfig := { unlimitedConfig with lim := ⟨1, 1, 1, 1024⟩ }

/-- The source returns a batch of two events, the channel is full. -/
def pairTurn : LoopEnv := quietTurn [.received [oneEvent, oneEvent], .deadline] .full

/-- The first batch is split and put back, the second waits behind it. -/
theorem pending_queue_behind_full_channel :
    ∃ w, [pairTurn, pairTurn].foldlM (dispatchStep smallestConfig)
        (WorkerState.start smallestConfig) = .ok w ∧
      w.picker.pending.length = 3 ∧
      w.picker.pending.length ≤ 3 * smallestConfig.lim.pickerBurstMax + 1 := by
  refine ⟨_, rfl, rfl, ?_⟩
  exact (pending_queue_is_bounded ⟨0, 0, 0, 0⟩ smallestConfig (by decide) [pairTurn, pairTurn]
    (by simp [pairTurn, quietTurn]) _ rfl).1.1

end WarpMotor
