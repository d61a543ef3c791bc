import WarpMotor.Sink.Conservation

/-!
The accounts of a sink in drop mode. Every submitted item is in one of three
places: a call that a backend took, a drop counter, or the buffer. The number
followed through every function is the sum of the three; a send raises it by
what it was given. No function throws here, whatever the backend answers, so a
segment is never left half sent. A call is made only after the breaker was
asked, and the clock does not run backwards in between.
-/
namespace WarpMotor

/-- The breaker was closed at the time of the call. -/
def SinkCall.BreakerClosed {M : Type} (call : SinkCall M) : Prop :=
  ∀ retryAt, call.retryAt = some retryAt → ¬ call.time < retryAt

namespace SinkState
variable {M : Type}

def delivered (s : SinkState M) : Nat := (s.accepted.map SinkPayload.size).sum

/-- `record_failed_drop` and `record_skipped_drop` together. -/
def dropped (s : SinkState M) : Nat := (s.drops.map DropRecord.count).sum

def settled (s : SinkState M) : Nat := s.delivered + s.dropped

structure Dropping (s : SinkState M) : Prop where
  drops : s.rt.dropWhenError = true
  quiet : ∀ call ∈ s.calls, call.BreakerClosed

/-- A change that neither the accounts nor the breaker see. -/
structure SameAccounts (s s' : SinkState M) : Prop where
  calls : s'.calls = s.calls
  drops : s'.drops = s.drops
  dropWhenError : s'.rt.dropWhenError = s.rt.dropWhenError

theorem SameAccounts.settled {s s' : SinkState M} (same : SameAccounts s s') :
    s'.settled = s.settled := by
  have taken : s'.accepted = s.accepted := accepted_of_calls same.calls
  simp only [SinkState.settled, delivered, dropped, taken, same.drops]

theorem SameAccounts.dropping {s s' : SinkState M} (same : SameAccounts s s')
    (dropping : s.Dropping) : s'.Dropping := by
  constructor
  · rw [same.dropWhenError]
    exact dropping.drops
  · rw [same.calls]
    exact dropping.quiet

theorem recordSendSuccess_accounts (s : SinkState M) : SameAccounts s s.recordSendSuccess := by
  unfold recordSendSuccess
  dsimp only
  split <;> exact ⟨rfl, rfl, rfl⟩

/-- `r` ended well, settled `count` more items and left the buffer alone. -/
structure Settles (s : SinkState M) (r : SinkResult M Unit) (count : Nat) : Prop where
  ok : r.2 = .ok ()
  settled : r.1.settled = s.settled + count
  pending : r.1.rt.pendingRecords = s.rt.pendingRecords
  dropping : r.1.Dropping

theorem recordFailedDrop_settled (s : SinkState M) (count : Nat) :
    (s.recordFailedDrop count).settled = s.settled + count := by
  unfold recordFailedDrop
  split
  · omega
  · simp only [SinkState.settled, delivered, accepted, dropped, List.map_append, List.sum_append,
      List.map_cons, List.map_nil, List.sum_cons, List.sum_nil, DropRecord.count]
    omega

theorem recordSkippedDrop_settled (s : SinkState M) (count : Nat) :
    (s.recordSkippedDrop count).settled = s.settled + count := by
  unfold recordSkippedDrop
  split
  · omega
  · simp only [SinkState.settled, delivered, accepted, dropped, List.map_append, List.sum_append,
      List.map_cons, List.map_nil, List.sum_cons, List.sum_nil, DropRecord.count]
    omega

theorem recordFailedDrop_keeps (s : SinkState M) (count : Nat) :
    (s.recordFailedDrop count).rt = s.rt ∧ (s.recordFailedDrop count).calls = s.calls := by
  unfold recordFailedDrop
  split <;> exact ⟨rfl, rfl⟩

theorem recordSkippedDrop_keeps (s : SinkState M) (count : Nat) :
    (s.recordSkippedDrop count).rt = s.rt ∧ (s.recordSkippedDrop count).calls = s.calls := by
  unfold recordSkippedDrop
  split <;> exact ⟨rfl, rfl⟩

section Env
variable (env : SinkEnv M)

/-- The breaker is closed for every call from the present tick on. -/
def Admitted (s : SinkState M) : Prop :=
  ∀ retryAt, s.rt.health.retryAt = some retryAt → ¬ env.now s.tick < retryAt

/-- The answer of the breaker stays true until the call that follows it. -/
theorem shouldSkipSend_admits {s s' : SinkState M} (drops : s.rt.dropWhenError = true)
    (asked : s.shouldSkipSend env = (s', false)) :
    s' = { s with tick := s.tick + 1 } ∧ Admitted env s' := by
  unfold shouldSkipSend at asked
  rw [if_pos drops] at asked
  obtain ⟨rfl, closed⟩ := Prod.mk.inj asked
  refine ⟨rfl, ?_⟩
  intro retryAt waiting open_
  have later : env.now s.tick ≤ env.now (s.tick + 1) := env.now_mono (Nat.le_succ s.tick)
  have waiting₀ : s.rt.health.retryAt = some retryAt := waiting
  simp only [SinkHealth.isOpen, waiting₀, decide_eq_false_iff_not] at closed
  exact closed (Nat.lt_of_le_of_lt later open_)

theorem shouldSkipSend_skips {s s' : SinkState M} {skipped : Bool}
    (asked : s.shouldSkipSend env = (s', skipped)) :
    s'.rt = s.rt ∧ s'.calls = s.calls ∧ s'.drops = s.drops := by
  unfold shouldSkipSend at asked
  split at asked <;> (obtain ⟨rfl, -⟩ := Prod.mk.inj asked; exact ⟨rfl, rfl, rfl⟩)

theorem callPrimary_quiet {s : SinkState M} (payload : SinkPayload M)
    (quiet : ∀ call ∈ s.calls, call.BreakerClosed) (admitted : Admitted env s) :
    ∀ call ∈ (s.callPrimary env payload).1.calls, call.BreakerClosed := by
  intro call member
  simp only [callPrimary, List.mem_append, List.mem_singleton] at member
  rcases member with before | rfl
  · exact quiet call before
  · exact admitted

theorem callPrimary_drops {s s' : SinkState M} {payload : SinkPayload M}
    {result : Except SinkError Unit} (answer : s.callPrimary env payload = (s', result)) :
    s'.drops = s.drops := by
  unfold callPrimary at answer
  obtain ⟨rfl, -⟩ := Prod.mk.inj answer
  rfl

/-- One attempt in drop mode: delivered, or counted as a failed drop. -/
theorem callPrimary_taken_settles {s s' : SinkState M} {payload : SinkPayload M}
    (dropping : s.Dropping) (admitted : Admitted env s)
    (answer : s.callPrimary env payload = (s', .ok ())) :
    s'.settled = s.settled + payload.size ∧ s'.rt = s.rt ∧ s'.Dropping := by
  have quiet := callPrimary_quiet env payload dropping.quiet admitted
  obtain ⟨rt, taken⟩ := callPrimary_accepted env answer
  have drops := callPrimary_drops env answer
  rw [answer] at quiet
  refine ⟨?_, rt, ?_, quiet⟩
  · simp only [SinkState.settled, delivered, dropped, taken, drops, List.map_append,
      List.sum_append, List.map_cons, List.map_nil, List.sum_cons, List.sum_nil]
    omega
  · rw [rt]
    exact dropping.drops

theorem callPrimary_refused_settles {s s' : SinkState M} {payload : SinkPayload M} {e : SinkError}
    (dropping : s.Dropping) (admitted : Admitted env s)
    (answer : s.callPrimary env payload = (s', .error e)) :
    s'.settled = s.settled ∧ s'.rt = s.rt ∧ s'.Dropping := by
  have quiet := callPrimary_quiet env payload dropping.quiet admitted
  obtain ⟨rt, untaken, -⟩ := callPrimary_refused env answer
  have drops := callPrimary_drops env answer
  rw [answer] at quiet
  refine ⟨?_, rt, ?_, quiet⟩
  · simp only [SinkState.settled, delivered, dropped, untaken, drops]
  · rw [rt]
    exact dropping.drops

/-- A failure in drop mode: the breaker backs off and the whole call is counted. -/
theorem failedDrop_settles (count : Nat) {s : SinkState M} (dropping : s.Dropping) :
    ((s.healthFailure env).recordFailedDrop count).settled = s.settled + count ∧
      ((s.healthFailure env).recordFailedDrop count).rt.pendingRecords = s.rt.pendingRecords ∧
      ((s.healthFailure env).recordFailedDrop count).Dropping := by
  obtain ⟨rt, calls⟩ := recordFailedDrop_keeps (s.healthFailure env) count
  refine ⟨recordFailedDrop_settled _ count, by rw [rt]; rfl, ?_, ?_⟩
  · rw [rt]
    exact dropping.drops
  · rw [calls]
    exact dropping.quiet

/-- A skipped call is counted as a whole. -/
theorem skippedDrop_settles (count : Nat) {s s' : SinkState M} (dropping : s.Dropping)
    (asked : s.shouldSkipSend env = (s', true)) :
    (s'.recordSkippedDrop count).settled = s.settled + count ∧
      (s'.recordSkippedDrop count).rt.pendingRecords = s.rt.pendingRecords ∧
      (s'.recordSkippedDrop count).Dropping := by
  obtain ⟨rt, calls, drops⟩ := shouldSkipSend_skips env asked
  obtain ⟨rt', calls'⟩ := recordSkippedDrop_keeps s' count
  have same : SameAccounts s s' := ⟨calls, drops, by rw [rt]⟩
  refine ⟨?_, by rw [rt', rt], ?_, ?_⟩
  · rw [recordSkippedDrop_settled, same.settled]
  · rw [rt']
    exact (same.dropping dropping).drops
  · rw [calls']
    exact (same.dropping dropping).quiet

/-- A statistics step counts no drop either. -/
structure StatQuiet (f : SinkState M → SinkState M) : Prop extends StatOnly f where
  drops : ∀ s, (f s).drops = s.drops

theorem StatQuiet.accounts {f : SinkState M → SinkState M} (quiet : StatQuiet f)
    (s : SinkState M) : SameAccounts s (f s) :=
  ⟨quiet.calls s, quiet.drops s, by rw [quiet.rt]⟩

/-- The loop of the batch senders ends at its first attempt in drop mode. -/
theorem sendLoop_settles (ctx : SendCtx) (payload : SinkPayload M)
    {statDone : SinkState M → SinkState M} (onThrow : SinkState M → SinkState M)
    (statQuiet : StatQuiet statDone) (budget : Nat) {s : SinkState M} (dropping : s.Dropping)
    (admitted : Admitted env s) :
    Settles s (s.sendLoop env ctx payload statDone onThrow (budget + 1)) payload.size := by
  unfold sendLoop
  cases answer : s.callPrimary env payload with
  | mk s₁ result =>
    cases result with
    | ok _ =>
      obtain ⟨settled, rt, dropping₁⟩ := callPrimary_taken_settles env dropping admitted answer
      have ended := statQuiet.accounts s₁
      have success := recordSendSuccess_accounts (statDone s₁)
      refine ⟨rfl, ?_, ?_, success.dropping (ended.dropping dropping₁)⟩
      · rw [success.settled, ended.settled, settled]
      · rw [(recordSendSuccess_buffer _).pendingRecords, statQuiet.rt, rt]
    | error e =>
      obtain ⟨unsettled, rt, dropping₁⟩ := callPrimary_refused_settles env dropping admitted answer
      obtain ⟨settled, pending, dropping₂⟩ := failedDrop_settles env payload.size dropping₁
      have handled : s₁.handleSendError env ctx e payload.size =
          ((s₁.healthFailure env).recordFailedDrop payload.size, .ok .consume) := by
        unfold handleSendError
        rw [if_pos dropping₁.drops]
      simp only [handled]
      have ended := statQuiet.accounts ((s₁.healthFailure env).recordFailedDrop payload.size)
      refine ⟨rfl, ?_, ?_, ended.dropping dropping₂⟩
      · rw [ended.settled, settled, unsettled]
      · rw [statQuiet.rt, pending, rt]

theorem dropBatchIfOpen_skips {s s₁ : SinkState M} {count : Nat} (dropping : s.Dropping)
    (asked : s.dropBatchIfOpen env count = (s₁, true)) :
    s₁.settled = s.settled + count ∧ s₁.rt.pendingRecords = s.rt.pendingRecords ∧ s₁.Dropping := by
  unfold dropBatchIfOpen at asked
  cases skip : s.shouldSkipSend env with
  | mk s₀ skipped =>
    rw [skip] at asked
    cases skipped with
    | false => cases asked
    | true =>
      obtain ⟨rfl, -⟩ := Prod.mk.inj asked
      exact skippedDrop_settles env count dropping skip

theorem dropBatchIfOpen_admits {s s₁ : SinkState M} {count : Nat} (dropping : s.Dropping)
    (asked : s.dropBatchIfOpen env count = (s₁, false)) :
    s₁ = { s with tick := s.tick + 1 } ∧ Admitted env s₁ := by
  unfold dropBatchIfOpen at asked
  cases skip : s.shouldSkipSend env with
  | mk s₀ skipped =>
    rw [skip] at asked
    cases skipped with
    | true => cases asked
    | false =>
      obtain ⟨rfl, -⟩ := Prod.mk.inj asked
      exact shouldSkipSend_admits env dropping.drops skip

/-- The frame that both batch senders share: ask the breaker, then skip or enter the loop. -/
theorem guardedBatch_settles (ctx : SendCtx) (payload : SinkPayload M)
    (statBegin statDone onThrow : SinkState M → SinkState M)
    (beginQuiet : StatQuiet statBegin) (doneQuiet : StatQuiet statDone)
    (keepsTick : ∀ s, (statBegin s).tick = s.tick) {s : SinkState M} (dropping : s.Dropping) :
    Settles s (match s.dropBatchIfOpen env payload.size with
      | (s, true) => (statDone (statBegin s), .ok ())
      | (s, false) => (statBegin s).sendLoop env ctx payload statDone onThrow 2) payload.size := by
  cases asked : s.dropBatchIfOpen env payload.size with
  | mk s₁ skipped =>
    cases skipped with
    | true =>
      obtain ⟨settled, pending, dropping₁⟩ := dropBatchIfOpen_skips env dropping asked
      have begun := beginQuiet.accounts s₁
      have ended := doneQuiet.accounts (statBegin s₁)
      refine ⟨rfl, ?_, ?_, ended.dropping (begun.dropping dropping₁)⟩
      · rw [ended.settled, begun.settled, settled]
      · rw [doneQuiet.rt, beginQuiet.rt, pending]
    | false =>
      obtain ⟨rfl, admitted⟩ := dropBatchIfOpen_admits env dropping asked
      have waited : SameAccounts s { s with tick := s.tick + 1 } := ⟨rfl, rfl, rfl⟩
      have begun := beginQuiet.accounts { s with tick := s.tick + 1 }
      have admitted₁ : Admitted env (statBegin { s with tick := s.tick + 1 }) := by
        intro retryAt waiting
        rw [beginQuiet.rt] at waiting
        rw [keepsTick]
        exact admitted retryAt waiting
      have sent := sendLoop_settles env ctx payload onThrow doneQuiet 1
        (begun.dropping (waited.dropping dropping)) admitted₁
      refine ⟨sent.ok, ?_, ?_, sent.dropping⟩
      · rw [sent.settled, begun.settled, waited.settled]
      · rw [sent.pending, beginQuiet.rt]

theorem sendRecordsBatch_settles (ctx : SendCtx) (records : List DataRecord) (batchMeta : M)
    (requeue : Bool) {s : SinkState M} (dropping : s.Dropping) :
    Settles s (s.sendRecordsBatch env ctx records batchMeta requeue) records.length := by
  unfold sendRecordsBatch
  split
  · rename_i empty
    rw [List.isEmpty_iff] at empty
    exact ⟨rfl, by simp [empty], rfl, dropping⟩
  · exact guardedBatch_settles env ctx (recordsPayload env records batchMeta)
      (statBegRecordsBatch records) (statEndRecordsBatch records) _
      ⟨⟨fun _ => rfl, fun _ => rfl⟩, fun _ => rfl⟩ ⟨⟨fun _ => rfl, fun _ => rfl⟩, fun _ => rfl⟩
      (fun _ => rfl) dropping

theorem sendTextBatch_settles (ctx : SendCtx) (texts : List String) {s : SinkState M}
    (dropping : s.Dropping) :
    Settles s (s.sendTextBatch env ctx texts) texts.length := by
  unfold sendTextBatch
  split
  · rename_i empty
    rw [List.isEmpty_iff] at empty
    exact ⟨rfl, by simp [empty], rfl, dropping⟩
  · exact guardedBatch_settles env ctx (.strBatch texts)
      (packageStatsBegin texts.length) (packageStatsEnd texts.length) _
      ⟨⟨fun _ => rfl, fun _ => rfl⟩, fun _ => rfl⟩ ⟨⟨fun _ => rfl, fun _ => rfl⟩, fun _ => rfl⟩
      (fun _ => rfl) dropping

/-- The items a sink has been given and still knows of. -/
def accounted (s : SinkState M) : Nat := s.settled + s.rt.pendingRecords.length

/-- `r` ended well and took `count` items into the accounts. -/
structure Accounts (s : SinkState M) (r : SinkResult M Unit) (count : Nat) : Prop where
  ok : r.2 = .ok ()
  balance : r.1.accounted = s.accounted + count
  dropping : r.1.Dropping

theorem Settles.accounts {s : SinkState M} {r : SinkResult M Unit} {count : Nat}
    (settles : Settles s r count) : Accounts s r count := by
  refine ⟨settles.ok, ?_, settles.dropping⟩
  simp only [accounted, settles.settled, settles.pending]
  omega

theorem flushPendingBuffer_accounts (ctx : SendCtx) {s : SinkState M} (dropping : s.Dropping) :
    Accounts s (s.flushPendingBuffer env ctx) 0 := by
  unfold flushPendingBuffer
  split
  · exact ⟨rfl, rfl, dropping⟩
  · have sent := sendRecordsBatch_settles env ctx s.rt.pendingRecords s.rt.pendingMeta true
      (s := { s with rt := { s.rt with pendingRecords := [], pendingMeta := env.api.default } })
      ⟨dropping.drops, dropping.quiet⟩
    refine ⟨sent.ok, ?_, sent.dropping⟩
    -- what leaves the buffer is settled in the same call
    rw [accounted, sent.settled, sent.pending]
    rfl

theorem bufferSegment_accounts (ctx : SendCtx) (records : List DataRecord) (batchMeta : M)
    {s : SinkState M} (dropping : s.Dropping) :
    Accounts s (s.bufferSegment env ctx records batchMeta) records.length := by
  unfold bufferSegment
  split
  · exact (sendRecordsBatch_settles env ctx records batchMeta false dropping).accounts
  · dsimp only
    have extended : ∀ keep, { s with rt := { s.rt with
        pendingMeta := keep, pendingRecords := s.rt.pendingRecords ++ records } }.accounted =
          s.accounted + records.length := by
      intro keep
      have settled : { s with rt := { s.rt with
          pendingMeta := keep, pendingRecords := s.rt.pendingRecords ++ records } }.settled =
            s.settled := rfl
      simp only [accounted, settled, List.length_append]
      omega
    split
    · have flushed := flushPendingBuffer_accounts env ctx (s := { s with rt := { s.rt with
        pendingMeta := if s.rt.pendingRecords.isEmpty then batchMeta else s.rt.pendingMeta
        pendingRecords := s.rt.pendingRecords ++ records } }) ⟨dropping.drops, dropping.quiet⟩
      refine ⟨flushed.ok, ?_, flushed.dropping⟩
      rw [flushed.balance, extended]
      omega
    · exact ⟨rfl, extended _, dropping.drops, dropping.quiet⟩

/-- A single item is skipped, delivered or counted at the first attempt. -/
theorem sendOneLoop_settles (ctx : SendCtx) (data : SinkDataEnum) (budget : Nat) {s : SinkState M}
    (dropping : s.Dropping) :
    Settles s (s.sendOneLoop env ctx data (budget + 1)) 1 := by
  have beginQuiet : StatQuiet (statBeg (M := M) data) :=
    ⟨⟨fun _ => rfl, fun _ => rfl⟩, fun _ => rfl⟩
  have endQuiet : StatQuiet (statEnd (M := M) data) :=
    ⟨⟨fun _ => rfl, fun _ => rfl⟩, fun _ => rfl⟩
  have single : (dataPayload env data).size = 1 := by
    cases data <;> rfl
  unfold sendOneLoop
  cases asked : s.shouldSkipSend env with
  | mk s₁ skipped =>
    cases skipped with
    | true =>
      obtain ⟨settled, pending, dropping₁⟩ := skippedDrop_settles env 1 dropping asked
      have begun := beginQuiet.accounts (s₁.recordSkippedDrop 1)
      have ended := endQuiet.accounts ((s₁.recordSkippedDrop 1).statBeg data)
      refine ⟨rfl, ?_, ?_, ended.dropping (begun.dropping dropping₁)⟩
      · rw [ended.settled, begun.settled, settled]
      · rw [endQuiet.rt, beginQuiet.rt, pending]
    | false =>
      obtain ⟨rfl, admitted⟩ := shouldSkipSend_admits env dropping.drops asked
      have begun : SameAccounts s ({ s with tick := s.tick + 1 }.statBeg data) := ⟨rfl, rfl, rfl⟩
      have dropping₁ := begun.dropping dropping
      have admitted₁ : Admitted env ({ s with tick := s.tick + 1 }.statBeg data) := admitted
      dsimp only
      cases answer : ({ s with tick := s.tick + 1 }.statBeg data).callPrimary env
        (dataPayload env data) with
      | mk s₂ result =>
        cases result with
        | ok _ =>
          obtain ⟨settled, rt, dropping₂⟩ :=
            callPrimary_taken_settles env dropping₁ admitted₁ answer
          have success := recordSendSuccess_accounts s₂
          have ended := endQuiet.accounts s₂.recordSendSuccess
          refine ⟨rfl, ?_, ?_, ended.dropping (success.dropping dropping₂)⟩
          · rw [ended.settled, success.settled, settled, begun.settled, single]
          · rw [endQuiet.rt, (recordSendSuccess_buffer s₂).pendingRecords, rt]
            rfl
        | error e =>
          obtain ⟨unsettled, rt, dropping₂⟩ :=
            callPrimary_refused_settles env dropping₁ admitted₁ answer
          obtain ⟨settled, pending, dropping₃⟩ := failedDrop_settles env 1 dropping₂
          have ended := endQuiet.accounts ((s₂.healthFailure env).recordFailedDrop 1)
          dsimp only
          rw [if_pos dropping₂.drops]
          refine ⟨rfl, ?_, ?_, ended.dropping dropping₃⟩
          · rw [ended.settled, settled, unsettled, begun.settled]
          · rw [endQuiet.rt, pending, rt]
            rfl

theorem sendStatTo_accounts (mon : Bool) (s : SinkState M) :
    SameAccounts s (s.sendStatTo env mon).1 := by
  unfold sendStatTo
  split
  · unfold sendStat
    split
    · exact ⟨rfl, rfl, rfl⟩
    · split <;> exact ⟨rfl, rfl, rfl⟩
  · exact ⟨rfl, rfl, rfl⟩

/-- The report to the monitor may fail; the item is accounted for before it. -/
theorem sendToSink_balance (ctx : SendCtx) (data : SinkDataEnum) {s : SinkState M}
    (dropping : s.Dropping) :
    (s.sendToSink env ctx data).1.accounted = s.accounted + 1 ∧
      (s.sendToSink env ctx data).1.Dropping := by
  have sent := (sendOneLoop_settles env ctx data 1 dropping).accounts
  unfold sendToSink
  cases outcome : s.sendOneLoop env ctx data 2 with
  | mk s₁ result =>
    rw [outcome] at sent
    cases result with
    | error e => cases sent.ok
    | ok _ =>
      have same := sendStatTo_accounts env ctx.mon s₁
      have balance : s₁.accounted = s.accounted + 1 := sent.balance
      refine ⟨?_, same.dropping sent.dropping⟩
      dsimp only
      rw [accounted, same.settled, sendStatTo_rt]
      exact balance

variable [DecidableEq M]

theorem sendRecordSegment_accounts (ctx : SendCtx) (records : List DataRecord) (batchMeta : M)
    {s : SinkState M} (dropping : s.Dropping) :
    Accounts s (s.sendRecordSegment env ctx records batchMeta) records.length := by
  unfold sendRecordSegment
  split
  · rename_i empty
    rw [List.isEmpty_iff] at empty
    exact ⟨rfl, by simp [empty], dropping⟩
  · split
    · have flushed := flushPendingBuffer_accounts env ctx dropping
      cases outcome : s.flushPendingBuffer env ctx with
      | mk s₁ result =>
        rw [outcome] at flushed
        cases result with
        | error e => cases flushed.ok
        | ok _ =>
          have buffered := bufferSegment_accounts env ctx records batchMeta flushed.dropping
          refine ⟨buffered.ok, ?_, buffered.dropping⟩
          have balance : s₁.accounted = s.accounted := flushed.balance
          rw [buffered.balance, balance]
    · exact bufferSegment_accounts env ctx records batchMeta dropping

/-- Induction on the units left; the open segment is submitted but not yet in the accounts. -/
theorem sendMixedMetaPackage_accounts (ctx : SendCtx) (package : SinkPackage)
    (records : List DataRecord) (batchMeta : M) {s : SinkState M} (dropping : s.Dropping) :
    Accounts s (s.sendMixedMetaPackage env ctx package records batchMeta)
      (records.length + package.length) := by
  induction package generalizing records batchMeta s with
  | nil => exact sendRecordSegment_accounts env ctx records batchMeta dropping
  | cons unit rest ih =>
    unfold sendMixedMetaPackage
    dsimp only
    split
    · have segment := sendRecordSegment_accounts env ctx records batchMeta dropping
      cases outcome : s.sendRecordSegment env ctx records batchMeta with
      | mk s₁ result =>
        rw [outcome] at segment
        cases result with
        | error e => cases segment.ok
        | ok _ =>
          have left := ih [unit.data]
            (SinkRuntime.unitBatchMeta env.api s.rt.outputDisabled unit.procMeta) segment.dropping
          refine ⟨left.ok, ?_, left.dropping⟩
          have balance : s₁.accounted = s.accounted + records.length := segment.balance
          simp only [left.balance, balance, List.length_cons, List.length_nil]
          omega
    · have left := ih (records ++ [unit.data]) batchMeta dropping
      refine ⟨left.ok, ?_, left.dropping⟩
      simp only [left.balance, List.length_append, List.length_cons, List.length_nil]
      omega

theorem sendPackageFrom_accounts (ctx : SendCtx) (package : SinkPackage)
    (records : List DataRecord) (segmentMeta : Option M) {s : SinkState M}
    (dropping : s.Dropping) :
    Accounts s (s.sendPackageFrom env ctx package records segmentMeta)
      (records.length + package.length) := by
  induction package generalizing records segmentMeta with
  | nil => exact sendRecordSegment_accounts env ctx records _ dropping
  | cons unit rest ih =>
    have longer : (records ++ [unit.data]).length + rest.length =
        records.length + (unit :: rest).length := by
      simp only [List.length_append, List.length_cons, List.length_nil]
      omega
    unfold sendPackageFrom
    cases segmentMeta with
    | none =>
      rw [← longer]
      exact ih (records ++ [unit.data]) _
    | some batchMeta =>
      dsimp only
      split
      · exact sendMixedMetaPackage_accounts env ctx (unit :: rest) records batchMeta dropping
      · rw [← longer]
        exact ih (records ++ [unit.data]) (some batchMeta)

theorem sendPackageToSink_accounts (ctx : SendCtx) (package : SinkPackage) {s : SinkState M}
    (dropping : s.Dropping) :
    Accounts s (s.sendPackageToSink env ctx package) package.length := by
  unfold sendPackageToSink
  split
  · rename_i empty
    rw [List.isEmpty_iff] at empty
    exact ⟨rfl, by simp [empty], dropping⟩
  · have sent := sendPackageFrom_accounts env ctx package [] none dropping
    rw [List.length_nil, Nat.zero_add] at sent
    exact sent

end Env
end SinkState

/-- What a worker asks of a sink in drop mode. -/
inductive DropOp where
  | sendOne (ctx : SendCtx) (data : SinkDataEnum)
  | sendPackage (ctx : SendCtx) (package : SinkPackage)
  | sendStrPackage (ctx : SendCtx) (package : List String)
  | sendFfvPackage (ctx : SendCtx) (package : List (List DataField))
  | flush (ctx : SendCtx)
  deriving DecidableEq, Repr

def DropOp.submitted : DropOp → Nat
  | .sendOne _ _ => 1
  | .sendPackage _ package => package.length
  | .sendStrPackage _ package => package.length
  | .sendFfvPackage _ package => package.length
  | .flush _ => 0

/-- The result of a call is left to the caller: an error does not end the sequence. -/
def SinkState.dropStep {M : Type} [DecidableEq M] (env : SinkEnv M) (s : SinkState M) :
    DropOp → SinkState M
  | .sendOne ctx data => (s.sendToSink env ctx data).1
  | .sendPackage ctx package => (s.sendPackageToSink env ctx package).1
  | .sendStrPackage ctx package => (s.sendStrPackageToSink env ctx package).1
  | .sendFfvPackage ctx package => (s.sendFfvPackageToSink env ctx package).1
  | .flush ctx => (s.flush env ctx).1

namespace SinkState
variable {M : Type} [DecidableEq M] (env : SinkEnv M)

theorem dropStep_accounts (s : SinkState M) (op : DropOp) (dropping : s.Dropping) :
    (s.dropStep env op).accounted = s.accounted + op.submitted ∧ (s.dropStep env op).Dropping := by
  cases op with
  | sendOne ctx data => exact sendToSink_balance env ctx data dropping
  | sendPackage ctx package =>
    have sent := sendPackageToSink_accounts env ctx package dropping
    exact ⟨sent.balance, sent.dropping⟩
  | sendStrPackage ctx package =>
    have sent := (sendTextBatch_settles env ctx package dropping).accounts
    exact ⟨sent.balance, sent.dropping⟩
  | sendFfvPackage ctx package =>
    have sent := (sendTextBatch_settles env ctx (package.map (renderRaw env)) dropping).accounts
    have balance := sent.balance
    rw [List.length_map] at balance
    exact ⟨balance, sent.dropping⟩
  | flush ctx =>
    have flushed := flushPendingBuffer_accounts env ctx dropping
    exact ⟨flushed.balance, flushed.dropping⟩

theorem dropRun_accounts (ops : List DropOp) (s : SinkState M) (dropping : s.Dropping) :
    (Runs.run (SinkState.dropStep env) s ops).accounted =
        s.accounted + (ops.map DropOp.submitted).sum ∧
      (Runs.run (SinkState.dropStep env) s ops).Dropping := by
  induction ops generalizing s with
  | nil => exact ⟨rfl, dropping⟩
  | cons op rest ih =>
    obtain ⟨balance, dropping₁⟩ := dropStep_accounts env s op dropping
    obtain ⟨balance', dropping'⟩ := ih (s.dropStep env op) dropping₁
    refine ⟨?_, dropping'⟩
    rw [Runs.run_cons, balance', balance, List.map_cons, List.sum_cons]
    omega

end SinkState

/-- After any calls, at any times and with any answers: the submitted items are those of accepted
    calls, those of the drop counters and those in the buffer, and no backend call was made while
    the breaker was open. -/
theorem drop_mode_accounts_for_every_record {M : Type} [DecidableEq M] (env : SinkEnv M)
    (conf : SinkConf) (dropMode : conf.dropWhenError = true) (sink : SinkBackend)
    (ops : List DropOp) :
    let s := Runs.run (SinkState.dropStep env) (SinkState.start env.api conf sink) ops
    (ops.map DropOp.submitted).sum =
        (s.accepted.map SinkPayload.size).sum + (s.drops.map DropRecord.count).sum +
          s.rt.pendingRecords.length ∧
      ∀ call ∈ s.calls, ∀ retryAt, call.retryAt = some retryAt → ¬ call.time < retryAt := by
  intro s
  have start : (SinkState.start env.api conf sink).Dropping := by
    refine ⟨dropMode, ?_⟩
    intro call member
    cases member
  obtain ⟨balance, dropping⟩ :=
    SinkState.dropRun_accounts env ops (SinkState.start env.api conf sink) start
  have empty : (SinkState.start env.api conf sink).accounted = 0 := rfl
  rw [empty, Nat.zero_add] at balance
  exact ⟨balance.symm, dropping.quiet⟩

/-- A buffered record, an outage that drops a package, a call skipped behind the breaker. -/
theorem drop_mode_accounts_for_an_outage :
    let conf : SinkConf := { fileSinkConf with batchSize := 2, dropWhenError := true }
    let s := Runs.run (SinkState.dropStep (plainEnv (fun _ => true)))
      (SinkState.start plainMetaApi conf (.real 7))
      [.sendPackage ⟨true, true⟩ [⟨1, .null, ⟨1, []⟩⟩], .sendStrPackage ⟨true, true⟩ ["a", "b"],
        .sendOne ⟨true, true⟩ (.raw "c")]
    4 = (s.accepted.map SinkPayload.size).sum + (s.drops.map DropRecord.count).sum +
      s.rt.pendingRecords.length := by
  intro conf s
  exact (drop_mode_accounts_for_every_record (plainEnv (fun _ => true)) conf rfl (.real 7)
    [.sendPackage ⟨true, true⟩ [⟨1, .null, ⟨1, []⟩⟩], .sendStrPackage ⟨true, true⟩ ["a", "b"],
      .sendOne ⟨true, true⟩ (.raw "c")]).1

end WarpMotor
