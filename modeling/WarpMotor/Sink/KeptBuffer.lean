import WarpMotor.Sink.Fill

/-!
What a failed flush leaves in the buffer. The buffer is taken out before the
send and put back where the error is thrown; the switch to the rescue file can
also fail, and that error leaves the flush with the buffer gone.
-/
namespace WarpMotor

namespace SinkState
variable {M : Type} (env : SinkEnv M)

/-- The switch to the rescue file fails: no rescue file is kept open and none can be created, or
    the monitor refuses one of the two reports that follow. `tick` is that of the first question. -/
def RescueRefused (mon : Bool) (retired : Option SinkBackend) (tick : Nat) : Prop :=
  (retired = none ∧ ∃ e, env.rescueOpen tick = .error e) ∨
  (mon = true ∧ ∃ e, env.monSend (if retired = none then tick + 1 else tick) = .error e ∨
    env.monSend (if retired = none then tick + 2 else tick + 1) = .error e)

/-- The next call fails, and then the switch to the rescue file. -/
def SwitchFails (ctx : SendCtx) (s : SinkState M) : Prop :=
  s.rt.dropWhenError = false ∧ s.rt.backupUsed = false ∧ ctx.bad = true ∧
  (∃ e, env.call s.tick s.rt.primary = .error e ∧ err4SendToSink env.mode e = .fixRetry) ∧
  RescueRefused env ctx.mon s.rt.retiredRescue (s.tick + 1)

def LosesBuffer (ctx : SendCtx) (s : SinkState M) : Prop :=
  s.rt.pendingRecords ≠ [] ∧ s.SwitchFails env ctx

/-- The buffer of `s'` is that of `s`. -/
def KeepsBuffer (s s' : SinkState M) : Prop :=
  s'.rt.pendingRecords = s.rt.pendingRecords ∧ s'.rt.pendingMeta = s.rt.pendingMeta

theorem sendStat_error_iff {s : SinkState M} (used : s.rt.backupUsed = true) :
    (∃ e, (s.sendStat env).2 = .error e) ↔
      ∃ e, env.monSend s.tick = .error e ∨ env.monSend (s.tick + 1) = .error e := by
  unfold sendStat
  cases first : env.monSend s.tick with
  | error e => exact ⟨fun _ => ⟨e, .inl rfl⟩, fun _ => ⟨e, rfl⟩⟩
  | ok _ => simp [used]

theorem swapBacksink_cases (s : SinkState M) :
    (∃ s' e, s.swapBacksink env = (s', .error e) ∧ s.rt.retiredRescue = none ∧
      env.rescueOpen s.tick = .error e) ∨
    (∃ s' old, s.swapBacksink env = (s', .ok old) ∧
      s'.tick = (if s.rt.retiredRescue = none then s.tick + 1 else s.tick) ∧
      (s.rt.retiredRescue = none → env.rescueOpen s.tick = .ok ())) := by
  unfold swapBacksink
  cases retired : s.rt.retiredRescue with
  | some rescue => exact .inr ⟨_, _, rfl, by simp, by rintro ⟨⟩⟩
  | none =>
    cases opened : env.rescueOpen s.tick with
    | error e => exact .inl ⟨_, e, rfl, rfl, rfl⟩
    | ok _ => exact .inr ⟨_, _, rfl, by simp, fun _ => rfl⟩

theorem useBackSink_error_iff (ctx : SendCtx) (s : SinkState M) :
    (∃ e, (s.useBackSink env ctx).2 = .error e) ↔
      RescueRefused env ctx.mon s.rt.retiredRescue s.tick := by
  unfold RescueRefused
  obtain ⟨s₁, e, swapped, retired, refused⟩ | ⟨s₁, old, swapped, tick, opened⟩ :=
    swapBacksink_cases env s
  · simp [useBackSink, swapped, retired, refused]
  · have ticks : (if s.rt.retiredRescue = none then s.tick + 2 else s.tick + 1) = s₁.tick + 1 := by
      rw [tick]
      split <;> omega
    have no_refusal : ¬ (s.rt.retiredRescue = none ∧ ∃ e, env.rescueOpen s.tick = .error e) := by
      rintro ⟨retired, e, refused⟩
      rw [opened retired] at refused
      cases refused
    rw [ticks, ← tick]
    have reports := sendStat_error_iff env
      (s := { s₁ with rt := { s₁.rt with backupUsed := true } }) rfl
    simp only [no_refusal, false_or, useBackSink, swapped, sendStatTo]
    cases mon : ctx.mon with
    | false => simp
    | true =>
      simp only [if_true, true_and]
      rw [← reports]
      cases sent : { s₁ with rt := { s₁.rt with backupUsed := true } }.sendStat env with
      | mk s₂ result => cases result <;> simp

/-- The only error of the handler is that of the switch to the rescue file. -/
theorem handleSendError_error_iff (ctx : SendCtx) (e : SinkError) (count : Nat) (s : SinkState M) :
    (∃ failure, (s.handleSendError env ctx e count).2 = .error failure) ↔
      s.rt.dropWhenError = false ∧ err4SendToSink env.mode e = .fixRetry ∧
        s.rt.backupUsed = false ∧ ctx.bad = true ∧
        RescueRefused env ctx.mon s.rt.retiredRescue s.tick := by
  rw [← useBackSink_error_iff]
  unfold handleSendError
  cases drops : s.rt.dropWhenError with
  | true => simp
  | false =>
    cases strategy : err4SendToSink env.mode e with
    | fixRetry =>
      cases used : s.rt.backupUsed with
      | true => simp
      | false =>
        cases bad : ctx.bad with
        | false => simp
        | true =>
          cases swapped : s.useBackSink env ctx with
          | mk s₁ result => cases result <;> simp
    | _ => simp

theorem callPrimary_spec (payload : SinkPayload M) (s : SinkState M) :
    (s.callPrimary env payload).2 = env.call s.tick s.rt.primary ∧
      (s.callPrimary env payload).1.rt = s.rt ∧
      (s.callPrimary env payload).1.tick = s.tick + 1 := ⟨rfl, rfl, rfl⟩

/-- How a loop comes to fail: its call fails, and the answer to the error is an error of its own,
    another attempt that fails, or the throw. -/
theorem sendLoop_failed {ctx : SendCtx} {payload : SinkPayload M}
    {statDone onThrow : SinkState M → SinkState M} {budget : Nat} {s s' : SinkState M}
    {e : SinkError}
    (failed : s.sendLoop env ctx payload statDone onThrow (budget + 1) = (s', .error e)) :
    ∃ s₁ e₁, s.callPrimary env payload = (s₁, .error e₁) ∧
      (s₁.handleSendError env ctx e₁ payload.size = (s', .error e) ∨
        (∃ s₂, s₁.handleSendError env ctx e₁ payload.size = (s₂, .ok .retry) ∧
          s₂.sendLoop env ctx payload statDone onThrow budget = (s', .error e)) ∨
        ∃ s₂, s' = onThrow s₂) := by
  rw [sendLoop] at failed
  cases called : s.callPrimary env payload with
  | mk s₁ answer =>
    rw [called] at failed
    cases answer with
    | ok _ => cases failed
    | error e₁ =>
      refine ⟨s₁, e₁, rfl, ?_⟩
      dsimp only at failed
      cases handled : s₁.handleSendError env ctx e₁ payload.size with
      | mk s₂ verdict =>
        rw [handled] at failed
        cases verdict with
        | error failure =>
          cases failed
          exact .inl rfl
        | ok verdict =>
          cases verdict with
          | retry => exact .inr (.inl ⟨s₂, rfl, failed⟩)
          | consume => cases failed
          | throw =>
            cases failed
            exact .inr (.inr ⟨s₂, rfl⟩)

/-- In the rescue state every error of the loop is thrown. -/
theorem sendLoop_rescue_throws (ctx : SendCtx) (payload : SinkPayload M)
    (statDone onThrow : SinkState M → SinkState M) (budget : Nat) {s s' : SinkState M}
    {e : SinkError} (used : s.rt.backupUsed = true)
    (failed : s.sendLoop env ctx payload statDone onThrow (budget + 1) = (s', .error e)) :
    ∃ s₁, s' = onThrow s₁ := by
  obtain ⟨s₁, e₁, called, answered⟩ := sendLoop_failed env failed
  have rt := (callPrimary_spec env payload s).2.1
  rw [called] at rt
  have used₁ : s₁.rt.backupUsed = true := by rw [rt, used]
  obtain refused | ⟨s₂, handled, -⟩ | thrown := answered
  · have live := ((handleSendError_error_iff env ctx e₁ payload.size s₁).mp
      ⟨e, by rw [refused]⟩).2.2.1
    rw [used₁] at live
    cases live
  · exact absurd handled (rescue_no_retry env used₁)
  · exact thrown

/-- An error of the loop is thrown, or comes from the switch to the rescue file. -/
theorem sendLoop_error_cases (ctx : SendCtx) (payload : SinkPayload M)
    (statDone onThrow : SinkState M → SinkState M) {s s' : SinkState M} {e : SinkError}
    (failed : s.sendLoop env ctx payload statDone onThrow 2 = (s', .error e)) :
    (∃ s₁, s' = onThrow s₁) ∨
      ∃ s₁ e₁, s.callPrimary env payload = (s₁, .error e₁) ∧
        s₁.handleSendError env ctx e₁ payload.size = (s', .error e) := by
  obtain ⟨s₁, e₁, called, refused | ⟨s₂, handled, again⟩ | thrown⟩ := sendLoop_failed env failed
  · exact .inr ⟨s₁, e₁, called, refused⟩
  · exact .inl (sendLoop_rescue_throws env ctx payload statDone onThrow 0
      (handleSendError_retry env handled).2 again)
  · exact .inl thrown

/-- The state in which the records of the buffer are sent. -/
def taken (s : SinkState M) : SinkState M :=
  ({ s with rt := { s.rt with pendingRecords := [], pendingMeta := env.api.default } }).statBegRecordsBatch
    s.rt.pendingRecords

/-- A flush outside drop mode: the buffer is taken out and sent, and put back on a throw. -/
theorem flush_of_rescue_mode (ctx : SendCtx) {s : SinkState M}
    (keeps : s.rt.dropWhenError = false) (nonempty : s.rt.pendingRecords ≠ []) :
    s.flush env ctx =
      (s.taken env).sendLoop env ctx (recordsPayload env s.rt.pendingRecords s.rt.pendingMeta)
        (statEndRecordsBatch s.rt.pendingRecords)
        (fun s₁ => (s₁.requeue true s.rt.pendingRecords s.rt.pendingMeta).statEndRecordsBatch
          s.rt.pendingRecords) 2 := by
  have some_record : s.rt.pendingRecords.isEmpty = false := by simpa using nonempty
  simp [flush, flushPendingBuffer, sendRecordsBatch, some_record, dropBatchIfOpen, shouldSkipSend,
    keeps, taken]

theorem sendLoop_drops (ctx : SendCtx) (payload : SinkPayload M)
    (statDone onThrow : SinkState M → SinkState M) (budget : Nat) {s : SinkState M}
    (drops : s.rt.dropWhenError = true) :
    ∃ s', s.sendLoop env ctx payload statDone onThrow (budget + 1) = (s', .ok ()) := by
  rw [sendLoop]
  have rt := (callPrimary_spec env payload s).2.1
  cases called : s.callPrimary env payload with
  | mk s₁ answer =>
    rw [called] at rt
    cases answer with
    | ok _ => exact ⟨_, rfl⟩
    | error e =>
      have drops₁ : s₁.rt.dropWhenError = true := by rw [rt, drops]
      simp only [handleSendError, drops₁, if_true]
      exact ⟨_, rfl⟩

theorem flush_of_drop_mode (ctx : SendCtx) {s : SinkState M} (drops : s.rt.dropWhenError = true) :
    ∃ s', s.flush env ctx = (s', .ok ()) := by
  unfold flush flushPendingBuffer
  split
  · exact ⟨_, rfl⟩
  · rename_i nonempty
    have some_record : s.rt.pendingRecords.isEmpty = false := by simpa using nonempty
    simp only [sendRecordsBatch, some_record, Bool.false_eq_true, if_false, dropBatchIfOpen,
      shouldSkipSend, drops, if_true]
    cases s.rt.health.isOpen (env.now s.tick) with
    | true => exact ⟨_, rfl⟩
    | false => exact sendLoop_drops env ctx _ _ _ 1 rfl

theorem flush_loses (ctx : SendCtx) {s : SinkState M} (loses : s.LosesBuffer env ctx) :
    ∃ s' e, s.flush env ctx = (s', .error e) ∧ s'.rt.pendingRecords = [] := by
  obtain ⟨nonempty, keeps, live, bad, ⟨e, failed, repairable⟩, refused⟩ := loses
  have called : (s.taken env).callPrimary env
      (recordsPayload env s.rt.pendingRecords s.rt.pendingMeta) =
        (((s.taken env).callPrimary env
          (recordsPayload env s.rt.pendingRecords s.rt.pendingMeta)).1, .error e) :=
    Prod.ext rfl failed
  generalize ((s.taken env).callPrimary env
    (recordsPayload env s.rt.pendingRecords s.rt.pendingMeta)).1 = s₁ at called
  have rt : s₁.rt = (s.taken env).rt := by
    rw [← (callPrimary_spec env _ (s.taken env)).2.1, called]
  have tick : s₁.tick = s.tick + 1 := by
    rw [← show (s.taken env).tick = s.tick from rfl,
      ← (callPrimary_spec env _ (s.taken env)).2.2, called]
  obtain ⟨failure, handled⟩ := (handleSendError_error_iff env ctx e
    (recordsPayload env s.rt.pendingRecords s.rt.pendingMeta).size s₁).mpr
      ⟨by rw [rt]; exact keeps, repairable, by rw [rt]; exact live, bad,
        by rw [rt, tick]; exact refused⟩
  have buffer := handleSendError_buffer env ctx e
    (recordsPayload env s.rt.pendingRecords s.rt.pendingMeta).size s₁
  refine ⟨(s₁.handleSendError env ctx e
    (recordsPayload env s.rt.pendingRecords s.rt.pendingMeta).size).1, failure, ?_, ?_⟩
  · rw [flush_of_rescue_mode env ctx keeps nonempty, sendLoop, called]
    cases outcome : s₁.handleSendError env ctx e
        (recordsPayload env s.rt.pendingRecords s.rt.pendingMeta).size with
    | mk s₂ verdict =>
      rw [outcome] at handled
      cases handled
      simp only [outcome]
  · rw [buffer.pendingRecords, rt]
    rfl

/-- A flush that fails leaves the buffer as it was, unless the switch to the rescue file is what
    failed. -/
theorem failed_flush_keeps_buffer_iff (ctx : SendCtx) (s : SinkState M) :
    (∀ s' e, s.flush env ctx = (s', .error e) → s.KeepsBuffer s') ↔ ¬ s.LosesBuffer env ctx := by
  constructor
  · intro keeps loses
    obtain ⟨s', e, failed, empty⟩ := flush_loses env ctx loses
    have same := (keeps s' e failed).1
    rw [empty] at same
    exact loses.1 same.symm
  · intro safe s' e failed
    by_cases nonempty : s.rt.pendingRecords = []
    · simp [flush, flushPendingBuffer, nonempty] at failed
    · cases keeps : s.rt.dropWhenError with
      | true =>
        obtain ⟨_, ended⟩ := flush_of_drop_mode env ctx keeps
        rw [ended] at failed
        cases failed
      | false =>
        rw [flush_of_rescue_mode env ctx keeps nonempty] at failed
        obtain ⟨s₁, rfl⟩ | ⟨s₁, e₁, called, handled⟩ := sendLoop_error_cases env ctx _ _ _ failed
        · exact ⟨rfl, rfl⟩
        · exfalso
          have answer := (callPrimary_spec env
            (recordsPayload env s.rt.pendingRecords s.rt.pendingMeta) (s.taken env)).1
          have rt := (callPrimary_spec env
            (recordsPayload env s.rt.pendingRecords s.rt.pendingMeta) (s.taken env)).2.1
          have tick := (callPrimary_spec env
            (recordsPayload env s.rt.pendingRecords s.rt.pendingMeta) (s.taken env)).2.2
          rw [called] at answer rt tick
          obtain ⟨-, repairable, live, bad, refused⟩ :=
            (handleSendError_error_iff env ctx e₁ _ s₁).mp ⟨e, by rw [handled]⟩
          rw [rt] at live refused
          rw [tick] at refused
          exact safe ⟨nonempty, keeps, live, bad, ⟨e₁, answer.symm, repairable⟩, refused⟩

end SinkState

/-- A broken backend, and no place for a rescue file. -/
def noRescueEnv : SinkEnv PlainMeta :=
  { plainEnv (fun _ => true) with rescueOpen := fun _ => .error ⟨.sink, none⟩ }

/-- A sink with one record in its buffer. -/
def oneBuffered : SinkState PlainMeta :=
  let s := SinkState.start plainMetaApi fileSinkConf (.real 0)
  { s with rt := { s.rt with pendingRecords := [⟨1, []⟩] } }

/-- The flush fails and the record is gone. -/
theorem failed_flush_loses_record :
    (oneBuffered.flush noRescueEnv ⟨true, false⟩).2 = .error ⟨.sink, none⟩ ∧
      oneBuffered.rt.pendingRecords = [⟨1, []⟩] ∧
      (oneBuffered.flush noRescueEnv ⟨true, false⟩).1.rt.pendingRecords = [] := by
  decide

end WarpMotor
