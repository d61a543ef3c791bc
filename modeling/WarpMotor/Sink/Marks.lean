import WarpMotor.Sink.KeptBuffer

/-!
What the collectors of a sink count: records begun and records finished. A
batch is begun and finished once for each of its records, whatever the
backend answers, unless the switch to the rescue file fails.
-/
namespace WarpMotor

def StatUnit.size : StatUnit → Nat
  | .units count => count
  | .target _ => 1

namespace SinkState
variable {M : Type}

/-- What a collector counts under one mark. -/
def marked (mark : StatMark) (slot : StatSlot) : List StatEvent → Nat
  | [] => 0
  | event :: rest =>
    (if event.mark = mark ∧ event.slot = slot then event.unit.size else 0) +
      marked mark slot rest

def counted (mark : StatMark) (slot : StatSlot) (s : SinkState M) : Nat := marked mark slot s.stats

def unitSizes : List StatUnit → Nat
  | [] => 0
  | unit :: rest => unit.size + unitSizes rest

section Env
variable (env : SinkEnv M)

theorem marked_append (mark : StatMark) (slot : StatSlot) (first second : List StatEvent) :
    marked mark slot (first ++ second) = marked mark slot first + marked mark slot second := by
  induction first with
  | nil => simp [marked]
  | cons event first ih => simp only [List.cons_append, marked, ih]; omega

theorem counted_statStart (units : List StatUnit) (s : SinkState M) (mark : StatMark)
    (slot : StatSlot) :
    (s.statStart units).counted mark slot = s.counted mark slot +
      if mark = .started ∧ (slot = .normal ∨ s.rt.backupUsed = true) then unitSizes units else 0 := by
  rw [counted, statStart, marked_append]
  refine congrArg (counted mark slot s + ·) ?_
  induction units with
  | nil => simp [marked, unitSizes]
  | cons unit units ih =>
    rw [List.flatMap_cons, marked_append, ih]
    cases used : s.rt.backupUsed <;> cases mark <;> cases slot <;>
      simp [marked, unitSizes]

theorem counted_statFinish (units : List StatUnit) (s : SinkState M) (mark : StatMark)
    (slot : StatSlot) :
    (s.statFinish units).counted mark slot = s.counted mark slot +
      if mark = .finished ∧ slot = (if s.rt.backupUsed then .backup else .normal) then
        unitSizes units
      else 0 := by
  rw [counted, statFinish, marked_append]
  refine congrArg (counted mark slot s + ·) ?_
  induction units with
  | nil => simp [marked, unitSizes]
  | cons unit units ih =>
    rw [List.map_cons, marked, ih]
    cases used : s.rt.backupUsed <;> cases mark <;> cases slot <;>
      simp [unitSizes]

def finishedAll (s : SinkState M) : Nat :=
  s.counted .finished .normal + s.counted .finished .backup

theorem finishedAll_statFinish (units : List StatUnit) (s : SinkState M) :
    (s.statFinish units).finishedAll = s.finishedAll + unitSizes units := by
  simp only [finishedAll, counted_statFinish, true_and]
  cases s.rt.backupUsed <;> simp <;> omega

theorem finishedAll_statStart (units : List StatUnit) (s : SinkState M) :
    (s.statStart units).finishedAll = s.finishedAll := by
  simp [finishedAll, counted_statStart]

theorem started_statFinish (units : List StatUnit) (s : SinkState M) (slot : StatSlot) :
    (s.statFinish units).counted .started slot = s.counted .started slot := by
  simp [counted_statFinish]

theorem recordUnits_size (rt : SinkRuntime M) (records : List DataRecord) :
    unitSizes (rt.recordUnits records) = records.length := by
  unfold SinkRuntime.recordUnits
  split
  · split
    · rename_i none_left
      rw [none_left]
      rfl
    · simp [unitSizes, StatUnit.size]
  · induction records with
    | nil => rfl
    | cons record records ih =>
      rw [List.map_cons, unitSizes, ih]
      simp [StatUnit.size]
      omega

/-- No statistics are touched. -/
def SameStats (s s' : SinkState M) : Prop := s'.stats = s.stats

theorem SameStats.counted {s s' : SinkState M} (same : SameStats s s') (mark : StatMark)
    (slot : StatSlot) : s'.counted mark slot = s.counted mark slot := by
  rw [SinkState.counted, SinkState.counted, same]

theorem SameStats.finishedAll {s s' : SinkState M} (same : SameStats s s') :
    s'.finishedAll = s.finishedAll := by
  rw [SinkState.finishedAll, SinkState.finishedAll, same.counted, same.counted]

theorem recordSendSuccess_stats (s : SinkState M) : SameStats s s.recordSendSuccess := by
  unfold recordSendSuccess SameStats
  dsimp only
  split <;> rfl

theorem recordFailedDrop_stats (count : Nat) (s : SinkState M) :
    SameStats s (s.recordFailedDrop count) := by
  unfold recordFailedDrop SameStats
  split <;> rfl

theorem sendStatTo_stats (mon : Bool) (s : SinkState M) : SameStats s (s.sendStatTo env mon).1 := by
  unfold sendStatTo sendStat SameStats
  split
  · split
    · rfl
    · split <;> rfl
  · rfl

theorem useBackSink_stats (ctx : SendCtx) (s : SinkState M) :
    SameStats s (s.useBackSink env ctx).1 := by
  unfold useBackSink
  cases swapped : s.swapBacksink env with
  | mk s₁ result =>
    have same : s₁.stats = s.stats := by
      unfold swapBacksink at swapped
      split at swapped
      · cases swapped
        rfl
      · dsimp only at swapped
        split at swapped <;> cases swapped <;> rfl
    cases result with
    | error e => exact same
    | ok old =>
      dsimp only
      have reported := sendStatTo_stats env ctx.mon
        { s₁ with rt := { s₁.rt with backupUsed := true } }
      cases sent : { s₁ with rt := { s₁.rt with backupUsed := true } }.sendStatTo env ctx.mon with
      | mk s₂ result =>
        rw [sent] at reported
        cases result <;> exact reported.trans same

theorem handleSendError_stats (ctx : SendCtx) (e : SinkError) (count : Nat) (s : SinkState M) :
    SameStats s (s.handleSendError env ctx e count).1 := by
  unfold handleSendError
  split
  · exact recordFailedDrop_stats count (s.healthFailure env)
  · split
    · split
      · rfl
      · split
        · have switched := useBackSink_stats env ctx s
          split <;> (rename_i outcome; rw [outcome] at switched; exact switched)
        · rfl
    all_goals rfl

section Loop
variable (ctx : SendCtx) (payload : SinkPayload M) (records : List DataRecord) (batchMeta : M)
  (again : Bool)

/-- What the loop does with an error that is thrown. -/
def onThrow (s : SinkState M) : SinkState M :=
  (s.requeue again records batchMeta).statEndRecordsBatch records

theorem statEndRecordsBatch_counts (s : SinkState M) :
    (s.statEndRecordsBatch records).finishedAll = s.finishedAll + records.length ∧
      ∀ slot, (s.statEndRecordsBatch records).counted .started slot = s.counted .started slot :=
  ⟨by rw [statEndRecordsBatch, finishedAll_statFinish, recordUnits_size],
    fun slot => started_statFinish _ s slot⟩

theorem requeue_stats (s : SinkState M) : SameStats s (s.requeue again records batchMeta) := by
  unfold requeue SameStats
  split <;> rfl

theorem onThrow_counts (s : SinkState M) :
    (s.onThrow records batchMeta again).finishedAll = s.finishedAll + records.length ∧
      ∀ slot, (s.onThrow records batchMeta again).counted .started slot =
        s.counted .started slot := by
  have same := requeue_stats records batchMeta again s
  obtain ⟨ended, begun⟩ := statEndRecordsBatch_counts records (s.requeue again records batchMeta)
  exact ⟨by rw [onThrow, ended, same.finishedAll], fun slot => by
    rw [onThrow, begun, same.counted]⟩

theorem accepted_counts (s : SinkState M) :
    (s.statEndRecordsBatch records).recordSendSuccess.finishedAll =
        s.finishedAll + records.length ∧
      ∀ slot, (s.statEndRecordsBatch records).recordSendSuccess.counted .started slot =
        s.counted .started slot := by
  have same := recordSendSuccess_stats (s.statEndRecordsBatch records)
  obtain ⟨ended, begun⟩ := statEndRecordsBatch_counts records s
  exact ⟨by rw [same.finishedAll, ended], fun slot => by rw [same.counted, begun]⟩

/-- The counts of one attempt whose retries are those of `later`. -/
theorem attempt_counts {s : SinkState M} {budget : Nat}
    (later : ∀ s₁ e, (s.callPrimary env payload) = (s₁, .error e) →
      ∀ s₂, s₁.handleSendError env ctx e payload.size = (s₂, .ok .retry) →
        (s₂.sendLoop env ctx payload (statEndRecordsBatch records)
          (onThrow records batchMeta again) budget).1.finishedAll = s₂.finishedAll + records.length ∧
        ∀ slot, (s₂.sendLoop env ctx payload (statEndRecordsBatch records)
          (onThrow records batchMeta again) budget).1.counted .started slot =
            s₂.counted .started slot)
    (switches : ¬ s.SwitchFails env ctx) :
    (s.sendLoop env ctx payload (statEndRecordsBatch records) (onThrow records batchMeta again)
        (budget + 1)).1.finishedAll = s.finishedAll + records.length ∧
      ∀ slot, (s.sendLoop env ctx payload (statEndRecordsBatch records)
        (onThrow records batchMeta again) (budget + 1)).1.counted .started slot =
          s.counted .started slot := by
  rw [sendLoop]
  cases called : s.callPrimary env payload with
  | mk s₁ answer =>
    have same₁ : SameStats s s₁ := by
      cases called
      rfl
    cases answer with
    | ok _ =>
      obtain ⟨ended, begun⟩ := accepted_counts records s₁
      exact ⟨by rw [ended, same₁.finishedAll], fun slot => by rw [begun, same₁.counted]⟩
    | error e =>
      dsimp only
      have handling := handleSendError_stats env ctx e payload.size s₁
      cases handled : s₁.handleSendError env ctx e payload.size with
      | mk s₂ verdict =>
        rw [handled] at handling
        have same : SameStats s s₂ := handling.trans same₁
        cases verdict with
        | error failure =>
          exfalso
          obtain ⟨keeps, repairable, live, bad, refused⟩ :=
            (handleSendError_error_iff env ctx e payload.size s₁).mp ⟨failure, by rw [handled]⟩
          obtain ⟨answer, rt, tick⟩ := callPrimary_spec env payload s
          rw [called] at answer rt tick
          rw [rt] at keeps live refused
          rw [tick] at refused
          exact switches ⟨keeps, live, bad, ⟨e, answer.symm, repairable⟩, refused⟩
        | ok verdict =>
          cases verdict with
          | retry =>
            obtain ⟨ended, begun⟩ := later s₁ e called s₂ handled
            exact ⟨by rw [ended, same.finishedAll], fun slot => by rw [begun, same.counted]⟩
          | consume =>
            obtain ⟨ended, begun⟩ := statEndRecordsBatch_counts records s₂
            exact ⟨by rw [ended, same.finishedAll], fun slot => by rw [begun, same.counted]⟩
          | throw =>
            obtain ⟨ended, begun⟩ := onThrow_counts records batchMeta again s₂
            exact ⟨by rw [ended, same.finishedAll], fun slot => by rw [begun, same.counted]⟩

theorem sendLoop_counts {s : SinkState M} (switches : ¬ s.SwitchFails env ctx) :
    (s.sendLoop env ctx payload (statEndRecordsBatch records) (onThrow records batchMeta again)
        2).1.finishedAll = s.finishedAll + records.length ∧
      ∀ slot, (s.sendLoop env ctx payload (statEndRecordsBatch records)
        (onThrow records batchMeta again) 2).1.counted .started slot = s.counted .started slot := by
  refine attempt_counts env ctx payload records batchMeta again ?_ switches
  intro s₁ e called s₂ handled
  have used := (handleSendError_retry env handled).2
  -- On the rescue file there is no further switch, and so no further retry.
  refine attempt_counts env ctx payload records batchMeta again ?_ ?_
  · intro s₃ e₃ called₃ s₄ handled₄
    have rt := (callPrimary_spec env payload s₂).2.1
    rw [called₃] at rt
    exact absurd handled₄ (rescue_no_retry env (by rw [rt, used]))
  · rintro ⟨-, live, -⟩
    rw [used] at live
    cases live

/-- The call fails and so does the switch: the loop ends in the state the switch leaves. -/
theorem sendLoop_refused {s : SinkState M} (fails : s.SwitchFails env ctx)
    (statDone onThrow : SinkState M → SinkState M) :
    ∃ failure, s.sendLoop env ctx payload statDone onThrow 2 =
      (((s.callPrimary env payload).1.useBackSink env ctx).1, .error failure) := by
  obtain ⟨keeps, live, bad, ⟨e, failed, repairable⟩, refused⟩ := fails
  obtain ⟨answer, rt, tick⟩ := callPrimary_spec env payload s
  rw [sendLoop]
  cases called : s.callPrimary env payload with
  | mk s₁ result =>
    rw [called] at answer rt tick
    dsimp only at answer rt tick
    rw [failed] at answer
    subst answer
    rw [← rt] at keeps live refused
    rw [← tick] at refused
    obtain ⟨failure, swapped⟩ := (useBackSink_error_iff env ctx s₁).mpr refused
    refine ⟨failure, ?_⟩
    have moved : s₁.useBackSink env ctx = ((s₁.useBackSink env ctx).1, .error failure) :=
      Prod.ext rfl swapped
    simp only [handleSendError, keeps, repairable, live, bad, Bool.false_eq_true, if_false, if_true]
    rw [moved]

end Loop

/-- The counts of `s'` are those of `s` and `started` and `finished` more. -/
def CountsMore (started finished : Nat) (s s' : SinkState M) : Prop :=
  s'.counted .started .normal = s.counted .started .normal + started ∧
    s'.finishedAll = s.finishedAll + finished

theorem CountsMore.trans {a b c d : Nat} {s₁ s₂ s₃ : SinkState M} (first : CountsMore a b s₁ s₂)
    (second : CountsMore c d s₂ s₃) : CountsMore (a + c) (b + d) s₁ s₃ :=
  ⟨by rw [second.1, first.1]; omega, by rw [second.2, first.2]; omega⟩

theorem SameStats.countsMore {s s' : SinkState M} (same : SameStats s s') : CountsMore 0 0 s s' :=
  ⟨same.counted .started .normal, same.finishedAll⟩

theorem statBegRecordsBatch_more (records : List DataRecord) (s : SinkState M) :
    CountsMore records.length 0 s (s.statBegRecordsBatch records) := by
  refine ⟨?_, finishedAll_statStart _ s⟩
  simp [statBegRecordsBatch, counted_statStart, recordUnits_size]

theorem statEndRecordsBatch_more (records : List DataRecord) (s : SinkState M) :
    CountsMore 0 records.length s (s.statEndRecordsBatch records) := by
  obtain ⟨ended, begun⟩ := statEndRecordsBatch_counts records s
  exact ⟨begun .normal, ended⟩

theorem dropBatchIfOpen_spec (count : Nat) (s : SinkState M) :
    SameStats s (s.dropBatchIfOpen env count).1 ∧
      (s.rt.dropWhenError = false → s.dropBatchIfOpen env count = (s, false)) ∧
      (s.rt.dropWhenError = true → (s.dropBatchIfOpen env count).1.rt.dropWhenError = true) := by
  unfold dropBatchIfOpen shouldSkipSend
  cases drops : s.rt.dropWhenError with
  | false => simp [SameStats]
  | true =>
    simp only [if_true]
    cases s.rt.health.isOpen (env.now s.tick) with
    | false => simp [SameStats, drops]
    | true =>
      unfold recordSkippedDrop
      dsimp only
      split <;> simp [SameStats, drops]

theorem not_switchFails_of_drops {ctx : SendCtx} {s : SinkState M}
    (drops : s.rt.dropWhenError = true) : ¬ s.SwitchFails env ctx := by
  rintro ⟨keeps, -⟩
  rw [drops] at keeps
  cases keeps

/-- A batch is begun and finished once for each record, unless the switch to the rescue file
    fails. -/
theorem sendRecordsBatch_more (ctx : SendCtx) {records : List DataRecord} (batchMeta : M)
    (again : Bool) (nonempty : records ≠ []) {s : SinkState M}
    (switches : ¬ s.SwitchFails env ctx) :
    CountsMore records.length records.length s
      (s.sendRecordsBatch env ctx records batchMeta again).1 := by
  have some_record : records.isEmpty = false := by simpa using nonempty
  obtain ⟨same, live, dropping⟩ := dropBatchIfOpen_spec env records.length s
  simp only [sendRecordsBatch, some_record, Bool.false_eq_true, if_false]
  cases asked : s.dropBatchIfOpen env records.length with
  | mk s₁ skipped =>
    rw [asked] at same live dropping
    have begun := same.countsMore.trans (statBegRecordsBatch_more records s₁)
    cases skipped with
    | true => simpa using begun.trans (statEndRecordsBatch_more records _)
    | false =>
      have switches₁ : ¬ (s₁.statBegRecordsBatch records).SwitchFails env ctx := by
        cases drops : s.rt.dropWhenError with
        | true => exact not_switchFails_of_drops env (dropping drops)
        | false =>
          cases live drops
          exact switches
      obtain ⟨ended, kept⟩ := sendLoop_counts env ctx (recordsPayload env records batchMeta)
        records batchMeta again switches₁
      have ends : CountsMore 0 records.length (s₁.statBegRecordsBatch records) _ :=
        ⟨kept .normal, ended⟩
      have sent := begun.trans ends
      simp only [Nat.add_zero, Nat.zero_add] at sent
      exact sent

theorem callPrimary_stats (payload : SinkPayload M) (s : SinkState M) :
    SameStats s (s.callPrimary env payload).1 := rfl

theorem sendRecordsBatch_refused (ctx : SendCtx) {records : List DataRecord} (batchMeta : M)
    (again : Bool) (nonempty : records ≠ []) {s : SinkState M} (fails : s.SwitchFails env ctx) :
    ∃ failure, s.sendRecordsBatch env ctx records batchMeta again =
      ((((s.statBegRecordsBatch records).callPrimary env
        (recordsPayload env records batchMeta)).1.useBackSink env ctx).1, .error failure) := by
  have some_record : records.isEmpty = false := by simpa using nonempty
  simp only [sendRecordsBatch, some_record, Bool.false_eq_true, if_false,
    (dropBatchIfOpen_spec env records.length s).2.1 fails.1]
  have begun : (s.statBegRecordsBatch records).SwitchFails env ctx := fails
  exact sendLoop_refused env ctx (recordsPayload env records batchMeta) begun _ _

theorem sendRecordsBatch_refused_more (ctx : SendCtx) {records : List DataRecord} (batchMeta : M)
    (again : Bool) (nonempty : records ≠ []) {s : SinkState M} (fails : s.SwitchFails env ctx) :
    CountsMore records.length 0 s (s.sendRecordsBatch env ctx records batchMeta again).1 := by
  obtain ⟨failure, refused⟩ := sendRecordsBatch_refused env ctx batchMeta again nonempty fails
  rw [refused]
  have called := callPrimary_stats env (recordsPayload env records batchMeta)
    (s.statBegRecordsBatch records)
  have swapped := called.countsMore.trans (useBackSink_stats env ctx _).countsMore
  exact (statBegRecordsBatch_more records s).trans swapped

end Env

end SinkState

end WarpMotor
