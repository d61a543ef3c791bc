import WarpMotor.Sink.Marks

/-!
One record sent on its own. Where the first attempt decides, by drop mode or
because the backend takes the record, a batch of that record does the same;
else the record is begun once for each attempt and finished at most once.
-/
namespace WarpMotor

namespace SinkState
variable {M : Type}

/-- The records that a backend took, in time order. -/
def deliveredRecords (s : SinkState M) : List DataRecord :=
  s.accepted.flatMap SinkPayload.recordsOf

section Env
variable (env : SinkEnv M)

/-- The first attempt decides: drop mode, or the backend takes the record. -/
def Settled (s : SinkState M) : Prop :=
  s.rt.dropWhenError = true ∨ env.call s.tick s.rt.primary = .ok ()

/-- What a settled attempt leaves: the breaker, the records taken, the drops and the next tick. -/
structure Settlement where
  health : SinkHealth
  taken : List DataRecord
  drops : List DropRecord
  tick : Nat

def settlement (record : DataRecord) (s : SinkState M) : Settlement :=
  if s.rt.dropWhenError && s.rt.health.isOpen (env.now s.tick) then
    ⟨s.rt.health, [], [.skipped 1], s.tick + 1⟩
  else
    let tick := if s.rt.dropWhenError then s.tick + 1 else s.tick
    match env.call tick s.rt.primary with
    | .ok () => ⟨.new, [record], [], tick + 1⟩
    | .error _ => ⟨s.rt.health.onFailure (env.now (tick + 1)), [], [.failed 1], tick + 2⟩

/-- The counts of one record begun and finished. -/
def onceCounted (used : Bool) (mark : StatMark) (slot : StatSlot) : Nat :=
  (if mark = .started ∧ (slot = .normal ∨ used = true) then 1 else 0) +
    if mark = .finished ∧ slot = (if used then .backup else .normal) then 1 else 0

structure SettlesAs (outcome : Settlement) (s s' : SinkState M) : Prop where
  primary : s'.rt.primary = s.rt.primary
  backupUsed : s'.rt.backupUsed = s.rt.backupUsed
  health : s'.rt.health = outcome.health
  delivered : s'.deliveredRecords = s.deliveredRecords ++ outcome.taken
  drops : s'.drops = s.drops ++ outcome.drops
  tick : s'.tick = outcome.tick
  counted : ∀ mark slot, s'.counted mark slot =
    s.counted mark slot + onceCounted s.rt.backupUsed mark slot

/-- A settled attempt up to the end mark. -/
structure ActsAs (outcome : Settlement) (units : List StatUnit) (s s' : SinkState M) : Prop where
  primary : s'.rt.primary = s.rt.primary
  backupUsed : s'.rt.backupUsed = s.rt.backupUsed
  health : s'.rt.health = outcome.health
  delivered : s'.deliveredRecords = s.deliveredRecords ++ outcome.taken
  drops : s'.drops = s.drops ++ outcome.drops
  tick : s'.tick = outcome.tick
  stats : s'.stats = (s.statStart units).stats

theorem ActsAs.finish {outcome : Settlement} {units : List StatUnit} {s s' : SinkState M}
    (acts : ActsAs outcome units s s') (one : unitSizes units = 1) :
    SettlesAs outcome s (s'.statFinish units) where
  primary := acts.primary
  backupUsed := acts.backupUsed
  health := acts.health
  delivered := acts.delivered
  drops := acts.drops
  tick := acts.tick
  counted := by
    intro mark slot
    have begun : s'.counted mark slot = (s.statStart units).counted mark slot := by
      rw [SinkState.counted, acts.stats]
      rfl
    rw [counted_statFinish, begun, counted_statStart, one, acts.backupUsed, onceCounted]
    omega

theorem deliveredRecords_of_call (payload : SinkPayload M) (s : SinkState M) :
    (s.callPrimary env payload).1.deliveredRecords = s.deliveredRecords ++
      if (env.call s.tick s.rt.primary).isOk then payload.recordsOf else [] := by
  unfold deliveredRecords accepted callPrimary
  cases answer : (env.call s.tick s.rt.primary).isOk <;> simp [answer]

theorem skipped_acts (record : DataRecord) (units : List StatUnit) {s : SinkState M}
    (drops : s.rt.dropWhenError = true) (open_ : s.rt.health.isOpen (env.now s.tick) = true) :
    ActsAs (s.settlement env record) units s
      (({ s with tick := s.tick + 1 }.recordSkippedDrop 1).statStart units) := by
  simp only [settlement, drops, open_, Bool.and_self, if_true]
  exact ⟨rfl, rfl, rfl, by simp [deliveredRecords, accepted, statStart, recordSkippedDrop], rfl, rfl, rfl⟩

/-- The state in which an admitted attempt is made. -/
def asked (s : SinkState M) : SinkState M :=
  if s.rt.dropWhenError then { s with tick := s.tick + 1 } else s

theorem asked_spec (s : SinkState M) :
    s.asked.rt = s.rt ∧ s.asked.drops = s.drops ∧ s.asked.calls = s.calls ∧
      s.asked.stats = s.stats ∧
      s.asked.tick = if s.rt.dropWhenError then s.tick + 1 else s.tick := by
  unfold asked
  split <;> exact ⟨rfl, rfl, rfl, rfl, rfl⟩

theorem shouldSkipSend_cases (s : SinkState M) :
    (s.rt.dropWhenError = true ∧ s.rt.health.isOpen (env.now s.tick) = true ∧
      s.shouldSkipSend env = ({ s with tick := s.tick + 1 }, true)) ∨
    ((s.rt.dropWhenError && s.rt.health.isOpen (env.now s.tick)) = false ∧
      s.shouldSkipSend env = (s.asked, false)) := by
  unfold shouldSkipSend asked
  cases drops : s.rt.dropWhenError with
  | false => simp
  | true =>
    cases open_ : s.rt.health.isOpen (env.now s.tick) with
    | false => simp
    | true => simp

section Attempt
variable (record : DataRecord) (units : List StatUnit) (payload : SinkPayload M)

/-- The call of an admitted attempt. -/
def attempt (s : SinkState M) : SinkState M :=
  ((s.asked.statStart units).callPrimary env payload).1

theorem attempt_spec (s : SinkState M) :
    (s.attempt env units payload).rt = s.rt ∧ (s.attempt env units payload).drops = s.drops ∧
      (s.attempt env units payload).stats = (s.statStart units).stats ∧
      (s.attempt env units payload).tick = s.asked.tick + 1 := by
  obtain ⟨rt, drops, -, stats, -⟩ := asked_spec s
  refine ⟨rt, drops, ?_, rfl⟩
  change (s.asked.statStart units).stats = _
  simp only [statStart, stats, rt]

theorem attempt_delivered (taken : payload.recordsOf = [record]) (s : SinkState M) :
    (s.attempt env units payload).deliveredRecords = s.deliveredRecords ++
      if (env.call s.asked.tick s.rt.primary).isOk then [record] else [] := by
  obtain ⟨rt, -, calls, -, -⟩ := asked_spec s
  rw [attempt, deliveredRecords_of_call, taken]
  change s.asked.deliveredRecords ++ (if (env.call s.asked.tick s.asked.rt.primary).isOk then _ else _) = _
  rw [rt, deliveredRecords, deliveredRecords, accepted, accepted, calls]

theorem taken_acts (taken : payload.recordsOf = [record]) {s : SinkState M}
    (admitted : (s.rt.dropWhenError && s.rt.health.isOpen (env.now s.tick)) = false)
    (answer : env.call s.asked.tick s.rt.primary = .ok ()) :
    ActsAs (s.settlement env record) units s (s.attempt env units payload).recordSendSuccess := by
  obtain ⟨rt, drops, stats, tick⟩ := attempt_spec env units payload s
  have delivered := attempt_delivered env record units payload taken s
  have ends : s.settlement env record = ⟨.new, [record], [], s.asked.tick + 1⟩ := by
    simp only [settlement, admitted, Bool.false_eq_true, if_false]
    rw [(asked_spec s).2.2.2.2] at answer ⊢
    rw [answer]
  rw [answer] at delivered
  rw [ends]
  generalize s.attempt env units payload = s₁ at *
  unfold recordSendSuccess
  dsimp only
  split <;> exact ⟨by rw [← rt], by rw [← rt], rfl, delivered, by simpa using drops, tick, stats⟩

theorem failed_acts (taken : payload.recordsOf = [record]) {s : SinkState M}
    (closed : s.rt.health.isOpen (env.now s.tick) = false)
    {e : SinkError} (answer : env.call s.asked.tick s.rt.primary = .error e) :
    ActsAs (s.settlement env record) units s
      (((s.attempt env units payload).healthFailure env).recordFailedDrop 1) := by
  obtain ⟨rt, drops, stats, tick⟩ := attempt_spec env units payload s
  have delivered := attempt_delivered env record units payload taken s
  have ends : s.settlement env record = ⟨s.rt.health.onFailure (env.now (s.asked.tick + 1)), [],
      [.failed 1], s.asked.tick + 2⟩ := by
    simp only [settlement, closed, Bool.and_false, Bool.false_eq_true, if_false]
    rw [(asked_spec s).2.2.2.2] at answer ⊢
    rw [answer]
  rw [answer] at delivered
  rw [ends]
  generalize s.attempt env units payload = s₁ at *
  refine ⟨by rw [← rt]; rfl, by rw [← rt]; rfl, ?_, delivered, ?_, ?_, stats⟩
  · change s₁.rt.health.onFailure (env.now s₁.tick) = _
    rw [rt, tick]
  · change s₁.drops ++ [.failed 1] = _
    rw [drops]
  · change s₁.tick + 1 = _
    rw [tick]

end Attempt

theorem settled_answer {s : SinkState M} (settled : s.Settled env) {e : SinkError}
    (answer : env.call s.asked.tick s.rt.primary = .error e) : s.rt.dropWhenError = true := by
  obtain drops | taken := settled
  · exact drops
  · by_contra keeps
    rw [asked, if_neg keeps, taken] at answer
    cases answer

theorem closed_of_admitted {s : SinkState M} (drops : s.rt.dropWhenError = true)
    (admitted : (s.rt.dropWhenError && s.rt.health.isOpen (env.now s.tick)) = false) :
    s.rt.health.isOpen (env.now s.tick) = false := by
  rw [drops] at admitted
  simpa using admitted

/-- Only the breaker and the rescue file that was kept open differ. -/
def HealthOnly (s s' : SinkState M) : Prop :=
  ∃ health retired file, s'.rt =
    { s.rt with health := health, retiredRescue := retired, rescueFile := file }

theorem HealthOnly.units {s s' : SinkState M} (only : HealthOnly s s') :
    (∀ data, s'.dataUnits data = s.dataUnits data) ∧
      ∀ records, s'.rt.recordUnits records = s.rt.recordUnits records := by
  obtain ⟨health, retired, file, same⟩ := only
  refine ⟨?_, ?_⟩
  · intro data
    cases data with
    | record procMeta record =>
      rw [dataUnits, dataUnits, same]
      rfl
    | _ => rfl
  · intro records
    rw [same]
    rfl

theorem recordSendSuccess_only {s s' : SinkState M} (rt : s'.rt = s.rt) :
    HealthOnly s s'.recordSendSuccess := by
  unfold recordSendSuccess HealthOnly
  rw [← rt]
  split
  · exact ⟨_, _, _, rfl⟩
  · exact ⟨_, _, _, rfl⟩

theorem failedDrop_only {s s' : SinkState M} (rt : s'.rt = s.rt) :
    HealthOnly s ((s'.healthFailure env).recordFailedDrop 1) := by
  unfold HealthOnly
  rw [← rt]
  exact ⟨_, _, _, rfl⟩

/-- The end mark can come before or after the breaker is closed. -/
theorem recordSendSuccess_statFinish (units : List StatUnit) (s : SinkState M) :
    (s.statFinish units).recordSendSuccess = s.recordSendSuccess.statFinish units := by
  cases retired : s.rt.retiredRescue <;> simp [recordSendSuccess, statFinish, retired]

section Paths
variable (ctx : SendCtx) (procMeta : ProcMeta) (record : DataRecord)

theorem sendOneLoop_settled {s : SinkState M} (settled : s.Settled env) :
    ∃ s', s.sendOneLoop env ctx (.record procMeta record) 2 = (s', .ok ()) ∧
      SettlesAs (s.settlement env record) s s' := by
  have one : unitSizes (s.dataUnits (.record procMeta record)) = 1 := by
    simp [dataUnits, unitSizes, StatUnit.size]
  rw [sendOneLoop]
  obtain ⟨drops, open_, skipped⟩ | ⟨admitted, asks⟩ := shouldSkipSend_cases env s
  · rw [skipped]
    exact ⟨_, rfl, (skipped_acts env record (s.dataUnits (.record procMeta record)) drops
      open_).finish one⟩
  · rw [asks]
    have same := (asked_spec s).1
    have begins : (s.asked.statBeg (.record procMeta record)).callPrimary env
        (dataPayload env (.record procMeta record)) =
        (s.attempt env (s.dataUnits (.record procMeta record)) (.record record),
          env.call s.asked.tick s.rt.primary) := by
      rw [attempt, statBeg, dataUnits, dataUnits, same]
      exact Prod.ext rfl (by rw [← same]; rfl)
    dsimp only
    rw [begins]
    have rt := (attempt_spec env (s.dataUnits (.record procMeta record))
      (.record record) s).1
    cases answer : env.call s.asked.tick s.rt.primary with
    | ok _ =>
      have acts := taken_acts env record (s.dataUnits (.record procMeta record))
        (.record record) rfl admitted answer
      refine ⟨_, rfl, ?_⟩
      have units : (s.attempt env (s.dataUnits (.record procMeta record))
          (.record record)).recordSendSuccess.dataUnits (.record procMeta record) =
            s.dataUnits (.record procMeta record) :=
        (recordSendSuccess_only rt).units.1 _
      rw [statEnd, units]
      exact acts.finish one
    | error e =>
      have drops := settled_answer env settled answer
      have acts := failed_acts env record (s.dataUnits (.record procMeta record))
        (.record record) rfl (closed_of_admitted env drops admitted) answer
      dsimp only
      rw [rt, drops, if_pos rfl]
      refine ⟨_, rfl, ?_⟩
      have units : (((s.attempt env (s.dataUnits (.record procMeta record))
          (.record record)).healthFailure env).recordFailedDrop 1).dataUnits
            (.record procMeta record) = s.dataUnits (.record procMeta record) :=
        (failedDrop_only env rt).units.1 _
      rw [statEnd, units]
      exact acts.finish one

theorem sendRecordsBatch_settled (batchMeta : M) (again : Bool) {s : SinkState M}
    (settled : s.Settled env) :
    ∃ s', s.sendRecordsBatch env ctx [record] batchMeta again = (s', .ok ()) ∧
      SettlesAs (s.settlement env record) s s' := by
  have one : unitSizes (s.rt.recordUnits [record]) = 1 := recordUnits_size s.rt [record]
  simp only [sendRecordsBatch, List.isEmpty_cons, Bool.false_eq_true, if_false, dropBatchIfOpen]
  obtain ⟨drops, open_, skipped⟩ | ⟨admitted, asks⟩ := shouldSkipSend_cases env s
  · rw [skipped]
    exact ⟨_, rfl, (skipped_acts env record (s.rt.recordUnits [record]) drops open_).finish one⟩
  · rw [asks]
    have same := (asked_spec s).1
    have begins : (s.asked.statBegRecordsBatch [record]).callPrimary env
        (recordsPayload env [record] batchMeta) =
        (s.attempt env (s.rt.recordUnits [record]) (recordsPayload env [record] batchMeta),
          env.call s.asked.tick s.rt.primary) := by
      rw [attempt, statBegRecordsBatch, same]
      exact Prod.ext rfl (by rw [← same]; rfl)
    dsimp only
    rw [sendLoop, begins]
    have rt := (attempt_spec env (s.rt.recordUnits [record])
      (recordsPayload env [record] batchMeta) s).1
    cases answer : env.call s.asked.tick s.rt.primary with
    | ok _ =>
      have acts := taken_acts env record (s.rt.recordUnits [record])
        (recordsPayload env [record] batchMeta) rfl admitted answer
      refine ⟨_, rfl, ?_⟩
      rw [statEndRecordsBatch, rt, recordSendSuccess_statFinish]
      exact acts.finish one
    | error e =>
      have drops := settled_answer env settled answer
      have acts := failed_acts env record (s.rt.recordUnits [record])
        (recordsPayload env [record] batchMeta) rfl
        (closed_of_admitted env drops admitted) answer
      dsimp only
      rw [handleSendError, rt, drops, if_pos rfl]
      refine ⟨_, rfl, ?_⟩
      have units : (((s.attempt env (s.rt.recordUnits [record])
          (recordsPayload env [record] batchMeta)).healthFailure env).recordFailedDrop 1).rt.recordUnits
            [record] = s.rt.recordUnits [record] :=
        (failedDrop_only env rt).units.2 _
      change SettlesAs _ s (statEndRecordsBatch [record] _)
      rw [statEndRecordsBatch, show (recordsPayload env [record] batchMeta).size = 1 from rfl, units]
      exact acts.finish one

end Paths

/-- A call that fails, with a strategy and channels that ask for the rescue file. -/
def AsksForRescue (ctx : SendCtx) (s : SinkState M) : Prop :=
  s.rt.dropWhenError = false ∧ s.rt.backupUsed = false ∧ ctx.bad = true ∧
  ∃ e, env.call s.tick s.rt.primary = .error e ∧ err4SendToSink env.mode e = .fixRetry

theorem switchFails_iff (ctx : SendCtx) (s : SinkState M) :
    s.SwitchFails env ctx ↔
      s.AsksForRescue env ctx ∧ RescueRefused env ctx.mon s.rt.retiredRescue (s.tick + 1) := by
  simp only [SwitchFails, AsksForRescue, and_assoc]

theorem unsettled_answer {s : SinkState M} (unsettled : ¬ s.Settled env) :
    s.rt.dropWhenError = false ∧ ∃ e, env.call s.tick s.rt.primary = .error e := by
  rw [Settled, not_or] at unsettled
  refine ⟨by simpa using unsettled.1, ?_⟩
  cases answer : env.call s.tick s.rt.primary with
  | error e => exact ⟨e, rfl⟩
  | ok _ => exact absurd answer unsettled.2

/-- The state after the begin mark and the call. -/
def called (data : SinkDataEnum) (s : SinkState M) : SinkState M :=
  ((s.statBeg data).callPrimary env (dataPayload env data)).1

theorem called_more (procMeta : ProcMeta) (record : DataRecord) (s : SinkState M) :
    CountsMore 1 0 s (s.called env (.record procMeta record)) := by
  refine ⟨?_, finishedAll_statStart _ s⟩
  change (s.statBeg (.record procMeta record)).counted .started .normal = _
  simp [statBeg, counted_statStart, dataUnits, unitSizes, StatUnit.size]

section Unsettled
variable (ctx : SendCtx) (data : SinkDataEnum) (budget : Nat)

theorem sendOneLoop_unsettled {s : SinkState M} (unsettled : ¬ s.Settled env) :
    (¬ s.AsksForRescue env ctx ∧
      (s.sendOneLoop env ctx data (budget + 1)).1 = s.called env data) ∨
    (s.AsksForRescue env ctx ∧
      s.sendOneLoop env ctx data (budget + 1) =
        match (s.called env data).useBackSink env ctx with
        | (s₂, .error failure) => (s₂, .error failure)
        | (s₂, .ok ()) => s₂.sendOneLoop env ctx data budget) := by
  obtain ⟨keeps, e, answer⟩ := unsettled_answer env unsettled
  have call : (s.statBeg data).callPrimary env (dataPayload env data) =
      (s.called env data, .error e) := Prod.ext rfl answer
  have rt : (s.called env data).rt = s.rt := rfl
  rw [sendOneLoop, shouldSkipSend, if_neg (by simp [keeps])]
  dsimp only
  rw [call]
  dsimp only
  rw [rt, if_neg (by simp [keeps])]
  cases strategy : err4SendToSink env.mode e with
  | fixRetry =>
    cases live : s.rt.backupUsed with
    | true => exact .inl ⟨by simp [AsksForRescue, live], rfl⟩
    | false =>
      cases bad : ctx.bad with
      | false => exact .inl ⟨by simp [AsksForRescue, bad], rfl⟩
      | true => exact .inr ⟨⟨keeps, live, bad, e, answer, strategy⟩, rfl⟩
  | _ => exact .inl ⟨by simp [AsksForRescue, answer, strategy], rfl⟩

end Unsettled

theorem SettlesAs.more {outcome : Settlement} {s s' : SinkState M}
    (settles : SettlesAs outcome s s') : CountsMore 1 1 s s' := by
  refine ⟨by simp [settles.counted, onceCounted], ?_⟩
  simp only [finishedAll, settles.counted, onceCounted]
  cases s.rt.backupUsed <;> simp <;> omega

section One
variable (ctx : SendCtx) (procMeta : ProcMeta) (record : DataRecord)

theorem lastAttempt_more {s : SinkState M} (used : s.rt.backupUsed = true) :
    ∃ finished, finished ≤ 1 ∧
      CountsMore 1 finished s (s.sendOneLoop env ctx (.record procMeta record) 1).1 := by
  by_cases settled : s.Settled env
  · obtain ⟨s', sent, settles⟩ := sendOneLoop_settled env ctx procMeta record settled
    rw [sendOneLoop_budget_of_rescue env ctx _ 1 used] at sent
    exact ⟨1, le_rfl, by rw [sent]; exact settles.more⟩
  · obtain ⟨-, ended⟩ | ⟨asks, -⟩ :=
      sendOneLoop_unsettled env ctx (.record procMeta record) 0 settled
    · exact ⟨0, Nat.zero_le 1, by rw [ended]; exact called_more env procMeta record s⟩
    · rw [asks.2.1] at used
      cases used

/-- The single path begins a record once for each attempt and finishes it at most once. -/
theorem sendOneLoop_more (s : SinkState M) :
    ∃ started finished,
      CountsMore started finished s (s.sendOneLoop env ctx (.record procMeta record) 2).1 ∧
      (s.Settled env → started = 1 ∧ finished = 1) ∧
      (¬ s.Settled env → finished < started ∧ started ≤ 2) ∧
      (started = 2 → s.AsksForRescue env ctx) ∧
      (s.SwitchFails env ctx → started = 1) := by
  by_cases settled : s.Settled env
  · obtain ⟨s', sent, settles⟩ := sendOneLoop_settled env ctx procMeta record settled
    exact ⟨1, 1, by rw [sent]; exact settles.more, fun _ => ⟨rfl, rfl⟩,
      fun unsettled => absurd settled unsettled, by simp, fun _ => rfl⟩
  · have begun := called_more env procMeta record s
    obtain ⟨-, ended⟩ | ⟨asks, ended⟩ :=
      sendOneLoop_unsettled env ctx (.record procMeta record) 1 settled
    · exact ⟨1, 0, by rw [ended]; exact begun, fun yes => absurd yes settled, by simp, by simp,
        fun _ => rfl⟩
    · have swapped := (useBackSink_stats env ctx (s.called env (.record procMeta record))).countsMore
      have refused := useBackSink_error_iff env ctx (s.called env (.record procMeta record))
      rw [ended]
      cases outcome : (s.called env (.record procMeta record)).useBackSink env ctx with
      | mk s₂ result =>
        rw [outcome] at swapped refused
        cases result with
        | error failure =>
          exact ⟨1, 0, begun.trans swapped, fun yes => absurd yes settled, by simp, by simp,
            fun _ => rfl⟩
        | ok _ =>
          obtain ⟨finished, most, last⟩ :=
            lastAttempt_more env ctx procMeta record (useBackSink_marks env outcome)
          refine ⟨2, 0 + 0 + finished, (begun.trans swapped).trans last,
            fun yes => absurd yes settled, fun _ => ⟨by omega, le_rfl⟩, fun _ => asks, ?_⟩
          intro fails
          obtain ⟨failure, wrong⟩ := refused.mpr ((switchFails_iff env ctx s).mp fails).2
          cases wrong

end One

theorem unsettled_of_asks (ctx : SendCtx) {s : SinkState M} (asks : s.AsksForRescue env ctx) :
    ¬ s.Settled env := by
  obtain ⟨keeps, -, -, e, answer, -⟩ := asks
  rw [Settled, keeps, answer]
  simp

theorem sendToSink_more (ctx : SendCtx) (procMeta : ProcMeta) (record : DataRecord) {started finished : Nat}
    {s : SinkState M} (more : CountsMore started finished s
      (s.sendOneLoop env ctx (.record procMeta record) 2).1) :
    CountsMore started finished s (s.sendToSink env ctx (.record procMeta record)).1 := by
  rw [sendToSink]
  cases sent : s.sendOneLoop env ctx (.record procMeta record) 2 with
  | mk s₁ result =>
    rw [sent] at more
    cases result with
    | error e => exact more
    | ok _ => exact more.trans (sendStatTo_stats env ctx.mon s₁).countsMore

end Env

end SinkState

end WarpMotor
