import WarpMotor.Sink.SinglePath

/-!
One record sent on its own, and the same record sent as a package that is
flushed at once. The two paths have their own retry loops and statistics. Where
the backend takes the record, and in drop mode, they do the same; after an error
outside drop mode they count differently, and only the package path reports
every error.
-/
namespace WarpMotor

namespace SinkState
variable {M : Type}

section Env
variable (env : SinkEnv M)

def sendPackageThenFlush [DecidableEq M] (ctx : SendCtx) (package : SinkPackage) (s : SinkState M) :
    SinkResult M Unit :=
  match s.sendPackageToSink env ctx package with
  | (s, .error e) => (s, .error e)
  | (s, .ok ()) => s.flush env ctx

/-- Between two states an error was passed over by its strategy. -/
def Discarded (s s' : SinkState M) : Prop :=
  ∃ tick backend e, s.tick ≤ tick ∧ tick < s'.tick ∧ env.call tick backend = .error e ∧
    (err4SendToSink env.mode e = .tolerant ∨ err4SendToSink env.mode e = .ignore ∨
      err4SendToSink env.mode e = .terminate)

/-- Both paths end alike, and an `Ok` of the single path stands for a record that was taken,
    counted as dropped or discarded by strategy. -/
structure PathsAgree (record : DataRecord) (s : SinkState M) (one batch : SinkResult M Unit) :
    Prop where
  result : one.2.isOk = batch.2.isOk
  primary : one.1.rt.primary = batch.1.rt.primary
  backupUsed : one.1.rt.backupUsed = batch.1.rt.backupUsed
  health : one.1.rt.health = batch.1.rt.health
  delivered : one.1.deliveredRecords = batch.1.deliveredRecords
  dropped : one.1.drops = batch.1.drops
  counted : ∀ mark slot, one.1.counted mark slot = batch.1.counted mark slot
  accounted : one.2 = .ok () → one.1.deliveredRecords = s.deliveredRecords ++ [record] ∨
    one.1.drops ≠ s.drops ∨ Discarded env s one.1

theorem PathsAgree.more {record : DataRecord} {s : SinkState M} {one batch : SinkResult M Unit}
    (agree : PathsAgree env record s one batch) {a b c d : Nat} (single : CountsMore a b s one.1)
    (package : CountsMore c d s batch.1) : a = c ∧ b = d := by
  have started := agree.counted .started .normal
  have finished : one.1.finishedAll = batch.1.finishedAll := by
    rw [finishedAll, finishedAll, agree.counted, agree.counted]
  rw [single.1, package.1] at started
  rw [single.2, package.2] at finished
  omega

def unitMeta (unit : SinkRecUnit) (s : SinkState M) : M :=
  SinkRuntime.unitBatchMeta env.api s.rt.outputDisabled unit.procMeta

/-- The state with nothing in its buffer. -/
def emptied (batchMeta : M) (s : SinkState M) : SinkState M :=
  { s with rt := { s.rt with pendingRecords := [], pendingMeta := batchMeta } }

def andFlush (ctx : SendCtx) (r : SinkResult M Unit) : SinkResult M Unit :=
  match r with
  | (s, .error e) => (s, .error e)
  | (s, .ok ()) => s.flush env ctx

theorem flush_of_empty (ctx : SendCtx) {s : SinkState M} (empty : s.rt.pendingRecords = []) :
    s.flush env ctx = (s, .ok ()) := by
  simp [flush, flushPendingBuffer, empty]

theorem andFlush_direct (ctx : SendCtx) (records : List DataRecord) (batchMeta : M) (again : Bool)
    {s : SinkState M} (empty : s.rt.pendingRecords = []) :
    andFlush env ctx (s.sendRecordsBatch env ctx records batchMeta again) =
      s.sendRecordsBatch env ctx records batchMeta again := by
  cases sent : s.sendRecordsBatch env ctx records batchMeta again with
  | mk s₁ result =>
    cases result with
    | error e => rfl
    | ok _ =>
      have same := sendRecordsBatch_ok_buffer env ctx records batchMeta again sent
      exact flush_of_empty env ctx (same.pendingRecords.trans empty)

/-- Added to an empty buffer and flushed, a record is one batch. -/
theorem bufferSegment_of_empty (ctx : SendCtx) (record : DataRecord) (batchMeta : M)
    {s : SinkState M} (empty : s.rt.pendingRecords = []) :
    ∃ kept again, andFlush env ctx (s.bufferSegment env ctx [record] batchMeta) =
      (s.emptied kept).sendRecordsBatch env ctx [record] batchMeta again := by
  by_cases bypass : s.rt.batchSize ≤ 1
  · refine ⟨s.rt.pendingMeta, false, ?_⟩
    have same : s.emptied s.rt.pendingMeta = s := by
      rw [emptied, ← empty]
    rw [same, ← andFlush_direct env ctx _ _ _ empty]
    simp [bufferSegment, empty, bypass]
  · refine ⟨env.api.default, true, ?_⟩
    simp [bufferSegment, empty, bypass, andFlush, flush, flushPendingBuffer, emptied]

theorem sendPackageThenFlush_of_one [DecidableEq M] (ctx : SendCtx) (unit : SinkRecUnit)
    (s : SinkState M) :
    s.sendPackageThenFlush env ctx [unit] =
      if s.rt.pendingRecords ≠ [] ∧ s.rt.pendingMeta ≠ s.unitMeta env unit then
        match s.flush env ctx with
        | (s₁, .error e) => (s₁, .error e)
        | (s₁, .ok ()) => andFlush env ctx (s₁.bufferSegment env ctx [unit.data] (s.unitMeta env unit))
      else andFlush env ctx (s.bufferSegment env ctx [unit.data] (s.unitMeta env unit)) := by
  by_cases clash : s.rt.pendingRecords ≠ [] ∧ s.rt.pendingMeta ≠ s.unitMeta env unit
  · rw [if_pos clash]
    obtain ⟨nonempty, differs⟩ := clash
    rw [unitMeta] at differs
    simp only [sendPackageThenFlush, sendPackageToSink, sendPackageFrom, sendRecordSegment,
      List.isEmpty_cons, List.nil_append, Bool.false_eq_true, if_false, unitMeta, Option.getD_some]
    simp only [flush, List.isEmpty_eq_false_iff.mpr nonempty, differs, ne_eq, not_false_eq_true, decide_true,
      Bool.not_false, Bool.and_self, if_true]
    cases s.flushPendingBuffer env ctx with
    | mk s₁ result => cases result <;> rfl
  · rw [if_neg clash]
    have no_clash : (!s.rt.pendingRecords.isEmpty && decide (s.rt.pendingMeta ≠
        SinkRuntime.unitBatchMeta env.api s.rt.outputDisabled unit.procMeta)) = false := by
      rw [unitMeta] at clash
      simpa using clash
    simp only [sendPackageThenFlush, sendPackageToSink, sendPackageFrom, sendRecordSegment,
      List.isEmpty_cons, List.nil_append, Bool.false_eq_true, if_false, unitMeta, Option.getD_some,
      no_clash]
    rfl

section Waiting
variable (ctx : SendCtx)

theorem flush_of_waiting {s : SinkState M} (waiting : s.rt.pendingRecords ≠ []) :
    s.flush env ctx = (s.emptied env.api.default).sendRecordsBatch env ctx s.rt.pendingRecords
      s.rt.pendingMeta true := by
  rw [flush, flushPendingBuffer, if_neg (by simpa using waiting), emptied]

theorem andFlush_flush (s : SinkState M) :
    andFlush env ctx (s.flush env ctx) = s.flush env ctx := by
  cases flushed : s.flush env ctx with
  | mk s₁ result =>
    cases result with
    | error e => rfl
    | ok _ => exact flush_of_empty env ctx (flushPendingBuffer_ok env ctx flushed).1

/-- Added to a buffer that waits, a record is sent with it. -/
theorem bufferSegment_of_waiting (record : DataRecord) (batchMeta : M) {s : SinkState M}
    (waiting : s.rt.pendingRecords ≠ []) :
    andFlush env ctx (s.bufferSegment env ctx [record] batchMeta) =
      (s.emptied env.api.default).sendRecordsBatch env ctx (s.rt.pendingRecords ++ [record])
        s.rt.pendingMeta true := by
  have full : ({ s with rt := { s.rt with
      pendingRecords := s.rt.pendingRecords ++ [record] } } : SinkState M).rt.pendingRecords ≠ [] := by
    simp
  have flushed := flush_of_waiting env ctx full
  rw [bufferSegment, if_neg (by simp [waiting])]
  simp only [List.isEmpty_eq_false_iff.mpr waiting, Bool.false_eq_true, if_false]
  split
  · have same := andFlush_flush env ctx ({ s with rt := { s.rt with
      pendingRecords := s.rt.pendingRecords ++ [record] } } : SinkState M)
    rw [flushed] at same
    rw [flush] at flushed
    rw [flushed]
    exact same
  · exact flushed

theorem sendRecordsBatch_any_more {records : List DataRecord} (batchMeta : M) (again : Bool)
    (nonempty : records ≠ []) (s : SinkState M) :
    (¬ s.SwitchFails env ctx ∧ CountsMore records.length records.length s
      (s.sendRecordsBatch env ctx records batchMeta again).1) ∨
    (s.SwitchFails env ctx ∧ CountsMore records.length 0 s
      (s.sendRecordsBatch env ctx records batchMeta again).1) := by
  by_cases fails : s.SwitchFails env ctx
  · exact .inr ⟨fails, sendRecordsBatch_refused_more env ctx batchMeta again nonempty fails⟩
  · exact .inl ⟨fails, sendRecordsBatch_more env ctx batchMeta again nonempty fails⟩

theorem handleSendError_keeps_rescue (e : SinkError) (count : Nat) {s : SinkState M}
    (used : s.rt.backupUsed = true) :
    (s.handleSendError env ctx e count).1.rt.backupUsed = true := by
  unfold handleSendError
  split
  · unfold recordFailedDrop
    split <;> exact used
  · split <;> exact used

theorem sendLoop_keeps_rescue (payload : SinkPayload M) (records : List DataRecord) (batchMeta : M)
    (again : Bool) {s : SinkState M} (used : s.rt.backupUsed = true) :
    (s.sendLoop env ctx payload (statEndRecordsBatch records) (onThrow records batchMeta again)
      1).1.rt.backupUsed = true := by
  rw [sendLoop]
  have rt := (callPrimary_spec env payload s).2.1
  cases call : s.callPrimary env payload with
  | mk s₁ answer =>
    rw [call] at rt
    have used₁ : s₁.rt.backupUsed = true := by rw [rt, used]
    cases answer with
    | ok _ =>
      obtain ⟨health, retired, file, same⟩ : HealthOnly (s₁.statEndRecordsBatch records) _ :=
        recordSendSuccess_only rfl
      dsimp only
      rw [same]
      exact used₁
    | error e =>
      have kept := handleSendError_keeps_rescue env ctx e payload.size used₁
      dsimp only
      cases handled : s₁.handleSendError env ctx e payload.size with
      | mk s₂ verdict =>
        rw [handled] at kept
        cases verdict with
        | error failure => exact kept
        | ok verdict =>
          cases verdict with
          | retry => exact absurd handled (rescue_no_retry env used₁)
          | consume => exact kept
          | throw =>
            cases again <;> exact kept

/-- A flush whose call asks for the rescue file, and that ends well, ends in the rescue state. -/
theorem flush_moves {s s' : SinkState M} (asks : s.AsksForRescue env ctx)
    (waiting : s.rt.pendingRecords ≠ []) (flushed : s.flush env ctx = (s', .ok ())) :
    s'.rt.backupUsed = true := by
  obtain ⟨keeps, live, bad, e, failed, repairable⟩ := asks
  rw [flush_of_rescue_mode env ctx keeps waiting, sendLoop] at flushed
  have call : (s.taken env).callPrimary env (recordsPayload env s.rt.pendingRecords
      s.rt.pendingMeta) = (((s.taken env).callPrimary env (recordsPayload env s.rt.pendingRecords
        s.rt.pendingMeta)).1, .error e) := Prod.ext rfl failed
  rw [call] at flushed
  generalize begun : ((s.taken env).callPrimary env (recordsPayload env s.rt.pendingRecords
    s.rt.pendingMeta)).1 = s₁ at flushed
  have rt : s₁.rt = (s.taken env).rt := by
    rw [← begun]
    rfl
  have keeps₁ : s₁.rt.dropWhenError = false := by rw [rt]; exact keeps
  have live₁ : s₁.rt.backupUsed = false := by rw [rt]; exact live
  simp only [handleSendError, keeps₁, live₁, bad, repairable, Bool.false_eq_true, if_false,
    if_true] at flushed
  cases moved : s₁.useBackSink env ctx with
  | mk s₂ result =>
    rw [moved] at flushed
    cases result with
    | error failure => cases flushed
    | ok _ =>
      have kept := sendLoop_keeps_rescue env ctx (recordsPayload env s.rt.pendingRecords
        s.rt.pendingMeta) s.rt.pendingRecords s.rt.pendingMeta true (useBackSink_marks env moved)
      dsimp only at flushed
      rw [show s' = _ from (congrArg Prod.fst flushed).symm]
      exact kept

theorem flush_of_settled {s : SinkState M} (settled : s.Settled env) :
    ∃ s', s.flush env ctx = (s', .ok ()) := by
  by_cases waiting : s.rt.pendingRecords = []
  · exact ⟨s, flush_of_empty env ctx waiting⟩
  · cases drops : s.rt.dropWhenError with
    | true => exact flush_of_drop_mode env ctx drops
    | false =>
      have answer : env.call s.tick s.rt.primary = .ok () := by
        obtain wrong | answer := settled
        · rw [drops] at wrong
          cases wrong
        · exact answer
      rw [flush_of_rescue_mode env ctx drops waiting, sendLoop]
      have call : (s.taken env).callPrimary env (recordsPayload env s.rt.pendingRecords
          s.rt.pendingMeta) = (((s.taken env).callPrimary env (recordsPayload env
            s.rt.pendingRecords s.rt.pendingMeta)).1, .ok ()) := Prod.ext rfl answer
      rw [call]
      exact ⟨_, rfl⟩

end Waiting

section Package
variable [DecidableEq M] (ctx : SendCtx) (unit : SinkRecUnit)

/-- With an empty buffer, the package is one batch of one record. -/
theorem package_of_empty {s : SinkState M} (empty : s.rt.pendingRecords = []) :
    ∃ kept again, s.sendPackageThenFlush env ctx [unit] =
      (s.emptied kept).sendRecordsBatch env ctx [unit.data] (s.unitMeta env unit) again := by
  rw [sendPackageThenFlush_of_one, if_neg (by simp [empty])]
  exact bufferSegment_of_empty env ctx unit.data (s.unitMeta env unit) empty

theorem package_of_clash {s : SinkState M} (waiting : s.rt.pendingRecords ≠ [])
    (clash : s.rt.pendingMeta ≠ s.unitMeta env unit) (failed : ∃ s₁ e, s.flush env ctx = (s₁, .error e)) :
    s.sendPackageThenFlush env ctx [unit] = s.flush env ctx := by
  obtain ⟨s₁, e, failed⟩ := failed
  rw [sendPackageThenFlush_of_one, if_pos ⟨waiting, clash⟩, failed]

theorem package_of_empty_more {s : SinkState M} (empty : s.rt.pendingRecords = []) :
    (¬ s.SwitchFails env ctx ∧ CountsMore 1 1 s (s.sendPackageThenFlush env ctx [unit]).1) ∨
    (s.SwitchFails env ctx ∧ CountsMore 1 0 s (s.sendPackageThenFlush env ctx [unit]).1) := by
  obtain ⟨kept, again, sent⟩ := package_of_empty env ctx unit empty
  rw [sent]
  exact sendRecordsBatch_any_more env ctx (s.unitMeta env unit) again
    (List.cons_ne_nil unit.data []) (s.emptied kept)

theorem package_of_match_more {s : SinkState M} (waiting : s.rt.pendingRecords ≠ [])
    (fits : s.rt.pendingMeta = s.unitMeta env unit) :
    ∃ count, 2 ≤ count ∧
      ((¬ s.SwitchFails env ctx ∧ CountsMore count count s
        (s.sendPackageThenFlush env ctx [unit]).1) ∨
      (s.SwitchFails env ctx ∧ CountsMore count 0 s (s.sendPackageThenFlush env ctx [unit]).1)) := by
  rw [sendPackageThenFlush_of_one, if_neg (by simp [fits]),
    bufferSegment_of_waiting env ctx unit.data (s.unitMeta env unit) waiting]
  have some_waiting : 0 < s.rt.pendingRecords.length := List.length_pos_iff.mpr waiting
  exact ⟨(s.rt.pendingRecords ++ [unit.data]).length, by simp; omega,
    sendRecordsBatch_any_more env ctx s.rt.pendingMeta true (by simp) (s.emptied env.api.default)⟩

/-- A clash of metas: the records that wait go first, and the record after them. -/
theorem package_of_clash_more {s : SinkState M} (waiting : s.rt.pendingRecords ≠ [])
    (clash : s.rt.pendingMeta ≠ s.unitMeta env unit) :
    (s.SwitchFails env ctx ∧ CountsMore s.rt.pendingRecords.length 0 s
      (s.sendPackageThenFlush env ctx [unit]).1) ∨
    (¬ s.SwitchFails env ctx ∧ ∃ count, 1 ≤ count ∧
      ((¬ s.Settled env ∧ CountsMore count count s (s.sendPackageThenFlush env ctx [unit]).1) ∨
      CountsMore (count + 1) (count + 1) s (s.sendPackageThenFlush env ctx [unit]).1 ∨
      (¬ s.AsksForRescue env ctx ∧
        CountsMore (count + 1) count s (s.sendPackageThenFlush env ctx [unit]).1))) := by
  have some_waiting : 1 ≤ s.rt.pendingRecords.length := List.length_pos_iff.mpr waiting
  have flushed := flush_of_waiting env ctx waiting
  obtain ⟨switches, more⟩ | ⟨fails, more⟩ := sendRecordsBatch_any_more env ctx s.rt.pendingMeta
    true waiting (s.emptied env.api.default)
  · right
    refine ⟨switches, s.rt.pendingRecords.length, some_waiting, ?_⟩
    rw [← flushed] at more
    rw [sendPackageThenFlush_of_one, if_pos ⟨waiting, clash⟩]
    cases outcome : s.flush env ctx with
    | mk s₁ result =>
      rw [outcome] at more
      cases result with
      | error e =>
        left
        refine ⟨?_, more⟩
        intro settled
        obtain ⟨s₂, ended⟩ := flush_of_settled env ctx settled
        rw [ended] at outcome
        cases outcome
      | ok _ =>
        right
        have empty := (flushPendingBuffer_ok env ctx outcome).1
        obtain ⟨kept, again, sent⟩ :=
          bufferSegment_of_empty env ctx unit.data (s.unitMeta env unit) empty
        dsimp only
        rw [sent]
        obtain ⟨-, last⟩ | ⟨fails₁, last⟩ := sendRecordsBatch_any_more env ctx
          (s.unitMeta env unit) again (List.cons_ne_nil unit.data []) (s₁.emptied kept)
        · exact .inl (more.trans last)
        · right
          refine ⟨?_, more.trans last⟩
          -- On the rescue file there is no switch that could fail.
          intro asks
          have live := fails₁.2.1
          have used := flush_moves env ctx asks waiting outcome
          rw [show (s₁.emptied kept).rt.backupUsed = s₁.rt.backupUsed from rfl, used] at live
          cases live
  · left
    obtain ⟨failure, refused⟩ := sendRecordsBatch_refused env ctx s.rt.pendingMeta true waiting
      fails
    rw [package_of_clash env ctx unit waiting clash ⟨_, failure, flushed.trans refused⟩, flushed]
    exact ⟨fails, more⟩

end Package

/-- The monitor takes the report of a sink, and that of its rescue file where one is in use. -/
def ReportTaken (mon used : Bool) (tick : Nat) : Prop :=
  mon = true → env.monSend tick = .ok () ∧ (used = true → env.monSend (tick + 1) = .ok ())

theorem sendStatTo_ok_iff (mon : Bool) (s : SinkState M) :
    (s.sendStatTo env mon).2 = .ok () ↔ ReportTaken env mon s.rt.backupUsed s.tick := by
  unfold sendStatTo sendStat ReportTaken
  cases mon with
  | false => simp
  | true =>
    cases first : env.monSend s.tick with
    | error e => simp
    | ok _ =>
      cases used : s.rt.backupUsed <;> simp

/-- The tick at which a settled record is reported. -/
def reportTick (s : SinkState M) : Nat :=
  if s.rt.dropWhenError then
    if s.rt.health.isOpen (env.now s.tick) then s.tick + 1
    else if (env.call (s.tick + 1) s.rt.primary).isOk then s.tick + 2 else s.tick + 3
  else s.tick + 1

theorem settlement_tick (record : DataRecord) {s : SinkState M} (settled : s.Settled env) :
    (s.settlement env record).tick = s.reportTick env := by
  unfold settlement reportTick
  cases drops : s.rt.dropWhenError with
  | false =>
    obtain wrong | answer := settled
    · rw [drops] at wrong
      cases wrong
    · simp [answer]
  | true =>
    cases s.rt.health.isOpen (env.now s.tick) with
    | true => simp
    | false =>
      cases answer : env.call (s.tick + 1) s.rt.primary <;> simp [answer, Except.isOk, Except.toBool]

/-- Nothing waits, the first attempt settles the record and the monitor takes the report; or the
    call fails and the switch with it, where both paths stop at once. -/
def AgreesWhen (ctx : SendCtx) (unit : SinkRecUnit) (s : SinkState M) : Prop :=
  (s.rt.pendingRecords = [] ∧ s.Settled env ∧
    ReportTaken env ctx.mon s.rt.backupUsed (s.reportTick env)) ∨
  (s.SwitchFails env ctx ∧ (s.rt.pendingRecords = [] ∨
    s.rt.pendingRecords.length = 1 ∧ s.rt.pendingMeta ≠ s.unitMeta env unit))

/-- The same to a backend, the breaker and the drop counters. -/
structure Alike (s s' : SinkState M) : Prop where
  primary : s'.rt.primary = s.rt.primary
  backupUsed : s'.rt.backupUsed = s.rt.backupUsed
  health : s'.rt.health = s.rt.health
  retired : s'.rt.retiredRescue = s.rt.retiredRescue
  tick : s'.tick = s.tick
  delivered : s'.deliveredRecords = s.deliveredRecords
  drops : s'.drops = s.drops

theorem swapBacksink_alike {s s' : SinkState M} (alike : Alike s s') :
    Alike (s.swapBacksink env).1 (s'.swapBacksink env).1 ∧
      (s'.swapBacksink env).2 = (s.swapBacksink env).2 := by
  unfold swapBacksink
  rw [alike.retired, alike.tick]
  cases s.rt.retiredRescue with
  | some rescue =>
    exact ⟨⟨rfl, alike.backupUsed, alike.health, rfl, rfl, alike.delivered, alike.drops⟩,
      congrArg Except.ok alike.primary⟩
  | none =>
    dsimp only
    cases env.rescueOpen s.tick with
    | error e =>
      exact ⟨⟨alike.primary, alike.backupUsed, alike.health, alike.retired, rfl, alike.delivered,
        alike.drops⟩, rfl⟩
    | ok _ =>
      exact ⟨⟨rfl, alike.backupUsed, alike.health, alike.retired, rfl, alike.delivered,
        alike.drops⟩, congrArg Except.ok alike.primary⟩

theorem sendStatTo_alike (mon : Bool) {s s' : SinkState M} (alike : Alike s s') :
    Alike (s.sendStatTo env mon).1 (s'.sendStatTo env mon).1 ∧
      (s'.sendStatTo env mon).2 = (s.sendStatTo env mon).2 := by
  unfold sendStatTo
  cases mon with
  | false => exact ⟨alike, rfl⟩
  | true =>
    simp only [if_true, sendStat]
    rw [alike.tick, alike.backupUsed]
    cases env.monSend s.tick with
    | error e =>
      exact ⟨⟨alike.primary, alike.backupUsed, alike.health, alike.retired, rfl, alike.delivered,
        alike.drops⟩, rfl⟩
    | ok _ =>
      dsimp only
      split <;> exact ⟨⟨alike.primary, alike.backupUsed, alike.health, alike.retired, rfl,
        alike.delivered, alike.drops⟩, rfl⟩

theorem useBackSink_alike (ctx : SendCtx) {s s' : SinkState M} (alike : Alike s s') :
    Alike (s.useBackSink env ctx).1 (s'.useBackSink env ctx).1 := by
  obtain ⟨moved, same⟩ := swapBacksink_alike env alike
  unfold useBackSink
  cases first : s.swapBacksink env with
  | mk s₁ result =>
    cases second : s'.swapBacksink env with
    | mk s₁' result' =>
      rw [first, second] at moved same
      dsimp only at moved same
      subst same
      cases result' with
      | error e => exact moved
      | ok old =>
        have marked : Alike { s₁ with rt := { s₁.rt with backupUsed := true } }
            { s₁' with rt := { s₁'.rt with backupUsed := true } } :=
          ⟨moved.primary, rfl, moved.health, moved.retired, moved.tick, moved.delivered, moved.drops⟩
        obtain ⟨sent, equal⟩ := sendStatTo_alike env ctx.mon marked
        dsimp only
        cases report : { s₁ with rt := { s₁.rt with backupUsed := true } }.sendStatTo env
            ctx.mon with
        | mk s₂ answer =>
          cases report' : { s₁' with rt := { s₁'.rt with backupUsed := true } }.sendStatTo env
              ctx.mon with
          | mk s₂' answer' =>
            rw [report, report'] at sent equal
            dsimp only at sent equal
            subst equal
            cases answer' with
            | error e => exact sent
            | ok _ =>
              exact ⟨sent.primary, sent.backupUsed, sent.health, sent.retired,
                congrArg (· + 1) sent.tick, sent.delivered, sent.drops⟩

theorem settlement_accounts (record : DataRecord) (s : SinkState M) :
    (s.settlement env record).taken = [record] ∨ (s.settlement env record).drops ≠ [] := by
  unfold settlement
  split
  · exact .inr (by simp)
  · dsimp only
    split
    · exact .inl rfl
    · exact .inr (by simp)

theorem sendToSink_of_ok (ctx : SendCtx) {data : SinkDataEnum} {s s' : SinkState M}
    (sent : s.sendOneLoop env ctx data 2 = (s', .ok ())) :
    s.sendToSink env ctx data = s'.sendStatTo env ctx.mon := by
  rw [sendToSink, sent]

theorem sendStatTo_histories (mon : Bool) (s : SinkState M) :
    (s.sendStatTo env mon).1.calls = s.calls ∧ (s.sendStatTo env mon).1.drops = s.drops := by
  unfold sendStatTo sendStat
  split
  · split
    · exact ⟨rfl, rfl⟩
    · split <;> exact ⟨rfl, rfl⟩
  · exact ⟨rfl, rfl⟩

theorem single_refused (ctx : SendCtx) {s : SinkState M} (fails : s.SwitchFails env ctx) (data : SinkDataEnum) :
    ∃ failure, s.sendToSink env ctx data =
      (((s.called env data).useBackSink env ctx).1, .error failure) := by
  obtain ⟨asks, refused⟩ := (switchFails_iff env ctx s).mp fails
  have unsettled := unsettled_of_asks env ctx asks
  obtain ⟨failure, swapped⟩ := (useBackSink_error_iff env ctx (s.called env data)).mpr refused
  obtain ⟨quiet, -⟩ | ⟨-, ended⟩ := sendOneLoop_unsettled env ctx data 1 unsettled
  · exact absurd asks quiet
  · refine ⟨failure, ?_⟩
    rw [sendToSink, ended, show (s.called env data).useBackSink env ctx =
      (((s.called env data).useBackSink env ctx).1, .error failure) from Prod.ext rfl swapped]

section Agreement
variable [DecidableEq M] (ctx : SendCtx) (unit : SinkRecUnit)

theorem agree_of_settled {s : SinkState M} (empty : s.rt.pendingRecords = [])
    (settled : s.Settled env)
    (report : ReportTaken env ctx.mon s.rt.backupUsed (s.reportTick env)) :
    PathsAgree env unit.data s (s.sendToSink env ctx (.record unit.procMeta unit.data))
      (s.sendPackageThenFlush env ctx [unit]) := by
  obtain ⟨one, sent, single⟩ := sendOneLoop_settled env ctx unit.procMeta unit.data settled
  obtain ⟨kept, again, package⟩ := package_of_empty env ctx unit empty
  have begins : (s.emptied kept).Settled env := settled
  obtain ⟨batch, flushed, batched⟩ :=
    sendRecordsBatch_settled env ctx unit.data (s.unitMeta env unit) again begins
  replace batched : SettlesAs (s.settlement env unit.data) s batch :=
    ⟨batched.primary, batched.backupUsed, batched.health, batched.delivered, batched.drops,
      batched.tick, batched.counted⟩
  have reported : (one.sendStatTo env ctx.mon).2 = .ok () := by
    rw [sendStatTo_ok_iff, single.backupUsed, single.tick, settlement_tick env unit.data settled]
    exact report
  have rt := sendStatTo_rt env ctx.mon one
  have same := sendStatTo_stats env ctx.mon one
  obtain ⟨calls, drops⟩ := sendStatTo_histories env ctx.mon one
  have delivered : (one.sendStatTo env ctx.mon).1.deliveredRecords = one.deliveredRecords := by
    rw [deliveredRecords, deliveredRecords, accepted, accepted, calls]
  rw [sendToSink_of_ok env ctx sent, package, flushed]
  constructor
  · rw [reported]
  · rw [rt, single.primary, batched.primary]
  · rw [rt, single.backupUsed, batched.backupUsed]
  · rw [rt, single.health, batched.health]
  · rw [delivered, single.delivered, batched.delivered]
  · rw [drops, single.drops, batched.drops]
  · intro mark slot
    rw [same.counted, single.counted, batched.counted]
  · intro _
    obtain taken | dropped := settlement_accounts env unit.data s
    · exact .inl (by rw [delivered, single.delivered, taken])
    · refine .inr (.inl ?_)
      rw [drops, single.drops]
      simpa using dropped

theorem package_refused {s : SinkState M} (fails : s.SwitchFails env ctx)
    (few : s.rt.pendingRecords = [] ∨
      s.rt.pendingRecords.length = 1 ∧ s.rt.pendingMeta ≠ s.unitMeta env unit) :
    ∃ kept records batchMeta failure, records.length = 1 ∧
      s.sendPackageThenFlush env ctx [unit] =
        (((((s.emptied kept).statBegRecordsBatch records).callPrimary env
          (recordsPayload env records batchMeta)).1.useBackSink env ctx).1, .error failure) := by
  obtain empty | ⟨single, clash⟩ := few
  · obtain ⟨kept, again, package⟩ := package_of_empty env ctx unit empty
    have begins : (s.emptied kept).SwitchFails env ctx := fails
    obtain ⟨failure, refused⟩ := sendRecordsBatch_refused env ctx (s.unitMeta env unit) again
      (List.cons_ne_nil unit.data []) begins
    exact ⟨kept, [unit.data], _, failure, rfl, package.trans refused⟩
  · have waiting : s.rt.pendingRecords ≠ [] := List.length_pos_iff.mp (by omega)
    have begins : (s.emptied env.api.default).SwitchFails env ctx := fails
    obtain ⟨failure, refused⟩ := sendRecordsBatch_refused env ctx s.rt.pendingMeta true waiting
      begins
    have flushed := (flush_of_waiting env ctx waiting).trans refused
    exact ⟨env.api.default, s.rt.pendingRecords, _, failure, single,
      (package_of_clash env ctx unit waiting clash ⟨_, failure, flushed⟩).trans flushed⟩

theorem agree_of_refused {s : SinkState M} (fails : s.SwitchFails env ctx)
    (few : s.rt.pendingRecords = [] ∨
      s.rt.pendingRecords.length = 1 ∧ s.rt.pendingMeta ≠ s.unitMeta env unit) :
    PathsAgree env unit.data s (s.sendToSink env ctx (.record unit.procMeta unit.data))
      (s.sendPackageThenFlush env ctx [unit]) := by
  obtain ⟨failure₁, one⟩ := single_refused env ctx fails (.record unit.procMeta unit.data)
  obtain ⟨kept, records, batchMeta, failure₂, single, batch⟩ := package_refused env ctx unit fails few
  obtain ⟨-, -, -, ⟨e, failed, -⟩, -⟩ := fails
  rw [one, batch]
  have delivered : (s.called env (.record unit.procMeta unit.data)).deliveredRecords =
      (((s.emptied kept).statBegRecordsBatch records).callPrimary env
        (recordsPayload env records batchMeta)).1.deliveredRecords := by
    rw [called, deliveredRecords_of_call, deliveredRecords_of_call]
    change s.deliveredRecords ++ (if (env.call s.tick s.rt.primary).isOk then _ else _) =
      s.deliveredRecords ++ if (env.call s.tick s.rt.primary).isOk then _ else _
    rw [failed]
    rfl
  have alike : Alike (((s.emptied kept).statBegRecordsBatch records).callPrimary env
      (recordsPayload env records batchMeta)).1 (s.called env (.record unit.procMeta unit.data)) :=
    ⟨rfl, rfl, rfl, rfl, rfl, delivered, rfl⟩
  obtain ⟨primary, used, health, -, -, delivered, drops⟩ := useBackSink_alike env ctx alike
  constructor
  · rfl
  · exact primary
  · exact used
  · exact health
  · exact delivered
  · exact drops
  · intro mark slot
    rw [(useBackSink_stats env ctx _).counted, (useBackSink_stats env ctx _).counted]
    change (s.statBeg (.record unit.procMeta unit.data)).counted mark slot =
      ((s.emptied kept).statBegRecordsBatch records).counted mark slot
    rw [statBeg, statBegRecordsBatch, counted_statStart, counted_statStart, recordUnits_size, single]
    rfl
  · rintro ⟨⟩

theorem few_of_agree {s : SinkState M} (fails : s.SwitchFails env ctx)
    (agree : PathsAgree env unit.data s (s.sendToSink env ctx (.record unit.procMeta unit.data))
      (s.sendPackageThenFlush env ctx [unit])) :
    s.rt.pendingRecords = [] ∨
      s.rt.pendingRecords.length = 1 ∧ s.rt.pendingMeta ≠ s.unitMeta env unit := by
  obtain ⟨started, finished, more, -, -, -, once⟩ :=
    sendOneLoop_more env ctx unit.procMeta unit.data s
  have single := sendToSink_more env ctx unit.procMeta unit.data more
  have one := once fails
  by_cases waiting : s.rt.pendingRecords = []
  · exact .inl waiting
  · right
    by_cases fits : s.rt.pendingMeta = s.unitMeta env unit
    · obtain ⟨count, many, ⟨switches, -⟩ | ⟨-, package⟩⟩ :=
        package_of_match_more env ctx unit waiting fits
      · exact absurd fails switches
      · have same := (agree.more env single package).1
        omega
    · obtain ⟨-, package⟩ | ⟨switches, -⟩ := package_of_clash_more env ctx unit waiting fits
      · have same := (agree.more env single package).1
        exact ⟨by omega, fits⟩
      · exact absurd fails switches

theorem settled_of_agree {s : SinkState M} (switches : ¬ s.SwitchFails env ctx)
    (agree : PathsAgree env unit.data s (s.sendToSink env ctx (.record unit.procMeta unit.data))
      (s.sendPackageThenFlush env ctx [unit])) :
    s.rt.pendingRecords = [] ∧ s.Settled env := by
  obtain ⟨started, finished, more, whole, part, twice, -⟩ :=
    sendOneLoop_more env ctx unit.procMeta unit.data s
  have single := sendToSink_more env ctx unit.procMeta unit.data more
  -- the path of one record starts and finishes it once, or finishes less than it starts
  have counts : started = 1 ∧ finished = 1 ∨ finished < started := by
    by_cases settled : s.Settled env
    · exact .inl (whole settled)
    · exact .inr (part settled).1
  by_cases waiting : s.rt.pendingRecords = []
  · refine ⟨waiting, ?_⟩
    obtain ⟨-, package⟩ | ⟨fails, -⟩ := package_of_empty_more env ctx unit waiting
    · by_contra unsettled
      have less := part unsettled
      have same := agree.more env single package
      omega
    · exact absurd fails switches
  · exfalso
    by_cases fits : s.rt.pendingMeta = s.unitMeta env unit
    · obtain ⟨count, many, ⟨-, package⟩ | ⟨fails, -⟩⟩ :=
        package_of_match_more env ctx unit waiting fits
      · have same := agree.more env single package
        omega
      · exact switches fails
    · obtain ⟨fails, -⟩ | ⟨-, count, some_waiting, rest⟩ :=
        package_of_clash_more env ctx unit waiting fits
      · exact switches fails
      · obtain ⟨unsettled, package⟩ | package | ⟨quiet, package⟩ := rest
        · have same := agree.more env single package
          have less := part unsettled
          omega
        · have same := agree.more env single package
          omega
        · have same := agree.more env single package
          by_cases settled : s.Settled env
          · have one := whole settled
            omega
          · have less := part settled
            exact quiet (twice (by omega))

/-- The two paths agree when nothing waits in the buffer, the first attempt settles the record and
    the monitor takes its report; or when the switch to the rescue file fails. -/
theorem single_path_agrees_iff (s : SinkState M) :
    PathsAgree env unit.data s (s.sendToSink env ctx (.record unit.procMeta unit.data))
      (s.sendPackageThenFlush env ctx [unit]) ↔ s.AgreesWhen env ctx unit := by
  constructor
  · intro agree
    by_cases fails : s.SwitchFails env ctx
    · exact .inr ⟨fails, few_of_agree env ctx unit fails agree⟩
    · obtain ⟨empty, settled⟩ := settled_of_agree env ctx unit fails agree
      refine .inl ⟨empty, settled, ?_⟩
      obtain ⟨one, sent, single⟩ := sendOneLoop_settled env ctx unit.procMeta unit.data settled
      obtain ⟨kept, again, package⟩ := package_of_empty env ctx unit empty
      have begins : (s.emptied kept).Settled env := settled
      obtain ⟨batch, flushed, -⟩ :=
        sendRecordsBatch_settled env ctx unit.data (s.unitMeta env unit) again begins
      have result := agree.result
      rw [package, flushed, sendToSink_of_ok env ctx sent] at result
      rw [← settlement_tick env unit.data settled, ← single.tick, ← single.backupUsed,
        ← sendStatTo_ok_iff]
      cases report : (one.sendStatTo env ctx.mon).2 with
      | ok _ => rfl
      | error e =>
        rw [report] at result
        cases result
  · rintro (⟨empty, settled, report⟩ | ⟨fails, few⟩)
    · exact agree_of_settled env ctx unit empty settled report
    · exact agree_of_refused env ctx unit fails few

end Agreement

end Env

end SinkState

/-- Without a channel for broken backends a failing call is an `Ok` of the single path, with the
    record lost, and an error of the package path. -/
theorem single_path_passes_over_an_error :
    ((SinkState.start plainMetaApi fileSinkConf (.real 0)).sendToSink (plainEnv (fun _ => true))
      ⟨false, false⟩ (.record .null ⟨1, []⟩)).2 = .ok () ∧
    ((SinkState.start plainMetaApi fileSinkConf (.real 0)).sendPackageThenFlush
      (plainEnv (fun _ => true)) ⟨false, false⟩ [⟨1, .null, ⟨1, []⟩⟩]).2 = .error ⟨.sink, none⟩ ∧
    ¬ SinkState.PathsAgree (plainEnv (fun _ => true)) ⟨1, []⟩
      (SinkState.start plainMetaApi fileSinkConf (.real 0))
      ((SinkState.start plainMetaApi fileSinkConf (.real 0)).sendToSink (plainEnv (fun _ => true))
        ⟨false, false⟩ (.record .null ⟨1, []⟩))
      ((SinkState.start plainMetaApi fileSinkConf (.real 0)).sendPackageThenFlush
        (plainEnv (fun _ => true)) ⟨false, false⟩ [⟨1, .null, ⟨1, []⟩⟩]) := by
  refine ⟨by decide, by decide, ?_⟩
  intro agree
  have result := agree.result
  revert result
  decide

end WarpMotor
