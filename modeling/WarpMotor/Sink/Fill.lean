import WarpMotor.Lib.BatchBuffer
import WarpMotor.Sink.Conservation

/-!
How full the buffer of a runtime is. As long as its calls end without an error
the buffer holds what the packages and flushes it was given leave in a
`BatchBuffer`, whatever the backend, the rescue file, the breaker and the
monitor answer on the way: an answer decides where a batch goes, not when it
leaves the buffer.
-/
namespace WarpMotor
open BatchBuffer

namespace SinkState
variable {M : Type}

/-- The settings that decide the fill are the same. -/
structure SameShape (s s' : SinkState M) : Prop where
  batchSize : s'.rt.batchSize = s.rt.batchSize
  outputDisabled : s'.rt.outputDisabled = s.rt.outputDisabled

theorem SameShape.trans {s₁ s₂ s₃ : SinkState M} (first : SameShape s₁ s₂)
    (second : SameShape s₂ s₃) : SameShape s₁ s₃ :=
  ⟨second.batchSize.trans first.batchSize, second.outputDisabled.trans first.outputDisabled⟩

theorem SameBuffer.shape {s s' : SinkState M} (same : SameBuffer s s') : SameShape s s' :=
  ⟨same.batchSize, same.outputDisabled⟩

def HasFill (s : SinkState M) (fill : Fill M) : Prop :=
  s.rt.pendingRecords.length = fill.count ∧ (fill.count ≠ 0 → s.rt.pendingMeta = fill.key)

theorem hasFill_empty {s : SinkState M} (empty : s.rt.pendingRecords = []) (key : M) :
    s.HasFill ⟨0, key⟩ := by
  refine ⟨by rw [empty]; rfl, ?_⟩
  intro filled
  exact absurd rfl filled

section Env
variable (env : SinkEnv M)

theorem swapBacksink_buffer (s : SinkState M) : SameBuffer s (s.swapBacksink env).1 := by
  unfold swapBacksink
  split
  · exact ⟨rfl, rfl, rfl, rfl⟩
  · dsimp only
    split <;> exact ⟨rfl, rfl, rfl, rfl⟩

theorem useBackSink_buffer (ctx : SendCtx) (s : SinkState M) :
    SameBuffer s (s.useBackSink env ctx).1 := by
  have swapped := swapBacksink_buffer env s
  unfold useBackSink
  cases outcome : s.swapBacksink env with
  | mk s₁ result =>
    rw [outcome] at swapped
    cases result with
    | error e => exact swapped
    | ok old =>
      have reported := sendStatTo_rt env ctx.mon { s₁ with rt := { s₁.rt with backupUsed := true } }
      have marked : SameBuffer s { s₁ with rt := { s₁.rt with backupUsed := true } } :=
        ⟨swapped.pendingRecords, swapped.pendingMeta, swapped.outputDisabled, swapped.batchSize⟩
      dsimp only
      cases sent : { s₁ with rt := { s₁.rt with backupUsed := true } }.sendStatTo env ctx.mon with
      | mk s₂ result =>
        rw [sent] at reported
        have kept := marked.trans (SameBuffer.of_rt reported)
        cases result with
        | error e => exact kept
        | ok _ => exact ⟨kept.pendingRecords, kept.pendingMeta, kept.outputDisabled, kept.batchSize⟩

theorem recoverSink_buffer (handle : ASinkHandle) (s : SinkState M) :
    SameBuffer s (s.recoverSink env handle).1 := by
  unfold recoverSink
  split
  · dsimp only
    split
    · rename_i stopped
      split at stopped <;> (obtain ⟨rfl, -⟩ := Prod.mk.inj stopped; exact ⟨rfl, rfl, rfl, rfl⟩)
    · rename_i s₁ stopped
      have swapped : SameBuffer s s₁ := by
        split at stopped <;> (obtain ⟨rfl, -⟩ := Prod.mk.inj stopped; exact ⟨rfl, rfl, rfl, rfl⟩)
      have sent : (s₁.sendStat env).1.rt = s₁.rt := sendStatTo_rt env true s₁
      have kept := swapped.trans (SameBuffer.of_rt sent)
      split
      · rename_i outcome
        rw [outcome] at kept
        exact kept
      · rename_i outcome
        rw [outcome] at kept
        exact ⟨kept.pendingRecords, kept.pendingMeta, kept.outputDisabled, kept.batchSize⟩
  · exact SameBuffer.of_rt rfl

theorem handleSendError_buffer (ctx : SendCtx) (e : SinkError) (count : Nat) (s : SinkState M) :
    SameBuffer s (s.handleSendError env ctx e count).1 := by
  have same : SameBuffer s s := SameBuffer.of_rt rfl
  unfold handleSendError
  split
  · unfold recordFailedDrop
    split <;> exact ⟨rfl, rfl, rfl, rfl⟩
  · split
    · split
      · exact same
      · split
        · have swapped := useBackSink_buffer env ctx s
          split <;> (rename_i outcome; rw [outcome] at swapped; exact swapped)
        · exact same
    all_goals exact same

theorem sendLoop_ok_buffer (ctx : SendCtx) (payload : SinkPayload M)
    {statDone : SinkState M → SinkState M} (onThrow : SinkState M → SinkState M)
    (statOnly : StatOnly statDone) (budget : Nat) {s s' : SinkState M}
    (sent : s.sendLoop env ctx payload statDone onThrow budget = (s', .ok ())) :
    SameBuffer s s' := by
  induction budget generalizing s with
  | zero => cases sent
  | succ budget ih =>
    unfold sendLoop at sent
    cases answer : s.callPrimary env payload with
    | mk s₁ result =>
      rw [answer] at sent
      cases result with
      | ok _ =>
        obtain ⟨rfl, -⟩ := Prod.mk.inj sent
        have called := SameBuffer.of_rt (callPrimary_accepted env answer).1
        have ended := called.trans (SameBuffer.of_rt (statOnly.rt s₁))
        exact ended.trans (recordSendSuccess_buffer _)
      | error e =>
        have called := SameBuffer.of_rt (callPrimary_refused env answer).1
        have handled := handleSendError_buffer env ctx e payload.size s₁
        dsimp only at sent
        cases outcome : s₁.handleSendError env ctx e payload.size with
        | mk s₂ result =>
          rw [outcome] at sent handled
          have kept := called.trans handled
          cases result with
          | error failure => cases sent
          | ok decision =>
            cases decision with
            | retry => exact kept.trans (ih sent)
            | consume =>
              obtain ⟨rfl, -⟩ := Prod.mk.inj sent
              exact kept.trans (SameBuffer.of_rt (statOnly.rt s₂))
            | throw => cases sent

theorem dropBatchIfOpen_buffer (count : Nat) (s : SinkState M) :
    SameBuffer s (s.dropBatchIfOpen env count).1 := by
  unfold dropBatchIfOpen shouldSkipSend
  split
  · rename_i asked
    split at asked
    · obtain ⟨rfl, -⟩ := Prod.mk.inj asked
      unfold recordSkippedDrop
      split <;> exact ⟨rfl, rfl, rfl, rfl⟩
    · cases asked
  · rename_i asked
    split at asked <;> (obtain ⟨rfl, -⟩ := Prod.mk.inj asked; exact ⟨rfl, rfl, rfl, rfl⟩)

/-- A batch that is sent without an error touches no buffer. -/
theorem sendRecordsBatch_ok_buffer (ctx : SendCtx) (records : List DataRecord) (batchMeta : M)
    (requeue : Bool) {s s' : SinkState M}
    (sent : s.sendRecordsBatch env ctx records batchMeta requeue = (s', .ok ())) :
    SameBuffer s s' := by
  unfold sendRecordsBatch at sent
  split at sent
  · cases sent
    exact SameBuffer.of_rt rfl
  · have asked := dropBatchIfOpen_buffer env records.length s
    split at sent
    · rename_i s₁ outcome
      rw [outcome] at asked
      cases sent
      exact asked.trans (SameBuffer.of_rt rfl)
    · rename_i s₁ outcome
      rw [outcome] at asked
      have begun : SameBuffer s (s₁.statBegRecordsBatch records) :=
        asked.trans (SameBuffer.of_rt rfl)
      exact begun.trans
        (sendLoop_ok_buffer env ctx _ _ (statEndRecordsBatch_statOnly records) 2 sent)

theorem flushPendingBuffer_ok (ctx : SendCtx) {s s' : SinkState M}
    (flushed : s.flushPendingBuffer env ctx = (s', .ok ())) :
    s'.rt.pendingRecords = [] ∧ SameShape s s' := by
  unfold flushPendingBuffer at flushed
  split at flushed
  · rename_i empty
    cases flushed
    exact ⟨List.isEmpty_iff.mp empty, rfl, rfl⟩
  · have sent := sendRecordsBatch_ok_buffer env ctx _ _ true flushed
    exact ⟨sent.pendingRecords, sent.batchSize, sent.outputDisabled⟩

/-- The fill after a segment that the buffer takes as it is. -/
def segmentFill (capacity waiting : Nat) (batchMeta : M) (count : Nat) : Fill M :=
  if capacity ≤ waiting + count then ⟨0, batchMeta⟩ else ⟨waiting + count, batchMeta⟩

theorem bufferSegment_ok (ctx : SendCtx) (records : List DataRecord) (batchMeta : M)
    {s s' : SinkState M} (fits : s.Fits batchMeta)
    (sent : s.bufferSegment env ctx records batchMeta = (s', .ok ())) :
    s'.HasFill (segmentFill s.rt.batchSize s.rt.pendingRecords.length batchMeta records.length) ∧
      SameShape s s' := by
  unfold bufferSegment at sent
  split at sent
  · rename_i bypass
    simp only [Bool.and_eq_true, List.isEmpty_iff, decide_eq_true_eq] at bypass
    have direct := sendRecordsBatch_ok_buffer env ctx records batchMeta false sent
    refine ⟨?_, direct.shape⟩
    have full : s.rt.batchSize ≤ s.rt.pendingRecords.length + records.length := by omega
    rw [segmentFill, if_pos full]
    exact hasFill_empty (direct.pendingRecords.trans bypass.1) batchMeta
  · dsimp only at sent
    rw [segmentFill, ← List.length_append]
    split at sent
    · rename_i full
      obtain ⟨empty, shape⟩ := flushPendingBuffer_ok env ctx sent
      rw [if_pos full]
      exact ⟨hasFill_empty empty batchMeta, shape.batchSize, shape.outputDisabled⟩
    · rename_i space
      cases sent
      rw [if_neg space]
      refine ⟨⟨rfl, ?_⟩, rfl, rfl⟩
      intro _
      exact fits.keep

/-- The meta of each unit of a package. -/
def unitMetas (s : SinkState M) (package : SinkPackage) : List M :=
  package.map (fun unit => SinkRuntime.unitBatchMeta env.api s.rt.outputDisabled unit.procMeta)

theorem SameShape.unitMetas {s s' : SinkState M} (shape : SameShape s s')
    (package : SinkPackage) : SinkState.unitMetas env s' package = SinkState.unitMetas env s package := by
  rw [SinkState.unitMetas, shape.outputDisabled, SinkState.unitMetas]

theorem replicate_snoc_cons {A : Type} (count : Nat) (key : A) (rest : List A) :
    List.replicate (count + 1) key ++ rest = List.replicate count key ++ key :: rest := by
  rw [List.replicate_succ', List.append_assoc, List.singleton_append]

/-- Records that wait under another meta are records of another key. -/
theorem HasFill.key_ne {s : SinkState M} {fill : Fill M} {batchMeta : M} (filled : s.HasFill fill)
    (some_wait : s.rt.pendingRecords ≠ []) (other : s.rt.pendingMeta ≠ batchMeta) :
    fill.key ≠ batchMeta := by
  have waiting : fill.count ≠ 0 := by
    rw [← filled.1]
    simpa using some_wait
  rw [← filled.2 waiting]
  exact other

variable [DecidableEq M]

/-- A segment that fits joins all the records that wait. -/
theorem HasFill.waiting {s : SinkState M} {fill : Fill M} {batchMeta : M} (filled : s.HasFill fill)
    (fits : s.Fits batchMeta) :
    (if fill.key = batchMeta then fill.count else 0) = s.rt.pendingRecords.length := by
  rw [filled.1]
  split
  · rfl
  · rename_i key
    by_contra some_waiting
    have filled₀ : fill.count ≠ 0 := fun zero => some_waiting zero.symm
    rcases fits with empty | meta₀
    · rw [← filled.1, empty] at filled₀
      exact filled₀ rfl
    · exact key ((filled.2 filled₀).symm.trans meta₀)

theorem sendRecordSegment_ok (ctx : SendCtx) (records : List DataRecord) (batchMeta : M)
    {s s' : SinkState M} {fill : Fill M} (filled : s.HasFill fill)
    (sent : s.sendRecordSegment env ctx records batchMeta = (s', .ok ())) :
    s'.HasFill (addSegment s.rt.batchSize fill (batchMeta, records.length)) ∧ SameShape s s' := by
  unfold sendRecordSegment at sent
  unfold addSegment
  split at sent
  · rename_i empty
    cases sent
    rw [List.isEmpty_iff] at empty
    rw [if_pos (by simp [empty])]
    exact ⟨filled, rfl, rfl⟩
  · rename_i some_left
    have count : records.length ≠ 0 := by simpa using some_left
    rw [if_neg count]
    dsimp only
    split at sent
    · rename_i other
      -- a segment of another meta: the buffer is flushed before it
      have differs : s.rt.pendingRecords ≠ [] ∧ s.rt.pendingMeta ≠ batchMeta := by
        simpa using other
      have key : fill.key ≠ batchMeta := filled.key_ne differs.1 differs.2
      cases outcome : s.flushPendingBuffer env ctx with
      | mk s₁ result =>
        rw [outcome] at sent
        cases result with
        | error e => cases sent
        | ok _ =>
          obtain ⟨empty, shape⟩ := flushPendingBuffer_ok env ctx outcome
          obtain ⟨fill₁, shape₁⟩ := bufferSegment_ok env ctx records batchMeta (.inl empty) sent
          refine ⟨?_, shape.trans shape₁⟩
          rw [empty, shape.batchSize] at fill₁
          rw [if_neg key]
          exact fill₁
    · rename_i same
      have fits : s.Fits batchMeta := fits_of_no_flush same
      obtain ⟨fill₁, shape₁⟩ := bufferSegment_ok env ctx records batchMeta fits sent
      refine ⟨?_, shape₁⟩
      rw [filled.waiting fits]
      exact fill₁

/-- Induction on the units left; the open segment stands before them. -/
theorem sendMixedMetaPackage_ok (ctx : SendCtx) (package : SinkPackage)
    (records : List DataRecord) (batchMeta : M) {s s' : SinkState M} {fill : Fill M}
    (filled : s.HasFill fill)
    (sent : s.sendMixedMetaPackage env ctx package records batchMeta = (s', .ok ())) :
    s'.HasFill (addKeys s.rt.batchSize fill
        (List.replicate records.length batchMeta ++ s.unitMetas env package)) ∧
      SameShape s s' := by
  induction package generalizing records batchMeta s fill with
  | nil =>
    have last := sendRecordSegment_ok env ctx records batchMeta filled sent
    simpa [SinkState.unitMetas, addKeys_run] using last
  | cons unit rest ih =>
    unfold sendMixedMetaPackage at sent
    dsimp only at sent
    split at sent
    · rename_i different
      cases outcome : s.sendRecordSegment env ctx records batchMeta with
      | mk s₁ result =>
        rw [outcome] at sent
        cases result with
        | error e => cases sent
        | ok _ =>
          obtain ⟨fill₁, shape₁⟩ := sendRecordSegment_ok env ctx records batchMeta filled outcome
          obtain ⟨fill₂, shape₂⟩ := ih _ _ fill₁ sent
          refine ⟨?_, shape₁.trans shape₂⟩
          rw [shape₁.batchSize, shape₁.unitMetas env] at fill₂
          rw [SinkState.unitMetas, List.map_cons, addKeys_run_cons _ _ different]
          exact fill₂
    · rename_i same
      have same' : batchMeta =
          SinkRuntime.unitBatchMeta env.api s.rt.outputDisabled unit.procMeta := by
        simpa using same
      obtain ⟨fill₁, shape₁⟩ := ih _ _ filled sent
      refine ⟨?_, shape₁⟩
      rw [List.length_append, List.length_singleton, replicate_snoc_cons] at fill₁
      rw [SinkState.unitMetas, List.map_cons, ← same']
      exact fill₁

theorem sendPackageFrom_ok (ctx : SendCtx) (package : SinkPackage) (records : List DataRecord)
    (batchMeta : M) {s s' : SinkState M} {fill : Fill M} (filled : s.HasFill fill)
    (sent : s.sendPackageFrom env ctx package records (some batchMeta) = (s', .ok ())) :
    s'.HasFill (addKeys s.rt.batchSize fill
        (List.replicate records.length batchMeta ++ s.unitMetas env package)) ∧
      SameShape s s' := by
  induction package generalizing records with
  | nil =>
    have last := sendRecordSegment_ok env ctx records batchMeta filled sent
    simpa [SinkState.unitMetas, addKeys_run] using last
  | cons unit rest ih =>
    unfold sendPackageFrom at sent
    dsimp only at sent
    split at sent
    · exact sendMixedMetaPackage_ok env ctx (unit :: rest) records batchMeta filled sent
    · rename_i same
      have same' : batchMeta =
          SinkRuntime.unitBatchMeta env.api s.rt.outputDisabled unit.procMeta := by
        simpa using same
      obtain ⟨fill₁, shape₁⟩ := ih _ sent
      refine ⟨?_, shape₁⟩
      rw [List.length_append, List.length_singleton, replicate_snoc_cons] at fill₁
      rw [SinkState.unitMetas, List.map_cons, ← same']
      exact fill₁

theorem sendPackageToSink_ok (ctx : SendCtx) (package : SinkPackage) {s s' : SinkState M}
    {fill : Fill M} (filled : s.HasFill fill)
    (sent : s.sendPackageToSink env ctx package = (s', .ok ())) :
    s'.HasFill (addKeys s.rt.batchSize fill (s.unitMetas env package)) ∧ SameShape s s' := by
  unfold sendPackageToSink at sent
  cases package with
  | nil =>
    cases sent
    exact ⟨filled, rfl, rfl⟩
  | cons unit rest =>
    rw [if_neg (by simp)] at sent
    unfold sendPackageFrom at sent
    have packed := sendPackageFrom_ok env ctx rest [unit.data] _ filled sent
    simpa [SinkState.unitMetas] using packed

end Env
end SinkState

namespace SinkSlot
variable {M : Type} [DecidableEq M]

/-- What one input does to the fill of the slot's buffer. -/
def addInput (slot : SinkSlot M) (fill : Fill M) : SinkInput → Fill M
  | .package package =>
    addKeys slot.state.rt.batchSize fill (slot.state.unitMetas slot.env package)
  | .flush => ⟨0, slot.env.api.default⟩

/-- The fill that the slot's inputs leave, counted without looking at any outcome. -/
def fill (slot : SinkSlot M) : Fill M :=
  slot.inputs.foldl slot.addInput ⟨0, slot.env.api.default⟩

def Counted (slot : SinkSlot M) : Prop := slot.state.HasFill slot.fill

theorem fill_of_shape (slot slot' : SinkSlot M) (env : slot'.env = slot.env)
    (shape : SinkState.SameShape slot.state slot'.state) {input : SinkInput}
    (inputs : slot'.inputs = slot.inputs ++ [input]) :
    slot'.fill = slot.addInput slot.fill input := by
  have step : slot'.addInput = slot.addInput := by
    funext fill input
    cases input with
    | package package => simp only [addInput, shape.batchSize, env, shape.unitMetas]
    | flush => simp only [addInput, env]
  rw [fill, inputs, List.foldl_append, step, env]
  rfl

theorem sendPackage_counted {ctx : SendCtx} {package : SinkPackage} {slot slot' : SinkSlot M}
    (counted : slot.Counted) (sent : slot.sendPackage ctx package = (slot', .ok ())) :
    slot'.Counted := by
  unfold sendPackage at sent
  cases outcome : slot.state.sendPackageToSink slot.env ctx package with
  | mk state result =>
    rw [outcome] at sent
    obtain ⟨rfl, rfl⟩ := Prod.mk.inj sent
    obtain ⟨filled, shape⟩ := SinkState.sendPackageToSink_ok slot.env ctx package counted outcome
    have added := fill_of_shape slot { slot with state, inputs := slot.inputs ++ [.package package] }
      rfl shape rfl
    rw [Counted, added]
    exact filled

theorem flush_counted {ctx : SendCtx} {slot slot' : SinkSlot M}
    (sent : slot.flush ctx = (slot', .ok ())) : slot'.Counted := by
  unfold flush at sent
  cases outcome : slot.state.flush slot.env ctx with
  | mk state result =>
    rw [outcome] at sent
    obtain ⟨rfl, rfl⟩ := Prod.mk.inj sent
    obtain ⟨empty, shape⟩ := SinkState.flushPendingBuffer_ok slot.env ctx outcome
    have added := fill_of_shape slot { slot with state, inputs := slot.inputs ++ [.flush] }
      rfl shape rfl
    rw [Counted, added]
    exact SinkState.hasFill_empty empty _

theorem counted_iff_empty {slot : SinkSlot M} (counted : slot.Counted) :
    slot.state.rt.pendingRecords = [] ↔ slot.fill.count = 0 := by
  rw [← List.length_eq_zero_iff, counted.1]

end SinkSlot
end WarpMotor
