import WarpMotor.Lib.Runs
import WarpMotor.Sink.Rescue

/-!
The record path of a sink in rescue mode neither loses nor repeats a record.
The quantity followed through every function is the list of records with the
meta they were sent under: first those of accepted calls, in time order, then
those in the buffer. A send extends it by its own records; flushing and
recovery leave it as it is. Backends may fail at any call; what is assumed is
that failures are repairable, that rescue files can be opened and written, and
that the monitor takes its reports.
-/
namespace WarpMotor

structure RescueReliable {M : Type} (env : SinkEnv M) : Prop where
  monitor : ∀ tick, env.monSend tick = .ok ()
  rescueOpens : ∀ tick, env.rescueOpen tick = .ok ()
  rescueWrites : ∀ tick seq, env.call tick (.rescueFile seq) = .ok ()
  repairable : ∀ tick backend e, env.call tick backend = .error e →
    err4SendToSink env.mode e = .fixRetry

/-- The records of a call, each with the meta of the call. -/
def SinkPayload.pairs {M : Type} (api : BatchMetaApi M) : SinkPayload M → List (M × DataRecord)
  | .records batchMeta data => data.map (fun record => (batchMeta.getD api.default, record))
  | .record data => [(api.default, data)]
  | .str _ => []
  | .strBatch _ => []

namespace SinkState
variable {M : Type}

/-- The payloads of the calls that a backend took, in time order. -/
def accepted (s : SinkState M) : List (SinkPayload M) :=
  (s.calls.filter SinkCall.accepted).map SinkCall.payload

def acceptedPairs (api : BatchMetaApi M) (s : SinkState M) : List (M × DataRecord) :=
  s.accepted.flatMap (SinkPayload.pairs api)

def pendingPairs (s : SinkState M) : List (M × DataRecord) :=
  s.rt.pendingRecords.map (fun record => (s.rt.pendingMeta, record))

def content (api : BatchMetaApi M) (s : SinkState M) : List (M × DataRecord) :=
  s.acceptedPairs api ++ s.pendingPairs

/-- Outside drop mode the rescue state and the retired slot hold rescue files only. -/
structure Steady (s : SinkState M) : Prop where
  keeps : s.rt.dropWhenError = false
  rescued : s.rt.backupUsed = true → ∃ seq, s.rt.primary = .rescueFile seq
  cleared : s.rt.backupUsed = true → s.rt.retiredRescue = none
  retired : ∀ backend, s.rt.retiredRescue = some backend → ∃ seq, backend = .rescueFile seq

/-- Nothing that the buffer logic reads has changed. -/
structure SameBuffer (s s' : SinkState M) : Prop where
  pendingRecords : s'.rt.pendingRecords = s.rt.pendingRecords
  pendingMeta : s'.rt.pendingMeta = s.rt.pendingMeta
  outputDisabled : s'.rt.outputDisabled = s.rt.outputDisabled
  batchSize : s'.rt.batchSize = s.rt.batchSize

theorem SameBuffer.trans {s₁ s₂ s₃ : SinkState M} (first : SameBuffer s₁ s₂)
    (second : SameBuffer s₂ s₃) : SameBuffer s₁ s₃ :=
  ⟨second.pendingRecords.trans first.pendingRecords, second.pendingMeta.trans first.pendingMeta,
    second.outputDisabled.trans first.outputDisabled, second.batchSize.trans first.batchSize⟩

theorem recordSendSuccess_calls (s : SinkState M) : s.recordSendSuccess.calls = s.calls := by
  unfold recordSendSuccess
  dsimp only
  split <;> rfl

theorem recordSendSuccess_buffer (s : SinkState M) : SameBuffer s s.recordSendSuccess := by
  unfold recordSendSuccess
  dsimp only
  split <;> exact ⟨rfl, rfl, rfl, rfl⟩

theorem recordSendSuccess_steady {s : SinkState M} (steady : s.Steady) :
    s.recordSendSuccess.Steady := by
  unfold recordSendSuccess
  dsimp only
  split
  · refine ⟨steady.keeps, steady.rescued, fun _ => rfl, ?_⟩
    intro backend kept
    cases kept
  · exact ⟨steady.keeps, steady.rescued, steady.cleared, steady.retired⟩

section Env
variable (env : SinkEnv M)

theorem callPrimary_accepted {s s' : SinkState M} {payload : SinkPayload M}
    (answer : s.callPrimary env payload = (s', .ok ())) :
    s'.rt = s.rt ∧ s'.accepted = s.accepted ++ [payload] := by
  unfold callPrimary at answer
  obtain ⟨rfl, ok⟩ := Prod.mk.inj answer
  refine ⟨rfl, ?_⟩
  simp [accepted, ok, Except.isOk, Except.toBool]

theorem callPrimary_refused {s s' : SinkState M} {payload : SinkPayload M} {e : SinkError}
    (answer : s.callPrimary env payload = (s', .error e)) :
    s'.rt = s.rt ∧ s'.accepted = s.accepted ∧ env.call s.tick s.rt.primary = .error e := by
  unfold callPrimary at answer
  obtain ⟨rfl, failed⟩ := Prod.mk.inj answer
  refine ⟨rfl, ?_, failed⟩
  simp [accepted, failed, Except.isOk, Except.toBool]

/-- The way to the rescue file always succeeds and touches neither buffer nor calls. -/
theorem useBackSink_reliable (reliable : RescueReliable env) (ctx : SendCtx) {s : SinkState M}
    (steady : s.Steady) :
    ∃ s' seq, s.useBackSink env ctx = (s', .ok ()) ∧ s'.rt.primary = .rescueFile seq ∧
      s'.rt.backupUsed = true ∧ s'.Steady ∧ SameBuffer s s' ∧ s'.calls = s.calls := by
  have reported := fun s : SinkState M => sendStatTo_open env reliable.monitor s ctx.mon
  unfold useBackSink swapBacksink
  cases kept : s.rt.retiredRescue with
  | some rescue =>
    obtain ⟨seq, file⟩ := steady.retired rescue kept
    obtain ⟨tick, sent⟩ := reported
      { s with rt := { s.rt with primary := rescue, retiredRescue := none, backupUsed := true } }
    dsimp only
    rw [sent]
    refine ⟨_, seq, rfl, file, rfl, ⟨steady.keeps, fun _ => ⟨seq, file⟩, fun _ => rfl, ?_⟩,
      ⟨rfl, rfl, rfl, rfl⟩, rfl⟩
    intro backend none
    cases none
  | none =>
    rw [reliable.rescueOpens]
    dsimp only
    obtain ⟨tick, sent⟩ := reported
      { s with
        tick := s.tick + 1
        rt := { s.rt with
          primary := .rescueFile (env.rescueSeq s.tick)
          rescueFile := some (rescueFilePath s.rt.rescue s.rt.name (env.fmtTime s.tick)
            (env.rescueSeq s.tick))
          backupUsed := true } }
    rw [sent]
    refine ⟨_, env.rescueSeq s.tick, rfl, rfl, rfl,
      ⟨steady.keeps, fun _ => ⟨_, rfl⟩, fun _ => kept, ?_⟩, ⟨rfl, rfl, rfl, rfl⟩, rfl⟩
    intro backend some
    rw [show s.rt.retiredRescue = none from kept] at some
    cases some

/-- A step of the send loop that only touches the statistics. -/
structure StatOnly (f : SinkState M → SinkState M) : Prop where
  rt : ∀ s, (f s).rt = s.rt
  calls : ∀ s, (f s).calls = s.calls

theorem statEndRecordsBatch_statOnly (records : List DataRecord) :
    StatOnly (statEndRecordsBatch (M := M) records) := ⟨fun _ => rfl, fun _ => rfl⟩

theorem accepted_of_calls {s s' : SinkState M} (same : s'.calls = s.calls) :
    s'.accepted = s.accepted := by
  rw [accepted, same, accepted]

theorem Steady.of_rt {s s' : SinkState M} (same : s'.rt = s.rt) (steady : s.Steady) : s'.Steady := by
  refine ⟨?_, ?_, ?_, ?_⟩ <;> rw [same]
  · exact steady.keeps
  · exact steady.rescued
  · exact steady.cleared
  · exact steady.retired

theorem SameBuffer.of_rt {s s' : SinkState M} (same : s'.rt = s.rt) : SameBuffer s s' := by
  refine ⟨?_, ?_, ?_, ?_⟩ <;> rw [same]

/-- An attempt that the backend takes. -/
theorem sendLoop_taken (ctx : SendCtx) {payload : SinkPayload M}
    {statDone : SinkState M → SinkState M} (onThrow : SinkState M → SinkState M)
    (statOnly : StatOnly statDone) (budget : Nat) {s s₁ : SinkState M} (steady : s.Steady)
    (answer : s.callPrimary env payload = (s₁, .ok ())) :
    ∃ s', s.sendLoop env ctx payload statDone onThrow (budget + 1) = (s', .ok ()) ∧
      s'.accepted = s.accepted ++ [payload] ∧ SameBuffer s s' ∧ s'.Steady := by
  obtain ⟨rt, taken⟩ := callPrimary_accepted env answer
  have sameRt : (statDone s₁).rt = s.rt := (statOnly.rt s₁).trans rt
  have ended : (statDone s₁).accepted = s.accepted ++ [payload] :=
    (accepted_of_calls (statOnly.calls s₁)).trans taken
  refine ⟨(statDone s₁).recordSendSuccess, ?_, ?_, ?_, ?_⟩
  · unfold sendLoop
    rw [answer]
  · rw [accepted_of_calls (recordSendSuccess_calls _)]
    exact ended
  · exact (SameBuffer.of_rt sameRt).trans (recordSendSuccess_buffer _)
  · exact recordSendSuccess_steady (steady.of_rt sameRt)

/-- Two attempts deliver the payload exactly once: the second one meets the rescue file. -/
theorem sendLoop_delivers (reliable : RescueReliable env) (ctx : SendCtx) (bad : ctx.bad = true)
    (payload : SinkPayload M) {statDone : SinkState M → SinkState M}
    (onThrow : SinkState M → SinkState M) (statOnly : StatOnly statDone) {s : SinkState M} (steady : s.Steady) :
    ∃ s', s.sendLoop env ctx payload statDone onThrow 2 = (s', .ok ()) ∧
      s'.accepted = s.accepted ++ [payload] ∧ SameBuffer s s' ∧ s'.Steady := by
  cases answer : s.callPrimary env payload with
  | mk s₁ result =>
    cases result with
    | ok _ => exact sendLoop_taken env ctx onThrow statOnly 1 steady answer
    | error e =>
      obtain ⟨rt, untaken, failed⟩ := callPrimary_refused env answer
      -- a rescue file never fails, so the sink is not in its rescue state yet
      have live : s.rt.backupUsed = false := by
        by_contra used
        obtain ⟨seq, file⟩ := steady.rescued (by simpa using used)
        rw [file, reliable.rescueWrites] at failed
        cases failed
      have repairable := reliable.repairable _ _ _ failed
      obtain ⟨s₂, seq, swapped, file, used, steady₂, buffer, calls⟩ :=
        useBackSink_reliable env reliable ctx (steady.of_rt rt)
      have handled : s₁.handleSendError env ctx e payload.size = (s₂, .ok .retry) := by
        unfold handleSendError
        rw [rt, steady.keeps, repairable, live]
        simp [bad, swapped]
      have second : ∃ s₃, s₂.callPrimary env payload = (s₃, .ok ()) := by
        unfold callPrimary
        rw [file, reliable.rescueWrites]
        exact ⟨_, rfl⟩
      obtain ⟨s₃, retaken⟩ := second
      obtain ⟨s', looped, delivered, buffer', steady'⟩ :=
        sendLoop_taken env ctx onThrow statOnly 0 steady₂ retaken
      refine ⟨s', ?_, ?_, ?_, steady'⟩
      · rw [sendLoop, answer]
        dsimp only
        rw [handled]
        exact looped
      · rw [delivered, accepted_of_calls calls, untaken]
      · exact (SameBuffer.of_rt rt).trans (buffer.trans buffer')

/-- `r` is the outcome of a call that succeeded and added `more` to what the sink has taken. -/
structure Carries (s : SinkState M) (r : SinkResult M Unit) (more : List (M × DataRecord)) :
    Prop where
  ok : r.2 = .ok ()
  content : r.1.content env.api = s.content env.api ++ more
  outputDisabled : r.1.rt.outputDisabled = s.rt.outputDisabled
  steady : r.1.Steady

theorem recordsPayload_pairs (records : List DataRecord) (batchMeta : M) :
    (recordsPayload env records batchMeta).pairs env.api =
      records.map (fun record => (batchMeta, record)) := by
  unfold recordsPayload SinkPayload.pairs
  cases empty : env.api.isEmpty batchMeta with
  | true => simp [env.api.isEmpty_default batchMeta empty]
  | false => simp

/-- One batch: accepted once, with its meta, and the buffer as before. -/
theorem sendRecordsBatch_delivers (reliable : RescueReliable env) (ctx : SendCtx)
    (bad : ctx.bad = true) (records : List DataRecord) (some_left : records ≠ []) (batchMeta : M)
    (requeue : Bool) {s : SinkState M} (steady : s.Steady) :
    ∃ s', s.sendRecordsBatch env ctx records batchMeta requeue = (s', .ok ()) ∧
      s'.acceptedPairs env.api = s.acceptedPairs env.api ++
        records.map (fun record => (batchMeta, record)) ∧ SameBuffer s s' ∧ s'.Steady := by
  have begun : (s.statBegRecordsBatch records).Steady := Steady.of_rt (s := s) rfl steady
  have untouched : SameBuffer s (s.statBegRecordsBatch records) := SameBuffer.of_rt rfl
  obtain ⟨s', looped, delivered, buffer, steady'⟩ := sendLoop_delivers env reliable ctx bad
    (recordsPayload env records batchMeta)
    (fun s => (s.requeue requeue records batchMeta).statEndRecordsBatch records)
    (statEndRecordsBatch_statOnly records) begun
  refine ⟨s', ?_, ?_, untouched.trans buffer, steady'⟩
  · unfold sendRecordsBatch dropBatchIfOpen shouldSkipSend
    rw [if_neg (by simpa using some_left), if_neg (by simp [steady.keeps])]
    exact looped
  · have before : (s.statBegRecordsBatch records).accepted = s.accepted := rfl
    rw [acceptedPairs, delivered, before, List.flatMap_append]
    simp [acceptedPairs, recordsPayload_pairs]

theorem flushPendingBuffer_carries (reliable : RescueReliable env) (ctx : SendCtx)
    (bad : ctx.bad = true) {s : SinkState M} (steady : s.Steady) :
    Carries env s (s.flushPendingBuffer env ctx) [] ∧
      (s.flushPendingBuffer env ctx).1.rt.pendingRecords = [] := by
  unfold flushPendingBuffer
  by_cases empty : s.rt.pendingRecords = []
  · rw [if_pos (by simp [empty])]
    exact ⟨⟨rfl, by simp, rfl, steady⟩, empty⟩
  · rw [if_neg (by simpa using empty)]
    have cleared : { s with rt := { s.rt with
        pendingRecords := [], pendingMeta := env.api.default } }.Steady :=
      ⟨steady.keeps, steady.rescued, steady.cleared, steady.retired⟩
    obtain ⟨s', sent, pairs, buffer, steady'⟩ := sendRecordsBatch_delivers env reliable ctx bad
      s.rt.pendingRecords empty s.rt.pendingMeta true cleared
    have drained : s'.rt.pendingRecords = [] := buffer.pendingRecords
    rw [sent]
    refine ⟨⟨rfl, ?_, buffer.outputDisabled, steady'⟩, drained⟩
    have before : { s with rt := { s.rt with
        pendingRecords := [], pendingMeta := env.api.default } }.acceptedPairs env.api =
          s.acceptedPairs env.api := rfl
    rw [content, pairs, before]
    simp [content, pendingPairs, drained]

/-- The buffer takes records of this meta without a flush before them. -/
def Fits (s : SinkState M) (batchMeta : M) : Prop :=
  s.rt.pendingRecords = [] ∨ s.rt.pendingMeta = batchMeta

/-- An empty buffer takes over the meta, a filled one already has it. -/
theorem Fits.keep {s : SinkState M} {batchMeta : M} (fits : s.Fits batchMeta) :
    (if s.rt.pendingRecords.isEmpty then batchMeta else s.rt.pendingMeta) = batchMeta := by
  split
  · rfl
  · rename_i filled
    rcases fits with empty | same
    · simp [empty] at filled
    · exact same

theorem fits_of_no_flush [DecidableEq M] {s : SinkState M} {batchMeta : M}
    (same : ¬ (!s.rt.pendingRecords.isEmpty && decide (s.rt.pendingMeta ≠ batchMeta)) = true) :
    s.Fits batchMeta := by
  by_cases empty : s.rt.pendingRecords = []
  · exact Or.inl empty
  · right
    by_contra different
    simp [empty, different] at same

theorem bufferSegment_carries (reliable : RescueReliable env) (ctx : SendCtx)
    (bad : ctx.bad = true) (records : List DataRecord) (some_left : records ≠ []) (batchMeta : M)
    {s : SinkState M} (steady : s.Steady)
    (fits : s.Fits batchMeta) :
    Carries env s (s.bufferSegment env ctx records batchMeta)
      (records.map (fun record => (batchMeta, record))) := by
  unfold bufferSegment
  split
  · rename_i bypass
    have empty : s.rt.pendingRecords = [] := by
      simp only [Bool.and_eq_true, List.isEmpty_iff] at bypass
      exact bypass.1
    obtain ⟨s', sent, pairs, buffer, steady'⟩ := sendRecordsBatch_delivers env reliable ctx bad
      records some_left batchMeta false steady
    have still : s'.rt.pendingRecords = [] := buffer.pendingRecords.trans empty
    rw [sent]
    refine ⟨rfl, ?_, buffer.outputDisabled, steady'⟩
    rw [content, pairs]
    simp [content, pendingPairs, empty, still]
  · dsimp only
    rw [fits.keep]
    have extended : { s with rt := { s.rt with
        pendingMeta := batchMeta, pendingRecords := s.rt.pendingRecords ++ records } }.content
          env.api = s.content env.api ++ records.map (fun record => (batchMeta, record)) := by
      have old : s.rt.pendingRecords.map (fun record => (batchMeta, record)) = s.pendingPairs := by
        rcases fits with empty | same
        · simp [pendingPairs, empty]
        · rw [pendingPairs, same]
      simp only [content, List.append_assoc, pendingPairs, List.map_append, old]
      rfl
    have steady₁ : { s with rt := { s.rt with
        pendingMeta := batchMeta, pendingRecords := s.rt.pendingRecords ++ records } }.Steady :=
      ⟨steady.keeps, steady.rescued, steady.cleared, steady.retired⟩
    split
    · obtain ⟨flushed, -⟩ := flushPendingBuffer_carries env reliable ctx bad steady₁
      refine ⟨flushed.ok, ?_, flushed.outputDisabled, flushed.steady⟩
      rw [flushed.content, extended]
      simp
    · exact ⟨rfl, extended, rfl, steady₁⟩

theorem sendRecordSegment_carries [DecidableEq M] (reliable : RescueReliable env) (ctx : SendCtx)
    (bad : ctx.bad = true) (records : List DataRecord) (batchMeta : M) {s : SinkState M}
    (steady : s.Steady) :
    Carries env s (s.sendRecordSegment env ctx records batchMeta)
      (records.map (fun record => (batchMeta, record))) := by
  unfold sendRecordSegment
  by_cases none_left : records = []
  · rw [if_pos (by simp [none_left])]
    exact ⟨rfl, by simp [none_left], rfl, steady⟩
  · rw [if_neg (by simpa using none_left)]
    split
    · obtain ⟨flushed, empty⟩ := flushPendingBuffer_carries env reliable ctx bad steady
      cases outcome : s.flushPendingBuffer env ctx with
      | mk s₁ result =>
        rw [outcome] at flushed empty
        cases flushed.ok
        have buffered := bufferSegment_carries env reliable ctx bad records none_left batchMeta
          flushed.steady (Or.inl empty)
        refine ⟨buffered.ok, ?_, buffered.outputDisabled.trans flushed.outputDisabled,
          buffered.steady⟩
        rw [buffered.content, flushed.content]
        simp
    · rename_i same
      exact bufferSegment_carries env reliable ctx bad records none_left batchMeta steady
        (fits_of_no_flush same)

/-- The records of a package with the metas their units ask for. -/
def unitPairs (outputDisabled : List String) (package : SinkPackage) : List (M × DataRecord) :=
  package.map (fun unit =>
    (SinkRuntime.unitBatchMeta env.api outputDisabled unit.procMeta, unit.data))

theorem Carries.trans {s : SinkState M} {s₁ : SinkState M} {r : SinkResult M Unit}
    {first second : List (M × DataRecord)} (sent : Carries env s (s₁, .ok ()) first)
    (next : Carries env s₁ r second) : Carries env s r (first ++ second) := by
  refine ⟨next.ok, ?_, next.outputDisabled.trans sent.outputDisabled, next.steady⟩
  rw [next.content, sent.content, List.append_assoc]

theorem sendMixedMetaPackage_carries [DecidableEq M] (reliable : RescueReliable env)
    (ctx : SendCtx) (bad : ctx.bad = true) (package : SinkPackage) (records : List DataRecord)
    (batchMeta : M) {s : SinkState M} (steady : s.Steady) :
    Carries env s (s.sendMixedMetaPackage env ctx package records batchMeta)
      (records.map (fun record => (batchMeta, record)) ++
        unitPairs env s.rt.outputDisabled package) := by
  induction package generalizing records batchMeta s with
  | nil =>
    have segment := sendRecordSegment_carries env reliable ctx bad records batchMeta steady
    simpa [unitPairs, sendMixedMetaPackage] using segment
  | cons unit rest ih =>
    dsimp only [sendMixedMetaPackage]
    split
    · -- the open segment ends here and the unit starts the next one
      have segment := sendRecordSegment_carries env reliable ctx bad records batchMeta steady
      cases outcome : s.sendRecordSegment env ctx records batchMeta with
      | mk s₁ result =>
        rw [outcome] at segment
        cases segment.ok
        have later := ih [unit.data]
          (SinkRuntime.unitBatchMeta env.api s.rt.outputDisabled unit.procMeta) segment.steady
        have both := segment.trans env later
        rw [segment.outputDisabled] at both
        simpa [unitPairs] using both
    · rename_i same
      have later := ih (records ++ [unit.data]) batchMeta steady
      simp only [ne_eq, not_not] at same
      simpa [unitPairs, ← same] using later

theorem sendPackageFrom_carries [DecidableEq M] (reliable : RescueReliable env) (ctx : SendCtx)
    (bad : ctx.bad = true) (package : SinkPackage) (records : List DataRecord)
    (segmentMeta : Option M) (started : segmentMeta = none → records = []) {s : SinkState M}
    (steady : s.Steady) :
    Carries env s (s.sendPackageFrom env ctx package records segmentMeta)
      (records.map (fun record => (segmentMeta.getD env.api.default, record)) ++
        unitPairs env s.rt.outputDisabled package) := by
  induction package generalizing records segmentMeta with
  | nil =>
    have segment := sendRecordSegment_carries env reliable ctx bad records
      (segmentMeta.getD env.api.default) steady
    simpa [unitPairs, sendPackageFrom] using segment
  | cons unit rest ih =>
    dsimp only [sendPackageFrom]
    cases segmentMeta with
    | none =>
      have first := started rfl
      subst first
      have later := ih [unit.data]
        (some (SinkRuntime.unitBatchMeta env.api s.rt.outputDisabled unit.procMeta)) (by simp)
      simpa [unitPairs] using later
    | some batchMeta =>
      dsimp only
      split
      · exact sendMixedMetaPackage_carries env reliable ctx bad (unit :: rest) records batchMeta
          steady
      · rename_i same
        have later := ih (records ++ [unit.data]) (some batchMeta) (by simp)
        simp only [ne_eq, not_not] at same
        simpa [unitPairs, ← same] using later

theorem sendPackageToSink_carries [DecidableEq M] (reliable : RescueReliable env) (ctx : SendCtx)
    (bad : ctx.bad = true) (package : SinkPackage) {s : SinkState M} (steady : s.Steady) :
    Carries env s (s.sendPackageToSink env ctx package)
      (unitPairs env s.rt.outputDisabled package) := by
  unfold sendPackageToSink
  by_cases empty : package = []
  · rw [if_pos (by simp [empty])]
    exact ⟨rfl, by simp [empty, unitPairs], rfl, steady⟩
  · rw [if_neg (by simpa using empty)]
    have sent := sendPackageFrom_carries env reliable ctx bad package [] none (fun _ => rfl) steady
    simpa using sent

/-- Recovery moves backends; no record moves with them. -/
theorem recoverSink_carries (reliable : RescueReliable env) (handle : ASinkHandle)
    {s : SinkState M} (steady : s.Steady) :
    (s.recoverSink env handle).1.content env.api = s.content env.api ∧
      (s.recoverSink env handle).1.rt.outputDisabled = s.rt.outputDisabled ∧
      (s.recoverSink env handle).1.Steady := by
  unfold recoverSink
  split
  · rename_i taken
    have used : s.rt.backupUsed = true := by
      simp only [Bool.and_eq_true] at taken
      exact taken.1
    obtain ⟨seq, file⟩ := steady.rescued used
    obtain ⟨tick, sent⟩ := sendStat_open env reliable.monitor { s with rt := { s.rt with
      primary := handle.sink, retiredRescue := some s.rt.primary } }
    simp only [steady.cleared used]
    rw [sent]
    refine ⟨rfl, rfl, ⟨steady.keeps, ?_, ?_, ?_⟩⟩
    · intro back
      cases back
    · intro back
      cases back
    · intro backend kept
      exact ⟨seq, by rw [← file]; exact (Option.some.inj kept).symm⟩
  · exact ⟨rfl, rfl, steady⟩

end Env
end SinkState

/-- Calls on the record path; `bad_s` is present in all of them. -/
inductive RecordOp where
  | sendPackage (mon : Bool) (package : SinkPackage)
  | flush (mon : Bool)
  | recover (handle : ASinkHandle)

def RecordOp.records : RecordOp → List DataRecord
  | .sendPackage _ package => package.map SinkRecUnit.data
  | .flush _ => []
  | .recover _ => []

section Runs
variable {M : Type} [DecidableEq M] (env : SinkEnv M)

def SinkState.recordStep (s : SinkState M) : RecordOp → SinkState M
  | .sendPackage mon package => (s.sendPackageToSink env ⟨true, mon⟩ package).1
  | .flush mon => (s.flush env ⟨true, mon⟩).1
  | .recover handle => (s.recoverSink env handle).1

def RecordOp.pairs (outputDisabled : List String) : RecordOp → List (M × DataRecord)
  | .sendPackage _ package => SinkState.unitPairs env outputDisabled package
  | .flush _ => []
  | .recover _ => []

theorem recordStep_carries (reliable : RescueReliable env) (s : SinkState M) (op : RecordOp)
    (steady : s.Steady) :
    (s.recordStep env op).content env.api =
        s.content env.api ++ op.pairs env s.rt.outputDisabled ∧
      (s.recordStep env op).rt.outputDisabled = s.rt.outputDisabled ∧
      (s.recordStep env op).Steady := by
  cases op with
  | sendPackage mon package =>
    have sent := SinkState.sendPackageToSink_carries env reliable ⟨true, mon⟩ rfl package steady
    exact ⟨sent.content, sent.outputDisabled, sent.steady⟩
  | flush mon =>
    obtain ⟨flushed, -⟩ := SinkState.flushPendingBuffer_carries env reliable ⟨true, mon⟩ rfl steady
    exact ⟨flushed.content, flushed.outputDisabled, flushed.steady⟩
  | recover handle =>
    obtain ⟨content, outputDisabled, steady'⟩ :=
      SinkState.recoverSink_carries env reliable handle steady
    refine ⟨?_, outputDisabled, steady'⟩
    rw [RecordOp.pairs, List.append_nil]
    exact content

theorem recordRun_content (reliable : RescueReliable env) (ops : List RecordOp) (s : SinkState M)
    (steady : s.Steady) :
    (Runs.run (SinkState.recordStep env) s ops).content env.api =
      s.content env.api ++ ops.flatMap (RecordOp.pairs env s.rt.outputDisabled) := by
  induction ops generalizing s with
  | nil => simp
  | cons op rest ih =>
    obtain ⟨content, outputDisabled, steady'⟩ := recordStep_carries env reliable s op steady
    rw [Runs.run_cons, ih (s.recordStep env op) steady', content, outputDisabled]
    simp [List.append_assoc]

end Runs

/-- The records a call carries, whatever its meta. -/
def SinkPayload.recordsOf {M : Type} : SinkPayload M → List DataRecord
  | .records _ data => data
  | .record data => [data]
  | .str _ => []
  | .strBatch _ => []

theorem pairs_records {M : Type} (api : BatchMetaApi M) (payload : SinkPayload M) :
    (payload.pairs api).map Prod.snd = payload.recordsOf := by
  cases payload with
  | records batchMeta data =>
    simp only [SinkPayload.pairs, SinkPayload.recordsOf, List.map_map]
    exact List.map_id data
  | record data => rfl
  | str text => rfl
  | strBatch texts => rfl

theorem opPairs_records {M : Type} (env : SinkEnv M) (outputDisabled : List String)
    (op : RecordOp) : (op.pairs env outputDisabled).map Prod.snd = op.records := by
  cases op with
  | sendPackage mon package =>
    simp only [RecordOp.pairs, RecordOp.records, SinkState.unitPairs, List.map_map]
    rfl
  | flush mon => rfl
  | recover handle => rfl

/-- The batches taken by the backend or by rescue files, followed by the buffer, are the submitted
    records in order, and each was taken under the meta of its own unit. -/
theorem rescue_mode_conserves_records {M : Type} [DecidableEq M] (env : SinkEnv M)
    (reliable : RescueReliable env) (conf : SinkConf) (rescueMode : conf.dropWhenError = false)
    (sink : SinkBackend) (ops : List RecordOp) :
    let s := Runs.run (SinkState.recordStep env) (SinkState.start env.api conf sink) ops
    s.accepted.flatMap SinkPayload.recordsOf ++ s.rt.pendingRecords =
        ops.flatMap RecordOp.records ∧
      s.accepted.flatMap (SinkPayload.pairs env.api) ++
          s.rt.pendingRecords.map (fun record => (s.rt.pendingMeta, record)) =
        ops.flatMap (RecordOp.pairs env conf.outputDisabled) := by
  intro s
  have steady : (SinkState.start env.api conf sink).Steady := by
    refine ⟨rescueMode, ?_, ?_, ?_⟩
    · intro used
      cases used
    · intro used
      cases used
    · intro backend kept
      cases kept
  have pairs : s.content env.api = ops.flatMap (RecordOp.pairs env conf.outputDisabled) :=
    recordRun_content env reliable ops (SinkState.start env.api conf sink) steady
  refine ⟨?_, pairs⟩
  have taken : s.accepted.flatMap SinkPayload.recordsOf =
      (s.acceptedPairs env.api).map Prod.snd := by
    simp only [SinkState.acceptedPairs, List.map_flatMap, pairs_records]
  have waiting : s.rt.pendingRecords = s.pendingPairs.map Prod.snd := by
    simp only [SinkState.pendingPairs, List.map_map]
    exact (List.map_id s.rt.pendingRecords).symm
  have submitted : ops.flatMap RecordOp.records =
      (ops.flatMap (RecordOp.pairs env conf.outputDisabled)).map Prod.snd := by
    simp only [List.map_flatMap, opPairs_records]
  rw [taken, waiting, submitted, ← pairs, SinkState.content, List.map_append]

theorem plainEnv_reliable (broken : Nat → Bool) : RescueReliable (plainEnv broken) := by
  refine ⟨fun _ => rfl, fun _ => rfl, fun _ _ => rfl, ?_⟩
  intro tick backend e failed
  cases backend with
  | rescueFile seq => cases failed
  | real id =>
    simp only [plainEnv] at failed
    split at failed
    · cases failed
      rfl
    · cases failed

/-- Two units of different metas on a backend that breaks at once. -/
theorem rescue_mode_conserves_two_metas :
    (Runs.run (SinkState.recordStep (plainEnv (fun _ => true)))
      (SinkState.start plainMetaApi fileSinkConf (.real 7))
      [.sendPackage true [⟨1, .omlName "oml", ⟨1, []⟩⟩, ⟨2, .null, ⟨2, []⟩⟩]]).accepted.flatMap
        SinkPayload.recordsOf ++
      (Runs.run (SinkState.recordStep (plainEnv (fun _ => true)))
        (SinkState.start plainMetaApi fileSinkConf (.real 7))
        [.sendPackage true [⟨1, .omlName "oml", ⟨1, []⟩⟩, ⟨2, .null, ⟨2, []⟩⟩]]).rt.pendingRecords =
      [⟨1, []⟩, ⟨2, []⟩] := by
  have conserved := rescue_mode_conserves_records (plainEnv (fun _ => true)) (plainEnv_reliable _)
    fileSinkConf rfl (.real 7)
    [.sendPackage true [⟨1, .omlName "oml", ⟨1, []⟩⟩, ⟨2, .null, ⟨2, []⟩⟩]]
  exact conserved.1

end WarpMotor
