import WarpMotor.Sink.Backend

/-!
`SinkRuntime`: the buffer of pending records, the switch to a rescue file, the
recovery of the real backend, and the breaker of drop mode. Functions take and
return the whole state; an error result keeps the state it was raised in.
`calls`, `drops`, `stats` and `badSinks` are histories: backend calls with
their outcome, counts added to the drop counters, statistics marks and handles
accepted by the channel for broken backends. Log texts and the counters that
only feed them are left out.
-/
namespace WarpMotor

structure SinkRuntime (M : Type) where
  name : String
  instanceId : Nat
  groupName : Option String
  confName : String
  primary : SinkBackend
  rescue : String
  batchSize : Nat
  pendingRecords : List DataRecord
  pendingMeta : M
  outputDisabled : List String
  backupUsed : Bool
  dropWhenError : Bool
  retiredRescue : Option SinkBackend
  rescueFile : Option String
  health : SinkHealth
  normalUnitBatch : Bool
  backupUnitBatch : Bool
  deriving DecidableEq, Repr

/-- `retryAt` is the state of the breaker at the time of the call. -/
structure SinkCall (M : Type) where
  backend : SinkBackend
  payload : SinkPayload M
  time : Nat
  retryAt : Option Nat
  accepted : Bool
  deriving DecidableEq, Repr

inductive DropRecord where
  | failed (count : Nat)
  | skipped (count : Nat)
  deriving DecidableEq, Repr

def DropRecord.count : DropRecord → Nat
  | .failed count => count
  | .skipped count => count

structure SinkState (M : Type) where
  rt : SinkRuntime M
  tick : Nat
  calls : List (SinkCall M)
  drops : List DropRecord
  stats : List StatEvent
  badSinks : List ASinkHandle
  deriving DecidableEq, Repr

/-- The part of a sink's configuration that its runtime reads. -/
structure SinkConf where
  name : String
  instanceId : Nat
  groupName : Option String
  confName : String
  rescue : String
  batchSize : Nat
  dropWhenError : Bool
  outputDisabled : List String
  normalUnitBatch : Bool
  backupUnitBatch : Bool
  deriving DecidableEq, Repr

/-- `with_batch_size`: a fresh runtime on the backend `sink`. -/
def SinkRuntime.withBatchSize {M : Type} (api : BatchMetaApi M) (conf : SinkConf)
    (sink : SinkBackend) : SinkRuntime M :=
  { name := conf.name, instanceId := conf.instanceId, groupName := conf.groupName
    confName := conf.confName, primary := sink, rescue := conf.rescue
    batchSize := max conf.batchSize 1, pendingRecords := [], pendingMeta := api.default
    outputDisabled := conf.outputDisabled, backupUsed := false
    dropWhenError := conf.dropWhenError, retiredRescue := none, rescueFile := none
    health := SinkHealth.new, normalUnitBatch := conf.normalUnitBatch
    backupUnitBatch := conf.backupUnitBatch }

def SinkState.start {M : Type} (api : BatchMetaApi M) (conf : SinkConf) (sink : SinkBackend) :
    SinkState M :=
  { rt := SinkRuntime.withBatchSize api conf sink, tick := 0, calls := [], drops := []
    stats := [], badSinks := [] }

/-- The optional channels of a call: `bad_s` and `mon`. -/
structure SendCtx where
  bad : Bool
  mon : Bool
  deriving DecidableEq, Repr

inductive BatchErrHandle where
  | retry | consume | throw
  deriving DecidableEq, Repr

abbrev SinkResult (M A : Type) := SinkState M × Except SinkError A

namespace SinkRuntime
variable {M : Type}

def buildSinkDimRecord (rt : SinkRuntime M) : Option DataRecord :=
  let group := match rt.groupName with
    | some group => if group = "" then [] else [DataField.fromChars "wp_sink_group" group]
    | none => []
  let items := group ++
    if rt.confName = "" then [] else [DataField.fromChars "wp_sink_name" rt.confName]
  if items = [] then none else some ⟨0, items⟩

/-- Both collectors in use can count a batch without looking at its records. -/
def unitBatch (rt : SinkRuntime M) : Bool :=
  rt.normalUnitBatch && (!rt.backupUsed || rt.backupUnitBatch)

def recordUnits (rt : SinkRuntime M) (records : List DataRecord) : List StatUnit :=
  if rt.unitBatch then if records.length = 0 then [] else [.units records.length]
  else records.map (fun record => .target (some (rt.buildSinkDimRecord.getD record)))

def blankUnits (rt : SinkRuntime M) (count : Nat) : List StatUnit :=
  if rt.unitBatch then if count = 0 then [] else [.units count]
  else List.replicate count (.target none)

def acceptsHandle (rt : SinkRuntime M) (handle : ASinkHandle) : Bool :=
  decide (rt.name = handle.name) && decide (rt.instanceId = handle.instanceId)

def unitBatchMeta (api : BatchMetaApi M) (outputDisabled : List String) (procMeta : ProcMeta) : M :=
  let batchMeta := match procMeta with
    | .omlName name => if name = "" then api.default else api.withOmlName api.default name
    | _ => api.default
  api.setOutputDisabled batchMeta outputDisabled

end SinkRuntime

def rescueFilePath (rescue name fmtTime : String) (seq : Nat) : String :=
  rescue ++ "/" ++ name ++ "-" ++ fmtTime ++ "-" ++ toString seq ++ ".dat.lock"

/-- The error of a retry loop that was given too small a budget; `sendLoop_budget` and
    `sendOneLoop_budget` show that a budget of two is never too small. -/
def retryBudgetSpent : SinkError := ⟨.sink, none⟩

namespace SinkState
variable {M : Type}

def statStart (s : SinkState M) (units : List StatUnit) : SinkState M :=
  { s with stats := s.stats ++ units.flatMap (fun unit => ⟨.started, .normal, unit⟩ ::
      if s.rt.backupUsed then [⟨.started, .backup, unit⟩] else []) }

def statFinish (s : SinkState M) (units : List StatUnit) : SinkState M :=
  { s with stats := s.stats ++ units.map (fun unit =>
      ⟨.finished, if s.rt.backupUsed then .backup else .normal, unit⟩) }

def dataUnits (s : SinkState M) : SinkDataEnum → List StatUnit
  | .record _ data => [.target (some (s.rt.buildSinkDimRecord.getD data))]
  | .ffv _ => [.target none]
  | .raw _ => [.target none]

def statBeg (data : SinkDataEnum) (s : SinkState M) : SinkState M := s.statStart (s.dataUnits data)
def statEnd (data : SinkDataEnum) (s : SinkState M) : SinkState M := s.statFinish (s.dataUnits data)

def statBegRecordsBatch (records : List DataRecord) (s : SinkState M) : SinkState M :=
  s.statStart (s.rt.recordUnits records)
def statEndRecordsBatch (records : List DataRecord) (s : SinkState M) : SinkState M :=
  s.statFinish (s.rt.recordUnits records)

/-- `record_package_stats_begin_*` and `record_package_stats_end_*` of packages without records. -/
def packageStatsBegin (count : Nat) (s : SinkState M) : SinkState M :=
  s.statStart (s.rt.blankUnits count)
def packageStatsEnd (count : Nat) (s : SinkState M) : SinkState M :=
  s.statFinish (s.rt.blankUnits count)

def recordFailedDrop (count : Nat) (s : SinkState M) : SinkState M :=
  if count = 0 then s else { s with drops := s.drops ++ [.failed count] }

def recordSkippedDrop (count : Nat) (s : SinkState M) : SinkState M :=
  if count = 0 then s else { s with drops := s.drops ++ [.skipped count] }

/-- The first success after a recovery closes the rescue file that was kept open. -/
def recordSendSuccess (s : SinkState M) : SinkState M :=
  let rt := { s.rt with health := s.rt.health.onSuccess }
  match s.rt.retiredRescue with
  | some _ => { s with rt := { rt with retiredRescue := none, rescueFile := none } }
  | none => { s with rt }

/-- A batch from the buffer goes back into it when its error is thrown. -/
def requeue (on : Bool) (records : List DataRecord) (batchMeta : M) (s : SinkState M) :
    SinkState M :=
  if on then { s with rt := { s.rt with pendingRecords := records, pendingMeta := batchMeta } }
  else s

section Env
variable (env : SinkEnv M)

def shouldSkipSend (s : SinkState M) : SinkState M × Bool :=
  if s.rt.dropWhenError then
    ({ s with tick := s.tick + 1 }, s.rt.health.isOpen (env.now s.tick))
  else (s, false)

def dropBatchIfOpen (count : Nat) (s : SinkState M) : SinkState M × Bool :=
  match s.shouldSkipSend env with
  | (s, true) => (s.recordSkippedDrop count, true)
  | (s, false) => (s, false)

def callPrimary (payload : SinkPayload M) (s : SinkState M) : SinkResult M Unit :=
  let answer := env.call s.tick s.rt.primary
  ({ s with
      tick := s.tick + 1
      calls := s.calls ++ [{
        backend := s.rt.primary, payload, time := env.now s.tick
        retryAt := s.rt.health.retryAt, accepted := answer.isOk }] },
    answer)

def swapBacksink (s : SinkState M) : SinkResult M SinkBackend :=
  match s.rt.retiredRescue with
  | some rescue =>
    -- the rescue file of this outage is still open and is used again
    ({ s with rt := { s.rt with primary := rescue, retiredRescue := none } }, .ok s.rt.primary)
  | none =>
    let seq := env.rescueSeq s.tick
    let path := rescueFilePath s.rt.rescue s.rt.name (env.fmtTime s.tick) seq
    match env.rescueOpen s.tick with
    | .error e => ({ s with tick := s.tick + 1 }, .error e)
    | .ok () =>
      ({ s with
          tick := s.tick + 1
          rt := { s.rt with primary := .rescueFile seq, rescueFile := some path } },
        .ok s.rt.primary)

def sendStat (s : SinkState M) : SinkResult M Unit :=
  match env.monSend s.tick with
  | .error e => ({ s with tick := s.tick + 1 }, .error e)
  | .ok () =>
    if s.rt.backupUsed then ({ s with tick := s.tick + 2 }, env.monSend (s.tick + 1))
    else ({ s with tick := s.tick + 1 }, .ok ())

def sendStatTo (mon : Bool) (s : SinkState M) : SinkResult M Unit :=
  if mon then s.sendStat env else (s, .ok ())

/-- An error of the monitor drops the old backend; a closed channel only drops it with a warning. -/
def useBackSink (ctx : SendCtx) (s : SinkState M) : SinkResult M Unit :=
  match s.swapBacksink env with
  | (s, .error e) => (s, .error e)
  | (s, .ok oldPrimary) =>
    match { s with rt := { s.rt with backupUsed := true } }.sendStatTo env ctx.mon with
    | (s, .error e) => (s, .error e)
    | (s, .ok ()) =>
      let handle := ⟨s.rt.name, s.rt.instanceId, oldPrimary⟩
      ({ s with
          tick := s.tick + 1
          badSinks := if env.badSend s.tick then s.badSinks ++ [handle] else s.badSinks },
        .ok ())

def healthFailure (s : SinkState M) : SinkState M :=
  { s with
    tick := s.tick + 1
    rt := { s.rt with health := s.rt.health.onFailure (env.now s.tick) } }

def handleSendError (ctx : SendCtx) (error : SinkError) (dropped : Nat) (s : SinkState M) :
    SinkResult M BatchErrHandle :=
  if s.rt.dropWhenError then ((s.healthFailure env).recordFailedDrop dropped, .ok .consume)
  else
    match err4SendToSink env.mode error with
    | .fixRetry =>
      if s.rt.backupUsed then (s, .ok .throw)
      else if ctx.bad then
        match s.useBackSink env ctx with
        | (s, .error e) => (s, .error e)
        | (s, .ok ()) => (s, .ok .retry)
      else (s, .ok .throw)
    | .throw => (s, .ok .throw)
    | .tolerant => (s, .ok .consume)
    | .ignore => (s, .ok .consume)
    | .terminate => (s, .ok .consume)

/-- The `loop` of the batch senders. A retry is granted only on the way to the rescue file, so
    two attempts are always enough. -/
def sendLoop (ctx : SendCtx) (payload : SinkPayload M) (statDone onThrow : SinkState M → SinkState M) :
    Nat → SinkState M → SinkResult M Unit
  | 0, s => (s, .error retryBudgetSpent)
  | budget + 1, s =>
    match s.callPrimary env payload with
    | (s, .ok ()) => ((statDone s).recordSendSuccess, .ok ())
    | (s, .error e) =>
      match s.handleSendError env ctx e payload.size with
      | (s, .error failure) => (s, .error failure)
      | (s, .ok .retry) => sendLoop ctx payload statDone onThrow budget s
      | (s, .ok .consume) => (statDone s, .ok ())
      | (s, .ok .throw) => (onThrow s, .error e)

/-- `sink_records` for an empty meta, `sink_records_with_meta` otherwise. -/
def recordsPayload (records : List DataRecord) (batchMeta : M) : SinkPayload M :=
  .records (if env.api.isEmpty batchMeta then none else some batchMeta) records

def sendRecordsBatch (ctx : SendCtx) (records : List DataRecord) (batchMeta : M)
    (requeueOnThrow : Bool) (s : SinkState M) : SinkResult M Unit :=
  if records.isEmpty then (s, .ok ())
  else
    match s.dropBatchIfOpen env records.length with
    | (s, true) => ((s.statBegRecordsBatch records).statEndRecordsBatch records, .ok ())
    | (s, false) =>
      (s.statBegRecordsBatch records).sendLoop env ctx (recordsPayload env records batchMeta)
        (statEndRecordsBatch records)
        (fun s => (s.requeue requeueOnThrow records batchMeta).statEndRecordsBatch records) 2

def flushPendingBuffer (ctx : SendCtx) (s : SinkState M) : SinkResult M Unit :=
  if s.rt.pendingRecords.isEmpty then (s, .ok ())
  else
    { s with rt := { s.rt with pendingRecords := [], pendingMeta := env.api.default } }.sendRecordsBatch
      env ctx s.rt.pendingRecords s.rt.pendingMeta true

/-- The tail of `send_record_segment`: bypass the buffer, or extend it and flush when it is full. -/
def bufferSegment (ctx : SendCtx) (records : List DataRecord) (batchMeta : M) (s : SinkState M) :
    SinkResult M Unit :=
  if s.rt.pendingRecords.isEmpty && decide (s.rt.batchSize ≤ records.length) then
    s.sendRecordsBatch env ctx records batchMeta false
  else
    let keep := if s.rt.pendingRecords.isEmpty then batchMeta else s.rt.pendingMeta
    let s := { s with rt := { s.rt with
      pendingMeta := keep, pendingRecords := s.rt.pendingRecords ++ records } }
    if s.rt.batchSize ≤ s.rt.pendingRecords.length then s.flushPendingBuffer env ctx
    else (s, .ok ())

def sendRecordSegment [DecidableEq M] (ctx : SendCtx) (records : List DataRecord) (batchMeta : M)
    (s : SinkState M) : SinkResult M Unit :=
  if records.isEmpty then (s, .ok ())
  else if !s.rt.pendingRecords.isEmpty && decide (s.rt.pendingMeta ≠ batchMeta) then
    match s.flushPendingBuffer env ctx with
    | (s, .error e) => (s, .error e)
    | (s, .ok ()) => s.bufferSegment env ctx records batchMeta
  else s.bufferSegment env ctx records batchMeta

/-- `send_mixed_meta_package_by_segment_from`: `records` and `batchMeta` are the open segment. -/
def sendMixedMetaPackage [DecidableEq M] (ctx : SendCtx) :
    SinkPackage → List DataRecord → M → SinkState M → SinkResult M Unit
  | [], records, batchMeta, s => s.sendRecordSegment env ctx records batchMeta
  | unit :: rest, records, batchMeta, s =>
    let unitMeta := SinkRuntime.unitBatchMeta env.api s.rt.outputDisabled unit.procMeta
    if batchMeta ≠ unitMeta then
      match s.sendRecordSegment env ctx records batchMeta with
      | (s, .error e) => (s, .error e)
      | (s, .ok ()) => sendMixedMetaPackage ctx rest [unit.data] unitMeta s
    else sendMixedMetaPackage ctx rest (records ++ [unit.data]) batchMeta s

/-- The first pass over a package: a package of one meta is one segment. -/
def sendPackageFrom [DecidableEq M] (ctx : SendCtx) :
    SinkPackage → List DataRecord → Option M → SinkState M → SinkResult M Unit
  | [], records, segmentMeta, s =>
    s.sendRecordSegment env ctx records (segmentMeta.getD env.api.default)
  | unit :: rest, records, segmentMeta, s =>
    let unitMeta := SinkRuntime.unitBatchMeta env.api s.rt.outputDisabled unit.procMeta
    match segmentMeta with
    | some batchMeta =>
      if batchMeta ≠ unitMeta then s.sendMixedMetaPackage env ctx (unit :: rest) records batchMeta
      else sendPackageFrom ctx rest (records ++ [unit.data]) (some batchMeta) s
    | none => sendPackageFrom ctx rest (records ++ [unit.data]) (some unitMeta) s

def sendPackageToSink [DecidableEq M] (ctx : SendCtx) (package : SinkPackage) (s : SinkState M) :
    SinkResult M Unit :=
  if package.isEmpty then (s, .ok ()) else s.sendPackageFrom env ctx package [] none

def flush (ctx : SendCtx) (s : SinkState M) : SinkResult M Unit := s.flushPendingBuffer env ctx

/-- Packages of strings: one call for the whole package. -/
def sendTextBatch (ctx : SendCtx) (texts : List String) (s : SinkState M) : SinkResult M Unit :=
  if texts.isEmpty then (s, .ok ())
  else
    match s.dropBatchIfOpen env texts.length with
    | (s, true) => ((s.packageStatsBegin texts.length).packageStatsEnd texts.length, .ok ())
    | (s, false) =>
      (s.packageStatsBegin texts.length).sendLoop env ctx (.strBatch texts)
        (packageStatsEnd texts.length) (packageStatsEnd texts.length) 2

def sendStrPackageToSink (ctx : SendCtx) (package : List String) (s : SinkState M) :
    SinkResult M Unit :=
  s.sendTextBatch env ctx package

/-- `gen_fmt_dat` with the raw format always renders a string. -/
def renderRaw (line : List DataField) : String := env.rawGenFmt line ++ "\n"

def sendFfvPackageToSink (ctx : SendCtx) (package : List (List DataField)) (s : SinkState M) :
    SinkResult M Unit :=
  s.sendTextBatch env ctx (package.map (renderRaw env))

def dataPayload (data : SinkDataEnum) : SinkPayload M :=
  match data with
  | .record _ data => .record data
  | .ffv fields => .str (renderRaw env fields)
  | .raw text => .str text

/-- The `loop` of `send_to_sink`. Without `bad_s` a repairable error is passed over. -/
def sendOneLoop (ctx : SendCtx) (data : SinkDataEnum) : Nat → SinkState M → SinkResult M Unit
  | 0, s => (s, .error retryBudgetSpent)
  | budget + 1, s =>
    match s.shouldSkipSend env with
    | (s, true) => (((s.recordSkippedDrop 1).statBeg data).statEnd data, .ok ())
    | (s, false) =>
      match (s.statBeg data).callPrimary env (dataPayload env data) with
      | (s, .ok ()) => (s.recordSendSuccess.statEnd data, .ok ())
      | (s, .error e) =>
        if s.rt.dropWhenError then
          (((s.healthFailure env).recordFailedDrop 1).statEnd data, .ok ())
        else
          match err4SendToSink env.mode e with
          | .fixRetry =>
            if s.rt.backupUsed then (s, .error e)
            else if ctx.bad then
              match s.useBackSink env ctx with
              | (s, .error failure) => (s, .error failure)
              | (s, .ok ()) => sendOneLoop ctx data budget s
            else (s, .ok ())
          | .throw => (s, .error e)
          | .tolerant => (s, .ok ())
          | .ignore => (s, .ok ())
          | .terminate => (s, .ok ())

def sendToSink (ctx : SendCtx) (data : SinkDataEnum) (s : SinkState M) : SinkResult M Unit :=
  match s.sendOneLoop env ctx data 2 with
  | (s, .error e) => (s, .error e)
  | (s, .ok ()) => s.sendStatTo env ctx.mon

/-- Only a sink in its rescue state takes a handle, and only one of its own name and instance. -/
def recoverSink (handle : ASinkHandle) (s : SinkState M) : SinkResult M Bool :=
  if s.rt.backupUsed && s.rt.acceptsHandle handle then
    let swapped := { s with rt := { s.rt with
      primary := handle.sink, retiredRescue := some s.rt.primary } }
    let stopped : SinkResult M Unit := match s.rt.retiredRescue with
      | some _ => ({ swapped with tick := swapped.tick + 1 }, env.stop swapped.tick)
      | none => (swapped, .ok ())
    match stopped with
    | (s, .error e) => (s, .error e)
    | (s, .ok ()) =>
      match s.sendStat env with
      | (s, .error e) => (s, .error e)
      | (s, .ok ()) =>
        ({ s with rt := { s.rt with backupUsed := false, health := s.rt.health.onSuccess } },
          .ok true)
  else (s, .ok false)

def firstError (first second : Except SinkError Unit) : Except SinkError Unit :=
  match first with
  | .error e => .error e
  | .ok () => second

def stopBackends (s : SinkState M) : SinkResult M Unit :=
  match s.rt.retiredRescue with
  | some _ =>
    ({ s with tick := s.tick + 2, rt := { s.rt with retiredRescue := none, rescueFile := none } },
      firstError (env.stop s.tick) (env.stop (s.tick + 1)))
  | none =>
    ({ s with tick := s.tick + 1, rt := { s.rt with rescueFile := none } }, env.stop s.tick)

theorem sendStatTo_rt (mon : Bool) (s : SinkState M) : (s.sendStatTo env mon).1.rt = s.rt := by
  unfold sendStatTo
  split
  · unfold sendStat
    split
    · rfl
    · split <;> rfl
  · rfl

theorem useBackSink_marks {ctx : SendCtx} {s s' : SinkState M}
    (moved : s.useBackSink env ctx = (s', .ok ())) : s'.rt.backupUsed = true := by
  unfold useBackSink at moved
  split at moved
  · cases moved
  · rename_i s₁ _ _
    have kept := sendStatTo_rt env ctx.mon { s₁ with rt := { s₁.rt with backupUsed := true } }
    split at moved
    · cases moved
    · rename_i reported
      rw [reported] at kept
      cases moved
      exact congrArg SinkRuntime.backupUsed kept

/-- A retry is granted once: outside the rescue state, and on the way into it. -/
theorem handleSendError_retry {ctx : SendCtx} {e : SinkError} {count : Nat} {s s' : SinkState M}
    (handled : s.handleSendError env ctx e count = (s', .ok .retry)) :
    s.rt.backupUsed = false ∧ s'.rt.backupUsed = true := by
  unfold handleSendError at handled
  split at handled
  · cases handled
  · split at handled
    · split at handled
      · cases handled
      · rename_i live
        split at handled
        · split at handled
          · cases handled
          · rename_i moved
            cases handled
            exact ⟨by simpa using live, useBackSink_marks env moved⟩
        · cases handled
    all_goals cases handled

/-- In the rescue state no error is answered by another attempt. -/
theorem rescue_no_retry {ctx : SendCtx} {e : SinkError} {count : Nat} {s s' : SinkState M}
    (used : s.rt.backupUsed = true) : s.handleSendError env ctx e count ≠ (s', .ok .retry) := by
  intro handled
  have live := (handleSendError_retry env handled).1
  rw [used] at live
  cases live

theorem sendLoop_budget_of_rescue (ctx : SendCtx) (payload : SinkPayload M)
    (statDone onThrow : SinkState M → SinkState M) (budget : Nat) {s : SinkState M}
    (used : s.rt.backupUsed = true) :
    s.sendLoop env ctx payload statDone onThrow (budget + 1) =
      s.sendLoop env ctx payload statDone onThrow 1 := by
  simp only [sendLoop]
  split
  · rfl
  · rename_i s₁ e called
    have rt : s₁.rt = s.rt := by
      rw [callPrimary] at called
      cases (Prod.mk.inj called).1
      rfl
    split
    · rfl
    · rename_i handled
      exact absurd handled (rescue_no_retry env (by rw [rt, used]))
    · rfl
    · rfl

/-- More than two attempts are never made. -/
theorem sendLoop_budget (ctx : SendCtx) (payload : SinkPayload M)
    (statDone onThrow : SinkState M → SinkState M) (budget : Nat) (s : SinkState M) :
    s.sendLoop env ctx payload statDone onThrow (budget + 2) =
      s.sendLoop env ctx payload statDone onThrow 2 := by
  rw [sendLoop, sendLoop]
  split
  · rfl
  · split
    · rfl
    · rename_i handled
      exact sendLoop_budget_of_rescue env ctx payload statDone onThrow budget
        (handleSendError_retry env handled).2
    · rfl
    · rfl

theorem sendOneLoop_budget_of_rescue (ctx : SendCtx) (data : SinkDataEnum) (budget : Nat)
    {s : SinkState M} (used : s.rt.backupUsed = true) :
    s.sendOneLoop env ctx data (budget + 1) = s.sendOneLoop env ctx data 1 := by
  simp only [sendOneLoop]
  split
  · rfl
  · rename_i s₁ asked
    have rt₁ : s₁.rt = s.rt := by
      rw [shouldSkipSend] at asked
      split at asked <;> (cases (Prod.mk.inj asked).1; rfl)
    split
    · rfl
    · rename_i s₂ e called
      have rt₂ : s₂.rt = s.rt := by
        rw [callPrimary] at called
        cases (Prod.mk.inj called).1
        exact rt₁
      have used₂ : s₂.rt.backupUsed = true := by rw [rt₂, used]
      simp only [used₂, if_true]

theorem sendOneLoop_budget (ctx : SendCtx) (data : SinkDataEnum) (budget : Nat)
    (s : SinkState M) :
    s.sendOneLoop env ctx data (budget + 2) = s.sendOneLoop env ctx data 2 := by
  rw [sendOneLoop, sendOneLoop]
  split
  · rfl
  · split
    · rfl
    · split
      · rfl
      · split
        · split
          · rfl
          · split
            · split
              · rfl
              · rename_i moved
                exact sendOneLoop_budget_of_rescue env ctx data budget (useBackSink_marks env moved)
            · rfl
        all_goals rfl

end Env
end SinkState

/-- What a dispatcher asks of a runtime's buffer. -/
inductive SinkInput where
  | package (package : SinkPackage)
  | flush
  deriving DecidableEq, Repr

/-- A runtime in its dispatcher: the world it meets, the fields that only routing reads, and the
    history of what it was given. `cond` is the evaluation of its condition. -/
structure SinkSlot (M : Type) where
  env : SinkEnv M
  state : SinkState M
  ready : Bool
  cond : Option (DataRecord → Bool)
  filterExpect : Bool
  preTags : List DataField
  inputs : List SinkInput

namespace SinkSlot
variable {M : Type}

def name (slot : SinkSlot M) : String := slot.state.rt.name
def freeze (slot : SinkSlot M) : SinkSlot M := { slot with ready := false }
def activate (slot : SinkSlot M) : SinkSlot M := { slot with ready := true }

def sendPackage [DecidableEq M] (ctx : SendCtx) (package : SinkPackage) (slot : SinkSlot M) :
    SinkSlot M × Except SinkError Unit :=
  let (state, result) := slot.state.sendPackageToSink slot.env ctx package
  ({ slot with state, inputs := slot.inputs ++ [.package package] }, result)

def flush (ctx : SendCtx) (slot : SinkSlot M) : SinkSlot M × Except SinkError Unit :=
  let (state, result) := slot.state.flush slot.env ctx
  ({ slot with state, inputs := slot.inputs ++ [.flush] }, result)

def sendStat (slot : SinkSlot M) : SinkSlot M × Except SinkError Unit :=
  let (state, result) := slot.state.sendStat slot.env
  ({ slot with state }, result)

def stopBackends (slot : SinkSlot M) : SinkSlot M × Except SinkError Unit :=
  let (state, result) := slot.state.stopBackends slot.env
  ({ slot with state }, result)

/-- `proc_fix` over the runtimes of a dispatcher: the handle comes back when no one takes it. -/
def procFix (handle : ASinkHandle) :
    List (SinkSlot M) → List (SinkSlot M) × Except SinkError (Option ASinkHandle)
  | [] => ([], .ok (some handle))
  | slot :: rest =>
    if slot.state.rt.backupUsed && slot.state.rt.acceptsHandle handle then
      match slot.state.recoverSink slot.env handle with
      | (state, .error e) => ({ slot with state } :: rest, .error e)
      | (state, .ok _) => ({ slot with state } :: rest, .ok none)
    else
      let (rest, result) := procFix handle rest
      (slot :: rest, result)

end SinkSlot
end WarpMotor
