import Mathlib.Logic.Relation
import WarpMotor.Lib.Runs
import WarpMotor.Sink.Runtime

/-!
Where the backends of a sink are. `RescueSlots` is the abstract machine: the
primary, the retired rescue file, the rescue flag and the handles that travel.
Sends move it by three kinds of steps only, and every send of the runtime is
a sequence of them; the invariant is proved on the machine and carried to the
runtime. Handles are moved, never copied: `deliver` takes one that travels,
`arrive` is any other handle, as a caller may build one.
-/
namespace WarpMotor

structure RescueSlots where
  name : String
  instanceId : Nat
  primary : SinkBackend
  retired : Option SinkBackend
  backupUsed : Bool
  travelling : List ASinkHandle
  deriving DecidableEq, Repr

def SinkBackend.isRescue : SinkBackend → Bool
  | .real _ => false
  | .rescueFile _ => true

namespace RescueSlots

/-- Every backend object the sink still owns or has sent away. -/
def places (v : RescueSlots) : List SinkBackend :=
  v.primary :: (v.retired.toList ++ v.travelling.map ASinkHandle.sink)

/-- The moves of a send: close the retired rescue file, or hand the primary over for repair and
    go on with the retired rescue file or with a new one. -/
inductive Step : RescueSlots → RescueSlots → Prop
  | settle (v : RescueSlots) : Step v { v with retired := none }
  | reuse (v : RescueSlots) (rescue : SinkBackend) (live : v.backupUsed = false)
      (kept : v.retired = some rescue) :
      Step v { v with
        primary := rescue, retired := none, backupUsed := true
        travelling := v.travelling ++ [⟨v.name, v.instanceId, v.primary⟩] }
  | create (v : RescueSlots) (seq : Nat) (live : v.backupUsed = false) (gone : v.retired = none) :
      Step v { v with
        primary := .rescueFile seq, backupUsed := true
        travelling := v.travelling ++ [⟨v.name, v.instanceId, v.primary⟩] }

abbrev Steps : RescueSlots → RescueSlots → Prop := Relation.ReflTransGen Step

/-- A live sink holds its own backend and perhaps the last rescue file; a rescued one writes to
    its rescue file while its backend travels. -/
inductive Inv (home : Nat) : RescueSlots → Prop
  | live (v : RescueSlots) (used : v.backupUsed = false) (primary : v.primary = .real home)
      (kept : v.retired = none ∨ ∃ seq, v.retired = some (.rescueFile seq))
      (settled : v.travelling = []) : Inv home v
  | rescued (v : RescueSlots) (seq : Nat) (used : v.backupUsed = true)
      (primary : v.primary = .rescueFile seq) (gone : v.retired = none)
      (away : v.travelling = [⟨v.name, v.instanceId, .real home⟩]) : Inv home v

theorem step_inv {home : Nat} {v v' : RescueSlots} (step : Step v v') (inv : Inv home v) :
    Inv home v' := by
  cases step with
  | settle =>
    cases inv with
    | live used primary kept settled => exact .live _ used primary (Or.inl rfl) settled
    | rescued seq used primary gone away => exact .rescued _ seq used primary rfl away
  | reuse rescue live kept =>
    cases inv with
    | live used primary file settled =>
      rcases file with none | ⟨seq, file⟩
      · rw [none] at kept
        cases kept
      · rw [file] at kept
        cases kept
        exact .rescued _ seq rfl rfl rfl (by simp [settled, primary])
    | rescued seq used primary gone away =>
      rw [used] at live
      cases live
  | create seq live gone =>
    cases inv with
    | live used primary file settled =>
      exact .rescued _ seq rfl rfl gone (by simp [settled, primary])
    | rescued seq used primary gone away =>
      rw [used] at live
      cases live

theorem steps_inv {home : Nat} {v v' : RescueSlots} (steps : Steps v v') (inv : Inv home v) :
    Inv home v' := by
  induction steps with
  | refl => exact inv
  | tail _ step ih => exact step_inv step ih

/-- What the invariant says about the backend, the rescue files and the flag. -/
theorem Inv.places {home : Nat} {v : RescueSlots} (inv : Inv home v) :
    v.places.count (.real home) = 1 ∧ (v.primary = .real home ↔ v.backupUsed = false) ∧
      v.places.countP SinkBackend.isRescue ≤ 1 ∧
      (v.backupUsed = true → v.primary.isRescue = true ∧ v.retired = none ∧
        v.travelling = [⟨v.name, v.instanceId, .real home⟩]) ∧
      (v.backupUsed = false → v.travelling = []) := by
  cases inv with
  | live used primary kept settled =>
    rcases kept with none | ⟨seq, file⟩
    · simp [RescueSlots.places, used, primary, none, settled, SinkBackend.isRescue]
    · simp [RescueSlots.places, used, primary, file, settled, SinkBackend.isRescue]
  | rescued seq used primary gone away =>
    simp [RescueSlots.places, used, primary, gone, away, SinkBackend.isRescue, List.countP_cons]

end RescueSlots

/-- The monitor and the channel for broken backends take everything. -/
structure ChannelsOpen {M : Type} (env : SinkEnv M) : Prop where
  monitor : ∀ tick, env.monSend tick = .ok ()
  badSinks : ∀ tick, env.badSend tick = true

namespace SinkState
variable {M : Type}

def slots (s : SinkState M) : RescueSlots :=
  { name := s.rt.name, instanceId := s.rt.instanceId, primary := s.rt.primary
    retired := s.rt.retiredRescue, backupUsed := s.rt.backupUsed, travelling := s.badSinks }

@[simp] theorem slots_statStart (s : SinkState M) (units : List StatUnit) :
    (s.statStart units).slots = s.slots := rfl

@[simp] theorem slots_statFinish (s : SinkState M) (units : List StatUnit) :
    (s.statFinish units).slots = s.slots := rfl

@[simp] theorem slots_recordFailedDrop (s : SinkState M) (count : Nat) :
    (s.recordFailedDrop count).slots = s.slots := by
  unfold recordFailedDrop
  split <;> rfl

@[simp] theorem slots_recordSkippedDrop (s : SinkState M) (count : Nat) :
    (s.recordSkippedDrop count).slots = s.slots := by
  unfold recordSkippedDrop
  split <;> rfl

theorem recordSendSuccess_steps (s : SinkState M) : s.slots.Steps s.recordSendSuccess.slots := by
  unfold recordSendSuccess
  dsimp only
  split
  · exact .single (.settle s.slots)
  · exact .refl

section Env
variable (env : SinkEnv M)

@[simp] theorem slots_healthFailure (s : SinkState M) : (s.healthFailure env).slots = s.slots := rfl

@[simp] theorem slots_callPrimary (s : SinkState M) (payload : SinkPayload M) :
    (s.callPrimary env payload).1.slots = s.slots := rfl

@[simp] theorem slots_shouldSkipSend (s : SinkState M) :
    (s.shouldSkipSend env).1.slots = s.slots := by
  unfold shouldSkipSend
  split <;> rfl

@[simp] theorem slots_dropBatchIfOpen (s : SinkState M) (count : Nat) :
    (s.dropBatchIfOpen env count).1.slots = s.slots := by
  have skipped := slots_shouldSkipSend env s
  unfold dropBatchIfOpen
  split <;> rename_i s' outcome <;> rw [outcome] at skipped
  · rw [slots_recordSkippedDrop]
    exact skipped
  · exact skipped

theorem sendStat_open (monitor : ∀ tick, env.monSend tick = .ok ()) (s : SinkState M) :
    ∃ tick, s.sendStat env = ({ s with tick }, .ok ()) := by
  unfold sendStat
  rw [monitor]
  dsimp only
  split
  · rw [monitor]
    exact ⟨_, rfl⟩
  · exact ⟨_, rfl⟩

theorem sendStatTo_open (monitor : ∀ tick, env.monSend tick = .ok ()) (s : SinkState M)
    (mon : Bool) : ∃ tick, s.sendStatTo env mon = ({ s with tick }, .ok ()) := by
  unfold sendStatTo
  split
  · exact sendStat_open env monitor s
  · exact ⟨s.tick, rfl⟩

theorem useBackSink_steps (channels : ChannelsOpen env) (ctx : SendCtx) (s : SinkState M)
    (live : s.rt.backupUsed = false) : s.slots.Steps (s.useBackSink env ctx).1.slots := by
  unfold useBackSink swapBacksink
  cases kept : s.rt.retiredRescue with
  | some rescue =>
    dsimp only
    obtain ⟨tick, sent⟩ := sendStatTo_open env channels.monitor
      { s with rt := { s.rt with primary := rescue, retiredRescue := none, backupUsed := true } }
      ctx.mon
    rw [sent]
    have moved := RescueSlots.Step.reuse s.slots rescue live kept
    simpa [slots, channels.badSinks] using Relation.ReflTransGen.single moved
  | none =>
    dsimp only
    cases env.rescueOpen s.tick with
    | error e => exact .refl
    | ok _ =>
      dsimp only
      obtain ⟨tick, sent⟩ := sendStatTo_open env channels.monitor
        { s with
          tick := s.tick + 1
          rt := { s.rt with
            primary := .rescueFile (env.rescueSeq s.tick)
            rescueFile := some (rescueFilePath s.rt.rescue s.rt.name (env.fmtTime s.tick)
              (env.rescueSeq s.tick))
            backupUsed := true } } ctx.mon
      rw [sent]
      have moved := RescueSlots.Step.create s.slots (env.rescueSeq s.tick) live kept
      simpa [slots, channels.badSinks, kept] using Relation.ReflTransGen.single moved

theorem handleSendError_steps (channels : ChannelsOpen env) (ctx : SendCtx) (error : SinkError)
    (dropped : Nat) (s : SinkState M) :
    s.slots.Steps (s.handleSendError env ctx error dropped).1.slots := by
  unfold handleSendError
  split
  · simp only [slots_recordFailedDrop, slots_healthFailure]
    exact .refl
  · split
    · split
      · exact .refl
      · rename_i live
        split
        · have moved := useBackSink_steps env channels ctx s (by simpa using live)
          split <;> rename_i s' outcome <;> rw [outcome] at moved <;> exact moved
        · exact .refl
    all_goals exact .refl

theorem sendLoop_steps (channels : ChannelsOpen env) (ctx : SendCtx) (payload : SinkPayload M)
    (statDone onThrow : SinkState M → SinkState M)
    (done : ∀ s, (statDone s).slots = s.slots) (thrown : ∀ s, (onThrow s).slots = s.slots)
    (budget : Nat) (s : SinkState M) :
    s.slots.Steps (s.sendLoop env ctx payload statDone onThrow budget).1.slots := by
  induction budget generalizing s with
  | zero => exact .refl
  | succ budget ih =>
    have called := slots_callPrimary env s payload
    unfold sendLoop
    split
    · rename_i s₁ accepted
      rw [accepted] at called
      have settled := recordSendSuccess_steps (statDone s₁)
      rw [done, called] at settled
      exact settled
    · rename_i s₁ e refused
      rw [refused] at called
      have handled := handleSendError_steps env channels ctx e payload.size s₁
      rw [called] at handled
      split <;> rename_i s₂ outcome <;> rw [outcome] at handled
      · exact handled
      · exact handled.trans (ih s₂)
      · rw [done]
        exact handled
      · rw [thrown]
        exact handled

theorem sendRecordsBatch_steps (channels : ChannelsOpen env) (ctx : SendCtx)
    (records : List DataRecord) (batchMeta : M) (requeue : Bool) (s : SinkState M) :
    s.slots.Steps (s.sendRecordsBatch env ctx records batchMeta requeue).1.slots := by
  have checked := slots_dropBatchIfOpen env s records.length
  unfold sendRecordsBatch
  split
  · exact .refl
  · split <;> rename_i s₁ outcome <;> rw [outcome] at checked <;> rw [← checked]
    · exact .refl
    · have thrown : ∀ s : SinkState M, ((s.requeue requeue records batchMeta).statEndRecordsBatch
          records).slots = s.slots := by
        intro s
        cases requeue <;> rfl
      exact sendLoop_steps env channels ctx (recordsPayload env records batchMeta)
        (statEndRecordsBatch records) _ (fun s => rfl) thrown 2 (s₁.statBegRecordsBatch records)

theorem sendTextBatch_steps (channels : ChannelsOpen env) (ctx : SendCtx) (texts : List String)
    (s : SinkState M) : s.slots.Steps (s.sendTextBatch env ctx texts).1.slots := by
  have checked := slots_dropBatchIfOpen env s texts.length
  unfold sendTextBatch
  split
  · exact .refl
  · split <;> rename_i s₁ outcome <;> rw [outcome] at checked <;> rw [← checked]
    · exact .refl
    · exact sendLoop_steps env channels ctx (.strBatch texts) (packageStatsEnd texts.length)
        (packageStatsEnd texts.length) (fun s => rfl) (fun s => rfl) 2
        (s₁.packageStatsBegin texts.length)

theorem flushPendingBuffer_steps (channels : ChannelsOpen env) (ctx : SendCtx) (s : SinkState M) :
    s.slots.Steps (s.flushPendingBuffer env ctx).1.slots := by
  unfold flushPendingBuffer
  split
  · exact .refl
  · exact sendRecordsBatch_steps env channels ctx _ _ _
      { s with rt := { s.rt with pendingRecords := [], pendingMeta := env.api.default } }

theorem bufferSegment_steps (channels : ChannelsOpen env) (ctx : SendCtx)
    (records : List DataRecord) (batchMeta : M) (s : SinkState M) :
    s.slots.Steps (s.bufferSegment env ctx records batchMeta).1.slots := by
  unfold bufferSegment
  split
  · exact sendRecordsBatch_steps env channels ctx _ _ _ s
  · dsimp only
    split
    · exact flushPendingBuffer_steps env channels ctx { s with rt := { s.rt with
        pendingMeta := if s.rt.pendingRecords.isEmpty then batchMeta else s.rt.pendingMeta
        pendingRecords := s.rt.pendingRecords ++ records } }
    · exact .refl

theorem sendRecordSegment_steps [DecidableEq M] (channels : ChannelsOpen env) (ctx : SendCtx)
    (records : List DataRecord) (batchMeta : M) (s : SinkState M) :
    s.slots.Steps (s.sendRecordSegment env ctx records batchMeta).1.slots := by
  unfold sendRecordSegment
  split
  · exact .refl
  · split
    · have flushed := flushPendingBuffer_steps env channels ctx s
      split <;> rename_i s₁ outcome <;> rw [outcome] at flushed
      · exact flushed
      · exact flushed.trans (bufferSegment_steps env channels ctx records batchMeta s₁)
    · exact bufferSegment_steps env channels ctx records batchMeta s

theorem sendMixedMetaPackage_steps [DecidableEq M] (channels : ChannelsOpen env) (ctx : SendCtx)
    (package : SinkPackage) (records : List DataRecord) (batchMeta : M) (s : SinkState M) :
    s.slots.Steps (s.sendMixedMetaPackage env ctx package records batchMeta).1.slots := by
  induction package generalizing records batchMeta s with
  | nil => exact sendRecordSegment_steps env channels ctx records batchMeta s
  | cons unit rest ih =>
    have sent := sendRecordSegment_steps env channels ctx records batchMeta s
    dsimp only [sendMixedMetaPackage]
    split
    · split <;> rename_i s₁ outcome <;> rw [outcome] at sent
      · exact sent
      · exact sent.trans (ih _ _ s₁)
    · exact ih _ _ s

theorem sendPackageFrom_steps [DecidableEq M] (channels : ChannelsOpen env) (ctx : SendCtx)
    (package : SinkPackage) (records : List DataRecord) (segmentMeta : Option M)
    (s : SinkState M) :
    s.slots.Steps (s.sendPackageFrom env ctx package records segmentMeta).1.slots := by
  induction package generalizing records segmentMeta with
  | nil => exact sendRecordSegment_steps env channels ctx records _ s
  | cons unit rest ih =>
    dsimp only [sendPackageFrom]
    split
    · split
      · exact sendMixedMetaPackage_steps env channels ctx _ _ _ s
      · exact ih _ _
    · exact ih _ _

theorem sendOneLoop_steps (channels : ChannelsOpen env) (ctx : SendCtx) (data : SinkDataEnum)
    (budget : Nat) (s : SinkState M) :
    s.slots.Steps (s.sendOneLoop env ctx data budget).1.slots := by
  induction budget generalizing s with
  | zero => exact .refl
  | succ budget ih =>
    have checked := slots_shouldSkipSend env s
    unfold sendOneLoop
    split <;> rename_i s₁ skipped <;> rw [skipped] at checked
    · simp only [statBeg, statEnd, slots_statStart, slots_statFinish, slots_recordSkippedDrop,
        checked]
      exact .refl
    · have begun : (s₁.statBeg data).slots = s.slots := checked
      have called := slots_callPrimary env (s₁.statBeg data) (dataPayload env data)
      rw [begun] at called
      split
      · rename_i s₂ accepted
        rw [accepted] at called
        have settled := recordSendSuccess_steps s₂
        rw [called] at settled
        exact settled
      · rename_i s₂ e refused
        rw [refused] at called
        rw [← called]
        split
        · simp only [statEnd, slots_statFinish, slots_recordFailedDrop, slots_healthFailure]
          exact .refl
        · split
          · split
            · exact .refl
            · rename_i live
              split
              · have moved := useBackSink_steps env channels ctx s₂ (by simpa using live)
                split <;> rename_i s₃ swapped <;> rw [swapped] at moved
                · exact moved
                · exact moved.trans (ih s₃)
              · exact .refl
          all_goals exact .refl

/-- Only a sink in its rescue state that the handle names is touched. -/
theorem recoverSink_refuses (handle : ASinkHandle) (s : SinkState M)
    (refused : ¬ (s.rt.backupUsed = true ∧ s.rt.acceptsHandle handle = true)) :
    s.recoverSink env handle = (s, .ok false) := by
  unfold recoverSink
  rw [if_neg (by simpa using refused)]

/-- The returned backend takes its place again and the rescue file is kept open. -/
theorem recoverSink_inv (channels : ChannelsOpen env) (home : Nat) (s : SinkState M)
    (handle : ASinkHandle) (seq : Nat) (used : s.rt.backupUsed = true)
    (primary : s.rt.primary = .rescueFile seq) (gone : s.rt.retiredRescue = none)
    (own : handle = ⟨s.rt.name, s.rt.instanceId, .real home⟩) (settled : s.badSinks = []) :
    (s.recoverSink env handle).1.slots.Inv home := by
  subst own
  obtain ⟨tick, sent⟩ := sendStat_open env channels.monitor { s with rt := { s.rt with
    primary := .real home, retiredRescue := some s.rt.primary } }
  unfold recoverSink
  rw [if_pos (by simp [used, SinkRuntime.acceptsHandle])]
  simp only [gone]
  rw [sent]
  exact .live _ rfl rfl (Or.inr ⟨seq, by simp [slots, primary]⟩) settled

end Env
end SinkState

/-- What can happen to a sink: any send, the return of a travelling handle, the arrival of some
    other handle, the final stop. -/
inductive RescueOp where
  | sendOne (ctx : SendCtx) (data : SinkDataEnum)
  | sendPackage (ctx : SendCtx) (package : SinkPackage)
  | sendStr (ctx : SendCtx) (package : List String)
  | sendFfv (ctx : SendCtx) (package : List (List DataField))
  | flush (ctx : SendCtx)
  | deliver (position : Nat)
  | arrive (handle : ASinkHandle)
  | stop

section Runs
variable {M : Type} (env : SinkEnv M)

def SinkState.rescueStep [DecidableEq M] (s : SinkState M) : RescueOp → SinkState M
  | .sendOne ctx data => (s.sendToSink env ctx data).1
  | .sendPackage ctx package => (s.sendPackageToSink env ctx package).1
  | .sendStr ctx package => (s.sendStrPackageToSink env ctx package).1
  | .sendFfv ctx package => (s.sendFfvPackageToSink env ctx package).1
  | .flush ctx => (s.flush env ctx).1
  | .deliver position =>
    match s.badSinks[position]? with
    | some handle =>
      ({ s with badSinks := s.badSinks.eraseIdx position }.recoverSink env handle).1
    | none => s
  | .arrive handle => (s.recoverSink env handle).1
  | .stop => (s.stopBackends env).1

/-- A handle that does not travel names another sink, or reaches this one outside its rescue
    state: no copy of a handle exists while the backend itself is away. -/
def NoCopies (s : SinkState M) : RescueOp → Prop
  | .arrive handle => ¬ (s.rt.backupUsed = true ∧ s.rt.acceptsHandle handle = true)
  | _ => True

instance (s : SinkState M) (op : RescueOp) : Decidable (NoCopies s op) :=
  match op with
  | .arrive handle =>
    inferInstanceAs (Decidable (¬ (s.rt.backupUsed = true ∧ s.rt.acceptsHandle handle = true)))
  | .sendOne .. | .sendPackage .. | .sendStr .. | .sendFfv .. | .flush .. | .deliver .. | .stop =>
    .isTrue trivial

theorem sendToSink_steps (channels : ChannelsOpen env) (ctx : SendCtx) (data : SinkDataEnum)
    (s : SinkState M) : s.slots.Steps (s.sendToSink env ctx data).1.slots := by
  have looped := SinkState.sendOneLoop_steps env channels ctx data 2 s
  unfold SinkState.sendToSink
  split <;> rename_i s₁ outcome <;> rw [outcome] at looped
  · exact looped
  · obtain ⟨tick, sent⟩ := SinkState.sendStatTo_open env channels.monitor s₁ ctx.mon
    rw [sent]
    exact looped

theorem sendPackageToSink_steps [DecidableEq M] (channels : ChannelsOpen env) (ctx : SendCtx)
    (package : SinkPackage) (s : SinkState M) :
    s.slots.Steps (s.sendPackageToSink env ctx package).1.slots := by
  unfold SinkState.sendPackageToSink
  split
  · exact .refl
  · exact SinkState.sendPackageFrom_steps env channels ctx package [] none s

theorem stopBackends_steps (s : SinkState M) : s.slots.Steps (s.stopBackends env).1.slots := by
  unfold SinkState.stopBackends
  split
  · exact .single (.settle s.slots)
  · exact .refl

theorem rescueStep_inv [DecidableEq M] (channels : ChannelsOpen env) (home : Nat) (s : SinkState M)
    (op : RescueOp) (fresh : NoCopies s op) (inv : s.slots.Inv home) :
    (s.rescueStep env op).slots.Inv home := by
  cases op with
  | sendOne ctx data => exact RescueSlots.steps_inv (sendToSink_steps env channels ctx data s) inv
  | sendPackage ctx package =>
    exact RescueSlots.steps_inv (sendPackageToSink_steps env channels ctx package s) inv
  | sendStr ctx package =>
    exact RescueSlots.steps_inv (SinkState.sendTextBatch_steps env channels ctx package s) inv
  | sendFfv ctx package =>
    exact RescueSlots.steps_inv (SinkState.sendTextBatch_steps env channels ctx _ s) inv
  | flush ctx =>
    exact RescueSlots.steps_inv (SinkState.flushPendingBuffer_steps env channels ctx s) inv
  | stop => exact RescueSlots.steps_inv (stopBackends_steps env s) inv
  | arrive handle =>
    dsimp only [SinkState.rescueStep]
    rw [SinkState.recoverSink_refuses env handle s fresh]
    exact inv
  | deliver position =>
    dsimp only [SinkState.rescueStep]
    split
    · rename_i handle found
      cases inv with
      | live used primary kept settled =>
        have empty : s.badSinks = [] := settled
        rw [empty] at found
        cases found
      | rescued seq used primary gone away =>
        -- one handle travels, so the delivered one is it
        have single : s.badSinks = [⟨s.rt.name, s.rt.instanceId, .real home⟩] := away
        rw [single] at found ⊢
        cases position with
        | zero =>
          cases found
          exact SinkState.recoverSink_inv env channels home { s with badSinks := [] } _ seq used
            primary gone rfl rfl
        | succ position => cases found
    · exact inv

/-- The fields that `recover_sink` and `proc_fix` may change. -/
def SinkState.recovery (s : SinkState M) : SinkBackend × Option SinkBackend × Bool :=
  (s.rt.primary, s.rt.retiredRescue, s.rt.backupUsed)

/-- In a dispatcher the handle changes no runtime that is not in rescue or that it does not name. -/
theorem procFix_refuses (handle : ASinkHandle) (sinks : List (SinkSlot M)) :
    List.Forall₂ (fun old new =>
        ¬ (old.state.rt.backupUsed = true ∧ old.state.rt.acceptsHandle handle = true) →
          new.state.recovery = old.state.recovery) sinks (SinkSlot.procFix handle sinks).1 := by
  induction sinks with
  | nil => exact .nil
  | cons slot rest ih =>
    have same : ∀ old : SinkSlot M, ¬ (old.state.rt.backupUsed = true ∧
        old.state.rt.acceptsHandle handle = true) →
          old.state.recovery = old.state.recovery := fun _ _ => rfl
    unfold SinkSlot.procFix
    split
    · rename_i taken
      have taken' : slot.state.rt.backupUsed = true ∧
          slot.state.rt.acceptsHandle handle = true := by
        simpa using taken
      split
      all_goals exact .cons (fun refused => absurd taken' refused) (List.forall₂_same.mpr fun t _ => same t)
    · exact .cons (same slot) ih

end Runs

/-- In every state a sink can reach: its backend is in one place, the primary exactly outside the
    rescue state and else the one travelling handle; at most one rescue file is open, the primary
    in the rescue state and else the retired one; and a handle that reaches it outside the rescue
    state or names another instance changes nothing. -/
theorem rescue_slots_invariant {M : Type} [DecidableEq M] (env : SinkEnv M)
    (channels : ChannelsOpen env) (conf : SinkConf) (home : Nat) (ops : List RescueOp)
    (linear : Runs.AllSteps (SinkState.rescueStep env) NoCopies
      (SinkState.start env.api conf (.real home)) ops) :
    let s := Runs.run (SinkState.rescueStep env) (SinkState.start env.api conf (.real home)) ops
    (s.slots.places.count (.real home) = 1 ∧
        (s.rt.primary = .real home ↔ s.rt.backupUsed = false) ∧
        s.slots.places.countP SinkBackend.isRescue ≤ 1 ∧
        (s.rt.backupUsed = true → s.rt.primary.isRescue = true ∧ s.rt.retiredRescue = none ∧
          s.badSinks = [⟨s.rt.name, s.rt.instanceId, .real home⟩]) ∧
        (s.rt.backupUsed = false → s.badSinks = [])) ∧
      (∀ handle, ¬ (s.rt.backupUsed = true ∧ s.rt.acceptsHandle handle = true) →
        (s.recoverSink env handle).1.recovery = s.recovery) ∧
      ∀ handle (sinks : List (SinkSlot M)), List.Forall₂ (fun old new =>
        ¬ (old.state.rt.backupUsed = true ∧ old.state.rt.acceptsHandle handle = true) →
          new.state.recovery = old.state.recovery) sinks (SinkSlot.procFix handle sinks).1 := by
  intro s
  have initial : (SinkState.start env.api conf (.real home)).slots.Inv home :=
    .live _ rfl rfl (Or.inl rfl) rfl
  have inv : s.slots.Inv home := Runs.run_invariant_of_allSteps (fun s => s.slots.Inv home)
    (rescueStep_inv env channels home) ops _ initial linear
  refine ⟨inv.places, ?_, procFix_refuses⟩
  intro handle refused
  rw [SinkState.recoverSink_refuses env handle s refused]

section TwoOutages

def fileSinkConf : SinkConf :=
  { name := "file", instanceId := 3, groupName := none, confName := "file", rescue := "rescue"
    batchSize := 1, dropWhenError := false, outputDisabled := [], normalUnitBatch := true
    backupUnitBatch := true }

/-- An outage that is repaired, and a second one. -/
def twoOutages : List RescueOp :=
  [.sendOne ⟨true, true⟩ (.raw "a"), .deliver 0, .sendOne ⟨true, true⟩ (.raw "b")]

/-- A copy of the handle of the first outage is accepted in the second one: the sink leaves its
    rescue state and the backend is in two places, the primary and the travelling handle. -/
theorem copied_handle_is_accepted_in_a_later_outage :
    let env := plainEnv (fun _ => true)
    let s := Runs.run (SinkState.rescueStep env)
      (SinkState.start env.api fileSinkConf (.real 7)) twoOutages
    let copied := (s.recoverSink env ⟨"file", 3, .real 7⟩).1
    s.rt.backupUsed = true ∧ copied.recovery ≠ s.recovery ∧ copied.rt.backupUsed = false ∧
      copied.slots.places.count (.real 7) = 2 := by
  decide

theorem plainEnv_channelsOpen (broken : Nat → Bool) : ChannelsOpen (plainEnv broken) :=
  ⟨fun _ => rfl, fun _ => rfl⟩

/-- The same run with a stale handle between the outages and a handle of another instance. -/
theorem rescue_slots_invariant_two_outages :
    (Runs.run (SinkState.rescueStep (plainEnv (fun _ => true)))
      (SinkState.start plainMetaApi fileSinkConf (.real 7))
      [.sendOne ⟨true, true⟩ (.raw "a"), .deliver 0, .arrive ⟨"file", 3, .real 7⟩,
        .sendOne ⟨true, true⟩ (.raw "b"), .arrive ⟨"file", 4, .real 8⟩]).slots.places.count
          (.real 7) = 1 := by
  have invariant := rescue_slots_invariant (plainEnv (fun _ => true)) (plainEnv_channelsOpen _)
    fileSinkConf 7
    [.sendOne ⟨true, true⟩ (.raw "a"), .deliver 0, .arrive ⟨"file", 3, .real 7⟩,
      .sendOne ⟨true, true⟩ (.raw "b"), .arrive ⟨"file", 4, .real 8⟩]
    ⟨trivial, trivial, by decide, trivial, by decide, trivial⟩
  exact invariant.1.1

end TwoOutages
end WarpMotor
