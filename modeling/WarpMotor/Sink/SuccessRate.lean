import WarpMotor.Sink.Drop
import WarpMotor.Sink.SinglePath
import WarpMotor.Stats.Tally

/-!
Completions against starts, for each collector of a sink and each dimension. A
start is counted on both collectors of a sink on its rescue file, a completion
on that of the rescue file only. A batch that moves to the rescue file between
its start and its completion is completed where it was not started; a record
sent on its own is started again there.
-/
namespace WarpMotor

namespace SinkState
variable {M : Type}

/-- What was recorded of the units of one dimension. -/
def keyed (key : StatUnit → Bool) (s : SinkState M) : SinkState M :=
  { s with stats := s.stats.filter (fun event => key event.unit) }

/-- No collector has more completions than starts, in any dimension. -/
def Covered (s : SinkState M) : Prop :=
  ∀ key slot, (s.keyed key).counted .finished slot ≤ (s.keyed key).counted .started slot

/-- From `s` to `s'` the completions grow no more than the starts. -/
def Adds (s s' : SinkState M) : Prop :=
  ∀ key slot, (s'.keyed key).counted .finished slot + (s.keyed key).counted .started slot ≤
    (s'.keyed key).counted .started slot + (s.keyed key).counted .finished slot

/-- The units are started on the collectors in use, and not completed. -/
def Begun (units : List StatUnit) (used : Bool) (s s' : SinkState M) : Prop :=
  ∀ key slot, (s'.keyed key).counted .finished slot + (s.keyed key).counted .started slot +
      (if slot = .normal ∨ used = true then unitSizes (units.filter key) else 0) ≤
    (s'.keyed key).counted .started slot + (s.keyed key).counted .finished slot

theorem Adds.covers {s s' : SinkState M} (adds : Adds s s') (covered : s.Covered) : s'.Covered := by
  intro key slot
  have more := adds key slot
  have before := covered key slot
  omega

theorem Adds.trans {s₁ s₂ s₃ : SinkState M} (first : Adds s₁ s₂) (second : Adds s₂ s₃) :
    Adds s₁ s₃ := by
  intro key slot
  have one := first key slot
  have two := second key slot
  omega

theorem SameStats.keyed {s s' : SinkState M} (same : SameStats s s') (key : StatUnit → Bool) :
    SameStats (s.keyed key) (s'.keyed key) := 
  congrArg (List.filter (fun event : StatEvent => key event.unit)) same

theorem SameStats.adds {s s' : SinkState M} (same : SameStats s s') : Adds s s' := by
  intro key slot
  rw [(same.keyed key).counted, (same.keyed key).counted]
  omega

theorem SameStats.begun {s s' : SinkState M} {units : List StatUnit} {used : Bool}
    {start : SinkState M} (begun : Begun units used start s) (same : SameStats s s') :
    Begun units used start s' := by
  intro key slot
  rw [(same.keyed key).counted, (same.keyed key).counted]
  exact begun key slot

theorem Begun.adds {units : List StatUnit} {used : Bool} {s s' : SinkState M}
    (begun : Begun units used s s') : Adds s s' := by
  intro key slot
  have owes := begun key slot
  omega

theorem keyed_statStart (key : StatUnit → Bool) (units : List StatUnit) (s : SinkState M) :
    (s.statStart units).keyed key = (s.keyed key).statStart (units.filter key) := by
  have marks : (units.flatMap (fun unit => (⟨.started, .normal, unit⟩ : StatEvent) ::
        if s.rt.backupUsed then [⟨.started, .backup, unit⟩] else [])).filter
          (fun event => key event.unit) =
      (units.filter key).flatMap (fun unit => (⟨.started, .normal, unit⟩ : StatEvent) ::
        if s.rt.backupUsed then [⟨.started, .backup, unit⟩] else []) := by
    induction units with
    | nil => rfl
    | cons unit units ih =>
      rw [List.flatMap_cons, List.filter_append, ih]
      cases kept : key unit <;> cases s.rt.backupUsed <;> simp [kept]
  simp only [keyed, statStart, List.filter_append, marks]
  rfl

theorem keyed_statFinish (key : StatUnit → Bool) (units : List StatUnit) (s : SinkState M) :
    (s.statFinish units).keyed key = (s.keyed key).statFinish (units.filter key) := by
  simp only [keyed, statFinish, List.filter_append, List.filter_map]
  rfl

theorem statStart_begun (units : List StatUnit) (s : SinkState M) :
    Begun units s.rt.backupUsed s (s.statStart units) := by
  intro key slot
  rw [keyed_statStart, counted_statStart, counted_statStart]
  have rt : (s.keyed key).rt = s.rt := rfl
  rw [rt]
  simp only [reduceCtorEq, false_and, if_false, true_and]
  omega

/-- A completion pays for the start before it, on the collectors of the same routing. -/
theorem Begun.finish {units : List StatUnit} {s s' : SinkState M}
    (begun : Begun units s'.rt.backupUsed s s') : Adds s (s'.statFinish units) := by
  intro key slot
  have owes := begun key slot
  rw [keyed_statFinish, counted_statFinish, counted_statFinish]
  have rt : (s'.keyed key).rt = s'.rt := rfl
  rw [rt]
  simp only [reduceCtorEq, false_and, if_false, true_and]
  cases used : s'.rt.backupUsed <;> cases slot <;> simp [used] at owes ⊢ <;> omega

/-- What decides where and under which dimension a unit is recorded. -/
structure SameCollectors (s s' : SinkState M) : Prop where
  backupUsed : s'.rt.backupUsed = s.rt.backupUsed
  groupName : s'.rt.groupName = s.rt.groupName
  confName : s'.rt.confName = s.rt.confName
  normalUnitBatch : s'.rt.normalUnitBatch = s.rt.normalUnitBatch
  backupUnitBatch : s'.rt.backupUnitBatch = s.rt.backupUnitBatch

theorem SameCollectors.of_rt {s s' : SinkState M} (same : s'.rt = s.rt) : SameCollectors s s' := by
  constructor <;> rw [same]

theorem SameCollectors.trans {s₁ s₂ s₃ : SinkState M} (first : SameCollectors s₁ s₂)
    (second : SameCollectors s₂ s₃) : SameCollectors s₁ s₃ :=
  ⟨second.backupUsed.trans first.backupUsed, second.groupName.trans first.groupName,
    second.confName.trans first.confName, second.normalUnitBatch.trans first.normalUnitBatch,
    second.backupUnitBatch.trans first.backupUnitBatch⟩

theorem SameCollectors.dimRecord {s s' : SinkState M} (same : SameCollectors s s') :
    s'.rt.buildSinkDimRecord = s.rt.buildSinkDimRecord := by
  unfold SinkRuntime.buildSinkDimRecord
  rw [same.groupName, same.confName]

theorem SameCollectors.unitBatch {s s' : SinkState M} (same : SameCollectors s s') :
    s'.rt.unitBatch = s.rt.unitBatch := by
  unfold SinkRuntime.unitBatch
  rw [same.normalUnitBatch, same.backupUsed, same.backupUnitBatch]

theorem SameCollectors.recordUnits {s s' : SinkState M} (same : SameCollectors s s')
    (records : List DataRecord) : s'.rt.recordUnits records = s.rt.recordUnits records := by
  unfold SinkRuntime.recordUnits
  rw [same.unitBatch, same.dimRecord]

theorem SameCollectors.blankUnits {s s' : SinkState M} (same : SameCollectors s s') (count : Nat) :
    s'.rt.blankUnits count = s.rt.blankUnits count := by
  unfold SinkRuntime.blankUnits
  rw [same.unitBatch]

theorem SameCollectors.dataUnits {s s' : SinkState M} (same : SameCollectors s s')
    (data : SinkDataEnum) : s'.dataUnits data = s.dataUnits data := by
  unfold SinkState.dataUnits
  rw [same.dimRecord]

theorem recordSendSuccess_collectors (s : SinkState M) : SameCollectors s s.recordSendSuccess := by
  unfold recordSendSuccess
  dsimp only
  split <;> exact ⟨rfl, rfl, rfl, rfl, rfl⟩

theorem recordDrop_collectors (count : Nat) (s : SinkState M) :
    SameCollectors s (s.recordFailedDrop count) ∧ SameCollectors s (s.recordSkippedDrop count) := by
  unfold recordFailedDrop recordSkippedDrop
  constructor <;> split <;> exact ⟨rfl, rfl, rfl, rfl, rfl⟩

theorem recordSkippedDrop_stats (count : Nat) (s : SinkState M) :
    SameStats s (s.recordSkippedDrop count) := by
  unfold recordSkippedDrop SameStats
  split <;> rfl

/-- Completed with the routing of the start. -/
theorem Begun.finishLater {s s₁ s₂ : SinkState M} {units : List StatUnit}
    (begun : Begun units s₁.rt.backupUsed s s₁) (same : SameStats s₁ s₂)
    (collectors : SameCollectors s₁ s₂) : Adds s (s₂.statFinish units) := by
  have kept := SameStats.begun begun same
  rw [← collectors.backupUsed] at kept
  exact kept.finish

section One
variable (env : SinkEnv M) (ctx : SendCtx) (data : SinkDataEnum)

theorem shouldSkipSend_same (s : SinkState M) :
    SameStats s (s.shouldSkipSend env).1 ∧ (s.shouldSkipSend env).1.rt = s.rt := by
  unfold shouldSkipSend
  split <;> exact ⟨rfl, rfl⟩

theorem statBeg_begun (s : SinkState M) :
    Begun (s.dataUnits data) s.rt.backupUsed s (s.statBeg data) := statStart_begun _ s

theorem statEnd_adds {s s' : SinkState M} (same : SameStats (s.statBeg data) s')
    (collectors : SameCollectors s s') : Adds s (s'.statEnd data) := by
  rw [statEnd, collectors.dataUnits data]
  have started : SameCollectors (s.statBeg data) s := .of_rt rfl
  exact (statBeg_begun data s).finishLater same (started.trans collectors)

/-- Every attempt on the single path starts its record where it completes it. -/
theorem sendOneLoop_adds (budget : Nat) (s : SinkState M) :
    Adds s (s.sendOneLoop env ctx data budget).1 := by
  induction budget generalizing s with
  | zero => exact SameStats.adds rfl
  | succ budget ih =>
    obtain ⟨same, rt⟩ := shouldSkipSend_same env s
    rw [sendOneLoop]
    cases asked : s.shouldSkipSend env with
    | mk s₁ skip =>
      rw [asked] at same rt
      refine same.adds.trans ?_
      cases skip with
      | true =>
        have skipped := recordSkippedDrop_stats 1 s₁
        exact skipped.adds.trans (statEnd_adds data rfl (.of_rt rfl))
      | false =>
        dsimp only
        -- the call leaves the runtime and the marks as the start has left them
        cases called : (s₁.statBeg data).callPrimary env (dataPayload env data) with
        | mk s₂ answer =>
          have marks : SameStats (s₁.statBeg data) s₂ := by
            cases called
            rfl
          have kept : s₂.rt = s₁.rt := by
            cases called
            rfl
          have begun := SameStats.begun (statBeg_begun data s₁) marks
          cases answer with
          | ok _ =>
            exact statEnd_adds data ((recordSendSuccess_stats s₂).trans marks)
              ((SameCollectors.of_rt kept).trans (recordSendSuccess_collectors s₂))
          | error e =>
            dsimp only
            split
            · have dropped := (recordFailedDrop_stats 1 (s₂.healthFailure env)).trans marks
              have same_health : SameCollectors s₁ (s₂.healthFailure env) :=
                (SameCollectors.of_rt kept).trans ⟨rfl, rfl, rfl, rfl, rfl⟩
              exact statEnd_adds data dropped
                (same_health.trans (recordDrop_collectors 1 (s₂.healthFailure env)).1)
            · split
              · split
                · exact begun.adds
                · split
                  · have moved := useBackSink_stats env ctx s₂
                    split
                    · next outcome =>
                      rw [outcome] at moved
                      exact begun.adds.trans moved.adds
                    · next s₃ outcome =>
                      rw [outcome] at moved
                      exact (begun.adds.trans moved.adds).trans (ih s₃)
                  · exact begun.adds
              all_goals exact begun.adds

theorem sendToSink_adds (s : SinkState M) : Adds s (s.sendToSink env ctx data).1 := by
  have sent := sendOneLoop_adds env ctx data 2 s
  unfold sendToSink
  split
  · next outcome =>
    rw [outcome] at sent
    exact sent
  · next s₁ outcome =>
    rw [outcome] at sent
    exact sent.trans (sendStatTo_stats env ctx.mon s₁).adds

theorem recoverSink_stats (handle : ASinkHandle) (s : SinkState M) :
    SameStats s (s.recoverSink env handle).1 := by
  -- the report leaves the marks, and so does the swap before it
  have reported (t : SinkState M) (same : SameStats s t) : SameStats s (t.sendStat env).1 :=
    (sendStatTo_stats env true t).trans same
  unfold recoverSink
  split
  · dsimp only
    cases s.rt.retiredRescue with
    | none =>
      have after := reported { s with rt := { s.rt with
        primary := handle.sink, retiredRescue := some s.rt.primary } } rfl
      dsimp only
      split <;> (next outcome => rw [outcome] at after; exact after)
    | some previous =>
      dsimp only
      cases env.stop s.tick with
      | error e => rfl
      | ok _ =>
        have after := reported { s with
          tick := s.tick + 1
          rt := { s.rt with primary := handle.sink, retiredRescue := some s.rt.primary } } rfl
        dsimp only
        split <;> (next outcome => rw [outcome] at after; exact after)
  · rfl

end One

/-- A call made now would fail, and the switch to the rescue file after it would work. -/
def SwitchesAt (env : SinkEnv M) (ctx : SendCtx) (s : SinkState M) (retired : Option SinkBackend)
    (tick : Nat) : Prop :=
  s.rt.dropWhenError = false ∧ s.rt.backupUsed = false ∧ ctx.bad = true ∧
    (∃ e, env.call tick s.rt.primary = .error e ∧ err4SendToSink env.mode e = .fixRetry) ∧
    ¬ RescueRefused env ctx.mon retired (tick + 1)

/-- From now on no call would, with the rescue file that is kept open or without one. -/
def StaysOnBackend (env : SinkEnv M) (ctx : SendCtx) (s : SinkState M) : Prop :=
  ∀ tick, s.tick ≤ tick → ∀ retired, retired = s.rt.retiredRescue ∨ retired = none →
    ¬ s.SwitchesAt env ctx retired tick

/-- As far as a switch to the rescue file goes, `s'` is `s` later on. -/
structure SameSeat (s s' : SinkState M) : Prop where
  drops : s'.rt.dropWhenError = s.rt.dropWhenError
  backupUsed : s'.rt.backupUsed = s.rt.backupUsed
  primary : s'.rt.primary = s.rt.primary
  retired : s'.rt.retiredRescue = s.rt.retiredRescue ∨ s'.rt.retiredRescue = none
  tick : s.tick ≤ s'.tick

theorem SameSeat.trans {s₁ s₂ s₃ : SinkState M} (first : SameSeat s₁ s₂) (second : SameSeat s₂ s₃) :
    SameSeat s₁ s₃ := by
  refine ⟨second.drops.trans first.drops, second.backupUsed.trans first.backupUsed,
    second.primary.trans first.primary, ?_, Nat.le_trans first.tick second.tick⟩
  rcases second.retired with kept | gone
  · rw [kept]
    exact first.retired
  · exact .inr gone

theorem SameSeat.of_rt {s s' : SinkState M} (same : s'.rt = s.rt) (later : s.tick ≤ s'.tick) :
    SameSeat s s' := by
  refine ⟨?_, ?_, ?_, ?_, later⟩ <;> rw [same]
  exact .inl rfl

theorem StaysOnBackend.later {env : SinkEnv M} {ctx : SendCtx} {s s' : SinkState M}
    (stays : s.StaysOnBackend env ctx) (seat : SameSeat s s') : s'.StaysOnBackend env ctx := by
  intro tick later retired which switches
  refine stays tick (Nat.le_trans seat.tick later) retired ?_ ?_
  · rcases which with rfl | gone
    · exact seat.retired
    · exact .inr gone
  · unfold SwitchesAt at switches ⊢
    rwa [seat.drops, seat.backupUsed, seat.primary] at switches

section Batch
variable (env : SinkEnv M) (ctx : SendCtx)

theorem recordSendSuccess_seat (s : SinkState M) : SameSeat s s.recordSendSuccess := by
  unfold recordSendSuccess
  dsimp only
  split
  · exact ⟨rfl, rfl, rfl, .inr rfl, Nat.le_refl _⟩
  · exact ⟨rfl, rfl, rfl, .inl rfl, Nat.le_refl _⟩

/-- The handler of an error, where it does not switch: an error of its own, or a state in which
    everything is recorded as before. -/
theorem handleSendError_stays {s s' : SinkState M} {e : SinkError} {count tick : Nat}
    {verdict : BatchErrHandle} (stays : ¬ s.SwitchesAt env ctx s.rt.retiredRescue tick)
    (now : s.tick = tick + 1) (failed : env.call tick s.rt.primary = .error e)
    (handled : s.handleSendError env ctx e count = (s', .ok verdict)) :
    verdict ≠ .retry ∧ SameCollectors s s' ∧ SameSeat s s' := by
  have unchanged : SameCollectors s s ∧ SameSeat s s :=
    ⟨.of_rt rfl, .of_rt rfl (Nat.le_refl _)⟩
  unfold handleSendError at handled
  cases drops : s.rt.dropWhenError with
  | true =>
    rw [drops, if_pos rfl] at handled
    obtain ⟨rfl, same⟩ := Prod.mk.inj handled
    cases same
    refine ⟨by simp, ?_, ?_⟩
    · have health : SameCollectors s (s.healthFailure env) := ⟨rfl, rfl, rfl, rfl, rfl⟩
      exact health.trans (recordDrop_collectors count (s.healthFailure env)).1
    · unfold recordFailedDrop
      split <;> exact ⟨rfl, rfl, rfl, .inl rfl, Nat.le_succ _⟩
  | false =>
    rw [drops, if_neg Bool.false_ne_true] at handled
    cases strategy : err4SendToSink env.mode e with
    | fixRetry =>
      rw [strategy] at handled
      dsimp only at handled
      cases used : s.rt.backupUsed with
      | true =>
        rw [used, if_pos rfl] at handled
        cases handled
        exact ⟨by simp, unchanged⟩
      | false =>
        rw [used, if_neg Bool.false_ne_true] at handled
        cases bad : ctx.bad with
        | false =>
          rw [bad, if_neg Bool.false_ne_true] at handled
          cases handled
          exact ⟨by simp, unchanged⟩
        | true =>
          rw [bad, if_pos rfl] at handled
          -- the only way out is the switch, and it is refused
          exfalso
          have refused : RescueRefused env ctx.mon s.rt.retiredRescue s.tick := by
            by_contra works
            rw [now] at works
            exact stays ⟨drops, used, bad, ⟨e, failed, strategy⟩, works⟩
          obtain ⟨failure, moved⟩ := (useBackSink_error_iff env ctx s).mpr refused
          cases outcome : s.useBackSink env ctx with
          | mk s₂ result =>
            rw [outcome] at moved handled
            dsimp only at moved
            subst moved
            cases handled
    | _ =>
      rw [strategy] at handled
      cases handled
      exact ⟨by simp, unchanged⟩

/-- A loop that does not switch makes one call. It ends with an error of the switch, or with the
    completion of what was started, on the collectors of the start. -/
theorem sendLoop_stays {s : SinkState M} (payload : SinkPayload M)
    (statDone onThrow : SinkState M → SinkState M) (stays : s.StaysOnBackend env ctx) :
    (∃ s' failure, SameStats s s' ∧
      s.sendLoop env ctx payload statDone onThrow 2 = (s', .error failure)) ∨
    ∃ s', SameStats s s' ∧ SameCollectors s s' ∧ SameSeat s s' ∧
      (s.sendLoop env ctx payload statDone onThrow 2 = ((statDone s').recordSendSuccess, .ok ()) ∨
        s.sendLoop env ctx payload statDone onThrow 2 = (statDone s', .ok ()) ∨
        ∃ e, s.sendLoop env ctx payload statDone onThrow 2 = (onThrow s', .error e)) := by
  rw [sendLoop]
  obtain ⟨answered, kept, ticked⟩ := callPrimary_spec env payload s
  cases called : s.callPrimary env payload with
  | mk s₁ answer =>
    rw [called] at answered kept ticked
    dsimp only at answered kept ticked
    have marks : SameStats s s₁ := by
      cases called
      rfl
    have collectors : SameCollectors s s₁ := .of_rt kept
    have seat : SameSeat s s₁ := .of_rt kept (by omega)
    cases answer with
    | ok _ => exact .inr ⟨s₁, marks, collectors, seat, .inl rfl⟩
    | error e =>
      dsimp only
      have handling := handleSendError_stats env ctx e payload.size s₁
      cases handled : s₁.handleSendError env ctx e payload.size with
      | mk s₂ verdict =>
        rw [handled] at handling
        cases verdict with
        | error failure => exact .inl ⟨s₂, failure, handling.trans marks, rfl⟩
        | ok verdict =>
          have quiet : ¬ s₁.SwitchesAt env ctx s₁.rt.retiredRescue s.tick := by
            have now := stays s.tick (Nat.le_refl _) s.rt.retiredRescue (.inl rfl)
            unfold SwitchesAt at now ⊢
            rwa [kept]
          obtain ⟨once, same, sits⟩ := handleSendError_stays env ctx quiet ticked
            (by rw [kept]; exact answered.symm) handled
          refine .inr ⟨s₂, handling.trans marks, collectors.trans same, seat.trans sits, ?_⟩
          cases verdict with
          | retry => exact absurd rfl once
          | consume => exact .inr (.inl rfl)
          | throw => exact .inr (.inr ⟨e, rfl⟩)

/-- What a call of a batch sender leaves: completions that were started, and a sink in the same
    seat unless it ended with an error. -/
def Clean (s : SinkState M) (r : SinkResult M Unit) : Prop :=
  Adds s r.1 ∧ (r.2 = .ok () → SameSeat s r.1)

theorem Clean.idle (s : SinkState M) : Clean s (s, .ok ()) :=
  ⟨SameStats.adds rfl, fun _ => .of_rt rfl (Nat.le_refl _)⟩

theorem Clean.after {s s₁ : SinkState M} {r : SinkResult M Unit} (adds : Adds s s₁)
    (seat : SameSeat s s₁) (clean : Clean s₁ r) : Clean s r :=
  ⟨adds.trans clean.1, fun succeeds => seat.trans (clean.2 succeeds)⟩

theorem dropBatchIfOpen_same (count : Nat) (s : SinkState M) :
    SameStats s (s.dropBatchIfOpen env count).1 ∧ SameSeat s (s.dropBatchIfOpen env count).1 := by
  refine ⟨(dropBatchIfOpen_spec env count s).1, ?_⟩
  unfold dropBatchIfOpen shouldSkipSend recordSkippedDrop
  cases s.rt.dropWhenError with
  | false => exact .of_rt rfl (Nat.le_refl _)
  | true =>
    cases s.rt.health.isOpen (env.now s.tick) with
    | false => exact .of_rt rfl (Nat.le_succ _)
    | true =>
      simp only [if_true]
      split <;> exact .of_rt rfl (Nat.le_succ _)

/-- A batch is started, sent in a loop that does not switch, and completed: `units` are its units,
    `put` is what a thrown error does first. -/
theorem batch_clean {s : SinkState M} (units : SinkRuntime M → List StatUnit)
    (reads : ∀ {s s' : SinkState M}, SameCollectors s s' → units s'.rt = units s.rt)
    (put : SinkState M → SinkState M)
    (puts : ∀ s, SameStats s (put s) ∧ SameCollectors s (put s)) (payload : SinkPayload M)
    (stays : s.StaysOnBackend env ctx) :
    Clean s ((s.statStart (units s.rt)).sendLoop env ctx payload
      (fun s => s.statFinish (units s.rt)) (fun s => (put s).statFinish (units (put s).rt)) 2) := by
  have seated : SameSeat s (s.statStart (units s.rt)) := .of_rt rfl (Nat.le_refl _)
  have settled : SameCollectors s (s.statStart (units s.rt)) := .of_rt rfl
  have begun := statStart_begun (units s.rt) s
  rcases sendLoop_stays env ctx payload (fun s => s.statFinish (units s.rt))
      (fun s => (put s).statFinish (units (put s).rt)) (stays.later seated) with
    ⟨s', failure, marks, ended⟩ | ⟨s', marks, collectors, seat, ended⟩
  · rw [ended]
    exact ⟨(SameStats.begun begun marks).adds, by rintro ⟨⟩⟩
  · have finished : Adds s (s'.statFinish (units s'.rt)) := by
      rw [reads collectors, reads settled]
      exact begun.finishLater marks collectors
    rcases ended with ended | ended | ⟨e, ended⟩ <;> rw [ended]
    · refine ⟨finished.trans (recordSendSuccess_stats _).adds, fun _ => ?_⟩
      have done : SameSeat s' (s'.statFinish (units s'.rt)) := .of_rt rfl (Nat.le_refl _)
      exact ((seated.trans seat).trans done).trans (recordSendSuccess_seat _)
    · have done : SameSeat s' (s'.statFinish (units s'.rt)) := .of_rt rfl (Nat.le_refl _)
      exact ⟨finished, fun _ => (seated.trans seat).trans done⟩
    · obtain ⟨quiet, same⟩ := puts s'
      refine ⟨?_, by rintro ⟨⟩⟩
      rw [reads same, reads collectors, reads settled]
      exact begun.finishLater (quiet.trans marks) (collectors.trans same)

theorem skipped_clean {s : SinkState M} (units : List StatUnit) :
    Clean s ((s.statStart units).statFinish units, .ok ()) := by
  have begun := statStart_begun units s
  exact ⟨begun.finishLater rfl (.of_rt rfl), fun _ => .of_rt rfl (Nat.le_refl _)⟩

theorem sendRecordsBatch_clean (records : List DataRecord) (batchMeta : M) (again : Bool)
    {s : SinkState M} (stays : s.StaysOnBackend env ctx) :
    Clean s (s.sendRecordsBatch env ctx records batchMeta again) := by
  unfold sendRecordsBatch
  split
  · exact .idle s
  · obtain ⟨marks, seat⟩ := dropBatchIfOpen_same env records.length s
    split
    · next s₁ outcome =>
      rw [outcome] at marks seat
      exact .after marks.adds seat (skipped_clean (s₁.rt.recordUnits records))
    · next s₁ outcome =>
      rw [outcome] at marks seat
      refine .after marks.adds seat ?_
      refine batch_clean env ctx (fun rt => rt.recordUnits records)
        (fun same => same.recordUnits records) (fun s => s.requeue again records batchMeta)
        (fun s => ⟨requeue_stats records batchMeta again s, ?_⟩) _ (stays.later seat)
      unfold requeue
      split <;> exact ⟨rfl, rfl, rfl, rfl, rfl⟩

theorem sendTextBatch_clean (texts : List String) {s : SinkState M}
    (stays : s.StaysOnBackend env ctx) : Clean s (s.sendTextBatch env ctx texts) := by
  unfold sendTextBatch
  split
  · exact .idle s
  · obtain ⟨marks, seat⟩ := dropBatchIfOpen_same env texts.length s
    split
    · next s₁ outcome =>
      rw [outcome] at marks seat
      exact .after marks.adds seat (skipped_clean (s₁.rt.blankUnits texts.length))
    · next s₁ outcome =>
      rw [outcome] at marks seat
      refine .after marks.adds seat ?_
      exact batch_clean env ctx (fun rt => rt.blankUnits texts.length)
        (fun same => same.blankUnits texts.length) id
        (fun s => ⟨rfl, .of_rt rfl⟩) _ (stays.later seat)

/-- What the buffer holds decides neither where a batch goes nor what is recorded of it. -/
theorem refilled (records : List DataRecord) (batchMeta : M) {s : SinkState M}
    (stays : s.StaysOnBackend env ctx) {send : SinkState M → SinkResult M Unit}
    (clean : ∀ {s : SinkState M}, s.StaysOnBackend env ctx → Clean s (send s)) :
    Clean s (send { s with rt := { s.rt with
      pendingRecords := records, pendingMeta := batchMeta } }) := by
  have seat : SameSeat s { s with rt := { s.rt with
      pendingRecords := records, pendingMeta := batchMeta } } :=
    ⟨rfl, rfl, rfl, .inl rfl, Nat.le_refl _⟩
  have same : SameStats s { s with rt := { s.rt with
      pendingRecords := records, pendingMeta := batchMeta } } := rfl
  exact .after same.adds seat (clean (stays.later seat))

theorem flushPendingBuffer_clean {s : SinkState M} (stays : s.StaysOnBackend env ctx) :
    Clean s (s.flushPendingBuffer env ctx) := by
  unfold flushPendingBuffer
  split
  · exact .idle s
  · exact refilled env ctx [] env.api.default stays
      (sendRecordsBatch_clean env ctx s.rt.pendingRecords s.rt.pendingMeta true)

theorem bufferSegment_clean (records : List DataRecord) (batchMeta : M) {s : SinkState M}
    (stays : s.StaysOnBackend env ctx) :
    Clean s (s.bufferSegment env ctx records batchMeta) := by
  unfold bufferSegment
  split
  · exact sendRecordsBatch_clean env ctx records batchMeta false stays
  · dsimp only
    split
    · exact refilled env ctx _ _ stays (flushPendingBuffer_clean env ctx)
    · exact refilled env ctx _ _ stays (fun {s} _ => .idle s)

variable [DecidableEq M]

theorem sendRecordSegment_clean (records : List DataRecord) (batchMeta : M) {s : SinkState M}
    (stays : s.StaysOnBackend env ctx) :
    Clean s (s.sendRecordSegment env ctx records batchMeta) := by
  unfold sendRecordSegment
  split
  · exact .idle s
  · split
    · have flushed := flushPendingBuffer_clean env ctx stays
      split
      · next outcome =>
        rw [outcome] at flushed
        exact ⟨flushed.1, by rintro ⟨⟩⟩
      · next s₁ outcome =>
        rw [outcome] at flushed
        have seat := flushed.2 rfl
        exact .after flushed.1 seat (bufferSegment_clean env ctx records batchMeta (stays.later seat))
    · exact bufferSegment_clean env ctx records batchMeta stays

theorem sendMixedMetaPackage_clean (package : SinkPackage) (records : List DataRecord)
    (batchMeta : M) {s : SinkState M} (stays : s.StaysOnBackend env ctx) :
    Clean s (s.sendMixedMetaPackage env ctx package records batchMeta) := by
  induction package generalizing records batchMeta s with
  | nil => exact sendRecordSegment_clean env ctx records batchMeta stays
  | cons unit rest ih =>
    rw [sendMixedMetaPackage]
    split
    · have sent := sendRecordSegment_clean env ctx records batchMeta stays
      split
      · next outcome =>
        rw [outcome] at sent
        exact ⟨sent.1, by rintro ⟨⟩⟩
      · next s₁ outcome =>
        rw [outcome] at sent
        have seat := sent.2 rfl
        exact .after sent.1 seat (ih [unit.data] _ (stays.later seat))
    · exact ih (records ++ [unit.data]) batchMeta stays

theorem sendPackageFrom_clean (package : SinkPackage) (records : List DataRecord)
    (segmentMeta : Option M) {s : SinkState M} (stays : s.StaysOnBackend env ctx) :
    Clean s (s.sendPackageFrom env ctx package records segmentMeta) := by
  induction package generalizing records segmentMeta with
  | nil => exact sendRecordSegment_clean env ctx records _ stays
  | cons unit rest ih =>
    cases segmentMeta with
    | none =>
      rw [sendPackageFrom]
      exact ih (records ++ [unit.data]) _
    | some batchMeta =>
      rw [sendPackageFrom]
      split
      · exact sendMixedMetaPackage_clean env ctx (unit :: rest) records batchMeta stays
      · exact ih (records ++ [unit.data]) (some batchMeta)

end Batch

end SinkState

/-- A call of a send, or of the maintenance that returns a backend. -/
inductive SinkOp where
  | send (op : DropOp)
  | recover (handle : ASinkHandle)
  deriving DecidableEq, Repr

/-- The channels of a call that sends its items as a batch. -/
def SinkOp.batchCtx : SinkOp → Option SendCtx
  | .send (.sendOne _ _) => none
  | .send (.sendPackage ctx _) => some ctx
  | .send (.sendStrPackage ctx _) => some ctx
  | .send (.sendFfvPackage ctx _) => some ctx
  | .send (.flush ctx) => some ctx
  | .recover _ => none

namespace SinkState
variable {M : Type} [DecidableEq M]

/-- A call with the answers it meets. -/
def sinkStep (s : SinkState M) (call : SinkEnv M × SinkOp) : SinkState M :=
  match call.2 with
  | .send op => s.dropStep call.1 op
  | .recover handle => (s.recoverSink call.1 handle).1

/-- The call sends no batch that fails on the backend and is sent again to the rescue file. -/
def BatchesStay (s : SinkState M) (call : SinkEnv M × SinkOp) : Prop :=
  ∀ ctx, call.2.batchCtx = some ctx → s.StaysOnBackend call.1 ctx

theorem sinkStep_adds (s : SinkState M) (call : SinkEnv M × SinkOp) (stays : s.BatchesStay call) :
    Adds s (s.sinkStep call) := by
  obtain ⟨env, op⟩ := call
  cases op with
  | recover handle => exact (recoverSink_stats env handle s).adds
  | send op =>
    cases op with
    | sendOne ctx data => exact sendToSink_adds env ctx data s
    | sendPackage ctx package =>
      have quiet := stays ctx rfl
      change Adds s (s.sendPackageToSink env ctx package).1
      unfold sendPackageToSink
      split
      · exact (Clean.idle s).1
      · exact (sendPackageFrom_clean env ctx package [] none quiet).1
    | sendStrPackage ctx package => exact (sendTextBatch_clean env ctx package (stays ctx rfl)).1
    | sendFfvPackage ctx package =>
      exact (sendTextBatch_clean env ctx (package.map (renderRaw env)) (stays ctx rfl)).1
    | flush ctx => exact (flushPendingBuffer_clean env ctx (stays ctx rfl)).1

/-- In a run none of whose batches moves to the rescue file after its start, no collector has more
    completions than starts, in any dimension and at any time. -/
theorem completions_never_exceed_starts (calls : List (SinkEnv M × SinkOp)) (s : SinkState M)
    (covered : s.Covered) (stays : Runs.AllSteps sinkStep BatchesStay s calls) :
    (Runs.run sinkStep s calls).Covered :=
  Runs.run_invariant_of_allSteps Covered
    (fun s call quiet before => (sinkStep_adds s call quiet).covers before) calls s covered stays

end SinkState

/-- A sink that breaks and moves to its rescue file on the single path, where batches follow. -/
theorem rescued_sink_stays_covered :
    (Runs.run SinkState.sinkStep (SinkState.start plainMetaApi fileSinkConf (.real 7))
      [(plainEnv (fun _ => true), .send (.sendOne ⟨true, true⟩ (.raw "a"))),
        (plainEnv (fun _ => true), .send (.sendPackage ⟨true, true⟩ [⟨1, .null, ⟨1, []⟩⟩]))]).Covered := by
  refine SinkState.completions_never_exceed_starts _ _ (fun key slot => Nat.le_refl _) ⟨?_, ?_, trivial⟩
  · rintro ctx ⟨⟩
  · intro ctx channels tick later retired which switches
    -- the sink is on its rescue file by now
    exact absurd switches.2.1 (by decide)

/-- The batch is started on the collector of the broken backend and completed on the other. -/
theorem moved_batch_is_completed_unstarted :
    let s := SinkState.sinkStep (SinkState.start plainMetaApi fileSinkConf (.real 7))
      (plainEnv (fun _ => true), .send (.sendPackage ⟨true, true⟩ [⟨1, .null, ⟨1, []⟩⟩]))
    s.counted .started .backup = 0 ∧ s.counted .finished .backup = 1 ∧ ¬ s.Covered := by
  refine ⟨by decide, by decide, ?_⟩
  intro covered
  exact absurd (covered (fun _ => true) .backup) (by decide)

section Collectors

/-- The call that one collector gets for an event; `keyOf` is how it files a record. -/
def StatEvent.call (name : String) (keyOf : DataRecord → DatKey) (event : StatEvent) : StatCall :=
  { ruleKey := name
    datKey := match event.unit with
      | .units _ => .unit
      | .target none => .unit
      | .target (some record) => keyOf record
    op := match event.mark, event.unit with
      | .started, .units count => .recordBeginN count
      | .started, .target _ => .recordBegin
      | .finished, .units count => .recordEndN count
      | .finished, .target _ => .recordEnd }

def slotCalls (name : String) (keyOf : DataRecord → DatKey) (slot : StatSlot)
    (events : List StatEvent) : List StatCall :=
  (events.filter (fun event => event.slot = slot)).map (StatEvent.call name keyOf)

/-- What one event adds to its collector. -/
def StatEvent.measure (event : StatEvent) : MeasureUnit :=
  match event.mark with
  | .started => ⟨event.unit.size, 0⟩
  | .finished => ⟨0, event.unit.size⟩

theorem StatEvent.call_counts (name : String) (keyOf : DataRecord → DatKey) (event : StatEvent) :
    (event.call name keyOf).op.counts = event.measure := by
  obtain ⟨mark, slot, unit⟩ := event
  cases mark <;> cases unit <;> rfl

/-- A call that leaves the collector alone has nothing to add. -/
theorem StatEvent.call_idle {name : String} {keyOf : DataRecord → DatKey} {event : StatEvent}
    (idle : (event.call name keyOf).op.touches = false) : event.measure = .new := by
  obtain ⟨mark, slot, unit⟩ := event
  cases unit with
  | target record => cases mark <;> cases idle
  | units count =>
    have none : count = 0 := by cases mark <;> simpa [StatEvent.call, StatOp.touches] using idle
    rw [none]
    cases mark <;> rfl

theorem tally_call (name : String) (keyOf : DataRecord → DatKey) (req : StatReq) (dim : StatDim)
    (event : StatEvent) (rest : List StatCall) :
    tally req dim (event.call name keyOf :: rest) =
      if (event.call name keyOf).dim req == dim then event.measure.add (tally req dim rest)
      else tally req dim rest := by
  rw [tally, event.call_counts]
  cases touching : (event.call name keyOf).op.touches with
  | true => rw [Bool.true_and]
  | false =>
    rw [StatEvent.call_idle touching, MeasureUnit.new_add]
    simp only [Bool.false_and, Bool.false_eq_true, ite_self]

theorem marked_cons (event : StatEvent) (slot : StatSlot) (rest : List StatEvent) :
    (⟨SinkState.marked .started slot (event :: rest), SinkState.marked .finished slot (event :: rest)⟩ :
        MeasureUnit) =
      if event.slot = slot then
        event.measure.add ⟨SinkState.marked .started slot rest, SinkState.marked .finished slot rest⟩
      else ⟨SinkState.marked .started slot rest, SinkState.marked .finished slot rest⟩ := by
  obtain ⟨mark, own, unit⟩ := event
  by_cases same : own = slot
  · rw [if_pos same]
    cases mark <;> simp [SinkState.marked, StatEvent.measure, MeasureUnit.add, same]
  · rw [if_neg same]
    simp [SinkState.marked, same]

/-- A collector tallies what the history records of its slot in the units of the dimension. -/
theorem tally_slotCalls (name : String) (keyOf : DataRecord → DatKey) (req : StatReq)
    (dim : StatDim) (slot : StatSlot) (events : List StatEvent) :
    tally req dim (slotCalls name keyOf slot events) =
      ⟨SinkState.marked .started slot (events.filter (fun event =>
          (StatEvent.call name keyOf event).dim req == dim)),
        SinkState.marked .finished slot (events.filter (fun event =>
          (StatEvent.call name keyOf event).dim req == dim))⟩ := by
  induction events with
  | nil => rfl
  | cons event rest ih =>
    have next : slotCalls name keyOf slot (event :: rest) =
        if event.slot = slot then event.call name keyOf :: slotCalls name keyOf slot rest
        else slotCalls name keyOf slot rest := by
      unfold slotCalls
      by_cases same : event.slot = slot <;> simp [same]
    rw [next, List.filter_cons]
    by_cases about : ((event.call name keyOf).dim req == dim) = true
    · rw [if_pos about, marked_cons]
      by_cases same : event.slot = slot
      · rw [if_pos same, if_pos same, tally_call, if_pos about, ih]
      · rw [if_neg same, if_neg same, ih]
    · rw [if_neg about]
      by_cases same : event.slot = slot
      · rw [if_pos same, tally_call, if_neg about, ih]
      · rw [if_neg same, ih]

/-- The success rate of a dimension stays within its calls, on either collector and however records
    are filed. -/
theorem SinkState.Covered.rate {M : Type} {s : SinkState M} (covered : s.Covered) (name : String)
    (keyOf : DataRecord → DatKey) (req : StatReq) (dim : StatDim) (slot : StatSlot) :
    (tally req dim (slotCalls name keyOf slot s.stats)).success ≤
      (tally req dim (slotCalls name keyOf slot s.stats)).total := by
  rw [tally_slotCalls]
  -- the dimension of a call is that of its unit
  exact covered (fun unit => (StatEvent.call name keyOf ⟨.started, slot, unit⟩).dim req == dim) slot

end Collectors

end WarpMotor
