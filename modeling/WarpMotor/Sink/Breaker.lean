import WarpMotor.Sink.Drop
import WarpMotor.Sink.Fill

/-!
The timing of the breaker of a sink in drop mode. Its state is a function of
the calls made so far: the number of failures since the last accepted call
decides the cool-down, and no call is made before the cool-down of the last
failure has passed. Once it has passed, every operation that hands a batch to
the gate reaches the backend.
-/
namespace WarpMotor

/-- How many calls have failed since the last accepted one. -/
def failureStreak {M : Type} (calls : List (SinkCall M)) : Nat :=
  calls.foldl (fun streak call => if call.accepted then 0 else streak + 1) 0

/-- The cool-down after so many failures in a row: five seconds, doubled by each further failure,
    sixty seconds at most. -/
def cooldown (failures : Nat) : Nat := min (healthBackoffBase * 2 ^ (failures - 1)) healthBackoffMax

theorem failureStreak_append {M : Type} (calls : List (SinkCall M)) (call : SinkCall M) :
    failureStreak (calls ++ [call]) = if call.accepted then 0 else failureStreak calls + 1 := by
  simp only [failureStreak, List.foldl_append, List.foldl_cons, List.foldl_nil]

theorem cooldown_zero : cooldown 0 = healthBackoffBase := by decide

theorem cooldown_one : cooldown 1 = healthBackoffBase := by decide

theorem cooldown_le (failures : Nat) : cooldown failures ≤ healthBackoffMax := Nat.min_le_right _ _

theorem cooldown_double (failures : Nat) (failed : 0 < failures) :
    cooldown (failures + 1) = min (cooldown failures * 2) healthBackoffMax := by
  have doubled : 2 ^ (failures + 1 - 1) = 2 ^ (failures - 1) * 2 := by
    rw [← Nat.pow_succ]
    congr 1
    omega
  simp only [cooldown, doubled, healthBackoffBase, healthBackoffMax]
  omega

/-- The health of a breaker that has seen `streak` failures in a row. -/
structure SinkHealth.After (health : SinkHealth) (streak : Nat) : Prop where
  failures : health.failures = min streak u32Max
  backoff : health.backoff = cooldown streak
  closed : streak = 0 → health.retryAt = none

theorem SinkHealth.After.new : SinkHealth.new.After 0 :=
  ⟨by decide, by decide, fun _ => rfl⟩

theorem SinkHealth.After.eq_new {health : SinkHealth} (after : health.After 0) :
    health = SinkHealth.new := by
  have failures := after.failures
  have backoff := after.backoff
  have retryAt := after.closed rfl
  cases health
  simp only [cooldown_zero, Nat.zero_min] at failures backoff retryAt
  subst failures backoff retryAt
  rfl

theorem SinkHealth.After.onFailure {health : SinkHealth} {streak : Nat}
    (after : health.After streak) (now : Nat) :
    (health.onFailure now).After (streak + 1) ∧
      (health.onFailure now).retryAt = some (now + cooldown (streak + 1)) := by
  have backoff : (health.onFailure now).backoff = cooldown (streak + 1) := by
    simp only [SinkHealth.onFailure, after.failures, after.backoff]
    have positive : 1 < u32Max := by decide
    by_cases first : streak = 0
    · rw [first, if_neg (by omega), cooldown_zero, cooldown_one]
    · rw [if_pos (by omega), cooldown_double streak (by omega)]
  refine ⟨⟨?_, backoff, ?_⟩, ?_⟩
  · simp only [SinkHealth.onFailure, after.failures]
    omega
  · intro none_failed
    omega
  · rw [← backoff]
    rfl

/-- The call after a failed one waits for the cool-down of its streak. -/
def SpacedCalls {M : Type} (calls : List (SinkCall M)) : Prop :=
  ∀ earlier last next later, calls = earlier ++ last :: next :: later → last.accepted = false →
    last.time + cooldown (failureStreak (earlier ++ [last])) ≤ next.time

theorem SpacedCalls.append {M : Type} {calls : List (SinkCall M)} {call : SinkCall M}
    (spaced : SpacedCalls calls)
    (waited : ∀ earlier last, calls = earlier ++ [last] → last.accepted = false →
      last.time + cooldown (failureStreak calls) ≤ call.time) : SpacedCalls (calls ++ [call]) := by
  intro earlier last next later split failed
  rcases List.eq_nil_or_concat later with none_later | ⟨middle, final, rfl⟩
  · subst none_later
    have ends : calls ++ [call] = (earlier ++ [last]) ++ [next] := by simp [split]
    obtain ⟨before, same⟩ := List.append_inj' ends rfl
    cases same
    have waits := waited earlier last before failed
    rw [before] at waits
    exact waits
  · have ends : calls ++ [call] = (earlier ++ last :: next :: middle) ++ [final] := by simp [split]
    exact spaced earlier last next middle (List.append_inj' ends rfl).1 failed

namespace SinkState
variable {M : Type}

/-- The breaker follows the calls, and the last failure is still waited for. -/
structure Paced (s : SinkState M) : Prop where
  dropping : s.Dropping
  live : s.rt.backupUsed = false
  health : s.rt.health.After (failureStreak s.calls)
  waits : ∀ earlier last, s.calls = earlier ++ [last] → last.accepted = false →
    ∃ retryAt, s.rt.health.retryAt = some retryAt ∧
      last.time + cooldown (failureStreak s.calls) ≤ retryAt
  spaced : SpacedCalls s.calls

/-- The gate has not been passed, and its state is the same at a later tick. -/
structure SameGate (s s' : SinkState M) : Prop where
  calls : s'.calls = s.calls
  health : s'.rt.health = s.rt.health
  drops : s'.rt.dropWhenError = s.rt.dropWhenError
  live : s'.rt.backupUsed = s.rt.backupUsed
  tick : s.tick ≤ s'.tick

theorem SameGate.paced {s s' : SinkState M} (same : SameGate s s') (paced : s.Paced) :
    s'.Paced := by
  have quiet := paced.dropping.quiet
  have health := paced.health
  have waits := paced.waits
  have spaced := paced.spaced
  rw [← same.calls] at quiet health waits spaced
  rw [← same.health] at health waits
  exact ⟨⟨same.drops.trans paced.dropping.drops, quiet⟩, same.live.trans paced.live, health, waits,
    spaced⟩

theorem SameGate.trans {s₁ s₂ s₃ : SinkState M} (first : SameGate s₁ s₂)
    (second : SameGate s₂ s₃) : SameGate s₁ s₃ :=
  ⟨second.calls.trans first.calls, second.health.trans first.health,
    second.drops.trans first.drops, second.live.trans first.live,
    Nat.le_trans first.tick second.tick⟩

/-- The next call came after the cool-down that the breaker has kept. -/
theorem Paced.spaced_append {s : SinkState M} (paced : s.Paced) {call : SinkCall M}
    (state : call.retryAt = s.rt.health.retryAt) (closed : call.BreakerClosed) :
    SpacedCalls (s.calls ++ [call]) := by
  apply paced.spaced.append
  intro earlier last split failed
  obtain ⟨retryAt, waiting, waited⟩ := paced.waits earlier last split failed
  have passed := closed retryAt (state.trans waiting)
  omega

section Env
variable (env : SinkEnv M)

theorem SameGate.admitted {s s' : SinkState M} (same : SameGate s s') (admitted : Admitted env s) :
    Admitted env s' := by
  intro retryAt waiting open_
  rw [same.health] at waiting
  have later := env.now_mono same.tick
  exact admitted retryAt waiting (by omega)

/-- What one attempt leaves: a new call, and the health that its answer asks for. -/
theorem callPrimary_appends {s s' : SinkState M} {payload : SinkPayload M}
    {result : Except SinkError Unit} (answer : s.callPrimary env payload = (s', result)) :
    ∃ call : SinkCall M, s'.calls = s.calls ++ [call] ∧ s'.rt = s.rt ∧ s'.tick = s.tick + 1 ∧
      call.time = env.now s.tick ∧ call.retryAt = s.rt.health.retryAt ∧
      call.accepted = result.isOk := by
  unfold callPrimary at answer
  obtain ⟨rfl, rfl⟩ := Prod.mk.inj answer
  exact ⟨_, rfl, rfl, rfl, rfl, rfl, rfl⟩

theorem Paced.quiet_append {s : SinkState M} (paced : s.Paced) {call : SinkCall M}
    (closed : call.BreakerClosed) : ∀ made ∈ s.calls ++ [call], made.BreakerClosed := by
  intro made member
  rcases List.mem_append.mp member with before | new
  · exact paced.dropping.quiet made before
  · rw [List.mem_singleton.mp new]
    exact closed

theorem admitted_call {s : SinkState M} (admitted : Admitted env s) {call : SinkCall M}
    (time : call.time = env.now s.tick) (state : call.retryAt = s.rt.health.retryAt) :
    call.BreakerClosed := by
  intro retryAt waiting
  rw [state] at waiting
  rw [time]
  exact admitted retryAt waiting

/-- An accepted call resets the breaker. -/
theorem Paced.taken {s s₁ s' : SinkState M} (paced : s.Paced) (admitted : Admitted env s)
    {payload : SinkPayload M} (answer : s.callPrimary env payload = (s₁, .ok ()))
    (calls : s'.calls = s₁.calls) (health : s'.rt.health = SinkHealth.new)
    (drops : s'.rt.dropWhenError = s₁.rt.dropWhenError)
    (live : s'.rt.backupUsed = s₁.rt.backupUsed) : s'.Paced := by
  obtain ⟨call, appended, rt, -, time, state, accepted⟩ := callPrimary_appends env answer
  have closed := admitted_call env admitted time state
  have streak : failureStreak s'.calls = 0 := by
    rw [calls, appended, failureStreak_append, accepted]
    rfl
  refine ⟨⟨?_, ?_⟩, ?_, ?_, ?_, ?_⟩
  · rw [drops, rt]
    exact paced.dropping.drops
  · rw [calls, appended]
    exact paced.quiet_append closed
  · rw [live, rt]
    exact paced.live
  · rw [streak, health]
    exact SinkHealth.After.new
  · intro earlier last split failed
    rw [calls, appended] at split
    cases (List.append_inj' split rfl).2
    rw [accepted] at failed
    cases failed
  · rw [calls, appended]
    exact paced.spaced_append state closed

/-- A failed call lengthens the streak and closes the gate for its cool-down. -/
theorem Paced.refused {s s₁ s' : SinkState M} (paced : s.Paced) (admitted : Admitted env s)
    {payload : SinkPayload M} {e : SinkError} {failedAt : Nat}
    (answer : s.callPrimary env payload = (s₁, .error e)) (calls : s'.calls = s₁.calls)
    (later : env.now s.tick ≤ failedAt)
    (health : s'.rt.health = s₁.rt.health.onFailure failedAt)
    (drops : s'.rt.dropWhenError = s₁.rt.dropWhenError)
    (live : s'.rt.backupUsed = s₁.rt.backupUsed) : s'.Paced := by
  obtain ⟨call, appended, rt, -, time, state, accepted⟩ := callPrimary_appends env answer
  have closed := admitted_call env admitted time state
  have streak : failureStreak s'.calls = failureStreak s.calls + 1 := by
    rw [calls, appended, failureStreak_append, accepted]
    rfl
  rw [rt] at health drops live
  obtain ⟨after, retryAt⟩ := paced.health.onFailure failedAt
  rw [← health] at after retryAt
  refine ⟨⟨drops.trans paced.dropping.drops, ?_⟩, live.trans paced.live, ?_, ?_, ?_⟩
  · rw [calls, appended]
    exact paced.quiet_append closed
  · rw [streak]
    exact after
  · intro earlier last split failed
    rw [calls, appended] at split
    cases (List.append_inj' split rfl).2
    refine ⟨_, retryAt, ?_⟩
    rw [streak]
    omega
  · rw [calls, appended]
    exact paced.spaced_append state closed

/-- What an operation does at the gate: with `hands` it hands a batch over, and reaches the backend
    if the breaker is closed; without it the gate is left alone. -/
structure Tried (s s' : SinkState M) (hands : Prop) : Prop where
  paced : s'.Paced
  grows : s.calls.length ≤ s'.calls.length
  reaches : hands → Admitted env s → s.calls.length < s'.calls.length
  idle : ¬ hands → SameGate s s'

variable {env}

theorem SameGate.tried {s s' : SinkState M} (same : SameGate s s') (paced : s.Paced) :
    Tried env s s' False := by
  refine ⟨same.paced paced, ?_, fun hands => hands.elim, fun _ => same⟩
  rw [same.calls]

theorem Tried.congr {s s' : SinkState M} {p q : Prop} (tried : Tried env s s' p) (same : q ↔ p) :
    Tried env s s' q :=
  ⟨tried.paced, tried.grows, fun hands => tried.reaches (same.mp hands),
    fun idle => tried.idle (fun hands => idle (same.mpr hands))⟩

theorem Tried.trans {s₁ s₂ s₃ : SinkState M} {p q : Prop} (first : Tried env s₁ s₂ p)
    (second : Tried env s₂ s₃ q) : Tried env s₁ s₃ (p ∨ q) := by
  refine ⟨second.paced, Nat.le_trans first.grows second.grows, ?_, ?_⟩
  · intro hands admitted
    have grown := first.grows
    have grown' := second.grows
    by_cases early : p
    · have reached := first.reaches early admitted
      omega
    · have admitted₂ := (first.idle early).admitted env admitted
      have reached := second.reaches (hands.resolve_left early) admitted₂
      omega
  · intro idle
    exact (first.idle (fun early => idle (.inl early))).trans
      (second.idle (fun late => idle (.inr late)))

/-- Work that the gate does not see, before and after. -/
theorem Tried.frame {s₁ s₂ s₃ s₄ : SinkState M} {p : Prop} (before : SameGate s₁ s₂)
    (tried : Tried env s₂ s₃ p) (after : SameGate s₃ s₄) (paced : s₁.Paced) :
    Tried env s₁ s₄ p := by
  have whole := ((before.tried paced).trans tried).trans (after.tried tried.paced)
  apply whole.congr
  simp only [false_or, or_false]

variable (env)

/-- A statistics step does not touch the gate. -/
structure StatGate (f : SinkState M → SinkState M) : Prop extends StatQuiet f where
  tick : ∀ s, (f s).tick = s.tick

theorem StatGate.same {f : SinkState M → SinkState M} (gate : StatGate f) (s : SinkState M) :
    SameGate s (f s) := by
  have rt := gate.rt s
  exact ⟨gate.calls s, by rw [rt], by rw [rt], by rw [rt], Nat.le_of_eq (gate.tick s).symm⟩

theorem recordSendSuccess_fields (s : SinkState M) :
    s.recordSendSuccess.calls = s.calls ∧ s.recordSendSuccess.rt.health = SinkHealth.new ∧
      s.recordSendSuccess.rt.dropWhenError = s.rt.dropWhenError ∧
      s.recordSendSuccess.rt.backupUsed = s.rt.backupUsed := by
  unfold recordSendSuccess
  dsimp only
  split <;> exact ⟨rfl, rfl, rfl, rfl⟩

theorem grown_of_append {s s₁ s' : SinkState M} {payload : SinkPayload M}
    {result : Except SinkError Unit} (answer : s.callPrimary env payload = (s₁, result))
    (calls : s'.calls = s₁.calls) : s.calls.length < s'.calls.length := by
  obtain ⟨call, appended, -⟩ := callPrimary_appends env answer
  rw [calls, appended, List.length_append, List.length_singleton]
  omega

/-- The loop of the batch senders behind a closed breaker. -/
theorem sendLoop_reaches (ctx : SendCtx) (payload : SinkPayload M)
    {statDone : SinkState M → SinkState M} (onThrow : SinkState M → SinkState M)
    (gate : StatGate statDone) (budget : Nat) {s : SinkState M} (paced : s.Paced)
    (admitted : Admitted env s) :
    (s.sendLoop env ctx payload statDone onThrow (budget + 1)).1.Paced ∧
      s.calls.length <
        (s.sendLoop env ctx payload statDone onThrow (budget + 1)).1.calls.length := by
  unfold sendLoop
  cases answer : s.callPrimary env payload with
  | mk s₁ result =>
    obtain ⟨call, -, rt, tick, -⟩ := callPrimary_appends env answer
    cases result with
    | ok _ =>
      obtain ⟨calls, health, drops, live⟩ := recordSendSuccess_fields (statDone s₁)
      rw [gate.calls] at calls
      rw [gate.rt] at drops live
      exact ⟨paced.taken env admitted answer calls health drops live,
        grown_of_append env answer calls⟩
    | error e =>
      have drops₁ : s₁.rt.dropWhenError = true := by rw [rt, paced.dropping.drops]
      obtain ⟨rt₂, calls₂⟩ := recordFailedDrop_keeps (s₁.healthFailure env) payload.size
      have later : env.now s.tick ≤ env.now s₁.tick := env.now_mono (by omega)
      have ended := gate.same ((s₁.healthFailure env).recordFailedDrop payload.size)
      simp only [handleSendError, drops₁, if_true]
      have calls := ended.calls.trans calls₂
      refine ⟨?_, grown_of_append env answer calls⟩
      apply paced.refused env admitted answer calls later
      · rw [ended.health, rt₂]
        rfl
      · rw [ended.drops, rt₂]
        rfl
      · rw [ended.live, rt₂]
        rfl

/-- Waiting for the answer of the breaker, and counting what it turns away. -/
theorem skipped_gate {s s' : SinkState M} (count : Nat)
    (asked : s.shouldSkipSend env = (s', true)) : SameGate s (s'.recordSkippedDrop count) := by
  obtain ⟨rt, calls⟩ := recordSkippedDrop_keeps s' count
  have tick : (s'.recordSkippedDrop count).tick = s'.tick := by
    unfold recordSkippedDrop
    split <;> rfl
  unfold shouldSkipSend at asked
  split at asked
  · obtain ⟨rfl, -⟩ := Prod.mk.inj asked
    exact ⟨calls, by rw [rt], by rw [rt], by rw [rt], by rw [tick]; exact Nat.le_succ s.tick⟩
  · cases asked

theorem not_admitted_of_skip {s s' : SinkState M} (asked : s.shouldSkipSend env = (s', true)) :
    ¬ Admitted env s := by
  intro admitted
  unfold shouldSkipSend at asked
  split at asked
  · have open_ := (Prod.mk.inj asked).2
    unfold SinkHealth.isOpen at open_
    split at open_
    · rename_i retryAt waiting
      exact admitted retryAt waiting (of_decide_eq_true open_)
    · cases open_
  · cases asked

theorem asked_gate (s : SinkState M) : SameGate s { s with tick := s.tick + 1 } :=
  ⟨rfl, rfl, rfl, rfl, Nat.le_succ s.tick⟩

theorem guardedBatch_tried (ctx : SendCtx) (payload : SinkPayload M)
    (statBegin statDone onThrow : SinkState M → SinkState M) (beginGate : StatGate statBegin)
    (doneGate : StatGate statDone) {s : SinkState M} (paced : s.Paced) :
    Tried env s (match s.dropBatchIfOpen env payload.size with
      | (s, true) => (statDone (statBegin s), .ok ())
      | (s, false) =>
        (statBegin s).sendLoop env ctx payload statDone onThrow 2 : SinkResult M Unit).1 True := by
  unfold dropBatchIfOpen
  cases asked : s.shouldSkipSend env with
  | mk s₁ skipped =>
    cases skipped with
    | true =>
      have counted := skipped_gate env payload.size asked
      have same := (counted.trans (beginGate.same _)).trans (doneGate.same _)
      refine ⟨same.paced paced, Nat.le_of_eq (congrArg List.length same.calls.symm), ?_,
        fun idle => (idle trivial).elim⟩
      intro _ admitted
      exact absurd admitted (not_admitted_of_skip env asked)
    | false =>
      obtain ⟨rfl, admitted⟩ := shouldSkipSend_admits env paced.dropping.drops asked
      have begun := beginGate.same { s with tick := s.tick + 1 }
      have same := (asked_gate s).trans begun
      obtain ⟨paced', grown⟩ := sendLoop_reaches env ctx payload onThrow doneGate 1
        (same.paced paced) (begun.admitted env admitted)
      rw [same.calls] at grown
      exact ⟨paced', Nat.le_of_lt grown, fun _ _ => grown, fun idle => (idle trivial).elim⟩

theorem sendRecordsBatch_tried (ctx : SendCtx) (records : List DataRecord) (batchMeta : M)
    (requeue : Bool) {s : SinkState M} (paced : s.Paced) :
    Tried env s (s.sendRecordsBatch env ctx records batchMeta requeue).1 (records ≠ []) := by
  unfold sendRecordsBatch
  split
  · rename_i empty
    rw [List.isEmpty_iff] at empty
    have same : SameGate s s := ⟨rfl, rfl, rfl, rfl, Nat.le_refl _⟩
    exact (same.tried paced).congr (by simp [empty])
  · rename_i some_record
    rw [List.isEmpty_iff] at some_record
    have tried := guardedBatch_tried env ctx (recordsPayload env records batchMeta)
      (statBegRecordsBatch records) (statEndRecordsBatch records)
      (fun s => (s.requeue requeue records batchMeta).statEndRecordsBatch records)
      ⟨⟨⟨fun _ => rfl, fun _ => rfl⟩, fun _ => rfl⟩, fun _ => rfl⟩
      ⟨⟨⟨fun _ => rfl, fun _ => rfl⟩, fun _ => rfl⟩, fun _ => rfl⟩ paced
    exact tried.congr (by simp [some_record])

theorem sendTextBatch_tried (ctx : SendCtx) (texts : List String) {s : SinkState M}
    (paced : s.Paced) : Tried env s (s.sendTextBatch env ctx texts).1 (texts ≠ []) := by
  unfold sendTextBatch
  split
  · rename_i empty
    rw [List.isEmpty_iff] at empty
    have same : SameGate s s := ⟨rfl, rfl, rfl, rfl, Nat.le_refl _⟩
    exact (same.tried paced).congr (by simp [empty])
  · rename_i some_text
    rw [List.isEmpty_iff] at some_text
    have tried := guardedBatch_tried env ctx (.strBatch texts) (packageStatsBegin texts.length)
      (packageStatsEnd texts.length) (packageStatsEnd texts.length)
      ⟨⟨⟨fun _ => rfl, fun _ => rfl⟩, fun _ => rfl⟩, fun _ => rfl⟩
      ⟨⟨⟨fun _ => rfl, fun _ => rfl⟩, fun _ => rfl⟩, fun _ => rfl⟩ paced
    exact tried.congr (by simp [some_text])

theorem flushPendingBuffer_tried (ctx : SendCtx) {s : SinkState M} (paced : s.Paced) :
    Tried env s (s.flushPendingBuffer env ctx).1 (s.rt.pendingRecords ≠ []) := by
  unfold flushPendingBuffer
  split
  · rename_i empty
    rw [List.isEmpty_iff] at empty
    have same : SameGate s s := ⟨rfl, rfl, rfl, rfl, Nat.le_refl _⟩
    exact (same.tried paced).congr (by simp [empty])
  · have taken : SameGate s { s with rt := { s.rt with
        pendingRecords := [], pendingMeta := env.api.default } } :=
      ⟨rfl, rfl, rfl, rfl, Nat.le_refl _⟩
    have tried := (taken.tried paced).trans (sendRecordsBatch_tried env ctx s.rt.pendingRecords
      s.rt.pendingMeta true (taken.paced paced))
    exact tried.congr (by rw [false_or])

theorem bufferSegment_tried (ctx : SendCtx) (records : List DataRecord) (batchMeta : M)
    (some_record : records ≠ []) {s : SinkState M} (paced : s.Paced) :
    Tried env s (s.bufferSegment env ctx records batchMeta).1
      (s.rt.batchSize ≤ s.rt.pendingRecords.length + records.length) := by
  unfold bufferSegment
  split
  · rename_i bypass
    simp only [Bool.and_eq_true, List.isEmpty_iff, decide_eq_true_eq] at bypass
    apply (sendRecordsBatch_tried env ctx records batchMeta false paced).congr
    simp only [some_record, ne_eq, not_false_eq_true, iff_true]
    omega
  · dsimp only
    have extended : ∀ keep, SameGate s { s with rt := { s.rt with
        pendingMeta := keep, pendingRecords := s.rt.pendingRecords ++ records } } :=
      fun _ => ⟨rfl, rfl, rfl, rfl, Nat.le_refl _⟩
    rw [List.length_append]
    split
    · rename_i full
      have same := extended (if s.rt.pendingRecords.isEmpty then batchMeta else s.rt.pendingMeta)
      apply ((same.tried paced).trans
        (flushPendingBuffer_tried env ctx (same.paced paced))).congr
      simp [full, some_record]
    · rename_i space
      apply ((extended _).tried paced).congr
      simp only [space]

/-- A single item is handed over at once, whatever the buffer holds. -/
theorem sendOneLoop_tried (ctx : SendCtx) (data : SinkDataEnum) (budget : Nat) {s : SinkState M}
    (paced : s.Paced) : Tried env s (s.sendOneLoop env ctx data (budget + 1)).1 True := by
  have beginGate : StatGate (statBeg (M := M) data) :=
    ⟨⟨⟨fun _ => rfl, fun _ => rfl⟩, fun _ => rfl⟩, fun _ => rfl⟩
  have endGate : StatGate (statEnd (M := M) data) :=
    ⟨⟨⟨fun _ => rfl, fun _ => rfl⟩, fun _ => rfl⟩, fun _ => rfl⟩
  unfold sendOneLoop
  cases asked : s.shouldSkipSend env with
  | mk s₁ skipped =>
    cases skipped with
    | true =>
      have counted := skipped_gate env 1 asked
      have same := (counted.trans (beginGate.same _)).trans (endGate.same _)
      refine ⟨same.paced paced, Nat.le_of_eq (congrArg List.length same.calls.symm), ?_,
        fun idle => (idle trivial).elim⟩
      intro _ admitted
      exact absurd admitted (not_admitted_of_skip env asked)
    | false =>
      obtain ⟨rfl, admitted₀⟩ := shouldSkipSend_admits env paced.dropping.drops asked
      have begun := beginGate.same { s with tick := s.tick + 1 }
      have same := (asked_gate s).trans begun
      have admitted := begun.admitted env admitted₀
      have paced₁ := same.paced paced
      dsimp only
      cases answer : ({ s with tick := s.tick + 1 }.statBeg data).callPrimary env
        (dataPayload env data) with
      | mk s₂ result =>
        obtain ⟨call, -, rt, tick, -⟩ := callPrimary_appends env answer
        cases result with
        | ok _ =>
          obtain ⟨calls, health, drops, live⟩ := recordSendSuccess_fields s₂
          have ended := endGate.same s₂.recordSendSuccess
          have grown := grown_of_append env answer (ended.calls.trans calls)
          have paced₂ := ended.paced (paced₁.taken env admitted answer calls health drops live)
          rw [same.calls] at grown
          exact ⟨paced₂, Nat.le_of_lt grown, fun _ _ => grown, fun idle => (idle trivial).elim⟩
        | error e =>
          have drops₂ : s₂.rt.dropWhenError = true := by rw [rt, paced₁.dropping.drops]
          obtain ⟨rt₃, calls₃⟩ := recordFailedDrop_keeps (s₂.healthFailure env) 1
          have later : env.now (s.tick + 1) ≤ env.now s₂.tick :=
            env.now_mono (Nat.le_of_lt (Nat.lt_of_lt_of_eq (Nat.lt_succ_self _) tick.symm))
          have ended := endGate.same ((s₂.healthFailure env).recordFailedDrop 1)
          have grown := grown_of_append env answer (ended.calls.trans calls₃)
          rw [same.calls] at grown
          dsimp only
          rw [if_pos drops₂]
          refine ⟨?_, Nat.le_of_lt grown, fun _ _ => grown, fun idle => (idle trivial).elim⟩
          apply ended.paced
          apply paced₁.refused env admitted answer calls₃ later
          all_goals
            rw [rt₃]
            rfl

theorem sendStatTo_gate (mon : Bool) (s : SinkState M) :
    SameGate s (s.sendStatTo env mon).1 := by
  have rt := sendStatTo_rt env mon s
  have calls := (sendStatTo_accounts env mon s).calls
  refine ⟨calls, by rw [rt], by rw [rt], by rw [rt], ?_⟩
  unfold sendStatTo sendStat
  split
  · split
    · exact Nat.le_succ s.tick
    · split <;> simp
  · exact Nat.le_refl s.tick

theorem sendToSink_tried (ctx : SendCtx) (data : SinkDataEnum) {s : SinkState M}
    (paced : s.Paced) : Tried env s (s.sendToSink env ctx data).1 True := by
  have sent := sendOneLoop_tried env ctx data 1 paced
  unfold sendToSink
  cases outcome : s.sendOneLoop env ctx data 2 with
  | mk s₁ result =>
    rw [outcome] at sent
    cases result with
    | error e => exact sent
    | ok _ =>
      have reported := sendStatTo_gate env ctx.mon s₁
      exact (sent.trans (reported.tried sent.paced)).congr (by simp)

variable [DecidableEq M]

theorem sendRecordSegment_tried (ctx : SendCtx) (records : List DataRecord) (batchMeta : M)
    (some_record : records ≠ []) {s : SinkState M} (paced : s.Paced) :
    Tried env s (s.sendRecordSegment env ctx records batchMeta).1
      ¬ (s.Fits batchMeta ∧ s.rt.pendingRecords.length + records.length < s.rt.batchSize) := by
  unfold sendRecordSegment
  rw [if_neg (by simpa using some_record)]
  split
  · rename_i other
    -- the buffer holds another meta and is handed over before the segment is taken
    simp only [Bool.and_eq_true, Bool.not_eq_true', List.isEmpty_eq_false_iff,
      decide_eq_true_eq] at other
    have misfit : ¬ s.Fits batchMeta := fun fits => fits.elim other.1 other.2
    have flushed := flushPendingBuffer_tried env ctx paced
    have ended := (flushPendingBuffer_accounts env ctx paced.dropping).ok
    cases outcome : s.flushPendingBuffer env ctx with
    | mk s₁ result =>
      rw [outcome] at flushed ended
      cases ended
      apply (flushed.trans
        (bufferSegment_tried env ctx records batchMeta some_record flushed.paced)).congr
      simp [misfit, other.1]
  · rename_i same
    have fits : s.Fits batchMeta := fits_of_no_flush same
    apply (bufferSegment_tried env ctx records batchMeta some_record paced).congr
    simp only [fits, true_and, Nat.not_lt]

/-- A segment with room is only appended to the buffer. -/
theorem sendRecordSegment_room (ctx : SendCtx) {records : List DataRecord} {batchMeta : M}
    {s : SinkState M} (fits : s.Fits batchMeta)
    (room : s.rt.pendingRecords.length + records.length < s.rt.batchSize)
    (some_record : records ≠ []) :
    s.sendRecordSegment env ctx records batchMeta =
      ({ s with rt := { s.rt with
          pendingMeta := batchMeta, pendingRecords := s.rt.pendingRecords ++ records } },
        .ok ()) := by
  have no_flush :
      ¬ (!s.rt.pendingRecords.isEmpty && decide (s.rt.pendingMeta ≠ batchMeta)) = true := by
    rcases fits with empty | same
    · simp [empty]
    · simp [same]
  have no_bypass :
      ¬ (s.rt.pendingRecords.isEmpty && decide (s.rt.batchSize ≤ records.length)) = true := by
    simp only [Bool.and_eq_true, decide_eq_true_eq, not_and]
    omega
  unfold sendRecordSegment
  rw [if_neg (by simpa using some_record), if_neg no_flush, bufferSegment, if_neg no_bypass]
  simp only [fits.keep]
  rw [if_neg (by rw [List.length_append]; omega)]

/-- The package and the records before it join the buffer without filling it. -/
def Room (package : SinkPackage) (records : List DataRecord) (batchMeta : M) (s : SinkState M) :
    Prop :=
  (s.Fits batchMeta ∧ ∀ unitMeta ∈ unitMetas env s package, unitMeta = batchMeta) ∧
    s.rt.pendingRecords.length + records.length + package.length < s.rt.batchSize

theorem room_nil (records : List DataRecord) (batchMeta : M) (s : SinkState M) :
    s.Room env [] records batchMeta ↔
      s.Fits batchMeta ∧ s.rt.pendingRecords.length + records.length < s.rt.batchSize := by
  simp [Room, unitMetas]

theorem room_cons (unit : SinkRecUnit) (rest : SinkPackage) (records : List DataRecord)
    (batchMeta : M) (s : SinkState M) :
    s.Room env (unit :: rest) records batchMeta ↔
      batchMeta = SinkRuntime.unitBatchMeta env.api s.rt.outputDisabled unit.procMeta ∧
        s.Room env rest (records ++ [unit.data]) batchMeta := by
  simp only [Room, unitMetas, List.map_cons, List.forall_mem_cons, List.length_append,
    List.length_cons, List.length_nil]
  constructor
  · rintro ⟨⟨fits, same, all⟩, room⟩
    exact ⟨same.symm, ⟨fits, all⟩, by omega⟩
  · rintro ⟨same, ⟨fits, all⟩, room⟩
    exact ⟨⟨fits, same.symm, all⟩, by omega⟩

/-- Induction on the units left. At a change of meta the open segment goes first; what it leaves in
    the buffer does not fit the next one. -/
theorem sendMixedMetaPackage_tried (ctx : SendCtx) (package : SinkPackage)
    (records : List DataRecord) (batchMeta : M) (some_record : records ≠ []) {s : SinkState M}
    (paced : s.Paced) :
    Tried env s (s.sendMixedMetaPackage env ctx package records batchMeta).1
      ¬ s.Room env package records batchMeta := by
  induction package generalizing records batchMeta s with
  | nil =>
    rw [room_nil]
    exact sendRecordSegment_tried env ctx records batchMeta some_record paced
  | cons unit rest ih =>
    unfold sendMixedMetaPackage
    rw [room_cons]
    dsimp only
    split
    · rename_i other
      have segment := sendRecordSegment_tried env ctx records batchMeta some_record paced
      have ended := (sendRecordSegment_accounts env ctx records batchMeta paced.dropping).ok
      cases outcome : s.sendRecordSegment env ctx records batchMeta with
      | mk s₁ result =>
        rw [outcome] at segment ended
        cases ended
        apply (segment.trans (ih [unit.data] _ (List.cons_ne_nil _ _) segment.paced)).congr
        simp only [other, false_and, not_false_eq_true, true_iff]
        by_cases taken :
            s.Fits batchMeta ∧ s.rt.pendingRecords.length + records.length < s.rt.batchSize
        · right
          have room := sendRecordSegment_room env ctx taken.1 taken.2 some_record
          rw [outcome] at room
          obtain ⟨rfl, -⟩ := Prod.mk.inj room
          intro next
          rcases next.1.1 with empty | same
          · exact some_record (List.append_eq_nil_iff.mp empty).2
          · exact other same
        · exact .inl taken
    · rename_i same
      rw [ne_eq, not_not] at same
      apply (ih (records ++ [unit.data]) batchMeta (by simp) paced).congr
      rw [and_iff_right same]

theorem sendPackageFrom_tried (ctx : SendCtx) (package : SinkPackage)
    (records : List DataRecord) (batchMeta : M) (some_record : records ≠ []) {s : SinkState M}
    (paced : s.Paced) :
    Tried env s (s.sendPackageFrom env ctx package records (some batchMeta)).1
      ¬ s.Room env package records batchMeta := by
  induction package generalizing records with
  | nil =>
    rw [room_nil]
    exact sendRecordSegment_tried env ctx records batchMeta some_record paced
  | cons unit rest ih =>
    unfold sendPackageFrom
    dsimp only
    split
    · exact sendMixedMetaPackage_tried env ctx (unit :: rest) records batchMeta some_record paced
    · rename_i same
      rw [ne_eq, not_not] at same
      rw [room_cons, and_iff_right same]
      exact ih (records ++ [unit.data]) (by simp)

/-- The whole package goes into the buffer and leaves it short of a batch. -/
def OnlyBuffers (package : SinkPackage) (s : SinkState M) : Prop :=
  (∃ batchMeta, s.Fits batchMeta ∧ ∀ unitMeta ∈ unitMetas env s package, unitMeta = batchMeta) ∧
    s.rt.pendingRecords.length + package.length < s.rt.batchSize

theorem onlyBuffers_cons (unit : SinkRecUnit) (rest : SinkPackage) (s : SinkState M) :
    s.OnlyBuffers env (unit :: rest) ↔ s.Room env rest [unit.data]
      (SinkRuntime.unitBatchMeta env.api s.rt.outputDisabled unit.procMeta) := by
  simp only [OnlyBuffers, Room, unitMetas, List.map_cons, List.forall_mem_cons, List.length_cons,
    List.length_nil]
  constructor
  · rintro ⟨⟨batchMeta, fits, rfl, all⟩, room⟩
    exact ⟨⟨fits, all⟩, by omega⟩
  · rintro ⟨⟨fits, all⟩, room⟩
    exact ⟨⟨_, fits, rfl, all⟩, by omega⟩

theorem sendPackageToSink_tried (ctx : SendCtx) (package : SinkPackage) {s : SinkState M}
    (paced : s.Paced) :
    Tried env s (s.sendPackageToSink env ctx package).1
      (package ≠ [] ∧ ¬ s.OnlyBuffers env package) := by
  unfold sendPackageToSink
  cases package with
  | nil =>
    have same : SameGate s s := ⟨rfl, rfl, rfl, rfl, Nat.le_refl _⟩
    exact (same.tried paced).congr (by simp)
  | cons unit rest =>
    rw [if_neg (by simp), onlyBuffers_cons]
    apply (sendPackageFrom_tried env ctx rest [unit.data] _ (List.cons_ne_nil _ _) paced).congr
    simp only [ne_eq, List.cons_ne_nil, not_false_eq_true, true_and]

end Env
end SinkState

/-- The operation hands at least one batch to the gate. -/
def DropOp.HandsBatch {M : Type} (env : SinkEnv M) (s : SinkState M) : DropOp → Prop
  | .sendOne _ _ => True
  | .sendPackage _ package => package ≠ [] ∧ ¬ s.OnlyBuffers env package
  | .sendStrPackage _ package => package ≠ []
  | .sendFfvPackage _ package => package ≠ []
  | .flush _ => s.rt.pendingRecords ≠ []

/-- A send, or a backend that the monitor hands back as repaired. -/
inductive BreakerOp where
  | send (op : DropOp)
  | recover (handle : ASinkHandle)
  deriving DecidableEq, Repr

def SinkState.breakerStep {M : Type} [DecidableEq M] (env : SinkEnv M) (s : SinkState M) :
    BreakerOp → SinkState M
  | .send op => s.dropStep env op
  | .recover handle => (s.recoverSink env handle).1

namespace SinkState
variable {M : Type} [DecidableEq M] (env : SinkEnv M)

theorem dropStep_tried (op : DropOp) {s : SinkState M} (paced : s.Paced) :
    Tried env s (s.dropStep env op) (op.HandsBatch env s) := by
  cases op with
  | sendOne ctx data => exact sendToSink_tried env ctx data paced
  | sendPackage ctx package => exact sendPackageToSink_tried env ctx package paced
  | sendStrPackage ctx package => exact sendTextBatch_tried env ctx package paced
  | sendFfvPackage ctx package =>
    apply (sendTextBatch_tried env ctx (package.map (renderRaw env)) paced).congr
    simp only [DropOp.HandsBatch, ne_eq, List.map_eq_nil_iff]
  | flush ctx => exact flushPendingBuffer_tried env ctx paced

/-- A sink in drop mode never enters its rescue state, so it takes no backend back. -/
theorem breakerStep_paced (op : BreakerOp) {s : SinkState M} (paced : s.Paced) :
    (s.breakerStep env op).Paced := by
  cases op with
  | send op => exact (dropStep_tried env op paced).paced
  | recover handle =>
    have untouched : s.recoverSink env handle = (s, .ok false) := by
      unfold recoverSink
      rw [if_neg (by simp [paced.live])]
    rw [breakerStep, untouched]
    exact paced

theorem start_paced (api : BatchMetaApi M) {conf : SinkConf} (dropMode : conf.dropWhenError = true)
    (sink : SinkBackend) : (SinkState.start api conf sink).Paced := by
  refine ⟨⟨dropMode, ?_⟩, rfl, SinkHealth.After.new, ?_, ?_⟩
  · intro call member
    cases member
  · intro earlier last split
    simp [start] at split
  · intro earlier last next later split
    simp [start] at split

theorem breakerRun_paced (ops : List BreakerOp) {s : SinkState M} (paced : s.Paced) :
    (Runs.run (breakerStep env) s ops).Paced := by
  apply Runs.run_invariant SinkState.Paced
  · intro state op _ paced
    exact breakerStep_paced env op paced
  · exact paced

end SinkState

/-- After any sends, flushes and recoveries, at any times and with any answers. Between a failed
    call, the k-th in a row, and the next call lies the cool-down of k failures. No call was made
    while the breaker was open. When it is not open, an operation reaches the backend exactly if
    it hands a batch over. An accepted call restores the first cool-down, and the back-off stays
    so small that doubling it cannot overflow. -/
theorem breaker_spaces_failed_calls {M : Type} [DecidableEq M] (env : SinkEnv M) (conf : SinkConf)
    (dropMode : conf.dropWhenError = true) (sink : SinkBackend) (ops : List BreakerOp) :
    let s := Runs.run (SinkState.breakerStep env) (SinkState.start env.api conf sink) ops
    SpacedCalls s.calls ∧
      (∀ call ∈ s.calls, call.BreakerClosed) ∧
      (∀ op : DropOp, s.rt.health.isOpen (env.now s.tick) = false →
        (op.HandsBatch env s ↔ s.calls.length < (s.dropStep env op).calls.length)) ∧
      (∀ earlier last, s.calls = earlier ++ [last] → last.accepted = true →
        s.rt.health = SinkHealth.new) ∧
      s.rt.health.backoff = cooldown (failureStreak s.calls) ∧
      s.rt.health.backoff ≤ healthBackoffMax ∧ s.rt.health.backoff * 2 ≤ durationMax := by
  intro s
  have paced : s.Paced := SinkState.breakerRun_paced env ops
    (SinkState.start_paced env.api dropMode sink)
  have backoff := paced.health.backoff
  have bounded : s.rt.health.backoff ≤ healthBackoffMax := by
    rw [backoff]
    exact cooldown_le _
  refine ⟨paced.spaced, paced.dropping.quiet, ?_, ?_, backoff, bounded, ?_⟩
  · intro op closed
    have tried := SinkState.dropStep_tried env op paced
    have admitted : SinkState.Admitted env s := by
      intro retryAt waiting open_
      simp only [SinkHealth.isOpen, waiting, decide_eq_false_iff_not] at closed
      exact closed open_
    constructor
    · intro hands
      exact tried.reaches hands admitted
    · intro reached
      by_contra idle
      rw [(tried.idle idle).calls] at reached
      omega
  · intro earlier last split accepted
    have health := paced.health
    rw [split, failureStreak_append, accepted] at health
    exact health.eq_new
  · have small : healthBackoffMax * 2 ≤ durationMax := by decide
    omega

/-- The first call fails, the second one, ten seconds later, is accepted. -/
def tenSecondEnv : SinkEnv PlainMeta :=
  { plainEnv (fun tick => decide (tick < 3)) with
    now := fun tick => tick * 10 ^ 10
    now_mono := fun _ _ later => Nat.mul_le_mul_right _ later }

def bufferingDropConf : SinkConf := { fileSinkConf with batchSize := 2, dropWhenError := true }

theorem breaker_spaces_one_failure :
    let s := Runs.run (SinkState.breakerStep tenSecondEnv)
      (SinkState.start plainMetaApi bufferingDropConf (.real 7))
      [.send (.sendOne ⟨true, false⟩ (.raw "a")), .send (.sendStrPackage ⟨true, false⟩ ["b"])]
    SpacedCalls s.calls :=
  (breaker_spaces_failed_calls tenSecondEnv bufferingDropConf rfl (.real 7)
    [.send (.sendOne ⟨true, false⟩ (.raw "a")), .send (.sendStrPackage ⟨true, false⟩ ["b"])]).1

/-- The breaker has opened and its cool-down is over, but the first call after it brings one record
    to a buffer of two: the backend is not called. -/
theorem buffered_package_is_no_probe :
    let s := Runs.run (SinkState.breakerStep tenSecondEnv)
      (SinkState.start plainMetaApi bufferingDropConf (.real 7))
      [.send (.sendOne ⟨true, false⟩ (.raw "a"))]
    s.rt.health.retryAt = some 25000000000 ∧ 25000000000 ≤ tenSecondEnv.now s.tick ∧
      (s.dropStep tenSecondEnv (.sendPackage ⟨true, false⟩ [⟨1, .null, ⟨1, []⟩⟩])).calls =
        s.calls := by
  decide

end WarpMotor
