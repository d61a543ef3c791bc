import WarpMotor.Lib.Runs
import WarpMotor.Actor.Command
import WarpMotor.Picker.Policy
import WarpMotor.Picker.Router

/-!
The pending queue of `JMActPicker` and the posting of its head to the parser
channels. `pending` holds batches in fetch order. A payload for one send is
either the head batch or, under backlog, several head batches merged up to
`max_events` with the rest of a split batch pushed back. A refused payload
returns to the head of the queue.
-/
namespace WarpMotor

structure JMActPicker where
  pending : List SourceBatch
  pendingBytes : Nat
  postPolicy : PostPolicy
  pullPolicy : PullPolicy
  deriving DecidableEq, Repr

namespace JMActPicker

def new (lim : Limits) : JMActPicker :=
  { pending := [], pendingBytes := 0, postPolicy := PostPolicy.new lim.pickerBurstMax
    pullPolicy := PullPolicy.new lim.pickerBurstMax }

def takePending (p : JMActPicker) : Option SourceBatch × JMActPicker :=
  match p.pending with
  | [] => (none, p)
  | batch :: rest =>
    (some batch, { p with pending := rest, pendingBytes := p.pendingBytes - batchBytes batch })

def setPendingFront (p : JMActPicker) (batch : SourceBatch) : JMActPicker :=
  { p with
    pending := batch :: p.pending
    pendingBytes := saturatingAdd p.pendingBytes (batchBytes batch) }

def extendPending (p : JMActPicker) (batch : SourceBatch) : JMActPicker :=
  { p with
    pending := p.pending ++ [batch]
    pendingBytes := saturatingAdd p.pendingBytes (batchBytes batch) }

def pendingCount (p : JMActPicker) : Nat := p.pending.length

def pendingBytesAtCapacity (p : JMActPicker) (lim : Limits) : Bool :=
  decide (lim.pickerPendingMaxBytes ≤ p.pendingBytes)

/-- The `while merged.len() < max_events` loop. Every turn takes the head batch, so the
    recursion is on the queue; `bytes` is `pending_bytes` along the way. -/
def coalesceLoop (maxEvents : Nat) (merged : SourceBatch) (bytes : Nat) :
    List SourceBatch → SourceBatch × List SourceBatch × Nat
  | [] => (merged, [], bytes)
  | b :: queue =>
    if merged.length < maxEvents then
      let bytes := bytes - batchBytes b
      if merged.length + b.length ≤ maxEvents then coalesceLoop maxEvents (merged ++ b) bytes queue
      else
        let remain := maxEvents - merged.length
        let rest := b.drop remain
        (merged ++ b.take remain, rest :: queue, saturatingAdd bytes (batchBytes rest))
    else (merged, b :: queue, bytes)

def coalescePendingFront (p : JMActPicker) (maxEvents : Nat) : Option SourceBatch × JMActPicker :=
  if p.pending.isEmpty then (none, p)
  else
    let (merged, queue, bytes) := coalesceLoop maxEvents [] p.pendingBytes p.pending
    (if merged.isEmpty then none else some merged, { p with pending := queue, pendingBytes := bytes })

def popNextPayloadForPost (lim : Limits) (p : JMActPicker) : Option SourceBatch × JMActPicker :=
  if lim.pickerCoalesceTrigger ≤ p.pendingCount then
    match p.coalescePendingFront lim.pickerCoalesceMaxEvents with
    | (some b, p) => (some b, p)
    | (none, p) => p.takePending
  else p.takePending

end JMActPicker

/-- What one call of `handle_pending_batch` leaves behind. `handed` lists the batches given to
    parser channels, in send order. -/
structure PostOutcome where
  picker : JMActPicker
  taskCtrl : TaskController
  stat : RoundStat
  handed : List SourceBatch
  deriving DecidableEq, Repr

/-- The `while delivered < batch_size` loop; `left` is the number of deliveries still allowed
    and `view n` what the router shows to the n-th send of this call. -/
def handlePendingLoop (lim : Limits) (view : Nat → RouterView) :
    Nat → Nat → JMActPicker → TaskController → RoundStat → PostOutcome
  | 0, _, picker, ctrl, rs => ⟨picker, ctrl, rs, []⟩
  | left + 1, sends, picker, ctrl, rs =>
    match picker.popNextPayloadForPost lim with
    | (none, picker) => ⟨picker, ctrl, rs, []⟩
    | (some payload, picker) =>
      match trySendRoundRobin (view sends) payload with
      | .sent =>
        let out := handlePendingLoop lim view left (sends + 1) picker
          (ctrl.recTaskSucCnt payload.length) (rs.addProc 1)
        { out with handed := payload :: out.handed }
      | .full batch => ⟨picker.setPendingFront batch, ctrl, rs.toDistPending, []⟩
      | .reloading batch => ⟨picker.setPendingFront batch, ctrl, rs.toDistPending, []⟩
      | .closed batch => ⟨picker.setPendingFront batch, ctrl, rs.toDistTerminal, []⟩

def handlePendingBatch (lim : Limits) (view : Nat → RouterView) (batchSize : Nat)
    (picker : JMActPicker) (ctrl : TaskController) : PostOutcome :=
  handlePendingLoop lim view batchSize 0 picker ctrl RoundStat.new

namespace JMActPicker

/-- All events still waiting, in delivery order. -/
def pendingEvents (p : JMActPicker) : List SourceEvent := p.pending.flatten

theorem takePending_events {p q : JMActPicker} {taken : Option SourceBatch}
    (taken_eq : p.takePending = (taken, q)) :
    taken.getD [] ++ q.pendingEvents = p.pendingEvents := by
  unfold takePending at taken_eq
  split at taken_eq
  · cases taken_eq
    simp
  · rename_i batch rest queue
    cases taken_eq
    simp [pendingEvents, queue]

@[simp] theorem setPendingFront_events (p : JMActPicker) (batch : SourceBatch) :
    (p.setPendingFront batch).pendingEvents = batch ++ p.pendingEvents := by
  simp [setPendingFront, pendingEvents]

@[simp] theorem extendPending_events (p : JMActPicker) (batch : SourceBatch) :
    (p.extendPending batch).pendingEvents = p.pendingEvents ++ batch := by
  simp [extendPending, pendingEvents]

theorem coalesceLoop_events (maxEvents : Nat) (queue : List SourceBatch) (merged : SourceBatch)
    (bytes : Nat) :
    (coalesceLoop maxEvents merged bytes queue).1 ++
      (coalesceLoop maxEvents merged bytes queue).2.1.flatten = merged ++ queue.flatten := by
  induction queue generalizing merged bytes with
  | nil => simp [coalesceLoop]
  | cons b queue ih =>
    simp only [coalesceLoop]
    split
    · split
      · rw [ih]
        simp
      · -- the split batch: its taken part goes to `merged`, the rest returns to the head
        simp only [List.flatten_cons, List.append_assoc]
        rw [← List.append_assoc (b.take _), List.take_append_drop]
    · simp

theorem coalescePendingFront_events {p q : JMActPicker} {maxEvents : Nat}
    {taken : Option SourceBatch} (taken_eq : p.coalescePendingFront maxEvents = (taken, q)) :
    taken.getD [] ++ q.pendingEvents = p.pendingEvents := by
  unfold coalescePendingFront at taken_eq
  split at taken_eq
  · cases taken_eq
    simp
  · have conserved := coalesceLoop_events maxEvents p.pending [] p.pendingBytes
    cases taken_eq
    simp only [List.nil_append] at conserved
    by_cases empty : (coalesceLoop maxEvents [] p.pendingBytes p.pending).1 = []
    · rw [empty] at conserved
      simpa [pendingEvents, empty] using conserved
    · simpa [pendingEvents, empty] using conserved

theorem popNextPayloadForPost_events {lim : Limits} {p q : JMActPicker}
    {taken : Option SourceBatch} (taken_eq : p.popNextPayloadForPost lim = (taken, q)) :
    taken.getD [] ++ q.pendingEvents = p.pendingEvents := by
  unfold popNextPayloadForPost at taken_eq
  split at taken_eq
  · split at taken_eq
    · rename_i b p' merged
      cases taken_eq
      exact coalescePendingFront_events merged
    · -- every merged batch was empty: the queue lost no event and its head is taken instead
      rename_i p' nothing
      rw [takePending_events taken_eq]
      simpa using coalescePendingFront_events nothing
  · exact takePending_events taken_eq

end JMActPicker

theorem handlePendingLoop_events (lim : Limits) (view : Nat → RouterView) (left sends : Nat)
    (picker : JMActPicker) (ctrl : TaskController) (rs : RoundStat) :
    (handlePendingLoop lim view left sends picker ctrl rs).handed.flatten ++
      (handlePendingLoop lim view left sends picker ctrl rs).picker.pendingEvents =
        picker.pendingEvents := by
  induction left generalizing sends picker ctrl rs with
  | zero => simp [handlePendingLoop]
  | succ left ih =>
    rw [handlePendingLoop]
    split
    · rename_i picker' popped
      simpa using JMActPicker.popNextPayloadForPost_events popped
    · rename_i payload picker' popped
      have head := JMActPicker.popNextPayloadForPost_events popped
      have returned := trySendRoundRobin_returns (view sends) payload
      simp only [Option.getD_some] at head
      split
      · simpa [List.append_assoc, ih] using head
      all_goals
        rename_i batch refused
        rw [refused] at returned
        cases returned
        simpa using head

theorem handlePendingBatch_events (lim : Limits) (view : Nat → RouterView) (batchSize : Nat)
    (picker : JMActPicker) (ctrl : TaskController) :
    (handlePendingBatch lim view batchSize picker ctrl).handed.flatten ++
      (handlePendingBatch lim view batchSize picker ctrl).picker.pendingEvents =
        picker.pendingEvents :=
  handlePendingLoop_events ..

/-- A run of the picker: fetched batches and posting calls in any order. Limits and router views
    are free in every call. -/
inductive PickerOp where
  | fetch (batch : SourceBatch)
  | post (lim : Limits) (batchSize : Nat) (view : Nat → RouterView)

structure PickerRun where
  picker : JMActPicker
  taskCtrl : TaskController
  handed : List SourceBatch

namespace PickerRun

def start (lim : Limits) (unitSize : Nat) : PickerRun :=
  ⟨JMActPicker.new lim, TaskController.fromSpeedLimit unitSize, []⟩

def step (s : PickerRun) : PickerOp → PickerRun
  | .fetch batch => { s with picker := s.picker.extendPending batch }
  | .post lim batchSize view =>
    let out := handlePendingBatch lim view batchSize s.picker s.taskCtrl
    ⟨out.picker, out.taskCtrl, s.handed ++ out.handed⟩

/-- Everything the picker has taken in so far: delivered events first, then waiting ones. -/
def accounted (s : PickerRun) : List SourceEvent := s.handed.flatten ++ s.picker.pendingEvents

end PickerRun

def PickerOp.fetched : PickerOp → List SourceEvent
  | .fetch batch => batch
  | .post .. => []

theorem picker_step_accounted (s : PickerRun) (op : PickerOp) :
    (s.step op).accounted = s.accounted ++ op.fetched := by
  cases op with
  | fetch batch => simp [PickerRun.step, PickerRun.accounted, PickerOp.fetched]
  | post lim batchSize view =>
    have conserved := handlePendingBatch_events lim view batchSize s.picker s.taskCtrl
    simp only [PickerRun.step, PickerRun.accounted, PickerOp.fetched, List.flatten_append,
      List.append_assoc, List.append_nil]
    rw [conserved]

/-- No event is lost, duplicated or reordered by any mix of fetches and posts. -/
theorem picker_conserves_events (lim : Limits) (unitSize : Nat) (ops : List PickerOp) :
    (Runs.run PickerRun.step (PickerRun.start lim unitSize) ops).handed.flatten ++
      (Runs.run PickerRun.step (PickerRun.start lim unitSize) ops).picker.pending.flatten =
        ops.flatMap PickerOp.fetched := by
  have conserved := Runs.run_appends PickerRun.accounted PickerOp.fetched picker_step_accounted
    ops (PickerRun.start lim unitSize)
  simpa [PickerRun.accounted, PickerRun.start, JMActPicker.new, JMActPicker.pendingEvents]
    using conserved

end WarpMotor
