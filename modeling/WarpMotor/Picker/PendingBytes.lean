import WarpMotor.Picker.Bounds

/-!
The byte counter of the pending queue, over any sequence of the calls that
change the queue. The counter saturates: it is the sum of the waiting bytes in
every state exactly when no such sum exceeds what a counter can hold, and then
no batch that is taken has more bytes than the counter.
-/
namespace WarpMotor

/-- The calls that change the queue. -/
inductive PendingCall where
  | extend (batch : SourceBatch)
  | take
  | setFront (batch : SourceBatch)
  | coalesce (maxEvents : Nat)
  | post (lim : Limits) (view : Nat → RouterView) (batchSize : Nat) (ctrl : TaskController)

namespace JMActPicker

/-- The picker after a call. -/
def call (p : JMActPicker) : PendingCall → JMActPicker
  | .extend batch => p.extendPending batch
  | .take => p.takePending.2
  | .setFront batch => p.setPendingFront batch
  | .coalesce maxEvents => (p.coalescePendingFront maxEvents).2
  | .post lim view batchSize ctrl => (handlePendingBatch lim view batchSize p ctrl).picker

/-- The counter is the sum of the bytes that wait. -/
def Counted (p : JMActPicker) : Prop := p.pendingBytes = batchBytes p.pendingEvents

/-- The waiting bytes fit a counter. -/
def Fits (p : JMActPicker) : Prop := batchBytes p.pendingEvents ≤ usizeMax

/-- The counter covers the batch that would be taken. -/
def TakeCovers (p : JMActPicker) : Prop := ∀ batch ∈ p.pending.head?, batchBytes batch ≤ p.pendingBytes

/-- It covers every batch that the merge loop takes. -/
def CoalesceCovers (maxEvents : Nat) (merged : SourceBatch) (bytes : Nat) : List SourceBatch → Prop
  | [] => True
  | b :: queue =>
    merged.length < maxEvents → batchBytes b ≤ bytes ∧
      (merged.length + b.length ≤ maxEvents →
        CoalesceCovers maxEvents (merged ++ b) (bytes - batchBytes b) queue)

def PopCovers (lim : Limits) (p : JMActPicker) : Prop :=
  if lim.pickerCoalesceTrigger ≤ p.pendingCount then
    CoalesceCovers lim.pickerCoalesceMaxEvents [] p.pendingBytes p.pending ∧
      ((p.coalescePendingFront lim.pickerCoalesceMaxEvents).1 = none →
        TakeCovers (p.coalescePendingFront lim.pickerCoalesceMaxEvents).2)
  else TakeCovers p

/-- It covers every batch that a post takes. -/
def PostCovers (lim : Limits) (view : Nat → RouterView) : Nat → Nat → JMActPicker → Prop
  | 0, _, _ => True
  | left + 1, sends, p =>
    PopCovers lim p ∧ ∀ payload,
      (p.popNextPayloadForPost lim).1 = some payload →
      trySendRoundRobin (view sends) payload = .sent →
        PostCovers lim view left (sends + 1) (p.popNextPayloadForPost lim).2

/-- No subtraction of the call is cut off at zero. -/
def CallCovers (p : JMActPicker) : PendingCall → Prop
  | .extend _ => True
  | .take => TakeCovers p
  | .setFront _ => True
  | .coalesce maxEvents => CoalesceCovers maxEvents [] p.pendingBytes p.pending
  | .post lim view batchSize _ => PostCovers lim view batchSize 0 p

section Calls

variable {p : JMActPicker}

theorem Counted.take (counted : Counted p) : Counted p.takePending.2 := by
  unfold Counted takePending at *
  split
  · exact counted
  · next batch rest queue =>
    simp only [pendingEvents, queue, List.flatten_cons, batchBytes_append] at counted ⊢
    omega

theorem Counted.takeCovers (counted : Counted p) : TakeCovers p := by
  intro batch first
  unfold Counted pendingEvents at counted
  cases queue : p.pending with
  | nil =>
    rw [queue] at first
    cases first
  | cons head rest =>
    rw [queue] at first counted
    cases first
    rw [List.flatten_cons, batchBytes_append] at counted
    omega

theorem Counted.setFront (counted : Counted p) {batch : SourceBatch}
    (fits : Fits (p.setPendingFront batch)) : Counted (p.setPendingFront batch) := by
  unfold Counted Fits at *
  rw [setPendingFront_events, batchBytes_append] at *
  simp only [setPendingFront, saturatingAdd]
  omega

theorem Counted.extend (counted : Counted p) {batch : SourceBatch}
    (fits : Fits (p.extendPending batch)) : Counted (p.extendPending batch) := by
  unfold Counted Fits at *
  rw [extendPending_events, batchBytes_append] at *
  simp only [extendPending, saturatingAdd]
  omega

theorem Counted.small (counted : Counted p) (fits : Fits p) : p.pendingBytes ≤ usizeMax :=
  counted ▸ fits

theorem Counted.coalesce (counted : Counted p) (fits : Fits p) (maxEvents : Nat) :
    Counted (p.coalescePendingFront maxEvents).2 := by
  unfold coalescePendingFront
  split
  · exact counted
  · exact coalesceLoop_bytes maxEvents p.pending [] p.pendingBytes (counted.small fits) counted

theorem coalesceCovers_of_sum (maxEvents : Nat) {queue : List SourceBatch} (merged : SourceBatch)
    {bytes : Nat} (total : bytes = batchBytes queue.flatten) :
    CoalesceCovers maxEvents merged bytes queue := by
  induction queue generalizing merged bytes with
  | nil => trivial
  | cons b queue ih =>
    rw [List.flatten_cons, batchBytes_append] at total
    intro _
    refine ⟨by omega, ?_⟩
    intro _
    apply ih
    omega

theorem pop_counted {q : JMActPicker} {lim : Limits} {taken : Option SourceBatch}
    (popped : p.popNextPayloadForPost lim = (taken, q)) (counted : Counted p) (fits : Fits p) :
    Counted q ∧ Fits q ∧ Fits (q.setPendingFront (taken.getD [])) := by
  have total := (popNextPayloadForPost_bytes popped (counted.small fits)).2.2 counted
  have conserved := congrArg batchBytes (popNextPayloadForPost_events popped)
  rw [batchBytes_append] at conserved
  unfold Fits at *
  rw [setPendingFront_events, batchBytes_append]
  exact ⟨total, by omega, by omega⟩

theorem Counted.popCovers (counted : Counted p) (fits : Fits p) (lim : Limits) :
    PopCovers lim p := by
  unfold PopCovers
  split
  · refine ⟨coalesceCovers_of_sum _ _ counted, ?_⟩
    intro _
    exact (counted.coalesce fits _).takeCovers
  · exact counted.takeCovers

theorem postLoop_counted (lim : Limits) (view : Nat → RouterView) (left sends : Nat)
    (ctrl : TaskController) (rs : RoundStat) (counted : Counted p) (fits : Fits p) :
    Counted (handlePendingLoop lim view left sends p ctrl rs).picker ∧
      PostCovers lim view left sends p := by
  induction left generalizing sends p ctrl rs with
  | zero => exact ⟨counted, trivial⟩
  | succ left ih =>
    rw [handlePendingLoop, PostCovers]
    have covers := counted.popCovers fits lim
    split
    · next q popped =>
      have rest := pop_counted popped counted fits
      refine ⟨rest.1, covers, ?_⟩
      intro payload taken
      rw [popped] at taken
      cases taken
    · next payload q popped =>
      obtain ⟨rest, room, back⟩ := pop_counted popped counted fits
      have returned := trySendRoundRobin_returns (view sends) payload
      split
      · next sent =>
        obtain ⟨later, posted⟩ := ih (sends + 1) (ctrl.recTaskSucCnt payload.length) (rs.addProc 1)
          rest room
        refine ⟨later, covers, ?_⟩
        intro _ _ _
        rw [popped]
        exact posted
      all_goals
        next batch refused =>
        rw [refused] at returned
        cases returned
        refine ⟨rest.setFront back, covers, ?_⟩
        intro other taken sent
        rw [popped] at taken
        cases taken
        rw [refused] at sent
        cases sent

/-- A call keeps the count where the bytes fit, and covers what it takes. -/
theorem Counted.call (counted : Counted p) (fits : Fits p) (c : PendingCall) :
    CallCovers p c ∧ (Fits (p.call c) → Counted (p.call c)) := by
  cases c with
  | extend batch => exact ⟨trivial, counted.extend⟩
  | take => exact ⟨counted.takeCovers, fun _ => counted.take⟩
  | setFront batch => exact ⟨trivial, counted.setFront⟩
  | coalesce maxEvents =>
    exact ⟨coalesceCovers_of_sum maxEvents [] counted, fun _ => counted.coalesce fits maxEvents⟩
  | post lim view batchSize ctrl =>
    have posted := postLoop_counted lim view batchSize 0 ctrl RoundStat.new counted fits
    exact ⟨posted.2, fun _ => posted.1⟩

theorem setFront_no_wrap (batch : SourceBatch) :
    (p.setPendingFront batch).pendingBytes ≤ usizeMax := Nat.min_le_right _ _

theorem postLoop_no_wrap (lim : Limits) (view : Nat → RouterView) (left sends : Nat)
    (ctrl : TaskController) (rs : RoundStat) (small : p.pendingBytes ≤ usizeMax) :
    (handlePendingLoop lim view left sends p ctrl rs).picker.pendingBytes ≤ usizeMax := by
  induction left generalizing sends p ctrl rs with
  | zero => exact small
  | succ left ih =>
    rw [handlePendingLoop]
    split
    · next q popped => exact (popNextPayloadForPost_bytes popped small).2.1
    · next payload q popped =>
      split
      · exact ih _ _ _ (popNextPayloadForPost_bytes popped small).2.1
      all_goals exact setFront_no_wrap _

theorem call_no_wrap (small : p.pendingBytes ≤ usizeMax) (c : PendingCall) :
    (p.call c).pendingBytes ≤ usizeMax := by
  cases c with
  | extend batch => exact Nat.min_le_right _ _
  | take =>
    simp only [JMActPicker.call, takePending]
    split
    · exact small
    · dsimp only
      omega
  | setFront batch => exact setFront_no_wrap batch
  | coalesce maxEvents =>
    simp only [JMActPicker.call, coalescePendingFront]
    split
    · exact small
    · exact coalesceLoop_no_wrap maxEvents p.pending [] p.pendingBytes small
  | post lim view batchSize ctrl =>
    exact postLoop_no_wrap lim view batchSize 0 ctrl RoundStat.new small

end Calls

theorem run_counted (calls : List PendingCall) {p : JMActPicker} (counted : Counted p)
    (fits : ∀ seen, seen <+: calls → Fits (Runs.run JMActPicker.call p seen)) :
    (∀ seen, seen <+: calls → Counted (Runs.run JMActPicker.call p seen)) ∧
      Runs.AllSteps JMActPicker.call CallCovers p calls := by
  induction calls generalizing p with
  | nil =>
    refine ⟨?_, trivial⟩
    intro seen first
    rw [List.prefix_nil.mp first]
    exact counted
  | cons c rest ih =>
    have here := fits [] List.nil_prefix
    have there := fits [c] ⟨rest, rfl⟩
    obtain ⟨covers, kept⟩ := counted.call here c
    obtain ⟨later, covered⟩ := ih (kept there)
      (fun seen first => fits (c :: seen) (List.cons_prefix_cons.mpr ⟨rfl, first⟩))
    refine ⟨?_, covers, covered⟩
    intro seen first
    rcases List.prefix_cons_iff.mp first with rfl | ⟨tail, rfl, shorter⟩
    · exact counted
    · exact later tail shorter

/-- A batch of one event of that many bytes. -/
def oneEvent (size : Nat) : SourceBatch :=
  [⟨0, "", .arcBytes (List.replicate size 0), [], none⟩]

theorem oneEvent_bytes (size : Nat) : batchBytes (oneEvent size) = size := by
  simp [oneEvent, batchBytes, eventPayloadLen, RawData.len]

def twice (batch : SourceBatch) : List PendingCall := [.extend batch, .extend batch]

theorem twice_bytes (lim : Limits) (batch : SourceBatch) :
    (Runs.run JMActPicker.call (new lim) (twice batch)).pendingBytes =
        saturatingAdd (saturatingAdd 0 (batchBytes batch)) (batchBytes batch) ∧
      batchBytes (Runs.run JMActPicker.call (new lim) (twice batch)).pendingEvents =
        batchBytes batch + batchBytes batch := by
  refine ⟨rfl, ?_⟩
  simp [twice, JMActPicker.call, batchBytes_append, new, pendingEvents, extendPending]

end JMActPicker

end WarpMotor
