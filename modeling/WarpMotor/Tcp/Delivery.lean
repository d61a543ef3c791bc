import WarpMotor.Tcp.Bookkeeping

/-!
What the calls of the TCP source deliver. The events of a connection are those
that its reads give one after the other, each read drained once; no call, ended
or dropped, has a part in that sequence. At every moment the delivered events of
a connection are the events of the reads so far, up to those still pending in it.
-/
namespace WarpMotor

open Framing

namespace Tcp

namespace TcpConnection

/-- The connection without its pending events. -/
def bare (conn : TcpConnection) : TcpConnection :=
  { conn with batcher := { conn.batcher with pendingEvents := [] } }

/-- One read with its drain: the events that it builds, in their order. -/
def absorb (conn : TcpConnection) : Read → TcpConnection × List SourceEvent
  | .ok bytes =>
    if bytes = [] then (conn, [])
    else
      let after := conn.afterChunk bytes
      (after.1.bare, after.2.1 ++ after.1.batcher.pendingEvents)
  | .wouldBlock => (conn, [])
  | .failed => (conn, [])

/-- The event sequence of a connection that reads this. -/
def eventsOf : TcpConnection → List Read → TcpConnection × List SourceEvent
  | conn, [] => (conn, [])
  | conn, read :: reads =>
    let first := conn.absorb read
    let later := eventsOf first.1 reads
    (later.1, first.2 ++ later.2)

theorem eventsOf_append (conn : TcpConnection) (reads more : List Read) :
    conn.eventsOf (reads ++ more) =
      (((conn.eventsOf reads).1.eventsOf more).1,
        (conn.eventsOf reads).2 ++ ((conn.eventsOf reads).1.eventsOf more).2) := by
  induction reads generalizing conn with
  | nil => rfl
  | cons read rest ih => simp only [List.cons_append, eventsOf, ih, List.append_assoc]

end TcpConnection

namespace BatchBuilder

/-- What is pending beforehand only stands before what a drain adds to it. -/
theorem drainLoop_pending (framing : FramingMode) (peerIp : String) (fuel : Nat) (b : BatchBuilder)
    (pending : List SourceEvent) (batch : SourceBatch) (producedBytes : Nat) :
    ({ b with pendingEvents := pending }).drainLoop framing peerIp fuel batch producedBytes =
      let drained := ({ b with pendingEvents := [] }).drainLoop framing peerIp fuel batch producedBytes
      ({ drained.1 with pendingEvents := pending ++ drained.1.pendingEvents }, drained.2) := by
  induction fuel generalizing b batch producedBytes with
  | zero => simp [drainLoop]
  | succ fuel ih =>
    cases first : extractMessage framing b.buffer with
    | none => simp [drainLoop, first]
    | some found =>
      obtain ⟨payload, rest⟩ := found
      have later := ih { b with buffer := rest, nextEventId := b.nextEventId + 1 }
        (batch ++ [b.buildEvent payload peerIp]) (saturatingAdd producedBytes payload.length)
      have same : ∀ pending : List SourceEvent,
          ({ b with pendingEvents := pending }).buildEvent payload peerIp =
            b.buildEvent payload peerIp := fun _ => rfl
      have size : eventPayloadLen (b.buildEvent payload peerIp) = payload.length := rfl
      simp only [drainLoop, first, same, size]
      by_cases full : b.batchCapacity ≤ batch.length
      · simp only [if_pos full, List.nil_append]
      · by_cases exceeds : b.maxBatchBytes < producedBytes + payload.length
        · by_cases begun : batch = []
          · have alone : ¬ (b.maxBatchBytes < producedBytes + payload.length ∧ batch ≠ []) :=
              fun closed => closed.2 begun
            simp only [if_neg full, if_neg alone, if_pos exceeds, List.append_nil]
          · simp [full, exceeds, begun]
        · simp only [if_neg full, exceeds, false_and, if_false]
          exact later

theorem drainLoop_ne_nil (framing : FramingMode) (peerIp : String) (fuel : Nat) (b : BatchBuilder)
    {batch : SourceBatch} (producedBytes : Nat) (begun : batch ≠ []) :
    (b.drainLoop framing peerIp fuel batch producedBytes).2.1 ≠ [] := by
  induction fuel generalizing b batch producedBytes with
  | zero => exact begun
  | succ fuel ih =>
    cases first : extractMessage framing b.buffer with
    | none =>
      simp only [drainLoop, first]
      exact begun
    | some found =>
      simp only [drainLoop, first]
      split_ifs with full closed exceeds
      · exact begun
      · exact begun
      · simp
      · exact ih _ _ (by simp)

/-- A drain that leaves the batch empty has not counted bytes. -/
theorem drainLoop_bytes {framing : FramingMode} {peerIp : String} {fuel : Nat} {b : BatchBuilder}
    {producedBytes : Nat}
    (none_taken : (b.drainLoop framing peerIp fuel [] producedBytes).2.1 = []) :
    (b.drainLoop framing peerIp fuel [] producedBytes).2.2 = producedBytes := by
  cases fuel with
  | zero => rfl
  | succ fuel =>
    cases first : extractMessage framing b.buffer with
    | none => simp only [drainLoop, first]
    | some found =>
      simp only [drainLoop, first] at none_taken ⊢
      split_ifs at none_taken ⊢ with full closed exceeds
      · rfl
      · rfl
      · simp at none_taken
      · exact absurd none_taken (drainLoop_ne_nil _ _ _ _ _ (by simp))

/-- With no room in a batch everything becomes pending. -/
theorem drainLoop_no_room (framing : FramingMode) (peerIp : String) (fuel : Nat) (b : BatchBuilder)
    (producedBytes : Nat) (no_room : b.batchCapacity = 0) :
    (b.drainLoop framing peerIp fuel [] producedBytes).2.1 = [] := by
  cases fuel with
  | zero => rfl
  | succ fuel =>
    cases first : extractMessage framing b.buffer with
    | none => simp only [drainLoop, first]
    | some found => simp [drainLoop, first, no_room]

theorem fillFromPending_split (capacity maxBytes : Nat) (pending : List SourceEvent)
    (batch : SourceBatch) (producedBytes : Nat) :
    (fillFromPending capacity maxBytes pending batch producedBytes).2.1 ++
      (fillFromPending capacity maxBytes pending batch producedBytes).1 = batch ++ pending := by
  induction pending generalizing batch producedBytes with
  | nil => simp [fillFromPending]
  | cons event rest ih =>
    simp only [fillFromPending]
    split_ifs with full closed exceeds
    · rfl
    · rfl
    · simp
    · rw [ih]
      simp

theorem fillFromPending_ne_nil (capacity maxBytes : Nat) (pending : List SourceEvent)
    {batch : SourceBatch} (producedBytes : Nat) (begun : batch ≠ []) :
    (fillFromPending capacity maxBytes pending batch producedBytes).2.1 ≠ [] := by
  induction pending generalizing batch producedBytes with
  | nil => exact begun
  | cons event rest ih =>
    simp only [fillFromPending]
    split_ifs
    · exact begun
    · exact begun
    · simp
    · exact ih _ (by simp)

/-- Pending events that give no batch wait for a source without room in its batches. -/
theorem fillFromPending_nil {capacity maxBytes : Nat} {pending : List SourceEvent}
    (nothing : (fillFromPending capacity maxBytes pending [] 0).2.1 = []) :
    pending = [] ∨ capacity = 0 := by
  cases pending with
  | nil => exact .inl rfl
  | cons event rest =>
    right
    by_contra room
    simp only [fillFromPending, List.length_nil, Nat.le_zero, room, if_false] at nothing
    split_ifs at nothing with closed exceeds
    · exact closed.2 rfl
    · simp at nothing
    · exact fillFromPending_ne_nil _ _ _ _ (by simp) nothing

theorem fillFromPending_bytes {capacity maxBytes : Nat} {pending : List SourceEvent}
    (nothing : (fillFromPending capacity maxBytes pending [] 0).2.1 = []) :
    (fillFromPending capacity maxBytes pending [] 0).2.2 = 0 := by
  rcases fillFromPending_nil nothing with rfl | rfl
  · rfl
  · cases pending with
    | nil => rfl
    | cons event rest => simp [fillFromPending]

/-- A drain without a batch has found no frame, or there is no room in a batch. -/
theorem drainLoop_nothing {framing : FramingMode} {peerIp : String} {fuel : Nat} {b : BatchBuilder}
    {producedBytes : Nat}
    (none_taken : (b.drainLoop framing peerIp fuel [] producedBytes).2.1 = []) :
    (b.drainLoop framing peerIp fuel [] producedBytes).1 = b ∨ b.batchCapacity = 0 := by
  cases fuel with
  | zero => exact .inl rfl
  | succ fuel =>
    cases first : extractMessage framing b.buffer with
    | none => simp only [drainLoop, first, true_or]
    | some found =>
      simp only [drainLoop, first] at none_taken ⊢
      split_ifs at none_taken ⊢ with full closed exceeds
      · exact .inr (Nat.le_zero.mp full)
      · exact absurd rfl closed.2
      · simp at none_taken
      · exact absurd none_taken (drainLoop_ne_nil _ _ _ _ _ (by simp))

end BatchBuilder

/-- What the outcome of a read hands out. -/
def ReadOutcome.handedOut : Option ReadOutcome → SourceBatch
  | some (.produced batch) => batch
  | some .noData => []
  | some .closed => []
  | some (.disconnect _) => []
  | none => []

/-- The connection has used some of its reads: what was pending and the events of these reads are
    handed out in `out` or pending now. -/
def Advance (live live' : Live) (out : SourceBatch) : Prop :=
  ∃ used events, live.stream = used ++ live'.stream ∧
    live.conn.bare.eventsOf used = (live'.conn.bare, events) ∧
    live.conn.batcher.pendingEvents ++ events = out ++ live'.conn.batcher.pendingEvents

namespace Advance

theorem refl (live : Live) : Advance live live [] := ⟨[], [], rfl, rfl, by simp⟩

theorem trans {live live' live'' : Live} {out out' : SourceBatch} (first : Advance live live' out)
    (second : Advance live' live'' out') : Advance live live'' (out ++ out') := by
  obtain ⟨used, events, reads, feeds, split⟩ := first
  obtain ⟨used', events', reads', feeds', split'⟩ := second
  refine ⟨used ++ used', events ++ events', ?_, ?_, ?_⟩
  · rw [reads, reads', List.append_assoc]
  · rw [TcpConnection.eventsOf_append, feeds]
    dsimp only
    rw [feeds']
  · rw [← List.append_assoc, split, List.append_assoc, split', List.append_assoc]

/-- Reads that are still to come have no part in it. -/
theorem frame {conn conn' : TcpConnection} {reads reads' : List Read} {out : SourceBatch}
    (advance : Advance ⟨conn, reads⟩ ⟨conn', reads'⟩ out) (more : List Read) :
    Advance ⟨conn, reads ++ more⟩ ⟨conn', reads' ++ more⟩ out := by
  obtain ⟨used, events, split, feeds, pending⟩ := advance
  refine ⟨used, events, ?_, feeds, pending⟩
  dsimp only at split ⊢
  rw [split, List.append_assoc]

/-- A read that builds no event. -/
theorem skip {conn : TcpConnection} {read : Read} (none_built : conn.bare.absorb read = (conn.bare, []))
    (reads : List Read) : Advance ⟨conn, read :: reads⟩ ⟨conn, reads⟩ [] := by
  refine ⟨[read], [], rfl, ?_, by simp⟩
  simp only [TcpConnection.eventsOf, none_built, List.append_nil]

end Advance

namespace TcpConnection

/-- Nothing is pending, unless a batch has no room at all. -/
def Ready (conn : TcpConnection) : Prop :=
  conn.batcher.pendingEvents = [] ∨ conn.batcher.batchCapacity = 0

theorem afterChunk_pending (conn : TcpConnection) (bytes : Bytes) :
    (conn.afterChunk bytes).1.bare = (conn.bare.afterChunk bytes).1.bare ∧
      (conn.afterChunk bytes).1.batcher.pendingEvents = conn.batcher.pendingEvents ++
        (conn.bare.afterChunk bytes).1.batcher.pendingEvents ∧
      (conn.afterChunk bytes).2 = (conn.bare.afterChunk bytes).2 := by
  have split := BatchBuilder.drainLoop_pending conn.framing conn.clientAddr
    (conn.batcher.buffer ++ bytes).length
    { conn.batcher with buffer := conn.batcher.buffer ++ bytes } conn.batcher.pendingEvents [] 0
  refine ⟨?_, ?_, ?_⟩
  · exact congrArg (fun d => ({ conn with batcher := { d.1 with pendingEvents := [] } } :
      TcpConnection)) split
  · exact congrArg (fun d => d.1.pendingEvents) split
  · exact congrArg (fun d => d.2) split

theorem afterChunk_capacity (conn : TcpConnection) (bytes : Bytes) :
    (conn.afterChunk bytes).1.batcher.batchCapacity = conn.batcher.batchCapacity :=
  (drainLoop_effect conn.framing conn.clientAddr (conn.batcher.buffer ++ bytes).length
    { conn.batcher with buffer := conn.batcher.buffer ++ bytes } [] 0 (by simp)).same_capacity

/-- A read of some bytes hands out its batch; what it builds beyond that is pending. -/
theorem afterChunk_advance {conn : TcpConnection} (ready : Ready conn) {bytes : Bytes}
    (some_bytes : bytes ≠ []) (reads : List Read) :
    Advance ⟨conn, .ok bytes :: reads⟩ ⟨(conn.afterChunk bytes).1, reads⟩ (conn.afterChunk bytes).2.1 := by
  obtain ⟨same_conn, pending, same_batch⟩ := conn.afterChunk_pending bytes
  refine ⟨[.ok bytes], (conn.bare.afterChunk bytes).2.1 ++
    (conn.bare.afterChunk bytes).1.batcher.pendingEvents, rfl, ?_, ?_⟩
  · simp only [eventsOf, absorb, if_neg some_bytes, List.append_nil, same_conn]
  · dsimp only
    rw [pending, same_batch]
    rcases ready with none_pending | no_room
    · rw [none_pending, List.nil_append, List.nil_append]
    · have nothing : (conn.bare.afterChunk bytes).2.1 = [] :=
        BatchBuilder.drainLoop_no_room _ _ _ _ _ no_room
      rw [nothing, List.nil_append, List.nil_append]

/-- A read that gives no batch leaves nothing pending either. -/
theorem afterChunk_ready {conn : TcpConnection} (ready : Ready conn) {bytes : Bytes}
    (nothing : (conn.afterChunk bytes).2.1 = []) : Ready (conn.afterChunk bytes).1 := by
  have capacity := conn.afterChunk_capacity bytes
  rcases BatchBuilder.drainLoop_nothing nothing with same | no_room
  · have pending : (conn.afterChunk bytes).1.batcher.pendingEvents = conn.batcher.pendingEvents := by
      have unchanged := congrArg BatchBuilder.pendingEvents same
      exact unchanged
    rcases ready with none_pending | no_room
    · exact .inl (pending.trans none_pending)
    · exact .inr (capacity.trans no_room)
  · exact .inr (capacity.trans no_room)

/-- A read of some bytes ends the loop with its batch, or the loop starts anew behind it. -/
theorem readLoop_ok {bytes : Bytes} (some_bytes : bytes ≠ []) (waits : Bool) (reads : List Read)
    (conn : TcpConnection) :
    conn.readLoop waits (.ok bytes :: reads) [] 0 =
      if (conn.afterChunk bytes).2.1 = [] then (conn.afterChunk bytes).1.readLoop waits reads [] 0
      else ((conn.afterChunk bytes).1, reads, some (.produced (conn.afterChunk bytes).2.1)) := by
  rw [readLoop, if_neg some_bytes]
  change (if (conn.afterChunk bytes).2.1 ≠ [] then _ else
    (conn.afterChunk bytes).1.readLoop waits reads (conn.afterChunk bytes).2.1
      (conn.afterChunk bytes).2.2) = _
  by_cases nothing : (conn.afterChunk bytes).2.1 = []
  · have counted : (conn.afterChunk bytes).2.2 = 0 := BatchBuilder.drainLoop_bytes nothing
    rw [if_neg (not_not.mpr nothing), if_pos nothing, nothing, counted]
  · rw [if_pos nothing, if_neg nothing]
    rfl

theorem readLoop_advance {waits : Bool} {reads rest : List Read} {conn conn' : TcpConnection}
    {outcome : Option ReadOutcome} (ready : Ready conn)
    (read : conn.readLoop waits reads [] 0 = (conn', rest, outcome)) :
    Advance ⟨conn, reads⟩ ⟨conn', rest⟩ (ReadOutcome.handedOut outcome) ∧
      (outcome = none → Ready conn') := by
  induction reads generalizing conn with
  | nil =>
    cases read
    exact ⟨.refl _, fun _ => ready⟩
  | cons first reads ih =>
    cases first with
    | failed =>
      have none_built : conn.bare.absorb .failed = (conn.bare, []) := rfl
      cases read
      exact ⟨.skip none_built _, fun none_left => by cases none_left⟩
    | wouldBlock =>
      have none_built : conn.bare.absorb .wouldBlock = (conn.bare, []) := rfl
      unfold readLoop at read
      cases waits with
      | true =>
        obtain ⟨later, still⟩ := ih ready read
        exact ⟨(Advance.skip none_built reads).trans later, still⟩
      | false =>
        cases read
        exact ⟨.skip none_built _, fun none_left => by cases none_left⟩
    | ok bytes =>
      by_cases ended : bytes = []
      · have none_built : conn.bare.absorb (.ok bytes) = (conn.bare, []) := by
          simp only [absorb, if_pos ended]
        rw [readLoop, if_pos ended] at read
        cases read
        exact ⟨.skip none_built _, fun none_left => by cases none_left⟩
      · rw [readLoop_ok ended] at read
        have advance := afterChunk_advance ready ended reads
        by_cases nothing : (conn.afterChunk bytes).2.1 = []
        · rw [if_pos nothing] at read
          rw [nothing] at advance
          obtain ⟨later, still⟩ := ih (afterChunk_ready ready nothing) read
          exact ⟨advance.trans later, still⟩
        · rw [if_neg nothing] at read
          cases read
          exact ⟨advance, fun none_left => by cases none_left⟩

/-- A call hands out what was pending, or what its reads give; when it waits, nothing is pending. -/
theorem readBatch_advance {waits : Bool} {reads rest : List Read} {conn conn' : TcpConnection}
    {outcome : Option ReadOutcome} (read : conn.readBatch waits reads = (conn', rest, outcome)) :
    Advance ⟨conn, reads⟩ ⟨conn', rest⟩ (ReadOutcome.handedOut outcome) ∧
      (outcome = none → Ready conn') := by
  have split := BatchBuilder.fillFromPending_split conn.batcher.batchCapacity
    conn.batcher.maxBatchBytes conn.batcher.pendingEvents [] 0
  rw [List.nil_append] at split
  unfold readBatch at read
  dsimp only [BatchBuilder.fillBatchFromPending] at read
  split at read
  · cases read
    refine ⟨⟨[], [], rfl, rfl, ?_⟩, fun none_left => by cases none_left⟩
    rw [List.append_nil]
    exact split.symm
  · rename_i nothing
    rw [not_not] at nothing
    rw [nothing, List.nil_append] at split
    have same : ({ conn with batcher := { conn.batcher with pendingEvents :=
        (BatchBuilder.fillFromPending conn.batcher.batchCapacity conn.batcher.maxBatchBytes
          conn.batcher.pendingEvents [] 0).1 } } : TcpConnection) = conn := by
      rw [split]
    rw [same, nothing, BatchBuilder.fillFromPending_bytes nothing] at read
    exact readLoop_advance (BatchBuilder.fillFromPending_nil nothing) read

end TcpConnection

/-- The events that the completed calls returned from one connection. -/
def deliveredIn (returned : List (Nat × SourceBatch)) (connId : Nat) : List SourceEvent :=
  (returned.filter (fun entry => entry.1 == connId)).flatMap (fun entry => entry.2)

theorem deliveredIn_append (returned : List (Nat × SourceBatch)) (origin connId : Nat)
    (batch : SourceBatch) : deliveredIn (returned ++ [(origin, batch)]) connId =
      deliveredIn returned connId ++ if origin = connId then batch else [] := by
  unfold deliveredIn
  rw [List.filter_append, List.flatMap_append]
  by_cases same : origin = connId
  · simp [same]
  · simp [same]

/-- The connection as it is registered. -/
def TcpSource.freshConnection (src : TcpSource) (reg : ConnectionRegistration) : TcpConnection :=
  TcpConnection.new reg.peerAddr src.framing src.baseTags src.key src.batchCapacity
    src.maxBatchBytes

/-- The connection with this id, in the map or in the hands of the guard. -/
def Receiver.liveOf (s : Receiver) : Nat → Option Live :=
  match s.call with
  | .awaitRead connId live =>
    Function.update (fun id => s.source.connections.lookup id) connId (some live)
  | _ => fun id => s.source.connections.lookup id

/-- Of the reads of the connection some are consumed. Their events are the delivered ones and
    those that are pending; a connection that is still there has exactly these pending and exactly
    the other reads before it. -/
def Ledger (fresh : TcpConnection) (reg : ConnectionRegistration) (delivered : List SourceEvent)
    (live : Option Live) : Prop :=
  ∃ consumed rest pending, reg.stream = consumed ++ rest ∧
    (fresh.eventsOf consumed).2 = delivered ++ pending ∧
    ∀ there, live = some there → there.stream = rest ∧
      there.conn.batcher.pendingEvents = pending ∧ (fresh.eventsOf consumed).1 = there.conn.bare

namespace Ledger
variable {fresh : TcpConnection} {reg : ConnectionRegistration} {delivered : List SourceEvent}

theorem new (no_pending : fresh.batcher.pendingEvents = []) :
    Ledger fresh reg [] (some ⟨fresh, reg.stream⟩) := by
  refine ⟨[], reg.stream, [], rfl, rfl, ?_⟩
  rintro there same
  cases same
  refine ⟨rfl, no_pending, ?_⟩
  simp only [TcpConnection.eventsOf, TcpConnection.bare]
  rw [← no_pending]

theorem gone {live : Option Live} (ledger : Ledger fresh reg delivered live) :
    Ledger fresh reg delivered none := by
  obtain ⟨consumed, rest, pending, split, events, -⟩ := ledger
  exact ⟨consumed, rest, pending, split, events, fun _ absent => by cases absent⟩

theorem unseen : Ledger fresh reg [] none :=
  ⟨[], reg.stream, [], rfl, rfl, fun _ absent => by cases absent⟩

theorem advance {live live' : Live} {out : SourceBatch}
    (ledger : Ledger fresh reg delivered (some live)) (advance : Advance live live' out) :
    Ledger fresh reg (delivered ++ out) (some live') := by
  obtain ⟨consumed, rest, pending, split, events, state⟩ := ledger
  obtain ⟨stream_eq, pending_eq, conn_eq⟩ := state live rfl
  obtain ⟨used, more, reads, feeds, balance⟩ := advance
  refine ⟨consumed ++ used, live'.stream, live'.conn.batcher.pendingEvents, ?_, ?_, ?_⟩
  · rw [split, ← stream_eq, reads, List.append_assoc]
  · rw [TcpConnection.eventsOf_append, conn_eq, feeds]
    dsimp only
    rw [events, ← pending_eq, List.append_assoc, balance, List.append_assoc]
  · rintro there same
    cases same
    refine ⟨rfl, rfl, ?_⟩
    rw [TcpConnection.eventsOf_append, conn_eq, feeds]

end Ledger

/-- The ledgers of all connections that were ever accepted. -/
structure Accounts (fresh : ConnectionRegistration → TcpConnection)
    (regs : List ConnectionRegistration) (src : TcpSource) (returned : List (Nat × SourceBatch))
    (view : Nat → Option Live) : Prop where
  params : src.freshConnection = fresh
  one_id : ∀ reg ∈ regs, ∀ other ∈ regs, reg.connectionId = other.connectionId → reg = other
  ledgers : ∀ reg ∈ regs, Ledger (fresh reg) reg (deliveredIn returned reg.connectionId)
    (view reg.connectionId)
  queued : ∀ reg ∈ src.connectionRx, reg ∈ regs ∧ deliveredIn returned reg.connectionId = []
  returned_known : ∀ entry ∈ returned, ∃ reg ∈ regs, reg.connectionId = entry.1
  live_known : ∀ id live, view id = some live → ∃ reg ∈ regs, reg.connectionId = id

namespace Accounts
variable {fresh : ConnectionRegistration → TcpConnection} {regs : List ConnectionRegistration}
  {src src' : TcpSource} {returned : List (Nat × SourceBatch)} {view : Nat → Option Live}

/-- Only the parameters and the channel of the source matter. -/
theorem congr (accounts : Accounts fresh regs src returned view)
    (params : src'.freshConnection = src.freshConnection)
    (queue : ∀ reg ∈ src'.connectionRx, reg ∈ src.connectionRx) :
    Accounts fresh regs src' returned view :=
  { accounts with
    params := params.trans accounts.params
    queued := fun reg mem => accounts.queued reg (queue reg mem) }

/-- The connection moves on and hands out a batch. -/
theorem deliver (accounts : Accounts fresh regs src returned view) {connId : Nat}
    {live live' : Live} {out : SourceBatch} (there : view connId = some live)
    (advance : Advance live live' out) (not_queued : connId ∉ src.queuedIds) :
    Accounts fresh regs src (returned ++ [(connId, out)])
      (Function.update view connId (some live')) := by
  obtain ⟨known, known_in, known_id⟩ := accounts.live_known connId live there
  constructor
  · exact accounts.params
  · exact accounts.one_id
  · intro reg mem
    rw [deliveredIn_append]
    have ledger := accounts.ledgers reg mem
    by_cases same : connId = reg.connectionId
    · rw [if_pos same, same, Function.update_self]
      rw [← same, there] at ledger
      rw [← same]
      exact ledger.advance advance
    · rw [if_neg same, List.append_nil, Function.update_of_ne (Ne.symm same)]
      exact ledger
  · intro reg mem
    obtain ⟨reg_in, none_yet⟩ := accounts.queued reg mem
    refine ⟨reg_in, ?_⟩
    have other : connId ≠ reg.connectionId := by
      rintro rfl
      exact not_queued (List.mem_map_of_mem mem)
    rw [deliveredIn_append, if_neg other, none_yet, List.append_nil]
  · intro entry mem
    rcases List.mem_append.mp mem with before | now
    · exact accounts.returned_known entry before
    · rw [List.mem_singleton] at now
      rw [now]
      exact ⟨known, known_in, known_id⟩
  · intro id present held
    by_cases same : id = connId
    · rw [same]
      exact ⟨known, known_in, known_id⟩
    · rw [Function.update_of_ne same] at held
      exact accounts.live_known id present held

/-- The connection moves on and hands out nothing. -/
theorem move (accounts : Accounts fresh regs src returned view) {connId : Nat} {live live' : Live}
    (there : view connId = some live) (advance : Advance live live' []) :
    Accounts fresh regs src returned (Function.update view connId (some live')) := by
  constructor
  · exact accounts.params
  · exact accounts.one_id
  · intro reg mem
    have ledger := accounts.ledgers reg mem
    by_cases same : connId = reg.connectionId
    · rw [same, Function.update_self]
      rw [← same, there] at ledger
      have moved := ledger.advance advance
      rw [List.append_nil, same] at moved
      exact moved
    · rw [Function.update_of_ne (Ne.symm same)]
      exact ledger
  · exact accounts.queued
  · exact accounts.returned_known
  · intro id present held
    by_cases same : id = connId
    · rw [same]
      exact accounts.live_known connId live there
    · rw [Function.update_of_ne same] at held
      exact accounts.live_known id present held

/-- The connection is gone. -/
theorem leave (accounts : Accounts fresh regs src returned view) (connId : Nat) :
    Accounts fresh regs src returned (Function.update view connId none) := by
  constructor
  · exact accounts.params
  · exact accounts.one_id
  · intro reg mem
    by_cases same : reg.connectionId = connId
    · rw [same, Function.update_self, ← same]
      exact (accounts.ledgers reg mem).gone
    · rw [Function.update_of_ne same]
      exact accounts.ledgers reg mem
  · exact accounts.queued
  · exact accounts.returned_known
  · intro id present held
    by_cases same : id = connId
    · rw [same, Function.update_self] at held
      cases held
    · rw [Function.update_of_ne same] at held
      exact accounts.live_known id present held

/-- All connections are gone. -/
theorem clear (accounts : Accounts fresh regs src returned view) :
    Accounts fresh regs src returned (fun _ => none) :=
  { accounts with
    ledgers := fun reg mem => (accounts.ledgers reg mem).gone
    live_known := fun _ _ held => by cases held }

/-- A connection from the channel enters the map. -/
theorem register (accounts : Accounts fresh regs src returned view) {reg : ConnectionRegistration}
    (mem : reg ∈ regs) (none_yet : deliveredIn returned reg.connectionId = []) :
    Accounts fresh regs src returned
      (Function.update view reg.connectionId (some ⟨fresh reg, reg.stream⟩)) := by
  constructor
  · exact accounts.params
  · exact accounts.one_id
  · intro other other_mem
    by_cases same : other.connectionId = reg.connectionId
    · rw [accounts.one_id other other_mem reg mem same, Function.update_self, none_yet]
      refine Ledger.new ?_
      rw [← accounts.params]
      rfl
    · rw [Function.update_of_ne same]
      exact accounts.ledgers other other_mem
  · exact accounts.queued
  · exact accounts.returned_known
  · intro id present held
    by_cases same : id = reg.connectionId
    · exact ⟨reg, mem, same.symm⟩
    · rw [Function.update_of_ne same] at held
      exact accounts.live_known id present held

/-- From an unknown connection nothing was returned. -/
theorem none_returned (accounts : Accounts fresh regs src returned view) {connId : Nat}
    (new_id : ∀ other ∈ regs, other.connectionId ≠ connId) : deliveredIn returned connId = [] := by
  unfold deliveredIn
  rw [List.filter_eq_nil_iff.mpr, List.flatMap_nil]
  intro entry mem same
  obtain ⟨other, other_mem, id_eq⟩ := accounts.returned_known entry mem
  exact new_id other other_mem (id_eq.trans (beq_iff_eq.mp same))

/-- The listener has accepted one more connection. -/
theorem accept (accounts : Accounts fresh regs src returned view) {reg : ConnectionRegistration}
    (new_id : ∀ other ∈ regs, other.connectionId ≠ reg.connectionId) :
    Accounts fresh (regs ++ [reg]) src returned view := by
  have none_returned := accounts.none_returned new_id
  have none_live : view reg.connectionId = none := by
    cases held : view reg.connectionId with
    | none => rfl
    | some live =>
      obtain ⟨other, other_mem, id_eq⟩ := accounts.live_known _ live held
      exact absurd id_eq (new_id other other_mem)
  constructor
  · exact accounts.params
  · intro one one_mem other other_mem same
    rw [List.mem_append, List.mem_singleton] at one_mem other_mem
    rcases one_mem with one_mem | rfl
    · rcases other_mem with other_mem | rfl
      · exact accounts.one_id one one_mem other other_mem same
      · exact absurd same (new_id one one_mem)
    · rcases other_mem with other_mem | rfl
      · exact absurd same.symm (new_id other other_mem)
      · rfl
  · intro other mem
    rcases List.mem_append.mp mem with before | now
    · exact accounts.ledgers other before
    · rw [List.mem_singleton] at now
      rw [now, none_returned, none_live]
      exact Ledger.unseen
  · intro other mem
    exact ⟨List.mem_append_left _ (accounts.queued other mem).1, (accounts.queued other mem).2⟩
  · intro entry mem
    obtain ⟨other, other_mem, id_eq⟩ := accounts.returned_known entry mem
    exact ⟨other, List.mem_append_left _ other_mem, id_eq⟩
  · intro id live held
    obtain ⟨other, other_mem, id_eq⟩ := accounts.live_known id live held
    exact ⟨other, List.mem_append_left _ other_mem, id_eq⟩

end Accounts

theorem lookup_insert_eq (connections : AList (fun _ : Nat => Live)) (connId : Nat) (live : Live) :
    (fun id => (connections.insert connId live).lookup id) =
      Function.update (fun id => connections.lookup id) connId (some live) := by
  funext id
  by_cases same : id = connId
  · rw [same, Function.update_self]
    exact AList.lookup_insert _
  · rw [Function.update_of_ne same]
    exact AList.lookup_insert_ne same

theorem lookup_erase_eq (connections : AList (fun _ : Nat => Live)) (connId : Nat) :
    (fun id => (connections.erase connId).lookup id) =
      Function.update (fun id => connections.lookup id) connId none := by
  funext id
  by_cases same : id = connId
  · rw [same, Function.update_self]
    exact AList.lookup_erase _ _
  · rw [Function.update_of_ne same]
    exact AList.lookup_erase_ne same

namespace Receiver
variable {fresh : ConnectionRegistration → TcpConnection} {regs : List ConnectionRegistration}

/-- The accounts of the receiver; a connection whose socket is awaited has nothing to hand out. -/
structure Accounted (fresh : ConnectionRegistration → TcpConnection)
    (regs : List ConnectionRegistration) (s : Receiver) : Prop where
  accounts : Accounts fresh regs s.source s.returned s.liveOf
  ready : ∀ connId live, s.call = .awaitRead connId live → live.conn.Ready

/-- A guard holds `live` under `connId`; the accounts count it as there. -/
def AccountedWith (fresh : ConnectionRegistration → TcpConnection)
    (regs : List ConnectionRegistration) (s : Receiver) (connId : Nat) (live : Live) : Prop :=
  Accounts fresh regs s.source s.returned
    (Function.update (fun id => s.source.connections.lookup id) connId (some live))

theorem AccountedWith.moved {s : Receiver} {connId : Nat} {live live' : Live}
    (accounts : AccountedWith fresh regs s connId live) (advance : Advance live live' []) :
    AccountedWith fresh regs s connId live' := by
  have moved := Accounts.move accounts (Function.update_self ..) advance
  rw [Function.update_idem] at moved
  exact moved

theorem AccountedWith.pushed {s : Receiver} {connId : Nat} {live : Live}
    (accounts : AccountedWith fresh regs s connId live) :
    Accounts fresh regs (s.source.pushConnectionBack connId live) s.returned
      (fun id => (s.source.pushConnectionBack connId live).connections.lookup id) := by
  have pushed : Accounts fresh regs (s.source.pushConnectionBack connId live) s.returned _ :=
    Accounts.congr accounts rfl (fun _ mem => mem)
  simp only [TcpSource.pushConnectionBack, lookup_insert_eq]
  exact pushed

theorem AccountedWith.deregistered {s : Receiver} {connId : Nat} {live : Live}
    (accounts : AccountedWith fresh regs s connId live) :
    Accounts fresh regs (s.source.deregisterConnection connId) s.returned
      (fun id => (s.source.deregisterConnection connId).connections.lookup id) := by
  have left := Accounts.leave accounts connId
  rw [Function.update_idem] at left
  simp only [TcpSource.deregisterConnection, lookup_erase_eq]
  exact left.congr rfl (fun _ mem => mem)

theorem AccountedWith.dispose {s : Receiver} {connId : Nat} {live live' : Live}
    (accounts : AccountedWith fresh regs s connId live) (taken : Taken s connId)
    {outcome : ReadOutcome} (advance : Advance live live' (ReadOutcome.handedOut (some outcome))) :
    Accounted fresh regs (s.dispose connId live' outcome) := by
  cases outcome with
  | disconnect detail => exact ⟨accounts.deregistered, fun _ _ waits => by cases waits⟩
  | closed => exact ⟨accounts.deregistered, fun _ _ waits => by cases waits⟩
  | noData => exact ⟨(accounts.moved advance).pushed, fun _ _ waits => by cases waits⟩
  | produced batch =>
    unfold Receiver.dispose
    dsimp only
    split
    · rename_i empty
      subst empty
      exact ⟨(accounts.moved advance).pushed, fun _ _ waits => by cases waits⟩
    · have not_queued : connId ∉ s.source.queuedIds := by
        intro queued
        have apart := (List.nodup_append.mp taken.distinct).2.2
        exact apart connId queued connId (by simp) rfl
      have delivered := Accounts.deliver accounts (Function.update_self ..) advance not_queued
      rw [Function.update_idem] at delivered
      refine ⟨?_, fun _ _ waits => by cases waits⟩
      exact AccountedWith.pushed (s := { s with returned := s.returned ++ [(connId, batch)] }) delivered

theorem AccountedWith.waiting {s : Receiver} {connId : Nat} {live live' : Live}
    (accounts : AccountedWith fresh regs s connId live) (advance : Advance live live' [])
    (ready : live'.conn.Ready) : Accounted fresh regs { s with call := .awaitRead connId live' } := by
  refine ⟨accounts.moved advance, ?_⟩
  intro id there waits
  cases waits
  exact ready

/-- A call without reads leaves the stream alone. -/
theorem readBatch_nil {waits : Bool} {live : Live} {conn : TcpConnection} {rest : List Read}
    {outcome : Option ReadOutcome} (read : live.conn.readBatch waits [] = (conn, rest, outcome)) :
    Advance live ⟨conn, live.stream⟩ (ReadOutcome.handedOut outcome) := by
  have advance := (TcpConnection.readBatch_advance read).1
  have none_left : rest = [] := by
    obtain ⟨used, -, split, -⟩ := advance
    exact (List.append_eq_nil_iff.mp split.symm).2
  rw [none_left] at advance
  exact advance.frame live.stream

theorem AccountedWith.blockingRead {s : Receiver} {connId : Nat} {live : Live}
    (accounts : AccountedWith fresh regs s connId live) (taken : Taken s connId) :
    Accounted fresh regs (s.blockingRead connId live) := by
  unfold Receiver.blockingRead
  split
  · rename_i conn rest outcome read
    exact accounts.dispose taken (readBatch_nil read)
  · rename_i conn rest read
    exact accounts.waiting (readBatch_nil read) ((TcpConnection.readBatch_advance read).2 rfl)

theorem AccountedWith.guardRead {s : Receiver} {connId : Nat} {live : Live}
    (accounts : AccountedWith fresh regs s connId live) (taken : Taken s connId) :
    Accounted fresh regs (s.guardRead connId live) := by
  unfold Receiver.guardRead
  split
  · rename_i conn stream read
    exact (accounts.moved (TcpConnection.readBatch_advance read).1).blockingRead taken
  · rename_i conn stream read
    exact (accounts.moved (TcpConnection.readBatch_advance read).1).blockingRead taken
  · rename_i conn stream outcome _ read
    exact accounts.dispose taken (TcpConnection.readBatch_advance read).1

theorem readLoop_single {conn conn' : TcpConnection} {read : Read} {rest : List Read}
    {outcome : Option ReadOutcome}
    (result : conn.readLoop true [read] [] 0 = (conn', rest, outcome)) : rest = [] := by
  cases read with
  | failed =>
    cases result
    rfl
  | wouldBlock =>
    cases result
    rfl
  | ok bytes =>
    unfold TcpConnection.readLoop at result
    dsimp only at result
    split at result
    · cases result
      rfl
    · split at result
      · cases result
        rfl
      · cases result
        rfl

theorem Accounted.held {s : Receiver} {connId : Nat} {live : Live}
    (accounted : Accounted fresh regs s) (waits : s.call = .awaitRead connId live) :
    AccountedWith fresh regs s connId live := by
  have accounts := accounted.accounts
  unfold liveOf at accounts
  rw [waits] at accounts
  exact accounts

theorem Accounted.readable {s : Receiver} {connId : Nat} {live : Live}
    (accounted : Accounted fresh regs s) (kept : Bookkept s)
    (waits : s.call = .awaitRead connId live) : Accounted fresh regs (s.readable connId live) := by
  have accounts := accounted.held waits
  have ready := accounted.ready connId live waits
  unfold Receiver.readable
  cases shape : live.stream with
  | nil => exact accounted
  | cons read stream =>
    dsimp only
    cases result : live.conn.readLoop true [read] [] 0 with
    | mk conn after =>
      obtain ⟨rest, outcome⟩ := after
      obtain ⟨advance, still⟩ := TcpConnection.readLoop_advance ready result
      rw [readLoop_single result] at advance
      have framed := advance.frame stream
      have live_eq : live = ⟨live.conn, [read] ++ stream⟩ := by
        rw [List.singleton_append, ← shape]
      rw [← live_eq] at framed
      cases outcome with
      | none => exact accounts.waiting framed (still rfl)
      | some outcome => exact accounts.dispose (kept.taken waits) framed

theorem liveOf_free {s : Receiver} (none_held : s.held = []) :
    s.liveOf = fun id => s.source.connections.lookup id := by
  cases call : s.call with
  | awaitRead connId live =>
    unfold Receiver.held at none_held
    rw [call] at none_held
    cases none_held
  | idle => simp only [liveOf, call]
  | looping => simp only [liveOf, call]
  | awaitConnection => simp only [liveOf, call]

theorem Accounted.free {s : Receiver} (accounted : Accounted fresh regs s) (none_held : s.held = []) :
    Accounts fresh regs s.source s.returned (fun id => s.source.connections.lookup id) := by
  rw [← liveOf_free none_held]
  exact accounted.accounts

/-- The registration of connections from the channel. -/
theorem accounts_foldl_register {returned : List (Nat × SourceBatch)}
    (queue : List ConnectionRegistration) (src : TcpSource)
    (known : ∀ reg ∈ queue, reg ∈ regs ∧ deliveredIn returned reg.connectionId = [])
    (accounts : Accounts fresh regs src returned (fun id => src.connections.lookup id)) :
    Accounts fresh regs (queue.foldl TcpSource.registerConnection src) returned
      (fun id => (queue.foldl TcpSource.registerConnection src).connections.lookup id) := by
  induction queue generalizing src with
  | nil => exact accounts
  | cons reg rest ih =>
    obtain ⟨reg_in, none_yet⟩ := known reg List.mem_cons_self
    refine ih (src.registerConnection reg) (fun r mem => known r (List.mem_cons_of_mem _ mem)) ?_
    have registered := accounts.register reg_in none_yet
    rw [← accounts.params] at registered ⊢
    simp only [TcpSource.registerConnection, lookup_insert_eq]
    exact registered.congr rfl (fun _ mem => mem)

theorem Accounted.drained {s : Receiver} (accounted : Accounted fresh regs s)
    (none_held : s.held = []) :
    Accounts fresh regs s.drained.source s.returned
      (fun id => s.drained.source.connections.lookup id) := by
  have accounts := accounted.free none_held
  refine accounts_foldl_register s.source.connectionRx _ accounts.queued ?_
  exact accounts.congr rfl (fun _ mem => by cases mem)

theorem Accounted.turn {s : Receiver} (accounted : Accounted fresh regs s) (kept : Bookkept s)
    (none_held : s.held = []) : Accounted fresh regs s.turn := by
  have accounts := accounted.drained none_held
  rcases kept.turn_cases none_held with ⟨-, waits⟩ | ⟨connId, order, live, shape, found, reads⟩
  · rw [waits]
    refine ⟨accounts.congr rfl (fun _ mem => mem), ?_⟩
    intro id live held
    cases held
  · rw [reads]
    have taken := (kept.drained none_held).unlogged.take none_held shape
    refine AccountedWith.guardRead ?_ taken
    have there : Function.update (fun id => (s.drained.source.connections.erase connId).lookup id)
        connId (some live) = fun id => s.drained.source.connections.lookup id := by
      rw [lookup_erase_eq, Function.update_idem]
      exact Function.update_eq_self_iff.mpr found.symm
    unfold AccountedWith
    rw [← there] at accounts
    exact accounts.congr rfl (fun _ mem => mem)

/-- The connections that the listener accepts. -/
def acceptedReg : Step → Option ConnectionRegistration
  | .accept _ reg _ => some reg
  | _ => none

theorem acceptedId_eq (label : Step) :
    acceptedId label = (acceptedReg label).map (·.connectionId) := by
  cases label <;> rfl

theorem Accounted.accept {s : Receiver} (accounted : Accounted fresh regs s) (maxConnections : Nat)
    (reg : ConnectionRegistration) (dispatched : Bool)
    (new_id : ∀ other ∈ regs, other.connectionId ≠ reg.connectionId) :
    Accounted fresh (regs ++ [reg])
      { s with source := Receiver.accept s.source maxConnections reg dispatched } := by
  have accounts := accounted.accounts.accept new_id
  refine ⟨?_, accounted.ready⟩
  unfold Receiver.accept
  split
  · exact accounts
  · cases dispatched with
    | false => exact accounts.congr rfl (fun _ mem => mem)
    | true =>
      refine { accounts with queued := ?_ }
      intro queued mem
      rcases List.mem_append.mp mem with before | now
      · exact accounts.queued queued before
      · rw [List.mem_singleton] at now
        rw [now]
        exact ⟨by simp, accounted.accounts.none_returned new_id⟩

theorem Accounted.connectionArrived {s : Receiver} (accounted : Accounted fresh regs s)
    (waits : s.call = .awaitConnection) : Accounted fresh regs s.connectionArrived := by
  have none_held : s.held = [] := by simp only [Receiver.held, waits]
  have accounts := accounted.free none_held
  unfold Receiver.connectionArrived
  split
  · rename_i reg rest queue
    have known : ∀ r ∈ [reg], r ∈ regs ∧ deliveredIn s.returned r.connectionId = [] := by
      intro r mem
      rw [List.mem_singleton] at mem
      rw [mem]
      refine accounts.queued reg ?_
      rw [queue]
      exact List.mem_cons_self
    have rest_known : Accounts fresh regs { s.source with connectionRx := rest } s.returned
        (fun id => s.source.connections.lookup id) := by
      refine accounts.congr rfl ?_
      intro r mem
      rw [queue]
      exact List.mem_cons_of_mem _ mem
    exact ⟨accounts_foldl_register [reg] _ known rest_known, fun _ _ held => by cases held⟩
  · split
    · exact accounted
    · exact ⟨accounts, fun _ _ held => by cases held⟩

theorem Accounted.dropCall {s : Receiver} (accounted : Accounted fresh regs s) :
    Accounted fresh regs s.dropCall := by
  unfold Receiver.dropCall
  cases call : s.call with
  | idle => exact accounted
  | looping => exact accounted
  | awaitConnection =>
    have none_held : s.held = [] := by simp only [Receiver.held, call]
    exact ⟨accounted.free none_held, fun _ _ held => by cases held⟩
  | awaitRead connId live =>
    exact ⟨(accounted.held call).pushed, fun _ _ held => by cases held⟩

/-- The listener's accept aside, no step brings a new connection. -/
theorem Accounted.step_known {s : Receiver} (accounted : Accounted fresh regs s)
    (kept : Bookkept s) {label : Step} (none_accepted : acceptedReg label = none) :
    Accounted fresh regs (s.step label) := by
  cases label with
  | accept maxConnections reg dispatched => cases none_accepted
  | start =>
    unfold Receiver.step
    dsimp only
    split
    · exact ⟨accounted.accounts.congr rfl (fun _ mem => mem), accounted.ready⟩
    · exact accounted
  | close =>
    unfold Receiver.step
    dsimp only
    split
    · rename_i idle
      have none_held : ({ s with source := s.source.close } : Receiver).held = [] := by
        simp only [Receiver.held, idle]
      refine ⟨?_, accounted.ready⟩
      rw [liveOf_free none_held]
      exact accounted.accounts.clear.congr rfl (fun _ mem => mem)
    · exact accounted
  | receive =>
    unfold Receiver.step
    dsimp only
    split
    · rename_i calls
      have none_held : s.held = [] := by simp only [Receiver.held, calls.1]
      exact ⟨accounted.free none_held, fun _ _ held => by cases held⟩
    · exact accounted
  | turn =>
    unfold Receiver.step
    dsimp only
    split
    · rename_i looping
      exact accounted.turn kept (by simp only [Receiver.held, looping])
    · exact accounted
  | connectionArrived =>
    unfold Receiver.step
    dsimp only
    split
    · rename_i waits
      exact accounted.connectionArrived waits
    · exact accounted
  | readable =>
    unfold Receiver.step
    dsimp only
    split
    · rename_i connId live waits
      exact accounted.readable kept waits
    · exact accounted
  | readableFailed =>
    unfold Receiver.step
    dsimp only
    split
    · rename_i connId live waits
      exact (accounted.held waits).dispose (kept.taken waits) (.refl live)
    · exact accounted
  | drop => exact accounted.dropCall
  | hangUp => exact ⟨accounted.accounts.congr rfl (fun _ mem => mem), accounted.ready⟩
  | otherInserts connId => exact ⟨accounted.accounts.congr rfl (fun _ mem => mem), accounted.ready⟩
  | otherRemoves connId => exact ⟨accounted.accounts.congr rfl (fun _ mem => mem), accounted.ready⟩

theorem Accounted.step {s : Receiver} (accounted : Accounted fresh regs s) (kept : Bookkept s)
    (label : Step) (new_id : ∀ reg ∈ regs, acceptedId label ≠ some reg.connectionId) :
    Accounted fresh (regs ++ (acceptedReg label).toList) (s.step label) := by
  cases accepted : acceptedReg label with
  | none =>
    rw [Option.toList_none, List.append_nil]
    exact accounted.step_known kept accepted
  | some reg =>
    cases label with
    | accept maxConnections reg' dispatched =>
      cases accepted
      refine accounted.accept maxConnections reg dispatched ?_
      intro other mem same
      exact new_id other mem (congrArg some same.symm)
    | _ => cases accepted

theorem run_accounted {s : Receiver} (accounted : Accounted fresh regs s) (kept : Bookkept s)
    (steps : List Step) (distinct : DistinctIds steps) (unseen : Fresh s steps)
    (new_ids : ∀ reg ∈ regs, reg.connectionId ∉ steps.filterMap acceptedId) :
    Accounted fresh (regs ++ steps.filterMap acceptedReg) (Runs.run Receiver.step s steps) := by
  induction steps generalizing s regs with
  | nil => simpa using accounted
  | cons label rest ih =>
    have effect := step_effect kept label unseen.head
    have stepped := accounted.step kept label (by
      intro reg mem accepted
      refine new_ids reg mem ?_
      rw [List.filterMap_cons_some accepted]
      exact List.mem_cons_self)
    have later := ih stepped effect.kept distinct.tail (effect.fresh distinct unseen) (by
      intro reg mem
      rcases List.mem_append.mp mem with before | now
      · intro again
        exact new_ids reg before (((List.sublist_cons_self label rest).filterMap _).subset again)
      · refine (distinct.head ?_).1
        rw [acceptedId_eq, Option.mem_toList.mp now]
        rfl)
    have split : regs ++ (label :: rest).filterMap acceptedReg =
        regs ++ (acceptedReg label).toList ++ rest.filterMap acceptedReg := by
      cases accepted : acceptedReg label with
      | none => simp [accepted]
      | some reg => simp [accepted]
    rw [split]
    exact later

/-- What the completed calls have returned from a connection is its event sequence up to the
    reads that were made, less what is still pending in the connection; no call that was dropped
    has taken anything from it. -/
theorem delivered_events (key : String) (baseTags : List (String × String)) (framing : FramingMode)
    (batchCapacity maxBatchBytes : Nat) (steps : List Step) (distinct : DistinctIds steps) :
    let source := TcpSource.new key baseTags framing batchCapacity maxBatchBytes
    let s := Runs.run Receiver.step (ofSource source) steps
    ∀ reg ∈ steps.filterMap acceptedReg,
      Ledger (source.freshConnection reg) reg (deliveredIn s.returned reg.connectionId)
        (s.liveOf reg.connectionId) := by
  intro source s reg accepted
  have kept := ofSource_bookkept key baseTags framing batchCapacity maxBatchBytes
  have start : Accounted source.freshConnection [] (ofSource source) := by
    constructor
    · constructor
      · rfl
      · intro r mem
        cases mem
      · intro r mem
        cases mem
      · intro r mem
        cases mem
      · intro entry mem
        cases mem
      · intro id live held
        cases held
    · intro connId live waits
      cases waits
  have unseen : Fresh (ofSource source) steps := by
    intro id known
    cases known
  have accounted := run_accounted start kept steps distinct unseen (fun r mem => by cases mem)
  exact accounted.accounts.ledgers reg (by simpa using accepted)

end Receiver

end Tcp

end WarpMotor
