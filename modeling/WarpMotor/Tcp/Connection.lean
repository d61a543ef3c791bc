import WarpMotor.Lib.Fuel
import WarpMotor.Tcp.Segmentation

/-!
One TCP connection from its reads to its batches. A call of `try_read_batch`
or `read_batch` first hands out what an earlier call left in `pendingEvents`;
only then does it read, and it drains the buffer once for each read. A drain
stops at a full batch: one more frame goes to `pendingEvents`, all others stay
in the buffer until the next read. The capacity of the byte buffer, which
`maybe_shrink` changes, is not modelled.
-/
namespace WarpMotor

open Framing

namespace Tcp

/-- What the socket gives to one read; no bytes is the end of the stream. -/
inductive Read where
  | ok (bytes : Bytes)
  | wouldBlock
  | failed
  deriving DecidableEq, Repr

inductive ReadOutcome where
  | noData
  | produced (batch : SourceBatch)
  | closed
  | disconnect (detail : String)
  deriving DecidableEq, Repr

/-- `nextEventId` is the counter behind `next_event_id`. -/
structure BatchBuilder where
  buffer : Bytes
  baseTags : List (String × String)
  batchCapacity : Nat
  sourceKey : String
  pendingEvents : List SourceEvent
  maxBatchBytes : Nat
  nextEventId : Nat
  deriving DecidableEq, Repr

structure TcpConnection where
  clientAddr : String
  framing : FramingMode
  batcher : BatchBuilder
  deriving DecidableEq, Repr

namespace BatchBuilder

def new (baseTags : List (String × String)) (sourceKey : String)
    (batchCapacity maxBatchBytes : Nat) : BatchBuilder :=
  { buffer := [], baseTags, batchCapacity, sourceKey, pendingEvents := [], maxBatchBytes,
    nextEventId := 0 }

def buildEvent (b : BatchBuilder) (payload : Bytes) (peerIp : String) : SourceEvent :=
  { eventId := b.nextEventId, srcKey := b.sourceKey, payload := .bytes payload,
    tags := b.baseTags, upsIp := some peerIp }

/-- The events that stay pending, the batch and its bytes. -/
def fillFromPending (batchCapacity maxBatchBytes : Nat) :
    List SourceEvent → SourceBatch → Nat → List SourceEvent × SourceBatch × Nat
  | [], batch, producedBytes => ([], batch, producedBytes)
  | event :: rest, batch, producedBytes =>
    let eventSize := eventPayloadLen event
    let wouldExceed := maxBatchBytes < producedBytes + eventSize
    if batchCapacity ≤ batch.length then (event :: rest, batch, producedBytes)
    else if wouldExceed ∧ batch ≠ [] then (event :: rest, batch, producedBytes)
    else if wouldExceed then (rest, batch ++ [event], saturatingAdd producedBytes eventSize)
    else fillFromPending batchCapacity maxBatchBytes rest (batch ++ [event])
      (saturatingAdd producedBytes eventSize)

def fillBatchFromPending (b : BatchBuilder) (batch : SourceBatch) (producedBytes : Nat) :
    BatchBuilder × SourceBatch × Nat :=
  let filled := fillFromPending b.batchCapacity b.maxBatchBytes b.pendingEvents batch producedBytes
  ({ b with pendingEvents := filled.1 }, filled.2)

def drainLoop (framing : FramingMode) (peerIp : String) :
    Nat → BatchBuilder → SourceBatch → Nat → BatchBuilder × SourceBatch × Nat
  | 0, b, batch, producedBytes => (b, batch, producedBytes)
  | fuel + 1, b, batch, producedBytes =>
    match extractMessage framing b.buffer with
    | none => (b, batch, producedBytes)
    | some (payload, rest) =>
      let event := b.buildEvent payload peerIp
      let b := { b with buffer := rest, nextEventId := b.nextEventId + 1 }
      let eventSize := eventPayloadLen event
      let wouldExceed := b.maxBatchBytes < producedBytes + eventSize
      if b.batchCapacity ≤ batch.length then
        ({ b with pendingEvents := b.pendingEvents ++ [event] }, batch, producedBytes)
      else if wouldExceed ∧ batch ≠ [] then
        ({ b with pendingEvents := b.pendingEvents ++ [event] }, batch, producedBytes)
      else if wouldExceed then (b, batch ++ [event], saturatingAdd producedBytes eventSize)
      else drainLoop framing peerIp fuel b (batch ++ [event]) (saturatingAdd producedBytes eventSize)

def drainMessages (framing : FramingMode) (peerIp : String) (b : BatchBuilder)
    (batch : SourceBatch) (producedBytes : Nat) : BatchBuilder × SourceBatch × Nat :=
  drainLoop framing peerIp b.buffer.length b batch producedBytes

end BatchBuilder

namespace TcpConnection

/-- The loop over the reads, for `try_read_batch` and, when it waits for the socket, for
    `read_batch`; `none` while the socket has given nothing further. -/
def readLoop (waits : Bool) : List Read → TcpConnection → SourceBatch → Nat →
    TcpConnection × List Read × Option ReadOutcome
  | [], conn, _, _ => (conn, [], none)
  | .ok bytes :: reads, conn, produced, producedBytes =>
    if bytes = [] then (conn, reads, some .closed)
    else
      let batcher := { conn.batcher with buffer := conn.batcher.buffer ++ bytes }
      let drained := batcher.drainMessages conn.framing conn.clientAddr produced producedBytes
      let conn := { conn with batcher := drained.1 }
      if drained.2.1 ≠ [] then (conn, reads, some (.produced drained.2.1))
      else readLoop waits reads conn drained.2.1 drained.2.2
  | .wouldBlock :: reads, conn, produced, producedBytes =>
    if waits then readLoop waits reads conn produced producedBytes
    else if produced = [] then (conn, reads, some .noData)
    else (conn, reads, some (.produced produced))
  | .failed :: reads, conn, _, _ =>
    (conn, reads, some (.disconnect ("tcp read error (" ++ conn.clientAddr ++ ")")))

/-- `read_batch` when `waits`, `try_read_batch` otherwise. -/
def readBatch (waits : Bool) (conn : TcpConnection) (reads : List Read) :
    TcpConnection × List Read × Option ReadOutcome :=
  let filled := conn.batcher.fillBatchFromPending [] 0
  let conn := { conn with batcher := filled.1 }
  if filled.2.1 ≠ [] then (conn, reads, some (.produced filled.2.1))
  else readLoop waits reads conn filled.2.1 filled.2.2

/-- Calls until the connection is closed; `waits` says which function the `n`-th call is. The
    result is the batches and the connection as it is then. -/
def session (waits : Nat → Bool) : Nat → Nat → TcpConnection → List Read →
    Option (List SourceBatch × TcpConnection)
  | 0, _, _, _ => none
  | fuel + 1, call, conn, reads =>
    match conn.readBatch (waits call) reads with
    | (conn, reads, some (.produced batch)) =>
      (session waits fuel (call + 1) conn reads).map (fun later => (batch :: later.1, later.2))
    | (conn, reads, some .noData) => session waits fuel (call + 1) conn reads
    | (conn, _, some .closed) => some ([], conn)
    | (_, _, some (.disconnect _)) => none
    | (_, _, none) => none

end TcpConnection

/-- The frames that one drain leaves waiting: it takes frames up to and including the first that
    does not fit the batch any more. -/
def served (capacity maxBytes : Nat) : Nat → Nat → List Bytes → List Bytes
  | _, _, [] => []
  | count, bytes, frame :: rest =>
    if capacity ≤ count ∨ maxBytes < bytes + frame.length then rest
    else served capacity maxBytes (count + 1) (saturatingAdd bytes frame.length) rest

/-- The frames that each chunk completes. -/
def arrivals (framing : FramingMode) : Bytes → List Bytes → List (List Bytes)
  | _, [] => []
  | rest, chunk :: chunks =>
    let now := StreamFraming.drain (extractMessage framing) (rest ++ chunk)
    now.1 :: arrivals framing now.2 chunks

/-- The frames still waiting when every read has been served once. -/
def backlog (capacity maxBytes : Nat) : List Bytes → List (List Bytes) → List Bytes
  | waiting, [] => waiting
  | waiting, frames :: later =>
    backlog capacity maxBytes (served capacity maxBytes 0 0 (waiting ++ frames)) later

def payloadBytes (event : SourceEvent) : Bytes :=
  match event.payload with
  | .string text => text.toUTF8.toList
  | .bytes data => data
  | .arcBytes data => data

/-- The reads of a stream: chunks, `WouldBlock` in between, then the end. -/
def readsOf (chunks : List (Option Bytes)) : List Read :=
  chunks.map (fun chunk => match chunk with
    | some bytes => .ok bytes
    | none => .wouldBlock) ++ [.ok []]

/-- What one drain does: it takes the events `taken` off the buffer, at most one of them stays
    pending, and the frames that `served` names wait in the buffer. -/
structure DrainEffect (framing : FramingMode) (b : BatchBuilder) (batch : SourceBatch)
    (producedBytes : Nat) (d : BatchBuilder × SourceBatch × Nat) : Prop where
  same_capacity : d.1.batchCapacity = b.batchCapacity
  same_bytes : d.1.maxBatchBytes = b.maxBatchBytes
  left : StreamFraming.drain (extractMessage framing) d.1.buffer =
    (served b.batchCapacity b.maxBatchBytes batch.length producedBytes
      (StreamFraming.drain (extractMessage framing) b.buffer).1,
      (StreamFraming.drain (extractMessage framing) b.buffer).2)
  moved : ∃ surplus, d.1.pendingEvents = b.pendingEvents ++ surplus ∧ surplus.length ≤ 1 ∧
    (d.2.1 ++ surplus).map payloadBytes ++ served b.batchCapacity b.maxBatchBytes batch.length
        producedBytes (StreamFraming.drain (extractMessage framing) b.buffer).1 =
      batch.map payloadBytes ++ (StreamFraming.drain (extractMessage framing) b.buffer).1
  grows : batch.length ≤ d.2.1.length
  starts : batch = [] → 1 ≤ b.batchCapacity →
    (StreamFraming.drain (extractMessage framing) b.buffer).1 ≠ [] → d.2.1 ≠ []

theorem DrainEffect.idle {framing : FramingMode} {b : BatchBuilder}
    (waits : extractMessage framing b.buffer = none) (batch : SourceBatch) (producedBytes : Nat) :
    DrainEffect framing b batch producedBytes (b, batch, producedBytes) := by
  have nothing := StreamFraming.drain_none waits
  constructor
  · rfl
  · rfl
  · simp [nothing, served]
  · exact ⟨[], by simp, by simp, by simp [nothing, served]⟩
  · simp
  · simp [nothing]

section FrameTaken
variable {framing : FramingMode} {b : BatchBuilder} {batch : SourceBatch} {producedBytes : Nat}
  {payload rest : Bytes}

/-- The frame no longer fits a batch that is closed to it, and becomes the pending event. -/
theorem DrainEffect.surplus (peerIp : String)
    (first : extractMessage framing b.buffer = some (payload, rest))
    (closed : b.batchCapacity ≤ batch.length ∨ b.maxBatchBytes < producedBytes + payload.length)
    (begun : 1 ≤ b.batchCapacity → batch ≠ []) :
    DrainEffect framing b batch producedBytes
      ({ b with
          buffer := rest
          nextEventId := b.nextEventId + 1
          pendingEvents := b.pendingEvents ++ [b.buildEvent payload peerIp] },
        batch, producedBytes) := by
  have frames := StreamFraming.drain_some (extractMessage_shrinks framing) first
  have bytes : payloadBytes (b.buildEvent payload peerIp) = payload := rfl
  constructor
  · rfl
  · rfl
  · simp [frames, served, closed]
  · exact ⟨[b.buildEvent payload peerIp], rfl, by simp, by simp [bytes, frames, served, closed]⟩
  · exact Nat.le_refl _
  · intro empty positive
    exact absurd empty (begun positive)

/-- A frame above the byte limit is a batch of its own when nothing came before it. -/
theorem DrainEffect.alone (peerIp : String)
    (first : extractMessage framing b.buffer = some (payload, rest))
    (exceeds : b.maxBatchBytes < producedBytes + payload.length) (total : Nat) :
    DrainEffect framing b batch producedBytes
      ({ b with buffer := rest, nextEventId := b.nextEventId + 1 },
        batch ++ [b.buildEvent payload peerIp], total) := by
  have frames := StreamFraming.drain_some (extractMessage_shrinks framing) first
  have bytes : payloadBytes (b.buildEvent payload peerIp) = payload := rfl
  constructor
  · rfl
  · rfl
  · simp [frames, served, exceeds]
  · exact ⟨[], by simp, by simp, by simp [bytes, frames, served, exceeds]⟩
  · simp
  · simp

/-- The frame joins the batch and the loop goes on behind it. -/
theorem DrainEffect.joined {peerIp : String} {d : BatchBuilder × SourceBatch × Nat}
    (first : extractMessage framing b.buffer = some (payload, rest))
    (full : ¬ b.batchCapacity ≤ batch.length)
    (exceeds : ¬ b.maxBatchBytes < producedBytes + payload.length)
    (later : DrainEffect framing { b with buffer := rest, nextEventId := b.nextEventId + 1 }
      (batch ++ [b.buildEvent payload peerIp]) (saturatingAdd producedBytes payload.length) d) :
    DrainEffect framing b batch producedBytes d := by
  have frames := StreamFraming.drain_some (extractMessage_shrinks framing) first
  have bytes : payloadBytes (b.buildEvent payload peerIp) = payload := rfl
  have step : served b.batchCapacity b.maxBatchBytes batch.length producedBytes
      (payload :: (StreamFraming.drain (extractMessage framing) rest).1) =
      served b.batchCapacity b.maxBatchBytes (batch.length + 1)
        (saturatingAdd producedBytes payload.length)
        (StreamFraming.drain (extractMessage framing) rest).1 := by
    simp [served, full, exceeds]
  have left := later.left
  have grows := later.grows
  obtain ⟨surplus, pending, few, moved⟩ := later.moved
  simp only [List.length_append, List.length_cons, List.length_nil, List.map_append,
    List.map_cons, List.map_nil, bytes, List.append_assoc, List.cons_append,
    List.nil_append] at left grows moved
  constructor
  · exact later.same_capacity
  · exact later.same_bytes
  · rw [frames, step]
    exact left
  · rw [frames, step]
    refine ⟨surplus, pending, few, ?_⟩
    rw [List.map_append, List.append_assoc]
    exact moved
  · omega
  · intro _ _ _ none_taken
    rw [none_taken, List.length_nil] at grows
    omega

end FrameTaken

theorem drainLoop_effect (framing : FramingMode) (peerIp : String) (fuel : Nat) (b : BatchBuilder)
    (batch : SourceBatch) (producedBytes : Nat) (enough : b.buffer.length ≤ fuel) :
    DrainEffect framing b batch producedBytes
      (b.drainLoop framing peerIp fuel batch producedBytes) := by
  have shrinks := extractMessage_shrinks framing
  induction fuel generalizing b batch producedBytes with
  | zero =>
    have empty : b.buffer = [] := List.eq_nil_of_length_eq_zero (by omega)
    apply DrainEffect.idle
    rw [empty]
    exact shrinks.nil
  | succ fuel ih =>
    cases first : extractMessage framing b.buffer with
    | none =>
      simp only [BatchBuilder.drainLoop, first]
      exact DrainEffect.idle first batch producedBytes
    | some found =>
      obtain ⟨payload, rest⟩ := found
      have shorter := shrinks b.buffer payload rest first
      have size : eventPayloadLen (b.buildEvent payload peerIp) = payload.length := rfl
      simp only [BatchBuilder.drainLoop, first, size]
      split_ifs with full closed exceeds
      · apply DrainEffect.surplus peerIp first (.inl full)
        intro positive empty
        rw [empty, List.length_nil] at full
        omega
      · exact DrainEffect.surplus peerIp first (.inr closed.1) (fun _ => closed.2)
      · exact DrainEffect.alone peerIp first exceeds _
      · apply DrainEffect.joined first full exceeds
        apply ih
        simp only
        omega

/-- A connection with these events pending, these frames waiting in its buffer and these bytes
    behind them. -/
structure Standing (framing : FramingMode) (capacity maxBytes : Nat) (conn : TcpConnection)
    (pending : List SourceEvent) (waiting : List Bytes) (rest : Bytes) : Prop where
  mode_eq : conn.framing = framing
  capacity_eq : conn.batcher.batchCapacity = capacity
  limit_eq : conn.batcher.maxBatchBytes = maxBytes
  pending_eq : conn.batcher.pendingEvents = pending
  buffered : StreamFraming.drain (extractMessage framing) conn.batcher.buffer = (waiting, rest)

section Session
variable {framing : FramingMode} {capacity maxBytes : Nat} {conn : TcpConnection}
  {pending : List SourceEvent} {waiting : List Bytes} {rest : Bytes}

theorem readBatch_idle (none_pending : conn.batcher.pendingEvents = []) (waits : Bool)
    (reads : List Read) : conn.readBatch waits reads = conn.readLoop waits reads [] 0 := by
  have same : ({ conn.batcher with pendingEvents := [] } : BatchBuilder) = conn.batcher := by
    rw [← none_pending]
  simp [TcpConnection.readBatch, BatchBuilder.fillBatchFromPending, none_pending,
    BatchBuilder.fillFromPending, same]

/-- A pending event is the batch of the next call, which reads nothing. -/
theorem readBatch_pending {event : SourceEvent} (one : conn.batcher.pendingEvents = [event])
    (room : 1 ≤ conn.batcher.batchCapacity) (waits : Bool) (reads : List Read) :
    conn.readBatch waits reads =
      ({ conn with batcher := { conn.batcher with pendingEvents := [] } }, reads,
        some (.produced [event])) := by
  have open_batch : ¬ conn.batcher.batchCapacity = 0 := by omega
  by_cases exceeds : conn.batcher.maxBatchBytes < eventPayloadLen event
  · simp [TcpConnection.readBatch, BatchBuilder.fillBatchFromPending, one,
      BatchBuilder.fillFromPending, open_batch, exceeds]
  · simp [TcpConnection.readBatch, BatchBuilder.fillBatchFromPending, one,
      BatchBuilder.fillFromPending, open_batch, exceeds]

theorem session_congr {waits : Nat → Bool} {call : Nat} {conn' : TcpConnection}
    {reads reads' : List Read}
    (same : conn.readBatch (waits call) reads = conn'.readBatch (waits call) reads') (fuel : Nat) :
    TcpConnection.session waits fuel call conn reads =
      TcpConnection.session waits fuel call conn' reads' := by
  cases fuel with
  | zero => rfl
  | succ fuel => simp only [TcpConnection.session, same]

theorem session_closed {waits : Nat → Bool} {call : Nat} {reads left : List Read}
    {conn' : TcpConnection}
    (closed : conn.readBatch (waits call) reads = (conn', left, some .closed)) :
    Fuel.Yields (fun fuel => TcpConnection.session waits fuel call conn reads) ([], conn') := by
  apply Fuel.Yields.const
  intro fuel
  simp only [TcpConnection.session, closed]

theorem session_noData {waits : Nat → Bool} {call : Nat} {reads left : List Read}
    {conn' : TcpConnection} {result : List SourceBatch × TcpConnection}
    (nothing : conn.readBatch (waits call) reads = (conn', left, some .noData))
    (later : Fuel.Yields (fun fuel => TcpConnection.session waits fuel (call + 1) conn' left) result) :
    Fuel.Yields (fun fuel => TcpConnection.session waits fuel call conn reads) result := by
  apply Fuel.Yields.step _ later
  intro fuel
  simp only [TcpConnection.session, nothing]

theorem session_produced {waits : Nat → Bool} {call : Nat} {reads left : List Read}
    {conn' : TcpConnection} {batch : SourceBatch} {result : List SourceBatch × TcpConnection}
    (produced : conn.readBatch (waits call) reads = (conn', left, some (.produced batch)))
    (later : Fuel.Yields (fun fuel => TcpConnection.session waits fuel (call + 1) conn' left) result) :
    Fuel.Yields (fun fuel => TcpConnection.session waits fuel call conn reads)
      (batch :: result.1, result.2) := by
  apply Fuel.Yields.step _ (later.map (fun later => (batch :: later.1, later.2)))
  intro fuel
  simp only [TcpConnection.session, produced]

/-- The connection after a chunk has been appended and drained. -/
def TcpConnection.afterChunk (conn : TcpConnection) (bytes : Bytes) :
    TcpConnection × SourceBatch × Nat :=
  let batcher := { conn.batcher with buffer := conn.batcher.buffer ++ bytes }
  let drained := batcher.drainMessages conn.framing conn.clientAddr [] 0
  ({ conn with batcher := drained.1 }, drained.2)

/-- A chunk is drained once: its frames join those that wait, one batch of them is served. -/
theorem Standing.chunk (stands : Standing framing capacity maxBytes conn [] waiting rest)
    (modes : framing ≠ .auto) (room : 1 ≤ capacity) (bytes : Bytes) :
    let now := StreamFraming.drain (extractMessage framing) (rest ++ bytes)
    let after := conn.afterChunk bytes
    ∃ surplus, surplus.length ≤ 1 ∧
      Standing framing capacity maxBytes after.1 surplus
        (served capacity maxBytes 0 0 (waiting ++ now.1)) now.2 ∧
      (after.2.1 ++ surplus).map payloadBytes ++ served capacity maxBytes 0 0 (waiting ++ now.1) =
        waiting ++ now.1 ∧
      (waiting ++ now.1 ≠ [] → after.2.1 ≠ []) ∧
      (waiting ++ now.1 = [] → after.2 = ([], 0)) := by
  intro now after
  have stable := extractMessage_stable modes
  have shrinks := extractMessage_shrinks framing
  let batcher : BatchBuilder := { conn.batcher with buffer := conn.batcher.buffer ++ bytes }
  have frames : StreamFraming.drain (extractMessage framing) batcher.buffer =
      (waiting ++ now.1, now.2) := by
    have split := stable.drain_append shrinks conn.batcher.buffer bytes
    rw [stands.buffered] at split
    exact split
  have effect := drainLoop_effect framing conn.clientAddr batcher.buffer.length batcher [] 0
    (by omega)
  have drained : after = ({ conn with batcher :=
      (batcher.drainLoop framing conn.clientAddr batcher.buffer.length [] 0).1 },
        (batcher.drainLoop framing conn.clientAddr batcher.buffer.length [] 0).2) := by
    simp only [after, TcpConnection.afterChunk, BatchBuilder.drainMessages, stands.mode_eq]
    rfl
  obtain ⟨surplus, added, few, moved⟩ := effect.moved
  have left := effect.left
  have starts := effect.starts rfl
  have capacities : batcher.batchCapacity = capacity := stands.capacity_eq
  have limits : batcher.maxBatchBytes = maxBytes := stands.limit_eq
  have none_pending : batcher.pendingEvents = [] := stands.pending_eq
  rw [frames, capacities, limits] at left moved
  rw [frames, capacities] at starts
  rw [none_pending, List.nil_append] at added
  refine ⟨surplus, few, ?_, ?_, ?_, ?_⟩
  · rw [drained]
    constructor
    · exact stands.mode_eq
    · exact effect.same_capacity.trans capacities
    · exact effect.same_bytes.trans limits
    · exact added
    · exact left
  · rw [drained]
    exact moved
  · intro some_frame
    rw [drained]
    exact starts room some_frame
  · intro no_frame
    have waits : extractMessage framing batcher.buffer = none := by
      cases first : extractMessage framing batcher.buffer with
      | none => rfl
      | some found =>
        rw [StreamFraming.drain_some shrinks first, no_frame] at frames
        cases frames
    rw [drained]
    dsimp only
    cases batcher.buffer.length with
    | zero => rfl
    | succ fuel => simp [BatchBuilder.drainLoop, waits]

/-- The session ends with all its frames handed out, up to those the backlog names. -/
def EndsWith (framing : FramingMode) (capacity maxBytes : Nat) (waits : Nat → Bool) (call : Nat)
    (conn : TcpConnection) (reads : List Read) (due left : List Bytes) : Prop :=
  ∃ batches conn' rest, Fuel.Yields (fun fuel => TcpConnection.session waits fuel call conn reads)
      (batches, conn') ∧
    Standing framing capacity maxBytes conn' [] left rest ∧
    batches.flatten.map payloadBytes ++ left = due

/-- At most one event is pending, and it is handed out before the next read. -/
theorem Standing.endsWith {waits : Nat → Bool} {reads : List Read} {due left : List Bytes}
    (stands : Standing framing capacity maxBytes conn pending waiting rest)
    (few : pending.length ≤ 1) (room : 1 ≤ capacity) (call : Nat)
    (later : ∀ call conn, Standing framing capacity maxBytes conn [] waiting rest →
      EndsWith framing capacity maxBytes waits call conn reads due left) :
    EndsWith framing capacity maxBytes waits call conn reads
      (pending.map payloadBytes ++ due) left := by
  cases pending with
  | nil => exact later call conn stands
  | cons event others =>
    have alone : others = [] := by simpa using few
    subst alone
    have taken := readBatch_pending stands.pending_eq (by rw [stands.capacity_eq]; exact room)
      (waits call) reads
    obtain ⟨batches, conn', rest', ends, still, all⟩ := later (call + 1)
      { conn with batcher := { conn.batcher with pendingEvents := [] } }
      ⟨stands.mode_eq, stands.capacity_eq, stands.limit_eq, rfl, stands.buffered⟩
    refine ⟨[event] :: batches, conn', rest', session_produced taken ends, still, ?_⟩
    rw [← all]
    simp

theorem session_ends (waits : Nat → Bool) (modes : framing ≠ .auto) (room : 1 ≤ capacity)
    (chunks : List (Option Bytes)) (nonempty : ∀ bytes, some bytes ∈ chunks → bytes ≠ [])
    (call : Nat) (stands : Standing framing capacity maxBytes conn [] waiting rest) :
    EndsWith framing capacity maxBytes waits call conn (readsOf chunks)
      (waiting ++ (arrivals framing rest (chunks.filterMap id)).flatten)
      (backlog capacity maxBytes waiting (arrivals framing rest (chunks.filterMap id))) := by
  induction chunks generalizing call conn waiting rest with
  | nil =>
    have closed : conn.readBatch (waits call) (readsOf []) = (conn, [], some .closed) := by
      rw [readBatch_idle stands.pending_eq]
      rfl
    exact ⟨[], conn, rest, session_closed closed, stands, by simp [arrivals, backlog]⟩
  | cons chunk chunks ih =>
    have others : ∀ bytes, some bytes ∈ chunks → bytes ≠ [] := by
      intro bytes member
      exact nonempty bytes (List.mem_cons_of_mem chunk member)
    cases chunk with
    | none =>
      have first := readBatch_idle stands.pending_eq (waits call) (readsOf (none :: chunks))
      cases waiting_call : waits call with
      | true =>
        have same : conn.readBatch (waits call) (readsOf (none :: chunks)) =
            conn.readBatch (waits call) (readsOf chunks) := by
          rw [first, readBatch_idle stands.pending_eq]
          simp [readsOf, TcpConnection.readLoop, waiting_call]
        obtain ⟨batches, conn', rest', ends, later⟩ := ih others call stands
        refine ⟨batches, conn', rest', ?_, later⟩
        simp only [session_congr same]
        exact ends
      | false =>
        have nothing : conn.readBatch (waits call) (readsOf (none :: chunks)) =
            (conn, readsOf chunks, some .noData) := by
          rw [first]
          simp [readsOf, TcpConnection.readLoop, waiting_call]
        obtain ⟨batches, conn', rest', ends, later⟩ := ih others (call + 1) stands
        exact ⟨batches, conn', rest', session_noData nothing ends, later⟩
    | some bytes =>
      have data := nonempty bytes (List.mem_cons_self ..)
      obtain ⟨surplus, few, after, moved, starts, idle⟩ := stands.chunk modes room bytes
      have first : conn.readBatch (waits call) (readsOf (some bytes :: chunks)) =
          if (conn.afterChunk bytes).2.1 ≠ [] then
            ((conn.afterChunk bytes).1, readsOf chunks,
              some (.produced (conn.afterChunk bytes).2.1))
          else (conn.afterChunk bytes).1.readLoop (waits call) (readsOf chunks)
            (conn.afterChunk bytes).2.1 (conn.afterChunk bytes).2.2 := by
        rw [readBatch_idle stands.pending_eq]
        change (if bytes = [] then _ else _) = _
        rw [if_neg data]
        rfl
      have next : (some bytes :: chunks).filterMap id = bytes :: chunks.filterMap id := rfl
      simp only [next, arrivals, backlog, List.flatten_cons]
      by_cases frames : waiting ++
          (StreamFraming.drain (extractMessage framing) (rest ++ bytes)).1 = []
      · -- No frame yet: the same call goes on reading.
        have quiet := idle frames
        rw [frames, quiet] at moved
        have none_left : surplus = [] := by simpa [served] using moved
        rw [none_left, frames] at after
        have same : conn.readBatch (waits call) (readsOf (some bytes :: chunks)) =
            (conn.afterChunk bytes).1.readBatch (waits call) (readsOf chunks) := by
          rw [first, quiet, readBatch_idle after.pending_eq]
          simp
        obtain ⟨batches, conn', rest', ends, still, all⟩ := ih others call after
        refine ⟨batches, conn', rest', ?_, ?_, ?_⟩
        · simp only [session_congr same]
          exact ends
        · rw [frames]
          exact still
        · rw [← List.append_assoc, frames]
          exact all
      · have some_frame := starts frames
        rw [if_pos some_frame] at first
        obtain ⟨batches, conn', rest', ends, still, all⟩ :=
          after.endsWith few room (call + 1) (fun call conn stands => ih others call stands)
        refine ⟨(conn.afterChunk bytes).2.1 :: batches, conn', rest',
          session_produced first ends, still, ?_⟩
        rw [List.flatten_cons, List.map_append, List.append_assoc, all, ← List.append_assoc,
          ← List.append_assoc, ← List.append_assoc, ← List.map_append, moved]

theorem arrivals_flatten (framing : FramingMode) (rest : Bytes) (chunks : List Bytes) :
    (arrivals framing rest chunks).flatten =
      (StreamFraming.feed (extractMessage framing) rest chunks).1 := by
  induction chunks generalizing rest with
  | nil => rfl
  | cons chunk chunks ih =>
    simp only [arrivals, List.flatten_cons, ih]
    rfl

theorem arrivals_all (modes : framing ≠ .auto) (chunks : List Bytes) :
    (arrivals framing [] chunks).flatten =
      (StreamFraming.drain (extractMessage framing) chunks.flatten).1 := by
  rw [arrivals_flatten]
  exact framesOf_eq_drain
    ((extractMessage_stable modes).uniform (extractMessage_shrinks framing) chunks.flatten)

end Session

/-- A new connection. -/
def TcpConnection.new (clientAddr : String) (framing : FramingMode)
    (baseTags : List (String × String)) (sourceKey : String) (batchCapacity maxBatchBytes : Nat) :
    TcpConnection :=
  ⟨clientAddr, framing, BatchBuilder.new baseTags sourceKey batchCapacity maxBatchBytes⟩

/-- Every complete frame is handed out before `Closed` exactly when serving the frames once for
    each read, a batch and the one frame that no longer fits it at a time, leaves none waiting. -/
theorem connection_delivers_iff (clientAddr sourceKey : String) (baseTags : List (String × String))
    (framing : FramingMode) (modes : framing ≠ .auto) (capacity maxBytes : Nat)
    (room : 1 ≤ capacity) (waits : Nat → Bool) (chunks : List (Option Bytes))
    (nonempty : ∀ bytes, some bytes ∈ chunks → bytes ≠ []) :
    let conn := TcpConnection.new clientAddr framing baseTags sourceKey capacity maxBytes
    let data := chunks.filterMap id
    ∃ batches left, Fuel.Yields
        (fun fuel => TcpConnection.session waits fuel 0 conn (readsOf chunks)) (batches, left) ∧
      ((batches.flatten.map payloadBytes =
            (StreamFraming.drain (extractMessage framing) data.flatten).1 ∧
          left.batcher.pendingEvents = [] ∧
          extractMessage framing left.batcher.buffer = none) ↔
        backlog capacity maxBytes [] (arrivals framing [] data) = []) := by
  intro conn data
  have shrinks := extractMessage_shrinks framing
  have stands : Standing framing capacity maxBytes conn [] [] [] := by
    constructor
    · rfl
    · rfl
    · rfl
    · rfl
    · exact StreamFraming.drain_none shrinks.nil
  obtain ⟨batches, left, rest, ends, still, all⟩ :=
    session_ends waits modes room chunks nonempty 0 stands
  refine ⟨batches, left, ends, ?_⟩
  rw [List.nil_append, arrivals_all modes] at all
  constructor
  · rintro ⟨-, -, drained⟩
    have nothing := StreamFraming.drain_none drained
    rw [still.buffered] at nothing
    exact congrArg Prod.fst nothing
  · intro none_waiting
    rw [none_waiting, List.append_nil] at all
    refine ⟨all, still.pending_eq, ?_⟩
    cases first : extractMessage framing left.batcher.buffer with
    | none => rfl
    | some found =>
      have some_frame := StreamFraming.drain_some shrinks first
      rw [still.buffered, none_waiting] at some_frame
      cases some_frame

/-- Two lines in one read fit a batch of one and its pending event. -/
theorem connection_delivers_two_lines :
    let conn := TcpConnection.new "peer" .line [] "src" 1 1024
    ∃ batches left, Fuel.Yields
        (fun fuel => TcpConnection.session (fun _ => false) fuel 0 conn
          (readsOf [none, some [97, 10, 98, 10]])) (batches, left) ∧
      batches.flatten.map payloadBytes = [[97], [98]] ∧
        extractMessage .line left.batcher.buffer = none := by
  intro conn
  obtain ⟨batches, left, ends, exact_iff⟩ := connection_delivers_iff "peer" "src" [] .line
    (by decide) 1 1024 (by decide) (fun _ => false) [none, some [97, 10, 98, 10]] (by simp)
  obtain ⟨all, -, drained⟩ := exact_iff.mpr (by decide +kernel)
  refine ⟨batches, left, ends, ?_, drained⟩
  rw [all]
  decide +kernel

/-- Three lines in one read and the end of the stream: the third stays in the buffer. -/
theorem connection_loses_third_line :
    let conn := TcpConnection.new "peer" .line [] "src" 1 1024
    (TcpConnection.session (fun _ => false) 5 0 conn
        (readsOf [some [97, 10, 98, 10, 99, 10]])).map
      (fun ended => (ended.1.map (·.map payloadBytes), ended.2.batcher.buffer)) =
        some ([[[97]], [[98]]], [99, 10]) := by
  decide +kernel

end Tcp

end WarpMotor
