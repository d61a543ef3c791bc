import Mathlib.Data.Finset.Card
import Mathlib.Data.List.AList
import WarpMotor.Lib.Runs
import WarpMotor.Tcp.Connection

/-!
The TCP source with its connections. A connection is known by its id in three
places: the map `connections`, the queue `connectionOrder` and the registry that
the source shares with the listener loop. While a connection is read it is out
of the map and of the queue, in the hands of a guard that puts it back when the
call is dropped. Every await of `receive` is a state of its own, so that a call
can be dropped there. What the sockets will give is part of the connection.
-/
namespace WarpMotor

namespace Tcp

structure ConnectionRegistration where
  connectionId : Nat
  stream : List Read
  peerAddr : String
  deriving DecidableEq, Repr

/-- A connection with the results of the reads that are still to come. -/
structure Live where
  conn : TcpConnection
  stream : List Read
  deriving DecidableEq, Repr

/-- `connectionRx` is what waits in the channel, `senders` whether anyone can still send. -/
structure TcpSource where
  key : String
  baseTags : List (String × String)
  framing : FramingMode
  batchCapacity : Nat
  maxBatchBytes : Nat
  registry : Finset Nat
  connectionRx : List ConnectionRegistration
  senders : Bool
  connections : AList (fun _ : Nat => Live)
  connectionOrder : List Nat
  started : Bool
  awaitingLogged : Bool

namespace TcpSource

def new (key : String) (baseTags : List (String × String)) (framing : FramingMode)
    (batchCapacity maxBatchBytes : Nat) : TcpSource :=
  { key, baseTags, framing, batchCapacity, maxBatchBytes, registry := ∅, connectionRx := [],
    senders := true, connections := ∅, connectionOrder := [], started := false,
    awaitingLogged := false }

def registerConnection (src : TcpSource) (reg : ConnectionRegistration) : TcpSource :=
  let conn := TcpConnection.new reg.peerAddr src.framing src.baseTags src.key src.batchCapacity
    src.maxBatchBytes
  { src with
    registry := insert reg.connectionId src.registry
    connections := src.connections.insert reg.connectionId ⟨conn, reg.stream⟩
    connectionOrder := src.connectionOrder ++ [reg.connectionId]
    awaitingLogged := false }

def deregisterConnection (src : TcpSource) (connId : Nat) : TcpSource :=
  { src with
    registry := src.registry.erase connId
    connections := src.connections.erase connId
    connectionOrder := src.connectionOrder.erase connId }

def pushConnectionBack (src : TcpSource) (connId : Nat) (live : Live) : TcpSource :=
  { src with
    connections := src.connections.insert connId live
    connectionOrder := src.connectionOrder ++ [connId] }

def drainNewConnections (src : TcpSource) : TcpSource :=
  src.connectionRx.foldl registerConnection { src with connectionRx := [] }

/-- `close`: every connection, the queue and the whole registry go. -/
def close (src : TcpSource) : TcpSource :=
  { src with
    connections := ∅
    connectionOrder := []
    started := false
    awaitingLogged := false
    registry := ∅ }

end TcpSource

/-- Where a call of `receive` stands. It can be dropped where it waits for a new connection and
    where its guard waits for the socket of a connection. -/
inductive Call where
  | idle
  | looping
  | awaitConnection
  | awaitRead (connId : Nat) (live : Live)
  deriving DecidableEq, Repr

/-- The source with its call. `visits` are the ids taken off the queue and `returned` the batches
    of the calls that are complete, each with the connection it came from. -/
structure Receiver where
  source : TcpSource
  call : Call
  visits : List Nat
  returned : List (Nat × SourceBatch)

namespace Receiver

/-- How a guard ends with the result of its read, and how `receive` goes on. -/
def dispose (s : Receiver) (connId : Nat) (live : Live) : ReadOutcome → Receiver
  | .disconnect _ => { s with source := s.source.deregisterConnection connId, call := .idle }
  | .closed => { s with source := s.source.deregisterConnection connId, call := .looping }
  | .noData => { s with source := s.source.pushConnectionBack connId live, call := .looping }
  | .produced batch =>
    let s := { s with source := s.source.pushConnectionBack connId live }
    if batch = [] then { s with call := .looping }
    else { s with call := .idle, returned := s.returned ++ [(connId, batch)] }

/-- `read_batch` up to its first await. -/
def blockingRead (s : Receiver) (connId : Nat) (live : Live) : Receiver :=
  match live.conn.readBatch true [] with
  | (conn, _, some outcome) => s.dispose connId ⟨conn, live.stream⟩ outcome
  | (conn, _, none) => { s with call := .awaitRead connId ⟨conn, live.stream⟩ }

/-- The guard's read: `try_read_batch`, and `read_batch` when that has no data. A stream without
    a further result has no data at present. -/
def guardRead (s : Receiver) (connId : Nat) (live : Live) : Receiver :=
  match live.conn.readBatch false live.stream with
  | (conn, stream, none) => s.blockingRead connId ⟨conn, stream⟩
  | (conn, stream, some .noData) => s.blockingRead connId ⟨conn, stream⟩
  | (conn, stream, some outcome) => s.dispose connId ⟨conn, stream⟩ outcome

/-- The next id of the queue is taken off it. -/
def popFront (s : Receiver) (connId : Nat) (order : List Nat) : Receiver :=
  { s with source := { s.source with connectionOrder := order }, visits := s.visits ++ [connId] }

/-- The guard takes the connection out of the map. -/
def acquireGuard (s : Receiver) (connId : Nat) : Receiver :=
  { s with source := { s.source with connections := s.source.connections.erase connId } }

/-- One turn of the loop of `receive`, to its next await, the next turn or the end of the call. -/
def turn (s : Receiver) : Receiver :=
  let s := { s with source := s.source.drainNewConnections }
  if s.source.connections.keys = [] then
    { s with source := { s.source with awaitingLogged := true }, call := .awaitConnection }
  else
    let s := { s with source := { s.source with awaitingLogged := false } }
    match s.source.connectionOrder with
    | [] => s
    | connId :: order =>
      match s.source.connections.lookup connId with
      | none => s.popFront connId order
      | some live => ((s.popFront connId order).acquireGuard connId).guardRead connId live

/-- The await for a new connection is over. -/
def connectionArrived (s : Receiver) : Receiver :=
  match s.source.connectionRx with
  | reg :: rest =>
    { s with source := { s.source with connectionRx := rest }.registerConnection reg,
             call := .looping }
  | [] => if s.source.senders then s else { s with call := .idle }

/-- The socket is readable and gives its next result. -/
def readable (s : Receiver) (connId : Nat) (live : Live) : Receiver :=
  match live.stream with
  | [] => s
  | read :: stream =>
    match live.conn.readLoop true [read] [] 0 with
    | (conn, _, some outcome) => s.dispose connId ⟨conn, stream⟩ outcome
    | (conn, _, none) => { s with call := .awaitRead connId ⟨conn, stream⟩ }

/-- The call is dropped; the guard puts its connection back. -/
def dropCall (s : Receiver) : Receiver :=
  match s.call with
  | .awaitRead connId live =>
    { s with source := s.source.pushConnectionBack connId live, call := .idle }
  | .awaitConnection => { s with call := .idle }
  | .looping => s
  | .idle => s

end Receiver

/-- What can happen next: an operation of the source's owner, progress of the call under way, or a
    step of the listener loop and of the other sources that share the registry. -/
inductive Step where
  | start
  | close
  | receive
  | turn
  | connectionArrived
  | readable
  | readableFailed
  | drop
  | accept (maxConnections : Nat) (reg : ConnectionRegistration) (dispatched : Bool)
  | hangUp
  | otherInserts (connId : Nat)
  | otherRemoves (connId : Nat)
  deriving DecidableEq, Repr

namespace Receiver

/-- `accept_connection` for an accepted socket: the registry gets the id first and loses it again
    when the dispatch fails. -/
def accept (src : TcpSource) (maxConnections : Nat) (reg : ConnectionRegistration)
    (dispatched : Bool) : TcpSource :=
  if maxConnections ≤ src.registry.card then src
  else
    let src := { src with registry := insert reg.connectionId src.registry }
    if dispatched then { src with connectionRx := src.connectionRx ++ [reg] }
    else { src with registry := src.registry.erase reg.connectionId }

def step (s : Receiver) : Step → Receiver
  | .start =>
    if s.call = .idle ∧ s.source.started = false then
      { s with source := { s.source with started := true, awaitingLogged := false } }
    else s
  | .close => if s.call = .idle then { s with source := s.source.close } else s
  | .receive =>
    if s.call = .idle ∧ s.source.started = true then { s with call := .looping } else s
  | .turn => if s.call = .looping then s.turn else s
  | .connectionArrived => if s.call = .awaitConnection then s.connectionArrived else s
  | .readable =>
    match s.call with
    | .awaitRead connId live => s.readable connId live
    | _ => s
  | .readableFailed =>
    match s.call with
    | .awaitRead connId live =>
      s.dispose connId live (.disconnect ("tcp readable error (" ++ live.conn.clientAddr ++ ")"))
    | _ => s
  | .drop => s.dropCall
  | .accept maxConnections reg dispatched =>
    { s with source := accept s.source maxConnections reg dispatched }
  | .hangUp => { s with source := { s.source with senders := false } }
  | .otherInserts connId =>
    { s with source := { s.source with registry := insert connId s.source.registry } }
  | .otherRemoves connId =>
    { s with source := { s.source with registry := s.source.registry.erase connId } }

/-- A new source that nobody has called. -/
def ofSource (source : TcpSource) : Receiver := ⟨source, .idle, [], []⟩

end Receiver

end Tcp

end WarpMotor
