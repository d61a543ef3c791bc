import WarpMotor.File.Source

/-!
The source over several files. The files are read one after the other; the
shards of the current file are read by tasks of their own, which send their
batches into one channel and a last message when they are done. A call of
`receive` can be dropped while it opens the next file, while it waits for a
message, and while it waits for the tasks of a file to end. The tasks go on
when a call is dropped.
-/
namespace WarpMotor

open Framing

namespace File

inductive ParallelSourceMsg where
  | batch (events : SourceBatch)
  | done
  | err
  deriving DecidableEq, Repr

/-- The task of one shard; it ends with the message that is its last. -/
structure Worker where
  source : FileSource
  finished : Bool
  deriving DecidableEq, Repr

/-- The current file: the messages in the channel, each with its shard, the tasks, and how many of
    them are not known to be done. -/
structure Group where
  queue : List (Nat × ParallelSourceMsg)
  workers : List Worker
  active : Nat
  deriving DecidableEq, Repr

structure MultiFileSource where
  key : String
  paths : List String
  encode : FileEncoding
  tags : List (String × String)
  instances : Nat
  limits : Nat × Nat × Nat
  group : Option Group
  deriving DecidableEq, Repr

/-- Where a call stands. `opening` is the await in `launch_next_file`, `clearing` the one for the
    tasks of a file that is done, `aborting` the one for tasks that were aborted. -/
inductive MultiCall where
  | idle
  | looping
  | opening (path : String) (data : Bytes)
  | awaitMessage
  | clearing
  | aborting
  deriving DecidableEq, Repr

/-- The source with its call. `settled` are the files that were taken up, each with whether it was
    opened, and `returned` the batches of the completed calls with the number of their file and
    their shard. -/
structure MultiReceiver where
  source : MultiFileSource
  call : MultiCall
  settled : List (String × Bool)
  returned : List ((Nat × Nat) × SourceBatch)
  deriving DecidableEq, Repr

inductive MultiStep where
  | receive
  | turn
  | opened
  | openFailed
  | message
  | tasksEnded
  | drop
  | work (shard : Nat) (reads : List FileRead)
  deriving DecidableEq, Repr

namespace MultiFileSource

def shardKey (src : MultiFileSource) (shardTotal idx : Nat) : String :=
  if 1 < shardTotal then src.key ++ "-" ++ toString (idx + 1) else src.key

/-- The tasks for the shards of a file. -/
def launch (src : MultiFileSource) (data : Bytes) : Group :=
  let ranges := computeFileRanges data src.instances
  { queue := []
    workers := ranges.mapIdx (fun idx range =>
      { source := FileSource.new (src.shardKey ranges.length idx) data src.encode src.tags src.limits
          range
        finished := false })
    active := ranges.length }

end MultiFileSource

namespace Group

/-- No task can send any more. -/
def Closed (g : Group) : Prop := ∀ w ∈ g.workers, w.finished = true

instance (g : Group) : Decidable g.Closed :=
  inferInstanceAs (Decidable (∀ w ∈ g.workers, w.finished = true))

/-- A task gets so many reads; once its call of `receive` returns it sends what it got. -/
def work (decoders : Decoders) (g : Group) (shard : Nat) (reads : List FileRead) : Group :=
  match g.workers[shard]? with
  | none => g
  | some w =>
    if w.finished then g
    else
      match w.source.receive decoders reads with
      | (_, .dropped) => g
      | (source, .batch events) =>
        { g with
          queue := g.queue ++ [(shard, .batch events)]
          workers := g.workers.set shard { w with source } }
      | (source, .eof) =>
        { g with
          queue := g.queue ++ [(shard, .done)]
          workers := g.workers.set shard { source, finished := true } }
      | (source, .failed) =>
        { g with
          queue := g.queue ++ [(shard, .err)]
          workers := g.workers.set shard { source, finished := true } }

/-- The tasks are aborted. -/
def abort (g : Group) : Group :=
  { g with workers := g.workers.map (fun w => { w with finished := true }) }

end Group

namespace MultiReceiver

/-- The number of the current file. -/
def current (s : MultiReceiver) : Nat := s.settled.length - 1

/-- One turn of the loop up to its next await. A file that is not there fails the call. -/
def turn (files : String → Option Bytes) (s : MultiReceiver) : MultiReceiver :=
  match s.source.group with
  | some _ => { s with call := .awaitMessage }
  | none =>
    match s.source.paths with
    | [] => { s with call := .idle }
    | path :: rest =>
      let source := { s.source with paths := rest }
      match files path with
      | none => { s with source, call := .idle, settled := s.settled ++ [(path, false)] }
      | some data => { s with source, call := .opening path data }

/-- The wait for a message is over. -/
def message (s : MultiReceiver) : MultiReceiver :=
  match s.source.group with
  | none => s
  | some g =>
    match g.queue with
    | (shard, .batch events) :: queue =>
      { s with
        source := { s.source with group := some { g with queue } }
        call := .idle
        returned := s.returned ++ [((s.current, shard), events)] }
    | (_, .done) :: queue =>
      let g := { g with queue, active := g.active - 1 }
      { s with source := { s.source with group := some g },
               call := if g.active = 0 then .clearing else .looping }
    | (_, .err) :: queue =>
      { s with source := { s.source with group := some { g with queue }.abort }, call := .aborting }
    | [] =>
      if g.Closed then
        if g.active = 0 then { s with call := .clearing }
        else { s with source := { s.source with group := some g.abort }, call := .aborting }
      else s

/-- The call is dropped; a file that it was opening is gone with it. -/
def dropCall (s : MultiReceiver) : MultiReceiver :=
  match s.call with
  | .idle => s
  | .looping => s
  | .opening _ _ => { s with call := .idle }
  | .awaitMessage => { s with call := .idle }
  | .clearing => { s with call := .idle }
  | .aborting => { s with call := .idle }

def step (decoders : Decoders) (files : String → Option Bytes) (s : MultiReceiver) :
    MultiStep → MultiReceiver
  | .receive => if s.call = .idle then { s with call := .looping } else s
  | .turn => if s.call = .looping then s.turn files else s
  | .opened =>
    match s.call with
    | .opening path data =>
      { s with
        source := { s.source with group := some (s.source.launch data) }
        call := .awaitMessage
        settled := s.settled ++ [(path, true)] }
    | _ => s
  | .openFailed =>
    match s.call with
    | .opening path _ => { s with call := .idle, settled := s.settled ++ [(path, false)] }
    | _ => s
  | .message => if s.call = .awaitMessage then s.message else s
  | .tasksEnded =>
    if s.call = .clearing then
      { s with source := { s.source with group := none }, call := .looping }
    else if s.call = .aborting then
      { s with source := { s.source with group := none }, call := .idle }
    else s
  | .drop => s.dropCall
  | .work shard reads =>
    match s.source.group with
    | none => s
    | some g => { s with source := { s.source with group := some (g.work decoders shard reads) } }

end MultiReceiver

end File

end WarpMotor
