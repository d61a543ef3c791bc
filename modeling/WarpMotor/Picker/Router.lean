import WarpMotor.Event

/-!
The shared parse router and one call of its `try_send_round_robin`. The
router is shared with the reload coordinator, so a call sees only a view of
it: what each sender of the snapshot answers when it is tried, the reloading
flag, and the rotation counter. Each sender is tried at most once in a call.
-/
namespace WarpMotor

structure ParseDispatchRouter (Sender : Type) where
  senders : List Sender
  nextIdx : Nat
  reloading : Bool
  deriving DecidableEq, Repr

namespace ParseDispatchRouter
variable {Sender : Type}

def new (senders : List Sender) : ParseDispatchRouter Sender :=
  { senders, nextIdx := 0, reloading := false }

def replace (_ : ParseDispatchRouter Sender) (senders : List Sender) : ParseDispatchRouter Sender :=
  { senders, nextIdx := 0, reloading := false }

def beginReload (_ : ParseDispatchRouter Sender) : ParseDispatchRouter Sender :=
  { senders := [], nextIdx := 0, reloading := true }

def snapshot (router : ParseDispatchRouter Sender) : List Sender := router.senders

end ParseDispatchRouter

inductive TrySend where
  | ok | full | closed
  deriving DecidableEq, Repr

structure RouterView where
  senders : List TrySend
  reloading : Bool
  nextIdx : Nat
  deriving DecidableEq, Repr

inductive ParseDispatchResult where
  | sent
  | full (batch : SourceBatch)
  | reloading (batch : SourceBatch)
  | closed (batch : SourceBatch)
  deriving DecidableEq, Repr

/-- The loop over `offset`; `sawFull` decides between `Full` and `Closed` when no sender takes it. -/
def trySendLoop (senders : List TrySend) (start : Nat) (pending : SourceBatch) :
    List Nat → Bool → ParseDispatchResult
  | [], sawFull => if sawFull then .full pending else .closed pending
  | offset :: rest, sawFull =>
    match senders.getD ((start + offset) % senders.length) .closed with
    | .ok => .sent
    | .full => trySendLoop senders start pending rest true
    | .closed => trySendLoop senders start pending rest sawFull

def trySendRoundRobin (view : RouterView) (batch : SourceBatch) : ParseDispatchResult :=
  if view.senders.isEmpty then
    if view.reloading then .reloading batch else .closed batch
  else
    trySendLoop view.senders (view.nextIdx % view.senders.length) batch
      (List.range view.senders.length) false

/-- A failed call gives the batch back as it was. -/
def ParseDispatchResult.Returns (batch : SourceBatch) : ParseDispatchResult → Prop
  | .sent => True
  | .full b => b = batch
  | .reloading b => b = batch
  | .closed b => b = batch

theorem trySendLoop_returns (senders : List TrySend) (start : Nat) (pending : SourceBatch)
    (offsets : List Nat) (sawFull : Bool) :
    (trySendLoop senders start pending offsets sawFull).Returns pending := by
  induction offsets generalizing sawFull with
  | nil => cases sawFull <;> simp [trySendLoop, ParseDispatchResult.Returns]
  | cons offset rest ih =>
    simp only [trySendLoop]
    split
    · trivial
    · exact ih true
    · exact ih sawFull

theorem trySendRoundRobin_returns (view : RouterView) (batch : SourceBatch) :
    (trySendRoundRobin view batch).Returns batch := by
  unfold trySendRoundRobin
  split
  · split <;> simp [ParseDispatchResult.Returns]
  · exact trySendLoop_returns ..

end WarpMotor
