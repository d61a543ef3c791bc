import WarpMotor.Tcp.Source

/-!
The bookkeeping of the TCP source. The queue lists the keys of the map, once
each, and all of them are registered; the connection of a guard is in neither
and comes back behind the queue, or is gone from all three places. Each step
keeps this and takes its visits from the front of the queue.
-/
namespace WarpMotor

namespace Tcp

namespace TcpSource

def queuedIds (src : TcpSource) : List Nat := src.connectionRx.map (·.connectionId)

/-- What the registration of `regs` does to the three places that know a connection. -/
theorem foldl_registerConnection (regs : List ConnectionRegistration) (src : TcpSource) :
    let after := regs.foldl registerConnection src
    after.connectionOrder = src.connectionOrder ++ regs.map (·.connectionId) ∧
      after.connectionRx = src.connectionRx ∧
      (∀ id, id ∈ after.connections ↔
        id ∈ src.connections ∨ id ∈ regs.map (·.connectionId)) ∧
      ∀ id, id ∈ after.registry ↔ id ∈ src.registry ∨ id ∈ regs.map (·.connectionId) := by
  induction regs generalizing src with
  | nil => simp
  | cons reg rest ih =>
    obtain ⟨order, queue, keys, registered⟩ := ih (src.registerConnection reg)
    refine ⟨?_, queue, ?_, ?_⟩
    · rw [List.foldl_cons, order]
      simp [registerConnection]
    · intro id
      rw [List.foldl_cons, keys]
      simp only [registerConnection, AList.mem_insert, List.map_cons, List.mem_cons]
      tauto
    · intro id
      rw [List.foldl_cons, registered]
      simp only [registerConnection, Finset.mem_insert, List.map_cons, List.mem_cons]
      tauto

end TcpSource

namespace Receiver

/-- The connection in the hands of a guard. -/
def held (s : Receiver) : List Nat :=
  match s.call with
  | .awaitRead connId _ => [connId]
  | _ => []

/-- The queue lists the keys of the map, once each, all of them are registered, and neither the
    guard's connection nor one that waits in the channel is among them. -/
structure Bookkept (s : Receiver) : Prop where
  distinct : (s.source.queuedIds ++ (s.source.connectionOrder ++ s.held)).Nodup
  keys : ∀ id, id ∈ s.source.connectionOrder ↔ id ∈ s.source.connections
  registered : ∀ id ∈ s.source.connectionOrder ++ s.held, id ∈ s.source.registry

/-- A guard has taken `connId`: it is neither in the map nor in the queue. -/
structure Taken (s : Receiver) (connId : Nat) : Prop where
  distinct : (s.source.queuedIds ++ (s.source.connectionOrder ++ [connId])).Nodup
  keys : ∀ id, id ∈ s.source.connectionOrder ↔ id ∈ s.source.connections
  registered : ∀ id ∈ s.source.connectionOrder ++ [connId], id ∈ s.source.registry

theorem Taken.not_queued {s : Receiver} {connId : Nat} (taken : Taken s connId) :
    connId ∉ s.source.connectionOrder := by
  have distinct := (List.nodup_append.mp taken.distinct).2.1
  rw [List.nodup_append] at distinct
  intro queued
  exact distinct.2.2 connId queued connId (by simp) rfl

/-- The connection of the guard goes back into the map and to the end of the queue. -/
theorem Taken.pushed {s : Receiver} {connId : Nat} (taken : Taken s connId) (live : Live)
    (call : Call) (returned : List (Nat × SourceBatch))
    (free : ({ s with call } : Receiver).held = []) :
    Bookkept { s with source := s.source.pushConnectionBack connId live, call, returned } := by
  have none_held : ({ s with
      source := s.source.pushConnectionBack connId live, call, returned } : Receiver).held = [] :=
    free
  constructor
  · rw [none_held, List.append_nil]
    exact taken.distinct
  · intro id
    simp only [TcpSource.pushConnectionBack, List.mem_append, List.mem_singleton, AList.mem_insert,
      taken.keys]
    tauto
  · rw [none_held, List.append_nil]
    exact taken.registered

/-- The connection of the guard is gone from all three places. -/
theorem Taken.deregistered {s : Receiver} {connId : Nat} (taken : Taken s connId) (call : Call)
    (free : ({ s with call } : Receiver).held = []) :
    Bookkept { s with source := s.source.deregisterConnection connId, call } := by
  have none_held : ({ s with
      source := s.source.deregisterConnection connId, call } : Receiver).held = [] := free
  have same := List.erase_of_not_mem taken.not_queued
  have not_key : connId ∉ s.source.connections := fun key => taken.not_queued ((taken.keys _).mpr key)
  constructor
  · rw [none_held, List.append_nil]
    refine taken.distinct.sublist ?_
    refine List.Sublist.append_left ?_ _
    simp only [TcpSource.deregisterConnection, same]
    exact List.sublist_append_left _ _
  · intro id
    simp only [TcpSource.deregisterConnection, same, AList.mem_erase, taken.keys]
    constructor
    · intro key
      exact ⟨fun equal => not_key (equal ▸ key), key⟩
    · exact fun both => both.2
  · rw [none_held, List.append_nil]
    intro id queued
    simp only [TcpSource.deregisterConnection, same] at queued ⊢
    refine Finset.mem_erase.mpr ⟨?_, taken.registered id (List.mem_append_left _ queued)⟩
    rintro rfl
    exact taken.not_queued queued

theorem Taken.dispose {s : Receiver} {connId : Nat} (taken : Taken s connId) (live : Live)
    (outcome : ReadOutcome) : Bookkept (s.dispose connId live outcome) := by
  cases outcome with
  | disconnect detail => exact taken.deregistered _ rfl
  | closed => exact taken.deregistered _ rfl
  | noData => exact taken.pushed live _ _ rfl
  | produced batch =>
    unfold Receiver.dispose
    dsimp only
    split
    · exact taken.pushed live _ _ rfl
    · exact taken.pushed live _ _ rfl

theorem Taken.waiting {s : Receiver} {connId : Nat} (taken : Taken s connId) (live : Live) :
    Bookkept { s with call := .awaitRead connId live } :=
  ⟨taken.distinct, taken.keys, taken.registered⟩

theorem Taken.blockingRead {s : Receiver} {connId : Nat} (taken : Taken s connId) (live : Live) :
    Bookkept (s.blockingRead connId live) := by
  unfold Receiver.blockingRead
  split
  · exact taken.dispose _ _
  · exact taken.waiting _

theorem Taken.guardRead {s : Receiver} {connId : Nat} (taken : Taken s connId) (live : Live) :
    Bookkept (s.guardRead connId live) := by
  unfold Receiver.guardRead
  split
  · exact taken.blockingRead _
  · exact taken.blockingRead _
  · exact taken.dispose _ _

theorem Bookkept.taken {s : Receiver} {connId : Nat} {live : Live} (kept : Bookkept s)
    (waits : s.call = .awaitRead connId live) : Taken s connId := by
  have one_held : s.held = [connId] := by simp only [held, waits]
  constructor
  · rw [← one_held]
    exact kept.distinct
  · exact kept.keys
  · rw [← one_held]
    exact kept.registered

/-- The receiver with the channel emptied into its bookkeeping. -/
def drained (s : Receiver) : Receiver := { s with source := s.source.drainNewConnections }

/-- The same with the flag of the log message cleared. -/
def unlogged (s : Receiver) : Receiver := { s with source := { s.source with awaitingLogged := false } }

theorem drained_order (s : Receiver) :
    s.drained.source.connectionOrder = s.source.connectionOrder ++ s.source.queuedIds :=
  (TcpSource.foldl_registerConnection _ _).1

theorem Bookkept.drained {s : Receiver} (kept : Bookkept s) (free : s.held = []) :
    Bookkept s.drained := by
  obtain ⟨order, queue, keys, registered⟩ := TcpSource.foldl_registerConnection
    s.source.connectionRx { s.source with connectionRx := [] }
  have none_held : s.drained.held = [] := free
  have no_queue : s.drained.source.queuedIds = [] := congrArg (List.map ConnectionRegistration.connectionId) queue
  have distinct := kept.distinct
  rw [free, List.append_nil] at distinct
  constructor
  · rw [none_held, List.append_nil, no_queue, List.nil_append, drained_order]
    exact List.nodup_append_comm.mp distinct
  · intro id
    rw [drained_order, List.mem_append, kept.keys]
    exact (keys id).symm
  · rw [none_held, List.append_nil, drained_order]
    intro id known
    refine (registered id).mpr ?_
    rcases List.mem_append.mp known with queued | new
    · exact .inl (kept.registered id (List.mem_append_left _ queued))
    · exact .inr new

/-- After the channel is emptied, the head of the queue is a connection of the map, and there is
    one as soon as the map is not empty. -/
theorem Bookkept.order_of_keys {s : Receiver} (kept : Bookkept s)
    (some_key : s.source.connections.keys ≠ []) : s.source.connectionOrder ≠ [] := by
  obtain ⟨id, rest, shape⟩ := List.exists_cons_of_ne_nil some_key
  have key : id ∈ s.source.connections := by
    rw [AList.mem_keys, shape]
    exact List.mem_cons_self
  exact List.ne_nil_of_mem ((kept.keys id).mpr key)

theorem Bookkept.lookup_head {s : Receiver} (kept : Bookkept s) {connId : Nat} {order : List Nat}
    (shape : s.source.connectionOrder = connId :: order) :
    ∃ live, s.source.connections.lookup connId = some live := by
  have key : connId ∈ s.source.connections := by
    rw [← kept.keys, shape]
    exact List.mem_cons_self
  exact Option.isSome_iff_exists.mp (AList.lookup_isSome.mpr key)

/-- The guard takes the head of the queue out of the map. -/
theorem Bookkept.take {s : Receiver} (kept : Bookkept s) (free : s.held = []) {connId : Nat}
    {order : List Nat} (shape : s.source.connectionOrder = connId :: order) :
    Taken ((s.popFront connId order).acquireGuard connId) connId := by
  have distinct := kept.distinct
  rw [free, List.append_nil, shape] at distinct
  have rotated : (s.source.queuedIds ++ (order ++ [connId])).Nodup := by
    refine (List.Perm.nodup_iff ?_).mp distinct
    exact (List.perm_append_singleton connId order).symm.append_left _
  constructor
  · exact rotated
  · intro id
    have known := kept.keys id
    rw [shape, List.mem_cons] at known
    simp only [popFront, acquireGuard, AList.mem_erase, ← known]
    constructor
    · intro queued
      refine ⟨?_, .inr queued⟩
      rintro rfl
      have apart := (List.nodup_append.mp (List.nodup_append.mp rotated).2.1).2.2
      exact apart id queued id (by simp) rfl
    · rintro ⟨differs, same | queued⟩
      · exact absurd same differs
      · exact queued
  · intro id known
    refine kept.registered id (List.mem_append_left _ ?_)
    rw [shape]
    simp only [popFront, acquireGuard, List.mem_append, List.mem_cons] at known ⊢
    tauto

/-- What a turn of the loop does: with no connection it waits for one, otherwise the guard reads
    the connection at the head of the queue. -/
theorem Bookkept.turn_cases {s : Receiver} (kept : Bookkept s) (free : s.held = []) :
    (s.drained.source.connections.keys = [] ∧ s.turn = { s.drained with
        source := { s.drained.source with awaitingLogged := true }
        call := .awaitConnection }) ∨
      ∃ connId order live, s.drained.source.connectionOrder = connId :: order ∧
        s.drained.source.connections.lookup connId = some live ∧
        s.turn = ((s.drained.unlogged.popFront connId order).acquireGuard connId).guardRead
          connId live := by
  have after := kept.drained free
  unfold Receiver.turn
  change _ ∧ (if s.drained.source.connections.keys = [] then _ else _) = _ ∨ _
  by_cases no_key : s.drained.source.connections.keys = []
  · exact .inl ⟨no_key, if_pos no_key⟩
  · right
    obtain ⟨connId, order, shape⟩ := List.exists_cons_of_ne_nil (after.order_of_keys no_key)
    obtain ⟨live, found⟩ := after.lookup_head shape
    refine ⟨connId, order, live, shape, found, ?_⟩
    have order_eq : s.source.drainNewConnections.connectionOrder = connId :: order := shape
    have found_eq : s.source.drainNewConnections.connections.lookup connId = some live := found
    dsimp only
    rw [if_neg (show ¬ s.source.drainNewConnections.connections.keys = [] from no_key), order_eq]
    dsimp only
    rw [found_eq]
    rfl

theorem Bookkept.unlogged {s : Receiver} (kept : Bookkept s) : Bookkept s.unlogged :=
  ⟨kept.distinct, kept.keys, kept.registered⟩

theorem Bookkept.turn {s : Receiver} (kept : Bookkept s) (free : s.held = []) :
    Bookkept s.turn := by
  have after := kept.drained free
  rcases kept.turn_cases free with ⟨-, waits⟩ | ⟨connId, order, live, shape, -, reads⟩
  · rw [waits]
    have none_held : s.drained.held = [] := free
    have distinct := after.distinct
    have registered := after.registered
    rw [none_held] at distinct registered
    exact ⟨distinct, after.keys, registered⟩
  · rw [reads]
    exact (after.unlogged.take free shape).guardRead live

/-- What became of the connection that a guard had taken: it went to the end of the queue, it is
    still held, or it is gone. -/
structure Handled (s s' : Receiver) (connId : Nat) : Prop where
  order : s'.source.connectionOrder = s.source.connectionOrder ∨
    s'.source.connectionOrder = s.source.connectionOrder ++ [connId]
  visits : s'.visits = s.visits
  queued : s'.source.queuedIds = s.source.queuedIds
  held : s'.held = [] ∨ s'.held = [connId]

theorem Handled.known {s s' : Receiver} {connId : Nat} (handled : Handled s s' connId) :
    ∀ id ∈ s'.source.queuedIds ++ (s'.source.connectionOrder ++ s'.held),
      id ∈ s.source.queuedIds ++ (s.source.connectionOrder ++ [connId]) := by
  intro id mem
  rw [handled.queued] at mem
  rcases handled.order with order | order <;> rcases handled.held with held | held <;>
    simp only [order, held, List.mem_append, List.not_mem_nil] at mem ⊢ <;> tauto

theorem Taken.handled_dispose {s : Receiver} {connId : Nat} (taken : Taken s connId) (live : Live)
    (outcome : ReadOutcome) : Handled s (s.dispose connId live outcome) connId := by
  have same := List.erase_of_not_mem taken.not_queued
  cases outcome with
  | disconnect detail => exact ⟨.inl same, rfl, rfl, .inl rfl⟩
  | closed => exact ⟨.inl same, rfl, rfl, .inl rfl⟩
  | noData => exact ⟨.inr rfl, rfl, rfl, .inl rfl⟩
  | produced batch =>
    unfold Receiver.dispose
    dsimp only
    split
    · exact ⟨.inr rfl, rfl, rfl, .inl rfl⟩
    · exact ⟨.inr rfl, rfl, rfl, .inl rfl⟩

theorem Taken.handled_blockingRead {s : Receiver} {connId : Nat} (taken : Taken s connId)
    (live : Live) : Handled s (s.blockingRead connId live) connId := by
  unfold Receiver.blockingRead
  split
  · exact taken.handled_dispose _ _
  · exact ⟨.inl rfl, rfl, rfl, .inr rfl⟩

theorem Taken.handled_guardRead {s : Receiver} {connId : Nat} (taken : Taken s connId)
    (live : Live) : Handled s (s.guardRead connId live) connId := by
  unfold Receiver.guardRead
  split
  · exact taken.handled_blockingRead _
  · exact taken.handled_blockingRead _
  · exact taken.handled_dispose _ _

theorem Taken.handled_readable {s : Receiver} {connId : Nat} {live : Live}
    (taken : Taken s connId) (waits : s.call = .awaitRead connId live) :
    Handled s (s.readable connId live) connId := by
  unfold Receiver.readable
  split
  · exact ⟨.inl rfl, rfl, rfl, .inr (by simp only [Receiver.held, waits])⟩
  · split
    · exact taken.handled_dispose _ _
    · exact ⟨.inl rfl, rfl, rfl, .inr rfl⟩

theorem Bookkept.readable {s : Receiver} {connId : Nat} {live : Live} (kept : Bookkept s)
    (waits : s.call = .awaitRead connId live) : Bookkept (s.readable connId live) := by
  have taken := kept.taken waits
  unfold Receiver.readable
  split
  · exact kept
  · split
    · exact taken.dispose _ _
    · exact taken.waiting _

/-- The ids of the sockets that the listener accepts. -/
def acceptedId : Step → Option Nat
  | .accept _ reg _ => some reg.connectionId
  | _ => none

/-- The ids that other sources remove. -/
def removedId : Step → Option Nat
  | .otherRemoves connId => some connId
  | _ => none

/-- Accepted connections have pairwise distinct ids, and no other source removes one of them. -/
structure DistinctIds (steps : List Step) : Prop where
  accepted : (steps.filterMap acceptedId).Nodup
  removed : ∀ id ∈ steps.filterMap removedId, id ∉ steps.filterMap acceptedId

/-- All ids the source knows: in the channel, in the queue, in the hands of a guard. -/
def known (s : Receiver) : List Nat :=
  s.source.queuedIds ++ (s.source.connectionOrder ++ s.held)

/-- The queue law of one step: what it pushes goes behind the queue, what it visits comes from
    its front; and the ids it knows afterwards are not new but for an accepted one. -/
structure StepEffect (s s' : Receiver) (label : Step) : Prop where
  kept : Bookkept s'
  known : ∀ id ∈ s'.known, id ∈ s.known ∨ acceptedId label = some id
  fifo : label ≠ .close → ∃ pushed visited, s'.visits = s.visits ++ visited ∧
    s.source.connectionOrder ++ pushed = visited ++ s'.source.connectionOrder

/-- A step that touches neither the ids nor the registry. -/
theorem StepEffect.same {s s' : Receiver} {label : Step} (kept : Bookkept s)
    (queued : s'.source.queuedIds = s.source.queuedIds)
    (order : s'.source.connectionOrder = s.source.connectionOrder)
    (keys : s'.source.connections = s.source.connections) (held : s'.held = s.held)
    (registry : ∀ id ∈ s.known, id ∈ s.source.registry → id ∈ s'.source.registry)
    (visits : s'.visits = s.visits) : StepEffect s s' label := by
  have same_known : s'.known = s.known := by
    simp only [Receiver.known, queued, order, held]
  constructor
  · constructor
    · rw [queued, order, held]
      exact kept.distinct
    · rw [order, keys]
      exact kept.keys
    · rw [order, held]
      intro id live
      exact registry id (List.mem_append_right _ live) (kept.registered id live)
  · rw [same_known]
    exact fun id mem => .inl mem
  · intro _
    exact ⟨[], [], by simp [visits], by simp [order]⟩

theorem StepEffect.refl {s : Receiver} (label : Step) (kept : Bookkept s) : StepEffect s s label :=
  .same kept rfl rfl rfl rfl (fun _ _ present => present) rfl

/-- A connection that a guard holds is handled. -/
theorem StepEffect.handled {s s' : Receiver} {connId : Nat} {live : Live} {label : Step}
    (waits : s.call = .awaitRead connId live) (kept : Bookkept s') (handled : Handled s s' connId) :
    StepEffect s s' label := by
  have one_held : s.held = [connId] := by simp only [Receiver.held, waits]
  refine ⟨kept, ?_, ?_⟩
  · intro id mem
    left
    rw [Receiver.known, one_held]
    exact handled.known id mem
  · intro _
    rcases handled.order with order | order
    · exact ⟨[], [], by simp [handled.visits], by simp [order]⟩
    · exact ⟨[connId], [], by simp [handled.visits], by simp [order]⟩

theorem StepEffect.turn {s : Receiver} (kept : Bookkept s) (free : s.held = []) :
    StepEffect s s.turn .turn := by
  have after := kept.drained free
  have no_queue : s.drained.source.queuedIds = [] := congrArg
    (List.map ConnectionRegistration.connectionId) (TcpSource.foldl_registerConnection _ _).2.1
  refine ⟨kept.turn free, ?_, ?_⟩
  · intro id mem
    left
    rcases kept.turn_cases free with ⟨-, waits⟩ | ⟨connId, order, live, shape, -, reads⟩
    · have order_eq : s.turn.source.connectionOrder = s.drained.source.connectionOrder := by
        rw [waits]
      have queue_eq : s.turn.source.queuedIds = [] := by
        rw [waits]
        exact no_queue
      have held_eq : s.turn.held = [] := by
        rw [waits]
        rfl
      simp only [Receiver.known, order_eq, queue_eq, held_eq, drained_order, List.mem_append] at mem ⊢
      tauto
    · have taken := after.unlogged.take free shape
      have handled := taken.handled_guardRead live
      rw [← reads] at handled
      have before : id ∈ s.drained.source.queuedIds ++ (order ++ [connId]) := handled.known id mem
      have queued : id ∈ s.drained.source.connectionOrder := by
        rw [no_queue, List.nil_append, List.mem_append, List.mem_singleton] at before
        rw [shape, List.mem_cons]
        exact before.symm
      rw [drained_order, List.mem_append] at queued
      simp only [Receiver.known, List.mem_append]
      tauto
  · intro _
    rcases kept.turn_cases free with ⟨-, waits⟩ | ⟨connId, order, live, shape, -, reads⟩
    · refine ⟨s.source.queuedIds, [], ?_, ?_⟩
      · rw [waits, List.append_nil]
        rfl
      · rw [waits, List.nil_append]
        exact (drained_order s).symm
    · have taken := after.unlogged.take free shape
      have handled := taken.handled_guardRead live
      rw [← reads] at handled
      have queue := drained_order s
      rw [shape] at queue
      rcases handled.order with order_eq | order_eq
      · refine ⟨s.source.queuedIds, [connId], handled.visits, ?_⟩
        rw [order_eq, ← queue]
        rfl
      · refine ⟨s.source.queuedIds ++ [connId], [connId], handled.visits, ?_⟩
        rw [order_eq, ← List.append_assoc, ← queue]
        rfl

theorem StepEffect.connectionArrived {s : Receiver} (kept : Bookkept s)
    (waits : s.call = .awaitConnection) :
    StepEffect s s.connectionArrived .connectionArrived := by
  have free : s.held = [] := by simp only [Receiver.held, waits]
  unfold Receiver.connectionArrived
  split
  · rename_i reg rest queue
    have split_queue : s.source.queuedIds = reg.connectionId :: rest.map (·.connectionId) := by
      simp only [TcpSource.queuedIds, queue, List.map_cons]
    have distinct := kept.distinct
    rw [free, List.append_nil, split_queue] at distinct
    refine ⟨⟨?_, ?_, ?_⟩, ?_, ?_⟩
    · refine (List.Perm.nodup_iff ?_).mp distinct
      simp only [TcpSource.registerConnection, TcpSource.queuedIds, Receiver.held, List.append_nil,
        List.cons_append]
      rw [← List.append_assoc]
      exact (List.perm_append_singleton _ _).symm
    · intro id
      simp only [TcpSource.registerConnection, List.mem_append, List.mem_singleton,
        AList.mem_insert, kept.keys]
      tauto
    · intro id live
      simp only [TcpSource.registerConnection, Receiver.held, List.append_nil, List.mem_append,
        List.mem_singleton, Finset.mem_insert] at live ⊢
      rcases live with queued | new
      · exact .inr (kept.registered id (List.mem_append_left _ queued))
      · exact .inl new
    · intro id mem
      left
      simp only [Receiver.known, TcpSource.registerConnection, TcpSource.queuedIds, Receiver.held,
        List.append_nil, List.mem_append, List.mem_singleton] at mem
      simp only [Receiver.known, split_queue, List.mem_append, List.mem_cons]
      tauto
    · intro _
      exact ⟨[reg.connectionId], [], by simp, rfl⟩
  · split
    · exact .refl _ kept
    · exact .same kept rfl rfl rfl free.symm (fun _ _ present => present) rfl

theorem StepEffect.dropCall {s : Receiver} (kept : Bookkept s) :
    StepEffect s s.dropCall .drop := by
  unfold Receiver.dropCall
  cases call : s.call with
  | idle => exact .refl _ kept
  | looping => exact .refl _ kept
  | awaitConnection =>
    have free : s.held = [] := by simp only [Receiver.held, call]
    exact .same kept rfl rfl rfl free.symm (fun _ _ present => present) rfl
  | awaitRead connId live =>
    have taken := kept.taken call
    exact .handled call (taken.pushed live _ _ rfl) ⟨.inr rfl, rfl, rfl, .inl rfl⟩

theorem StepEffect.accept {s : Receiver} (kept : Bookkept s) (maxConnections : Nat)
    (reg : ConnectionRegistration) (dispatched : Bool) (fresh : reg.connectionId ∉ s.known) :
    StepEffect s { s with source := Receiver.accept s.source maxConnections reg dispatched }
      (.accept maxConnections reg dispatched) := by
  unfold Receiver.accept
  split
  · exact .refl _ kept
  · cases dispatched with
    | true =>
      have added : (s.source.queuedIds ++ [reg.connectionId] ++
          (s.source.connectionOrder ++ s.held)).Nodup := by
        refine (List.Perm.nodup_iff ?_).mp (List.nodup_cons.mpr ⟨fresh, kept.distinct⟩)
        rw [List.append_assoc]
        exact List.perm_middle.symm
      refine ⟨⟨?_, kept.keys, ?_⟩, ?_, ?_⟩
      · simp only [if_true, TcpSource.queuedIds, List.map_append]
        exact added
      · intro id live
        exact Finset.mem_insert_of_mem (kept.registered id live)
      · intro id mem
        simp only [if_true, Receiver.known, TcpSource.queuedIds, List.map_append, List.map_cons,
          List.map_nil, List.mem_append, List.mem_singleton] at mem
        simp only [Receiver.known, TcpSource.queuedIds, List.mem_append, acceptedId,
          Option.some.injEq]
        have held_eq : ∀ src, ({ s with source := src } : Receiver).held = s.held := fun _ => rfl
        rw [held_eq] at mem
        tauto
      · intro _
        exact ⟨[], [], by simp, by simp⟩
    | false =>
      refine .same kept rfl rfl rfl rfl ?_ rfl
      intro id known present
      refine Finset.mem_erase.mpr ⟨?_, Finset.mem_insert_of_mem present⟩
      rintro rfl
      exact fresh known

theorem step_effect {s : Receiver} (kept : Bookkept s) (label : Step)
    (fresh : ∀ id ∈ s.known, acceptedId label ≠ some id ∧ removedId label ≠ some id) :
    StepEffect s (s.step label) label := by
  unfold step
  cases label with
  | start =>
    dsimp only
    split
    · exact .same kept rfl rfl rfl rfl (fun _ _ present => present) rfl
    · exact .refl _ kept
  | close =>
    dsimp only
    split
    · rename_i idle
      have free : s.held = [] := by simp only [Receiver.held, idle]
      have distinct := kept.distinct
      rw [free, List.append_nil] at distinct
      have none_held : ({ s with source := s.source.close } : Receiver).held = [] := free
      refine ⟨⟨?_, ?_, ?_⟩, ?_, ?_⟩
      · rw [none_held]
        simp only [TcpSource.close, List.append_nil]
        exact (List.nodup_append.mp distinct).1
      · simp [TcpSource.close]
      · rw [none_held]
        simp [TcpSource.close]
      · intro id mem
        left
        rw [Receiver.known, none_held] at mem
        simp only [TcpSource.close, List.append_nil] at mem
        exact List.mem_append_left _ mem
      · exact fun other => absurd rfl other
    · exact .refl _ kept
  | receive =>
    dsimp only
    split
    · rename_i calls
      have free : s.held = [] := by simp only [Receiver.held, calls.1]
      exact .same kept rfl rfl rfl free.symm (fun _ _ present => present) rfl
    · exact .refl _ kept
  | turn =>
    dsimp only
    split
    · rename_i looping
      exact .turn kept (by simp only [Receiver.held, looping])
    · exact .refl _ kept
  | connectionArrived =>
    dsimp only
    split
    · rename_i waits
      exact .connectionArrived kept waits
    · exact .refl _ kept
  | readable =>
    dsimp only
    split
    · rename_i connId live waits
      exact .handled waits (kept.readable waits) ((kept.taken waits).handled_readable waits)
    · exact .refl _ kept
  | readableFailed =>
    dsimp only
    split
    · rename_i connId live waits
      have taken := kept.taken waits
      exact .handled waits (taken.dispose _ _) (taken.handled_dispose _ _)
    · exact .refl _ kept
  | drop => exact .dropCall kept
  | accept maxConnections reg dispatched =>
    refine .accept kept maxConnections reg dispatched ?_
    intro known
    exact (fresh _ known).1 rfl
  | hangUp => exact .same kept rfl rfl rfl rfl (fun _ _ present => present) rfl
  | otherInserts connId =>
    exact .same kept rfl rfl rfl rfl (fun _ _ present => Finset.mem_insert_of_mem present) rfl
  | otherRemoves connId =>
    refine .same kept rfl rfl rfl rfl ?_ rfl
    intro id known present
    refine Finset.mem_erase.mpr ⟨?_, present⟩
    rintro rfl
    exact (fresh id known).2 rfl

/-- No known id is accepted again or removed by others in the steps to come. -/
def Fresh (s : Receiver) (steps : List Step) : Prop :=
  ∀ id ∈ s.known, id ∉ steps.filterMap acceptedId ∧ id ∉ steps.filterMap removedId

theorem Fresh.head {s : Receiver} {label : Step} {rest : List Step}
    (fresh : Fresh s (label :: rest)) :
    ∀ id ∈ s.known, acceptedId label ≠ some id ∧ removedId label ≠ some id := by
  intro id known
  obtain ⟨not_accepted, not_removed⟩ := fresh id known
  simp only [List.mem_filterMap, List.mem_cons, not_exists, not_and] at not_accepted not_removed
  exact ⟨not_accepted label (.inl rfl), not_removed label (.inl rfl)⟩

theorem DistinctIds.tail {label : Step} {rest : List Step} (distinct : DistinctIds (label :: rest)) :
    DistinctIds rest := by
  constructor
  · exact distinct.accepted.sublist ((List.sublist_cons_self label rest).filterMap _)
  · intro id removed accepted
    have tail := (List.sublist_cons_self label rest)
    exact distinct.removed id ((tail.filterMap _).subset removed) ((tail.filterMap _).subset accepted)

/-- An id that was just accepted is new to all steps that follow. -/
theorem DistinctIds.head {label : Step} {rest : List Step} (distinct : DistinctIds (label :: rest))
    {id : Nat} (accepted : acceptedId label = some id) :
    id ∉ rest.filterMap acceptedId ∧ id ∉ rest.filterMap removedId := by
  constructor
  · have nodup := distinct.accepted
    rw [List.filterMap_cons_some accepted, List.nodup_cons] at nodup
    exact nodup.1
  · intro removed
    refine distinct.removed id ?_ ?_
    · exact ((List.sublist_cons_self label rest).filterMap _).subset removed
    · rw [List.filterMap_cons_some accepted]
      exact List.mem_cons_self

theorem StepEffect.fresh {s s' : Receiver} {label : Step} {rest : List Step}
    (effect : StepEffect s s' label) (distinct : DistinctIds (label :: rest))
    (fresh : Fresh s (label :: rest)) : Fresh s' rest := by
  intro id known
  rcases effect.known id known with before | accepted
  · obtain ⟨not_accepted, not_removed⟩ := fresh id before
    have tail := List.sublist_cons_self label rest
    exact ⟨fun mem => not_accepted ((tail.filterMap _).subset mem),
      fun mem => not_removed ((tail.filterMap _).subset mem)⟩
  · exact distinct.head accepted

/-- The bookkeeping holds after every run, and without a `close` in between the queue is first in,
    first out. -/
theorem run_bookkept {s : Receiver} (kept : Bookkept s) (steps : List Step)
    (distinct : DistinctIds steps) (fresh : Fresh s steps) :
    Bookkept (Runs.run step s steps) ∧
      (Step.close ∉ steps → ∃ pushed visited,
        (Runs.run step s steps).visits = s.visits ++ visited ∧
        s.source.connectionOrder ++ pushed =
          visited ++ (Runs.run step s steps).source.connectionOrder) := by
  induction steps generalizing s with
  | nil => exact ⟨kept, fun _ => ⟨[], [], by simp, by simp⟩⟩
  | cons label rest ih =>
    have effect := step_effect kept label fresh.head
    obtain ⟨kept', later⟩ := ih effect.kept distinct.tail (effect.fresh distinct fresh)
    refine ⟨kept', ?_⟩
    intro open_round
    rw [List.mem_cons, not_or] at open_round
    obtain ⟨pushed₁, visited₁, visits₁, queue₁⟩ := effect.fifo (Ne.symm open_round.1)
    obtain ⟨pushed₂, visited₂, visits₂, queue₂⟩ := later open_round.2
    refine ⟨pushed₁ ++ pushed₂, visited₁ ++ visited₂, ?_, ?_⟩
    · rw [Runs.run_cons, visits₂, visits₁, List.append_assoc]
    · rw [← List.append_assoc, queue₁, List.append_assoc, queue₂, ← List.append_assoc]
      rfl

theorem known_run {s : Receiver} (kept : Bookkept s) (steps : List Step)
    (distinct : DistinctIds steps) (fresh : Fresh s steps) :
    ∀ id ∈ (Runs.run step s steps).known, id ∈ s.known ∨ id ∈ steps.filterMap acceptedId := by
  induction steps generalizing s with
  | nil => exact fun id mem => .inl mem
  | cons label rest ih =>
    have effect := step_effect kept label fresh.head
    intro id mem
    rcases ih effect.kept distinct.tail (effect.fresh distinct fresh) id mem with before | later
    · rcases effect.known id before with known | accepted
      · exact .inl known
      · right
        rw [List.filterMap_cons_some accepted]
        exact List.mem_cons_self
    · exact .inr (((List.sublist_cons_self label rest).filterMap _).subset later)

theorem ofSource_bookkept (key : String) (baseTags : List (String × String))
    (framing : FramingMode) (batchCapacity maxBatchBytes : Nat) :
    Bookkept (ofSource (TcpSource.new key baseTags framing batchCapacity maxBatchBytes)) := by
  constructor
  · exact List.nodup_nil
  · intro id
    simp [ofSource, TcpSource.new]
  · intro id mem
    cases mem

/-- The ids of a whole run are distinct, so what a first part knows is new to the rest. -/
theorem Fresh.of_append {s : Receiver} {steps more : List Step} (kept : Bookkept s)
    (none_known : s.known = []) (distinct : DistinctIds (steps ++ more)) :
    DistinctIds steps ∧ DistinctIds more ∧ Fresh s steps ∧ Fresh (Runs.run step s steps) more := by
  have accepted := distinct.accepted
  have removed := distinct.removed
  rw [List.filterMap_append] at accepted
  rw [List.filterMap_append, List.filterMap_append] at removed
  have first : DistinctIds steps := by
    refine ⟨(List.nodup_append.mp accepted).1, ?_⟩
    intro id gone present
    exact removed id (List.mem_append_left _ gone) (List.mem_append_left _ present)
  have second : DistinctIds more := by
    refine ⟨(List.nodup_append.mp accepted).2.1, ?_⟩
    intro id gone present
    exact removed id (List.mem_append_right _ gone) (List.mem_append_right _ present)
  have new : Fresh s steps := by
    intro id known
    rw [none_known] at known
    cases known
  refine ⟨first, second, new, ?_⟩
  intro id known
  rcases known_run kept steps first new id known with before | here
  · rw [none_known] at before
    cases before
  · constructor
    · intro again
      exact (List.nodup_append.mp accepted).2.2 id here id again rfl
    · intro gone
      exact removed id (List.mem_append_right _ gone) (List.mem_append_left _ here)

/-- The connection whose read in this step ends with `Closed` or an error. -/
def endedBy (s : Receiver) : Step → Option Nat
  | .turn =>
    if s.call = .looping then
      match s.drained.source.connectionOrder with
      | [] => none
      | connId :: _ =>
        match s.drained.source.connections.lookup connId with
        | none => none
        | some live =>
          match (live.conn.readBatch false live.stream).2.2 with
          | some .closed => some connId
          | some (.disconnect _) => some connId
          | _ => none
    else none
  | .readable =>
    match s.call with
    | .awaitRead connId live =>
      match live.stream with
      | [] => none
      | read :: _ =>
        match (live.conn.readLoop true [read] [] 0).2.2 with
        | some .closed => some connId
        | some (.disconnect _) => some connId
        | _ => none
    | _ => none
  | .readableFailed =>
    match s.call with
    | .awaitRead connId _ => some connId
    | _ => none
  | _ => none

/-- No place knows the connection any more. -/
structure Gone (s : Receiver) (connId : Nat) : Prop where
  registry : connId ∉ s.source.registry
  order : connId ∉ s.source.connectionOrder
  connections : connId ∉ s.source.connections
  held : connId ∉ s.held

theorem Taken.gone {s : Receiver} {connId : Nat} (taken : Taken s connId) (live : Live)
    {outcome : ReadOutcome} (ended : outcome = .closed ∨ ∃ detail, outcome = .disconnect detail) :
    Gone (s.dispose connId live outcome) connId := by
  have same := List.erase_of_not_mem taken.not_queued
  have freed : ∀ call, ({ s with call } : Receiver).held = [] →
      Gone { s with source := s.source.deregisterConnection connId, call } connId := by
    intro call free
    constructor
    · exact Finset.notMem_erase _ _
    · simp only [TcpSource.deregisterConnection, same]
      exact taken.not_queued
    · simp [TcpSource.deregisterConnection]
    · change connId ∉ ({ s with call } : Receiver).held
      rw [free]
      exact List.not_mem_nil
  rcases ended with rfl | ⟨detail, rfl⟩
  · exact freed .looping rfl
  · exact freed .idle rfl

theorem ended_gone {s : Receiver} (kept : Bookkept s) {label : Step} {connId : Nat}
    (ended : endedBy s label = some connId) : Gone (s.step label) connId := by
  cases label with
  | turn =>
    simp only [endedBy] at ended
    split at ended
    · rename_i looping
      have free : s.held = [] := by simp only [Receiver.held, looping]
      have after := kept.drained free
      rcases kept.turn_cases free with ⟨no_key, -⟩ | ⟨headId, order, live, shape, found, reads⟩
      · split at ended
        · cases ended
        · rename_i headId order shape
          obtain ⟨live, found⟩ := after.lookup_head shape
          have key : headId ∈ s.drained.source.connections := by
            rw [← AList.lookup_isSome, found]
            rfl
          rw [AList.mem_keys, no_key] at key
          cases key
      · have taken := after.unlogged.take free shape
        rw [shape] at ended
        dsimp only at ended
        rw [found] at ended
        dsimp only at ended
        have stepped : s.step .turn = s.turn := if_pos looping
        rw [stepped, reads]
        unfold Receiver.guardRead
        cases read : live.conn.readBatch false live.stream with
        | mk conn rest =>
          obtain ⟨stream, outcome⟩ := rest
          rw [read] at ended
          dsimp only at ended
          split at ended
          · cases ended
            exact taken.gone _ (.inl rfl)
          · rename_i detail
            cases ended
            exact taken.gone _ (.inr ⟨detail, rfl⟩)
          · cases ended
    · cases ended
  | readable =>
    simp only [endedBy] at ended
    split at ended
    · rename_i heldId live waits
      have taken := kept.taken waits
      simp only [step, waits]
      unfold Receiver.readable
      cases shape : live.stream with
      | nil =>
        rw [shape] at ended
        cases ended
      | cons read stream =>
        rw [shape] at ended
        dsimp only at ended ⊢
        cases result : live.conn.readLoop true [read] [] 0 with
        | mk conn rest =>
          obtain ⟨left, outcome⟩ := rest
          rw [result] at ended
          dsimp only at ended
          split at ended
          · cases ended
            exact taken.gone _ (.inl rfl)
          · rename_i detail
            cases ended
            exact taken.gone _ (.inr ⟨detail, rfl⟩)
          · cases ended
    · cases ended
  | readableFailed =>
    simp only [endedBy] at ended
    split at ended
    · rename_i heldId live waits
      cases ended
      simp only [step, waits]
      exact (kept.taken waits).gone _ (.inr ⟨_, rfl⟩)
    · cases ended
  | start => cases ended
  | close => cases ended
  | receive => cases ended
  | connectionArrived => cases ended
  | drop => cases ended
  | accept maxConnections reg dispatched => cases ended
  | hangUp => cases ended
  | otherInserts id => cases ended
  | otherRemoves id => cases ended

/-- In every run with distinct connection ids the queue lists the keys of the map once each and
    all of them are registered. So a turn of the loop finds a connection in the queue as soon as
    there is one, the next visits take the queue in its order, each connection once, until the
    source is closed, and a connection whose read ends is gone from the registry. -/
theorem tcpSource_bookkeeping (key : String) (baseTags : List (String × String))
    (framing : FramingMode) (batchCapacity maxBatchBytes : Nat) (steps : List Step)
    (distinct : DistinctIds steps) :
    let s := Runs.run step
      (ofSource (TcpSource.new key baseTags framing batchCapacity maxBatchBytes)) steps
    (s.source.connectionOrder.Nodup ∧
      (∀ id, id ∈ s.source.connectionOrder ↔ id ∈ s.source.connections) ∧
      ∀ id ∈ s.source.connections, id ∈ s.source.registry) ∧
    (s.call = .looping → s.source.drainNewConnections.connections.keys ≠ [] →
      s.source.drainNewConnections.connectionOrder ≠ []) ∧
    (∀ more, DistinctIds (steps ++ more) → Step.close ∉ more →
      ∃ visited, (Runs.run step s more).visits = s.visits ++ visited ∧
        visited.take s.source.connectionOrder.length <+: s.source.connectionOrder ∧
        (s.source.connectionOrder.length ≤ visited.length →
          visited.take s.source.connectionOrder.length = s.source.connectionOrder)) ∧
    ∀ label id, endedBy s label = some id → Gone (s.step label) id := by
  intro s
  have start := ofSource_bookkept key baseTags framing batchCapacity maxBatchBytes
  obtain ⟨-, -, fresh, -⟩ := Fresh.of_append start rfl
    (by rwa [List.append_nil] : DistinctIds (steps ++ []))
  obtain ⟨kept, -⟩ := run_bookkept start steps distinct fresh
  have order_nodup : s.source.connectionOrder.Nodup :=
    (List.nodup_append.mp (List.nodup_append.mp kept.distinct).2.1).1
  refine ⟨⟨order_nodup, kept.keys, ?_⟩, ?_, ?_, ?_⟩
  · intro id mapped
    exact kept.registered id (List.mem_append_left _ ((kept.keys id).mpr mapped))
  · intro looping some_key
    have free : s.held = [] := by simp only [held, looping]
    exact (kept.drained free).order_of_keys some_key
  · intro more all_distinct open_round
    obtain ⟨-, distinct_more, -, fresh_more⟩ := Fresh.of_append start rfl all_distinct
    obtain ⟨-, later⟩ := run_bookkept kept more distinct_more fresh_more
    obtain ⟨pushed, visited, visits, queue⟩ := later open_round
    have front : visited.take s.source.connectionOrder.length <+: s.source.connectionOrder := by
      refine List.prefix_of_prefix_length_le (?_ : _ <+: s.source.connectionOrder ++ pushed) ?_ ?_
      · rw [queue]
        exact (List.take_prefix _ _).trans (List.prefix_append _ _)
      · exact List.prefix_append _ _
      · exact List.length_take_le _ _
    refine ⟨visited, visits, front, ?_⟩
    intro whole_round
    exact front.eq_of_length (List.length_take_of_le whole_round)
  · intro label id ended
    exact ended_gone kept ended

/-- Two connections, of which the first is read and goes behind the second. -/
def twoConnections : List Step :=
  [.start, .accept 8 ⟨1, [.ok [97, 10]], "peer"⟩ true, .accept 8 ⟨2, [], "peer"⟩ true, .receive, .turn]

theorem bookkeeping_two_connections :
    let s := Runs.run step (ofSource (TcpSource.new "src" [] .line 16 1024)) twoConnections
    s.source.connectionOrder = [2, 1] ∧ s.source.connectionOrder.Nodup ∧
      ∀ id ∈ s.source.connections, id ∈ s.source.registry := by
  have distinct : DistinctIds twoConnections := ⟨by decide, by decide⟩
  obtain ⟨⟨once, -, registered⟩, -⟩ :=
    tcpSource_bookkeeping "src" [] .line 16 1024 twoConnections distinct
  exact ⟨by decide +kernel, once, registered⟩

end Receiver

end Tcp

end WarpMotor
