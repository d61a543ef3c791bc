import Mathlib.Data.List.MinMax
import Mathlib.Order.Nat

/-!
A broadcast channel of bounded size. A message stays in the buffer until every
live receiver has received it, so the buffer is as long as the slowest receiver
is behind; a sender waits while it is full. A receiver is a name and the number
of messages it has received. A clone starts where its original stands.
-/
namespace Broadcasting
variable {R M : Type}

structure Broadcast (R M : Type) where
  capacity : Nat
  sent : List M
  receivers : List (R × Nat)

namespace Broadcast

def new (capacity : Nat) (first : R) : Broadcast R M := ⟨capacity, [], [(first, 0)]⟩

section
variable [DecidableEq R]

def clone (channel : Broadcast R M) (original copy : R) : Broadcast R M :=
  { channel with
    receivers := channel.receivers ++
      (channel.receivers.filter (fun receiver => receiver.1 = original)).map
        (fun receiver => (copy, receiver.2)) }

def receive (channel : Broadcast R M) (name : R) : Broadcast R M :=
  { channel with
    receivers := channel.receivers.map (fun receiver =>
      if receiver.1 = name ∧ receiver.2 < channel.sent.length then (name, receiver.2 + 1)
      else receiver) }

def close (channel : Broadcast R M) (name : R) : Broadcast R M :=
  { channel with receivers := channel.receivers.filter (fun receiver => receiver.1 ≠ name) }

end

/-- Messages a receiver has not received yet. -/
def behind (channel : Broadcast R M) (receiver : R × Nat) : Nat :=
  channel.sent.length - receiver.2

def occupancy (channel : Broadcast R M) : Nat :=
  (channel.receivers.map channel.behind).foldr max 0

def isFull (channel : Broadcast R M) : Bool := decide (channel.capacity ≤ channel.occupancy)

/-- `none`: the sender waits. -/
def broadcast (channel : Broadcast R M) (message : M) : Option (Broadcast R M) :=
  if channel.isFull then none else some { channel with sent := channel.sent ++ [message] }

variable {channel : Broadcast R M}

theorem occupancy_le_sent (channel : Broadcast R M) :
    channel.occupancy ≤ channel.sent.length := by
  apply List.max_le_of_forall_le (channel.receivers.map channel.behind)
  intro count member
  obtain ⟨receiver, _, rfl⟩ := List.mem_map.mp member
  exact Nat.sub_le _ _

/-- A receiver that has received nothing keeps every message ever sent. -/
theorem occupancy_of_idle {name : R} (idle : (name, 0) ∈ channel.receivers) :
    channel.occupancy = channel.sent.length := by
  have most : channel.behind (name, 0) ≤ channel.occupancy :=
    List.le_max_of_le' 0 (List.mem_map_of_mem idle) (Nat.le_refl _)
  have least := occupancy_le_sent channel
  unfold behind at most
  omega

theorem broadcast_eq_none_iff (message : M) :
    channel.broadcast message = none ↔ channel.isFull = true := by
  unfold broadcast
  cases channel.isFull <;> simp

section Idle
variable [DecidableEq R] {name other copy : R} {received : Nat}

theorem clone_keeps (idle : (name, received) ∈ channel.receivers) :
    (name, received) ∈ (channel.clone other copy).receivers :=
  List.mem_append_left _ idle

theorem receive_keeps (different : name ≠ other) (idle : (name, received) ∈ channel.receivers) :
    (name, received) ∈ (channel.receive other).receivers := by
  refine List.mem_map.mpr ⟨(name, received), idle, ?_⟩
  simp [different]

theorem close_keeps (different : name ≠ other) (idle : (name, received) ∈ channel.receivers) :
    (name, received) ∈ (channel.close other).receivers :=
  List.mem_filter.mpr ⟨idle, by simp [different]⟩

end Idle

end Broadcast
end Broadcasting
