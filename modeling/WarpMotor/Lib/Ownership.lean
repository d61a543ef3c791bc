import Mathlib.Data.List.Basic

/-!
Who holds a sender of which channel. A channel is closed for its receiver once
no holder has a sender of it, or once the receiver closed it itself. Holders
hand out copies of what they hold and drop all of it when they end.
-/
namespace Ownership
variable {H C : Type}

structure Senders (H C : Type) where
  held : List (H × C)
  shut : List C

namespace Senders

/-- The receivers close their channels themselves. -/
def close (senders : Senders H C) (channels : List C) : Senders H C :=
  { senders with shut := channels ++ senders.shut }

section Holders
variable [DecidableEq H] {senders : Senders H C} {owner other : H} {channel : C}

def drop (senders : Senders H C) (holder : H) : Senders H C :=
  { senders with held := senders.held.filter (fun sender => sender.1 ≠ holder) }

/-- `receiver` gets a copy of every sender that `owner` holds. -/
def copy (senders : Senders H C) (owner receiver : H) : Senders H C :=
  { senders with
    held := senders.held ++
      (senders.held.filter (fun sender => sender.1 = owner)).map
        (fun sender => (receiver, sender.2)) }

theorem mem_drop : (owner, channel) ∈ (senders.drop other).held ↔
    (owner, channel) ∈ senders.held ∧ owner ≠ other := by
  simp [drop, List.mem_filter]

theorem mem_copy {receiver : H} : (other, channel) ∈ (senders.copy owner receiver).held ↔
    (other, channel) ∈ senders.held ∨ other = receiver ∧ (owner, channel) ∈ senders.held := by
  simp only [copy, List.mem_append, List.mem_map, List.mem_filter, decide_eq_true_eq,
    Prod.mk.injEq]
  constructor
  · intro member
    cases member with
    | inl before => exact Or.inl before
    | inr copied =>
      obtain ⟨sender, ⟨held, same⟩, receives, channels⟩ := copied
      exact Or.inr ⟨receives.symm, by rw [← same, ← channels]; exact held⟩
  · intro member
    cases member with
    | inl before => exact Or.inl before
    | inr copied => exact Or.inr ⟨(owner, channel), ⟨copied.2, rfl⟩, copied.1.symm, rfl⟩

/-- Dropping every holder of a list in turn leaves none of them with a sender. -/
theorem mem_dropAll (holders : List H) (senders : Senders H C) :
    (owner, channel) ∈ (holders.foldl Senders.drop senders).held ↔
      (owner, channel) ∈ senders.held ∧ owner ∉ holders := by
  induction holders generalizing senders with
  | nil => simp
  | cons holder rest ih =>
    rw [List.foldl_cons, ih, mem_drop, List.mem_cons, not_or]
    constructor
    · intro kept
      exact ⟨kept.1.1, kept.1.2, kept.2⟩
    · intro kept
      exact ⟨⟨kept.1, kept.2.1⟩, kept.2.2⟩

end Holders

section Channels
variable [DecidableEq C] {senders : Senders H C} {owner : H} {channel : C}

def holds [DecidableEq H] (senders : Senders H C) (holder : H) (channel : C) : Bool :=
  decide ((holder, channel) ∈ senders.held)

def isClosed (senders : Senders H C) (channel : C) : Bool :=
  decide (channel ∈ senders.shut) || senders.held.all (fun sender => sender.2 ≠ channel)

/-- A channel with a sender somewhere is open until its own receiver closes it. -/
theorem not_closed_of_held (held : (owner, channel) ∈ senders.held)
    (unshut : channel ∉ senders.shut) : senders.isClosed channel = false := by
  rw [isClosed, Bool.or_eq_false_iff, decide_eq_false_iff_not]
  constructor
  · exact unshut
  · rw [Bool.eq_false_iff, ne_eq, List.all_eq_true]
    intro free
    have differs := free (owner, channel) held
    simp at differs

theorem closed_of_unheld (unheld : ∀ holder, (holder, channel) ∉ senders.held) :
    senders.isClosed channel = true := by
  rw [isClosed, Bool.or_eq_true, List.all_eq_true]
  right
  intro sender member
  rw [decide_eq_true_iff]
  intro same
  exact unheld sender.1 (same ▸ member)

end Channels
end Senders
end Ownership
