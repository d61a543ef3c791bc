import Mathlib.Algebra.Order.Group.Multiset

/-!
Books of what is held. A transfer settles a part of the holdings and leaves a
part. It may lose some of them on the way and never gains any; the condition
says when it loses nothing. Transfers that follow one another add up.
-/
namespace Ledger
variable {M : Type*} [AddCancelCommMonoid M] [PartialOrder M]

structure Transfer (held settled left : M) (exact : Prop) : Prop where
  bounded : settled + left ≤ held
  exact_iff : settled + left = held ↔ exact

namespace Transfer
variable {held settled first second middle left : M} {p q : Prop}

/-- Nothing is settled and nothing is lost. -/
theorem idle (held : M) : Transfer held 0 held True :=
  ⟨(zero_add held).le, iff_true_intro (zero_add held)⟩

theorem congr (transfer : Transfer held settled left p) (same : p ↔ q) :
    Transfer held settled left q :=
  ⟨transfer.bounded, transfer.exact_iff.trans same⟩

variable [AddLeftMono M]

/-- Holdings that the transfer does not touch. -/
theorem aside (transfer : Transfer held settled left p) (other : M) :
    Transfer (held + other) settled (left + other) p := by
  constructor
  · rw [← add_assoc]
    exact add_le_add_left transfer.bounded other
  · rw [← add_assoc, add_left_inj]
    exact transfer.exact_iff

/-- A transfer that has lost something may lose more. -/
theorem lose (transfer : Transfer held settled middle p) (fewer : left ≤ middle) (lost : ¬ p) :
    Transfer held settled left p := by
  have less : settled + left ≤ settled + middle := add_le_add_right fewer settled
  refine ⟨less.trans transfer.bounded, ?_⟩
  constructor
  · intro whole
    apply transfer.exact_iff.mp
    apply le_antisymm transfer.bounded
    rw [← whole]
    exact less
  · intro kept
    exact absurd kept lost

/-- Of two transfers in a row neither may lose anything. -/
theorem trans (before : Transfer held first middle p) (after : Transfer middle second left q) :
    Transfer held (first + second) left (p ∧ q) := by
  have later : first + second + left ≤ first + middle := by
    rw [add_assoc]
    exact add_le_add_right after.bounded first
  refine ⟨later.trans before.bounded, ?_⟩
  rw [← before.exact_iff, ← after.exact_iff]
  constructor
  · intro whole
    have through : first + middle = held := by
      apply le_antisymm before.bounded
      rw [← whole]
      exact later
    refine ⟨through, ?_⟩
    rw [← through, add_assoc] at whole
    exact add_left_cancel whole
  · intro both
    rw [add_assoc, both.2, both.1]

/-- What is settled covers all that was held exactly when nothing is lost and nothing left. -/
theorem settled_covers_iff (transfer : Transfer held settled left p) (positive : 0 ≤ left) :
    held ≤ settled ↔ p ∧ left = 0 := by
  have within : settled ≤ settled + left := by
    have grown := add_le_add_right positive settled
    rw [add_zero] at grown
    exact grown
  constructor
  · intro covered
    have same : settled + left = held := by
      apply le_antisymm transfer.bounded
      exact covered.trans within
    refine ⟨transfer.exact_iff.mp same, ?_⟩
    have none : settled + left = settled + 0 := by
      rw [add_zero]
      exact le_antisymm (transfer.bounded.trans covered) within
    exact add_left_cancel none
  · intro both
    have same := transfer.exact_iff.mpr both.1
    rw [both.2, add_zero] at same
    exact same.ge

end Transfer
end Ledger
