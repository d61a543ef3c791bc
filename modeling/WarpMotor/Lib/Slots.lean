import Mathlib.Algebra.BigOperators.Group.List.Basic
import Mathlib.Data.List.Perm.Basic
import Mathlib.Algebra.GroupWithZero.Nat

/-!
Reservations on one time line. `start` and `len` read where a slot begins and
how long it is. Slots are spaced when each begins after all the ones before
it have ended; whatever is kept of them and begins inside a window is then,
up to its last slot, no longer than the window.
-/
namespace Slots
variable {α : Type*} (start len : α → Nat)

def Spaced (slots : List α) : Prop := slots.Pairwise fun a b => start a + len a ≤ start b

def total (slots : List α) : Nat := (slots.map len).sum

@[simp] theorem total_nil : total len [] = 0 := rfl

@[simp] theorem total_cons (a : α) (rest : List α) : total len (a :: rest) = len a + total len rest :=
  List.sum_cons

@[simp] theorem total_append (slots more : List α) :
    total len (slots ++ more) = total len slots + total len more := by
  simp [total]

theorem total_perm {slots others : List α} (same : slots.Perm others) :
    total len slots = total len others :=
  (same.map len).sum_eq

variable {start len}

theorem spaced_nil : Spaced start len [] := List.Pairwise.nil

theorem spaced_concat {slots : List α} {a : α} (spaced : Spaced start len slots)
    (after : ∀ b ∈ slots, start b + len b ≤ start a) : Spaced start len (slots ++ [a]) := by
  refine List.pairwise_append.mpr ⟨spaced, List.pairwise_singleton _ _, ?_⟩
  intro b member other last
  rw [List.mem_singleton.mp last]
  exact after b member

/-- Slots that begin at `lo` or later fill the time up to the start of the last one. -/
theorem Spaced.total_le {slots : List α} {last : α} {lo : Nat}
    (spaced : Spaced start len (slots ++ [last])) (begins : ∀ a ∈ slots ++ [last], lo ≤ start a) :
    lo + total len slots ≤ start last := by
  induction slots generalizing lo with
  | nil => exact begins last (List.mem_singleton_self last)
  | cons a rest ih =>
    obtain ⟨before, tail⟩ := List.pairwise_cons.mp spaced
    have first : lo ≤ start a := begins a (List.mem_cons_self ..)
    have filled := ih tail before
    rw [total_cons]
    omega

theorem Spaced.total_le_window {slots : List α} {lo hi : Nat} (spaced : Spaced start len slots)
    (some_slot : slots ≠ []) (inside : ∀ a ∈ slots, lo ≤ start a ∧ start a ≤ hi) :
    ∃ last ∈ slots, total len slots ≤ (hi - lo) + len last := by
  obtain ⟨front, last, rfl⟩ := (List.eq_nil_or_concat' slots).resolve_left some_slot
  have member : last ∈ front ++ [last] := List.mem_append_right _ (List.mem_singleton_self last)
  have filled := spaced.total_le fun a among => (inside a among).1
  have ends := (inside last member).2
  refine ⟨last, member, ?_⟩
  rw [total_append, total_cons, total_nil]
  omega

/-- The same for any part of spaced slots, in any order. -/
theorem Spaced.part_le_window {slots part : List α} {lo hi : Nat} (spaced : Spaced start len slots)
    (kept : part.Subperm slots) (some_slot : part ≠ [])
    (inside : ∀ a ∈ part, lo ≤ start a ∧ start a ≤ hi) :
    ∃ last ∈ part, total len part ≤ (hi - lo) + len last := by
  obtain ⟨ordered, same, sub⟩ := kept
  have nonempty : ordered ≠ [] := by
    rintro rfl
    exact some_slot (List.nil_perm.mp same)
  have in_order : Spaced start len ordered := List.Pairwise.sublist sub spaced
  obtain ⟨last, member, bounded⟩ := in_order.total_le_window nonempty
    fun a among => inside a (same.mem_iff.mp among)
  refine ⟨last, same.mem_iff.mp member, ?_⟩
  rw [total_perm len same] at bounded
  exact bounded

end Slots
