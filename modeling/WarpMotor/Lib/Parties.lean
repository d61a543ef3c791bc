import Mathlib.Algebra.BigOperators.Group.List.Basic
import Mathlib.Algebra.GroupWithZero.Nat

/-!
Parties that move one at a time, each with a state of its own. A total over all
of them changes by what the party that moved changes.
-/
namespace Parties
variable {P : Type*}

def total (weight : P → Nat) (parties : List P) : Nat := (parties.map weight).sum

@[simp] theorem total_nil (weight : P → Nat) : total weight [] = 0 := rfl

@[simp] theorem total_cons (weight : P → Nat) (p : P) (rest : List P) :
    total weight (p :: rest) = weight p + total weight rest :=
  List.sum_cons

theorem total_set (weight : P → Nat) {parties : List P} {i : Nat} {p : P}
    (here : parties[i]? = some p) (q : P) :
    total weight (parties.set i q) + weight p = total weight parties + weight q := by
  induction parties generalizing i with
  | nil => cases here
  | cons first rest ih =>
    cases i with
    | zero =>
      cases here
      rw [List.set_cons_zero, total_cons, total_cons]
      omega
    | succ i =>
      have later := ih here
      rw [List.set_cons_succ, total_cons, total_cons]
      omega

theorem le_total (weight : P → Nat) {parties : List P} {p : P} (member : p ∈ parties) :
    weight p ≤ total weight parties := by
  induction parties with
  | nil => cases member
  | cons first rest ih =>
    rw [total_cons]
    rcases List.mem_cons.mp member with rfl | later
    · omega
    · have bound := ih later
      omega

/-- Where every weight grows by `c` at most, the total grows by `c` for each party at most. -/
theorem total_le_add {weight heavier : P → Nat} {c : Nat} {parties : List P}
    (grows : ∀ p ∈ parties, heavier p ≤ weight p + c) :
    total heavier parties ≤ total weight parties + c * parties.length := by
  induction parties with
  | nil => simp
  | cons first rest ih =>
    have here := grows first (List.mem_cons_self ..)
    have later := ih fun p member => grows p (List.mem_cons_of_mem first member)
    rw [total_cons, total_cons, List.length_cons, Nat.mul_add]
    omega

theorem total_le_total {weight heavier : P → Nat} {parties : List P}
    (le : ∀ p ∈ parties, weight p ≤ heavier p) : total weight parties ≤ total heavier parties := by
  have bound := total_le_add (c := 0) le
  omega

/-- Two totals are the same only if all their parts are. -/
theorem total_eq_iff {weight heavier : P → Nat} {parties : List P}
    (le : ∀ p ∈ parties, weight p ≤ heavier p) :
    total weight parties = total heavier parties ↔ ∀ p ∈ parties, weight p = heavier p := by
  induction parties with
  | nil => simp
  | cons first rest ih =>
    have here := le first (List.mem_cons_self ..)
    have tail : ∀ p ∈ rest, weight p ≤ heavier p :=
      fun p member => le p (List.mem_cons_of_mem first member)
    have later := total_le_total tail
    rw [total_cons, total_cons, List.forall_mem_cons, ← ih tail]
    omega

theorem total_add (weight more : P → Nat) (parties : List P) :
    total (fun p => weight p + more p) parties = total weight parties + total more parties := by
  induction parties with
  | nil => rfl
  | cons first rest ih =>
    simp only [total_cons, ih]
    omega

theorem total_mul (c : Nat) (weight : P → Nat) (parties : List P) :
    total (fun p => c * weight p) parties = c * total weight parties := by
  induction parties with
  | nil => rfl
  | cons first rest ih => rw [total_cons, total_cons, ih, Nat.mul_add]

theorem total_le_mul {weight : P → Nat} {c : Nat} {parties : List P}
    (bound : ∀ p ∈ parties, weight p ≤ c) : total weight parties ≤ c * parties.length := by
  induction parties with
  | nil => simp
  | cons first rest ih =>
    have here := bound first (List.mem_cons_self ..)
    have later := ih fun p member => bound p (List.mem_cons_of_mem first member)
    rw [total_cons, List.length_cons, Nat.mul_add]
    omega

/-- What holds of each party holds after one of them has moved to a state of which it holds. -/
theorem forall_set {Good : P → Prop} {parties : List P} {i : Nat} {q : P}
    (good : ∀ p ∈ parties, Good p) (moved : Good q) : ∀ p ∈ parties.set i q, Good p := by
  intro p member
  rcases List.mem_or_eq_of_mem_set member with before | rfl
  · exact good p before
  · exact moved

end Parties
