import Mathlib.Algebra.Order.Group.Abs
import Mathlib.Algebra.Order.Group.Int

/-!
Arithmetic on the integers of a signed type of fixed width. Each operation
gives the exact result, or nothing where the type has no place for it.
-/
namespace WarpMotor

/-- A signed type in two's complement, by the greatest number it holds. -/
structure IntType where
  greatest : Int
  nonnegative : 0 ≤ greatest

namespace IntType

variable (type : IntType)

def least : Int := -type.greatest - 1

def Fits (n : Int) : Prop := type.least ≤ n ∧ n ≤ type.greatest

instance (n : Int) : Decidable (type.Fits n) := inferInstanceAs (Decidable (_ ∧ _))

/-- The number itself, if it fits. -/
def checked (n : Int) : Option Int := if type.Fits n then some n else none

def checkedAdd (a b : Int) : Option Int := type.checked (a + b)

def checkedSub (a b : Int) : Option Int := type.checked (a - b)

def checkedMul (a b : Int) : Option Int := type.checked (a * b)

def checkedNeg (a : Int) : Option Int := if a = type.least then none else some (-a)

def checkedAbs (a : Int) : Option Int := if a = type.least then none else some (|a|)

/-- The remainder of the quotient rounded towards zero. -/
def checkedRem (a b : Int) : Option Int :=
  if b = 0 then none else if a = type.least ∧ b = -1 then none else some (a.tmod b)

variable {type}

theorem checked_of_fits {n : Int} (fits : type.Fits n) : type.checked n = some n := if_pos fits

theorem checked_of_not {n : Int} (wide : ¬ type.Fits n) : type.checked n = none := if_neg wide

/-- Of the numbers of the type only the least has no negative. -/
theorem neg_fits_iff {a : Int} (fits : type.Fits a) : type.Fits (-a) ↔ a ≠ type.least := by
  unfold Fits least at *
  omega

theorem abs_fits_iff {a : Int} (fits : type.Fits a) : type.Fits (|a|) ↔ a ≠ type.least := by
  have nonnegative := type.nonnegative
  unfold Fits least at *
  rcases abs_cases a with ⟨same, _⟩ | ⟨same, _⟩ <;> omega

theorem checkedNeg_eq {a : Int} (fits : type.Fits a) :
    type.checkedNeg a = type.checked (-a) := by
  unfold checkedNeg
  split
  · next lowest => rw [checked_of_not (mt (neg_fits_iff fits).mp (not_not.mpr lowest))]
  · next other => rw [checked_of_fits ((neg_fits_iff fits).mpr other)]

theorem checkedAbs_eq {a : Int} (fits : type.Fits a) :
    type.checkedAbs a = type.checked (|a|) := by
  unfold checkedAbs
  split
  · next lowest => rw [checked_of_not (mt (abs_fits_iff fits).mp (not_not.mpr lowest))]
  · next other => rw [checked_of_fits ((abs_fits_iff fits).mpr other)]

/-- A remainder is no further from zero than the number divided. -/
theorem tmod_fits {a : Int} (fits : type.Fits a) (b : Int) : type.Fits (a.tmod b) := by
  have nonnegative := type.nonnegative
  have bound : (a.tmod b).natAbs ≤ a.natAbs := by
    rw [Int.natAbs_tmod]
    exact Nat.mod_le _ _
  have sign_up : 0 ≤ a → 0 ≤ a.tmod b := fun up => Int.tmod_nonneg b up
  have sign_down : a ≤ 0 → a.tmod b ≤ 0 := by
    intro down
    have flipped := Int.tmod_nonneg b (a := -a) (by omega)
    rw [Int.neg_tmod] at flipped
    omega
  unfold Fits least at *
  omega

end IntType

end WarpMotor
