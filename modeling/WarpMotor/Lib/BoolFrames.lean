import Mathlib.Data.Bool.Basic
import Mathlib.Data.List.Basic

/-!
Stacks of pending boolean operations. A frame waits for one operand: the right
side of a conjunction or a disjunction whose left side is known, or the body
of a group that may be negated. `pass` sends a value through a stack, top
frame first. `forced` says what comes out when the known sides may be anything:
only their kinds count. `pass_of_forced` and `exists_pass_of_not_forced` show
that it is exact.
-/
namespace BoolFrames
variable {A B : Type*}

inductive Kind where
  | and
  | or
  | group (negated : Bool)
  deriving DecidableEq, Repr

inductive Frame (A : Type*) where
  | and (left : A)
  | or (left : A)
  | group (negated : Bool)
  deriving DecidableEq, Repr

namespace Frame

def kind : Frame A → Kind
  | .and _ => .and
  | .or _ => .or
  | .group negated => .group negated

def map (f : A → B) : Frame A → Frame B
  | .and left => .and (f left)
  | .or left => .or (f left)
  | .group negated => .group negated

@[simp] theorem kind_map (f : A → B) (frame : Frame A) : (frame.map f).kind = frame.kind := by
  cases frame <;> rfl

def apply : Frame Bool → Bool → Bool
  | .and left, value => left && value
  | .or left, value => left || value
  | .group negated, value => xor value negated

end Frame

theorem negate_twice (value negated : Bool) : xor (xor value negated) negated = value := by
  rw [Bool.xor_assoc, Bool.xor_self, Bool.xor_false]

def pass (frames : List (Frame Bool)) (value : Bool) : Bool :=
  frames.foldl (fun value frame => frame.apply value) value

@[simp] theorem pass_nil (value : Bool) : pass [] value = value := rfl

@[simp] theorem pass_cons (frame : Frame Bool) (frames : List (Frame Bool)) (value : Bool) :
    pass (frame :: frames) value = pass frames (frame.apply value) := rfl

@[simp] theorem pass_append (upper lower : List (Frame Bool)) (value : Bool) :
    pass (upper ++ lower) value = pass lower (pass upper value) := by
  simp [pass]

/-- What comes out of a stack of these kinds whatever the known sides are, if that is fixed. -/
def forced : List Kind → Bool → Option Bool
  | [], value => some value
  | .group negated :: rest, value => forced rest (xor value negated)
  | .and :: rest, false => forced rest false
  | .and :: _, true => none
  | .or :: rest, true => forced rest true
  | .or :: _, false => none

theorem pass_of_forced {frames : List (Frame Bool)} {value result : Bool}
    (fixed : forced (frames.map Frame.kind) value = some result) : pass frames value = result := by
  induction frames generalizing value with
  | nil => simpa [forced] using fixed
  | cons frame rest ih =>
    cases frame with
    | group negated => exact ih fixed
    | and left =>
      cases value with
      | false =>
        rw [pass_cons, Frame.apply, Bool.and_false]
        exact ih fixed
      | true => cases fixed
    | or left =>
      cases value with
      | true =>
        rw [pass_cons, Frame.apply, Bool.or_true]
        exact ih fixed
      | false => cases fixed

/-- Known sides that let every value through, up to the negations on the way. -/
theorem exists_transparent (kinds : List Kind) :
    ∃ frames : List (Frame Bool), frames.map Frame.kind = kinds ∧
      ∃ flip, ∀ value, pass frames value = xor value flip := by
  induction kinds with
  | nil => exact ⟨[], rfl, false, by simp⟩
  | cons kind rest ih =>
    obtain ⟨frames, kinds, flip, through⟩ := ih
    cases kind with
    | and => exact ⟨.and true :: frames, by simp [Frame.kind, kinds], flip, by simp [Frame.apply, through]⟩
    | or => exact ⟨.or false :: frames, by simp [Frame.kind, kinds], flip, by simp [Frame.apply, through]⟩
    | group negated =>
      refine ⟨.group negated :: frames, by simp [Frame.kind, kinds], xor negated flip, ?_⟩
      intro value
      rw [pass_cons, Frame.apply, through, Bool.xor_assoc]

theorem exists_pass_of_not_forced {kinds : List Kind} {value result : Bool}
    (free : forced kinds value ≠ some result) :
    ∃ frames : List (Frame Bool), frames.map Frame.kind = kinds ∧ pass frames value = !result := by
  induction kinds generalizing value with
  | nil =>
    refine ⟨[], rfl, ?_⟩
    cases value <;> cases result <;> simp_all [forced]
  | cons kind rest ih =>
    -- a known side that decides can be chosen so that the rest comes out as wanted
    have chosen : ∃ frames : List (Frame Bool), frames.map Frame.kind = rest ∧
        ∃ left, pass frames left = !result := by
      obtain ⟨frames, kinds, flip, through⟩ := exists_transparent rest
      refine ⟨frames, kinds, xor (!result) flip, ?_⟩
      rw [through, negate_twice]
    cases kind with
    | group negated =>
      obtain ⟨frames, kinds, out⟩ := ih free
      exact ⟨.group negated :: frames, by simp [Frame.kind, kinds], out⟩
    | and =>
      cases value with
      | false =>
        obtain ⟨frames, kinds, out⟩ := ih free
        exact ⟨.and true :: frames, by simp [Frame.kind, kinds], out⟩
      | true =>
        obtain ⟨frames, kinds, left, out⟩ := chosen
        exact ⟨.and left :: frames, by simp [Frame.kind, kinds], by simpa [Frame.apply] using out⟩
    | or =>
      cases value with
      | true =>
        obtain ⟨frames, kinds, out⟩ := ih free
        exact ⟨.or false :: frames, by simp [Frame.kind, kinds], out⟩
      | false =>
        obtain ⟨frames, kinds, left, out⟩ := chosen
        exact ⟨.or left :: frames, by simp [Frame.kind, kinds], by simpa [Frame.apply] using out⟩

end BoolFrames
