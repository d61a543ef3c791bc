import Mathlib.Data.List.Nodup
import WarpMotor.Cond.Parser
import WarpMotor.Lib.BoolFrames

/-!
The grammar of conditions as a syntax tree and the two meanings of a tree. The
one is its value under the usual precedence. The other follows the parser: a
closing bracket ends only the innermost call, so the calls for the other
operators of a group, and the group itself, stay open and take in what follows
the bracket. `residual` is the stack of calls left open after a tree, with the
operand read last. A tree is `aligned` when no open call can be told apart
from one that was closed in time, and exactly then the two meanings agree.
-/
namespace WarpMotor
open BoolFrames

inductive CondLevel where
  | unary | and | or
  deriving DecidableEq, Repr

/-- `or := and ('||' and)*`, `and := unary ('&&' unary)*`, `unary := '!'? ('(' or ')' | cmp)`. -/
inductive Cond (C : Type) : CondLevel → Type where
  | cmp (negated : Bool) (c : C) : Cond C .unary
  | group (negated : Bool) (body : Cond C .or) : Cond C .unary
  | lastAnd (operand : Cond C .unary) : Cond C .and
  | and (operand : Cond C .unary) (rest : Cond C .and) : Cond C .and
  | lastOr (operand : Cond C .and) : Cond C .or
  | or (operand : Cond C .and) (rest : Cond C .or) : Cond C .or

namespace Cond
variable {C : Type} {level : CondLevel}

def value (truth : C → Bool) : {level : CondLevel} → Cond C level → Bool
  | _, .cmp negated c => xor (truth c) negated
  | _, .group negated body => xor (body.value truth) negated
  | _, .lastAnd operand => operand.value truth
  | _, .and operand rest => operand.value truth && rest.value truth
  | _, .lastOr operand => operand.value truth
  | _, .or operand rest => operand.value truth || rest.value truth

def comparisons : {level : CondLevel} → Cond C level → List C
  | _, .cmp _ c => [c]
  | _, .group _ body => body.comparisons
  | _, .lastAnd operand => operand.comparisons
  | _, .and operand rest => operand.comparisons ++ rest.comparisons
  | _, .lastOr operand => operand.comparisons
  | _, .or operand rest => operand.comparisons ++ rest.comparisons

/-- The kinds of the calls that a tree leaves open, innermost first. `||` ends pending `&&`. -/
def openCalls : {level : CondLevel} → Cond C level → List Kind
  | _, .cmp _ _ => []
  | _, .group negated body => (body.openCalls ++ [Kind.group negated]).tail
  | _, .lastAnd operand => operand.openCalls
  | _, .and operand rest => rest.openCalls ++ .and :: operand.openCalls
  | _, .lastOr operand => operand.openCalls
  | _, .or operand rest => rest.openCalls ++ .or :: operand.openCalls.dropWhile (fun kind => kind = .and)

/-- Every operand of `&&` keeps false false, and every operand of `||` keeps true true, on the way
    through the calls it leaves open. -/
def aligned : {level : CondLevel} → Cond C level → Bool
  | _, .cmp _ _ => true
  | _, .group _ body => body.aligned
  | _, .lastAnd operand => operand.aligned
  | _, .and operand rest =>
    operand.aligned && decide (forced operand.openCalls false = some false) && rest.aligned
  | _, .lastOr operand => operand.aligned
  | _, .or operand rest =>
    operand.aligned &&
      decide (forced (operand.openCalls.dropWhile (fun kind => kind = .and)) true = some true) &&
      rest.aligned

end Cond

/-- The operations that the parser performs on what it has read. -/
structure LogicOps (C A : Type) where
  atom : C → A
  conj : A → A → A
  disj : A → A → A
  neg : A → A

def boolOps {C : Type} (truth : C → Bool) : LogicOps C Bool :=
  ⟨truth, fun left right => left && right, fun left right => left || right, fun value => !value⟩

def exprOps {C : Type} : LogicOps C (Expression C) :=
  ⟨.compare, fun left right => .logic .and (some left) right,
    fun left right => .logic .or (some left) right, fun right => .logic .not none right⟩

namespace LogicOps
variable {C A : Type} (ops : LogicOps C A)

/-- The return from the call that a frame stands for. -/
def close : Frame A → A → A
  | .and left, value => ops.conj left value
  | .or left, value => ops.disj left value
  | .group false, value => value
  | .group true, value => ops.neg value

/-- `)` returns from the innermost call only. -/
def closeTop (negated : Bool) : List (Frame A) × A → List (Frame A) × A
  | ([], value) => ([], ops.close (.group negated) value)
  | (frame :: frames, value) => (frames ++ [.group negated], ops.close frame value)

/-- `||` returns from the `&&` calls on top. -/
def endAnds : List (Frame A) → A → List (Frame A) × A
  | .and left :: frames, value => endAnds frames (ops.conj left value)
  | frames, value => (frames, value)

def residual : {level : CondLevel} → Cond C level → List (Frame A) × A
  | _, .cmp negated c => ([], ops.close (.group negated) (ops.atom c))
  | _, .group negated body => ops.closeTop negated (residual body)
  | _, .lastAnd operand => residual operand
  | _, .and operand rest =>
    ((residual rest).1 ++ .and (residual operand).2 :: (residual operand).1, (residual rest).2)
  | _, .lastOr operand => residual operand
  | _, .or operand rest =>
    let left := ops.endAnds (residual operand).1 (residual operand).2
    ((residual rest).1 ++ .or left.2 :: left.1, (residual rest).2)

/-- The end of the text returns from every call. -/
def unwind (frames : List (Frame A)) (value : A) : A :=
  frames.foldl (fun value frame => ops.close frame value) value

theorem endAnds_kinds (frames : List (Frame A)) (value : A) :
    (ops.endAnds frames value).1.map Frame.kind =
      (frames.map Frame.kind).dropWhile (fun kind => kind = .and) := by
  induction frames generalizing value with
  | nil => rfl
  | cons frame rest ih =>
    cases frame with
    | and left => simpa [endAnds, Frame.kind] using ih (ops.conj left value)
    | or left => simp [endAnds, Frame.kind]
    | group negated => simp [endAnds, Frame.kind]

theorem residual_kinds {level : CondLevel} (t : Cond C level) :
    (ops.residual t).1.map Frame.kind = t.openCalls := by
  induction t with
  | cmp negated c => rfl
  | group negated body ih =>
    simp only [residual, Cond.openCalls, ← ih]
    cases ops.residual body with
    | mk frames value => cases frames <;> simp [closeTop, Frame.kind]
  | lastAnd operand ih => exact ih
  | and operand rest ih₁ ih₂ => simp [residual, Cond.openCalls, ih₁, ih₂, Frame.kind]
  | lastOr operand ih => exact ih
  | or operand rest ih₁ ih₂ =>
    simp [residual, Cond.openCalls, ← ih₁, ih₂, endAnds_kinds, Frame.kind]

end LogicOps

section Evaluation
variable {C : Type} (truth : C → Bool)

/-- Evaluation takes what the parser does with expressions to what it does with truth values. -/
theorem evaluate_close (frame : Frame (Expression C)) (e : Expression C) :
    (exprOps.close frame e).evaluate truth =
      (boolOps truth).close (frame.map (Expression.evaluate truth)) (e.evaluate truth) := by
  cases frame with
  | and left => simp [LogicOps.close, Frame.map, exprOps, boolOps, Expression.evaluate]
  | or left => simp [LogicOps.close, Frame.map, exprOps, boolOps, Expression.evaluate]
  | group negated =>
    cases negated <;> simp [LogicOps.close, Frame.map, exprOps, boolOps, Expression.evaluate]

theorem evaluate_unwind (frames : List (Frame (Expression C))) (e : Expression C) :
    (exprOps.unwind frames e).evaluate truth =
      (boolOps truth).unwind (frames.map (Frame.map (Expression.evaluate truth)))
        (e.evaluate truth) := by
  induction frames generalizing e with
  | nil => rfl
  | cons frame rest ih =>
    have later := ih (exprOps.close frame e)
    rw [evaluate_close] at later
    exact later

theorem evaluate_endAnds (frames : List (Frame (Expression C))) (e : Expression C) :
    (boolOps truth).endAnds (frames.map (Frame.map (Expression.evaluate truth)))
        (e.evaluate truth) =
      ((exprOps.endAnds frames e).1.map (Frame.map (Expression.evaluate truth)),
        (exprOps.endAnds frames e).2.evaluate truth) := by
  induction frames generalizing e with
  | nil => rfl
  | cons frame rest ih =>
    cases frame with
    | and left =>
      have later := ih (exprOps.conj left e)
      have joined : (exprOps.conj left e).evaluate truth =
          (boolOps truth).conj (left.evaluate truth) (e.evaluate truth) := by
        simp [exprOps, boolOps, Expression.evaluate]
      rw [joined] at later
      exact later
    | or left => rfl
    | group negated => rfl

theorem evaluate_residual {level : CondLevel} (t : Cond C level) :
    (boolOps truth).residual t =
      ((exprOps.residual t).1.map (Frame.map (Expression.evaluate truth)),
        (exprOps.residual t).2.evaluate truth) := by
  induction t with
  | cmp negated c =>
    simp only [LogicOps.residual, List.map_nil, Prod.mk.injEq, true_and]
    rw [evaluate_close]
    simp [Frame.map, exprOps, boolOps, Expression.evaluate]
  | group negated body ih =>
    simp only [LogicOps.residual, ih]
    cases exprOps.residual body with
    | mk frames e =>
      cases frames with
      | nil => simp only [LogicOps.closeTop, List.map_nil, evaluate_close, Frame.map]
      | cons frame rest =>
        simp only [LogicOps.closeTop, List.map_cons, List.map_append, List.map_nil, evaluate_close,
          Frame.map]
  | lastAnd operand ih => exact ih
  | and operand rest ih₁ ih₂ => simp [LogicOps.residual, ih₁, ih₂, Frame.map]
  | lastOr operand ih => exact ih
  | or operand rest ih₁ ih₂ =>
    simp [LogicOps.residual, ih₁, ih₂, evaluate_endAnds, Frame.map]

theorem boolOps_close (frame : Frame Bool) (value : Bool) :
    (boolOps truth).close frame value = frame.apply value := by
  cases frame with
  | and left => rfl
  | or left => rfl
  | group negated => cases negated <;> cases value <;> rfl

theorem boolOps_residual_cmp (negated : Bool) (c : C) :
    (boolOps truth).residual (.cmp negated c) = ([], xor (truth c) negated) := by
  rw [LogicOps.residual, boolOps_close]
  rfl

theorem boolOps_unwind (frames : List (Frame Bool)) (value : Bool) :
    (boolOps truth).unwind frames value = pass frames value := by
  induction frames generalizing value with
  | nil => rfl
  | cons frame rest ih =>
    have later := ih ((boolOps truth).close frame value)
    rw [boolOps_close] at later
    rw [pass_cons, ← later, ← boolOps_close truth]
    rfl

theorem pass_endAnds (frames : List (Frame Bool)) (value : Bool) :
    pass ((boolOps truth).endAnds frames value).1 ((boolOps truth).endAnds frames value).2 =
      pass frames value := by
  induction frames generalizing value with
  | nil => rfl
  | cons frame rest ih =>
    cases frame with
    | and left => exact ih (left && value)
    | or left => rfl
    | group negated => rfl

theorem pass_closeTop (negated : Bool) (frames : List (Frame Bool)) (value : Bool) :
    pass ((boolOps truth).closeTop negated (frames, value)).1
        ((boolOps truth).closeTop negated (frames, value)).2 =
      xor (pass frames value) negated := by
  cases frames with
  | nil =>
    simp only [LogicOps.closeTop, pass_nil, boolOps_close]
    rfl
  | cons frame rest =>
    simp only [LogicOps.closeTop, pass_append, pass_cons, pass_nil, boolOps_close]
    rfl

end Evaluation

namespace Cond
variable {C : Type}

/-- The value of a tree as the parser reads it. -/
def readValue (truth : C → Bool) {level : CondLevel} (t : Cond C level) : Bool :=
  pass ((boolOps truth).residual t).1 ((boolOps truth).residual t).2

section Truth
variable (truth : C → Bool)

theorem readValue_group (negated : Bool) (body : Cond C .or) :
    readValue truth (.group negated body) = xor (readValue truth body) negated :=
  pass_closeTop truth negated _ _

theorem readValue_and (operand : Cond C .unary) (rest : Cond C .and) :
    readValue truth (.and operand rest) =
      pass ((boolOps truth).residual operand).1
        (((boolOps truth).residual operand).2 && readValue truth rest) := by
  rw [readValue, LogicOps.residual, pass_append, pass_cons]
  rfl

theorem readValue_or (operand : Cond C .and) (rest : Cond C .or) :
    readValue truth (.or operand rest) =
      pass ((boolOps truth).endAnds ((boolOps truth).residual operand).1
          ((boolOps truth).residual operand).2).1
        (((boolOps truth).endAnds ((boolOps truth).residual operand).1
          ((boolOps truth).residual operand).2).2 || readValue truth rest) := by
  rw [readValue, LogicOps.residual]
  dsimp only
  rw [pass_append, pass_cons]
  rfl

/-- Induction on the tree: at an operator, the side on which the right operand decides is the one
    that the open calls of the left operand keep. -/
theorem readValue_of_aligned {level : CondLevel} (t : Cond C level) (fits : t.aligned = true) :
    readValue truth t = t.value truth := by
  induction t with
  | cmp negated c => rw [readValue, boolOps_residual_cmp, pass_nil, value]
  | group negated body ih => rw [readValue_group, ih fits, value]
  | lastAnd operand ih => exact ih fits
  | and operand rest ih₁ ih₂ =>
    simp only [aligned, Bool.and_eq_true, decide_eq_true_eq] at fits
    obtain ⟨⟨fits₁, kept⟩, fits₂⟩ := fits
    have first : pass ((boolOps truth).residual operand).1 ((boolOps truth).residual operand).2 =
        operand.value truth := ih₁ fits₁
    rw [← (boolOps truth).residual_kinds operand] at kept
    have fails := pass_of_forced kept
    rw [readValue_and, ih₂ fits₂, value]
    cases rest.value truth with
    | false => rw [Bool.and_false, Bool.and_false, fails]
    | true => rw [Bool.and_true, Bool.and_true, first]
  | lastOr operand ih => exact ih fits
  | or operand rest ih₁ ih₂ =>
    simp only [aligned, Bool.and_eq_true, decide_eq_true_eq] at fits
    obtain ⟨⟨fits₁, kept⟩, fits₂⟩ := fits
    have first : pass ((boolOps truth).residual operand).1 ((boolOps truth).residual operand).2 =
        operand.value truth := ih₁ fits₁
    rw [← (boolOps truth).residual_kinds operand, ← LogicOps.endAnds_kinds (boolOps truth) _
      ((boolOps truth).residual operand).2] at kept
    have holds := pass_of_forced kept
    rw [readValue_or, ih₂ fits₂, value]
    cases rest.value truth with
    | true => rw [Bool.or_true, Bool.or_true, holds]
    | false => rw [Bool.or_false, Bool.or_false, pass_endAnds, first]

end Truth
end Cond
end WarpMotor
