import WarpMotor.Cond.Machine

/-!
The tokens of a syntax tree and what `readTokens` makes of them: the residual
of the tree on top of the calls that wait. With the SQL symbols the loop of
`lev1_exp` does not know `or`, so there the reading fails where an `or` meets
an open call for `and`.
-/
namespace WarpMotor
open BoolFrames

namespace Cond
variable {C : Type}

def negation : Bool → List (CondToken C)
  | true => [.sym .not]
  | false => []

def tokens : {level : CondLevel} → Cond C level → List (CondToken C)
  | _, .cmp negated c => negation negated ++ [.cmp c]
  | _, .group negated body =>
    negation negated ++ .sym .lparen :: (body.tokens ++ [.sym .rparen])
  | _, .lastAnd operand => operand.tokens
  | _, .and operand rest => operand.tokens ++ .sym .and :: rest.tokens
  | _, .lastOr operand => operand.tokens
  | _, .or operand rest => operand.tokens ++ .sym .or :: rest.tokens

/-- No operand of `or` leaves a call for `and` open on top. -/
def orsHeard : {level : CondLevel} → Cond C level → Bool
  | _, .cmp _ _ => true
  | _, .group _ body => body.orsHeard
  | _, .lastAnd operand => operand.orsHeard
  | _, .and operand rest => operand.orsHeard && rest.orsHeard
  | _, .lastOr operand => operand.orsHeard
  | _, .or operand rest =>
    operand.orsHeard && decide (operand.openCalls.head? ≠ some .and) && rest.orsHeard

end Cond

section Calls
variable {C : Type}

/-- The calls of a residual: each has its left side. -/
def fullCalls (frames : List (Frame (Expression C))) : List (CondCall C) :=
  frames.map (Frame.map some)

theorem close_full (frame : Frame (Expression C)) (e : Expression C) :
    CondCall.close (frame.map some) e = exprOps.close frame e := by
  cases frame with
  | and left => rfl
  | or left => rfl
  | group negated => cases negated <;> rfl

theorem unwindCalls_full (frames : List (Frame (Expression C))) (e : Expression C) :
    unwindCalls (fullCalls frames) e = exprOps.unwind frames e := by
  induction frames generalizing e with
  | nil => rfl
  | cons frame rest ih =>
    show unwindCalls (fullCalls rest) (CondCall.close (frame.map some) e) =
      exprOps.unwind rest (exprOps.close frame e)
    rw [close_full]
    exact ih (exprOps.close frame e)

theorem inGroup_append_group (frames : List (Frame (Expression C))) (negated : Bool)
    (calls : List (CondCall C)) : inGroup (fullCalls frames ++ .group negated :: calls) = true := by
  rw [inGroup, List.any_append, List.any_cons]
  cases negated <;> simp [Frame.kind]

theorem endAndCalls_outside (ends : Bool) {calls : List (CondCall C)}
    (outside : inAndCall calls = false) (left : Option (Expression C)) :
    endAndCalls ends calls left = some (calls, left) := by
  cases calls with
  | nil => rfl
  | cons call rest =>
    cases call with
    | and side => cases outside
    | or side => rfl
    | group negated => rfl

/-- `or` behind an operand that left `frames` open. -/
theorem endAndCalls_full (ends : Bool) {calls : List (CondCall C)}
    (outside : inAndCall calls = false) (frames : List (Frame (Expression C))) (e : Expression C) :
    endAndCalls ends (fullCalls frames ++ calls) (some e) =
      if ends || decide ((frames.map Frame.kind).head? ≠ some .and) then
        some (fullCalls (exprOps.endAnds frames e).1 ++ calls, some (exprOps.endAnds frames e).2)
      else none := by
  induction frames generalizing e with
  | nil =>
    rw [if_pos (by simp)]
    exact endAndCalls_outside ends outside (some e)
  | cons frame rest ih =>
    cases frame with
    | or side => simp [fullCalls, Frame.map, Frame.kind, endAndCalls, LogicOps.endAnds]
    | group negated => simp [fullCalls, Frame.map, Frame.kind, endAndCalls, LogicOps.endAnds]
    | and side =>
      cases ends with
      | false => simp [fullCalls, Frame.map, Frame.kind, endAndCalls]
      | true =>
        have later := ih (exprOps.conj side e)
        rw [Bool.true_or, if_pos rfl] at later ⊢
        exact later

end Calls

section Reading
variable {C : Type} (ends : Bool)

theorem readTokens_closeTop (negated : Bool) (open_ : List (Frame (Expression C)) × Expression C)
    (calls : List (CondCall C)) (rest : List (CondToken C)) :
    readTokens ends (fullCalls open_.1 ++ .group negated :: calls) false (some open_.2)
        (.sym .rparen :: rest) =
      readTokens ends (fullCalls (exprOps.closeTop negated open_).1 ++ calls) false
        (some (exprOps.closeTop negated open_).2) rest := by
  obtain ⟨frames, e⟩ := open_
  have inside := inGroup_append_group frames negated calls
  cases frames with
  | nil =>
    have closed := close_full (.group negated) e
    rw [fullCalls, List.map_nil, List.nil_append] at inside ⊢
    rw [readTokens, if_pos inside]
    exact congrArg (fun e => readTokens ends calls false (some e) rest) closed
  | cons frame frames =>
    rw [fullCalls, List.map_cons, List.cons_append] at inside ⊢
    rw [readTokens, if_pos inside, close_full]
    simp [LogicOps.closeTop, fullCalls, Frame.map]

/-- Reading the tokens of a tree leaves its residual on top of the calls. The induction is on the
    tree; an `or` starts where no call for `and` waits. -/
theorem readTokens_tree {level : CondLevel} (t : Cond C level) (calls : List (CondCall C))
    (left : Option (Expression C)) (outside : level = .or → inAndCall calls = false)
    (rest : List (CondToken C)) :
    readTokens ends calls false left (t.tokens ++ rest) =
      if ends || t.orsHeard then
        readTokens ends (fullCalls (exprOps.residual t).1 ++ calls) false
          (some (exprOps.residual t).2) rest
      else none := by
  induction t generalizing calls left rest with
  | cmp negated c =>
    rw [Cond.orsHeard, Bool.or_true, if_pos rfl]
    cases negated <;> rfl
  | group negated body ih =>
    have inner := ih (.group negated :: calls) none (fun _ => rfl) (.sym .rparen :: rest)
    rw [readTokens_closeTop] at inner
    have enters : readTokens ends calls false left ((Cond.group negated body).tokens ++ rest) =
        readTokens ends (.group negated :: calls) false none
          (body.tokens ++ .sym .rparen :: rest) := by
      cases negated <;> simp [Cond.tokens, Cond.negation, readTokens]
    rw [enters, inner]
    rfl
  | lastAnd operand ih => exact ih calls left (fun level => by cases level) rest
  | lastOr operand ih => exact ih calls left (fun level => by cases level) rest
  | and operand others ih₁ ih₂ =>
    have first := ih₁ calls left (fun level => by cases level)
      (.sym .and :: (others.tokens ++ rest))
    have second := ih₂ (.and (some (exprOps.residual operand).2) ::
      (fullCalls (exprOps.residual operand).1 ++ calls)) none (fun level => by cases level) rest
    rw [Cond.tokens, List.append_assoc, List.cons_append, first, readTokens, second, Cond.orsHeard]
    cases ends <;> cases operand.orsHeard <;> cases others.orsHeard <;>
      simp [LogicOps.residual, fullCalls, Frame.map]
  | or operand others ih₁ ih₂ =>
    have first := ih₁ calls left (fun level => by cases level)
      (.sym .or :: (others.tokens ++ rest))
    have ended := endAndCalls_full ends (outside rfl) (exprOps.residual operand).1
      (exprOps.residual operand).2
    have second := ih₂ (.or (some (exprOps.endAnds (exprOps.residual operand).1
        (exprOps.residual operand).2).2) :: (fullCalls (exprOps.endAnds
          (exprOps.residual operand).1 (exprOps.residual operand).2).1 ++ calls)) none
      (fun _ => rfl) rest
    rw [LogicOps.residual_kinds] at ended
    rw [Cond.tokens, List.append_assoc, List.cons_append, first, readTokens, ended, Cond.orsHeard]
    cases heard : ends || decide (operand.openCalls.head? ≠ some .and) with
    | false =>
      obtain ⟨unended, met⟩ := Bool.or_eq_false_iff.mp heard
      rw [unended, met]
      simp
    | true =>
      rw [if_pos rfl]
      dsimp only
      rw [second]
      have joined : (ends || operand.orsHeard && decide (operand.openCalls.head? ≠ some .and) &&
          others.orsHeard) = ((ends || operand.orsHeard) && (ends || others.orsHeard)) := by
        revert heard
        cases ends <;> cases operand.orsHeard <;> cases others.orsHeard <;> simp
      rw [joined]
      cases ends || operand.orsHeard <;> cases ends || others.orsHeard <;>
        simp [LogicOps.residual, fullCalls, Frame.map]

/-- The whole of a tree's tokens, and at the end of the text or a stop every call returns. -/
theorem readTokens_whole (t : Cond C .or) :
    readTokens ends [] false none t.tokens =
      if ends || t.orsHeard then some (exprOps.unwind (exprOps.residual t).1 (exprOps.residual t).2)
      else none := by
  have read := readTokens_tree ends t [] none (fun _ => rfl) []
  rw [List.append_nil, List.append_nil] at read
  rw [read]
  cases ends || t.orsHeard with
  | false => rfl
  | true =>
    rw [if_pos rfl, if_pos rfl, readTokens, Option.map_some, unwindCalls_full]

end Reading
end WarpMotor
