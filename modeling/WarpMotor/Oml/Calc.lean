import WarpMotor.Lib.CheckedInt
import WarpMotor.Oml.ZeroCopy

/-!
The arithmetic of `calc`. Integers are computed with checks, floats by the
machine, whose operations are parameters. Over integers alone a result is the
exact one, and there is none when a step on the way has no place in 64 bits.
-/
namespace WarpMotor.Oml

def i64 : IntType := ⟨9223372036854775807, by decide⟩

/-- 64-bit floats, by their bits. -/
structure FloatOps where
  ofInt : Int → UInt64
  add : UInt64 → UInt64 → UInt64
  sub : UInt64 → UInt64 → UInt64
  mul : UInt64 → UInt64 → UInt64
  div : UInt64 → UInt64 → UInt64
  neg : UInt64 → UInt64
  abs : UInt64 → UInt64
  round : UInt64 → UInt64
  floor : UInt64 → UInt64
  ceil : UInt64 → UInt64
  isFinite : UInt64 → Bool
  isZero : UInt64 → Bool
  /-- Not below the least and not above the greatest integer, both made floats. -/
  inIntRange : UInt64 → Bool
  toInt : UInt64 → Int

inductive CalcEvalError where
  | divideByZero
  | modByZero
  | overflow (op : String)
  | nonFinite (op : String)
  | invalidModOperand
  | invalidArgument (detail : String)
  deriving DecidableEq, Repr

abbrev CalcResult := Except CalcEvalError CalcNumber

/-- `map(Digit).ok_or(Overflow(op))` -/
def digitOrOverflow (op : String) : Option Int → CalcResult
  | some number => .ok (.digit number)
  | none => .error (.overflow op)

namespace FloatOps

variable (floats : FloatOps)

def ensureFinite (op : String) (bits : UInt64) : CalcResult :=
  if floats.isFinite bits then .ok (.float bits) else .error (.nonFinite op)

def negate : CalcNumber → CalcResult
  | .digit v => digitOrOverflow "neg" (i64.checkedNeg v)
  | .float v => floats.ensureFinite "neg" (floats.neg v)

def toI64Checked (value : UInt64) (function : String) : Except CalcEvalError Int :=
  if !floats.isFinite value || !floats.inIntRange value then
    .error (.invalidArgument (function ++ " result out of i64 range"))
  else .ok (floats.toInt value)

/-- The number as a float. -/
def asFloat : CalcNumber → UInt64
  | .digit v => floats.ofInt v
  | .float v => v

/-- Two integers are computed with a check, everything else as floats. -/
def checkedOrFloat (op : String) (onDigits : Int → Int → Option Int)
    (onFloats : UInt64 → UInt64 → UInt64) : CalcNumber → CalcNumber → CalcResult
  | .digit a, .digit b => digitOrOverflow op (onDigits a b)
  | lhs, rhs => floats.ensureFinite op (onFloats (floats.asFloat lhs) (floats.asFloat rhs))

def evalDiv (lhs rhs : CalcNumber) : CalcResult :=
  if floats.isZero (floats.asFloat rhs) then .error .divideByZero
  else floats.ensureFinite "div" (floats.div (floats.asFloat lhs) (floats.asFloat rhs))

def evalMod : CalcNumber → CalcNumber → CalcResult
  | .digit a, .digit b =>
    if b = 0 then .error .modByZero else digitOrOverflow "mod" (i64.checkedRem a b)
  | _, _ => .error .invalidModOperand

def evalBinary : CalcOp → CalcNumber → CalcNumber → CalcResult
  | .add => floats.checkedOrFloat "add" i64.checkedAdd floats.add
  | .sub => floats.checkedOrFloat "sub" i64.checkedSub floats.sub
  | .mul => floats.checkedOrFloat "mul" i64.checkedMul floats.mul
  | .div => floats.evalDiv
  | .mod => evalMod

/-- An integer stays, a float is rounded and has to be one of 64 bits. -/
def toDigit (function : String) (rounded : UInt64 → UInt64) : CalcNumber → CalcResult
  | .digit v => .ok (.digit v)
  | .float v => (floats.toI64Checked (rounded v) function).map .digit

def evalFun : CalcFun → CalcNumber → CalcResult
  | .abs => fun arg =>
    match arg with
    | .digit v => digitOrOverflow "abs" (i64.checkedAbs v)
    | .float v => floats.ensureFinite "abs" (floats.abs v)
  | .round => floats.toDigit "round" floats.round
  | .floor => floats.toDigit "floor" floats.floor
  | .ceil => floats.toDigit "ceil" floats.ceil

end FloatOps

/-- The environment with this arithmetic. -/
def Externals.withCalc {PipeFun : Type} (env : Externals PipeFun) (floats : FloatOps) :
    Externals PipeFun :=
  { env with
    isFinite := floats.isFinite
    negate := fun number => (floats.negate number).toOption
    evalBinary := fun op lhs rhs => (floats.evalBinary op lhs rhs).toOption
    evalFun := fun function arg => (floats.evalFun function arg).toOption }

/-- The operators on integers. A division makes a float. -/
inductive IntOp where
  | add | sub | mul | mod
  deriving DecidableEq, Repr

def CalcOp.intOp : CalcOp → Option IntOp
  | .add => some .add
  | .sub => some .sub
  | .mul => some .mul
  | .mod => some .mod
  | .div => none

/-- An expression over integers. -/
inductive IntExpr where
  | number (n : Int)
  | neg (inner : IntExpr)
  | binary (op : IntOp) (lhs rhs : IntExpr)
  | func (function : CalcFun) (arg : IntExpr)

/-- The exact result, however large; the remainder has the sign of the number divided. -/
def IntOp.value : IntOp → Int → Int → Int
  | .add, a, b => a + b
  | .sub, a, b => a - b
  | .mul, a, b => a * b
  | .mod, a, b => a.tmod b

/-- The operation is among those that have a result. -/
def IntOp.Defined : IntOp → Int → Int → Prop
  | .mod, a, b => b ≠ 0 ∧ ¬ (a = i64.least ∧ b = -1)
  | _, _, _ => True

def funValue : CalcFun → Int → Int
  | .abs, a => |a|
  | _, a => a

namespace IntExpr

def value : IntExpr → Int
  | number n => n
  | neg inner => -inner.value
  | binary op lhs rhs => op.value lhs.value rhs.value
  | func function arg => funValue function arg.value

/-- Every result on the way fits in 64 bits, and no modulus is by zero or takes the least
integer modulo minus one. -/
def AllFit : IntExpr → Prop
  | number n => i64.Fits n
  | neg inner => inner.AllFit ∧ i64.Fits (-inner.value)
  | binary op lhs rhs => lhs.AllFit ∧ rhs.AllFit ∧ op.Defined lhs.value rhs.value ∧
      i64.Fits (op.value lhs.value rhs.value)
  | func function arg => arg.AllFit ∧ i64.Fits (funValue function arg.value)

theorem AllFit.fits {expr : IntExpr} (all : expr.AllFit) : i64.Fits expr.value := by
  cases expr with
  | number n => exact all
  | neg inner => exact all.2
  | binary op lhs rhs => exact all.2.2.2
  | func function arg => exact all.2

end IntExpr

/-- A result that is the integer `n` under a condition, and missing otherwise. -/
structure Digit (found : Option CalcNumber) (condition : Prop) (n : Int) : Prop where
  some_of : condition → found = some (.digit n)
  none_of : ¬ condition → found = none

theorem digitOrOverflow_digit (op : String) (n : Int) :
    Digit (digitOrOverflow op (i64.checked n)).toOption (i64.Fits n) n := by
  constructor
  · intro fits
    rw [IntType.checked_of_fits fits]
    rfl
  · intro wide
    rw [IntType.checked_of_not wide]
    rfl

section

variable (floats : FloatOps) {a b : Int}

theorem negate_digit (fits : i64.Fits a) :
    Digit (floats.negate (.digit a)).toOption (i64.Fits (-a)) (-a) := by
  rw [FloatOps.negate, IntType.checkedNeg_eq fits]
  exact digitOrOverflow_digit "neg" (-a)

theorem evalMod_digit (fits : i64.Fits a) :
    Digit (FloatOps.evalMod (.digit a) (.digit b)).toOption
      (IntOp.mod.Defined a b ∧ i64.Fits (IntOp.mod.value a b)) (IntOp.mod.value a b) := by
  by_cases zero : b = 0
  · constructor
    · rintro ⟨⟨nonzero, _⟩, _⟩
      exact absurd zero nonzero
    · intro _
      simp [FloatOps.evalMod, zero, Except.toOption]
  · by_cases lowest : a = i64.least ∧ b = -1
    · constructor
      · rintro ⟨⟨_, other⟩, _⟩
        exact absurd lowest other
      · intro _
        simp [FloatOps.evalMod, IntType.checkedRem, lowest, digitOrOverflow, Except.toOption]
    · have remainder : i64.checkedRem a b = some (a.tmod b) := by
        simp [IntType.checkedRem, zero, lowest]
      constructor
      · intro _
        simp [FloatOps.evalMod, zero, remainder, digitOrOverflow, Except.toOption, IntOp.value]
      · intro undefined
        exact absurd ⟨⟨zero, lowest⟩, IntType.tmod_fits fits b⟩ undefined

theorem evalBinary_digit {op : CalcOp} {intOp : IntOp} (integral : op.intOp = some intOp)
    (fits : i64.Fits a) : Digit (floats.evalBinary op (.digit a) (.digit b)).toOption
      (intOp.Defined a b ∧ i64.Fits (intOp.value a b)) (intOp.value a b) := by
  have checked (name : String) (n : Int) :
      Digit (digitOrOverflow name (i64.checked n)).toOption (True ∧ i64.Fits n) n := by
    rw [true_and]
    exact digitOrOverflow_digit name n
  cases op with
  | add => cases integral; exact checked "add" (a + b)
  | sub => cases integral; exact checked "sub" (a - b)
  | mul => cases integral; exact checked "mul" (a * b)
  | div => cases integral
  | mod => cases integral; exact evalMod_digit fits

theorem evalFun_digit (function : CalcFun) (fits : i64.Fits a) :
    Digit (floats.evalFun function (.digit a)).toOption (i64.Fits (funValue function a))
      (funValue function a) := by
  have same : Digit (some (.digit a)) (i64.Fits a) a := ⟨fun _ => rfl, fun wide => absurd fits wide⟩
  cases function with
  | abs =>
    simp only [FloatOps.evalFun, IntType.checkedAbs_eq fits]
    exact digitOrOverflow_digit "abs" |a|
  | round => exact same
  | floor => exact same
  | ceil => exact same

end

section

variable {PipeFun : Type} (env : Externals PipeFun)

/-- The integer in a field, one of 64 bits. -/
def integerOf (field : DataField) : Option Int :=
  match field.value with
  | .int n => if i64.Fits n then some n else none
  | _ => none

def integer (n : Option Int) : Eval IntExpr := fun state => n.map (fun n => (.number n, state))

/-- The expression with each accessor replaced by the integer it reads in its turn; `none` when
one reads anything else, or when a constant is not an integer. -/
def integerOperands (target : EvaluationTarget) : CalcExpr → Eval IntExpr
  | .const (.digit n) => integer (if i64.Fits n then some n else none)
  | .const (.float _) => integer none
  | .accessor accessor => do
    integer ((← accessor.extractOne env (operandTarget accessor target)).bind integerOf)
  | .unaryNeg inner => do return .neg (← integerOperands target inner)
  | .binary op lhs rhs =>
    match op.intOp with
    | none => integer none
    | some op => do
      let left ← integerOperands target lhs
      return .binary op left (← integerOperands target rhs)
  | .func function arg => do return .func function (← integerOperands target arg)

theorem integer_eq_some {n : Option Int} {state after : State} {expr : IntExpr}
    (read : integer n state = some (expr, after)) :
    ∃ number, n = some number ∧ expr = .number number ∧ after = state := by
  obtain ⟨number, found, same⟩ := Option.map_eq_some_iff.mp read
  obtain ⟨rfl, rfl⟩ := Prod.mk.inj same
  exact ⟨number, found, rfl, rfl⟩

theorem integerOf_eq_some {field : DataField} {n : Int} (read : integerOf field = some n) :
    field.value = .int n ∧ i64.Fits n := by
  unfold integerOf at read
  split at read
  · next number holds =>
    split at read
    · next fits =>
      obtain rfl := Option.some.inj read
      exact ⟨holds, fits⟩
    · contradiction
  · contradiction

/-- What the evaluation of an expression ends with. -/
structure Evaluates (floats : FloatOps) (target : EvaluationTarget) (expr : CalcExpr)
    (state : State) (operands : IntExpr) (after : State) : Prop where
  exact_of : operands.AllFit → evalExpr (env.withCalc floats) target expr state =
    some (some (.digit operands.value), after)
  missing_of : ¬ operands.AllFit → ∃ last, evalExpr (env.withCalc floats) target expr state =
    some (none, last)

/-- A step on top of the operand that is evaluated last. -/
theorem Evaluates.step {floats : FloatOps} {target : EvaluationTarget} {inner : CalcExpr}
    {state between after : State} {operand : IntExpr} (last : Evaluates env floats target inner
      between operand after) {expr : CalcExpr} {whole : IntExpr}
    (operation : CalcNumber → Option CalcNumber)
    (run : evalExpr (env.withCalc floats) target expr state = (evalExpr (env.withCalc floats)
      target inner between).map (fun found => (found.1.bind operation, found.2)))
    {condition : Prop} (fits : whole.AllFit ↔ operand.AllFit ∧ condition)
    (computed : operand.AllFit →
      Digit (operation (.digit operand.value)) condition whole.value) :
    Evaluates env floats target expr state whole after := by
  constructor
  · intro all
    obtain ⟨inner_fits, holds⟩ := fits.mp all
    rw [run, last.exact_of inner_fits, Option.map_some, Option.bind_some,
      (computed inner_fits).some_of holds]
  · intro fails
    by_cases inner_fits : operand.AllFit
    · have undefined : ¬ condition := fun holds => fails (fits.mpr ⟨inner_fits, holds⟩)
      refine ⟨after, ?_⟩
      rw [run, last.exact_of inner_fits, Option.map_some, Option.bind_some,
        (computed inner_fits).none_of undefined]
    · obtain ⟨final, missing⟩ := last.missing_of inner_fits
      refine ⟨final, ?_⟩
      rw [run, missing, Option.map_some, Option.bind_none]

theorem evaluates (floats : FloatOps) (target : EvaluationTarget) (expr : CalcExpr)
    {state after : State} {operands : IntExpr}
    (read : integerOperands (env.withCalc floats) target expr state = some (operands, after)) :
    Evaluates env floats target expr state operands after := by
  induction expr generalizing state after operands with
  | const number =>
    cases number with
    | digit n =>
      obtain ⟨m, found, rfl, rfl⟩ := integer_eq_some read
      split at found
      · next fits =>
        obtain rfl := Option.some.inj found
        exact ⟨fun _ => rfl, fun wide => absurd fits wide⟩
      · contradiction
    | float bits =>
      obtain ⟨m, found, _, _⟩ := integer_eq_some read
      contradiction
  | accessor direct =>
    rw [integerOperands, eval_bind] at read
    obtain ⟨⟨found, between⟩, extracted, rest⟩ := Option.bind_eq_some_iff.mp read
    obtain ⟨n, held, rfl, rfl⟩ := integer_eq_some rest
    obtain ⟨field, rfl, numeric⟩ := Option.bind_eq_some_iff.mp held
    obtain ⟨holds, fits⟩ := integerOf_eq_some numeric
    have ran : evalExpr (env.withCalc floats) target (.accessor direct) state =
        some (some (.digit n), after) := by
      rw [evalExpr, eval_bind, extracted]
      simp [fieldToNumber, holds]
    exact ⟨fun _ => ran, fun wide => absurd fits wide⟩
  | unaryNeg inner ih =>
    rw [integerOperands, eval_bind] at read
    obtain ⟨⟨operand, between⟩, inner_read, same⟩ := Option.bind_eq_some_iff.mp read
    obtain ⟨rfl, rfl⟩ := Prod.mk.inj (Option.some.inj same)
    refine (ih inner_read).step env (fun n => (floats.negate n).toOption) ?_ Iff.rfl
      (fun fits => negate_digit floats fits.fits)
    rw [evalExpr, eval_bind, Option.map_eq_bind]
    rfl
  | func function arg ih =>
    rw [integerOperands, eval_bind] at read
    obtain ⟨⟨operand, between⟩, arg_read, same⟩ := Option.bind_eq_some_iff.mp read
    obtain ⟨rfl, rfl⟩ := Prod.mk.inj (Option.some.inj same)
    refine (ih arg_read).step env (fun n => (floats.evalFun function n).toOption) ?_ Iff.rfl
      (fun fits => evalFun_digit floats function fits.fits)
    rw [evalExpr, eval_bind, Option.map_eq_bind]
    rfl
  | binary op lhs rhs left right =>
    cases integral : op.intOp with
    | none =>
      simp only [integerOperands, integral] at read
      obtain ⟨m, found, _, _⟩ := integer_eq_some read
      contradiction
    | some intOp =>
      simp only [integerOperands, integral, eval_bind] at read
      obtain ⟨⟨first, between⟩, lhs_read, rest⟩ := Option.bind_eq_some_iff.mp read
      obtain ⟨⟨second, ending⟩, rhs_read, same⟩ := Option.bind_eq_some_iff.mp rest
      obtain ⟨rfl, rfl⟩ := Prod.mk.inj (Option.some.inj same)
      have starts := left lhs_read
      by_cases first_fits : first.AllFit
      · refine (right rhs_read).step env
          (fun n => (floats.evalBinary op (.digit first.value) n).toOption) ?_
          (and_iff_right first_fits) (fun _ => evalBinary_digit floats integral first_fits.fits)
        rw [evalExpr, eval_bind, starts.exact_of first_fits, Option.bind_some]
        dsimp only
        rw [eval_bind, Option.map_eq_bind]
        rfl
      · -- the right operand is not evaluated
        obtain ⟨last, missing⟩ := starts.missing_of first_fits
        refine ⟨fun all => absurd all.1 first_fits, fun _ => ⟨last, ?_⟩⟩
        rw [evalExpr, eval_bind, missing]
        rfl

/-- An expression over integers gives the exact result if every result on the way fits and no
modulus is undefined, and is ignored otherwise. -/
theorem integer_calc_exact_or_ignored (floats : FloatOps) (target : EvaluationTarget)
    (expr : CalcExpr) (state after : State) (operands : IntExpr)
    (read : integerOperands (env.withCalc floats) target expr state = some (operands, after)) :
    ∃ field last, expr.extractOne (env.withCalc floats) target state = some (some field, last) ∧
      (∀ n, field = ⟨.int, target.safeName, .int n⟩ ↔ operands.AllFit ∧ operands.value = n) ∧
      (¬ operands.AllFit → field = .fromIgnore target.safeName) := by
  have ended := evaluates env floats target expr read
  by_cases all : operands.AllFit
  · refine ⟨⟨.int, target.safeName, .int operands.value⟩, after, ?_, ?_, fun fails => absurd all fails⟩
    · rw [CalcExpr.extractOne, eval_bind, ended.exact_of all]
      rfl
    · intro n
      simp [all]
  · obtain ⟨last, missing⟩ := ended.missing_of all
    refine ⟨.fromIgnore target.safeName, last, ?_, ?_, fun _ => rfl⟩
    · rw [CalcExpr.extractOne, eval_bind, missing]
      rfl
    · intro n
      simp [all, DataField.fromIgnore]

end

/-- Integers alone need no float. -/
def noFloats : FloatOps where
  ofInt _ := 0
  add left _ := left
  sub left _ := left
  mul left _ := left
  div left _ := left
  neg bits := bits
  abs bits := bits
  round bits := bits
  floor bits := bits
  ceil bits := bits
  isFinite _ := true
  isZero bits := bits == 0
  inIntRange _ := true
  toInt _ := 0

/-- `-read(a) % 3` -/
def negatedModulo : CalcExpr :=
  .binary .mod (.unaryNeg (.accessor (readOf "a"))) (.const (.digit 3))

theorem modulo_rounds_towards_zero : ∃ field last,
    negatedModulo.extractOne (skipEmptyOnly.withCalc noFloats) (.new "x" .auto)
      ⟨[⟨.int, "a", .int 7⟩], []⟩ = some (some field, last) ∧ field = ⟨.int, "x", .int (-1)⟩ := by
  obtain ⟨field, last, ran, exact_iff, _⟩ := integer_calc_exact_or_ignored skipEmptyOnly noFloats
    (.new "x" .auto) negatedModulo ⟨[⟨.int, "a", .int 7⟩], []⟩ ⟨[⟨.int, "a", .int 7⟩], []⟩
    (.binary .mod (.neg (.number 7)) (.number 3)) rfl
  refine ⟨field, last, ran, (exact_iff (-1)).mpr ⟨?_, rfl⟩⟩
  simp only [IntExpr.AllFit, IntExpr.value, IntOp.Defined]
  decide

end WarpMotor.Oml
