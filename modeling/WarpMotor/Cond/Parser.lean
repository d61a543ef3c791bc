import Mathlib.Data.List.Basic

/-!
Conditions: the expression type with its evaluator, and the parser that reads
it from text. The three levels are loops; each tests and consumes the stop
token itself, and each call gives one unit of fuel to what it calls. Errors
carry no detail here: a failed parse is `none`. `cmp_exp`, the parser of one
comparison, is a parameter.
-/
namespace WarpMotor

inductive LogicOperator where
  | and | or | not
  deriving DecidableEq, Repr

inductive Expression (C : Type) where
  | compare (cmp : C)
  | logic (op : LogicOperator) (left : Option (Expression C)) (right : Expression C)

/-- `evaluate_expression_with`, given the outcome of each comparison. -/
def Expression.evaluate {C : Type} (truth : C → Bool) : Expression C → Bool
  | .compare cmp => truth cmp
  | .logic .and (some left) right => left.evaluate truth && right.evaluate truth
  | .logic .and none right => right.evaluate truth
  | .logic .or (some left) right => left.evaluate truth || right.evaluate truth
  | .logic .or none right => right.evaluate truth
  | .logic .not _ right => !right.evaluate truth

structure LogicSymbols where
  and : List Char
  or : List Char
  not : List Char
  deriving DecidableEq, Repr

def rustSymbol : LogicSymbols := ⟨['&', '&'], ['|', '|'], ['!']⟩
def sqlSymbol : LogicSymbols := ⟨['a', 'n', 'd'], ['o', 'r'], ['n', 'o', 't']⟩

def isSpace (c : Char) : Bool := c = ' ' || c = '\t' || c = '\r' || c = '\n'

def multispace0 (data : List Char) : List Char := data.dropWhile isSpace

def peekStr (what data : List Char) : Bool := what.isPrefixOf data

def literal (what data : List Char) : Option (List Char) :=
  if peekStr what data then some (data.drop what.length) else none

/-- The symbol parsers pass over white space first. -/
def symbol (what data : List Char) : Option (List Char) := literal what (multispace0 data)

/-- A comparison parser: the comparison and the rest of the text. -/
abbrev CmpExp (C : Type) := List Char → Option (C × List Char)

section Levels
variable {C : Type} (S : LogicSymbols) (cmpExp : CmpExp C)

/-- The end of a loop: nothing read is an error. -/
def loopEnd (left : Option (Expression C)) (data : List Char) : Option (Expression C × List Char) :=
  left.map (fun e => (e, data))

def peekStop (stop : Option (List Char)) (data : List Char) : Bool :=
  match stop with
  | some stop => peekStr stop data
  | none => false

def literalStop (stop : Option (List Char)) (data : List Char) : Option (List Char) :=
  match stop with
  | some stop => literal stop data
  | none => none

mutual

def lev2Exp : Nat → Option (List Char) → Option (Expression C) → List Char →
    Option (Expression C × List Char)
  | 0, _, _, _ => none
  | fuel + 1, stop, left, data =>
    let data := multispace0 data
    if data.isEmpty then loopEnd left data
    else if peekStop stop data then do
      let data ← literalStop stop data
      loopEnd left data
    else if peekStr ['('] data then do
      let (group, data) ← groupExp fuel data
      lev2Exp fuel stop (some group) data
    else if peekStr S.not data then do
      let data ← symbol S.not data
      let (right, data) ← lev0Exp fuel stop data
      lev2Exp fuel stop (some (.logic .not none right)) data
    else if peekStr S.and data then do
      let data ← symbol S.and data
      let (right, data) ← lev1Exp fuel stop none data
      lev2Exp fuel stop (some (.logic .and left right)) data
    else if peekStr S.or data then do
      let data ← symbol S.or data
      let (right, data) ← lev2Exp fuel stop none data
      lev2Exp fuel stop (some (.logic .or left right)) data
    else do
      let (cmp, data) ← cmpExp data
      lev2Exp fuel stop (some (.compare cmp)) data

/-- One operand. -/
def lev0Exp : Nat → Option (List Char) → List Char → Option (Expression C × List Char)
  | 0, _, _ => none
  | fuel + 1, stop, data =>
    let data := multispace0 data
    if data.isEmpty then none
    else if peekStop stop data then none
    else if peekStr ['('] data then groupExp fuel data
    else do
      let (cmp, data) ← cmpExp data
      some (.compare cmp, data)

/-- The operator that ends the loop is the literal `||` for every symbol set. -/
def lev1Exp : Nat → Option (List Char) → Option (Expression C) → List Char →
    Option (Expression C × List Char)
  | 0, _, _, _ => none
  | fuel + 1, stop, left, data =>
    let data := multispace0 data
    if data.isEmpty then loopEnd left data
    else if peekStop stop data then do
      let data ← literalStop stop data
      loopEnd left data
    else if peekStr ['('] data then do
      let (group, data) ← groupExp fuel data
      lev1Exp fuel stop (some group) data
    else if peekStr S.not data then do
      let data ← symbol S.not data
      let (right, data) ← lev0Exp fuel stop data
      lev1Exp fuel stop (some (.logic .not none right)) data
    else if peekStr S.and data then do
      let data ← symbol S.and data
      let (right, data) ← lev1Exp fuel stop none data
      lev1Exp fuel stop (some (.logic .and left right)) data
    else if peekStr ['|', '|'] data then loopEnd left data
    else do
      let (cmp, data) ← cmpExp data
      lev1Exp fuel stop (some (.compare cmp)) data

def groupExp : Nat → List Char → Option (Expression C × List Char)
  | 0, _ => none
  | fuel + 1, data => do
    let data ← symbol ['('] (multispace0 data)
    lev2Exp fuel (some [')']) none data

end

/-- `ConditionParser::exp`. -/
def exp (fuel : Nat) (data : List Char) : Option (Expression C × List Char) :=
  lev2Exp S cmpExp fuel none none data

/-- `ConditionParser::end_exp`. -/
def endExp (fuel : Nat) (stop data : List Char) : Option (Expression C × List Char) :=
  lev2Exp S cmpExp fuel (some stop) none data

end Levels
end WarpMotor
