import WarpMotor.Cond.TreeTokens

/-!
Printed conditions. `display` brackets an operand that is an operator, but not
a negation. The printed text is a text of the grammar, with the tree
`printedTree`, unless a negation stands directly under a negation; and it is
read back as the tree is read, with the open calls of the parser.
-/
namespace WarpMotor
open BoolFrames Fuel

namespace LogicSymbols

def symbolLogic (S : LogicSymbols) : LogicOperator → List Char
  | .and => S.and
  | .or => S.or
  | .not => S.not

end LogicSymbols

def LogicOperator.symbol : LogicOperator → CondSymbol
  | .and => .and
  | .or => .or
  | .not => .not

namespace Expression
variable {C : Type}

def isNot : Expression C → Bool
  | .logic .not _ _ => true
  | _ => false

/-- The left side of an operator, given its own text. -/
def displayLeft (text : List Char) : Expression C → List Char
  | .logic .not _ _ => text ++ [' ']
  | .logic _ _ _ => '(' :: (text ++ [')', ' '])
  | .compare _ => text ++ [' ']

def displayRight (text : List Char) : Expression C → List Char
  | .logic .not _ _ => text
  | .logic _ _ _ => ' ' :: '(' :: (text ++ [')'])
  | .compare _ => ' ' :: text

/-- `Display` of `Expression` and `LogicalExpress`, given that of a comparison. -/
def display (S : LogicSymbols) (displayCmp : C → List Char) : Expression C → List Char
  | .compare cmp => displayCmp cmp
  | .logic op none right => S.symbolLogic op ++ right.displayRight (right.display S displayCmp)
  | .logic op (some left) right =>
    left.displayLeft (left.display S displayCmp) ++
      (S.symbolLogic op ++ right.displayRight (right.display S displayCmp))

def comparisons : Expression C → List C
  | .compare cmp => [cmp]
  | .logic _ none right => right.comparisons
  | .logic _ (some left) right => left.comparisons ++ right.comparisons

/-- Only negations have no left side. -/
inductive Full : Expression C → Prop where
  | compare (cmp : C) : Full (.compare cmp)
  | not {right : Expression C} (operand : Full right) : Full (.logic .not none right)
  | and {left right : Expression C} (first : Full left) (second : Full right) :
      Full (.logic .and (some left) right)
  | or {left right : Expression C} (first : Full left) (second : Full right) :
      Full (.logic .or (some left) right)

/-- No negation stands directly under a negation. -/
def singleNots : Expression C → Bool
  | .compare _ => true
  | .logic .not _ right => !right.isNot && right.singleNots
  | .logic _ none right => right.singleNots
  | .logic _ (some left) right => left.singleNots && right.singleNots

def bracketTokens (toks : List (CondToken C)) : Expression C → List (CondToken C)
  | .logic .not _ _ => toks
  | .logic _ _ _ => .sym .lparen :: (toks ++ [.sym .rparen])
  | .compare _ => toks

def printedTokens : Expression C → List (CondToken C)
  | .compare cmp => [.cmp cmp]
  | .logic op none right => .sym op.symbol :: right.bracketTokens right.printedTokens
  | .logic op (some left) right =>
    left.bracketTokens left.printedTokens ++
      .sym op.symbol :: right.bracketTokens right.printedTokens

end Expression

namespace Cond
variable {C : Type}

def negate : Cond C .unary → Cond C .unary
  | .cmp negated c => .cmp (!negated) c
  | .group negated body => .group (!negated) body

def unbracket : Cond C .unary → Cond C .or
  | .group false body => body
  | operand => .lastOr (.lastAnd operand)

end Cond

namespace Expression
variable {C : Type}

/-- The tree of an expression printed as an operand. -/
def operandTree : Expression C → Cond C .unary
  | .compare cmp => .cmp false cmp
  | .logic .not _ right => right.operandTree.negate
  | .logic .and (some left) right =>
    .group false (.lastOr (.and left.operandTree (.lastAnd right.operandTree)))
  | .logic .or (some left) right =>
    .group false (.or (.lastAnd left.operandTree) (.lastOr (.lastAnd right.operandTree)))
  | .logic _ none right => right.operandTree

def printedTree (e : Expression C) : Cond C .or := e.operandTree.unbracket

/-- What an expression has to be like for its printed text to be read as it was printed. -/
def readable (S : LogicSymbols) (e : Expression C) : Bool :=
  e.singleNots && e.printedTree.aligned && (endsAnds S || e.printedTree.orsHeard)

end Expression

section Trees
variable {C : Type}

theorem value_negate (truth : C → Bool) (t : Cond C .unary) :
    t.negate.value truth = !t.value truth := by
  cases t with
  | cmp negated c => cases negated <;> simp [Cond.negate, Cond.value]
  | group negated body => cases negated <;> simp [Cond.negate, Cond.value]

theorem value_unbracket (truth : C → Bool) (t : Cond C .unary) :
    t.unbracket.value truth = t.value truth := by
  cases t with
  | cmp negated c => rfl
  | group negated body => cases negated <;> simp [Cond.unbracket, Cond.value]

theorem comparisons_unbracket (t : Cond C .unary) : t.unbracket.comparisons = t.comparisons := by
  cases t with
  | cmp negated c => rfl
  | group negated body => cases negated <;> rfl

theorem comparisons_negate (t : Cond C .unary) : t.negate.comparisons = t.comparisons := by
  cases t <;> rfl

theorem Expression.Full.operandTree_value {e : Expression C} (full : e.Full) (truth : C → Bool) :
    e.operandTree.value truth = e.evaluate truth := by
  induction full with
  | compare cmp => simp [operandTree, Cond.value, evaluate]
  | not operand ih => rw [operandTree, value_negate, ih, evaluate]
  | and first second ih₁ ih₂ => simp [operandTree, Cond.value, evaluate, ih₁, ih₂]
  | or first second ih₁ ih₂ => simp [operandTree, Cond.value, evaluate, ih₁, ih₂]

theorem Expression.Full.printedTree_value {e : Expression C} (full : e.Full) (truth : C → Bool) :
    e.printedTree.value truth = e.evaluate truth := by
  rw [printedTree, value_unbracket, full.operandTree_value]

theorem Expression.Full.printedTree_comparisons {e : Expression C} (full : e.Full) :
    e.printedTree.comparisons = e.comparisons := by
  rw [printedTree, comparisons_unbracket]
  induction full with
  | compare cmp => rfl
  | not operand ih => rw [operandTree, comparisons_negate, ih, comparisons]
  | and first second ih₁ ih₂ => simp [operandTree, Cond.comparisons, comparisons, ih₁, ih₂]
  | or first second ih₁ ih₂ => simp [operandTree, Cond.comparisons, comparisons, ih₁, ih₂]

theorem Expression.Full.operandTree_tokens {e : Expression C} (full : e.Full)
    (single : e.singleNots = true) : e.operandTree.tokens = e.bracketTokens e.printedTokens := by
  induction full with
  | compare cmp => rfl
  | not operand ih =>
    simp only [singleNots, Bool.and_eq_true, Bool.not_eq_true'] at single
    have inner := ih single.2
    cases operand with
    | compare cmp => rfl
    | not operand => cases single.1
    | and first second =>
      simp only [operandTree, Cond.negate, Cond.tokens] at inner ⊢
      simpa [bracketTokens, printedTokens, Cond.negation, LogicOperator.symbol] using inner
    | or first second =>
      simp only [operandTree, Cond.negate, Cond.tokens] at inner ⊢
      simpa [bracketTokens, printedTokens, Cond.negation, LogicOperator.symbol] using inner
  | and first second ih₁ ih₂ =>
    simp only [singleNots, Bool.and_eq_true] at single
    simp [operandTree, Cond.tokens, Cond.negation, bracketTokens, printedTokens,
      LogicOperator.symbol, ih₁ single.1, ih₂ single.2]
  | or first second ih₁ ih₂ =>
    simp only [singleNots, Bool.and_eq_true] at single
    simp [operandTree, Cond.tokens, Cond.negation, bracketTokens, printedTokens,
      LogicOperator.symbol, ih₁ single.1, ih₂ single.2]

theorem Expression.Full.printedTree_tokens {e : Expression C} (full : e.Full)
    (single : e.singleNots = true) : e.printedTree.tokens = e.printedTokens := by
  have operand := full.operandTree_tokens single
  cases full with
  | compare cmp => rfl
  | not right =>
    cases right with
    | compare cmp => rfl
    | not right => cases single
    | and first second => exact operand
    | or first second => exact operand
  | and first second => exact List.append_cancel_right (List.cons.inj operand).2
  | or first second => exact List.append_cancel_right (List.cons.inj operand).2

end Trees
end WarpMotor
