import WarpMotor.Cond.Reading

/-!
Conditions as sequences of tokens, for both symbol sets. `Lexes` splits a text
into symbols and comparisons, and `readTokens` does on tokens what the loops
of the parser do on text: it keeps the calls that wait for an operand, with
the left side each was given, if any. `parseCondition_iff_readTokens` connects the two.
-/
namespace WarpMotor
open BoolFrames Fuel

inductive CondSymbol where
  | lparen | rparen | not | and | or | stop
  deriving DecidableEq, Repr

/-- `bad` stands for text that begins with no token. -/
inductive CondToken (C : Type) where
  | sym (s : CondSymbol)
  | cmp (c : C)
  | bad
  deriving DecidableEq, Repr

def CondSymbol.text (S : LogicSymbols) : CondSymbol → List Char
  | .lparen => ['(']
  | .rparen => [')']
  | .not => S.not
  | .and => S.and
  | .or => S.or
  | .stop => [';']

def SymbolSet (S : LogicSymbols) : Prop := S = rustSymbol ∨ S = sqlSymbol

/-- `||` ends the loop of `lev1_exp` whatever the symbol of the set is. -/
def endsAnds (S : LogicSymbols) : Bool := S.or = ['|', '|']

/-- The texts that the loops look for before they try a comparison. -/
def startsSymbol (S : LogicSymbols) (semi : Bool) (data : List Char) : Bool :=
  peekStr ['('] data || peekStr [')'] data || peekStr S.not data || peekStr S.and data ||
    peekStr S.or data || peekStr ['|', '|'] data || (semi && peekStr [';'] data)

section Lexing
variable {C : Type} (S : LogicSymbols) (semi : Bool) (cmpExp : CmpExp C)

/-- A text as tokens; `;` is one when `semi`. No comparison can be read where a symbol stands. -/
inductive Lexes : List Char → List (CondToken C) → Prop where
  | done {data : List Char} (ended : multispace0 data = []) : Lexes data []
  | sym {data rest : List Char} {toks : List (CondToken C)} (s : CondSymbol)
      (known : s = .stop → semi = true) (starts : multispace0 data = s.text S ++ rest)
      (noCmp : cmpExp (multispace0 data) = none) (later : Lexes rest toks) :
      Lexes data (.sym s :: toks)
  | cmp {data rest : List Char} {toks : List (CondToken C)} {c : C}
      (visible : multispace0 data ≠ []) (plain : startsSymbol S semi (multispace0 data) = false)
      (reads : cmpExp (multispace0 data) = some (c, rest)) (later : Lexes rest toks) :
      Lexes data (.cmp c :: toks)
  | bad {data : List Char} (visible : multispace0 data ≠ [])
      (plain : startsSymbol S semi (multispace0 data) = false)
      (noCmp : cmpExp (multispace0 data) = none) : Lexes data [.bad]

theorem Lexes.multispace0 {S : LogicSymbols} {semi : Bool} {cmpExp : CmpExp C}
    {data data' : List Char} {toks : List (CondToken C)} (lexes : Lexes S semi cmpExp data' toks)
    (same : WarpMotor.multispace0 data = WarpMotor.multispace0 data') :
    Lexes S semi cmpExp data toks := by
  cases lexes with
  | done ended => exact .done (same.trans ended)
  | sym s known starts noCmp later => exact .sym s known (same.trans starts) (same ▸ noCmp) later
  | cmp visible plain reads later =>
    exact .cmp (same ▸ visible) (same ▸ plain) (same ▸ reads) later
  | bad visible plain noCmp => exact .bad (same ▸ visible) (same ▸ plain) (same ▸ noCmp)

end Lexing

section Machine
variable {C : Type}

/-- A call that waits for an operand; the left side of an operator may be missing. -/
abbrev CondCall (C : Type) := Frame (Option (Expression C))

def CondCall.close : CondCall C → Expression C → Expression C
  | .and left, e => .logic .and left e
  | .or left, e => .logic .or left e
  | .group false, e => e
  | .group true, e => .logic .not none e

def inGroup (calls : List (CondCall C)) : Bool :=
  calls.any fun call => call.kind = .group false || call.kind = .group true

def inAndCall : List (CondCall C) → Bool
  | .and _ :: _ => true
  | _ => false

def unwindCalls (calls : List (CondCall C)) (e : Expression C) : Expression C :=
  calls.foldl (fun e call => CondCall.close call e) e

/-- What `or` finds: the `and` calls on top of it return, when their loop knows the symbol. -/
def endAndCalls (ends : Bool) :
    List (CondCall C) → Option (Expression C) → Option (List (CondCall C) × Option (Expression C))
  | .and left :: calls, operand =>
    if ends then operand.bind fun e => endAndCalls ends calls (some (.logic .and left e)) else none
  | calls, operand => some (calls, operand)

/-- The parser on tokens: the calls that wait, whether `not` was read last, and the operand of
    the innermost loop. -/
def readTokens (ends : Bool) : List (CondCall C) → Bool → Option (Expression C) →
    List (CondToken C) → Option (Expression C)
  | calls, true, _, .sym .lparen :: rest => readTokens ends (.group true :: calls) false none rest
  | calls, true, _, .cmp c :: rest =>
    readTokens ends calls false (some (.logic .not none (.compare c))) rest
  | _, true, _, _ => none
  | calls, false, left, [] => left.map (unwindCalls calls)
  | calls, false, left, .sym .rparen :: rest =>
    match calls, left with
    | call :: calls, some e =>
      if inGroup (call :: calls) then readTokens ends calls false (some (CondCall.close call e)) rest
      else none
    | _, _ => none
  | calls, false, left, .sym .stop :: rest =>
    match calls, left with
    | [], some e => some e
    | call :: calls, some e =>
      if inGroup (call :: calls) then none
      else readTokens ends calls false (some (CondCall.close call e)) rest
    | _, none => none
  | calls, false, _, .sym .lparen :: rest => readTokens ends (.group false :: calls) false none rest
  | calls, false, _, .sym .not :: rest => readTokens ends calls true none rest
  | calls, false, left, .sym .and :: rest => readTokens ends (.and left :: calls) false none rest
  | calls, false, left, .sym .or :: rest =>
    match endAndCalls ends calls left with
    | some (calls, left) => readTokens ends (.or left :: calls) false none rest
    | none => none
  | calls, false, _, .cmp c :: rest => readTokens ends calls false (some (.compare c)) rest
  | _, false, _, .bad :: _ => none

end Machine
end WarpMotor
