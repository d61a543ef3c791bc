import WarpMotor.Cond.Parser
import WarpMotor.Lib.Parsing
import WarpMotor.Oml.Syntax

/-!
Parsers of an object model, the parts without nesting: keywords, references to
the static block, `read`, `take` with a default, built-in functions, `collect`,
`access_direct`, `fmt` and `calc`. What the parser takes from other crates is a
parameter. A default is parsed by the parser of its own position, so the depth
of defaults is bounded by `fuel`.
-/
namespace WarpMotor.Oml

open Parsing

abbrev Text := List Char
abbrev Parse := Parser Char

/-- Parsers, formats and conversions from other crates. -/
structure Atoms (PipeFun : Type) where
  symbol : String → Parse Unit
  takeVarName : Parse String
  takeWildKey : Parse String
  takeObjPath : Parse String
  takeKey : Parse String
  takeKeyPair : Parse (String × String)
  takeJsonPath : Parse String
  takeParenthesesVal : Parse String
  takeDatatype : Parse DataType
  fieldIns : DataType → String → Parse DataField
  takeSqlTval : Parse Value
  quotStr : Parse String
  peekStr : String → Parse Unit
  getScope : Char → Char → Parse Text
  parseFloat : String → Option UInt64
  /-- A pipe function, behind the bar. -/
  pipeFun : Parse PipeFun
  isRemove : PipeFun → Bool
  /-- A value of a query that is neither text nor an integer. -/
  otherLiteral : Value → String

def space : Parse Unit := fun text => (.ok (), multispace0 text)

def lit (what : String) : Parse Unit := fun text =>
  match literal what.toList text with
  | some rest => (.ok (), rest)
  | none => (.error .backtrack, text)

def isEmptyText : Parse Bool := fun text => (.ok text.isEmpty, text)

def takeWhile1 (keep : Char → Bool) : Parse Text := fun text =>
  match text.takeWhile keep with
  | [] => (.error .backtrack, text)
  | found => (.ok found, text.dropWhile keep)

def digit1 : Parse Text := takeWhile1 Char.isDigit

/-- White space as `trim` has it. -/
def isWhite (c : Char) : Bool :=
  (9 ≤ c.toNat && c.toNat ≤ 13) || c.toNat = 0x20 || c.toNat = 0x85 || c.toNat = 0xA0 ||
    c.toNat = 0x1680 || (0x2000 ≤ c.toNat && c.toNat ≤ 0x200A) || c.toNat = 0x2028 ||
    c.toNat = 0x2029 || c.toNat = 0x202F || c.toNat = 0x205F || c.toNat = 0x3000

def trimStart (text : Text) : Text := text.dropWhile isWhite

def trimText (text : Text) : Text := ((trimStart text).reverse.dropWhile isWhite).reverse

/-- The text up to the first place where `what` stands. -/
def takeUntil (what : Text) : Parse Text := fun text =>
  let rec go : Text → Text → Except Fail Text × Text
    | before, [] => if what.isEmpty then (.ok before.reverse, []) else (.error .backtrack, text)
    | before, c :: rest =>
      if peekStr what (c :: rest) then (.ok before.reverse, c :: rest) else go (c :: before) rest
  go [] text

/-- Everything in a text of its own has to be read. -/
def whole {A : Type} (code : Text) (p : Parse A) (left : Fail) : Parse A := do
  let (a, rest) ← onText code (do
    let a ← p
    space
    return a)
  if rest.isEmpty then return a else failWith left

def keyword (what : String) : Parse Unit := do
  space
  lit what

def kwGwMatch : Parse Unit := keyword "match"
def kwHeadSepLine : Parse Unit := keyword "---"
def kwOmlName : Parse Unit := keyword "name"
def kwOmlRule : Parse Unit := keyword "rule"
def kwOmlEnable : Parse Unit := keyword "enable"
def kwStatic : Parse Unit := keyword "static"
def kwIn : Parse Unit := keyword "in"
def kwKeys : Parse Unit := keyword "keys"
def kwOption : Parse Unit := keyword "option"
def kwTake : Parse Unit := keyword "take"
def kwRead : Parse Unit := keyword "read"
def kwCrateSymbol : Parse Unit := keyword "@"
def kwFmt : Parse Unit := keyword "fmt"
def kwGwPipe : Parse Unit := keyword "pipe"
def kwObject : Parse Unit := keyword "object"
def kwArray : Parse Unit := keyword "array"
def kwGwCollect : Parse Unit := keyword "collect"

section

variable {PipeFun : Type} (atoms : Atoms PipeFun) (symbols : List String)

/-- A name of the static block, read as a reference to it. -/
def parseStaticValue : Parse (PreciseEvaluator PipeFun) := fun text =>
  match (do space; atoms.takeVarName : Parse String) text with
  | (.ok name, rest) =>
    if symbols.contains name then (.ok (.staticSymbol name), rest) else (.error .backtrack, text)
  | (.error e, rest) => if e.isError then (.error .backtrack, text) else (.error e, rest)

def omlValue : Parse DataField := do
  let info ← atoms.takeDatatype
  let val ← atoms.takeParenthesesVal
  atoms.fieldIns info val

def omlAgaValue : Parse (PreciseEvaluator PipeFun) := do return .obj (← omlValue atoms)

def omlSqlRaw : Parse (PreciseEvaluator PipeFun) := do
  space
  return .val (← atoms.takeSqlTval)

def omlFunItem : Parse BuiltinFunction := do
  space
  let function ← alt [
    (do lit "Now::date"; return .nowDate),
    (do lit "Now::hour"; return .nowHour),
    (do lit "Now::time"; return .nowTime)]
  let _ ← attempt (atoms.getScope '(' ')')
  return function

def omlGwFun : Parse (PreciseEvaluator PipeFun) := do return .builtin (← omlFunItem atoms)

def omlArgsOption : Parse Text := do
  kwOption
  atoms.symbol ":"
  atoms.getScope '[' ']'

def omlArgsIn : Parse Text := do
  alt [kwIn, kwKeys]
  atoms.symbol ":"
  atoms.getScope '[' ']'

def omlArgs : Parse (String × String) := do
  let arg ← alt [
    (do return ("option", String.ofList (← omlArgsOption atoms))),
    (do return ("in", String.ofList (← omlArgsIn atoms))),
    atoms.takeKeyPair,
    (do return ("get", ← atoms.takeJsonPath))]
  let _ ← opt (atoms.symbol ",")
  return arg

/-- The arguments of `read` and `take`, in the order of `ReadOption`. -/
structure ReadOption where
  get : Option String
  option : List String
  collect : List String

def splitKeys (keys : String) : List String :=
  (keys.toList.splitOn ',').map (fun key => String.ofList (trimText key))

def addArg (found : ReadOption) (arg : String × String) : Option ReadOption :=
  if arg.1 = "option" then some { found with option := splitKeys arg.2 }
  else if arg.1 = "in" ∨ arg.1 = "keys" then some { found with collect := splitKeys arg.2 }
  else if arg.1 = "get" then some { found with get := some arg.2 }
  else none

def readArgs : Parse ReadOption := do
  let code ← atoms.getScope '(' ')'
  let args ← whole code (many (omlArgs atoms)) .cut
  match args.foldlM addArg ⟨none, [], []⟩ with
  | some found => return found
  | none => failWith .backtrack

def omlRead : Parse DirectAccessor := do
  kwRead
  let found ← readArgs atoms
  return .read ⟨found.get, found.option, found.collect, none⟩

def omlTake : Parse DirectAccessor := do
  kwTake
  let found ← readArgs atoms
  return .take ⟨found.get, found.option, found.collect, none⟩

def omlVarGetStd : Parse DirectAccessor := alt [omlTake atoms, omlRead atoms]

def omlVarGetRef : Parse DirectAccessor := do
  kwCrateSymbol
  space
  let key ← atoms.takeVarName
  return .read ⟨some key, [], [], none⟩

def omlVarGet : Parse DirectAccessor := alt [omlVarGetRef atoms, omlVarGetStd atoms]

/-- What a default may be. The evaluators that it cannot be are `unreachable!`. -/
def intoGeneric : PreciseEvaluator PipeFun → Parse GenericAccessor
  | .obj field => pure (.field field)
  | .builtin function => pure (.builtin function)
  | .staticSymbol symbol => pure (.staticSymbol symbol)
  | _ => failWith .panic

def peekOne : Parse (Option Char) := fun text => (.ok text.head?, text)

mutual
def omlTdoGet : Nat → Parse RecordOperation
  | 0 => failWith .exhausted
  | fuel + 1 => do
    let datGet ← omlVarGet atoms
    space
    match ← peekOne with
    | some '{' => return ⟨datGet, some (← omlDefaultBody fuel)⟩
    | _ => return ⟨datGet, none⟩

def omlDefaultBody : Nat → Parse GenericAccessor
  | 0 => failWith .exhausted
  | fuel + 1 => do
    atoms.symbol "\x7b"
    let default ← omlDefault fuel
    atoms.symbol "\x7d"
    return default

def omlDefault : Nat → Parse GenericAccessor
  | 0 => failWith .exhausted
  | fuel + 1 => do
    atoms.symbol "_"
    atoms.symbol ":"
    omlGensAcq fuel

def omlGensAcq : Nat → Parse GenericAccessor
  | 0 => failWith .exhausted
  | fuel + 1 => do
    let gw ← alt [
      (do return .tdc (← omlTdoGet fuel)),
      omlGwFun atoms,
      omlAgaValue atoms,
      parseStaticValue atoms symbols]
    let _ ← opt (atoms.symbol ";")
    intoGeneric gw
end

def omlAgaTdc (fuel : Nat) : Parse (PreciseEvaluator PipeFun) := do
  return .tdc (← omlTdoGet atoms symbols fuel)

def omlCollect : Parse DirectAccessor := do
  kwGwCollect
  omlVarGet atoms

def omlAgaCollect : Parse (PreciseEvaluator PipeFun) := do return .collect (← omlCollect atoms)

def omlAccessDirect : Parse AccessDirectOperation := do
  space
  lit "access_direct"
  let code ← atoms.getScope '(' ')'
  whole code (do
    let src ← omlVarGet atoms
    atoms.symbol ","
    let dst ← omlVarGet atoms
    return ⟨src, dst⟩) .backtrack

def omlAgaAccessDirect : Parse (PreciseEvaluator PipeFun) := do
  return .accessDirect (← omlAccessDirect atoms)

def omlArgItem : Parse RecordOperation := do
  atoms.symbol ","
  return ⟨← omlVarGet atoms, none⟩

def omlFmtItem : Parse FmtOperation := do
  space
  kwFmt
  space
  lit "("
  space
  let fmtStr ← atoms.getScope '"' '"'
  let args ← many1 (omlArgItem atoms)
  space
  lit ")"
  space
  let _ ← attempt (atoms.getScope '(' ')')
  return ⟨String.ofList fmtStr, args⟩

def omlAgaFmt : Parse (PreciseEvaluator PipeFun) := do return .fmt (← omlFmtItem atoms)

def consumeSymbol (symbol : Char) : Parse Bool := fun text =>
  match trimStart text with
  | c :: rest => if c = symbol then (.ok true, rest) else (.ok false, text)
  | [] => (.ok false, text)

/-- The first of the operators that stands next. -/
def consumeOp : List (Char × CalcOp) → Parse (Option CalcOp)
  | [] => pure none
  | (symbol, op) :: rest => do
    if ← consumeSymbol symbol then return some op else consumeOp rest

def parseDigits (digits : Text) : Nat := digits.foldl (fun n c => 10 * n + (c.toNat - 48)) 0

def parseI64 (digits : Text) : Option Int :=
  if parseDigits digits ≤ 9223372036854775807 then some (parseDigits digits) else none

/-- The numbers that a text of digits can stand for. -/
def CalcNumber.Unsigned : CalcNumber → Prop
  | .digit number => 0 ≤ number ∧ number ≤ 9223372036854775807
  | .float _ => True

def parseNumber : Parse CalcNumber := fun text =>
  (do
    let digits ← digit1
    match ← peekOne with
    | some '.' =>
      lit "."
      let frac ← digit1
      match atoms.parseFloat (String.ofList (digits ++ '.' :: frac)) with
      | some bits => return .float bits
      | none => failWith .backtrack
    | _ =>
      match parseI64 digits with
      | some number => return .digit number
      | none => failWith .backtrack : Parse CalcNumber) (trimStart text)

def calcFun (name : String) : Option CalcFun :=
  if name = "abs" then some .abs
  else if name = "round" then some .round
  else if name = "floor" then some .floor
  else if name = "ceil" then some .ceil
  else none

mutual
def parseExpr : Nat → Parse CalcExpr
  | 0 => failWith .exhausted
  | fuel + 1 => do addLoop fuel (← parseMul fuel)

def addLoop : Nat → CalcExpr → Parse CalcExpr
  | 0, _ => failWith .exhausted
  | fuel + 1, expr => do
    match ← consumeOp [('+', .add), ('-', .sub)] with
    | none => return expr
    | some op => addLoop fuel (.binary op expr (← parseMul fuel))

def parseMul : Nat → Parse CalcExpr
  | 0 => failWith .exhausted
  | fuel + 1 => do mulLoop fuel (← parseUnary fuel)

def mulLoop : Nat → CalcExpr → Parse CalcExpr
  | 0, _ => failWith .exhausted
  | fuel + 1, expr => do
    match ← consumeOp [('*', .mul), ('/', .div), ('%', .mod)] with
    | none => return expr
    | some op => mulLoop fuel (.binary op expr (← parseUnary fuel))

def parseUnary : Nat → Parse CalcExpr
  | 0 => failWith .exhausted
  | fuel + 1 => do
    if ← consumeSymbol '-' then return .unaryNeg (← parseUnary fuel) else parsePrimary fuel

def parsePrimary : Nat → Parse CalcExpr
  | 0 => failWith .exhausted
  | fuel + 1 => do
    space
    match ← peekOne with
    | some '(' => do
      let code ← atoms.getScope '(' ')'
      whole code (parseExpr fuel) .backtrack
    | _ => do
      let here ← getText
      match ← attempt (parseCalcFun fuel) with
      | some expr => return expr
      | none =>
        setText here
        match ← attempt (omlVarGet atoms) with
        | some accessor => return .accessor accessor
        | none =>
          setText here
          return .const (← parseNumber atoms)

def parseCalcFun : Nat → Parse CalcExpr
  | 0 => failWith .exhausted
  | fuel + 1 => do
    space
    match calcFun (← atoms.takeVarName) with
    | none => failWith .backtrack
    | some function =>
      let code ← atoms.getScope '(' ')'
      return .func function (← whole code (parseExpr fuel) .backtrack)
end

def omlCalc (fuel : Nat) : Parse CalcExpr := do
  space
  lit "calc"
  let code ← atoms.getScope '(' ')'
  whole code (parseExpr atoms fuel) .backtrack

def omlAgaCalc (fuel : Nat) : Parse (PreciseEvaluator PipeFun) := do
  return .calculate (← omlCalc atoms fuel)

end

end WarpMotor.Oml
