import WarpMotor.Oml.SqlText

/-!
The condition of a query: comparisons of a column with an accessor, the parser
of conditions with the kinds of its failures, the printer that gives the text
of the condition and its parameters by name, and the three forms that are
recognised before the general parser is tried.
-/
namespace WarpMotor.Oml

open Parsing

abbrev Vars := List (String × CondAccessor)

/-- A parameter of that name is replaced. -/
def insertVar (vars : Vars) (name : String) (accessor : CondAccessor) : Vars :=
  vars.filter (fun var => var.1 ≠ name) ++ [(name, accessor)]

def extendVars (vars others : Vars) : Vars :=
  others.foldl (fun vars var => insertVar vars var.1 var.2) vars

def fromRead (name : String) : CondAccessor := .tdc ⟨.read ⟨some name, [], [], none⟩, none⟩
def fromTake (name : String) : CondAccessor := .tdc ⟨.take ⟨some name, [], [], none⟩, none⟩

inductive SqlCmpOperator where
  | we | eq | ne | gt | ge | lt | le
  deriving DecidableEq, Repr

namespace SqlCmpOperator

/-- `none` is `unreachable!`. -/
def toSql : SqlCmpOperator → Option Text
  | we => none
  | eq => some "=".toList
  | ne => some "!=".toList
  | gt => some ">".toList
  | ge => some ">=".toList
  | lt => some "<".toList
  | le => some "<=".toList

/-- With the sides exchanged. -/
def flip : SqlCmpOperator → SqlCmpOperator
  | gt => lt
  | ge => le
  | lt => gt
  | le => ge
  | other => other

end SqlCmpOperator

def symbolSqlCmp : Parse SqlCmpOperator := alt [
  (do keyword "="; return .eq),
  (do keyword "!="; return .ne),
  (do keyword "<="; return .le),
  (do keyword ">="; return .ge),
  (do keyword "<"; return .lt),
  (do keyword ">"; return .gt)]

/-- A column, or a literal put in its place, against an accessor. -/
structure CompareExpress where
  varName : Text
  op : SqlCmpOperator
  right : CondAccessor

/-- The parser, with what it read put back when it fails. -/
def tryNext {A : Type} (p : Parse A) : Parse (Option A) := do
  let here ← getText
  match ← attempt p with
  | some a => return some a
  | none =>
    setText here
    return none

section

variable {PipeFun : Type} (atoms : Atoms PipeFun) (symbols : List String) (fuel : Nat)

def tempName : Parse String := do
  let name ← atoms.takeVarName
  if peekStr "__".toList name.toList then return name else failWith .backtrack

def sqlFnArg : Parse (Option SqlFnArg) := do
  match ← tryNext (omlTdoGet atoms symbols fuel) with
  | some op => return some (.param (.tdc op))
  | none =>
    match ← tryNext (tempName atoms) with
    | some name => return some (.param (fromRead name))
    | none =>
      match ← tryNext (do space; atoms.takeSqlTval) with
      | some value => return some (.literal value)
      | none => return (← attempt atoms.takeVarName).map .column

/-- Up to the closing bracket; a missing comma before it is passed over. -/
def sqlFnArgs : Nat → Parse (List SqlFnArg)
  | 0 => failWith .exhausted
  | rounds + 1 => do
    space
    let arg ← sqlFnArg atoms symbols fuel
    space
    match ← tryNext (atoms.symbol ")") with
    | some _ => return arg.toList
    | none =>
      match ← tryNext (atoms.symbol ",") with
      | some _ => return arg.toList ++ (← sqlFnArgs rounds)
      | none =>
        atoms.symbol ")"
        return arg.toList

def omlSqlFn : Parse CondAccessor := do
  let start ← getText
  let name ← atoms.takeVarName
  space
  match ← attempt (atoms.symbol "(") with
  | none =>
    setText start
    failWith .backtrack
  | some _ =>
    let here ← getText
    return .sqlFn name (← sqlFnArgs atoms symbols fuel (here.length + 1))

def omlCondAcq : Parse CondAccessor := do
  match ← tryNext (omlSqlFn atoms symbols fuel) with
  | some accessor => return accessor
  | none =>
    match ← tryNext (tempName atoms) with
    | some name => return fromRead name
    | none =>
      match ← tryNext (omlTdoGet atoms symbols fuel) with
      | some op => return .tdc op
      | none =>
        match ← tryNext (omlFunItem atoms) with
        | some function => return .builtin function
        | none =>
          match ← tryNext (do space; atoms.takeSqlTval) with
          | some value => return .val value
          | none => omlSqlFn atoms symbols fuel

def renderSqlLiteral : Value → Text
  | .int number => (toString number).toList
  | .chars text => '\'' :: text.toList.flatMap (fun c => if c = '\'' then ['\'', '\''] else [c]) ++
    ['\'']
  | value => (atoms.otherLiteral value).toList

def isSqlFn : CondAccessor → Bool
  | .sqlFn _ _ => true
  | _ => false

/-- The accessor on the left side: against a literal when it is a function, against a column that
    is not the name of a function. -/
def cmpFlipped : Parse CompareExpress := do
  let left ← omlCondAcq atoms symbols fuel
  let op ← symbolSqlCmp
  let value ← if isSqlFn left then tryNext (do space; atoms.takeSqlTval) else pure none
  match value with
  | some value => return ⟨renderSqlLiteral atoms value, op.flip, left⟩
  | none =>
    let name ← atoms.takeVarName
    let rest ← getText
    if peekStr ['('] (trimStart rest) then failWith .backtrack
    else return ⟨name.toList, op.flip, left⟩

def cmpCanonical : Parse CompareExpress := do
  let name ← atoms.takeVarName
  let op ← symbolSqlCmp
  let target ← omlCondAcq atoms symbols fuel
  return ⟨name.toList, op, target⟩

def sqlCmpExp : Parse CompareExpress := do
  match ← tryNext (cmpFlipped atoms symbols fuel) with
  | some cmp => return cmp
  | none =>
    match ← tryNext (cmpCanonical atoms symbols fuel) with
    | some cmp => return cmp
    | none => cmpCanonical atoms symbols fuel

end

section Levels

variable {C : Type} (S : LogicSymbols) (cmp : Parse C)

def word (what : Text) : Parse Unit := fun text =>
  match literal what text with
  | some rest => (.ok (), rest)
  | none => (.error .backtrack, text)

def stands (what : Text) : Parse Bool := fun text => (.ok (peekStr what text), text)

def endOf (left : Option (Expression C)) : Parse (Expression C) :=
  match left with
  | some expr => pure expr
  | none => failWith .backtrack

def standsStop (stop : Option Text) : Parse Bool :=
  match stop with
  | some stop => stands stop
  | none => pure false

def wordStop (stop : Option Text) : Parse Unit :=
  match stop with
  | some stop => word stop
  | none => pure ()

mutual
def sqlLev2Exp : Nat → Option Text → Option (Expression C) → Parse (Expression C)
  | 0, _, _ => failWith .exhausted
  | fuel + 1, stop, left => do
    space
    if ← isEmptyText then endOf left
    else if ← standsStop stop then do
      wordStop stop
      endOf left
    else if ← stands ['('] then do
      let group ← sqlGroupExp fuel
      sqlLev2Exp fuel stop (some group)
    else if ← stands S.not then do
      word S.not
      let right ← sqlLev0Exp fuel stop
      sqlLev2Exp fuel stop (some (.logic .not none right))
    else if ← stands S.and then do
      word S.and
      let right ← sqlLev1Exp fuel stop none
      sqlLev2Exp fuel stop (some (.logic .and left right))
    else if ← stands S.or then do
      word S.or
      let right ← sqlLev2Exp fuel stop none
      sqlLev2Exp fuel stop (some (.logic .or left right))
    else do
      let found ← cmp
      sqlLev2Exp fuel stop (some (.compare found))

def sqlLev0Exp : Nat → Option Text → Parse (Expression C)
  | 0, _ => failWith .exhausted
  | fuel + 1, stop => do
    space
    if ← isEmptyText then failWith .backtrack
    else if ← standsStop stop then do
      wordStop stop
      failWith .backtrack
    else if ← stands ['('] then sqlGroupExp fuel
    else return .compare (← cmp)

/-- The operator that ends the loop is the literal `||` for every symbol set. -/
def sqlLev1Exp : Nat → Option Text → Option (Expression C) → Parse (Expression C)
  | 0, _, _ => failWith .exhausted
  | fuel + 1, stop, left => do
    space
    if ← isEmptyText then endOf left
    else if ← standsStop stop then do
      wordStop stop
      endOf left
    else if ← stands ['('] then do
      let group ← sqlGroupExp fuel
      sqlLev1Exp fuel stop (some group)
    else if ← stands S.not then do
      word S.not
      let right ← sqlLev0Exp fuel stop
      sqlLev1Exp fuel stop (some (.logic .not none right))
    else if ← stands S.and then do
      word S.and
      let right ← sqlLev1Exp fuel stop none
      sqlLev1Exp fuel stop (some (.logic .and left right))
    else if ← stands ['|', '|'] then endOf left
    else do
      let found ← cmp
      sqlLev1Exp fuel stop (some (.compare found))

def sqlGroupExp : Nat → Parse (Expression C)
  | 0 => failWith .exhausted
  | fuel + 1 => do
    space
    word ['(']
    sqlLev2Exp fuel (some [')']) none
end

end Levels

def sanitizeParamName (s : Text) : Text :=
  let out := s.map (fun c => if isIdentChar c then c else '_')
  if out.isEmpty then ['p'] else out

def deriveParamName : CondAccessor → Text
  | .tdc op =>
    match op.datGet.fieldName with
    | some name => sanitizeParamName name.toList
    | none => ['p']
  | .builtin _ => "_fun".toList
  | .val _ => "_val".toList
  | .sqlFn name _ => sanitizeParamName name.toList

section

variable {PipeFun : Type} (atoms : Atoms PipeFun)

/-- An argument as it stands in the text, and its parameter. -/
def sqlFnPart : SqlFnArg → Text × Vars
  | .column name => (name.toList, [])
  | .literal value => (renderSqlLiteral atoms value, [])
  | .param accessor =>
    (':' :: deriveParamName accessor, [(String.ofList (deriveParamName accessor), accessor)])

def toSqlAndParams (name : String) (args : List SqlFnArg) : Text × Vars :=
  (name.toList ++ '(' :: joinTexts [','] (args.map (fun arg => (sqlFnPart atoms arg).1)) ++ [')'],
    extendVars [] (args.flatMap (fun arg => (sqlFnPart atoms arg).2)))

/-- `none` is `unreachable!`. -/
def CompareExpress.argsTake (cmp : CompareExpress) : Option (Text × Vars) := do
  let op ← cmp.op.toSql
  match cmp.right with
  | .sqlFn name args =>
    let (sql, params) := toSqlAndParams atoms name args
    some (cmp.varName ++ ' ' :: op ++ ' ' :: sql, params)
  | right =>
    some (cmp.varName ++ ' ' :: op ++ " :".toList ++ cmp.varName,
      [(String.ofList cmp.varName, right)])

/-- The text of a condition and its parameters; operators are printed without brackets. -/
def argsTake : Expression CompareExpress → Option (Text × Vars)
  | .compare cmp => cmp.argsTake atoms
  | .logic .and (some left) right => do
    let (leftSql, leftVars) ← argsTake left
    let (rightSql, rightVars) ← argsTake right
    some (leftSql ++ " and ".toList ++ rightSql ++ [' '],
      extendVars (extendVars [] leftVars) rightVars)
  | .logic .or (some left) right => do
    let (leftSql, leftVars) ← argsTake left
    let (rightSql, rightVars) ← argsTake right
    some (leftSql ++ " or ".toList ++ rightSql ++ [' '],
      extendVars (extendVars [] leftVars) rightVars)
  | .logic .not _ right => do
    let (sql, vars) ← argsTake right
    some ("not ".toList ++ sql ++ [' '], vars)
  | .logic _ none _ => none

end

/-- An item of a list or an argument: `read(arg)` becomes `:arg`. -/
def toSqlPiece (s : Text) (params : Vars) : Text × Vars :=
  let st := trimText s
  let bind (name : Text) (accessor : String → CondAccessor) : Text × Vars :=
    (':' :: name, insertVar params (String.ofList name) (accessor (String.ofList name)))
  let call (start : String) : Option Text :=
    ((stripPrefix start.toList st).bind (stripSuffix [')'])).map trimText
  match (stripPrefix ['@'] st).filter isSqlIdent with
  | some name => bind name fromRead
  | none =>
    match call "read(" with
    | some name => bind name fromRead
    | none =>
      if peekStr "__".toList st && isSqlIdent st then bind st fromRead
      else
        match (call "take(").filter isSqlIdent with
        | some name => bind name fromTake
        | none => (st, params)

def isExponent (text : Text) : Bool :=
  match text with
  | '+' :: digits | '-' :: digits => !digits.isEmpty && digits.all Char.isDigit
  | digits => !digits.isEmpty && digits.all Char.isDigit

/-- Digits with at most one point, and an exponent. -/
def isDecimal (text : Text) : Bool :=
  let whole := text.takeWhile Char.isDigit
  let behind := text.dropWhile Char.isDigit
  let (frac, behind) :=
    match behind with
    | '.' :: rest => (rest.takeWhile Char.isDigit, rest.dropWhile Char.isDigit)
    | rest => ([], rest)
  (!whole.isEmpty || !frac.isEmpty) &&
    match behind with
    | [] => true
    | 'e' :: exponent | 'E' :: exponent => isExponent exponent
    | _ => false

/-- What reads as an `f64`; every `i64` does. -/
def isNumberText (text : Text) : Bool :=
  let unsigned :=
    match text with
    | '+' :: rest | '-' :: rest => rest
    | rest => rest
  isDecimal unsigned || unsigned.map Char.toLower ∈ ["inf".toList, "infinity".toList, "nan".toList]

def isSqlLiteralPiece (s : Text) : Bool :=
  let st := trimText s
  if st.isEmpty then false
  else if (st.head? = some '\'' && st.getLast? = some '\'') ||
      (st.head? = some '"' && st.getLast? = some '"') then 2 ≤ st.length
  else isNumberText st

def sqlStringLiteral (s : Text) : Text :=
  '\'' :: s.flatMap (fun c => if c = '\'' then ['\'', '\''] else [c]) ++ ['\'']

/-- What has been read of a pattern: the literal so far, the parts before it, and whether one of
    them is a parameter. -/
structure LikeParts where
  literal : Text
  parts : List Text
  dynamic : Bool
  params : Vars

namespace LikeParts

def flush (found : LikeParts) : LikeParts :=
  if found.literal.isEmpty then found
  else { found with literal := [], parts := found.parts ++ [sqlStringLiteral found.literal] }

def bind (found : LikeParts) (piece : Text × Vars) : LikeParts :=
  let found := found.flush
  { found with parts := found.parts ++ [piece.1], dynamic := true, params := piece.2 }

def char (found : LikeParts) (c : Char) : LikeParts :=
  { found with literal := found.literal ++ [c] }

end LikeParts

/-- `read(name)` or `take(name)` at the start of the text. -/
def likeCall (start : Text) (rest : Text) : Option (Text × Text) :=
  (stripPrefix start rest).bind (fun after =>
    match after.span (· ≠ ')') with
    | (name, _ :: tail) => if isSqlIdent (trimText name) then some (trimText name, tail) else none
    | (_, []) => none)

def likeLoop : Nat → Text → LikeParts → LikeParts
  | 0, _, found => found
  | _ + 1, [], found => found
  | fuel + 1, c :: rest, found =>
    let name := rest.takeWhile isIdentChar
    if c = '@' && !name.isEmpty then
      likeLoop fuel (rest.dropWhile isIdentChar) (found.bind (':' :: name,
        insertVar found.params (String.ofList name) (fromRead (String.ofList name))))
    else
      match (likeCall "read(".toList (c :: rest)).map (fun call => ("read(".toList, call)) |>.or
          ((likeCall "take(".toList (c :: rest)).map (fun call => ("take(".toList, call))) with
      | some (start, name, tail) =>
        likeLoop fuel tail (found.bind (toSqlPiece (start ++ name ++ [')']) found.params))
      | none => likeLoop fuel rest (found.char c)

/-- A quoted pattern with parameters in it, as a concatenation. The slice inside the quotes is a
    panic for a single quote. -/
def renderLikeInterpolatedLiteral (rhs : Text) (params : Vars) :
    Except Fail (Option (Text × Vars)) :=
  let rhs := trimText rhs
  match rhs with
  | [] => .ok none
  | quote :: rest =>
    if (quote ≠ '\'' && quote ≠ '"') || rhs.getLast? ≠ some quote then .ok none
    else if rest.isEmpty then .error .panic
    else
      let content := rest.dropLast
      let found := (likeLoop (content.length + 1) content ⟨[], [], false, params⟩).flush
      if found.dynamic then .ok (some (joinTexts " || ".toList found.parts, found.params))
      else .ok none

def isBound (piece : Text) : Bool := peekStr [':'] piece || isSqlLiteralPiece piece

/-- The items of a list in order, each a parameter or a literal. -/
def inListItems : List Text → Vars → Option (List Text × Vars)
  | [], params => some ([], params)
  | part :: rest, params =>
    let (piece, params) := toSqlPiece part params
    if isBound (trimText piece) then
      (inListItems rest params).map (fun found => (trimText piece :: found.1, found.2))
    else none

/-- `field in (...)`. -/
def fastPathInList (s : Text) : Option (Text × Vars) := do
  let (before, rest) ← findTopLevelInKeyword (trimText s)
  let lhs := trimText before
  if !isSqlIdent lhs then none
  else do
    let inner ← (stripPrefix ['('] (trimText (rest.drop 2))).bind (stripSuffix [')'])
    let parts ← splitTopLevelCommas (trimText inner)
    let (items, params) ← inListItems parts []
    some (lhs ++ " IN (".toList ++ joinTexts ", ".toList items ++ [')'], params)

/-- `field like ...`. -/
def fastPathLike (s : Text) : Except Fail (Option (Text × Vars)) :=
  match findTopLevelLikeKeyword (trimText s) with
  | none => .ok none
  | some (before, rest) =>
    let lhs := trimText before
    let rhs := trimText (rest.drop 4)
    if !isSqlIdent lhs || rhs.isEmpty then .ok none
    else do
      match ← renderLikeInterpolatedLiteral rhs [] with
      | some (sql, params) => .ok (some (lhs ++ " LIKE ".toList ++ sql, params))
      | none =>
        let (piece, params) := toSqlPiece rhs []
        if isBound (trimText piece) then
          .ok (some (lhs ++ " LIKE ".toList ++ trimText piece, params))
        else .ok none

/-- `1 = ip4_between(x, a, b)`, as a comparison of ranges. -/
def fastPathIp4BetweenEqOne (s : Text) : Option (Text × Vars) := do
  let t := trimText s
  let call ← (stripPrefix "1=".toList t).or (stripPrefix "1 =".toList t)
  let inside ← (stripPrefix "ip4_between(".toList (trimStart call)).bind (stripSuffix [')'])
  match (inside.splitOn ',').map trimText with
  | [x, first, last] =>
    let (p1, params) := toSqlPiece x []
    let (p2, params) := toSqlPiece first params
    let (p3, params) := toSqlPiece last params
    some (p2 ++ " <= ip4_int(".toList ++ p1 ++ ") and ".toList ++ p3 ++ " >= ip4_int(".toList ++
      p1 ++ [')'], params)
  | _ => none

section

variable {PipeFun : Type} (atoms : Atoms PipeFun) (symbols : List String) (strict : Bool)
  (fuel : Nat)

def liftExcept {A : Type} (result : Except Fail A) : Parse A :=
  match result with
  | .ok a => pure a
  | .error e => failWith e

def sqlQuery (body whereSql : Text) (vars : Vars) (tail : TailClauses) : SqlQuery :=
  ⟨String.ofList (appendTail ("select ".toList ++ body ++ " where ".toList ++ whereSql)
    tail.orderBy tail.limit), vars⟩

/-- The general parser on the whole condition. -/
def genericWhere (cond : Text) : Parse (Text × Vars) := do
  let (expr, _) ← onText cond
    (sqlLev2Exp sqlSymbol (sqlCmpExp atoms symbols fuel) (2 * cond.length + 2) (some [';']) none)
  match argsTake atoms expr with
  | some found => return found
  | none => failWith .panic

def keywordNoCase (what : String) : Parse Unit := do
  space
  (fun text => if startsWithNoCase what.toList text then (.ok (), text.drop what.length)
    else (.error .backtrack, text) : Parse Unit)

def kwSqlSelect : Parse Unit := keywordNoCase "select"
def kwSqlWhere : Parse Unit := keywordNoCase "where"

/-- The columns and the source, checked; without `strict` a body that fails the check is kept. -/
def safeBody (body : Text) : Parse Text := do
  match ← liftExcept (sanitizeSqlBody (3 * body.length + 3) body) with
  | some body => return body
  | none => if strict then failWith .backtrack else return body

def omlSql : Parse SqlQuery := do
  kwSqlSelect
  let body ← takeUntil "where".toList
  kwSqlWhere
  let raw ← takeUntil [';']
  match splitTailClauses raw with
  | none => failWith .backtrack
  | some tail =>
    let cond := (rewriteLhsFnEqLiteral tail.cond).getD tail.cond
    match fastPathIp4BetweenEqOne cond with
    | some (sql, vars) => return sqlQuery body sql vars tail
    | none =>
      match fastPathInList cond with
      | some (sql, vars) => return sqlQuery body sql vars tail
      | none =>
        match ← liftExcept (fastPathLike cond) with
        | some (sql, vars) => return sqlQuery body sql vars tail
        | none =>
          let (sql, vars) ← genericWhere atoms symbols fuel cond
          return sqlQuery (← safeBody strict body) sql vars tail

def omlAgaSql : Parse (PreciseEvaluator PipeFun) := do
  return .sql (← omlSql atoms symbols strict fuel)

end

end WarpMotor.Oml
