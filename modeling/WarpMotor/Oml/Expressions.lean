import WarpMotor.Oml.SqlWhere

/-!
Parsers of the expressions with nesting: `match`, `object`, `array`, pipes and
lookups, and the items of an object model. They call each other on the text of
a scope, one unit of fuel for each call. Where a parser takes the kinds of
expression that its position allows, the others are `unreachable!`.
-/
namespace WarpMotor.Oml

open Parsing

section

variable {PipeFun : Type} (atoms : Atoms PipeFun) (symbols : List String) (strict : Bool)

/-- A reference to the static block, put back when there is none. -/
def trySymbol : Parse (Option String) := do
  match ← tryNext (parseStaticValue atoms symbols) with
  | some (.staticSymbol symbol) => return some symbol
  | _ => return none

def condNeq : Parse MatchCond := do
  atoms.symbol "!"
  match ← trySymbol atoms symbols with
  | some symbol => return .neqSym symbol
  | none => return .neq (← omlValue atoms)

def condEq : Parse MatchCond := do
  space
  match ← trySymbol atoms symbols with
  | some symbol => return .eqSym symbol
  | none => return .eq (← omlValue atoms)

/-- Two references, read as the bounds of an interval. -/
def symbolBounds : Parse (Option (String × String)) := tryNext (do
  match ← trySymbol atoms symbols with
  | none => failWith .backtrack
  | some first =>
    atoms.symbol ","
    match ← trySymbol atoms symbols with
    | none => failWith .backtrack
    | some last => return (first, last))

def condIn : Parse MatchCond := do
  space
  kwIn
  let code ← atoms.getScope '(' ')'
  let (cond, _) ← onText code (do
    match ← symbolBounds atoms symbols with
    | some (first, last) => return MatchCond.withinSym first last
    | none =>
      let first ← omlValue atoms
      atoms.symbol ","
      let last ← omlValue atoms
      return .within first last)
  return cond

def knownMatchFunctions : List String :=
  ["starts_with", "ends_with", "contains", "regex_match", "is_empty", "iequals", "iequals_any",
    "gt", "lt", "eq", "in_range"]

/-- One argument, quoted or not. -/
def matchFunArg : Parse String := do
  space
  match ← attempt atoms.quotStr with
  | some quoted => return quoted
  | none => return String.ofList (← takeWhile1 (fun c => c.isAlphanum || c = '.' || c = '-' || c = '_'))

def matchFunArgs : Nat → Parse (List String)
  | 0 => failWith .exhausted
  | rounds + 1 => do
    let arg ← matchFunArg atoms
    space
    match ← attempt (atoms.symbol ",") with
    | some _ => return arg :: (← matchFunArgs rounds)
    | none => return [arg]

def condFun : Parse MatchCond := do
  space
  match ← peekOne with
  | none => failWith .backtrack
  | some first =>
    if !first.isAlpha then failWith .backtrack
    else
      let name ← takeWhile1 isIdentChar
      if !knownMatchFunctions.contains (String.ofList name) then failWith .backtrack
      else
        space
        if (← peekOne) ≠ some '(' then failWith .backtrack
        else
          let code := trimText (← atoms.getScope '(' ')')
          if code.isEmpty then return .function ⟨String.ofList name, []⟩
          else
            let (args, _) ← onText code (matchFunArgs atoms (code.length + 1))
            return .function ⟨String.ofList name, args⟩

def matchCond1Atom : Parse MatchCond := do
  space
  alt [condNeq atoms symbols, condFun atoms, condIn atoms symbols, condEq atoms symbols]

def moreAlternatives : Nat → Parse (List MatchCond)
  | 0 => failWith .exhausted
  | rounds + 1 => do
    let cond ← matchCond1Atom atoms symbols
    space
    match ← tryNext (atoms.symbol "|") with
    | some _ => return cond :: (← moreAlternatives rounds)
    | none => return [cond]

/-- `atom | atom | ...`. -/
def matchCond1 : Parse MatchCond := do
  let first ← matchCond1Atom atoms symbols
  space
  match ← tryNext (atoms.symbol "|") with
  | some _ =>
    let here ← getText
    return .alternatives (first :: (← moreAlternatives atoms symbols (here.length + 1)))
  | none => return first

def moreConds : Nat → Parse (List MatchCond)
  | 0 => failWith .exhausted
  | rounds + 1 => do
    match ← attempt (atoms.symbol ",") with
    | some _ =>
      let cond ← matchCond1 atoms symbols
      return cond :: (← moreConds rounds)
    | none => return []

def matchCondMulti : Parse MatchCondition := do
  space
  let code ← atoms.getScope '(' ')'
  let (conds, _) ← onText code (do
    let first ← matchCond1 atoms symbols
    return first :: (← moreConds atoms symbols (code.length + 1)))
  return .multi conds

/-- What an arm may be. -/
def intoArm : PreciseEvaluator PipeFun → Parse (NestedAccessor PipeFun)
  | .obj field => pure (.field field)
  | .tdc op => pure (.direct op)
  | .collect datCrate => pure (.collect datCrate)
  | .staticSymbol symbol => pure (.staticSymbol symbol)
  | _ => failWith .panic

def matchCalcTarget (fuel : Nat) : Parse (NestedAccessor PipeFun) := do
  atoms.symbol "=>"
  let gw ← alt [omlAgaTdc atoms symbols fuel, omlAgaValue atoms, omlAgaCollect atoms,
    parseStaticValue atoms symbols]
  let _ ← opt (atoms.symbol ",")
  let _ ← opt (atoms.symbol ";")
  intoArm gw

def matchItem (cond : Parse MatchCondition) (fuel : Nat) : Parse (MatchCase PipeFun) := do
  space
  let cond ← cond
  return .mk cond (← matchCalcTarget atoms symbols fuel)

def matchCond1Item (fuel : Nat) : Parse (MatchCase PipeFun) :=
  matchItem atoms symbols (do return .single (← matchCond1 atoms symbols)) fuel

def matchCondMultiItem (fuel : Nat) : Parse (MatchCase PipeFun) :=
  matchItem atoms symbols (matchCondMulti atoms symbols) fuel

def matchCondDefaultItem (fuel : Nat) : Parse (MatchCase PipeFun) :=
  matchItem atoms symbols (do
    space
    atoms.symbol "_"
    return .wildcard) fuel

def moreSources : Nat → Parse (List DirectAccessor)
  | 0 => failWith .exhausted
  | rounds + 1 => do
    match ← attempt (atoms.symbol ",") with
    | some _ =>
      let source ← omlVarGet atoms
      return source :: (← moreSources rounds)
    | none => return []

def omlCrateTuple : Parse MatchSource := do
  space
  let code ← atoms.getScope '(' ')'
  let (sources, _) ← onText code (do
    let first ← omlVarGet atoms
    return first :: (← moreSources atoms (code.length + 1)))
  return .multi sources

def omlCrateCalcRef : Parse MatchSource := do
  space
  match ← attempt (atoms.peekStr "(") with
  | some _ => omlCrateTuple atoms
  | none => return .single (← omlVarGet atoms)

/-- The arms of a match, and the last one when it is the default. -/
def omlMatchBody (item : Parse (MatchCase PipeFun)) (fuel : Nat) :
    Parse (List (MatchCase PipeFun) × Option (MatchCase PipeFun)) := do
  space
  atoms.symbol "\x7b"
  let items ← many1 item
  let default ← opt (matchCondDefaultItem atoms symbols fuel)
  atoms.symbol "\x7d"
  return (items, default)

def omlMatch1Body (fuel : Nat) : Parse (List (MatchCase PipeFun) × Option (MatchCase PipeFun)) :=
  omlMatchBody atoms symbols (matchCond1Item atoms symbols fuel) fuel

def omlMatchMultiBody (fuel : Nat) :
    Parse (List (MatchCase PipeFun) × Option (MatchCase PipeFun)) :=
  omlMatchBody atoms symbols (matchCondMultiItem atoms symbols fuel) fuel

def omlAgaMatch (fuel : Nat) : Parse (PreciseEvaluator PipeFun) := do
  space
  kwGwMatch
  space
  let source ← omlCrateCalcRef atoms
  let (items, default) ←
    match source with
    | .single _ => omlMatch1Body atoms symbols fuel
    | .multi _ => omlMatchMultiBody atoms symbols fuel
  return .matchOn source items default

def omlPipe : Parse PipeFun := do
  atoms.symbol "|"
  space
  atoms.pipeFun

def parsePipeItems : Parse (List PipeFun) := many1 (omlPipe atoms)

/-- `remove` ends a pipe. -/
def ensureRemoveTerminal (items : List PipeFun) : Parse Unit :=
  if items.dropLast.any atoms.isRemove then failWith .cut else pure ()

def makeTarget (dataType : DataType) (name : String) : EvaluationTarget :=
  ⟨if name = "_" then none else some name, dataType⟩

def targetMeta : Parse DataType := do
  match ← attempt (atoms.peekStr ":") with
  | some _ =>
    atoms.symbol ":"
    atoms.takeDatatype
  | none => return .auto

def omlTarget : Parse EvaluationTarget := do
  space
  let name ← atoms.takeWildKey
  space
  return makeTarget (← targetMeta atoms) name

def separated1 {A : Type} (p : Parse A) : Parse (List A) := do
  let first ← p
  return first :: (← many (do
    space
    lit ","
    p))

def omlTargetVecSameMeta : Parse (List EvaluationTarget) := do
  space
  let names ← separated1 atoms.takeVarName
  space
  return names.map (makeTarget (← targetMeta atoms))

def omlTargetVec : Parse (List EvaluationTarget) := do
  space
  separated1 (omlTarget atoms)

/-- The fast path of a pipe: an accessor and at least one function. -/
def accessorPipe : Parse (Option (PreciseEvaluator PipeFun)) := do
  match ← tryNext (do
    let accessor ← omlVarGet atoms
    return (accessor, ← parsePipeItems atoms)) with
  | some (accessor, items) =>
    ensureRemoveTerminal atoms items
    return some (.pipe (.accessor accessor) items)
  | none => return none

/-- What a member of an `object` may be. -/
def intoNested : PreciseEvaluator PipeFun → Parse (NestedAccessor PipeFun)
  | .obj field => pure (.field field)
  | .tdc op => pure (.direct op)
  | .map subs => pure (.map subs)
  | .objArray items => pure (.objArray items)
  | .pipe source items => pure (.pipe source items)
  | .builtin function => pure (.builtin function)
  | .staticSymbol symbol => pure (.staticSymbol symbol)
  | _ => failWith .panic

mutual
def omlSubAcq : Nat → Parse (NestedAccessor PipeFun)
  | 0 => failWith .exhausted
  | fuel + 1 => do
    let gw ← alt [omlAgaMap fuel, omlAgaObjArray fuel, omlAgaPipe fuel, omlAgaPipeUnprefixed fuel,
      omlAgaTdc atoms symbols fuel, omlGwFun atoms, omlAgaValue atoms,
      parseStaticValue atoms symbols]
    let _ ← opt (atoms.symbol ";")
    intoNested gw

def omlAggregateSub : Nat → Parse (List (NestedBinding PipeFun))
  | 0 => failWith .exhausted
  | fuel + 1 => do
    let targets ← omlTargetVecSameMeta atoms
    atoms.symbol "="
    let sub ← omlSubAcq fuel
    return targets.map (fun target => .mk target sub)

def omlAgaMap : Nat → Parse (PreciseEvaluator PipeFun)
  | 0 => failWith .exhausted
  | fuel + 1 => do
    kwObject
    space
    let code ← atoms.getScope '{' '}'
    let subs ← whole code (many1 (omlAggregateSub fuel)) .cut
    return .map subs.flatten

def omlAgaObjArray : Nat → Parse (PreciseEvaluator PipeFun)
  | 0 => failWith .exhausted
  | fuel + 1 => do
    kwArray
    space
    let code ← atoms.getScope '{' '}'
    let (items, _) ← onText code (arrayItems fuel)
    return .objArray items

def arrayItems : Nat → Parse (List (PreciseEvaluator PipeFun))
  | 0 => failWith .exhausted
  | fuel + 1 => do
    space
    if ← isEmptyText then return []
    else
      let item ← omlArrayItem fuel
      return item :: (← arrayItems fuel)

def omlArrayItem : Nat → Parse (PreciseEvaluator PipeFun)
  | 0 => failWith .exhausted
  | fuel + 1 => do
    let gw ← alt [omlAgaMap fuel, omlAgaObjArray fuel, omlAgaTdc atoms symbols fuel,
      omlGwFun atoms, omlAgaValue atoms, parseStaticValue atoms symbols]
    let _ ← opt (atoms.symbol ";")
    return gw

def omlEvalAtom : Nat → Parse (PreciseEvaluator PipeFun)
  | 0 => failWith .exhausted
  | fuel + 1 => alt [
    alt [omlAgaMap fuel, omlAgaObjArray fuel, omlAgaMatch atoms symbols fuel,
      omlAgaSql atoms symbols strict fuel, omlAgaFmt atoms, omlAgaCollect atoms,
      omlAgaCalc atoms fuel],
    alt [omlAgaAccessDirect atoms, omlAgaLookupNocase fuel, omlAgaTdc atoms symbols fuel,
      omlGwFun atoms, omlAgaValue atoms, parseStaticValue atoms symbols]]

def omlAgaPipe : Nat → Parse (PreciseEvaluator PipeFun)
  | 0 => failWith .exhausted
  | fuel + 1 => do
    kwGwPipe
    match ← accessorPipe atoms with
    | some pipe => return pipe
    | none =>
      let source ← alt [
        (do return PipeSource.accessDirect (← omlAccessDirect atoms)),
        (do return .precise (← omlEvalAtom fuel))]
      let items ← parsePipeItems atoms
      ensureRemoveTerminal atoms items
      return .pipe source items

/-- Without the keyword; every error lets the next alternative try. -/
def omlAgaPipeUnprefixed : Nat → Parse (PreciseEvaluator PipeFun)
  | 0 => failWith .exhausted
  | fuel + 1 => do
    match ← accessorPipe atoms with
    | some pipe => return pipe
    | none =>
      match ← tryNext (do
        let eval ← omlEvalAtom fuel
        return (eval, ← parsePipeItems atoms)) with
      | none => failWith .backtrack
      | some (eval, items) =>
        ensureRemoveTerminal atoms items
        return .pipe (.precise eval) items

def lookupArg : Nat → Parse (PreciseEvaluator PipeFun)
  | 0 => failWith .exhausted
  | fuel + 1 => alt [omlAgaLookupNocase fuel, omlAgaPipeUnprefixed fuel,
    omlAgaTdc atoms symbols fuel, omlSqlRaw atoms, omlAgaValue atoms, omlGwFun atoms,
    parseStaticValue atoms symbols]

def omlAgaLookupNocase : Nat → Parse (PreciseEvaluator PipeFun)
  | 0 => failWith .exhausted
  | fuel + 1 => do
    space
    lit "lookup_nocase"
    let code ← atoms.getScope '(' ')'
    whole code (do
      space
      let dictSymbol ← atoms.takeVarName
      space
      atoms.symbol ","
      let key ← lookupArg fuel
      space
      atoms.symbol ","
      let default ← lookupArg fuel
      space
      let _ ← attempt (atoms.symbol ";")
      return .lookup dictSymbol key default none) .backtrack
end

end

inductive BatchEvaluation (PipeFun : Type) where
  | get (op : RecordOperation)
  | pipe (op : RecordOperation) (items : List PipeFun)

/-- An item: a single evaluator, with the flag whether it runs synchronously, or a batch. -/
inductive EvalExp (PipeFun : Type) where
  | single (targets : List EvaluationTarget) (evalWay : PreciseEvaluator PipeFun) (sync : Bool)
  | batch (target : EvaluationTarget) (evalWay : BatchEvaluation PipeFun)

section

variable {PipeFun : Type} (atoms : Atoms PipeFun) (symbols : List String) (strict : Bool)
  (fuel : Nat)

def omlBatchPipe : Parse (BatchEvaluation PipeFun) := do
  let op ← omlTdoGet atoms symbols fuel
  match ← attempt (parsePipeItems atoms) with
  | some items =>
    ensureRemoveTerminal atoms items
    return .pipe op items
  | none => failWith .backtrack

def omlBatchGwGet : Parse (BatchEvaluation PipeFun) := do
  return .get (← omlTdoGet atoms symbols fuel)

/-- `access_direct` with pipe functions behind it. -/
def omlAgaAccessDirectPipe : Parse (PreciseEvaluator PipeFun) := do
  let op ← omlAccessDirect atoms
  match ← attempt (parsePipeItems atoms) with
  | some items => return .pipe (.accessDirect op) items
  | none => failWith .backtrack

/-- The evaluator of an item, by the word it starts with. -/
def evalWayOf (key : String) : Parse (PreciseEvaluator PipeFun) :=
  let orPipe (p : Parse (PreciseEvaluator PipeFun)) : Parse (PreciseEvaluator PipeFun) :=
    alt [omlAgaPipeUnprefixed atoms symbols strict fuel, p]
  if key = "calc" then orPipe (omlAgaCalc atoms fuel)
  else if key = "access_direct" then alt [omlAgaAccessDirectPipe atoms, omlAgaAccessDirect atoms]
  else if key = "match" then orPipe (omlAgaMatch atoms symbols fuel)
  else if key = "lookup_nocase" then orPipe (omlAgaLookupNocase atoms symbols strict fuel)
  else if key = "object" then orPipe (omlAgaMap atoms symbols strict fuel)
  else if key = "array" then orPipe (omlAgaObjArray atoms symbols strict fuel)
  else if key = "pipe" then omlAgaPipe atoms symbols strict fuel
  else if key = "collect" then orPipe (omlAgaCollect atoms)
  else if key = "select" then orPipe (omlAgaSql atoms symbols strict fuel)
  else if key = "fmt" then orPipe (omlAgaFmt atoms)
  else if key = "take" then orPipe (omlAgaTdc atoms symbols fuel)
  else if key = "read" then orPipe (omlAgaTdc atoms symbols fuel)
  else alt [omlAgaPipeUnprefixed atoms symbols strict fuel, omlAgaValue atoms, omlGwFun atoms,
    parseStaticValue atoms symbols]

/-- The evaluator of an item. A target with a `*` in it is a batch. -/
def evalExpOf (targets : List EvaluationTarget) (first : EvaluationTarget) (key : String) :
    Parse (EvalExp PipeFun) :=
  if first.safeName.toList.contains '*' then
    if key = "take" ∨ key = "read" then do
      return .batch first
        (← alt [omlBatchPipe atoms symbols fuel, omlBatchGwGet atoms symbols fuel])
    else failWith .backtrack
  else do
    return .single targets (← evalWayOf atoms symbols strict fuel key) false

def omlAggregate : Parse (EvalExp PipeFun) := do
  let targets ← omlTargetVec atoms
  atoms.symbol "="
  space
  let key ← peek atoms.takeKey
  match targets with
  | [] => failWith .panic
  | first :: _ =>
    let unit ← evalExpOf atoms symbols strict fuel targets first key
    atoms.symbol ";"
    return unit

end

end WarpMotor.Oml
