import WarpMotor.Oml.Evaluate
import WarpMotor.Oml.Expressions

/-!
An object model from its text: the head, the static block, the items, and the
pass that puts the fields of the static block in place of the references to
them. Also one item of a model run on a record, which is how the static block
becomes fields.
-/
namespace WarpMotor.Oml

open Parsing

structure ObjModel (PipeFun : Type) where
  name : String
  rules : List String
  enable : Bool
  items : List (EvalExp PipeFun)
  staticItems : List (EvalExp PipeFun)
  hasTempFields : Bool
  staticFields : List (String × DataField)

section

variable {PipeFun : Type} (atoms : Atoms PipeFun) (strict : Bool) (fuel : Nat)

def omlConfHead : Parse String := do
  space
  kwOmlName
  atoms.symbol ":"
  atoms.takeObjPath

def isRuleChar (c : Char) : Bool := c.isAlphanum || c = '_' || c = '/' || c = '*'

def multispace1 : Parse Unit := do
  let _ ← takeWhile1 isSpace
  return ()

def omlRulePath : Parse String := do
  space
  let trimmed := trimStart (← getText)
  if peekStr "enable".toList trimmed || peekStr "---".toList trimmed then failWith .backtrack
  else
    let key ← takeWhile1 isRuleChar
    multispace1
    return String.ofList key

def omlConfRules : Parse (List String) := do
  space
  kwOmlRule
  atoms.symbol ":"
  many omlRulePath

def omlConfEnable : Parse Bool := do
  space
  kwOmlEnable
  atoms.symbol ":"
  let value ← atoms.takeVarName
  if value = "true" then return true
  else if value = "false" then return false
  else failWith .cut

/-- `enable` and `rule` in any order, as often as they come. -/
def confOptions : Nat → Bool → List String → Parse (Bool × List String)
  | 0, _, _ => failWith .exhausted
  | rounds + 1, enable, rules => do
    space
    match ← tryNext (omlConfEnable atoms) with
    | some enable => confOptions rounds enable rules
    | none =>
      match ← tryNext (omlConfRules atoms) with
      | some rules => confOptions rounds enable rules
      | none => return (enable, rules)

mutual
/-- Whether the static block allows it. -/
def staticPreciseSupported : PreciseEvaluator PipeFun → Bool
  | .obj _ | .objArc _ | .val _ => true
  | .calculate expr => staticCalcSupported expr
  | .map subs => staticMembersSupported subs
  | .objArray items => staticItemsSupported items
  | _ => false

def staticCalcSupported : CalcExpr → Bool
  | .const _ => true
  | .accessor _ => false
  | .unaryNeg inner => staticCalcSupported inner
  | .binary _ lhs rhs => staticCalcSupported lhs && staticCalcSupported rhs
  | .func _ arg => staticCalcSupported arg

def staticNestedSupported : NestedAccessor PipeFun → Bool
  | .field _ | .fieldArc _ => true
  | .map subs => staticMembersSupported subs
  | .objArray items => staticItemsSupported items
  | _ => false

def staticMembersSupported : List (NestedBinding PipeFun) → Bool
  | [] => true
  | ⟨_, acquirer⟩ :: rest => staticNestedSupported acquirer && staticMembersSupported rest

def staticItemsSupported : List (PreciseEvaluator PipeFun) → Bool
  | [] => true
  | item :: rest => staticPreciseSupported item && staticItemsSupported rest
end

/-- The name that an item of the static block defines. -/
def staticTarget : EvalExp PipeFun → Option String
  | .single (target :: _) evalWay _ =>
    if staticPreciseSupported evalWay then some target.safeName else none
  | _ => none

/-- The items of one static block, with the names that those before them define. -/
def staticBlock : Nat → List (EvalExp PipeFun) → List String →
    Parse (List (EvalExp PipeFun) × List String)
  | 0, _, _ => failWith .exhausted
  | rounds + 1, items, symbols => do
    space
    if ← isEmptyText then return (items, symbols)
    else
      let exp ← omlAggregate atoms symbols strict fuel
      match staticTarget exp with
      | none => failWith .cut
      | some name =>
        if symbols.contains name then failWith .cut
        else staticBlock rounds (items ++ [exp]) (symbols ++ [name])

def parseStaticBlocks : Nat → List (EvalExp PipeFun) → List String →
    Parse (List (EvalExp PipeFun) × List String)
  | 0, _, _ => failWith .exhausted
  | rounds + 1, items, symbols => do
    space
    match ← attempt (atoms.peekStr "static") with
    | none => return (items, symbols)
    | some _ =>
      kwStatic
      space
      let code ← atoms.getScope '{' '}'
      let ((items, symbols), _) ← onText code
        (staticBlock atoms strict fuel (code.length + 1) items symbols)
      parseStaticBlocks rounds items symbols

/-- A target that starts with `__` is temporary. -/
def checkTempFields (items : List (EvalExp PipeFun)) : Bool :=
  let temp (target : EvaluationTarget) : Bool :=
    target.name.any (fun name => peekStr "__".toList name.toList)
  items.any (fun item =>
    match item with
    | .single targets _ _ => targets.any temp
    | .batch target _ => temp target)

def omlConfCode : Parse (ObjModel PipeFun) := do
  let name ← omlConfHead atoms
  let here ← getText
  let (enable, rules) ← confOptions atoms (here.length + 1) true []
  kwHeadSepLine
  let here ← getText
  let (staticItems, symbols) ← parseStaticBlocks atoms strict fuel (here.length + 1) [] []
  let items ← many1 (omlAggregate atoms symbols strict fuel)
  space
  if !(← isEmptyText) then
    match ← attempt (atoms.peekStr "---") with
    | some _ => kwHeadSepLine
    | none =>
      let _ ← omlAggregate atoms symbols strict fuel
  return ⟨name, rules, enable, items, staticItems, checkTempFields items, []⟩

end

section Rewrite

variable {PipeFun : Type} (normalize : String → String) (constFields : List (String × DataField))

def constField (symbol : String) : Option DataField :=
  (constFields.find? (fun field => field.1 = symbol)).map Prod.snd

def rewriteGenericAccessor : GenericAccessor → Option GenericAccessor
  | .staticSymbol symbol => (constField constFields symbol).map .fieldArc
  | accessor => some accessor

def rewriteDefaultAcq : Option GenericAccessor → Option (Option GenericAccessor)
  | none => some none
  | some default => (rewriteGenericAccessor constFields default).map some

def rewriteDirectAccessor : DirectAccessor → Option DirectAccessor
  | .take accessor => do
    let default ← rewriteDefaultAcq constFields accessor.defaultAcq
    some (.take { accessor with defaultAcq := default })
  | .read accessor => do
    let default ← rewriteDefaultAcq constFields accessor.defaultAcq
    some (.read { accessor with defaultAcq := default })

def rewriteRecordOperation (op : RecordOperation) : Option RecordOperation := do
  let datGet ← rewriteDirectAccessor constFields op.datGet
  let default ← rewriteDefaultAcq constFields op.defaultVal
  some ⟨datGet, default⟩

def rewriteArrOperation (datCrate : DirectAccessor) : Option DirectAccessor :=
  rewriteDirectAccessor constFields datCrate

def rewriteCalcExpr : CalcExpr → Option CalcExpr
  | .const number => some (.const number)
  | .accessor accessor => (rewriteDirectAccessor constFields accessor).map .accessor
  | .unaryNeg inner => (rewriteCalcExpr inner).map .unaryNeg
  | .binary op lhs rhs => do
    let lhs ← rewriteCalcExpr lhs
    let rhs ← rewriteCalcExpr rhs
    some (.binary op lhs rhs)
  | .func function arg => (rewriteCalcExpr arg).map (.func function)

mutual
def rewriteSingleMatchCond : MatchCond → Option MatchCond
  | .eqSym symbol => (constField constFields symbol).map .eqArc
  | .neqSym symbol => (constField constFields symbol).map .neqArc
  | .withinSym first last => do
    let first ← constField constFields first
    let last ← constField constFields last
    some (.withinArc first last)
  | .alternatives conds => (rewriteConds conds).map .alternatives
  | cond => some cond

def rewriteConds : List MatchCond → Option (List MatchCond)
  | [] => some []
  | cond :: rest => do
    let cond ← rewriteSingleMatchCond cond
    let rest ← rewriteConds rest
    some (cond :: rest)
end

def rewriteMatchCondition : MatchCondition → Option MatchCondition
  | .single cond => (rewriteSingleMatchCond constFields cond).map .single
  | .multi conds => (rewriteConds constFields conds).map .multi
  | .wildcard => some .wildcard

def rewriteMatchSource : MatchSource → Option MatchSource
  | .single accessor => (rewriteDirectAccessor constFields accessor).map .single
  | .multi accessors => (accessors.mapM (rewriteDirectAccessor constFields)).map .multi

/-- The dictionary of a lookup, from an object of the static block. -/
def bindCompiled (dictSymbol : String) : Option LookupDict := do
  let field ← constField constFields dictSymbol
  match field.value with
  | .obj members => some (members.foldl (fun dict member =>
      dict.filter (fun entry => entry.1 ≠ normalize member.key) ++
        [(normalize member.key, member.storage.asField)]) [])
  | _ => none

mutual
/-- Queries and `access_direct` are passed over. -/
def rewritePreciseEvaluator : PreciseEvaluator PipeFun → Option (PreciseEvaluator PipeFun)
  | .staticSymbol symbol => (constField constFields symbol).map .objArc
  | .calculate expr => (rewriteCalcExpr constFields expr).map .calculate
  | .matchOn source items default => do
    let source ← rewriteMatchSource constFields source
    let items ← rewriteCases items
    let default ← rewriteDefaultCase default
    some (.matchOn source items default)
  | .lookup dictSymbol key default _ => do
    let key ← rewritePreciseEvaluator key
    let default ← rewritePreciseEvaluator default
    let compiled ← bindCompiled normalize constFields dictSymbol
    some (.lookup dictSymbol key default (some compiled))
  | .pipe source items => (rewritePipeSource source).map (fun source => .pipe source items)
  | .builtin function => some (.builtin function)
  | .map subs => (rewriteMembers subs).map .map
  | .objArray items => (rewriteItems items).map .objArray
  | .fmt op => (op.subs.mapM (rewriteRecordOperation constFields)).map
      (fun subs => .fmt ⟨op.fmtStr, subs⟩)
  | .tdc op => (rewriteRecordOperation constFields op).map .tdc
  | .collect datCrate => (rewriteArrOperation constFields datCrate).map .collect
  | .sql query => some (.sql query)
  | .accessDirect op => some (.accessDirect op)
  | .obj field => some (.obj field)
  | .objArc field => some (.objArc field)
  | .val value => some (.val value)

def rewriteNestedAccessor : NestedAccessor PipeFun → Option (NestedAccessor PipeFun)
  | .staticSymbol symbol => (constField constFields symbol).map .fieldArc
  | .direct op => (rewriteRecordOperation constFields op).map .direct
  | .collect datCrate => (rewriteArrOperation constFields datCrate).map .collect
  | .map subs => (rewriteMembers subs).map .map
  | .objArray items => (rewriteItems items).map .objArray
  | .pipe source items => (rewritePipeSource source).map (fun source => .pipe source items)
  | .field field => some (.field field)
  | .fieldArc field => some (.fieldArc field)
  | .builtin function => some (.builtin function)

def rewriteMembers : List (NestedBinding PipeFun) → Option (List (NestedBinding PipeFun))
  | [] => some []
  | ⟨target, acquirer⟩ :: rest => do
    let acquirer ← rewriteNestedAccessor acquirer
    let rest ← rewriteMembers rest
    some (⟨target, acquirer⟩ :: rest)

def rewriteItems : List (PreciseEvaluator PipeFun) → Option (List (PreciseEvaluator PipeFun))
  | [] => some []
  | item :: rest => do
    let item ← rewritePreciseEvaluator item
    let rest ← rewriteItems rest
    some (item :: rest)

def rewritePipeSource : PipeSource PipeFun → Option (PipeSource PipeFun)
  | .accessor accessor => (rewriteDirectAccessor constFields accessor).map .accessor
  | .accessDirect op => some (.accessDirect op)
  | .precise eval => (rewritePreciseEvaluator eval).map .precise

def rewriteCases : List (MatchCase PipeFun) → Option (List (MatchCase PipeFun))
  | [] => some []
  | ⟨cond, result⟩ :: rest => do
    let result ← rewriteNestedAccessor result
    let rest ← rewriteCases rest
    let cond ← rewriteMatchCondition constFields cond
    some (⟨cond, result⟩ :: rest)

/-- The result of the last arm, not its condition. -/
def rewriteDefaultCase : Option (MatchCase PipeFun) → Option (Option (MatchCase PipeFun))
  | none => some none
  | some ⟨cond, result⟩ => (rewriteNestedAccessor result).map (fun result => some ⟨cond, result⟩)
end

def rewriteItem : EvalExp PipeFun → Option (EvalExp PipeFun)
  | .single targets evalWay sync =>
    (rewritePreciseEvaluator normalize constFields evalWay).map
      (fun evalWay => .single targets evalWay sync)
  | .batch target evalWay => some (.batch target evalWay)

/-- `rewrite_static_references`. -/
def rewriteStaticReferences (items : List (EvalExp PipeFun)) : Option (List (EvalExp PipeFun)) :=
  items.mapM (rewriteItem normalize constFields)

def computeSyncFlag : EvalExp PipeFun → EvalExp PipeFun
  | .single targets evalWay _ => .single targets evalWay (supportSync evalWay)
  | item => item

end Rewrite

section Run

variable {PipeFun : Type} (env : Externals PipeFun)

/-- How a query runs, once its parameters have values. -/
abbrev RunQuery := String → List DataField → List DataField

/-- A remove marker drops the target, a `Null` is passed over, everything else is appended under
    the name of the target. -/
def emitSingleStorage (storage : FieldStorage) (target : EvaluationTarget)
    (dst : List FieldStorage) : List FieldStorage :=
  let name := target.safeName
  if storage.isRemoveMarker then dst.filter (fun item => item.asField.name ≠ name)
  else
    let needsConversion := target.dataType ≠ storage.getMeta ∧ target.dataType ≠ .auto
    if storage.asField.value.isNull then dst
    else if storage.isShared = true ∧ ¬ needsConversion then dst ++ [storage.setName name]
    else
      let named := (env.own storage).setName name
      let field := if needsConversion then env.metaConv named target else named
      if field.value.isNull then dst else dst ++ [.fromOwned field]

def CondAccessor.extractOne (accessor : CondAccessor) (target : EvaluationTarget) :
    Eval (Option DataField) :=
  match accessor with
  | .tdc op => op.extractOne env target
  | .builtin function => pure (some (env.now function (target.name.getD "_")))
  | .val value => pure (some (valueField value target))
  | .sqlFn _ _ => pure none

/-- A quoted piece from its opening quote on; two quotes stand for one. -/
def skipQuoted (quote : Char) : Nat → Text → Text
  | 0, text => text
  | _ + 1, [] => []
  | fuel + 1, c :: rest =>
    if c = quote then
      match rest with
      | d :: more => if d = quote then skipQuoted quote fuel more else rest
      | [] => []
    else skipQuoted quote fuel rest

def skipComment : Text → Text
  | [] => []
  | '*' :: '/' :: rest => rest
  | _ :: rest => skipComment rest

/-- The names behind `:` outside quotes, brackets and comments, as far as they are parameters. -/
def orderedSqlParamNames (isParam : String → Bool) : Nat → Text → List String
  | 0, _ => []
  | _ + 1, [] => []
  | fuel + 1, c :: rest =>
    if c = '\'' ∨ c = '"' ∨ c = '`' then
      orderedSqlParamNames isParam fuel (skipQuoted c rest.length rest)
    else if c = '[' then
      orderedSqlParamNames isParam fuel ((rest.dropWhile (· ≠ ']')).drop 1)
    else if c = '-' ∧ rest.head? = some '-' then
      orderedSqlParamNames isParam fuel ((rest.drop 1).dropWhile (· ≠ '\n'))
    else if c = '/' ∧ rest.head? = some '*' then
      orderedSqlParamNames isParam fuel (skipComment (rest.drop 1))
    else if c = ':' ∧ rest.head?.any isIdentChar then
      let name := String.ofList (rest.takeWhile isIdentChar)
      let others := orderedSqlParamNames isParam fuel (rest.dropWhile isIdentChar)
      if isParam name then name :: others else others
    else orderedSqlParamNames isParam fuel rest

def SqlQuery.var (query : SqlQuery) (name : String) : Option CondAccessor :=
  (query.vars.find? (fun var => var.1 = name)).map Prod.snd

def SqlQuery.paramNames (query : SqlQuery) : List String :=
  orderedSqlParamNames (fun name => (query.var name).isSome) (query.omlSql.toList.length + 1)
    query.omlSql.toList

/-- The parameters in the order of the text, each under its name. -/
def collectParams (query : SqlQuery) : List String → Eval (List DataField)
  | [] => pure []
  | name :: rest => do
    match query.var name with
    | none => panicked
    | some accessor =>
      let found ← accessor.extractOne env .autoDefault
      let param := (found.getD ⟨.auto, "", .null⟩).setName (":" ++ name)
      return param :: (← collectParams query rest)

/-- The row of a query; a query none of whose parameters has a value is not run, nor is one with
    more than five. -/
def SqlQuery.extractMore (query : SqlQuery) (runQuery : RunQuery) : Eval (List DataField) := do
  let params ← collectParams env query query.paramNames
  if (!params.isEmpty && params.all (fun param => param.value.isNull)) || 5 < params.length then
    return []
  else return runQuery query.omlSql params

def emitRow : List EvaluationTarget → List DataField → List FieldStorage → List FieldStorage
  | target :: targets, field :: fields, dst =>
    if field.value.isNull then emitRow targets fields dst
    else
      let named := match target.name with | some name => field.setName name | none => field
      emitRow targets fields (dst ++ [.fromOwned (env.metaConv named target)])
  | _, _, dst => dst

/-- `SingleEvalExp::eval_proc_async`. -/
def evalSingle (runQuery : RunQuery) (targets : List EvaluationTarget)
    (evalWay : PreciseEvaluator PipeFun) (sync : Bool) : Eval Unit :=
  match evalWay with
  | .sql query => do
    let row ← query.extractMore env runQuery
    modify (fun state => { state with dst := emitRow env targets row state.dst })
  | .staticSymbol _ => panicked
  | evalWay =>
    match targets with
    | [] => pure ()
    | target :: _ => do
      let storage ←
        if sync then extractStorageSync env evalWay target
        else extractStorageAsync env evalWay target
      match storage with
      | none => pure ()
      | some storage =>
        modify (fun state => { state with dst := emitSingleStorage env storage target state.dst })

/-- The fields of the source record that a batch takes. -/
def batchNeeds (matchIt : DataField → Bool) (state : State) (others : List FieldStorage) :
    List DataField × List DataField :=
  state.src.partition (fun field =>
    !others.any (fun item => item.getName = field.name) && matchIt field)

/-- One field through the functions of a batch, and converted to the type of the target. -/
def batchField (target : EvaluationTarget) (items : List PipeFun) (field : DataField) :
    Option DataField :=
  let field := items.foldl (fun field function => env.valueCacu function field) field
  if (FieldStorage.owned field).isRemoveMarker then some field
  else if field.value.isNull then none
  else
    let field := if target.dataType ≠ .auto ∧ field.info ≠ target.dataType
      then env.metaConv field target else field
    if field.value.isNull then none else some field

/-- Markers drop what is there under their name, the other fields are appended at the end. -/
def emitBatch (dst : List FieldStorage) (fields : List DataField) : List FieldStorage :=
  let isMarker (field : DataField) : Bool := (FieldStorage.owned field).isRemoveMarker
  dst.filter (fun item =>
    !fields.any (fun field => isMarker field && item.asField.name = field.name)) ++
    (fields.filter (fun field => !isMarker field)).map .fromOwned

/-- `BatchEvalTarget::match_it`. -/
def batchMatches (target : EvaluationTarget) (field : DataField) : Bool :=
  env.wildMatches target.safeName field.name &&
    (target.dataType == .auto || field.info == target.dataType)

/-- `BatchEvalExp::eval_proc`. -/
def evalBatch (target : EvaluationTarget) (evalWay : BatchEvaluation PipeFun) : Eval Unit :=
  fun state =>
    let matchIt := batchMatches env target
    match evalWay with
    | .get _ =>
      let (needs, src) := batchNeeds matchIt state state.dst
      some ((), ⟨src, emitBatch state.dst needs⟩)
    | .pipe _ items =>
      let others := if items.any env.isRemove then [] else state.dst
      let (needs, src) := batchNeeds matchIt state others
      some ((), ⟨src, emitBatch state.dst (needs.filterMap (batchField env target items))⟩)

def evalProc (runQuery : RunQuery) : EvalExp PipeFun → Eval Unit
  | .single targets evalWay sync => evalSingle env runQuery targets evalWay sync
  | .batch target evalWay => evalBatch env target evalWay

/-- All the items of a model in order. -/
def evalItems (runQuery : RunQuery) (items : List (EvalExp PipeFun)) : Eval Unit :=
  items.forM (evalProc env runQuery)

/-- The fields of the static block, each item run after those before it. -/
def materializeStaticItems (runQuery : RunQuery) (items : List (EvalExp PipeFun)) :
    Option (List (String × DataField)) :=
  (evalItems env runQuery items ⟨[], []⟩).map (fun result =>
    result.2.dst.foldl (fun fields field =>
      fields.filter (fun other => other.1 ≠ field.getName) ++ [(field.getName, env.own field)]) [])

variable (atoms : Atoms PipeFun) (strict : Bool) (runQuery : RunQuery) (fuel : Nat)

/-- `finalize_static_blocks`. -/
def finalizeStaticBlocks (model : ObjModel PipeFun) : Except Fail (ObjModel PipeFun) :=
  if model.staticItems.isEmpty then .ok { model with staticItems := [], staticFields := [] }
  else
    match materializeStaticItems env runQuery model.staticItems with
    | none => .error .panic
    | some constFields =>
      match rewriteStaticReferences env.normalizeLookupKey constFields model.items with
      | none => .error .cut
      | some items =>
        .ok { model with items := items, staticItems := [], staticFields := constFields }

def omlParseRaw : Parse (ObjModel PipeFun) := do
  let model ← omlConfCode atoms strict fuel
  let model ← liftExcept (finalizeStaticBlocks env runQuery model)
  return { model with items := model.items.map computeSyncFlag }

end Run

end WarpMotor.Oml
