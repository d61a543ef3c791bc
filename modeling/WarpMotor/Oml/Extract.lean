import WarpMotor.Oml.Syntax

/-!
The operations that an evaluator is made of. They work on the fields of the
source record that are left and on the target record; `none` is a panic.
Formatting, conversion, comparison, arithmetic and the clock are parameters.
Issues reported for diagnosis are not kept.
-/
namespace WarpMotor.Oml

inductive CmpOperator where
  | eq | ne | ge | le
  deriving DecidableEq, Repr

/-- What the evaluators take from elsewhere. -/
structure Externals (PipeFun : Type) where
  isEmpty : Value → Bool
  /-- The name of a shared field made owned, by its own and its current name. -/
  ownedName : String → String → String
  ownedName_self : ∀ name, ownedName name name = name
  valueCacu : PipeFun → DataField → DataField
  isRemove : PipeFun → Bool
  metaConv : DataField → EvaluationTarget → DataField
  compareDatafield : DataField → DataField → CmpOperator → Bool
  matchWithFunction : DataField → MatchFun → Bool
  typeName : DataType → String
  /-- The pattern matches the trimmed name. -/
  wildMatches : String → String → Bool
  strfmt : String → List (String × FieldStorage) → Option String
  now : BuiltinFunction → String → DataField
  normalizeLookupKey : String → String
  isFinite : UInt64 → Bool
  negate : CalcNumber → Option CalcNumber
  evalBinary : CalcOp → CalcNumber → CalcNumber → Option CalcNumber
  evalFun : CalcFun → CalcNumber → Option CalcNumber
  parseIp : String → Option (List UInt8)
  isIntranet : List UInt8 → Bool

structure State where
  src : List DataField
  dst : List FieldStorage

abbrev Eval := StateT State Option

/-- `panic!` and `unreachable!`. -/
def panicked {A : Type} : Eval A := fun _ => none

@[simp] theorem eval_pure {A : Type} (a : A) (state : State) :
    (pure a : Eval A) state = some (a, state) := rfl

@[simp] theorem eval_bind {A B : Type} (first : Eval A) (next : A → Eval B) (state : State) :
    (first >>= next) state = (first state).bind (fun r => next r.1 r.2) := rfl

@[simp] theorem eval_map {A B : Type} (f : A → B) (first : Eval A) (state : State) :
    @Functor.map Eval Monad.toApplicative.toFunctor A B f first state =
      (first state).map (fun r => (f r.1, r.2)) := by
  cases result : first state with
  | none => simp [Functor.map, StateT.map, result]
  | some found => simp [Functor.map, StateT.map, result]

@[simp] theorem eval_panicked {A : Type} (state : State) : (panicked : Eval A) state = none := rfl

section

variable {PipeFun : Type} (env : Externals PipeFun)

def Externals.own (storage : FieldStorage) : DataField := storage.intoOwned env.ownedName

def EvaluationTarget.display (target : EvaluationTarget) : String :=
  target.safeName ++ " : " ++ env.typeName target.dataType ++ " "

def findTdc (dst : List FieldStorage) (key : String) (option : Bool) : Option FieldStorage :=
  match dst.find? (fun item => item.getName = key) with
  | none => none
  | some found => if option && env.isEmpty found.asField.value then none else some found

def findTdr (src : List DataField) (key : String) (option : Bool) : Option DataField :=
  match src.find? (fun item => item.name = key) with
  | none => none
  | some found => if option && env.isEmpty found.value then none else some found

/-- The target record first, then the source record. -/
def findKey (state : State) (key : String) (option : Bool) : Option FieldStorage :=
  match findTdc env state.dst key option with
  | some found => some found
  | none => (findTdr env state.src key option).map .fromOwned

namespace FieldRead

def key (accessor : FieldRead) (target : EvaluationTarget) : String :=
  (accessor.get.or target.name).getD "_"

def extractStorage (accessor : FieldRead) (target : EvaluationTarget) (state : State) :
    Option FieldStorage :=
  match findKey env state (accessor.key target) false with
  | some found => some found
  | none => accessor.option.findSome? (fun option => findKey env state option true)

/-- A clone of the field found, under the field's own name. -/
def extractOne (accessor : FieldRead) (target : EvaluationTarget) (state : State) :
    Option DataField :=
  (accessor.extractStorage env target state).map FieldStorage.asField

def collectItem (accessor : FieldRead) (state : State) : List DataField :=
  accessor.collect.filterMap (fun pattern =>
    match state.dst.find? (fun item => env.wildMatches pattern item.getName) with
    | some found => some found.asField
    | none => state.src.find? (fun item => env.wildMatches pattern item.name))

end FieldRead

/-- Removes the first field of that name, an empty one passed over when `option` is set. -/
def findMoveTdc (key : String) (option : Bool) :
    List FieldStorage → Option DataField × List FieldStorage
  | [] => (none, [])
  | item :: rest =>
    if item.getName = key ∧ ¬ (option && env.isEmpty item.asField.value) then
      (some (env.own item), rest)
    else
      let moved := findMoveTdc key option rest
      (moved.1, item :: moved.2)

/-- Removes the first field of that name, unless it is empty and `option` is set. -/
def findMoveTdo (key : String) (option : Bool) :
    List DataField → Option DataField × List DataField
  | [] => (none, [])
  | item :: rest =>
    if item.name = key then
      if option && env.isEmpty item.value then (none, item :: rest) else (some item, rest)
    else
      let moved := findMoveTdo key option rest
      (moved.1, item :: moved.2)

namespace FieldTake

/-- Both records lose the field; that of the target record is returned. -/
def moveKey (key : String) (option : Bool) : Eval (Option DataField) := fun state =>
  let dstMoved := findMoveTdc env key option state.dst
  let srcMoved := findMoveTdo env key option state.src
  some (dstMoved.1.or srcMoved.1, ⟨srcMoved.2, dstMoved.2⟩)

def moveOptions : List String → Eval (Option DataField)
  | [] => pure none
  | option :: rest => do
    match ← moveKey env option true with
    | some found => pure (some found)
    | none => moveOptions rest

def extractOne (accessor : FieldTake) (target : EvaluationTarget) : Eval (Option DataField) := do
  match ← moveKey env (accessor.get.getD target.safeName) false with
  | some found => pure (some found)
  | none => moveOptions env accessor.option

/-- Each field once for every pattern that it matches. -/
def collectItem (accessor : FieldTake) (state : State) : List DataField :=
  let copies (name : String) (field : DataField) : List DataField :=
    (accessor.collect.filter (fun pattern => env.wildMatches pattern name)).map (fun _ => field)
  state.src.flatMap (fun item => copies item.name item) ++
    state.dst.flatMap (fun item => copies item.getName item.asField)

end FieldTake

namespace DirectAccessor

def extractOne (accessor : DirectAccessor) (target : EvaluationTarget) : Eval (Option DataField) :=
  match accessor with
  | take accessor => accessor.extractOne env target
  | read accessor => fun state => some (accessor.extractOne env target state, state)

def extractStorage (accessor : DirectAccessor) (target : EvaluationTarget) :
    Eval (Option FieldStorage) := do
  return (← accessor.extractOne env target).map .fromOwned

def extractStorageAsync (accessor : DirectAccessor) (target : EvaluationTarget) :
    Eval (Option FieldStorage) :=
  match accessor with
  | take accessor => do return (← accessor.extractOne env target).map .fromOwned
  | read accessor => fun state => some (accessor.extractStorage env target state, state)

def collectItem (accessor : DirectAccessor) (state : State) : List DataField :=
  match accessor with
  | take accessor => accessor.collectItem env state
  | read accessor => accessor.collectItem env state

end DirectAccessor

namespace GenericAccessor

def extractStorage (accessor : GenericAccessor) (target : EvaluationTarget) :
    Eval (Option FieldStorage) :=
  match accessor with
  | fieldArc content => pure (some (.fromShared content))
  | field content => pure (some (.fromOwned content))
  | builtin function => pure (some (.fromOwned (env.now function (target.name.getD "_"))))
  | staticSymbol _ => panicked

def extractStorageAsync (accessor : GenericAccessor) (target : EvaluationTarget) :
    Eval (Option FieldStorage) :=
  match accessor with
  | field content | fieldArc content => pure (some (.fromOwned content))
  | builtin function => pure (some (.fromOwned (env.now function (target.name.getD "_"))))
  | staticSymbol _ => panicked

end GenericAccessor

/-- The new name, on the field itself unless that is shared. -/
def Externals.rename (storage : FieldStorage) (name : String) : FieldStorage :=
  if storage.isShared then storage.setName name else .fromOwned ((env.own storage).setName name)

namespace RecordOperation

def extractOne (op : RecordOperation) (target : EvaluationTarget) : Eval (Option DataField) := do
  match ← op.datGet.extractOne env target with
  | some found => pure (some found)
  | none =>
    match op.defaultVal with
    | none => pure none
    | some accessor =>
      return (← accessor.extractStorage env target).map
        (fun storage => (env.own storage).setName (target.name.getD "_"))

def extractStorage (op : RecordOperation) (target : EvaluationTarget) :
    Eval (Option FieldStorage) := do
  match ← op.datGet.extractStorage env target with
  | some found => pure (some found)
  | none =>
    match op.defaultVal with
    | none => pure none
    | some accessor =>
      return (← accessor.extractStorage env target).map
        (fun storage => env.rename storage (target.name.getD "_"))

def extractOneAsync (op : RecordOperation) (target : EvaluationTarget) :
    Eval (Option DataField) := do
  match ← op.datGet.extractOne env target with
  | some found => pure (some found)
  | none =>
    match op.defaultVal with
    | none => pure none
    | some accessor =>
      return (← accessor.extractStorageAsync env target).map
        (fun storage => (env.own storage).setName (target.name.getD "_"))

def extractStorageAsync (op : RecordOperation) (target : EvaluationTarget) :
    Eval (Option FieldStorage) := do
  match ← op.datGet.extractStorageAsync env target with
  | some found => pure (some found)
  | none =>
    match op.defaultVal with
    | none => pure none
    | some accessor =>
      return (← accessor.extractStorageAsync env target).map
        (fun storage => env.rename storage (target.name.getD "_"))

end RecordOperation

/-- A target named as the accessor's field. -/
def operandTarget (accessor : DirectAccessor) (fallback : EvaluationTarget) : EvaluationTarget :=
  .new (accessor.fieldName.getD fallback.safeName) .auto

def fieldToNumber (field : DataField) : Option CalcNumber :=
  match field.value with
  | .int number => some (.digit number)
  | .float bits => if env.isFinite bits then some (.float bits) else none
  | _ => none

def evalExpr (target : EvaluationTarget) : CalcExpr → Eval (Option CalcNumber)
  | .const number => pure (some number)
  | .accessor accessor => do
    return (← accessor.extractOne env (operandTarget accessor target)).bind (fieldToNumber env)
  | .unaryNeg inner => do return (← evalExpr target inner).bind env.negate
  | .binary op lhs rhs => do
    match ← evalExpr target lhs with
    | none => pure none
    | some left => return (← evalExpr target rhs).bind (env.evalBinary op left)
  | .func function arg => do return (← evalExpr target arg).bind (env.evalFun function)

def CalcNumber.intoField (number : CalcNumber) (name : String) : DataField :=
  match number with
  | .digit number => ⟨.int, name, .int number⟩
  | .float bits => ⟨.float, name, .float bits⟩

def CalcExpr.extractOne (expr : CalcExpr) (target : EvaluationTarget) :
    Eval (Option DataField) := do
  match ← evalExpr env target expr with
  | some number => return some (number.intoField target.safeName)
  | none => return some (.fromIgnore target.safeName)

def probeIp (field : Option DataField) : Option (List UInt8) :=
  match field with
  | none => none
  | some field =>
    match field.value with
    | .ipAddr octets => some octets
    | .chars text => env.parseIp text
    | _ => none

def accessDirection (src dst : List UInt8) : String :=
  match env.isIntranet src, env.isIntranet dst with
  | true, true => "L2L"
  | true, false => "L2W"
  | false, true => "W2L"
  | false, false => "W2W"

def AccessDirectOperation.extractOne (op : AccessDirectOperation) (target : EvaluationTarget) :
    Eval (Option DataField) := do
  let src ← op.src.extractOne env (operandTarget op.src target)
  let dst ← op.dst.extractOne env (operandTarget op.dst target)
  match probeIp env src, probeIp env dst with
  | some s, some d => return some (.fromChars target.safeName (accessDirection env s d))
  | _, _ => return some (.fromIgnore target.safeName)

/-- The arguments by name, a later one in place of an earlier one of its name. -/
def insertArg (args : List (String × FieldStorage)) (storage : FieldStorage) :
    List (String × FieldStorage) :=
  args.filter (fun arg => arg.1 ≠ storage.getName) ++ [(storage.getName, storage)]

def fmtArgs : List RecordOperation → List (String × FieldStorage) →
    Eval (List (String × FieldStorage))
  | [], args => pure args
  | item :: rest, args => do
    let found ← item.extractStorage env (.new (item.datGet.fieldName.getD "_fmt_") .auto)
    match found with
    | some storage => fmtArgs rest (insertArg args storage)
    | none => fmtArgs rest args

def FmtOperation.extractOne (op : FmtOperation) (target : EvaluationTarget) :
    Eval (Option DataField) := do
  let args ← fmtArgs env op.subs []
  return some (.fromChars target.safeName ((env.strfmt op.fmtStr args).getD ""))

def collectOne (datCrate : DirectAccessor) (target : EvaluationTarget) :
    Eval (Option DataField) := fun state =>
  match datCrate.collectItem env state with
  | [] => some (none, state)
  | items => some (some (.fromArr (target.name.getD "_") items), state)

def valueField (value : Value) (target : EvaluationTarget) : DataField :=
  ⟨.auto, target.safeName, value⟩

mutual
def MatchCond.isMatch (value : DataField) : MatchCond → Bool
  | .eq field | .eqArc field => env.compareDatafield value field .eq
  | .neq field | .neqArc field => env.compareDatafield value field .ne
  | .within first last | .withinArc first last =>
    env.compareDatafield value first .ge && env.compareDatafield value last .le
  | .function call => env.matchWithFunction value call
  | .alternatives conds => anyMatch value conds
  | .eqSym _ | .neqSym _ | .withinSym _ _ => false
  | .wildcard => true

def anyMatch (value : DataField) : List MatchCond → Bool
  | [] => false
  | cond :: rest => cond.isMatch value || anyMatch value rest
end

/-- `none` is `unreachable!`. -/
def MatchCondition.isMatchSingle (value : DataField) : MatchCondition → Option Bool
  | .single cond => some (cond.isMatch env value)
  | .multi _ => none
  | .wildcard => some true

def MatchCondition.isMatchMulti (values : List DataField) : MatchCondition → Option Bool
  | .multi conds => some (conds.length = values.length &&
      (conds.zip values).all (fun pair => pair.1.isMatch env pair.2))
  | .wildcard => some true
  | .single _ => none

inductive Selected where
  | item (index : Nat)
  | default
  deriving DecidableEq, Repr

/-- The first condition that holds. -/
def selectItem (isMatch : MatchCondition → Option Bool) :
    List MatchCondition → Nat → Option Selected
  | [], _ => some .default
  | cond :: rest, index =>
    match isMatch cond with
    | none => none
    | some true => some (.item index)
    | some false => selectItem isMatch rest (index + 1)

def extractAll (target : EvaluationTarget) : List DirectAccessor → Eval (Option (List DataField))
  | [] => pure (some [])
  | accessor :: rest => do
    match ← accessor.extractOne env
        (.new (accessor.fieldName.getD (target.display env)) .auto) with
    | none => pure none
    | some value => return (← extractAll target rest).map (value :: ·)

/-- Which arm of a match is taken. -/
def MatchSource.select (source : MatchSource) (conds : List MatchCondition)
    (target : EvaluationTarget) : Eval Selected :=
  match source with
  | .single accessor => do
    match ← accessor.extractOne env
        (.new (accessor.fieldName.getD (target.display env)) .auto) with
    | none => return .default
    | some value => fun state =>
      (selectItem (MatchCondition.isMatchSingle env value) conds 0).map (fun arm => (arm, state))
  | .multi accessors => do
    match ← extractAll env target accessors with
    | none => return .default
    | some values => fun state =>
      (selectItem (MatchCondition.isMatchMulti env values) conds 0).map (fun arm => (arm, state))

def removeMember (members : List Member) (key : String) : List Member :=
  members.filter (fun member => member.key ≠ key)

/-- A member of that key is replaced. -/
def insertMember (members : List Member) (key : String) (storage : FieldStorage) : List Member :=
  removeMember members key ++ [⟨key, storage⟩]

/-- What an `object` does with the value of one member. -/
def putMember (members : List Member) (target : EvaluationTarget) :
    Option FieldStorage → List Member
  | none => members
  | some storage =>
    if storage.isRemoveMarker then removeMember members target.safeName
    else if target.dataType ≠ storage.getMeta ∧ target.dataType ≠ .auto then
      insertMember members target.safeName
        (.fromOwned (env.metaConv ((env.own storage).setName target.safeName) target))
    else insertMember members target.safeName (env.rename storage target.safeName)

/-- Elements that are missing are passed over. -/
def keepItem (item : Option DataField) (items : List DataField) : List DataField :=
  match item with
  | none => items
  | some field => if field.value.isNull || field.value.isIgnore then items else field :: items

def arrayField (target : EvaluationTarget) : List DataField → Option DataField
  | [] => none
  | items => some (.fromArr (target.name.getD "_") items)

def removeMarker (target : EvaluationTarget) : DataField := ⟨.ignore, target.safeName, .null⟩

def pipeOne (items : List PipeFun) (target : EvaluationTarget) :
    Option DataField → Option DataField
  | some field => some (items.foldl (fun field function => env.valueCacu function field) field)
  | none => if items.any env.isRemove then some (removeMarker target) else none

def pipeStorage (items : List PipeFun) (target : EvaluationTarget) :
    Option FieldStorage → Option FieldStorage
  | some storage => some (items.foldl
      (fun storage function => .fromOwned (env.valueCacu function (env.own storage))) storage)
  | none => if items.any env.isRemove then some (.fromOwned (removeMarker target)) else none

end

end WarpMotor.Oml
