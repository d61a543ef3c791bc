import WarpMotor.Oml.Field

/-!
The expressions of an object model, as the parser builds them. A name that
refers to the static block stands as a symbol until it is replaced by the
field. Pipe functions are a parameter.
-/
namespace WarpMotor.Oml

structure EvaluationTarget where
  name : Option String
  dataType : DataType
  deriving DecidableEq, Repr

namespace EvaluationTarget

def new (name : String) (dataType : DataType) : EvaluationTarget := ⟨some name, dataType⟩
def autoDefault : EvaluationTarget := ⟨none, .auto⟩

def safeName (target : EvaluationTarget) : String := target.name.getD "_"

end EvaluationTarget

inductive BuiltinFunction where
  | nowTime | nowDate | nowHour
  deriving DecidableEq, Repr

inductive GenericAccessor where
  | field (field : DataField)
  | fieldArc (field : DataField)
  | builtin (function : BuiltinFunction)
  | staticSymbol (symbol : String)

structure FieldRead where
  get : Option String
  option : List String
  collect : List String
  defaultAcq : Option GenericAccessor

structure FieldTake where
  get : Option String
  option : List String
  collect : List String
  defaultAcq : Option GenericAccessor

inductive DirectAccessor where
  | take (accessor : FieldTake)
  | read (accessor : FieldRead)

def DirectAccessor.fieldName : DirectAccessor → Option String
  | take accessor => accessor.get
  | read accessor => accessor.get

structure RecordOperation where
  datGet : DirectAccessor
  defaultVal : Option GenericAccessor

inductive CalcNumber where
  | digit (number : Int)
  | float (bits : UInt64)
  deriving DecidableEq, Repr

inductive CalcOp where
  | add | sub | mul | div | mod
  deriving DecidableEq, Repr

inductive CalcFun where
  | abs | round | floor | ceil
  deriving DecidableEq, Repr

inductive CalcExpr where
  | const (number : CalcNumber)
  | accessor (accessor : DirectAccessor)
  | unaryNeg (inner : CalcExpr)
  | binary (op : CalcOp) (lhs rhs : CalcExpr)
  | func (function : CalcFun) (arg : CalcExpr)

structure AccessDirectOperation where
  src : DirectAccessor
  dst : DirectAccessor

structure FmtOperation where
  fmtStr : String
  subs : List RecordOperation

structure MatchFun where
  name : String
  args : List String
  deriving DecidableEq, Repr

inductive MatchCond where
  | eq (field : DataField)
  | neq (field : DataField)
  | within (first last : DataField)
  | function (call : MatchFun)
  | alternatives (conds : List MatchCond)
  | eqArc (field : DataField)
  | neqArc (field : DataField)
  | withinArc (first last : DataField)
  | eqSym (symbol : String)
  | neqSym (symbol : String)
  | withinSym (first last : String)
  | wildcard

inductive MatchCondition where
  | single (cond : MatchCond)
  | multi (conds : List MatchCond)
  | wildcard

inductive MatchSource where
  | single (accessor : DirectAccessor)
  | multi (accessors : List DirectAccessor)

mutual
inductive CondAccessor where
  | tdc (op : RecordOperation)
  | builtin (function : BuiltinFunction)
  | val (value : Value)
  | sqlFn (name : String) (args : List SqlFnArg)

inductive SqlFnArg where
  | column (name : String)
  | literal (value : Value)
  | param (accessor : CondAccessor)
end

/-- The text of the query and its parameters by name. -/
structure SqlQuery where
  omlSql : String
  vars : List (String × CondAccessor)

abbrev LookupDict := List (String × DataField)

mutual
inductive PreciseEvaluator (PipeFun : Type) where
  | sql (query : SqlQuery)
  | calculate (expr : CalcExpr)
  | accessDirect (op : AccessDirectOperation)
  | matchOn (source : MatchSource) (items : List (MatchCase PipeFun))
      (default : Option (MatchCase PipeFun))
  | lookup (dictSymbol : String) (key default : PreciseEvaluator PipeFun)
      (compiled : Option LookupDict)
  | obj (field : DataField)
  | objArc (field : DataField)
  | tdc (op : RecordOperation)
  | map (subs : List (NestedBinding PipeFun))
  | objArray (items : List (PreciseEvaluator PipeFun))
  | pipe (source : PipeSource PipeFun) (items : List PipeFun)
  | builtin (function : BuiltinFunction)
  | fmt (op : FmtOperation)
  | collect (datCrate : DirectAccessor)
  | val (value : Value)
  | staticSymbol (symbol : String)

inductive NestedAccessor (PipeFun : Type) where
  | field (field : DataField)
  | fieldArc (field : DataField)
  | direct (op : RecordOperation)
  | builtin (function : BuiltinFunction)
  | collect (datCrate : DirectAccessor)
  | map (subs : List (NestedBinding PipeFun))
  | objArray (items : List (PreciseEvaluator PipeFun))
  | pipe (source : PipeSource PipeFun) (items : List PipeFun)
  | staticSymbol (symbol : String)

inductive NestedBinding (PipeFun : Type) where
  | mk (target : EvaluationTarget) (acquirer : NestedAccessor PipeFun)

inductive MatchCase (PipeFun : Type) where
  | mk (cond : MatchCondition) (result : NestedAccessor PipeFun)

inductive PipeSource (PipeFun : Type) where
  | accessor (accessor : DirectAccessor)
  | accessDirect (op : AccessDirectOperation)
  | precise (eval : PreciseEvaluator PipeFun)
end

def MatchCase.cond {PipeFun : Type} : MatchCase PipeFun → MatchCondition
  | mk cond _ => cond

def MatchCase.result {PipeFun : Type} : MatchCase PipeFun → NestedAccessor PipeFun
  | mk _ result => result

end WarpMotor.Oml
