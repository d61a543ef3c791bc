import Mathlib.Data.List.Basic

/-!
Dimensions of the statistics. A request names the rule it is about and the
record fields it is broken down by. An event is counted under a `StatDim`:
the rule, when the request is about it, and one optional text per field.
Reports carry a dimension as its printed form.
-/
namespace WarpMotor

structure DataDim where
  item : List (Option String)
  deriving DecidableEq, Repr

def DataDim.empty : DataDim := ⟨[]⟩

/-- `DataDim::from`: one text is one present value. -/
def DataDim.fromText (value : String) : DataDim := ⟨[some value]⟩

def optString : Option String → String
  | some value => value
  | none => "*"

/-- The loop of `Display for DataDim`: no separator before the first item, a comma before each
    later one. -/
def displayItems (sep : String) : List (Option String) → String
  | [] => ""
  | item :: rest => sep ++ optString item ++ displayItems "," rest

def DataDim.display (dim : DataDim) : String := displayItems "" dim.item

inductive StatTarget where
  | all
  | ignore
  | item (name : String)
  deriving DecidableEq, Repr

structure StatDim where
  target : Option String
  collect : DataDim
  deriving DecidableEq, Repr

namespace StatDim

def display (dim : StatDim) : String := optString dim.target ++ "@" ++ dim.collect.display

def makeRuleValue (reqTarget : StatTarget) (targetStr : String) : Option String :=
  match reqTarget with
  | .all => some targetStr
  | .ignore => none
  | .item name => if name = targetStr then some name else none

def makeDim (reqTarget : StatTarget) (realTarget : String) (data : DataDim) : StatDim :=
  ⟨makeRuleValue reqTarget realTarget, data⟩

end StatDim

inductive StatStage where
  | gen
  | pick
  | parse
  | sink
  deriving DecidableEq, Repr

structure StatReq where
  stage : StatStage
  name : String
  target : StatTarget
  collect : List String
  max : Nat
  deriving DecidableEq, Repr

def StatReq.matchTarget (req : StatReq) (target : String) : Bool :=
  match req.target with
  | .all => true
  | .ignore => false
  | .item name => target == name

/-- The counters of a `MeasureUnit`, unbounded here; in the source they end at `usize::MAX`. Its
    timer is the wall clock and counts nothing. -/
structure MeasureUnit where
  total : Nat
  success : Nat
  deriving DecidableEq, Repr

namespace MeasureUnit

def new : MeasureUnit := ⟨0, 0⟩
def recInN (m : MeasureUnit) (n : Nat) : MeasureUnit := { m with total := m.total + n }
def recSucN (m : MeasureUnit) (n : Nat) : MeasureUnit := { m with success := m.success + n }
def recBegEndN (m : MeasureUnit) (n : Nat) : MeasureUnit := (m.recInN n).recSucN n
def add (m other : MeasureUnit) : MeasureUnit := ⟨m.total + other.total, m.success + other.success⟩

end MeasureUnit

/-- `SliceRecord`: what a report says about one dimension. -/
structure StatRecord where
  stage : StatStage
  itemKey : String
  value : DataDim
  stat : MeasureUnit
  deriving DecidableEq, Repr

namespace StatRecord

def new (stage : StatStage) (itemKey : String) (value : DataDim) : StatRecord :=
  ⟨stage, itemKey, value, .new⟩

def canMerge (a b : StatRecord) : Bool := a.stage == b.stage && a.itemKey == b.itemKey

def merge (a b : StatRecord) : StatRecord := { a with stat := a.stat.add b.stat }

def recBeg (r : StatRecord) : StatRecord := { r with stat := r.stat.recInN 1 }
def recEnd (r : StatRecord) : StatRecord := { r with stat := r.stat.recSucN 1 }
def recBegEnd (r : StatRecord) : StatRecord := { r with stat := (r.stat.recInN 1).recSucN 1 }
def recBegN (r : StatRecord) (n : Nat) : StatRecord := { r with stat := r.stat.recInN n }
def recEndN (r : StatRecord) (n : Nat) : StatRecord := { r with stat := r.stat.recSucN n }
def recBegEndN (r : StatRecord) (n : Nat) : StatRecord := { r with stat := r.stat.recBegEndN n }

end StatRecord

end WarpMotor
