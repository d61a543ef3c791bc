import WarpMotor.Oml.Syntax

/-!
Which expressions the parser builds, position by position: arms of a match,
elements of an `array`, members of an `object`, sources of a pipe and
arguments of a lookup each allow some kinds only. With `symbols` references to
the static block may stand for themselves; they are gone when an object model
is handed out.
-/
namespace WarpMotor.Oml

variable {PipeFun : Type}

/-- A match on one value has conditions on one value, a match on several has tuples. -/
def MatchSource.Fits : MatchSource → MatchCondition → Prop
  | .single _, .single _ => True
  | .multi _, .multi _ => True
  | _, .wildcard => True
  | _, _ => False

def NestedAccessor.IsArm (symbols : Bool) : NestedAccessor PipeFun → Prop
  | .field _ | .fieldArc _ | .direct _ | .collect _ => True
  | .staticSymbol _ => symbols = true
  | _ => False

def MatchCase.IsArm (symbols : Bool) (source : MatchSource) : MatchCase PipeFun → Prop
  | mk cond result => source.Fits cond ∧ result.IsArm symbols

mutual
def PreciseEvaluator.Parsed (symbols : Bool) : PreciseEvaluator PipeFun → Prop
  | .matchOn source items default =>
    (∀ item ∈ items, item.IsArm symbols source) ∧ ∀ item ∈ default, item.IsArm symbols source
  | .lookup _ key default _ => key.IsLookupArg symbols ∧ default.IsLookupArg symbols
  | .map subs => MembersParsed symbols subs
  | .objArray items => ItemsParsed symbols items
  | .pipe source items => items ≠ [] ∧ source.Parsed symbols
  | .staticSymbol _ => symbols = true
  | _ => True

def PreciseEvaluator.IsLookupArg (symbols : Bool) : PreciseEvaluator PipeFun → Prop
  | .lookup _ key default _ => key.IsLookupArg symbols ∧ default.IsLookupArg symbols
  | .pipe source items => items ≠ [] ∧ source.Parsed symbols
  | .tdc _ | .val _ | .obj _ | .objArc _ | .builtin _ => True
  | .staticSymbol _ => symbols = true
  | _ => False

def NestedAccessor.IsMember (symbols : Bool) : NestedAccessor PipeFun → Prop
  | .map subs => MembersParsed symbols subs
  | .objArray items => ItemsParsed symbols items
  | .pipe source items => items ≠ [] ∧ source.Parsed symbols
  | .field _ | .fieldArc _ | .direct _ | .builtin _ => True
  | .staticSymbol _ => symbols = true
  | .collect _ => False

def MembersParsed (symbols : Bool) : List (NestedBinding PipeFun) → Prop
  | [] => True
  | ⟨_, acquirer⟩ :: rest => acquirer.IsMember symbols ∧ MembersParsed symbols rest

def PreciseEvaluator.IsItem (symbols : Bool) : PreciseEvaluator PipeFun → Prop
  | .map subs => MembersParsed symbols subs
  | .objArray items => ItemsParsed symbols items
  | .tdc _ | .builtin _ | .obj _ | .objArc _ => True
  | .staticSymbol _ => symbols = true
  | _ => False

def ItemsParsed (symbols : Bool) : List (PreciseEvaluator PipeFun) → Prop
  | [] => True
  | item :: rest => item.IsItem symbols ∧ ItemsParsed symbols rest

def PipeSource.Parsed (symbols : Bool) : PipeSource PipeFun → Prop
  | .accessor _ | .accessDirect _ => True
  | .precise eval => eval.IsPipeSource symbols

def PreciseEvaluator.IsPipeSource (symbols : Bool) : PreciseEvaluator PipeFun → Prop
  | .matchOn source items default =>
    (∀ item ∈ items, item.IsArm symbols source) ∧ ∀ item ∈ default, item.IsArm symbols source
  | .lookup _ key default _ => key.IsLookupArg symbols ∧ default.IsLookupArg symbols
  | .map subs => MembersParsed symbols subs
  | .objArray items => ItemsParsed symbols items
  | .pipe _ _ | .val _ => False
  | .staticSymbol _ => symbols = true
  | _ => True
end

def PreciseEvaluator.isPipe : PreciseEvaluator PipeFun → Bool
  | .pipe _ _ => true
  | _ => false

def PreciseEvaluator.isLookup : PreciseEvaluator PipeFun → Bool
  | .lookup _ _ _ _ => true
  | _ => false

theorem PreciseEvaluator.IsPipeSource.parsed {symbols : Bool} {eval : PreciseEvaluator PipeFun}
    (source : eval.IsPipeSource symbols) : eval.Parsed symbols ∧ eval.isPipe = false := by
  cases eval <;> simp_all [PreciseEvaluator.IsPipeSource, PreciseEvaluator.Parsed, isPipe]

end WarpMotor.Oml
