import WarpMotor.Lib.Scoped
import WarpMotor.Oml.Resolved

/-!
The scopes of an object model: what each parser that takes one leaves of its
body. Most of them check that nothing is left. The bodies of a tuple match, of
its conditions, of an interval and of a condition function are read as far as
they go, and what follows a built-in function in brackets is not read.
-/
namespace WarpMotor.Oml

open Parsing

/-- White space only. -/
def AllSpace (text : Text) : Prop := multispace0 text = []

section Checked
variable {R H B : Type} (parser : Parse R) (head : Parse (H × Text)) (body : H → Parse B)
  (stop : Fail) (done : H → B → Parse R)

/-- A scope that has to be read to its end. -/
def checkedScope (reads : ∀ {text rest : Text} {before : H} {code : Text},
    head text = (.ok (before, code), rest) →
      parser text = (whole code (body before) stop >>= done before) rest) : ScopeReader Char where
  Result := R
  Head := H
  Body := B
  parser := parser
  head := head
  inner before _ := do
    let b ← body before
    space
    return b
  finish before b left := if left.isEmpty then done before b else failWith stop
  reads := by
    intro text rest before code opened
    rw [reads opened, whole, bind_assoc]
    refine bind_congr_run _ rest (fun read => ?_)
    dsimp only
    split <;> rfl

variable {stop}

/-- Behind the check nothing is left. -/
theorem ends_of_check {next : Parse R} {left rest last : Text} {a : R}
    (finished : (if left.isEmpty then next else failWith stop : Parse R) rest = (.ok a, last)) :
    AllSpace left := by
  split at finished
  · next empty =>
    rw [List.isEmpty_iff.mp empty]
    rfl
  · cases finished

end Checked

section Readers
variable {PipeFun : Type} (atoms : Atoms PipeFun) (symbols : List String) (strict : Bool)
  (fuel rounds : Nat) (items : List (EvalExp PipeFun))

/-- A body that is taken as it stands. -/
def takeAll : Parse Text := fun text => (.ok text, [])

/-- A body that nothing reads. -/
def takeNone : Parse Unit := fun text => (.ok (), text)

/-- `option : [..]`, `keys : [..]` and `in : [..]`. -/
def listScope (word : Parse Unit) (parser : Parse Text) (same : parser = (do
    word
    atoms.symbol ":"
    atoms.getScope '[' ']')) : ScopeReader Char where
  Result := Text
  Head := Unit
  Body := Text
  parser := parser
  head := do
    word
    atoms.symbol ":"
    return ((), ← atoms.getScope '[' ']')
  inner _ _ := takeAll
  finish _ b _ := return b
  reads := by
    intro text rest before code opened
    obtain ⟨_, t₁, named, opened⟩ := bind_ok_run opened
    obtain ⟨_, t₂, colon, opened⟩ := bind_ok_run opened
    obtain ⟨_, t₃, scope, opened⟩ := bind_ok_run opened
    cases opened
    rw [same, bind_of_ok named, bind_of_ok colon, scope]
    rfl

/-- What the arguments of `read` and `take` amount to. -/
def foundArgs (args : List (String × String)) : Parse ReadOption :=
  match args.foldlM addArg ⟨none, [], []⟩ with
  | some found => return found
  | none => failWith .backtrack

/-- `read(..)` and `take(..)`. -/
def argsScope (word : Parse Unit) (make : ReadOption → DirectAccessor)
    (parser : Parse DirectAccessor) (same : parser = (do
      word
      return make (← readArgs atoms))) : ScopeReader Char :=
  checkedScope parser
    (do
      word
      return ((), ← atoms.getScope '(' ')'))
    (fun _ => many (omlArgs atoms)) .cut
    (fun _ args => do return make (← foundArgs args))
    (by
      intro text rest before code opened
      obtain ⟨_, t₁, named, opened⟩ := bind_ok_run opened
      obtain ⟨_, t₂, scope, opened⟩ := bind_ok_run opened
      cases opened
      rw [same, bind_of_ok named, readArgs, bind_assoc, bind_of_ok scope, bind_assoc]
      rfl)

def accessDirectScope : ScopeReader Char :=
  checkedScope (omlAccessDirect atoms)
    (do
      space
      lit "access_direct"
      return ((), ← atoms.getScope '(' ')'))
    (fun _ => do
      let src ← omlVarGet atoms
      atoms.symbol ","
      let dst ← omlVarGet atoms
      return ⟨src, dst⟩) .backtrack
    (fun _ op => return op)
    (by
      intro text rest before code opened
      obtain ⟨_, t₁, gap, opened⟩ := bind_ok_run opened
      obtain ⟨_, t₂, word, opened⟩ := bind_ok_run opened
      obtain ⟨_, t₃, scope, opened⟩ := bind_ok_run opened
      cases opened
      rw [omlAccessDirect, bind_of_ok gap, bind_of_ok word, bind_of_ok scope, bind_pure_run])

def calcScope : ScopeReader Char :=
  checkedScope (omlCalc atoms fuel)
    (do
      space
      lit "calc"
      return ((), ← atoms.getScope '(' ')'))
    (fun _ => parseExpr atoms fuel) .backtrack
    (fun _ expr => return expr)
    (by
      intro text rest before code opened
      obtain ⟨_, t₁, gap, opened⟩ := bind_ok_run opened
      obtain ⟨_, t₂, word, opened⟩ := bind_ok_run opened
      obtain ⟨_, t₃, scope, opened⟩ := bind_ok_run opened
      cases opened
      rw [omlCalc, bind_of_ok gap, bind_of_ok word, bind_of_ok scope, bind_pure_run])

/-- Brackets in a calculation. -/
def calcGroupScope : ScopeReader Char :=
  checkedScope (parsePrimary atoms (fuel + 1))
    (do
      space
      match ← peekOne with
      | some '(' => return ((), ← atoms.getScope '(' ')')
      | _ => failWith .backtrack)
    (fun _ => parseExpr atoms fuel) .backtrack
    (fun _ expr => return expr)
    (by
      intro text rest before code opened
      obtain ⟨_, t₁, gap, opened⟩ := bind_ok_run opened
      obtain ⟨found, t₂, peeked, opened⟩ := bind_ok_run opened
      rw [parsePrimary, bind_of_ok gap, bind_of_ok peeked]
      split at opened
      · obtain ⟨_, t₃, scope, opened⟩ := bind_ok_run opened
        cases opened
        change (atoms.getScope '(' ')' >>= fun code =>
          whole code (parseExpr atoms fuel) .backtrack) t₂ = _
        rw [bind_of_ok scope, bind_pure_run]
      · cases opened)

def calcFunScope : ScopeReader Char :=
  checkedScope (parseCalcFun atoms (fuel + 1))
    (do
      space
      match calcFun (← atoms.takeVarName) with
      | none => failWith .backtrack
      | some function => return (function, ← atoms.getScope '(' ')'))
    (fun _ => parseExpr atoms fuel) .backtrack
    (fun function expr => return .func function expr)
    (by
      intro text rest before code opened
      obtain ⟨_, t₁, gap, opened⟩ := bind_ok_run opened
      obtain ⟨name, t₂, named, opened⟩ := bind_ok_run opened
      rw [parseCalcFun, bind_of_ok gap, bind_of_ok named]
      cases known : calcFun name with
      | none =>
        rw [known] at opened
        cases opened
      | some function =>
        rw [known] at opened
        obtain ⟨_, t₃, scope, opened⟩ := bind_ok_run opened
        cases opened
        dsimp only
        rw [bind_of_ok scope])

def objectScope : ScopeReader Char :=
  checkedScope (omlAgaMap atoms symbols strict (fuel + 1))
    (do
      kwObject
      space
      return ((), ← atoms.getScope '\x7b' '\x7d'))
    (fun _ => many1 (omlAggregateSub atoms symbols strict fuel)) .cut
    (fun _ subs => return .map subs.flatten)
    (by
      intro text rest before code opened
      obtain ⟨_, t₁, word, opened⟩ := bind_ok_run opened
      obtain ⟨_, t₂, gap, opened⟩ := bind_ok_run opened
      obtain ⟨_, t₃, scope, opened⟩ := bind_ok_run opened
      cases opened
      rw [omlAgaMap, bind_of_ok word, bind_of_ok gap, bind_of_ok scope])

def lookupScope : ScopeReader Char :=
  checkedScope (omlAgaLookupNocase atoms symbols strict (fuel + 1))
    (do
      space
      lit "lookup_nocase"
      return ((), ← atoms.getScope '(' ')'))
    (fun _ => do
      space
      let dictSymbol ← atoms.takeVarName
      space
      atoms.symbol ","
      let key ← lookupArg atoms symbols strict fuel
      space
      atoms.symbol ","
      let default ← lookupArg atoms symbols strict fuel
      space
      let _ ← attempt (atoms.symbol ";")
      return .lookup dictSymbol key default none) .backtrack
    (fun _ eval => return eval)
    (by
      intro text rest before code opened
      obtain ⟨_, t₁, gap, opened⟩ := bind_ok_run opened
      obtain ⟨_, t₂, word, opened⟩ := bind_ok_run opened
      obtain ⟨_, t₃, scope, opened⟩ := bind_ok_run opened
      cases opened
      rw [omlAgaLookupNocase, bind_of_ok gap, bind_of_ok word, bind_of_ok scope, bind_pure_run])

def arrayScope : ScopeReader Char where
  Result := PreciseEvaluator PipeFun
  Head := Unit
  Body := List (PreciseEvaluator PipeFun)
  parser := omlAgaObjArray atoms symbols strict (fuel + 1)
  head := do
    kwArray
    space
    return ((), ← atoms.getScope '\x7b' '\x7d')
  inner _ _ := arrayItems atoms symbols strict fuel
  finish _ items _ := return .objArray items
  reads := by
    intro text rest before code opened
    obtain ⟨_, t₁, word, opened⟩ := bind_ok_run opened
    obtain ⟨_, t₂, gap, opened⟩ := bind_ok_run opened
    obtain ⟨_, t₃, scope, opened⟩ := bind_ok_run opened
    cases opened
    rw [omlAgaObjArray, bind_of_ok word, bind_of_ok gap, bind_of_ok scope]

def staticScope : ScopeReader Char where
  Result := List (EvalExp PipeFun) × List String
  Head := Unit
  Body := List (EvalExp PipeFun) × List String
  parser := parseStaticBlocks atoms strict fuel (rounds + 1) items symbols
  head := do
    space
    atoms.peekStr "static"
    kwStatic
    space
    return ((), ← atoms.getScope '\x7b' '\x7d')
  inner _ code := staticBlock atoms strict fuel (code.length + 1) items symbols
  finish _ found _ := parseStaticBlocks atoms strict fuel rounds found.1 found.2
  reads := by
    intro text rest before code opened
    obtain ⟨_, t₁, gap, opened⟩ := bind_ok_run opened
    obtain ⟨_, t₂, here, opened⟩ := bind_ok_run opened
    obtain ⟨_, t₃, word, opened⟩ := bind_ok_run opened
    obtain ⟨_, t₄, gap', opened⟩ := bind_ok_run opened
    obtain ⟨_, t₅, scope, opened⟩ := bind_ok_run opened
    cases opened
    rw [parseStaticBlocks, bind_of_ok gap, bind_of_ok (attempt_of_ok here)]
    dsimp only
    rw [bind_of_ok word, bind_of_ok gap', bind_of_ok scope]

def tupleScope : ScopeReader Char where
  Result := MatchSource
  Head := Unit
  Body := List DirectAccessor
  parser := omlCrateTuple atoms
  head := do
    space
    return ((), ← atoms.getScope '(' ')')
  inner _ code := do
    let first ← omlVarGet atoms
    return first :: (← moreSources atoms (code.length + 1))
  finish _ sources _ := return .multi sources
  reads := by
    intro text rest before code opened
    obtain ⟨_, t₁, gap, opened⟩ := bind_ok_run opened
    obtain ⟨_, t₂, scope, opened⟩ := bind_ok_run opened
    cases opened
    rw [omlCrateTuple, bind_of_ok gap, bind_of_ok scope]

def conditionsScope : ScopeReader Char where
  Result := MatchCondition
  Head := Unit
  Body := List MatchCond
  parser := matchCondMulti atoms symbols
  head := do
    space
    return ((), ← atoms.getScope '(' ')')
  inner _ code := do
    let first ← matchCond1 atoms symbols
    return first :: (← moreConds atoms symbols (code.length + 1))
  finish _ conds _ := return .multi conds
  reads := by
    intro text rest before code opened
    obtain ⟨_, t₁, gap, opened⟩ := bind_ok_run opened
    obtain ⟨_, t₂, scope, opened⟩ := bind_ok_run opened
    cases opened
    rw [matchCondMulti, bind_of_ok gap, bind_of_ok scope]

/-- The bounds of `in (..)`: two references if there are, else two values. -/
def intervalBody : Parse MatchCond := do
  match ← symbolBounds atoms symbols with
  | some (first, last) => return .withinSym first last
  | none =>
    let first ← omlValue atoms
    atoms.symbol ","
    let last ← omlValue atoms
    return .within first last

def intervalScope : ScopeReader Char where
  Result := MatchCond
  Head := Unit
  Body := MatchCond
  parser := condIn atoms symbols
  head := do
    space
    kwIn
    return ((), ← atoms.getScope '(' ')')
  inner _ _ := intervalBody atoms symbols
  finish _ cond _ := return cond
  reads := by
    intro text rest before code opened
    obtain ⟨_, t₁, gap, opened⟩ := bind_ok_run opened
    obtain ⟨_, t₂, word, opened⟩ := bind_ok_run opened
    obtain ⟨_, t₃, scope, opened⟩ := bind_ok_run opened
    cases opened
    rw [condIn, bind_of_ok gap, bind_of_ok word, bind_of_ok scope]
    rfl

/-- Up to the arguments of a condition function: its name, and its arguments without the space
    around them. -/
def condFunHead : Parse (Text × Text) := do
  space
  match ← peekOne with
  | none => failWith .backtrack
  | some first =>
    if !first.isAlpha then failWith .backtrack
    else
      let name ← takeWhile1 isIdentChar
      if !knownMatchFunctions.contains (String.ofList name) then failWith .backtrack
      else
        space
        if (← peekOne) ≠ some '(' then failWith .backtrack
        else return (name, trimText (← atoms.getScope '(' ')'))

def condFunScope : ScopeReader Char where
  Result := MatchCond
  Head := Text
  Body := List String
  parser := condFun atoms
  head := condFunHead atoms
  inner _ code := if code.isEmpty then pure [] else matchFunArgs atoms (code.length + 1)
  finish name args _ := return .function ⟨String.ofList name, args⟩
  reads := by
    intro text rest before code opened
    obtain ⟨_, t₁, gap, opened⟩ := bind_ok_run opened
    obtain ⟨found, t₂, peeked, opened⟩ := bind_ok_run opened
    rw [condFun, bind_of_ok gap, bind_of_ok peeked]
    cases found with
    | none => cases opened
    | some first =>
      dsimp only at opened ⊢
      split at opened
      · cases opened
      · next letter =>
        rw [if_neg letter]
        obtain ⟨name, t₃, named, opened⟩ := bind_ok_run opened
        rw [bind_of_ok named]
        split at opened
        · cases opened
        · next known =>
          rw [if_neg known]
          obtain ⟨_, t₄, gap', opened⟩ := bind_ok_run opened
          obtain ⟨next, t₅, peeked', opened⟩ := bind_ok_run opened
          rw [bind_of_ok gap', bind_of_ok peeked']
          split at opened
          · cases opened
          · next bracket =>
            rw [if_neg bracket]
            obtain ⟨_, t₆, scope, opened⟩ := bind_ok_run opened
            cases opened
            rw [bind_of_ok scope]
            split <;> rfl

/-- `Now::time(..)` and its siblings. -/
def builtinScope : ScopeReader Char where
  Result := BuiltinFunction
  Head := BuiltinFunction
  Body := Unit
  parser := omlFunItem atoms
  head := do
    space
    let function ← alt [
      (do lit "Now::date"; return .nowDate),
      (do lit "Now::hour"; return .nowHour),
      (do lit "Now::time"; return .nowTime)]
    return (function, ← atoms.getScope '(' ')')
  inner _ _ := takeNone
  finish function _ _ := return function
  reads := by
    intro text rest before code opened
    obtain ⟨_, t₁, gap, opened⟩ := bind_ok_run opened
    obtain ⟨function, t₂, named, opened⟩ := bind_ok_run opened
    obtain ⟨_, t₃, scope, opened⟩ := bind_ok_run opened
    cases opened
    rw [omlFunItem, bind_of_ok gap, bind_of_ok named, bind_of_ok (attempt_of_ok scope)]
    rfl

/-- The text that `fmt` fills in. -/
def formatScope : ScopeReader Char where
  Result := FmtOperation
  Head := Unit
  Body := Text
  parser := omlFmtItem atoms
  head := do
    space
    kwFmt
    space
    lit "("
    space
    return ((), ← atoms.getScope '"' '"')
  inner _ _ := takeAll
  finish _ fmtStr _ := do
    let args ← many1 (omlArgItem atoms)
    space
    lit ")"
    space
    let _ ← attempt (atoms.getScope '(' ')')
    return ⟨String.ofList fmtStr, args⟩
  reads := by
    intro text rest before code opened
    obtain ⟨_, t₁, gap, opened⟩ := bind_ok_run opened
    obtain ⟨_, t₂, word, opened⟩ := bind_ok_run opened
    obtain ⟨_, t₃, gap', opened⟩ := bind_ok_run opened
    obtain ⟨_, t₄, bracket, opened⟩ := bind_ok_run opened
    obtain ⟨_, t₅, gap'', opened⟩ := bind_ok_run opened
    obtain ⟨_, t₆, scope, opened⟩ := bind_ok_run opened
    cases opened
    rw [omlFmtItem, bind_of_ok gap, bind_of_ok word, bind_of_ok gap', bind_of_ok bracket,
      bind_of_ok gap'', bind_of_ok scope]
    rfl

/-- Brackets behind `fmt(..)`. -/
def formatCallScope : ScopeReader Char where
  Result := FmtOperation
  Head := FmtOperation
  Body := Unit
  parser := omlFmtItem atoms
  head := do
    space
    kwFmt
    space
    lit "("
    space
    let fmtStr ← atoms.getScope '"' '"'
    let args ← many1 (omlArgItem atoms)
    space
    lit ")"
    space
    return (⟨String.ofList fmtStr, args⟩, ← atoms.getScope '(' ')')
  inner _ _ := takeNone
  finish op _ _ := return op
  reads := by
    intro text rest before code opened
    obtain ⟨_, t₁, gap, opened⟩ := bind_ok_run opened
    obtain ⟨_, t₂, word, opened⟩ := bind_ok_run opened
    obtain ⟨_, t₃, gap', opened⟩ := bind_ok_run opened
    obtain ⟨_, t₄, bracket, opened⟩ := bind_ok_run opened
    obtain ⟨_, t₅, gap'', opened⟩ := bind_ok_run opened
    obtain ⟨fmtStr, t₆, quoted, opened⟩ := bind_ok_run opened
    obtain ⟨args, t₇, listed, opened⟩ := bind_ok_run opened
    obtain ⟨_, t₈, gap₃, opened⟩ := bind_ok_run opened
    obtain ⟨_, t₉, closed, opened⟩ := bind_ok_run opened
    obtain ⟨_, t₁₀, gap₄, opened⟩ := bind_ok_run opened
    obtain ⟨_, t₁₁, scope, opened⟩ := bind_ok_run opened
    cases opened
    rw [omlFmtItem, bind_of_ok gap, bind_of_ok word, bind_of_ok gap', bind_of_ok bracket,
      bind_of_ok gap'', bind_of_ok quoted, bind_of_ok listed, bind_of_ok gap₃, bind_of_ok closed,
      bind_of_ok gap₄, bind_of_ok (attempt_of_ok scope)]
    rfl

end Readers

inductive ScopeKind where
  | option | keys | read | take | accessDirect
  | calculation | calcGroup | calcFun
  | object | array | lookup | static
  | tuple | conditions | interval | condFun
  | builtin | format | formatCall
  deriving DecidableEq, Repr

section Kinds
variable {PipeFun : Type} (atoms : Atoms PipeFun) (symbols : List String) (strict : Bool)
  (fuel rounds : Nat) (items : List (EvalExp PipeFun))

def ScopeKind.reader : ScopeKind → ScopeReader Char
  | option => listScope atoms kwOption (omlArgsOption atoms) rfl
  | keys => listScope atoms (alt [kwIn, kwKeys]) (omlArgsIn atoms) rfl
  | read => argsScope atoms kwRead (fun found => .read ⟨found.get, found.option, found.collect, none⟩)
      (omlRead atoms) rfl
  | take => argsScope atoms kwTake (fun found => .take ⟨found.get, found.option, found.collect, none⟩)
      (omlTake atoms) rfl
  | accessDirect => accessDirectScope atoms
  | calculation => calcScope atoms fuel
  | calcGroup => calcGroupScope atoms fuel
  | calcFun => calcFunScope atoms fuel
  | object => objectScope atoms symbols strict fuel
  | array => arrayScope atoms symbols strict fuel
  | lookup => lookupScope atoms symbols strict fuel
  | static => staticScope atoms symbols strict fuel rounds items
  | tuple => tupleScope atoms
  | conditions => conditionsScope atoms symbols
  | interval => intervalScope atoms symbols
  | condFun => condFunScope atoms
  | builtin => builtinScope atoms
  | format => formatScope atoms
  | formatCall => formatCallScope atoms

def comma : Parse Unit := atoms.symbol ","

/-- A reference to the static block. -/
def symbolRef : Parse String := do
  match ← trySymbol atoms symbols with
  | some symbol => return symbol
  | none => failWith .backtrack

/-- An argument of a condition function, with the space behind it. -/
def condFunArg : Parse String := do
  let arg ← matchFunArg atoms
  space
  return arg

/-- Two of a kind with a comma between them. -/
def PairOf {A : Type} (item : Parse A) (text left : Text) : Prop :=
  ∃ first mid next last, item text = (.ok first, mid) ∧ comma atoms mid = (.ok (), next) ∧
    item next = (.ok last, left)

/-- Items with a comma between them, and nothing else. -/
def ListOf {A : Type} (item : Parse A) (text : Text) : Prop :=
  ∃ as left, Listed (comma atoms) item text as left ∧ AllSpace left

/-- What a body has to be where nothing checks its end: a list of sources, of conditions or of
    arguments, two references or two values, or nothing. -/
def ScopeKind.Bare (code : Text) : ScopeKind → Prop
  | tuple => ListOf atoms (omlVarGet atoms) code
  | conditions => ListOf atoms (matchCond1 atoms symbols) code
  | interval =>
    (∃ left, PairOf atoms (symbolRef atoms symbols) code left ∧ AllSpace left) ∨
      (¬ ∃ left, PairOf atoms (symbolRef atoms symbols) code left) ∧
        ∃ left, PairOf atoms (omlValue atoms) code left ∧ AllSpace left
  | condFun => code = [] ∨ ListOf atoms (condFunArg atoms) code
  | builtin => AllSpace code
  | formatCall => AllSpace code
  | _ => True

variable {atoms symbols}

theorem PairOf.unique {A : Type} {item : Parse A} {text left left' : Text}
    (one : PairOf atoms item text left) (other : PairOf atoms item text left') : left = left' := by
  obtain ⟨first, mid, next, last, read, go, ends⟩ := one
  obtain ⟨first', mid', next', last', read', go', ends'⟩ := other
  cases read.symm.trans read'
  cases go.symm.trans go'
  cases ends.symm.trans ends'
  rfl

theorem listOf_iff {A : Type} {item : Parse A} {text left : Text} {as : List A}
    (listed : Listed (comma atoms) item text as left) :
    AllSpace left ↔ ListOf atoms item text := by
  constructor
  · intro none
    exact ⟨as, left, listed, none⟩
  · rintro ⟨as', left', listed', none⟩
    rw [(listed.unique listed').2]
    exact none

theorem moreSources_eq (rounds : Nat) :
    moreSources atoms rounds = moreItems (comma atoms) (omlVarGet atoms) rounds := by
  induction rounds with
  | zero => rfl
  | succ rounds ih =>
    rw [moreSources, moreItems, ih]
    rfl

theorem moreConds_eq (rounds : Nat) :
    moreConds atoms symbols rounds = moreItems (comma atoms) (matchCond1 atoms symbols) rounds := by
  induction rounds with
  | zero => rfl
  | succ rounds ih =>
    rw [moreConds, moreItems, ih]
    rfl

theorem sources_listed {code left : Text} {sources : List DirectAccessor}
    (leaves : (tupleScope atoms).Leaves () code sources left) :
    Listed (comma atoms) (omlVarGet atoms) code sources left := by
  obtain ⟨first, mid, read, result⟩ := bind_ok_run leaves
  obtain ⟨others, last, more, done⟩ := bind_ok_run result
  cases done
  rw [moreSources_eq] at more
  exact moreItems_listed read more

theorem conds_listed {code left : Text} {conds : List MatchCond}
    (leaves : (conditionsScope atoms symbols).Leaves () code conds left) :
    Listed (comma atoms) (matchCond1 atoms symbols) code conds left := by
  obtain ⟨first, mid, read, result⟩ := bind_ok_run leaves
  obtain ⟨others, last, more, done⟩ := bind_ok_run result
  cases done
  rw [moreConds_eq] at more
  exact moreItems_listed read more

theorem args_listed {rounds : Nat} {text left : Text} {args : List String}
    (read : matchFunArgs atoms rounds text = (.ok args, left)) :
    Listed (comma atoms) (condFunArg atoms) text args left := by
  induction rounds generalizing text args with
  | zero => cases read
  | succ rounds ih =>
    rw [matchFunArgs] at read
    obtain ⟨arg, mid, one, read⟩ := bind_ok_run read
    obtain ⟨_, next, gap, read⟩ := bind_ok_run read
    obtain ⟨found, after, tried, read⟩ := bind_ok_run read
    have item : condFunArg atoms text = (.ok arg, next) := by
      rw [condFunArg, bind_of_ok one, bind_of_ok gap]
      rfl
    rcases attempt_cases tried with ⟨u, rfl, go⟩ | ⟨rfl, e, stop⟩
    · obtain ⟨others, last, more, done⟩ := bind_ok_run read
      cases done
      exact .more item go (ih more)
    · cases read
      exact .last item stop

/-- What an accepted try has seen. -/
theorem tryNext_cases {A : Type} {p : Parse A} {text rest : Text} {found : Option A}
    (result : tryNext p text = (.ok found, rest)) :
    (∃ a, found = some a ∧ p text = (.ok a, rest)) ∨
      (found = none ∧ rest = text ∧ ∃ e last, p text = (.error e, last)) := by
  obtain ⟨here, same, copied, result⟩ := bind_ok_run result
  cases copied
  obtain ⟨seen, after, tried, result⟩ := bind_ok_run result
  rcases attempt_cases tried with ⟨a, rfl, read⟩ | ⟨rfl, e, stop⟩
  · cases result
    exact .inl ⟨a, rfl, read⟩
  · cases result
    exact .inr ⟨rfl, rfl, e, after, stop⟩

theorem symbolRef_ok {text rest : Text} {symbol : String} :
    symbolRef atoms symbols text = (.ok symbol, rest) ↔
      trySymbol atoms symbols text = (.ok (some symbol), rest) := by
  constructor
  · intro read
    obtain ⟨found, mid, tried, result⟩ := bind_ok_run read
    cases found with
    | none => cases result
    | some symbol =>
      cases result
      exact tried
  · intro tried
    rw [symbolRef, bind_of_ok tried]
    rfl

/-- The bounds are two references where two references stand. -/
theorem symbolBounds_cases {code left : Text} {found : Option (String × String)}
    (bounds : symbolBounds atoms symbols code = (.ok found, left)) :
    (∃ names, found = some names ∧ PairOf atoms (symbolRef atoms symbols) code left) ∨
      (found = none ∧ left = code ∧ ¬ ∃ left, PairOf atoms (symbolRef atoms symbols) code left) := by
  rcases tryNext_cases bounds with ⟨names, rfl, read⟩ | ⟨rfl, rfl, e, last, stop⟩
  · obtain ⟨first, mid, tried, read⟩ := bind_ok_run read
    cases first with
    | none => cases read
    | some first =>
      obtain ⟨_, next, go, read⟩ := bind_ok_run read
      obtain ⟨second, after, tried', read⟩ := bind_ok_run read
      cases second with
      | none => cases read
      | some second =>
        cases read
        exact .inl ⟨_, rfl, first, mid, next, second, symbolRef_ok.mpr tried, go,
          symbolRef_ok.mpr tried'⟩
  · refine .inr ⟨rfl, rfl, ?_⟩
    rintro ⟨after, first, mid, next, second, one, go, two⟩
    rw [bind_of_ok (symbolRef_ok.mp one)] at stop
    have comma_read : atoms.symbol "," mid = (.ok (), next) := go
    dsimp only at stop
    rw [bind_of_ok comma_read, bind_of_ok (symbolRef_ok.mp two)] at stop
    cases stop

theorem interval_exact {code left : Text} {cond : MatchCond}
    (leaves : (intervalScope atoms symbols).Leaves () code cond left) :
    AllSpace left ↔ ScopeKind.interval.Bare atoms symbols code := by
  obtain ⟨found, mid, bounds, read⟩ := bind_ok_run leaves
  rcases symbolBounds_cases bounds with ⟨names, rfl, pair⟩ | ⟨rfl, same, none⟩
  · cases read
    constructor
    · intro nothing
      exact .inl ⟨_, pair, nothing⟩
    · rintro (⟨left', pair', nothing⟩ | ⟨none, -⟩)
      · rw [pair.unique pair']
        exact nothing
      · exact absurd ⟨_, pair⟩ none
  · rw [same] at read
    obtain ⟨first, mid, one, read⟩ := bind_ok_run read
    obtain ⟨_, next, go, read⟩ := bind_ok_run read
    obtain ⟨second, last, two, read⟩ := bind_ok_run read
    cases read
    have pair : PairOf atoms (omlValue atoms) code left := ⟨first, mid, next, second, one, go, two⟩
    constructor
    · intro nothing
      exact .inr ⟨none, left, pair, nothing⟩
    · rintro (⟨left', pair', -⟩ | ⟨-, left', pair', nothing⟩)
      · exact absurd ⟨left', pair'⟩ none
      · rw [pair.unique pair']
        exact nothing

theorem condFun_exact {name code left : Text} {args : List String}
    (leaves : (condFunScope atoms).Leaves name code args left) :
    AllSpace left ↔ ScopeKind.condFun.Bare atoms symbols code := by
  have read : (if code.isEmpty then pure [] else matchFunArgs atoms (code.length + 1) :
      Parse (List String)) code = (.ok args, left) := leaves
  split at read
  · next empty =>
    cases read
    have none : code = [] := List.isEmpty_iff.mp empty
    exact ⟨fun _ => .inl none, fun _ => by rw [none]; rfl⟩
  · next some =>
    have listed := args_listed read
    constructor
    · intro nothing
      exact .inr ((listOf_iff listed).mp nothing)
    · rintro (rfl | list)
      · exact absurd rfl some
      · exact (listOf_iff listed).mpr list

theorem arrayItems_ends (strict : Bool) {fuel : Nat} {text left : Text}
    {found : List (PreciseEvaluator PipeFun)}
    (read : arrayItems atoms symbols strict fuel text = (.ok found, left)) : left = [] := by
  induction fuel generalizing text found with
  | zero =>
    rw [arrayItems] at read
    cases read
  | succ fuel ih =>
    rw [arrayItems] at read
    obtain ⟨_, mid, gap, read⟩ := bind_ok_run read
    obtain ⟨empty, same, asked, read⟩ := bind_ok_run read
    cases asked
    split at read
    · next empty =>
      cases read
      exact List.isEmpty_iff.mp empty
    · obtain ⟨item, next, one, read⟩ := bind_ok_run read
      obtain ⟨others, last, more, done⟩ := bind_ok_run read
      cases done
      exact ih more

theorem staticBlock_ends (strict : Bool) {fuel rounds : Nat} {items found : List (EvalExp PipeFun)}
    {symbols names : List String} {text left : Text}
    (read : staticBlock atoms strict fuel rounds items symbols text = (.ok (found, names), left)) :
    left = [] := by
  induction rounds generalizing text items symbols with
  | zero => cases read
  | succ rounds ih =>
    rw [staticBlock] at read
    obtain ⟨_, mid, gap, read⟩ := bind_ok_run read
    obtain ⟨empty, same, asked, read⟩ := bind_ok_run read
    cases asked
    split at read
    · next empty =>
      cases read
      exact List.isEmpty_iff.mp empty
    · obtain ⟨exp, next, one, read⟩ := bind_ok_run read
      cases target : staticTarget exp with
      | none =>
        rw [target] at read
        cases read
      | some name =>
        rw [target] at read
        dsimp only at read
        split at read
        · cases read
        · exact ih read

variable (atoms symbols)

/-- A scope is consumed if its end is checked or its body is of the form that is read in full. -/
theorem scope_consumed_iff (kind : ScopeKind) (text : Text) :
    (kind.reader atoms symbols strict fuel rounds items).Consumes AllSpace text ↔
      ∀ before code, (kind.reader atoms symbols strict fuel rounds items).Accepts text before code →
        kind.Bare atoms symbols code := by
  have always (total : (kind.reader atoms symbols strict fuel rounds items).Consumes AllSpace text)
      (free : ∀ code, kind.Bare atoms symbols code) :
      (kind.reader atoms symbols strict fuel rounds items).Consumes AllSpace text ↔
        ∀ before code,
          (kind.reader atoms symbols strict fuel rounds items).Accepts text before code →
            kind.Bare atoms symbols code :=
    ⟨fun _ _ code _ => free code, fun _ => total⟩
  cases kind with
  | tuple => exact ScopeReader.consumes_iff (fun _ _ _ _ leaves => listOf_iff (sources_listed leaves)) text
  | conditions => exact ScopeReader.consumes_iff (fun _ _ _ _ leaves => listOf_iff (conds_listed leaves)) text
  | interval => exact ScopeReader.consumes_iff (fun _ _ _ _ leaves => interval_exact leaves) text
  | condFun => exact ScopeReader.consumes_iff (fun _ _ _ _ leaves => condFun_exact leaves) text
  | builtin =>
    refine ScopeReader.consumes_iff (fun _ _ _ _ leaves => ?_) text
    cases leaves
    exact Iff.rfl
  | formatCall =>
    refine ScopeReader.consumes_iff (fun _ _ _ _ leaves => ?_) text
    cases leaves
    exact Iff.rfl
  | array =>
    refine always (ScopeReader.consumes_of_inner (fun _ _ _ _ leaves => ?_) text) (fun _ => trivial)
    rw [arrayItems_ends strict leaves]
    rfl
  | static =>
    refine always (ScopeReader.consumes_of_inner (fun _ _ _ _ leaves => ?_) text) (fun _ => trivial)
    rw [staticBlock_ends strict leaves]
    rfl
  | option | keys | format =>
    refine always (ScopeReader.consumes_of_inner (fun _ _ _ _ leaves => ?_) text) (fun _ => trivial)
    cases leaves
    rfl
  | read | take | accessDirect | calculation | calcGroup | calcFun | object | lookup =>
    refine always (ScopeReader.consumes_of_finish ?_ text) (fun _ => trivial)
    exact fun _ _ _ _ _ _ finished => ends_of_check finished

/-- A match on a tuple up to its first arm, with the body of the tuple. -/
def tupleMatchHead : Parse Text := do
  space
  kwGwMatch
  space
  space
  atoms.peekStr "("
  space
  let code ← atoms.getScope '(' ')'
  space
  atoms.symbol "\x7b"
  return code

/-- The body of the conditions of an arm. -/
def armHead : Parse Text := do
  space
  space
  atoms.getScope '(' ')'

/-- Every arm of an accepted match on a tuple has a condition for each source. -/
def CountsFit (text : Text) : Prop :=
  ∀ sources arms default rest,
    omlAgaMatch atoms symbols fuel text = (.ok (.matchOn (.multi sources) arms default), rest) →
      ∀ arm ∈ arms ++ default.toList, ∀ conds, arm.cond = .multi conds → conds.length = sources.length

/-- The two bodies list as many sources as conditions. -/
def SameCount (tuple code : Text) : Prop :=
  ∃ sources left conds left', Listed (comma atoms) (omlVarGet atoms) tuple sources left ∧
    Listed (comma atoms) (matchCond1 atoms symbols) code conds left' ∧
      conds.length = sources.length

/-- At each place of an accepted text where an arm starts, its body lists as many conditions as the
    body of the tuple lists sources. -/
def ArmsListed (text : Text) : Prop :=
  ∀ tuple first, tupleMatchHead atoms text = (.ok tuple, first) →
    (∃ eval rest, omlAgaMatch atoms symbols fuel text = (.ok eval, rest)) →
      ∀ start, Starts (matchCondMultiItem atoms symbols fuel) first start →
        (∃ arm next, matchCondMultiItem atoms symbols fuel start = (.ok arm, next)) →
          ∀ code mid, armHead atoms start = (.ok code, mid) → SameCount atoms symbols tuple code

variable {atoms symbols fuel}

theorem arm_read {start next : Text} {arm : MatchCase PipeFun}
    (read : matchCondMultiItem atoms symbols fuel start = (.ok arm, next)) :
    ∃ code mid conds left, armHead atoms start = (.ok code, mid) ∧
      Listed (comma atoms) (matchCond1 atoms symbols) code conds left ∧ arm.cond = .multi conds := by
  obtain ⟨_, t₁, gap, read⟩ := bind_ok_run read
  obtain ⟨cond, t₂, one, read⟩ := bind_ok_run read
  obtain ⟨result, t₃, target, read⟩ := bind_ok_run read
  cases read
  obtain ⟨_, t₄, gap', one⟩ := bind_ok_run one
  obtain ⟨code, t₅, scope, one⟩ := bind_ok_run one
  obtain ⟨found, t₆, inner, one⟩ := bind_ok_run one
  cases one
  have opened : armHead atoms start = (.ok code, t₅) := by
    rw [armHead, bind_of_ok gap, bind_of_ok gap', scope]
  exact ⟨code, t₅, found.1, found.2, opened, conds_listed (onText_ok inner).1, rfl⟩

theorem wildcard_read {start next : Text} {arm : MatchCase PipeFun}
    (read : matchCondDefaultItem atoms symbols fuel start = (.ok arm, next)) :
    arm.cond = .wildcard := by
  obtain ⟨_, t₁, gap, read⟩ := bind_ok_run read
  obtain ⟨cond, t₂, one, read⟩ := bind_ok_run read
  obtain ⟨result, t₃, target, read⟩ := bind_ok_run read
  cases read
  obtain ⟨_, t₄, gap', one⟩ := bind_ok_run one
  obtain ⟨_, t₅, under, one⟩ := bind_ok_run one
  cases one
  rfl

theorem opt_ok {A : Type} {p : Parse A} {text rest : Text} {found : Option A}
    (result : opt p text = (.ok found, rest)) : ∀ a ∈ found, p text = (.ok a, rest) := by
  unfold opt at result
  rintro a ⟨⟩
  split at result
  · next ran =>
    cases result
    exact ran
  · cases result
  · cases result

/-- What an accepted match on a tuple has read. -/
theorem tuple_match_read {text rest : Text} {sources : List DirectAccessor}
    {arms : List (MatchCase PipeFun)} {default : Option (MatchCase PipeFun)}
    (read : omlAgaMatch atoms symbols fuel text =
      (.ok (.matchOn (.multi sources) arms default), rest)) :
    ∃ tuple first left last, tupleMatchHead atoms text = (.ok tuple, first) ∧
      Listed (comma atoms) (omlVarGet atoms) tuple sources left ∧
      many1 (matchCondMultiItem atoms symbols fuel) first = (.ok arms, last) ∧
      ∀ arm ∈ default, arm.cond = .wildcard := by
  obtain ⟨_, t₁, gap, read⟩ := bind_ok_run read
  obtain ⟨_, t₂, word, read⟩ := bind_ok_run read
  obtain ⟨_, t₃, gap', read⟩ := bind_ok_run read
  obtain ⟨source, t₄, sourced, read⟩ := bind_ok_run read
  have multi : ∃ t₅ found, source = .multi sources ∧
      omlMatchMultiBody atoms symbols fuel t₄ = (.ok found, t₅) ∧ found = (arms, default) := by
    cases source with
    | single accessor =>
      obtain ⟨found, t₅, body, read⟩ := bind_ok_run read
      cases read
    | multi accessors =>
      obtain ⟨found, t₅, body, read⟩ := bind_ok_run read
      cases read
      exact ⟨_, found, rfl, body, rfl⟩
  obtain ⟨t₅, found, rfl, body, rfl⟩ := multi
  obtain ⟨_, t₆, gap₂, sourced⟩ := bind_ok_run sourced
  obtain ⟨peeked, t₇, tried, sourced⟩ := bind_ok_run sourced
  rcases attempt_cases tried with ⟨u, rfl, here⟩ | ⟨rfl, e, stop⟩
  · obtain ⟨_, t₈, gap₃, sourced⟩ := bind_ok_run sourced
    obtain ⟨code, t₉, scope, sourced⟩ := bind_ok_run sourced
    obtain ⟨listed, t₁₀, inner, sourced⟩ := bind_ok_run sourced
    cases sourced
    obtain ⟨ran, rfl⟩ := onText_ok inner
    obtain ⟨_, t₁₁, gap₄, body⟩ := bind_ok_run body
    obtain ⟨_, t₁₂, brace, body⟩ := bind_ok_run body
    obtain ⟨arms, t₁₃, many, body⟩ := bind_ok_run body
    obtain ⟨default, t₁₄, optional, body⟩ := bind_ok_run body
    obtain ⟨_, t₁₅, closed, body⟩ := bind_ok_run body
    cases body
    have opened : tupleMatchHead atoms text = (.ok code, t₁₂) := by
      rw [tupleMatchHead, bind_of_ok gap, bind_of_ok word, bind_of_ok gap', bind_of_ok gap₂,
        bind_of_ok here, bind_of_ok gap₃, bind_of_ok scope, bind_of_ok gap₄, bind_of_ok brace]
      rfl
    exact ⟨code, t₁₂, listed.2, t₁₃, opened, sources_listed ran, many,
      fun arm member => wildcard_read (opt_ok optional arm member)⟩
  · obtain ⟨accessor, t₈, single, sourced⟩ := bind_ok_run sourced
    cases sourced

/-- A match that opens with a tuple is a match on several sources. -/
theorem tuple_match_multi {text tuple first rest : Text} {eval : PreciseEvaluator PipeFun}
    (opened : tupleMatchHead atoms text = (.ok tuple, first))
    (read : omlAgaMatch atoms symbols fuel text = (.ok eval, rest)) :
    ∃ sources arms default, eval = .matchOn (.multi sources) arms default := by
  obtain ⟨_, t₁, gap, opened⟩ := bind_ok_run opened
  obtain ⟨_, t₂, word, opened⟩ := bind_ok_run opened
  obtain ⟨_, t₃, gap', opened⟩ := bind_ok_run opened
  obtain ⟨_, t₄, gap₂, opened⟩ := bind_ok_run opened
  obtain ⟨_, t₅, here, opened⟩ := bind_ok_run opened
  rw [omlAgaMatch, bind_of_ok gap, bind_of_ok word, bind_of_ok gap'] at read
  obtain ⟨source, t₆, sourced, read⟩ := bind_ok_run read
  rw [omlCrateCalcRef, bind_of_ok gap₂, bind_of_ok (attempt_of_ok here)] at sourced
  obtain ⟨_, t₇, gap₃, sourced⟩ := bind_ok_run sourced
  obtain ⟨code, t₈, scope, sourced⟩ := bind_ok_run sourced
  obtain ⟨listed, t₉, inner, sourced⟩ := bind_ok_run sourced
  cases sourced
  obtain ⟨found, t₁₀, body, read⟩ := bind_ok_run read
  cases read
  exact ⟨listed.1, found.1, found.2, rfl⟩

variable (atoms symbols fuel)

theorem counts_fit_iff (text : Text) :
    CountsFit atoms symbols fuel text ↔ ArmsListed atoms symbols fuel text := by
  constructor
  · rintro fit tuple first opened ⟨eval, rest, read⟩ start starts ⟨arm, next, one⟩ code mid here
    obtain ⟨sources, arms, default, rfl⟩ := tuple_match_multi opened read
    obtain ⟨tuple', first', left, last, opened', listed, many, wild⟩ := tuple_match_read read
    cases opened.symm.trans opened'
    obtain ⟨code', mid', conds, left', here', conds_read, cond⟩ := arm_read one
    cases here.symm.trans here'
    have member : arm ∈ arms := (mem_many1 many arm).mpr ⟨start, next, starts, one⟩
    have same := fit sources arms default rest read arm (List.mem_append_left _ member) conds cond
    exact ⟨sources, left, conds, left', listed, conds_read, same⟩
  · intro arms_listed sources arms default rest read arm member conds cond
    obtain ⟨tuple, first, left, last, opened, listed, many, wild⟩ := tuple_match_read read
    rcases List.mem_append.mp member with inside | trailing
    · obtain ⟨start, next, starts, one⟩ := (mem_many1 many arm).mp inside
      obtain ⟨code, mid, conds', left', here, conds_read, cond'⟩ := arm_read one
      cases cond.symm.trans cond'
      obtain ⟨sources', _, conds', _, listed', conds_read', same⟩ :=
        arms_listed tuple first opened ⟨_, rest, read⟩ start starts ⟨arm, next, one⟩ code mid here
      rw [(conds_read.unique conds_read').1, (listed.unique listed').1]
      exact same
    · rw [wild arm (Option.mem_toList.mp trailing)] at cond
      cases cond

/-- No scope that the parsers take of the text is read in part, and the arms of a match on a tuple
    fit the tuple. -/
def NothingDropped (text : Text) : Prop :=
  (∀ kind : ScopeKind,
    (kind.reader atoms symbols strict fuel rounds items).Consumes AllSpace text) ∧
    CountsFit atoms symbols fuel text

/-- Where the text is accepted, the bodies whose end nothing checks are of the form that is read in
    full, and the bodies of the arms list as many conditions as that of the tuple lists sources. -/
def WellScoped (text : Text) : Prop :=
  (∀ kind : ScopeKind, ∀ before code,
    (kind.reader atoms symbols strict fuel rounds items).Accepts text before code →
      kind.Bare atoms symbols code) ∧
    ArmsListed atoms symbols fuel text

theorem nothing_dropped_iff (text : Text) :
    NothingDropped atoms symbols strict fuel rounds items text ↔
      WellScoped atoms symbols strict fuel rounds items text := by
  unfold NothingDropped WellScoped
  rw [counts_fit_iff]
  refine and_congr_left' (forall_congr' fun kind => ?_)
  exact scope_consumed_iff atoms symbols strict fuel rounds items kind text

end Kinds

def MatchCondition.misfits (count : Nat) : MatchCondition → Bool
  | .multi conds => conds.length != count
  | _ => false

/-- A match on a tuple with an arm of another length. -/
def PreciseEvaluator.misfits {PipeFun : Type} : PreciseEvaluator PipeFun → Bool
  | .matchOn (.multi sources) arms _ => arms.any (fun arm => arm.cond.misfits sources.length)
  | _ => false

theorem not_counts_fit {PipeFun : Type} {atoms : Atoms PipeFun} {symbols : List String} {fuel : Nat}
    {text : Text}
    (misfit : (omlAgaMatch atoms symbols fuel text).1.toOption.any PreciseEvaluator.misfits = true) :
    ¬ CountsFit atoms symbols fuel text := by
  intro fit
  cases ran : omlAgaMatch atoms symbols fuel text with
  | mk result rest =>
    rw [ran] at misfit
    cases result with
    | error e => cases misfit
    | ok eval =>
      have off : eval.misfits = true := misfit
      unfold PreciseEvaluator.misfits at off
      split at off
      · next sources arms default =>
        obtain ⟨arm, member, other⟩ := List.any_eq_true.mp off
        unfold MatchCondition.misfits at other
        split at other
        · next conds cond =>
          have same := fit sources arms default rest ran arm (List.mem_append_left _ member) conds cond
          simp [same] at other
        · cases other
      · cases off

def looseTuple : Text := "(read(a), read(b) junk) ".toList

def looseConds : Text := "(gt(1 2), in (chars(x), chars(y) junk), chars(z) junk) ".toList

/-- A match on two sources whose arm has three conditions, with words left over in its scopes. -/
def looseMatch : Text :=
  "match ".toList ++ looseTuple ++ "\x7b ".toList ++ looseConds ++ "=> chars(w) ; \x7d".toList

def looseModel : Text := "name : t --- r = ".toList ++ looseMatch ++ ";".toList

/-- The model is accepted to its end. Of its scopes `junk` and `2` are dropped without an error. -/
theorem loose_model_is_accepted :
    (omlConfCode sampleAtoms true 12 looseModel).1.isOk = true ∧
      (omlConfCode sampleAtoms true 12 looseModel).2 = [] ∧
      ¬ NothingDropped sampleAtoms [] true 12 0 [] looseMatch ∧
      ¬ (ScopeKind.tuple.reader sampleAtoms [] true 12 0 []).Consumes AllSpace looseTuple ∧
      ¬ (ScopeKind.conditions.reader sampleAtoms [] true 12 0 []).Consumes AllSpace looseConds ∧
      ¬ (ScopeKind.condFun.reader sampleAtoms [] true 12 0 []).Consumes AllSpace "gt(1 2)".toList ∧
      ¬ (ScopeKind.interval.reader sampleAtoms [] true 12 0 []).Consumes AllSpace
        "in (chars(x), chars(y) junk)".toList := by
  refine ⟨by decide +kernel, by decide +kernel, fun kept => ?_, ?_, ?_, ?_, ?_⟩
  · exact not_counts_fit (by decide +kernel) kept.2
  · exact ScopeReader.not_consumes () "read(a), read(b) junk".toList rfl (by decide +kernel)
      (by unfold AllSpace; decide +kernel)
  · exact ScopeReader.not_consumes () "gt(1 2), in (chars(x), chars(y) junk), chars(z) junk".toList
      rfl (by decide +kernel) (by unfold AllSpace; decide +kernel)
  · exact ScopeReader.not_consumes "gt".toList "1 2".toList rfl (by decide +kernel)
      (by unfold AllSpace; decide +kernel)
  · exact ScopeReader.not_consumes () "chars(x), chars(y) junk".toList rfl (by decide +kernel)
      (by unfold AllSpace; decide +kernel)

end WarpMotor.Oml
