import WarpMotor.Oml.Conf
import WarpMotor.Oml.Grammar

/-!
Expressions without references to the static block. `Closed` looks at every
position that evaluation can reach and at the conditions of every match; with
`symbols` references may stand for themselves. The evaluation of a closed
expression does not panic on any record.
-/
namespace WarpMotor.Oml

variable {PipeFun : Type}

def GenericAccessor.Closed (symbols : Bool) : GenericAccessor → Prop
  | .staticSymbol _ => symbols = true
  | _ => True

def DirectAccessor.default : DirectAccessor → Option GenericAccessor
  | take accessor => accessor.defaultAcq
  | read accessor => accessor.defaultAcq

def DirectAccessor.Closed (symbols : Bool) (accessor : DirectAccessor) : Prop :=
  ∀ default ∈ accessor.default, default.Closed symbols

def RecordOperation.Closed (symbols : Bool) (op : RecordOperation) : Prop :=
  op.datGet.Closed symbols ∧ ∀ default ∈ op.defaultVal, default.Closed symbols

def CalcExpr.Closed (symbols : Bool) : CalcExpr → Prop
  | .const _ => True
  | .accessor direct => direct.Closed symbols
  | .unaryNeg inner => inner.Closed symbols
  | .binary _ lhs rhs => lhs.Closed symbols ∧ rhs.Closed symbols
  | .func _ arg => arg.Closed symbols

/-- No reference at all: nothing replaces one here. -/
def AccessDirectOperation.Closed (op : AccessDirectOperation) : Prop :=
  op.src.Closed false ∧ op.dst.Closed false

def FmtOperation.Closed (symbols : Bool) (op : FmtOperation) : Prop :=
  ∀ sub ∈ op.subs, sub.Closed symbols

mutual
def MatchCond.Closed (symbols : Bool) : MatchCond → Prop
  | .eqSym _ | .neqSym _ | .withinSym _ _ => symbols = true
  | .alternatives conds => CondsClosed symbols conds
  | _ => True

def CondsClosed (symbols : Bool) : List MatchCond → Prop
  | [] => True
  | cond :: rest => cond.Closed symbols ∧ CondsClosed symbols rest
end

def MatchCondition.Closed (symbols : Bool) : MatchCondition → Prop
  | .single cond => cond.Closed symbols
  | .multi conds => CondsClosed symbols conds
  | .wildcard => True

def MatchSource.Closed (symbols : Bool) : MatchSource → Prop
  | .single accessor => accessor.Closed symbols
  | .multi accessors => ∀ accessor ∈ accessors, accessor.Closed symbols

mutual
/-- The parameters of a query are not among it: a query in an expression has no value, one that is
    an item of its own is looked at there. -/
def PreciseEvaluator.Closed (symbols : Bool) : PreciseEvaluator PipeFun → Prop
  | .calculate expr => expr.Closed symbols
  | .accessDirect op => op.Closed
  | .matchOn source items default =>
    source.Closed symbols ∧ CasesClosed symbols source items ∧
      DefaultClosed symbols source default
  | .lookup _ key default _ => key.Closed symbols ∧ default.Closed symbols
  | .tdc op => op.Closed symbols
  | .map subs => MembersClosed symbols subs
  | .objArray items => ItemsClosed symbols items
  | .pipe source _ => source.Closed symbols
  | .fmt op => op.Closed symbols
  | .collect datCrate => datCrate.Closed symbols
  | .staticSymbol _ => symbols = true
  | .sql _ | .obj _ | .objArc _ | .builtin _ | .val _ => True

def NestedAccessor.Closed (symbols : Bool) : NestedAccessor PipeFun → Prop
  | .direct op => op.Closed symbols
  | .collect datCrate => datCrate.Closed symbols
  | .map subs => MembersClosed symbols subs
  | .objArray items => ItemsClosed symbols items
  | .pipe source _ => source.Closed symbols
  | .staticSymbol _ => symbols = true
  | .field _ | .fieldArc _ | .builtin _ => True

def MembersClosed (symbols : Bool) : List (NestedBinding PipeFun) → Prop
  | [] => True
  | ⟨_, acquirer⟩ :: rest => acquirer.Closed symbols ∧ MembersClosed symbols rest

def ItemsClosed (symbols : Bool) : List (PreciseEvaluator PipeFun) → Prop
  | [] => True
  | item :: rest => item.Closed symbols ∧ ItemsClosed symbols rest

def PipeSource.Closed (symbols : Bool) : PipeSource PipeFun → Prop
  | .accessor direct => direct.Closed symbols
  | .accessDirect op => op.Closed
  | .precise eval => eval.Closed symbols

/-- Each condition is closed, is one for the source, and so is what it leads to. -/
def CasesClosed (symbols : Bool) (source : MatchSource) : List (MatchCase PipeFun) → Prop
  | [] => True
  | ⟨cond, result⟩ :: rest =>
    (cond.Closed symbols ∧ source.Fits cond ∧ result.Closed symbols) ∧
      CasesClosed symbols source rest

def DefaultClosed (symbols : Bool) (source : MatchSource) : Option (MatchCase PipeFun) → Prop
  | none => True
  | some ⟨cond, result⟩ => cond.Closed false ∧ source.Fits cond ∧ result.Closed symbols
end

/-- A parameter has a value of its own unless it is a function of the query language. -/
def CondAccessor.Closed (symbols : Bool) : CondAccessor → Prop
  | .tdc op => op.Closed symbols
  | _ => True

def SqlQuery.Closed (symbols : Bool) (query : SqlQuery) : Prop :=
  ∀ var ∈ query.vars, var.2.Closed symbols

/-- An item that is a query has closed parameters; the accessor of a batch is not evaluated. -/
def EvalExp.QueryClosed (symbols : Bool) : EvalExp PipeFun → Prop
  | .single _ (.sql query) _ => query.Closed symbols
  | _ => True

def EvalExp.Closed (symbols : Bool) : EvalExp PipeFun → Prop
  | .single _ evalWay _ => evalWay.Closed symbols
  | .batch _ _ => True

/-- Nothing unresolved at any position that evaluation can reach, and every match in shape. -/
def ObjModel.Resolved (model : ObjModel PipeFun) : Prop :=
  ∀ item ∈ model.items, item.Closed false ∧ item.QueryClosed false

/-- The evaluation ends, with a value or without one. -/
def Returns {A : Type} (eval : Eval A) : Prop := ∀ state, ∃ result, eval state = some result

namespace Returns

variable {A B : Type}

theorem pure (a : A) : Returns (Pure.pure a : Eval A) := fun state => ⟨(a, state), rfl⟩

theorem bind {first : Eval A} {next : A → Eval B} (starts : Returns first)
    (goes : ∀ a, Returns (next a)) : Returns (first >>= next) := by
  intro state
  obtain ⟨⟨a, after⟩, ran⟩ := starts state
  obtain ⟨last, ended⟩ := goes a after
  exact ⟨last, by rw [eval_bind, ran]; exact ended⟩

/-- What is done with the value has no effect. -/
theorem value {first : Eval A} (starts : Returns first) (f : A → B) :
    Returns (do return f (← first)) := starts.bind (fun a => pure (f a))

end Returns

section

variable (env : Externals PipeFun)

theorem FieldTake.extractOne_returns (accessor : FieldTake) (target : EvaluationTarget) :
    Returns (accessor.extractOne env target) := by
  have options (names : List String) : Returns (moveOptions env names) := by
    induction names with
    | nil => exact .pure none
    | cons name rest ih =>
      refine Returns.bind (fun state => ⟨_, rfl⟩) (fun found => ?_)
      cases found with
      | some field => exact .pure (some field)
      | none => exact ih
  refine Returns.bind (fun state => ⟨_, rfl⟩) (fun found => ?_)
  cases found with
  | some field => exact .pure (some field)
  | none => exact options accessor.option

theorem DirectAccessor.extractOne_returns (accessor : DirectAccessor)
    (target : EvaluationTarget) : Returns (accessor.extractOne env target) := by
  cases accessor with
  | take accessor => exact accessor.extractOne_returns env target
  | read accessor => exact fun state => ⟨_, rfl⟩

theorem DirectAccessor.extractStorage_returns (accessor : DirectAccessor)
    (target : EvaluationTarget) : Returns (accessor.extractStorage env target) :=
  (accessor.extractOne_returns env target).value _

theorem DirectAccessor.extractStorageAsync_returns (accessor : DirectAccessor)
    (target : EvaluationTarget) : Returns (accessor.extractStorageAsync env target) := by
  cases accessor with
  | take accessor => exact (accessor.extractOne_returns env target).value _
  | read accessor => exact fun state => ⟨_, rfl⟩

theorem GenericAccessor.Closed.returns {accessor : GenericAccessor}
    (closed : accessor.Closed false) (target : EvaluationTarget) :
    Returns (accessor.extractStorage env target) ∧
      Returns (accessor.extractStorageAsync env target) := by
  cases accessor with
  | field content => exact ⟨.pure _, .pure _⟩
  | fieldArc content => exact ⟨.pure _, .pure _⟩
  | builtin function => exact ⟨.pure _, .pure _⟩
  | staticSymbol symbol => cases closed

/-- A default that is a reference has to be replaced: the four readings panic on nothing else. -/
theorem RecordOperation.Closed.returns {op : RecordOperation} (closed : op.Closed false)
    (target : EvaluationTarget) :
    Returns (op.extractOne env target) ∧ Returns (op.extractStorage env target) ∧
      Returns (op.extractOneAsync env target) ∧ Returns (op.extractStorageAsync env target) := by
  obtain ⟨datGet, default⟩ := op
  have direct := datGet.extractOne_returns env target
  have storage := datGet.extractStorage_returns env target
  have storageAsync := datGet.extractStorageAsync_returns env target
  cases default with
  | none =>
    refine ⟨direct.bind ?_, storage.bind ?_, direct.bind ?_, storageAsync.bind ?_⟩ <;>
    · intro found
      cases found <;> exact .pure _
  | some default =>
    have both := (closed.2 default rfl).returns env target
    refine ⟨direct.bind ?_, storage.bind ?_, direct.bind ?_, storageAsync.bind ?_⟩ <;>
    · intro found
      cases found with
      | some field => exact .pure _
      | none => first | exact both.1.value _ | exact both.2.value _

theorem CalcExpr.evalExpr_returns (target : EvaluationTarget) (expr : CalcExpr) :
    Returns (evalExpr env target expr) := by
  induction expr with
  | const number => exact .pure _
  | accessor direct => exact (direct.extractOne_returns env _).value _
  | unaryNeg inner ih => exact ih.value _
  | binary op lhs rhs left right =>
    refine left.bind (fun number => ?_)
    cases number with
    | none => exact .pure none
    | some number => exact right.value _
  | func function arg ih => exact ih.value _

theorem CalcExpr.extractOne_returns (expr : CalcExpr) (target : EvaluationTarget) :
    Returns (expr.extractOne env target) := by
  refine (expr.evalExpr_returns env target).bind (fun number => ?_)
  cases number <;> exact .pure _

theorem AccessDirectOperation.extractOne_returns (op : AccessDirectOperation)
    (target : EvaluationTarget) : Returns (op.extractOne env target) := by
  refine (op.src.extractOne_returns env _).bind (fun src => ?_)
  refine (op.dst.extractOne_returns env _).bind (fun dst => ?_)
  split <;> exact .pure _

theorem collectOne_returns (datCrate : DirectAccessor) (target : EvaluationTarget) :
    Returns (collectOne env datCrate target) := by
  intro state
  unfold collectOne
  split <;> exact ⟨_, rfl⟩

theorem fmtArgs_returns (subs : List RecordOperation) (args : List (String × FieldStorage))
    (closed : ∀ sub ∈ subs, sub.Closed false) : Returns (fmtArgs env subs args) := by
  induction subs generalizing args with
  | nil => exact .pure args
  | cons sub rest ih =>
    obtain ⟨first, others⟩ := List.forall_mem_cons.mp closed
    refine (first.returns env _).2.1.bind (fun found => ?_)
    cases found with
    | some storage => exact ih (insertArg args storage) others
    | none => exact ih args others

theorem FmtOperation.Closed.returns {op : FmtOperation} (closed : op.Closed false)
    (target : EvaluationTarget) : Returns (op.extractOne env target) :=
  (fmtArgs_returns env op.subs [] closed).value _

/-- Conditions that are for the values at hand can be asked. -/
theorem selectItem_isSome (isMatch : MatchCondition → Option Bool) (conds : List MatchCondition)
    (index : Nat) (asked : ∀ cond ∈ conds, (isMatch cond).isSome = true) :
    ∃ selected, selectItem isMatch conds index = some selected := by
  induction conds generalizing index with
  | nil => exact ⟨.default, rfl⟩
  | cons cond rest ih =>
    obtain ⟨first, others⟩ := List.forall_mem_cons.mp asked
    obtain ⟨answer, result⟩ := Option.isSome_iff_exists.mp first
    cases answer with
    | true => exact ⟨.item index, by rw [selectItem, result]⟩
    | false =>
      obtain ⟨selected, found⟩ := ih (index + 1) others
      exact ⟨selected, by rw [selectItem, result]; exact found⟩

theorem extractAll_returns (target : EvaluationTarget) (accessors : List DirectAccessor) :
    Returns (extractAll env target accessors) := by
  induction accessors with
  | nil => exact .pure _
  | cons accessor rest ih =>
    refine (accessor.extractOne_returns env _).bind (fun found => ?_)
    cases found with
    | none => exact .pure none
    | some value => exact ih.value _

/-- No condition of a match that is in shape is `unreachable!`. -/
theorem MatchSource.select_returns (source : MatchSource) (conds : List MatchCondition)
    (fits : ∀ cond ∈ conds, source.Fits cond) (target : EvaluationTarget) :
    Returns (source.select env conds target) := by
  cases source with
  | single accessor =>
    refine (accessor.extractOne_returns env _).bind (fun found => ?_)
    cases found with
    | none => exact .pure _
    | some value =>
      obtain ⟨selected, result⟩ := selectItem_isSome (MatchCondition.isMatchSingle env value)
        conds 0 (by
          intro cond member
          have shape := fits cond member
          cases cond with
          | single cond => rfl
          | multi conds => exact shape.elim
          | wildcard => rfl)
      exact fun state => ⟨(selected, state), by simp only [result, Option.map_some]⟩
  | multi accessors =>
    refine (extractAll_returns env target accessors).bind (fun found => ?_)
    cases found with
    | none => exact .pure _
    | some values =>
      obtain ⟨selected, result⟩ := selectItem_isSome (MatchCondition.isMatchMulti env values)
        conds 0 (by
          intro cond member
          have shape := fits cond member
          cases cond with
          | single cond => exact shape.elim
          | multi conds => rfl
          | wildcard => rfl)
      exact fun state => ⟨(selected, state), by simp only [result, Option.map_some]⟩

theorem CasesClosed.fits {symbols : Bool} {source : MatchSource}
    {items : List (MatchCase PipeFun)} (closed : CasesClosed symbols source items) :
    ∀ cond ∈ items.map MatchCase.cond, source.Fits cond := by
  induction items with
  | nil => exact List.forall_mem_nil _
  | cons item rest ih =>
    obtain ⟨cond, result⟩ := item
    rw [CasesClosed] at closed
    exact List.forall_mem_cons.mpr ⟨closed.1.2.1, ih closed.2⟩

/-- The four readings of an expression. -/
structure PreciseReturns (env : Externals PipeFun) (eval : PreciseEvaluator PipeFun)
    (target : EvaluationTarget) : Prop where
  storageSync : Returns (extractStorageSync env eval target)
  itemSync : Returns (itemOneSync env eval target)
  oneAsync : Returns (extractOneAsync env eval target)
  storageAsync : Returns (extractStorageAsync env eval target)

structure NestedReturns (env : Externals PipeFun) (arm : NestedAccessor PipeFun)
    (target : EvaluationTarget) : Prop where
  storageSync : Returns (nestedStorageSync env arm target)
  oneSync : Returns (nestedOneSync env arm target)
  oneAsync : Returns (nestedOneAsync env arm target)
  storageAsync : Returns (nestedStorageAsync env arm target)

structure SourceReturns (env : Externals PipeFun) (source : PipeSource PipeFun)
    (target : EvaluationTarget) : Prop where
  oneSync : Returns (sourceOneSync env source target)
  storageSync : Returns (sourceStorageSync env source target)
  oneAsync : Returns (sourceOneAsync env source target)
  storageAsync : Returns (sourceStorageAsync env source target)

structure CaseReturns (env : Externals PipeFun) (items : List (MatchCase PipeFun)) (index : Nat)
    (target : EvaluationTarget) : Prop where
  storageSync : Returns (caseStorageSync env items index target)
  oneSync : Returns (caseOneSync env items index target)
  oneAsync : Returns (caseOneAsync env items index target)
  storageAsync : Returns (caseStorageAsync env items index target)

structure DefaultReturns (env : Externals PipeFun) (default : Option (MatchCase PipeFun))
    (target : EvaluationTarget) : Prop where
  storageSync : Returns (defaultStorageSync env default target)
  oneSync : Returns (defaultOneSync env default target)
  oneAsync : Returns (defaultOneAsync env default target)
  storageAsync : Returns (defaultStorageAsync env default target)

theorem lookup_returns {A : Type} {key : Eval (Option DataField)} (compiled : Option LookupDict)
    {found : DataField → Eval (Option A)} {default : Eval (Option A)} (starts : Returns key)
    (hit : ∀ field, Returns (found field)) (miss : Returns default) :
    Returns (do
      match lookupEntry env compiled (← key) with
      | some field => found field
      | none => default) := by
  refine starts.bind (fun field => ?_)
  split
  · exact hit _
  · exact miss

theorem selected_returns {A : Type} {select : Eval Selected} {arm : Nat → Eval (Option A)}
    {default : Eval (Option A)} (starts : Returns select) (items : ∀ index, Returns (arm index))
    (last : Returns default) :
    Returns (do
      match ← select with
      | .item index => arm index
      | .default => default) := by
  refine starts.bind (fun selected => ?_)
  cases selected with
  | item index => exact items index
  | default => exact last

mutual
theorem PreciseEvaluator.Closed.returns : (eval : PreciseEvaluator PipeFun) →
    eval.Closed false → (target : EvaluationTarget) → PreciseReturns env eval target
  | .sql query, _, target => ⟨.pure _, .pure _, .pure _, .pure _⟩
  | .calculate expr, closed, target => by
    have one := expr.extractOne_returns env target
    exact ⟨one.value _, one, one, one.value _⟩
  | .accessDirect op, closed, target => by
    have one := op.extractOne_returns env target
    exact ⟨one.value _, one, one, one.value _⟩
  | .matchOn source items default, closed, target => by
    rw [PreciseEvaluator.Closed] at closed
    have select := source.select_returns env _ closed.2.1.fits target
    have arms (index : Nat) := CasesClosed.returns source items closed.2.1 index target
    have last := DefaultClosed.returns source default closed.2.2 target
    exact ⟨selected_returns select (fun index => (arms index).storageSync) last.storageSync,
      selected_returns select (fun index => (arms index).oneSync) last.oneSync,
      selected_returns select (fun index => (arms index).oneAsync) last.oneAsync,
      selected_returns select (fun index => (arms index).storageAsync) last.storageAsync⟩
  | .lookup dictSymbol key default compiled, closed, target => by
    rw [PreciseEvaluator.Closed] at closed
    have keyed := (PreciseEvaluator.Closed.returns key closed.1 target).oneAsync
    have last := (PreciseEvaluator.Closed.returns default closed.2 target).storageAsync
    exact ⟨.pure _, .pure _, lookup_returns env compiled keyed (fun _ => .pure _) (last.value _),
      lookup_returns env compiled keyed (fun _ => .pure _) last⟩
  | .obj field, _, target => ⟨.pure _, .pure _, .pure _, .pure _⟩
  | .objArc field, _, target => ⟨.pure _, .pure _, .pure _, .pure _⟩
  | .tdc op, closed, target => by
    rw [PreciseEvaluator.Closed] at closed
    obtain ⟨one, storage, oneAsync, storageAsync⟩ := closed.returns env target
    exact ⟨storage, one, oneAsync, storageAsync⟩
  | .map subs, closed, target => by
    rw [PreciseEvaluator.Closed] at closed
    have both := MembersClosed.returns subs closed []
    exact ⟨both.1.value _, both.1.value _, both.2.value _, both.2.value _⟩
  | .objArray items, closed, target => by
    rw [PreciseEvaluator.Closed] at closed
    have both := ItemsClosed.returns items closed (.new (target.name.getD "_") .auto)
    exact ⟨both.1.value _, both.1.value _, both.2.value _, both.2.value _⟩
  | .pipe source items, closed, target => by
    rw [PreciseEvaluator.Closed] at closed
    have each := PipeSource.Closed.returns source closed target
    exact ⟨each.storageSync.value _, each.oneSync.value _, each.oneAsync.value _,
      each.storageAsync.value _⟩
  | .builtin function, _, target => ⟨.pure _, .pure _, .pure _, .pure _⟩
  | .fmt op, closed, target => by
    rw [PreciseEvaluator.Closed] at closed
    have one := closed.returns env target
    exact ⟨one.value _, one, one, one.value _⟩
  | .collect datCrate, _, target => by
    have one := collectOne_returns env datCrate target
    exact ⟨one.value _, one, one, one.value _⟩
  | .val value, _, target => ⟨.pure _, .pure _, .pure _, .pure _⟩
  | .staticSymbol symbol, closed, target => by
    rw [PreciseEvaluator.Closed] at closed
    cases closed

theorem NestedAccessor.Closed.returns : (arm : NestedAccessor PipeFun) → arm.Closed false →
    (target : EvaluationTarget) → NestedReturns env arm target
  | .field field, _, target => ⟨.pure _, .pure _, .pure _, .pure _⟩
  | .fieldArc field, _, target => ⟨.pure _, .pure _, .pure _, .pure _⟩
  | .direct op, closed, target => by
    rw [NestedAccessor.Closed] at closed
    obtain ⟨one, storage, oneAsync, storageAsync⟩ := closed.returns env target
    exact ⟨one.value _, one, oneAsync, storageAsync⟩
  | .builtin function, _, target => ⟨.pure _, .pure _, .pure _, .pure _⟩
  | .collect datCrate, _, target => by
    have one := collectOne_returns env datCrate target
    exact ⟨one.value _, one, one, one.value _⟩
  | .map subs, closed, target => by
    rw [NestedAccessor.Closed] at closed
    have both := MembersClosed.returns subs closed []
    exact ⟨both.1.value _, both.1.value _, both.2.value _, both.2.value _⟩
  | .objArray items, closed, target => by
    rw [NestedAccessor.Closed] at closed
    have both := ItemsClosed.returns items closed (.new (target.name.getD "_") .auto)
    exact ⟨both.1.value _, both.1.value _, both.2.value _, both.2.value _⟩
  | .pipe source items, closed, target => by
    rw [NestedAccessor.Closed] at closed
    have each := PipeSource.Closed.returns source closed target
    exact ⟨each.oneSync.value _, each.oneSync.value _, each.oneAsync.value _,
      each.storageAsync.value _⟩
  | .staticSymbol symbol, closed, target => by
    rw [NestedAccessor.Closed] at closed
    cases closed

theorem MembersClosed.returns : (subs : List (NestedBinding PipeFun)) →
    MembersClosed false subs → (members : List Member) →
      Returns (membersSync env subs members) ∧ Returns (membersAsync env subs members)
  | [], _, members => ⟨.pure _, .pure _⟩
  | ⟨target, acquirer⟩ :: rest, closed, members => by
    rw [MembersClosed] at closed
    have first := NestedAccessor.Closed.returns acquirer closed.1 target
    have others (members : List Member) := MembersClosed.returns rest closed.2 members
    exact ⟨first.storageSync.bind (fun _ => (others _).1),
      first.storageAsync.bind (fun _ => (others _).2)⟩

theorem ItemsClosed.returns : (items : List (PreciseEvaluator PipeFun)) →
    ItemsClosed false items → (target : EvaluationTarget) →
      Returns (itemsSync env items target) ∧ Returns (itemsAsync env items target)
  | [], _, target => ⟨.pure _, .pure _⟩
  | item :: rest, closed, target => by
    rw [ItemsClosed] at closed
    have first := PreciseEvaluator.Closed.returns item closed.1 target
    have others := ItemsClosed.returns rest closed.2 target
    exact ⟨first.itemSync.bind (fun _ => others.1.value _),
      first.oneAsync.bind (fun _ => others.2.value _)⟩

theorem PipeSource.Closed.returns : (source : PipeSource PipeFun) → source.Closed false →
    (target : EvaluationTarget) → SourceReturns env source target
  | .accessor accessor, _, target => ⟨accessor.extractOne_returns env target,
      accessor.extractStorage_returns env target, accessor.extractOne_returns env target,
      accessor.extractStorageAsync_returns env target⟩
  | .accessDirect op, _, target => by
    have one := op.extractOne_returns env target
    exact ⟨one, one.value _, one, one.value _⟩
  | .precise eval, closed, target => by
    rw [PipeSource.Closed] at closed
    have each := PreciseEvaluator.Closed.returns eval closed target
    exact ⟨each.storageSync.value _, each.storageSync, each.oneAsync, each.storageAsync⟩

theorem CasesClosed.returns (source : MatchSource) : (items : List (MatchCase PipeFun)) →
    CasesClosed false source items → (index : Nat) → (target : EvaluationTarget) →
      CaseReturns env items index target
  | [], _, index, target => ⟨.pure _, .pure _, .pure _, .pure _⟩
  | ⟨cond, result⟩ :: rest, closed, 0, target => by
    rw [CasesClosed] at closed
    have arm := NestedAccessor.Closed.returns result closed.1.2.2 target
    exact ⟨arm.storageSync, arm.oneSync, arm.oneAsync, arm.storageAsync⟩
  | ⟨cond, result⟩ :: rest, closed, index + 1, target => by
    rw [CasesClosed] at closed
    have others := CasesClosed.returns source rest closed.2 index target
    exact ⟨others.storageSync, others.oneSync, others.oneAsync, others.storageAsync⟩

theorem DefaultClosed.returns (source : MatchSource) :
    (default : Option (MatchCase PipeFun)) → DefaultClosed false source default →
      (target : EvaluationTarget) → DefaultReturns env default target
  | none, _, target => ⟨.pure _, .pure _, .pure _, .pure _⟩
  | some ⟨cond, result⟩, closed, target => by
    rw [DefaultClosed] at closed
    have arm := NestedAccessor.Closed.returns result closed.2.2 target
    exact ⟨arm.storageSync, arm.oneSync, arm.oneAsync, arm.storageAsync⟩
end

theorem paramNames_known (isParam : String → Bool) (fuel : Nat) (text : Text) :
    ∀ name ∈ orderedSqlParamNames isParam fuel text, isParam name = true := by
  induction fuel generalizing text with
  | zero => exact List.forall_mem_nil _
  | succ fuel ih =>
    cases text with
    | nil => exact List.forall_mem_nil _
    | cons c rest =>
      rw [orderedSqlParamNames]
      split
      · exact ih _
      split
      · exact ih _
      split
      · exact ih _
      split
      · exact ih _
      split
      · dsimp only
        split
        · next known => exact List.forall_mem_cons.mpr ⟨known, ih _⟩
        · exact ih _
      · exact ih _

theorem CondAccessor.Closed.returns {accessor : CondAccessor} (closed : accessor.Closed false)
    (target : EvaluationTarget) : Returns (accessor.extractOne env target) := by
  cases accessor with
  | tdc op => exact (RecordOperation.Closed.returns env closed target).1
  | builtin function => exact .pure _
  | val value => exact .pure _
  | sqlFn name args => exact .pure _

theorem collectParams_returns (query : SqlQuery) (closed : query.Closed false)
    (names : List String) (known : ∀ name ∈ names, (query.var name).isSome = true) :
    Returns (collectParams env query names) := by
  induction names with
  | nil => exact .pure []
  | cons name rest ih =>
    obtain ⟨first, others⟩ := List.forall_mem_cons.mp known
    obtain ⟨accessor, found⟩ := Option.isSome_iff_exists.mp first
    have param : accessor.Closed false := by
      simp only [SqlQuery.var, Option.map_eq_some_iff] at found
      obtain ⟨var, member, rfl⟩ := found
      exact closed var (List.mem_of_find?_eq_some member)
    rw [collectParams, found]
    exact (param.returns env .autoDefault).bind (fun _ => (ih others).value _)

theorem SqlQuery.Closed.returns {query : SqlQuery} (closed : query.Closed false)
    (runQuery : RunQuery) : Returns (query.extractMore env runQuery) := by
  refine (collectParams_returns env query closed query.paramNames ?_).bind (fun params => ?_)
  · exact paramNames_known (fun name => (query.var name).isSome) _ _
  · split <;> exact .pure _

theorem stored_returns (target : EvaluationTarget) (storage : Option FieldStorage) :
    Returns (match storage with
      | none => pure ()
      | some storage => modify (fun state =>
        { state with dst := emitSingleStorage env storage target state.dst }) : Eval Unit) := by
  cases storage with
  | none => exact .pure ()
  | some storage => exact fun state => ⟨_, rfl⟩

theorem single_returns (eval : PreciseEvaluator PipeFun)
    (each : ∀ target, PreciseReturns env eval target) (sync : Bool)
    (targets : List EvaluationTarget) : Returns (match targets with
      | [] => pure ()
      | target :: _ => do
        let storage ←
          if sync then extractStorageSync env eval target else extractStorageAsync env eval target
        match storage with
        | none => pure ()
        | some storage => modify (fun state =>
          { state with dst := emitSingleStorage env storage target state.dst }) : Eval Unit) := by
  cases targets with
  | nil => exact .pure ()
  | cons target rest =>
    cases sync with
    | true => exact (each target).storageSync.bind (stored_returns env target)
    | false => exact (each target).storageAsync.bind (stored_returns env target)

theorem EvalExp.Closed.returns {item : EvalExp PipeFun} (closed : item.Closed false)
    (queryClosed : item.QueryClosed false) (runQuery : RunQuery) :
    Returns (evalProc env runQuery item) := by
  cases item with
  | batch target evalWay => cases evalWay <;> exact fun state => ⟨_, rfl⟩
  | single targets evalWay sync =>
    have each := PreciseEvaluator.Closed.returns env evalWay closed
    cases evalWay with
    | sql query =>
      exact (SqlQuery.Closed.returns env queryClosed runQuery).bind (fun _ => fun state => ⟨_, rfl⟩)
    | staticSymbol symbol =>
      rw [EvalExp.Closed, PreciseEvaluator.Closed] at closed
      cases closed
    | _ => exact single_returns env _ each sync targets

/-- A resolved model runs on every record. -/
theorem ObjModel.Resolved.returns {model : ObjModel PipeFun} (resolved : model.Resolved)
    (runQuery : RunQuery) : Returns (evalItems env runQuery model.items) := by
  have each (items : List (EvalExp PipeFun))
      (closed : ∀ item ∈ items, item.Closed false ∧ item.QueryClosed false) :
      Returns (evalItems env runQuery items) := by
    induction items with
    | nil => exact .pure ()
    | cons item rest ih =>
      obtain ⟨first, others⟩ := List.forall_mem_cons.mp closed
      exact (first.1.returns env first.2 runQuery).bind (fun _ => ih others)
  exact each model.items resolved

end

end WarpMotor.Oml
