import WarpMotor.Oml.Conf
import WarpMotor.Oml.ZeroCopy

/-!
What `remove` removes. An evaluation can only take fields out of the target
record. The marker that `remove` makes then drops fields by the name each was
made with, which for a shared field is not the name it has.
-/
namespace WarpMotor.Oml

variable {PipeFun : Type}

/-- The evaluation adds nothing to the target record and leaves the order as it is. -/
def OnlyTakes {A : Type} (eval : Eval A) : Prop :=
  ∀ state found, eval state = some found → List.Sublist found.2.dst state.dst

namespace OnlyTakes

variable {A B : Type}

theorem pure (a : A) : OnlyTakes (Pure.pure a : Eval A) := by
  intro state found ran
  obtain rfl := Option.some.inj ran
  exact List.Sublist.refl _

theorem panicked : OnlyTakes (Oml.panicked : Eval A) := by
  intro state found ran
  cases ran

theorem reads (f : State → Option A) :
    OnlyTakes (fun state => (f state).map (fun a => (a, state)) : Eval A) := by
  intro state found ran
  obtain ⟨a, _, rfl⟩ := Option.map_eq_some_iff.mp ran
  exact List.Sublist.refl _

theorem bind {first : Eval A} {next : A → Eval B} (starts : OnlyTakes first)
    (goes : ∀ a, OnlyTakes (next a)) : OnlyTakes (first >>= next) := by
  intro state found ran
  rw [eval_bind] at ran
  obtain ⟨⟨a, between⟩, begun, ended⟩ := Option.bind_eq_some_iff.mp ran
  exact (goes a between found ended).trans (starts state (a, between) begun)

/-- What is done with the value has no effect. -/
theorem value {first : Eval A} (starts : OnlyTakes first) (f : A → B) :
    OnlyTakes (do return f (← first)) := starts.bind (fun a => pure (f a))

end OnlyTakes

section

variable (env : Externals PipeFun)

theorem findMoveTdc_sublist (key : String) (option : Bool) (dst : List FieldStorage) :
    List.Sublist (findMoveTdc env key option dst).2 dst := by
  induction dst with
  | nil => exact List.Sublist.refl _
  | cons item rest ih =>
    rw [findMoveTdc]
    split
    · exact List.sublist_cons_self item rest
    · exact ih.cons_cons item

theorem FieldTake.moveKey_takes (key : String) (option : Bool) :
    OnlyTakes (FieldTake.moveKey env key option) := by
  intro state found ran
  obtain rfl := Option.some.inj ran
  exact findMoveTdc_sublist env key option state.dst

theorem FieldTake.extractOne_takes (accessor : FieldTake) (target : EvaluationTarget) :
    OnlyTakes (accessor.extractOne env target) := by
  have options (names : List String) : OnlyTakes (moveOptions env names) := by
    induction names with
    | nil => exact .pure none
    | cons name rest ih =>
      refine (moveKey_takes env name true).bind (fun found => ?_)
      cases found with
      | some field => exact .pure (some field)
      | none => exact ih
  refine (moveKey_takes env _ false).bind (fun found => ?_)
  cases found with
  | some field => exact .pure (some field)
  | none => exact options accessor.option

theorem DirectAccessor.extractOne_takes (accessor : DirectAccessor) (target : EvaluationTarget) :
    OnlyTakes (accessor.extractOne env target) := by
  cases accessor with
  | take accessor => exact accessor.extractOne_takes env target
  | read accessor => exact .reads (fun state => some (accessor.extractOne env target state))

theorem DirectAccessor.extractStorageAsync_takes (accessor : DirectAccessor)
    (target : EvaluationTarget) : OnlyTakes (accessor.extractStorageAsync env target) := by
  cases accessor with
  | take accessor => exact (accessor.extractOne_takes env target).value _
  | read accessor => exact .reads (fun state => some (accessor.extractStorage env target state))

theorem GenericAccessor.extractStorage_takes (accessor : GenericAccessor)
    (target : EvaluationTarget) : OnlyTakes (accessor.extractStorage env target) ∧
      OnlyTakes (accessor.extractStorageAsync env target) := by
  cases accessor with
  | field content => exact ⟨.pure _, .pure _⟩
  | fieldArc content => exact ⟨.pure _, .pure _⟩
  | builtin function => exact ⟨.pure _, .pure _⟩
  | staticSymbol symbol => exact ⟨.panicked, .panicked⟩

/-- The four readings of an operation. -/
structure RecordTakes (op : RecordOperation) (target : EvaluationTarget) : Prop where
  one : OnlyTakes (op.extractOne env target)
  storage : OnlyTakes (op.extractStorage env target)
  oneAsync : OnlyTakes (op.extractOneAsync env target)
  storageAsync : OnlyTakes (op.extractStorageAsync env target)

theorem RecordOperation.takes (op : RecordOperation) (target : EvaluationTarget) :
    RecordTakes env op target := by
  obtain ⟨datGet, default⟩ := op
  have direct := datGet.extractOne_takes env target
  have storage : OnlyTakes (datGet.extractStorage env target) := direct.value _
  have storageAsync := datGet.extractStorageAsync_takes env target
  cases default with
  | none =>
    refine ⟨direct.bind ?_, storage.bind ?_, direct.bind ?_, storageAsync.bind ?_⟩ <;>
    · intro found
      cases found <;> exact .pure _
  | some default =>
    have both := default.extractStorage_takes env target
    refine ⟨direct.bind ?_, storage.bind ?_, direct.bind ?_, storageAsync.bind ?_⟩ <;>
    · intro found
      cases found with
      | some field => exact .pure _
      | none => first | exact both.1.value _ | exact both.2.value _

theorem CalcExpr.evalExpr_takes (target : EvaluationTarget) (expr : CalcExpr) :
    OnlyTakes (evalExpr env target expr) := by
  induction expr with
  | const number => exact .pure _
  | accessor direct => exact (direct.extractOne_takes env _).value _
  | unaryNeg inner ih => exact ih.value _
  | binary op lhs rhs left right =>
    refine left.bind (fun number => ?_)
    cases number with
    | none => exact .pure none
    | some number => exact right.value _
  | func function arg ih => exact ih.value _

theorem CalcExpr.extractOne_takes (expr : CalcExpr) (target : EvaluationTarget) :
    OnlyTakes (expr.extractOne env target) := by
  refine (expr.evalExpr_takes env target).bind (fun number => ?_)
  cases number <;> exact .pure _

theorem AccessDirectOperation.extractOne_takes (op : AccessDirectOperation)
    (target : EvaluationTarget) : OnlyTakes (op.extractOne env target) := by
  refine (op.src.extractOne_takes env _).bind (fun src => ?_)
  refine (op.dst.extractOne_takes env _).bind (fun dst => ?_)
  split <;> exact .pure _

theorem collectOne_takes (datCrate : DirectAccessor) (target : EvaluationTarget) :
    OnlyTakes (collectOne env datCrate target) := by
  intro state found ran
  unfold collectOne at ran
  split at ran <;>
  · obtain rfl := Option.some.inj ran
    exact List.Sublist.refl _

theorem fmtArgs_takes (subs : List RecordOperation) (args : List (String × FieldStorage)) :
    OnlyTakes (fmtArgs env subs args) := by
  induction subs generalizing args with
  | nil => exact .pure args
  | cons sub rest ih =>
    refine (sub.takes env _).storage.bind (fun found => ?_)
    cases found with
    | some storage => exact ih (insertArg args storage)
    | none => exact ih args

theorem FmtOperation.extractOne_takes (op : FmtOperation) (target : EvaluationTarget) :
    OnlyTakes (op.extractOne env target) := (fmtArgs_takes env op.subs []).value _

theorem extractAll_takes (target : EvaluationTarget) (accessors : List DirectAccessor) :
    OnlyTakes (extractAll env target accessors) := by
  induction accessors with
  | nil => exact .pure _
  | cons accessor rest ih =>
    refine (accessor.extractOne_takes env _).bind (fun found => ?_)
    cases found with
    | none => exact .pure none
    | some value => exact ih.value _

theorem MatchSource.select_takes (source : MatchSource) (conds : List MatchCondition)
    (target : EvaluationTarget) : OnlyTakes (source.select env conds target) := by
  cases source with
  | single accessor =>
    refine (accessor.extractOne_takes env _).bind (fun found => ?_)
    cases found with
    | none => exact .pure _
    | some value =>
      exact .reads (fun _ => selectItem (MatchCondition.isMatchSingle env value) conds 0)
  | multi accessors =>
    refine (extractAll_takes env target accessors).bind (fun found => ?_)
    cases found with
    | none => exact .pure _
    | some values =>
      exact .reads (fun _ => selectItem (MatchCondition.isMatchMulti env values) conds 0)

/-- The four readings of an expression. -/
structure PreciseTakes (eval : PreciseEvaluator PipeFun) (target : EvaluationTarget) : Prop where
  storageSync : OnlyTakes (extractStorageSync env eval target)
  itemSync : OnlyTakes (itemOneSync env eval target)
  oneAsync : OnlyTakes (extractOneAsync env eval target)
  storageAsync : OnlyTakes (extractStorageAsync env eval target)

structure NestedTakes (arm : NestedAccessor PipeFun) (target : EvaluationTarget) : Prop where
  storageSync : OnlyTakes (nestedStorageSync env arm target)
  oneSync : OnlyTakes (nestedOneSync env arm target)
  oneAsync : OnlyTakes (nestedOneAsync env arm target)
  storageAsync : OnlyTakes (nestedStorageAsync env arm target)

structure SourceTakes (source : PipeSource PipeFun) (target : EvaluationTarget) : Prop where
  oneSync : OnlyTakes (sourceOneSync env source target)
  storageSync : OnlyTakes (sourceStorageSync env source target)
  oneAsync : OnlyTakes (sourceOneAsync env source target)
  storageAsync : OnlyTakes (sourceStorageAsync env source target)

structure CaseTakes (items : List (MatchCase PipeFun)) (index : Nat)
    (target : EvaluationTarget) : Prop where
  storageSync : OnlyTakes (caseStorageSync env items index target)
  oneSync : OnlyTakes (caseOneSync env items index target)
  oneAsync : OnlyTakes (caseOneAsync env items index target)
  storageAsync : OnlyTakes (caseStorageAsync env items index target)

structure DefaultTakes (default : Option (MatchCase PipeFun)) (target : EvaluationTarget) :
    Prop where
  storageSync : OnlyTakes (defaultStorageSync env default target)
  oneSync : OnlyTakes (defaultOneSync env default target)
  oneAsync : OnlyTakes (defaultOneAsync env default target)
  storageAsync : OnlyTakes (defaultStorageAsync env default target)

theorem lookup_takes {A : Type} {key : Eval (Option DataField)} (compiled : Option LookupDict)
    {found : DataField → Eval (Option A)} {default : Eval (Option A)} (starts : OnlyTakes key)
    (hit : ∀ field, OnlyTakes (found field)) (miss : OnlyTakes default) :
    OnlyTakes (do
      match lookupEntry env compiled (← key) with
      | some field => found field
      | none => default) := by
  refine starts.bind (fun field => ?_)
  split
  · exact hit _
  · exact miss

theorem selected_takes {A : Type} {select : Eval Selected} {arm : Nat → Eval (Option A)}
    {default : Eval (Option A)} (starts : OnlyTakes select) (items : ∀ index, OnlyTakes (arm index))
    (last : OnlyTakes default) :
    OnlyTakes (do
      match ← select with
      | .item index => arm index
      | .default => default) := by
  refine starts.bind (fun selected => ?_)
  cases selected with
  | item index => exact items index
  | default => exact last

mutual
theorem PreciseEvaluator.takes : (eval : PreciseEvaluator PipeFun) →
    (target : EvaluationTarget) → PreciseTakes env eval target
  | .sql query, target => ⟨.pure _, .pure _, .pure _, .pure _⟩
  | .calculate expr, target => by
    have one := expr.extractOne_takes env target
    exact ⟨one.value _, one, one, one.value _⟩
  | .accessDirect op, target => by
    have one := op.extractOne_takes env target
    exact ⟨one.value _, one, one, one.value _⟩
  | .matchOn source items default, target => by
    have select := source.select_takes env (items.map MatchCase.cond) target
    have arms (index : Nat) := cases_take items index target
    have last := default_takes default target
    exact ⟨selected_takes select (fun index => (arms index).storageSync) last.storageSync,
      selected_takes select (fun index => (arms index).oneSync) last.oneSync,
      selected_takes select (fun index => (arms index).oneAsync) last.oneAsync,
      selected_takes select (fun index => (arms index).storageAsync) last.storageAsync⟩
  | .lookup dictSymbol key default compiled, target => by
    have keyed := (PreciseEvaluator.takes key target).oneAsync
    have last := (PreciseEvaluator.takes default target).storageAsync
    exact ⟨.pure _, .pure _, lookup_takes env compiled keyed (fun _ => .pure _) (last.value _),
      lookup_takes env compiled keyed (fun _ => .pure _) last⟩
  | .obj field, target => ⟨.pure _, .pure _, .pure _, .pure _⟩
  | .objArc field, target => ⟨.pure _, .pure _, .pure _, .pure _⟩
  | .tdc op, target => by
    have each := op.takes env target
    exact ⟨each.storage, each.one, each.oneAsync, each.storageAsync⟩
  | .map subs, target => by
    have both := members_take subs []
    exact ⟨both.1.value _, both.1.value _, both.2.value _, both.2.value _⟩
  | .objArray items, target => by
    have both := items_take items (.new (target.name.getD "_") .auto)
    exact ⟨both.1.value _, both.1.value _, both.2.value _, both.2.value _⟩
  | .pipe source items, target => by
    have each := PipeSource.takes source target
    exact ⟨each.storageSync.value _, each.oneSync.value _, each.oneAsync.value _,
      each.storageAsync.value _⟩
  | .builtin function, target => ⟨.pure _, .pure _, .pure _, .pure _⟩
  | .fmt op, target => by
    have one := op.extractOne_takes env target
    exact ⟨one.value _, one, one, one.value _⟩
  | .collect datCrate, target => by
    have one := collectOne_takes env datCrate target
    exact ⟨one.value _, one, one, one.value _⟩
  | .val value, target => ⟨.pure _, .pure _, .pure _, .pure _⟩
  | .staticSymbol symbol, target => ⟨.pure _, .pure _, .panicked, .panicked⟩

theorem NestedAccessor.takes : (arm : NestedAccessor PipeFun) → (target : EvaluationTarget) →
    NestedTakes env arm target
  | .field field, target => ⟨.pure _, .pure _, .pure _, .pure _⟩
  | .fieldArc field, target => ⟨.pure _, .pure _, .pure _, .pure _⟩
  | .direct op, target => by
    have each := op.takes env target
    exact ⟨each.one.value _, each.one, each.oneAsync, each.storageAsync⟩
  | .builtin function, target => ⟨.pure _, .pure _, .pure _, .pure _⟩
  | .collect datCrate, target => by
    have one := collectOne_takes env datCrate target
    exact ⟨one.value _, one, one, one.value _⟩
  | .map subs, target => by
    have both := members_take subs []
    exact ⟨both.1.value _, both.1.value _, both.2.value _, both.2.value _⟩
  | .objArray items, target => by
    have both := items_take items (.new (target.name.getD "_") .auto)
    exact ⟨both.1.value _, both.1.value _, both.2.value _, both.2.value _⟩
  | .pipe source items, target => by
    have each := PipeSource.takes source target
    exact ⟨each.oneSync.value _, each.oneSync.value _, each.oneAsync.value _,
      each.storageAsync.value _⟩
  | .staticSymbol symbol, target => ⟨.panicked, .panicked, .panicked, .panicked⟩

theorem members_take : (subs : List (NestedBinding PipeFun)) → (members : List Member) →
    OnlyTakes (membersSync env subs members) ∧ OnlyTakes (membersAsync env subs members)
  | [], members => ⟨.pure _, .pure _⟩
  | ⟨target, acquirer⟩ :: rest, members => by
    have first := NestedAccessor.takes acquirer target
    have others (members : List Member) := members_take rest members
    exact ⟨first.storageSync.bind (fun _ => (others _).1),
      first.storageAsync.bind (fun _ => (others _).2)⟩

theorem items_take : (items : List (PreciseEvaluator PipeFun)) → (target : EvaluationTarget) →
    OnlyTakes (itemsSync env items target) ∧ OnlyTakes (itemsAsync env items target)
  | [], target => ⟨.pure _, .pure _⟩
  | item :: rest, target => by
    have first := PreciseEvaluator.takes item target
    have others := items_take rest target
    exact ⟨first.itemSync.bind (fun _ => others.1.value _),
      first.oneAsync.bind (fun _ => others.2.value _)⟩

theorem PipeSource.takes : (source : PipeSource PipeFun) → (target : EvaluationTarget) →
    SourceTakes env source target
  | .accessor accessor, target => by
    have one := accessor.extractOne_takes env target
    exact ⟨one, one.value _, one, accessor.extractStorageAsync_takes env target⟩
  | .accessDirect op, target => by
    have one := op.extractOne_takes env target
    exact ⟨one, one.value _, one, one.value _⟩
  | .precise eval, target => by
    have each := PreciseEvaluator.takes eval target
    exact ⟨each.storageSync.value _, each.storageSync, each.oneAsync, each.storageAsync⟩

theorem cases_take : (items : List (MatchCase PipeFun)) → (index : Nat) →
    (target : EvaluationTarget) → CaseTakes env items index target
  | [], index, target => ⟨.pure _, .pure _, .pure _, .pure _⟩
  | ⟨cond, result⟩ :: rest, 0, target => by
    have arm := NestedAccessor.takes result target
    exact ⟨arm.storageSync, arm.oneSync, arm.oneAsync, arm.storageAsync⟩
  | ⟨cond, result⟩ :: rest, index + 1, target => by
    have others := cases_take rest index target
    exact ⟨others.storageSync, others.oneSync, others.oneAsync, others.storageAsync⟩

theorem default_takes : (default : Option (MatchCase PipeFun)) → (target : EvaluationTarget) →
    DefaultTakes env default target
  | none, target => ⟨.pure _, .pure _, .pure _, .pure _⟩
  | some ⟨cond, result⟩, target => by
    have arm := NestedAccessor.takes result target
    exact ⟨arm.storageSync, arm.oneSync, arm.oneAsync, arm.storageAsync⟩
end

end

/-- The pipe functions with `remove` among them. -/
inductive WithRemove (Fun : Type) where
  | remove
  | other (function : Fun)

/-- `Remove::value_cacu`. -/
def removed (field : DataField) : DataField := ⟨.ignore, field.name, .null⟩

/-- An environment with `remove` beside its own functions. -/
def Externals.withRemove {Fun : Type} (env : Externals Fun) : Externals (WithRemove Fun) where
  isEmpty := env.isEmpty
  ownedName := env.ownedName
  ownedName_self := env.ownedName_self
  valueCacu function field :=
    match function with | .remove => removed field | .other function => env.valueCacu function field
  isRemove function := match function with | .remove => true | .other _ => false
  metaConv := env.metaConv
  compareDatafield := env.compareDatafield
  matchWithFunction := env.matchWithFunction
  typeName := env.typeName
  wildMatches := env.wildMatches
  strfmt := env.strfmt
  now := env.now
  normalizeLookupKey := env.normalizeLookupKey
  isFinite := env.isFinite
  negate := env.negate
  evalBinary := env.evalBinary
  evalFun := env.evalFun
  parseIp := env.parseIp
  isIntranet := env.isIntranet

/-- Functions that end in `remove`; it can stand nowhere else. -/
def removing {Fun : Type} (functions : List Fun) : List (WithRemove Fun) :=
  functions.map .other ++ [.remove]

/-- Of the fields with these names none is left, all others are where they were. -/
structure RemovedExactly (targets : String → Bool) (before after : List FieldStorage) : Prop where
  gone : ∀ item ∈ after, targets item.getName = false
  kept : after.filter (fun item => !targets item.getName) =
    before.filter (fun item => !targets item.getName)

theorem removedExactly_iff (targets : String → Bool) (before after : List FieldStorage) :
    RemovedExactly targets before after ↔
      after = before.filter (fun item => !targets item.getName) := by
  constructor
  · intro exact_removal
    have none_gone : after.filter (fun item => !targets item.getName) = after := by
      rw [List.filter_eq_self]
      intro item member
      simp [exact_removal.gone item member]
    rw [← none_gone]
    exact exact_removal.kept
  · rintro rfl
    constructor
    · intro item member
      simpa using (List.mem_filter.mp member).2
    · rw [List.filter_filter]
      simp

theorem filter_agrees_iff {A : Type} {p q : A → Bool} {list part : List A}
    (sub : part.Sublist list) : part.filter p = list.filter q ↔
      part.filter q = list.filter q ∧ ∀ a ∈ part, p a = q a := by
  constructor
  · intro same
    have p_q : ∀ a ∈ part, p a = true → q a = true := by
      intro a member holds
      have found : a ∈ part.filter p := List.mem_filter.mpr ⟨member, holds⟩
      rw [same] at found
      exact (List.mem_filter.mp found).2
    have both : (part.filter q).filter p = part.filter p := by
      rw [List.filter_filter]
      apply List.filter_congr
      intro a member
      cases holds : p a with
      | false => simp
      | true => simp [p_q a member holds]
    -- the three lists are as long as each other, so that none of them leaves anything out
    have fewer : (part.filter q).length ≤ (list.filter q).length := (sub.filter q).length_le
    have least := ((part.filter q).filter_sublist (p := p)).length_le
    rw [both, same] at least
    have all := (sub.filter q).eq_of_length (by omega)
    refine ⟨all, ?_⟩
    intro a member
    cases holds : q a with
    | false =>
      cases wrong : p a with
      | false => rfl
      | true => simp [p_q a member wrong] at holds
    | true =>
      have found : a ∈ part.filter q := List.mem_filter.mpr ⟨member, holds⟩
      rw [all, ← same] at found
      exact (List.mem_filter.mp found).2
  · rintro ⟨all, agree⟩
    rw [← all]
    exact List.filter_congr agree

section

variable {Fun : Type} (env : Externals Fun) (functions : List Fun)

/-- The field through the functions before `remove`. -/
def piped (field : DataField) : DataField :=
  functions.foldl (fun field function => env.valueCacu function field) field

theorem piped_removing (field : DataField) :
    (removing functions).foldl (fun field function => env.withRemove.valueCacu function field)
      field = removed (piped env functions field) := by
  have others : (functions.map WithRemove.other).foldl
      (fun field function => env.withRemove.valueCacu function field) field =
        piped env functions field := by
    rw [List.foldl_map]
    rfl
  rw [removing, List.foldl_append, others]
  rfl

theorem removed_isRemoveMarker (field : DataField) :
    (FieldStorage.owned (removed field)).isRemoveMarker = true := rfl

theorem any_removing : (removing functions).any env.withRemove.isRemove = true := by
  simp [removing, Externals.withRemove]

/-- Whatever the source of the pipe gives, the result is a marker. -/
theorem pipeStorage_removing (target : EvaluationTarget) (read : Option FieldStorage) :
    ∃ storage, pipeStorage env.withRemove (removing functions) target read = some storage ∧
      storage.isRemoveMarker = true := by
  cases read with
  | none =>
    refine ⟨.owned (removeMarker target), ?_, rfl⟩
    simp only [pipeStorage, any_removing, if_true]
    rfl
  | some storage =>
    refine ⟨_, rfl, ?_⟩
    rw [removing, List.foldl_append]
    rfl

/-- What the source of a pipe reads, as the item is evaluated. -/
def readSource {PipeFun : Type} (env : Externals PipeFun) (sync : Bool)
    (source : PipeSource PipeFun) (target : EvaluationTarget) : Eval (Option FieldStorage) :=
  if sync then sourceStorageSync env source target else sourceStorageAsync env source target

theorem evalProc_removing (runQuery : RunQuery) (target : EvaluationTarget)
    (targets : List EvaluationTarget) (source : PipeSource (WithRemove Fun)) (sync : Bool)
    {state between : State} {found : Option FieldStorage}
    (read : readSource env.withRemove sync source target state = some (found, between)) :
    evalProc env.withRemove runQuery
      (.single (target :: targets) (.pipe source (removing functions)) sync) state =
        some ((), ⟨between.src,
          between.dst.filter (fun item => item.asField.name ≠ target.safeName)⟩) := by
  obtain ⟨storage, result, marker⟩ := pipeStorage_removing env functions target found
  have stored : emitSingleStorage env.withRemove storage target between.dst =
      between.dst.filter (fun item => item.asField.name ≠ target.safeName) := by
    simp only [emitSingleStorage, marker, if_true]
  cases sync with
  | true =>
    have ran : extractStorageSync env.withRemove (.pipe source (removing functions)) target state =
        some (some storage, between) := by
      simp only [readSource, if_true] at read
      rw [extractStorageSync, eval_bind, read]
      simp [result]
    rw [← stored]
    simp only [evalProc, evalSingle, if_true, eval_bind, ran]
    rfl
  | false =>
    have ran : extractStorageAsync env.withRemove (.pipe source (removing functions)) target state =
        some (some storage, between) := by
      simp only [readSource, Bool.false_eq_true, if_false] at read
      rw [extractStorageAsync, eval_bind, read]
      simp [result]
    rw [← stored]
    simp only [evalProc, evalSingle, Bool.false_eq_true, if_false, eval_bind, ran]
    rfl

/-- The names of the source fields that a batch item takes. -/
def batchTargets (target : EvaluationTarget) (src : List DataField) (name : String) : Bool :=
  src.any (fun field => batchMatches env.withRemove target field && field.name == name)

/-- The names of the markers it makes of them. -/
def batchMarkers (target : EvaluationTarget) (src : List DataField) (name : String) : Bool :=
  src.any (fun field =>
    batchMatches env.withRemove target field && (piped env functions field).name == name)

theorem batchField_removing (target : EvaluationTarget) (field : DataField) :
    batchField env.withRemove target (removing functions) field =
      some (removed (piped env functions field)) := by
  simp only [batchField, piped_removing, removed_isRemoveMarker, if_true]

theorem emitBatch_markers (dst : List FieldStorage) (fields : List DataField) :
    emitBatch dst (fields.map removed) =
      dst.filter (fun item => !fields.any (fun field => field.name == item.asField.name)) := by
  have none_added : (fields.map removed).filter
      (fun field => !(FieldStorage.owned field).isRemoveMarker) = [] := by
    rw [List.filter_eq_nil_iff]
    intro field member
    obtain ⟨origin, _, rfl⟩ := List.mem_map.mp member
    simp [removed_isRemoveMarker]
  unfold emitBatch
  dsimp only
  rw [none_added, List.map_nil, List.append_nil]
  apply List.filter_congr
  intro item _
  have each (field : DataField) : ((FieldStorage.owned (removed field)).isRemoveMarker &&
      decide (item.asField.name = (removed field).name)) = (field.name == item.asField.name) := by
    rw [removed_isRemoveMarker, Bool.true_and, Bool.eq_iff_iff, decide_eq_true_iff, beq_iff_eq]
    exact eq_comm
  simp only [List.any_map, Function.comp_def, each]

theorem evalProc_batch_removing (runQuery : RunQuery) (target : EvaluationTarget)
    (op : RecordOperation) (state : State) :
    evalProc env.withRemove runQuery (.batch target (.pipe op (removing functions))) state =
      some ((), ⟨state.src.filter (fun field => !batchMatches env.withRemove target field),
        state.dst.filter (fun item =>
          !batchMarkers env functions target state.src item.asField.name)⟩) := by
  have needs : batchNeeds (batchMatches env.withRemove target) state [] =
      (state.src.filter (batchMatches env.withRemove target),
        state.src.filter (fun field => !batchMatches env.withRemove target field)) := by
    rw [batchNeeds, List.partition_eq_filter_filter]
    simp [Function.comp_def]
  have markers (fields : List DataField) :
      fields.filterMap (batchField env.withRemove target (removing functions)) =
        (fields.map (piped env functions)).map removed := by
    rw [List.map_map, ← List.filterMap_eq_map]
    congr 1
    funext field
    exact batchField_removing env functions target field
  simp only [evalProc, evalBatch, any_removing, if_true, needs, markers, emitBatch_markers]
  congr 3
  apply List.filter_congr
  intro item _
  rw [batchMarkers, List.any_map, List.any_filter]
  rfl

theorem batch_removes_iff {markers targets : String → Bool} {dst : List FieldStorage} :
    RemovedExactly targets dst (dst.filter (fun item => !markers item.asField.name)) ↔
      ∀ item ∈ dst, markers item.asField.name = targets item.getName := by
  rw [removedExactly_iff, filter_agrees_iff (List.Sublist.refl dst)]
  simp only [Bool.not_inj_iff, true_and]

/-- A single `x = source | remove` deletes `x` and nothing else if and only if its source takes
no other field out of the target record and of the fields that it leaves those made with the
name `x` are those that have it. A batch item deletes the fields with the names that it takes,
or with the names its pattern matches, and nothing else if and only if the fields with these
names are those that were made with the name of a marker. -/
theorem remove_deletes_its_target_iff (runQuery : RunQuery) (target : EvaluationTarget) :
    (∀ targets source sync state found between,
      readSource env.withRemove sync source target state = some (found, between) →
      ∃ after, evalProc env.withRemove runQuery
          (.single (target :: targets) (.pipe source (removing functions)) sync) state =
            some ((), after) ∧
        (RemovedExactly (fun name => name == target.safeName) state.dst after.dst ↔
          between.dst.filter (fun item => !(item.getName == target.safeName)) =
              state.dst.filter (fun item => !(item.getName == target.safeName)) ∧
            ∀ item ∈ between.dst,
              (item.asField.name = target.safeName ↔ item.getName = target.safeName))) ∧
    (∀ op state, ∃ after, evalProc env.withRemove runQuery
        (.batch target (.pipe op (removing functions))) state = some ((), after) ∧
      (RemovedExactly (batchTargets env target state.src) state.dst after.dst ↔
        ∀ item ∈ state.dst, batchMarkers env functions target state.src item.asField.name =
          batchTargets env target state.src item.getName) ∧
      (RemovedExactly (env.wildMatches target.safeName) state.dst after.dst ↔
        ∀ item ∈ state.dst, batchMarkers env functions target state.src item.asField.name =
          env.wildMatches target.safeName item.getName)) := by
  constructor
  · intro targets source sync state found between read
    refine ⟨_, evalProc_removing env functions runQuery target targets source sync read, ?_⟩
    have sub : between.dst.Sublist state.dst := by
      have takes := source.takes env.withRemove target
      cases sync with
      | true => exact takes.storageSync state (found, between) read
      | false => exact takes.storageAsync state (found, between) read
    rw [removedExactly_iff, filter_agrees_iff sub]
    refine and_congr_right (fun _ => forall_congr' (fun item => imp_congr_right (fun _ => ?_)))
    by_cases own : item.asField.name = target.safeName <;>
      by_cases current : item.getName = target.safeName <;> simp [own, current]
  · intro op state
    exact ⟨_, evalProc_batch_removing env functions runQuery target op state,
      batch_removes_iff, batch_removes_iff⟩

end

/-- `city = read(none) | remove ;` after `city = ... ;` -/
theorem removes_own_field : ∃ after,
    evalProc skipEmptyOnly.withRemove (fun _ _ => [])
        (.single [.new "city" .auto] (.pipe (.accessor (readOf "none")) (removing [])) true)
        ⟨[], [.owned (.fromChars "city" "bj"), .owned (.fromChars "zone" "n")]⟩ =
          some ((), after) ∧
      RemovedExactly (fun name => name == "city")
        [.owned (.fromChars "city" "bj"), .owned (.fromChars "zone" "n")] after.dst := by
  obtain ⟨after, ran, exact_iff⟩ := (remove_deletes_its_target_iff skipEmptyOnly [] (fun _ _ => [])
    (.new "city" .auto)).1 [] (.accessor (readOf "none")) true
    ⟨[], [.owned (.fromChars "city" "bj"), .owned (.fromChars "zone" "n")]⟩ none
    ⟨[], [.owned (.fromChars "city" "bj"), .owned (.fromChars "zone" "n")]⟩ rfl
  refine ⟨after, ran, exact_iff.mpr ⟨rfl, ?_⟩⟩
  intro item member
  rcases List.mem_cons.mp member with rfl | member
  · exact Iff.rfl
  · rw [List.mem_singleton.mp member]
    exact Iff.rfl

/-- `site = SITE ; site = read(none) | remove ;`, with `SITE` a static field: `site` stays. -/
theorem renamed_static_field_stays :
    evalItems skipEmptyOnly.withRemove (fun _ _ => [])
        [.single [.new "site" .auto] (.objArc (.fromChars "SITE" "bj")) true,
          .single [.new "site" .auto] (.pipe (.accessor (readOf "none")) (removing [])) true]
        ⟨[], []⟩ = some ((), ⟨[], [.shared (.fromChars "SITE" "bj") "site"]⟩) ∧
      ¬ RemovedExactly (fun name => name == "site") [.shared (.fromChars "SITE" "bj") "site"]
        [.shared (.fromChars "SITE" "bj") "site"] := by
  refine ⟨rfl, ?_⟩
  intro exact_removal
  have gone := exact_removal.gone _ (List.mem_singleton.mpr rfl)
  exact absurd gone (by decide)

end WarpMotor.Oml
