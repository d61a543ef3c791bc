import WarpMotor.Oml.Extract

/-!
Evaluation of an expression for one target, synchronous and asynchronous, each
to an owned field and to a storage. The four differ in what they share and in
what they can evaluate at all: a synchronous evaluator knows no lookup.
-/
namespace WarpMotor.Oml

variable {PipeFun : Type} (env : Externals PipeFun)

def owned (field : Option DataField) : Option FieldStorage := field.map .fromOwned

mutual
/-- `extract_storage_sync`. -/
def extractStorageSync : PreciseEvaluator PipeFun → EvaluationTarget → Eval (Option FieldStorage)
  | .sql _, _ | .lookup _ _ _ _, _ | .staticSymbol _, _ => pure none
  | .tdc op, target => op.extractStorage env target
  | .map subs, target => do
    return some (.fromOwned (.fromObj (target.name.getD "_") (← membersSync subs [])))
  | .objArray items, target => do
    return owned (arrayField target (← itemsSync items (.new (target.name.getD "_") .auto)))
  | .pipe source items, target => do
    return pipeStorage env items target (← sourceStorageSync source target)
  | .builtin function, target =>
    pure (some (.fromOwned (env.now function (target.name.getD "_"))))
  | .fmt op, target => do return owned (← op.extractOne env target)
  | .collect datCrate, target => do return owned (← collectOne env datCrate target)
  | .calculate expr, target => do return owned (← expr.extractOne env target)
  | .accessDirect op, target => do return owned (← op.extractOne env target)
  | .matchOn source items default, target => do
    match ← source.select env (items.map MatchCase.cond) target with
    | .item index => caseStorageSync items index target
    | .default => defaultStorageSync default target
  | .obj field, _ => pure (some (.fromOwned field))
  | .objArc field, _ => pure (some (.fromShared field))
  | .val value, target => pure (some (.fromOwned (valueField value target)))

/-- `NestedAccessor::extract_storage`: only a static field is shared. -/
def nestedStorageSync : NestedAccessor PipeFun → EvaluationTarget → Eval (Option FieldStorage)
  | .fieldArc field, _ => pure (some (.fromShared field))
  | .field field, _ => pure (some (.fromOwned field))
  | .direct op, target => do return owned (← op.extractOne env target)
  | .builtin function, target =>
    pure (some (.fromOwned (env.now function (target.name.getD "_"))))
  | .collect datCrate, target => do return owned (← collectOne env datCrate target)
  | .map subs, target => do
    return some (.fromOwned (.fromObj (target.name.getD "_") (← membersSync subs [])))
  | .objArray items, target => do
    return owned (arrayField target (← itemsSync items (.new (target.name.getD "_") .auto)))
  | .pipe source items, target => do
    return owned (pipeOne env items target (← sourceOneSync source target))
  | .staticSymbol _, _ => panicked

/-- `NestedAccessor::extract_one`. -/
def nestedOneSync : NestedAccessor PipeFun → EvaluationTarget → Eval (Option DataField)
  | .field field, _ | .fieldArc field, _ => pure (some field)
  | .direct op, target => op.extractOne env target
  | .builtin function, target => pure (some (env.now function (target.name.getD "_")))
  | .collect datCrate, target => collectOne env datCrate target
  | .map subs, target => do
    return some (.fromObj (target.name.getD "_") (← membersSync subs []))
  | .objArray items, target => do
    return arrayField target (← itemsSync items (.new (target.name.getD "_") .auto))
  | .pipe source items, target => do
    return pipeOne env items target (← sourceOneSync source target)
  | .staticSymbol _, _ => panicked

def membersSync : List (NestedBinding PipeFun) → List Member → Eval (List Member)
  | [], members => pure members
  | ⟨target, acquirer⟩ :: rest, members => do
    let storage ← nestedStorageSync acquirer target
    membersSync rest (putMember env members target storage)

def itemsSync : List (PreciseEvaluator PipeFun) → EvaluationTarget → Eval (List DataField)
  | [], _ => pure []
  | item :: rest, target => do
    let field ← itemOneSync item target
    return keepItem field (← itemsSync rest target)

/-- `eval_item_sync`. -/
def itemOneSync : PreciseEvaluator PipeFun → EvaluationTarget → Eval (Option DataField)
  | .map subs, target => do
    return some (.fromObj (target.name.getD "_") (← membersSync subs []))
  | .tdc op, target => op.extractOne env target
  | .builtin function, target => pure (some (env.now function (target.name.getD "_")))
  | .collect datCrate, target => collectOne env datCrate target
  | .obj field, _ | .objArc field, _ => pure (some field)
  | .val value, target => pure (some (valueField value target))
  | .calculate expr, target => expr.extractOne env target
  | .objArray items, target => do
    return arrayField target (← itemsSync items (.new (target.name.getD "_") .auto))
  | .pipe source items, target => do
    return pipeOne env items target (← sourceOneSync source target)
  | .accessDirect op, target => op.extractOne env target
  | .fmt op, target => op.extractOne env target
  | .matchOn source items default, target => do
    match ← source.select env (items.map MatchCase.cond) target with
    | .item index => caseOneSync items index target
    | .default => defaultOneSync default target
  | .sql _, _ | .lookup _ _ _ _, _ | .staticSymbol _, _ => pure none

def sourceOneSync : PipeSource PipeFun → EvaluationTarget → Eval (Option DataField)
  | .accessor accessor, target => accessor.extractOne env target
  | .accessDirect op, target => op.extractOne env target
  | .precise eval, target => do return (← extractStorageSync eval target).map env.own

def sourceStorageSync : PipeSource PipeFun → EvaluationTarget → Eval (Option FieldStorage)
  | .accessor accessor, target => accessor.extractStorage env target
  | .accessDirect op, target => do return owned (← op.extractOne env target)
  | .precise eval, target => extractStorageSync eval target

def caseStorageSync : List (MatchCase PipeFun) → Nat → EvaluationTarget →
    Eval (Option FieldStorage)
  | [], _, _ => pure none
  | ⟨_, result⟩ :: _, 0, target => nestedStorageSync result target
  | _ :: rest, index + 1, target => caseStorageSync rest index target

def defaultStorageSync : Option (MatchCase PipeFun) → EvaluationTarget →
    Eval (Option FieldStorage)
  | none, _ => pure none
  | some ⟨_, result⟩, target => nestedStorageSync result target

def caseOneSync : List (MatchCase PipeFun) → Nat → EvaluationTarget → Eval (Option DataField)
  | [], _, _ => pure none
  | ⟨_, result⟩ :: _, 0, target => nestedOneSync result target
  | _ :: rest, index + 1, target => caseOneSync rest index target

def defaultOneSync : Option (MatchCase PipeFun) → EvaluationTarget → Eval (Option DataField)
  | none, _ => pure none
  | some ⟨_, result⟩, target => nestedOneSync result target
end

/-- An entry of the compiled dictionary, when the key is text. -/
def lookupEntry (compiled : Option LookupDict) (key : Option DataField) : Option DataField :=
  match key, compiled with
  | some field, some dict =>
    match field.value with
    | .chars raw => (dict.find? (fun entry => entry.1 = env.normalizeLookupKey raw)).map Prod.snd
    | _ => none
  | _, _ => none

mutual
/-- `extract_one_async`. -/
def extractOneAsync : PreciseEvaluator PipeFun → EvaluationTarget → Eval (Option DataField)
  | .sql _, _ => pure none
  | .matchOn source items default, target => do
    match ← source.select env (items.map MatchCase.cond) target with
    | .item index => caseOneAsync items index target
    | .default => defaultOneAsync default target
  | .lookup _ key default compiled, target => do
    match lookupEntry env compiled (← extractOneAsync key target) with
    | some found => return some (env.own (.fromShared found))
    | none => return (← extractStorageAsync default target).map env.own
  | .tdc op, target => op.extractOneAsync env target
  | .map subs, target => do
    return some (.fromObj (target.name.getD "_") (← membersAsync subs []))
  | .objArray items, target => do
    return arrayField target (← itemsAsync items (.new (target.name.getD "_") .auto))
  | .pipe source items, target => do
    return pipeOne env items target (← sourceOneAsync source target)
  | .builtin function, target => pure (some (env.now function (target.name.getD "_")))
  | .collect datCrate, target => collectOne env datCrate target
  | .val value, target => pure (some (valueField value target))
  | .obj field, _ | .objArc field, _ => pure (some field)
  | .calculate expr, target => expr.extractOne env target
  | .accessDirect op, target => op.extractOne env target
  | .fmt op, target => op.extractOne env target
  | .staticSymbol _, _ => panicked

/-- `extract_storage_async`. -/
def extractStorageAsync : PreciseEvaluator PipeFun → EvaluationTarget → Eval (Option FieldStorage)
  | .sql _, _ => pure none
  | .matchOn source items default, target => do
    match ← source.select env (items.map MatchCase.cond) target with
    | .item index => caseStorageAsync items index target
    | .default => defaultStorageAsync default target
  | .lookup _ key default compiled, target => do
    match lookupEntry env compiled (← extractOneAsync key target) with
    | some found => return some (.fromShared found)
    | none => extractStorageAsync default target
  | .tdc op, target => op.extractStorageAsync env target
  | .map subs, target => do
    return some (.fromOwned (.fromObj (target.name.getD "_") (← membersAsync subs [])))
  | .objArray items, target => do
    return owned (arrayField target (← itemsAsync items (.new (target.name.getD "_") .auto)))
  | .pipe source items, target => do
    return pipeStorage env items target (← sourceStorageAsync source target)
  | .builtin function, target =>
    pure (some (.fromOwned (env.now function (target.name.getD "_"))))
  | .collect datCrate, target => do return owned (← collectOne env datCrate target)
  | .val value, target => pure (some (.fromOwned (valueField value target)))
  | .obj field, _ => pure (some (.fromOwned field))
  | .calculate expr, target => do return owned (← expr.extractOne env target)
  | .accessDirect op, target => do return owned (← op.extractOne env target)
  | .fmt op, target => do return owned (← op.extractOne env target)
  | .objArc field, _ => pure (some (.fromShared field))
  | .staticSymbol _, _ => panicked

def nestedOneAsync : NestedAccessor PipeFun → EvaluationTarget → Eval (Option DataField)
  | .field field, _ | .fieldArc field, _ => pure (some field)
  | .direct op, target => op.extractOneAsync env target
  | .builtin function, target => pure (some (env.now function (target.name.getD "_")))
  | .collect datCrate, target => collectOne env datCrate target
  | .map subs, target => do
    return some (.fromObj (target.name.getD "_") (← membersAsync subs []))
  | .objArray items, target => do
    return arrayField target (← itemsAsync items (.new (target.name.getD "_") .auto))
  | .pipe source items, target => do
    return pipeOne env items target (← sourceOneAsync source target)
  | .staticSymbol _, _ => panicked

def nestedStorageAsync : NestedAccessor PipeFun → EvaluationTarget → Eval (Option FieldStorage)
  | .field field, _ | .fieldArc field, _ => pure (some (.fromOwned field))
  | .direct op, target => op.extractStorageAsync env target
  | .builtin function, target =>
    pure (some (.fromOwned (env.now function (target.name.getD "_"))))
  | .collect datCrate, target => do return owned (← collectOne env datCrate target)
  | .map subs, target => do
    return some (.fromOwned (.fromObj (target.name.getD "_") (← membersAsync subs [])))
  | .objArray items, target => do
    return owned (arrayField target (← itemsAsync items (.new (target.name.getD "_") .auto)))
  | .pipe source items, target => do
    return pipeStorage env items target (← sourceStorageAsync source target)
  | .staticSymbol _, _ => panicked

def membersAsync : List (NestedBinding PipeFun) → List Member → Eval (List Member)
  | [], members => pure members
  | ⟨target, acquirer⟩ :: rest, members => do
    let storage ← nestedStorageAsync acquirer target
    membersAsync rest (putMember env members target storage)

def itemsAsync : List (PreciseEvaluator PipeFun) → EvaluationTarget → Eval (List DataField)
  | [], _ => pure []
  | item :: rest, target => do
    let field ← extractOneAsync item target
    return keepItem field (← itemsAsync rest target)

def sourceOneAsync : PipeSource PipeFun → EvaluationTarget → Eval (Option DataField)
  | .accessor accessor, target => accessor.extractOne env target
  | .accessDirect op, target => op.extractOne env target
  | .precise eval, target => extractOneAsync eval target

def sourceStorageAsync : PipeSource PipeFun → EvaluationTarget → Eval (Option FieldStorage)
  | .accessor accessor, target => accessor.extractStorageAsync env target
  | .accessDirect op, target => do return owned (← op.extractOne env target)
  | .precise eval, target => extractStorageAsync eval target

def caseOneAsync : List (MatchCase PipeFun) → Nat → EvaluationTarget → Eval (Option DataField)
  | [], _, _ => pure none
  | ⟨_, result⟩ :: _, 0, target => nestedOneAsync result target
  | _ :: rest, index + 1, target => caseOneAsync rest index target

def defaultOneAsync : Option (MatchCase PipeFun) → EvaluationTarget → Eval (Option DataField)
  | none, _ => pure none
  | some ⟨_, result⟩, target => nestedOneAsync result target

def caseStorageAsync : List (MatchCase PipeFun) → Nat → EvaluationTarget →
    Eval (Option FieldStorage)
  | [], _, _ => pure none
  | ⟨_, result⟩ :: _, 0, target => nestedStorageAsync result target
  | _ :: rest, index + 1, target => caseStorageAsync rest index target

def defaultStorageAsync : Option (MatchCase PipeFun) → EvaluationTarget →
    Eval (Option FieldStorage)
  | none, _ => pure none
  | some ⟨_, result⟩, target => nestedStorageAsync result target
end

/-- Evaluated synchronously, decided by the outermost constructor and by the source of a pipe. -/
def supportSync : PreciseEvaluator PipeFun → Bool
  | .sql _ | .lookup _ _ _ _ | .staticSymbol _ => false
  | .pipe (.precise eval) _ => supportSync eval
  | _ => true

/-- The arm that is taken, if there is one. -/
def takenArm (items : List (MatchCase PipeFun)) (default : Option (MatchCase PipeFun)) :
    Selected → Option (NestedAccessor PipeFun)
  | .item index => items[index]?.map MatchCase.result
  | .default => default.map MatchCase.result

/-- A walk along the cases runs the arm of the case with the index. -/
theorem walk_eq {β : Type} (walk : List (MatchCase PipeFun) → Nat → Eval (Option β))
    {runArm : NestedAccessor PipeFun → Eval (Option β)} (nil : ∀ index, walk [] index = pure none)
    (zero : ∀ cond result rest, walk (.mk cond result :: rest) 0 = runArm result)
    (succ : ∀ item rest index, walk (item :: rest) (index + 1) = walk rest index)
    (items : List (MatchCase PipeFun)) (index : Nat) : walk items index =
      match items[index]?.map MatchCase.result with
      | none => pure none
      | some arm => runArm arm := by
  induction items generalizing index with
  | nil => simp [nil]
  | cons item rest ih =>
    obtain ⟨cond, result⟩ := item
    cases index with
    | zero => simp [zero, MatchCase.result]
    | succ index => simp [succ, ih]

theorem caseStorageSync_eq (items : List (MatchCase PipeFun)) (index : Nat)
    (target : EvaluationTarget) : caseStorageSync env items index target =
      match items[index]?.map MatchCase.result with
      | none => pure none
      | some arm => nestedStorageSync env arm target := by
  apply walk_eq (fun items index => caseStorageSync env items index target)
  case nil => simp [caseStorageSync]
  case zero => simp [caseStorageSync]
  case succ =>
    intro item
    cases item
    simp [caseStorageSync]

theorem caseStorageAsync_eq (items : List (MatchCase PipeFun)) (index : Nat)
    (target : EvaluationTarget) : caseStorageAsync env items index target =
      match items[index]?.map MatchCase.result with
      | none => pure none
      | some arm => nestedStorageAsync env arm target := by
  apply walk_eq (fun items index => caseStorageAsync env items index target)
  case nil => simp [caseStorageAsync]
  case zero => simp [caseStorageAsync]
  case succ =>
    intro item
    cases item
    simp [caseStorageAsync]

theorem caseOneAsync_eq (items : List (MatchCase PipeFun)) (index : Nat)
    (target : EvaluationTarget) : caseOneAsync env items index target =
      match items[index]?.map MatchCase.result with
      | none => pure none
      | some arm => nestedOneAsync env arm target := by
  apply walk_eq (fun items index => caseOneAsync env items index target)
  case nil => simp [caseOneAsync]
  case zero => simp [caseOneAsync]
  case succ =>
    intro item
    cases item
    simp [caseOneAsync]

/-- A match evaluates the arm that is taken. -/
theorem matchOn_storageSync (source : MatchSource) (items : List (MatchCase PipeFun))
    (default : Option (MatchCase PipeFun)) (target : EvaluationTarget) :
    extractStorageSync env (.matchOn source items default) target = (do
      match takenArm items default (← source.select env (items.map MatchCase.cond) target) with
      | none => pure none
      | some arm => nestedStorageSync env arm target) := by
  rw [extractStorageSync]
  congr 1
  funext arm
  cases arm with
  | item index => exact caseStorageSync_eq env items index target
  | default =>
    cases default with
    | none => rw [defaultStorageSync]; rfl
    | some item => cases item; rw [defaultStorageSync]; rfl

theorem matchOn_storageAsync (source : MatchSource) (items : List (MatchCase PipeFun))
    (default : Option (MatchCase PipeFun)) (target : EvaluationTarget) :
    extractStorageAsync env (.matchOn source items default) target = (do
      match takenArm items default (← source.select env (items.map MatchCase.cond) target) with
      | none => pure none
      | some arm => nestedStorageAsync env arm target) := by
  rw [extractStorageAsync]
  congr 1
  funext arm
  cases arm with
  | item index => exact caseStorageAsync_eq env items index target
  | default =>
    cases default with
    | none => rw [defaultStorageAsync]; rfl
    | some item => cases item; rw [defaultStorageAsync]; rfl

theorem matchOn_oneAsync (source : MatchSource) (items : List (MatchCase PipeFun))
    (default : Option (MatchCase PipeFun)) (target : EvaluationTarget) :
    extractOneAsync env (.matchOn source items default) target = (do
      match takenArm items default (← source.select env (items.map MatchCase.cond) target) with
      | none => pure none
      | some arm => nestedOneAsync env arm target) := by
  rw [extractOneAsync]
  congr 1
  funext arm
  cases arm with
  | item index => exact caseOneAsync_eq env items index target
  | default =>
    cases default with
    | none => rw [defaultOneAsync]; rfl
    | some item => cases item; rw [defaultOneAsync]; rfl

end WarpMotor.Oml
