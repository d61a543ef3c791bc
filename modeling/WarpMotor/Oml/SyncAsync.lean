import WarpMotor.Lib.Relate
import WarpMotor.Oml.ZeroCopy

/-!
The synchronous evaluation against the asynchronous one. A lookup inside an
`object` is not evaluated synchronously, a read of a shared field of the target
record has another name, and the members of an `object` are shared in one
evaluation and owned in the other. The last cannot be seen in the object
itself; what takes the object apart, a pipe function or a conversion, may see
it.
-/
namespace WarpMotor.Oml

open Relate

def DataField.plain (field : DataField) : DataField := ⟨field.info, field.name, field.value.plain⟩

/-- With `exact` the thing itself, without what is left when sharing is forgotten. -/
def seenValue (exact : Bool) (value : Value) : Value := if exact then value else value.plain
def seenField (exact : Bool) (field : DataField) : DataField := if exact then field else field.plain
def seenMembers (exact : Bool) (members : List Member) : List Member :=
  if exact then members else plainMembers members

/-- The member is converted to the type of its target. -/
def EvaluationTarget.converts (target : EvaluationTarget) (info : DataType) : Bool :=
  target.dataType ≠ info && target.dataType ≠ .auto

/-- A shared field is not kept as a member: it is converted, or it removes the member. -/
def dropsSharing (target : EvaluationTarget) (field : DataField) : Prop :=
  target.converts field.info = true ∨ (FieldStorage.owned field).isRemoveMarker = true

variable {PipeFun : Type} (env : Externals PipeFun)

/-- A shared field that goes into a pipe has its own name there. -/
def KeepsOwnName (read : Option (DataField × String)) : Prop :=
  ∀ field curName, read = some (field, curName) → env.ownedName field.name curName = field.name

mutual
/-- The members of an `object`, each from the records that those before it leave. -/
def MembersAgree (exact : Bool) : List (NestedBinding PipeFun) → State → Prop
  | [], _ => True
  | ⟨target, acquirer⟩ :: rest, state => MemberAgrees exact acquirer target state ∧
      ∀ storage after, nestedStorageSync env acquirer target state = some (storage, after) →
        MembersAgree exact rest after

def MemberAgrees (exact : Bool) : NestedAccessor PipeFun → EvaluationTarget → State → Prop
  | .fieldArc field, target, _ => exact = true → dropsSharing target field
  | .direct op, target, state => exact = true → ∀ field curName,
      op.datGet.sharedRead env target state = some (field, curName) → dropsSharing target field
  | .map subs, target, state => MembersAgree (exact || target.converts .obj) subs state
  | .objArray items, target, state =>
    ItemsAgree (exact || target.converts .array) items (.new (target.name.getD "_") .auto) state
  | .pipe source _, target, state => SourceAgrees source target state
  | .field _, _, _ | .builtin _, _, _ | .collect _, _, _ | .staticSymbol _, _, _ => True

def ItemsAgree (exact : Bool) : List (PreciseEvaluator PipeFun) → EvaluationTarget → State → Prop
  | [], _, _ => True
  | item :: rest, target, state => ItemAgrees exact item target state ∧
      ∀ field after, itemOneSync env item target state = some (field, after) →
        ItemsAgree exact rest target after

def ItemAgrees (exact : Bool) : PreciseEvaluator PipeFun → EvaluationTarget → State → Prop
  | .map subs, _, state => MembersAgree exact subs state
  | .objArray items, target, state =>
    ItemsAgree exact items (.new (target.name.getD "_") .auto) state
  | _, _, _ => True

def SourceAgrees : PipeSource PipeFun → EvaluationTarget → State → Prop
  | .accessor accessor, target, state => KeepsOwnName env (accessor.sharedRead env target state)
  | .accessDirect _, _, _ => True
  | .precise eval, target, state => OwnedAgrees eval target state

/-- The source of a pipe: no lookup, no shared field under a new name, and no `object` with a
    shared field as a member. -/
def OwnedAgrees : PreciseEvaluator PipeFun → EvaluationTarget → State → Prop
  | .lookup _ _ _ _, _, _ => False
  | .tdc op, target, state => KeepsOwnName env (op.datGet.sharedRead env target state) ∧
      ∀ field after, op.datGet.extractOne env target state = some (none, after) →
        op.defaultVal = some (.fieldArc field) →
          env.ownedName field.name (target.name.getD "_") = target.name.getD "_"
  | .matchOn source items default, target, state => KeepsOwnName env
      ((PreciseEvaluator.matchOn source items default).sharedRead env target state)
  | .map subs, _, state => MembersAgree true subs state
  | .objArray items, target, state =>
    ItemsAgree true items (.new (target.name.getD "_") .auto) state
  | _, _, _ => True
end

/-- The evaluation meets none of the three. -/
def SyncAgrees (eval : PreciseEvaluator PipeFun) (target : EvaluationTarget) (state : State) :
    Prop :=
  match eval with
  | .map subs => MembersAgree env false subs state
  | .objArray items => ItemsAgree env false items (.new (target.name.getD "_") .auto) state
  | .pipe source _ => SourceAgrees env source target state
  | eval => ∀ field curName,
      eval.sharedRead env target state = some (field, curName) → curName = field.name

def seenStorage (exact : Bool) (storage : FieldStorage) : FieldStorage :=
  if exact then storage else storage.plainStorage

theorem plainStorage_eq (storage : FieldStorage) : storage.plainStorage = .owned storage.view := by
  cases storage with
  | owned field =>
    cases field
    rw [FieldStorage.plainStorage]
    rfl
  | shared field curName =>
    cases field
    rw [FieldStorage.plainStorage]
    rfl

theorem plainMembers_eq (members : List Member) : plainMembers members =
    members.map (fun member => ⟨member.key, member.storage.plainStorage⟩) := by
  induction members with
  | nil => rw [plainMembers]; rfl
  | cons member rest ih =>
    cases member
    rw [plainMembers, ih]
    rfl

theorem plainItems_eq (items : List FieldStorage) :
    plainItems items = items.map FieldStorage.plainStorage := by
  induction items with
  | nil => rw [plainItems]; rfl
  | cons item rest ih =>
    rw [plainItems, ih]
    rfl

theorem plain_isNull (value : Value) : value.plain.isNull = value.isNull := by
  cases value <;> rw [Value.plain] <;> rfl

theorem plain_isIgnore (value : Value) : value.plain.isIgnore = value.isIgnore := by
  cases value <;> rw [Value.plain] <;> rfl

theorem seenMembers_remove (exact : Bool) (members : List Member) (key : String) :
    seenMembers exact (removeMember members key) = removeMember (seenMembers exact members) key := by
  cases exact with
  | true => rfl
  | false => simp [seenMembers, removeMember, plainMembers_eq, List.filter_map, Function.comp_def]

theorem seenMembers_insert (exact : Bool) (members : List Member) (key : String)
    (storage : FieldStorage) : seenMembers exact (insertMember members key storage) =
      insertMember (seenMembers exact members) key (seenStorage exact storage) := by
  cases exact with
  | true => rfl
  | false =>
    have removed := seenMembers_remove false members key
    simp only [seenMembers, Bool.false_eq_true, if_false, plainMembers_eq] at removed
    simp [seenMembers, insertMember, plainMembers_eq, seenStorage, removed]

theorem seenValue_isNull {exact : Bool} {first second : Value}
    (same : seenValue exact first = seenValue exact second) : first.isNull = second.isNull := by
  cases exact with
  | true =>
    cases same
    rfl
  | false =>
    rw [← plain_isNull first, ← plain_isNull second]
    exact congrArg Value.isNull same

theorem seenValue_isIgnore {exact : Bool} {first second : Value}
    (same : seenValue exact first = seenValue exact second) :
    first.isIgnore = second.isIgnore := by
  cases exact with
  | true =>
    cases same
    rfl
  | false =>
    rw [← plain_isIgnore first, ← plain_isIgnore second]
    exact congrArg Value.isIgnore same

/-- Two storages that an `object` makes the same member of. -/
structure Stored (exact : Bool) (target : EvaluationTarget) (first second : FieldStorage) : Prop where
  info : first.getMeta = second.getMeta
  value : seenValue (exact || target.converts first.getMeta) first.asField.value =
    seenValue (exact || target.converts first.getMeta) second.asField.value
  sharing : exact = true → (first.isShared = false ∧ second.isShared = false) ∨
    target.converts first.getMeta = true ∨ first.isRemoveMarker = true

theorem Stored.marker {exact : Bool} {target : EvaluationTarget} {first second : FieldStorage}
    (stored : Stored exact target first second) :
    first.isRemoveMarker = second.isRemoveMarker := by
  unfold FieldStorage.isRemoveMarker
  rw [stored.info, seenValue_isNull stored.value]

theorem own_setName (storage : FieldStorage) (name : String) :
    (env.own storage).setName name = storage.asField.setName name := by
  cases storage <;> rfl

theorem rename_plain (storage : FieldStorage) (name : String) :
    (env.rename storage name).view = (storage.asField.setName name).plain := by
  cases storage <;> rfl

theorem Stored.putMember {exact : Bool} {target : EvaluationTarget} {first second : FieldStorage}
    (stored : Stored exact target first second) {members others : List Member}
    (same : seenMembers exact members = seenMembers exact others) :
    seenMembers exact (putMember env members target (some first)) =
      seenMembers exact (putMember env others target (some second)) := by
  have info := stored.info
  dsimp only [Oml.putMember]
  rw [← stored.marker, ← info]
  by_cases marker : first.isRemoveMarker = true
  · rw [if_pos marker, if_pos marker, seenMembers_remove, seenMembers_remove, same]
  rw [if_neg marker, if_neg marker]
  by_cases converted : target.dataType ≠ first.getMeta ∧ target.dataType ≠ .auto
  · -- A conversion starts from the same owned field.
    have converts : target.converts first.getMeta = true := by
      simpa [EvaluationTarget.converts] using converted
    have value := stored.value
    rw [converts, Bool.or_true] at value
    have fields : first.asField.setName target.safeName =
        second.asField.setName target.safeName :=
      congrArg₂ (fun info value => DataField.mk info target.safeName value) info value
    rw [if_pos converted, if_pos converted, seenMembers_insert, seenMembers_insert, same,
      own_setName, own_setName, fields]
  · have kept : target.converts first.getMeta = false := by
      simpa [EvaluationTarget.converts] using converted
    have value := stored.value
    rw [kept, Bool.or_false] at value
    rw [if_neg converted, if_neg converted, seenMembers_insert, seenMembers_insert, same]
    congr 1
    cases exact with
    | false =>
      have fields : (first.asField.setName target.safeName).plain =
          (second.asField.setName target.safeName).plain := by
        unfold DataField.plain
        exact congrArg₂ (fun info value => DataField.mk info target.safeName value) info value
      simp only [seenStorage, Bool.false_eq_true, if_false, plainStorage_eq, rename_plain, fields]
    | true =>
      have fields : first.asField.setName target.safeName =
          second.asField.setName target.safeName :=
        congrArg₂ (fun info value => DataField.mk info target.safeName value) info value
      have unshared : first.isShared = false ∧ second.isShared = false := by
        rcases stored.sharing rfl with unshared | converts | removes
        · exact unshared
        · rw [kept] at converts
          cases converts
        · exact absurd removes marker
      simp only [Externals.rename, unshared, Bool.false_eq_true, if_false, own_setName, fields]

/-- An optional storage put into an `object`, in the two evaluations. -/
theorem stored_member {exact : Bool} {target : EvaluationTarget}
    {first second : Option FieldStorage} (stored : Option.Rel (Stored exact target) first second)
    {members others : List Member} (same : seenMembers exact members = seenMembers exact others) :
    seenMembers exact (putMember env members target first) =
      seenMembers exact (putMember env others target second) := by
  cases stored with
  | none => exact same
  | some stored => exact stored.putMember env same

theorem Stored.ofOwned {exact : Bool} {target : EvaluationTarget} {first second : DataField}
    (info : first.info = second.info)
    (value : seenValue (exact || target.converts first.info) first.value =
      seenValue (exact || target.converts first.info) second.value) :
    Stored exact target (.owned first) (.owned second) :=
  ⟨info, value, fun _ => .inl ⟨rfl, rfl⟩⟩

theorem Stored.same {exact : Bool} {target : EvaluationTarget} (field : Option DataField) :
    Option.Rel (Stored exact target) (owned field) (owned field) := by
  cases field with
  | none => exact .none
  | some field => exact .some (.ofOwned rfl rfl)

/-- A shared field against its owned clone. -/
theorem Stored.ofShared {exact : Bool} {target : EvaluationTarget} {field : DataField}
    (dropped : exact = true → dropsSharing target field) (curName : String) :
    Stored exact target (.shared field curName) (.owned field) ∧
      Stored exact target (.owned field) (.shared field curName) :=
  ⟨⟨rfl, rfl, fun holds => .inr (dropped holds)⟩, ⟨rfl, rfl, fun holds => .inr (dropped holds)⟩⟩

theorem seenValue_obj {exact : Bool} {members others : List Member}
    (same : seenMembers exact members = seenMembers exact others) :
    seenValue exact (.obj members) = seenValue exact (.obj others) := by
  cases exact with
  | true => exact congrArg Value.obj same
  | false =>
    simp only [seenValue, Bool.false_eq_true, if_false, Value.plain]
    exact congrArg Value.obj same

theorem seenField_plain (fields : List DataField) :
    plainItems (fields.map .owned) = (fields.map (seenField false)).map .owned := by
  rw [plainItems_eq, List.map_map, List.map_map]
  refine List.map_congr_left (fun field _ => ?_)
  exact plainStorage_eq (.owned field)

theorem seenValue_array {exact : Bool} {items others : List DataField}
    (same : items.map (seenField exact) = others.map (seenField exact)) :
    seenValue exact (.array (items.map .owned)) = seenValue exact (.array (others.map .owned)) := by
  cases exact with
  | true =>
    have whole : seenField true = id := rfl
    rw [whole, List.map_id, List.map_id] at same
    rw [same]
  | false =>
    simp only [seenValue, Bool.false_eq_true, if_false, Value.plain, seenField_plain, same]

theorem seenField_value {exact : Bool} {first second : DataField}
    (same : seenField exact first = seenField exact second) :
    seenValue exact first.value = seenValue exact second.value := by
  cases exact with
  | true =>
    cases same
    rfl
  | false => exact congrArg DataField.value same

theorem seenField_made {exact : Bool} (info : DataType) (name : String) {first second : Value}
    (same : seenValue exact first = seenValue exact second) :
    seenField exact ⟨info, name, first⟩ = seenField exact ⟨info, name, second⟩ := by
  cases exact with
  | true =>
    have exactly : first = second := same
    rw [exactly]
  | false => exact congrArg (DataField.mk info name) same

theorem keepItem_agree {exact : Bool} {first second : Option DataField}
    (item : first.map (seenField exact) = second.map (seenField exact))
    {items others : List DataField}
    (rest : items.map (seenField exact) = others.map (seenField exact)) :
    (keepItem first items).map (seenField exact) =
      (keepItem second others).map (seenField exact) := by
  cases first with
  | none =>
    cases second with
    | none => exact rest
    | some _ => cases item
  | some first =>
    cases second with
    | none => cases item
    | some second =>
      have same : seenField exact first = seenField exact second := Option.some.inj item
      have null := seenValue_isNull (seenField_value same)
      have ignored := seenValue_isIgnore (seenField_value same)
      simp only [keepItem, null, ignored]
      split
      · exact rest
      · simp only [List.map_cons, same, rest]

/-- The elements of an `array`, as one field. -/
theorem arrayField_agree {exact : Bool} {items others : List DataField}
    (same : items.map (seenField exact) = others.map (seenField exact))
    (target : EvaluationTarget) :
    Option.Rel (fun first second => seenField exact first = seenField exact second ∧
      first.info = .array) (arrayField target items) (arrayField target others) := by
  cases items with
  | nil =>
    cases others with
    | nil => exact .none
    | cons _ _ => cases same
  | cons item rest =>
    cases others with
    | nil => cases same
    | cons other others => exact .some ⟨seenField_made _ _ (seenValue_array same), rfl⟩

theorem seenField_info {exact : Bool} {first second : DataField}
    (same : seenField exact first = seenField exact second) : first.info = second.info := by
  cases exact with
  | true =>
    cases same
    rfl
  | false =>
    have plain : first.plain = second.plain := same
    have info := congrArg DataField.info plain
    exact info

/-- The same field of an evaluation that shares nothing, as a member. -/
theorem stored_field {exact : Bool} {target : EvaluationTarget} {info : DataType}
    {first second : DataField} (kind : first.info = info)
    (same : seenField (exact || target.converts info) first =
      seenField (exact || target.converts info) second) :
    Stored exact target (.fromOwned first) (.fromOwned second) := by
  subst kind
  exact .ofOwned (seenField_info same) (seenField_value same)

theorem array_seen {exact : Bool} {first second : Option DataField}
    (fields : Option.Rel (fun first second => seenField exact first = seenField exact second ∧
      first.info = .array) first second) :
    first.map (seenField exact) = second.map (seenField exact) := by
  cases fields with
  | none => rfl
  | some fields => exact congrArg some fields.1

theorem array_stored {exact : Bool} {target : EvaluationTarget} {first second : Option DataField}
    (fields : Option.Rel (fun first second =>
      seenField (exact || target.converts .array) first =
        seenField (exact || target.converts .array) second ∧ first.info = .array) first second) :
    Option.Rel (Stored exact target) (owned first) (owned second) := by
  cases fields with
  | none => exact .none
  | some fields => exact .some (stored_field fields.2 fields.1)

theorem record_one_eq (op : RecordOperation) (target : EvaluationTarget) :
    op.extractOne env target = op.extractOneAsync env target := by
  unfold RecordOperation.extractOne RecordOperation.extractOneAsync
  congr 1
  funext found
  cases found with
  | some field => rfl
  | none =>
    cases op.defaultVal with
    | none => rfl
    | some accessor =>
      cases accessor with
      | fieldArc field =>
        simp [GenericAccessor.extractStorage, GenericAccessor.extractStorageAsync,
          FieldStorage.fromShared, FieldStorage.fromOwned, Externals.own, FieldStorage.intoOwned]
      | field _ | builtin _ | staticSymbol _ => rfl

/-- A synchronous read against an asynchronous one, for a reader of the storage that takes the
    shared fields met here as their owned clones. -/
theorem record_agree (observe : FieldStorage → DataField) (op : RecordOperation)
    (target : EvaluationTarget) (state : State)
    (shared : ∀ field curName, op.datGet.sharedRead env target state = some (field, curName) →
      observe (.shared field curName) = observe (.owned field))
    (unread : ∀ field after, op.datGet.extractOne env target state = some (none, after) →
      op.defaultVal = some (.fieldArc field) →
        observe (.shared field (target.name.getD "_")) =
          observe (.owned (field.setName (target.name.getD "_")))) :
    Outcomes (fun first second => first.map observe = second.map observe)
      (op.extractStorage env target state) (op.extractStorageAsync env target state) := by
  have base := direct_shape env op.datGet target state
  simp only [RecordOperation.extractStorage, RecordOperation.extractStorageAsync,
    DirectAccessor.extractStorage, eval_bind]
  cases read : op.datGet.sharedRead env target state with
  | some found =>
    obtain ⟨field, curName⟩ := found
    rw [read] at base
    obtain ⟨after, storage_run, one_run⟩ := base
    simp only [storage_run, one_run, Option.bind_some, eval_pure, Option.map_some]
    exact .returned (congrArg some (shared field curName read).symm)
  | none =>
    rw [read] at base
    have base : op.datGet.extractStorageAsync env target state =
      ownedResult (op.datGet.extractOne env target state) := base
    rw [base]
    cases one_run : op.datGet.extractOne env target state with
    | none => exact .failed
    | some result =>
      obtain ⟨found, after⟩ := result
      cases found with
      | some field => exact .returned rfl
      | none =>
        simp only [ownedResult, owned, Option.bind_some, eval_pure, Option.map_some,
          Option.map_none]
        cases default : op.defaultVal with
        | none => exact .returned rfl
        | some accessor =>
          cases accessor with
          | fieldArc field => exact .returned (congrArg some (unread field after one_run default))
          | field _ | builtin _ => exact .returned rfl
          | staticSymbol _ => exact .failed

/-- An arm, for a reader of the storage that takes shared fields as their owned clones. -/
theorem arm_agree (observe : FieldStorage → DataField)
    (observe_shared : ∀ field, observe (.fromShared field) = observe (.owned field))
    (arm : NestedAccessor PipeFun) (isArm : arm.IsArm false) (target : EvaluationTarget)
    (state : State)
    (shared : ∀ field curName, arm.sharedRead env target state = some (field, curName) →
      observe (.shared field curName) = observe (.owned field)) :
    Outcomes (fun first second => first.map observe = second.map observe)
      (nestedStorageSync env arm target state) (nestedStorageAsync env arm target state) := by
  cases arm with
  | field field =>
    simp only [nestedStorageSync, nestedStorageAsync]
    exact .returned rfl
  | fieldArc field =>
    simp only [nestedStorageSync, nestedStorageAsync]
    exact .returned (congrArg some (observe_shared field))
  | direct op =>
    have shape := record_shape env op target state
    simp only [nestedStorageSync, nestedStorageAsync, ownedResult_run, record_one_eq]
    cases read : op.datGet.sharedRead env target state with
    | none =>
      rw [read] at shape
      have shape : op.extractStorageAsync env target state =
        ownedResult (op.extractOneAsync env target state) := shape
      rw [shape]
      exact .same _ (fun _ => rfl)
    | some found =>
      obtain ⟨field, curName⟩ := found
      rw [read] at shape
      obtain ⟨after, storage_run, one_run⟩ := shape
      rw [storage_run, one_run]
      exact .returned (congrArg some (shared field curName read).symm)
  | collect datCrate =>
    simp only [nestedStorageSync, nestedStorageAsync]
    exact .same _ (fun _ => rfl)
  | staticSymbol symbol => cases isArm
  | builtin _ | map _ | objArray _ | pipe _ _ => exact isArm.elim

theorem match_agree (observe : FieldStorage → DataField)
    (observe_shared : ∀ field, observe (.fromShared field) = observe (.owned field))
    (source : MatchSource) (items : List (MatchCase PipeFun)) (default : Option (MatchCase PipeFun))
    (arms : ∀ item ∈ items, item.IsArm false source)
    (last : ∀ item ∈ default, item.IsArm false source) (target : EvaluationTarget) (state : State)
    (shared : ∀ field curName,
      (PreciseEvaluator.matchOn source items default).sharedRead env target state =
        some (field, curName) → observe (.shared field curName) = observe (.owned field)) :
    Outcomes (fun first second => first.map observe = second.map observe)
      (extractStorageSync env (.matchOn source items default) target state)
      (extractStorageAsync env (.matchOn source items default) target state) := by
  rw [matchOn_storageSync, matchOn_storageAsync]
  simp only [PreciseEvaluator.sharedRead] at shared
  simp only [eval_bind]
  cases selection : source.select env (items.map MatchCase.cond) target state with
  | none => exact .failed
  | some result =>
    obtain ⟨selected, after⟩ := result
    rw [selection] at shared
    simp only [Option.bind_some]
    cases taken : takenArm items default selected with
    | none => exact .returned rfl
    | some arm =>
      simp only [taken, Option.bind_some] at shared
      exact arm_agree env observe observe_shared arm (takenArm_isArm arms last taken) target after
        shared

theorem own_shared (field : DataField) : env.own (.fromShared field) = field := by
  simp [Externals.own, FieldStorage.fromShared, FieldStorage.intoOwned, env.ownedName_self]

theorem KeepsOwnName.own {read : Option (DataField × String)} (keeps : KeepsOwnName env read)
    (field : DataField) (curName : String) (found : read = some (field, curName)) :
    env.own (.shared field curName) = env.own (.owned field) := by
  have kept := keeps field curName found
  simp [Externals.own, FieldStorage.intoOwned, kept]

/-- A member that is read, against the storage that the asynchronous evaluation keeps. -/
theorem direct_member (exact : Bool) (op : RecordOperation) (target : EvaluationTarget)
    (state : State)
    (agree : exact = true → ∀ field curName,
      op.datGet.sharedRead env target state = some (field, curName) → dropsSharing target field) :
    Outcomes (Option.Rel (Stored exact target))
      (ownedResult (op.extractOne env target state)) (op.extractStorageAsync env target state) := by
  have shape := record_shape env op target state
  rw [record_one_eq]
  cases read : op.datGet.sharedRead env target state with
  | none =>
    rw [read] at shape
    have shape : op.extractStorageAsync env target state =
      ownedResult (op.extractOneAsync env target state) := shape
    rw [shape]
    cases op.extractOneAsync env target state with
    | none => exact .failed
    | some result => exact .returned (Stored.same result.1)
  | some found =>
    obtain ⟨field, curName⟩ := found
    rw [read] at shape
    obtain ⟨after, storage_run, one_run⟩ := shape
    rw [storage_run, one_run]
    exact .returned (.some (Stored.ofShared (fun holds => agree holds field curName read) curName).2)

theorem ownedResult_own (one : OneResult) :
    Outcomes (fun first second => first = second.map env.own) one (ownedResult one) := by
  cases one with
  | none => exact .failed
  | some result =>
    obtain ⟨field, after⟩ := result
    cases field with
    | none => exact .returned rfl
    | some field => exact .returned rfl

theorem source_accessor_agree (accessor : DirectAccessor) (target : EvaluationTarget)
    (state : State) (keeps : KeepsOwnName env (accessor.sharedRead env target state)) :
    Outcomes (fun first second => first = second.map env.own)
      (accessor.extractOne env target state) (accessor.extractStorageAsync env target state) := by
  have shape := direct_shape env accessor target state
  cases read : accessor.sharedRead env target state with
  | none =>
    rw [read] at shape
    have shape : accessor.extractStorageAsync env target state =
      ownedResult (accessor.extractOne env target state) := shape
    rw [shape]
    exact ownedResult_own env _
  | some found =>
    obtain ⟨field, curName⟩ := found
    rw [read] at shape
    obtain ⟨after, storage_run, one_run⟩ := shape
    rw [storage_run, one_run]
    exact .returned (congrArg some (keeps.own env field curName read).symm)

mutual
/-- The members of an `object` are the same to a reader, and the same outright where `exact`. -/
theorem members_agree (exact : Bool) : ∀ (subs : List (NestedBinding PipeFun)) (state : State)
    (members others : List Member), MembersParsed false subs → MembersAgree env exact subs state →
    seenMembers exact members = seenMembers exact others →
    Outcomes (fun first second => seenMembers exact first = seenMembers exact second)
      (membersSync env subs members state) (membersAsync env subs others state)
  | [], state, members, others, _, _, same => by
    simp only [membersSync, membersAsync]
    exact .returned same
  | ⟨target, acquirer⟩ :: rest, state, members, others, parsed, agree, same => by
    rw [MembersParsed] at parsed
    rw [MembersAgree] at agree
    simp only [membersSync, membersAsync, eval_bind]
    refine (member_agree exact acquirer target state parsed.1 agree.1).bind ?_
    intro first second after run stored
    exact members_agree exact rest after _ _ parsed.2 (agree.2 first after run)
      (stored_member env stored same)

theorem member_agree (exact : Bool) : ∀ (acquirer : NestedAccessor PipeFun)
    (target : EvaluationTarget) (state : State), acquirer.IsMember false →
    MemberAgrees env exact acquirer target state →
    Outcomes (Option.Rel (Stored exact target))
      (nestedStorageSync env acquirer target state) (nestedStorageAsync env acquirer target state)
  | .field field, target, state, _, _ => by
    simp only [nestedStorageSync, nestedStorageAsync]
    exact .returned (Stored.same (some field))
  | .fieldArc field, target, state, _, agree => by
    rw [MemberAgrees] at agree
    simp only [nestedStorageSync, nestedStorageAsync]
    exact .returned (.some (Stored.ofShared agree field.name).1)
  | .direct op, target, state, _, agree => by
    rw [MemberAgrees] at agree
    simp only [nestedStorageSync, nestedStorageAsync, ownedResult_run]
    exact direct_member env exact op target state agree
  | .builtin function, target, state, _, _ => by
    simp only [nestedStorageSync, nestedStorageAsync]
    exact .returned (Stored.same (some _))
  | .map subs, target, state, parsed, agree => by
    rw [NestedAccessor.IsMember] at parsed
    rw [MemberAgrees] at agree
    simp only [nestedStorageSync, nestedStorageAsync, eval_bind]
    refine (members_agree (exact || target.converts .obj) subs state [] [] parsed agree rfl).bind ?_
    intro first second after _ same
    exact .returned (.some (stored_field rfl (seenField_made _ _ (seenValue_obj same))))
  | .objArray items, target, state, parsed, agree => by
    rw [NestedAccessor.IsMember] at parsed
    rw [MemberAgrees] at agree
    simp only [nestedStorageSync, nestedStorageAsync, eval_bind]
    refine (items_agree (exact || target.converts .array) items _ state parsed agree).bind ?_
    intro first second after _ same
    exact .returned (array_stored (arrayField_agree same target))
  | .pipe source items, target, state, parsed, agree => by
    rw [NestedAccessor.IsMember] at parsed
    rw [MemberAgrees] at agree
    simp only [nestedStorageSync, nestedStorageAsync, eval_bind,
      pipeStorage_eq env items parsed.1 target]
    refine (source_agree source target state parsed.2 agree).bind ?_
    rintro first second after _ rfl
    exact .returned (Stored.same _)
  | .collect datCrate, _, _, parsed, _ => by
    rw [NestedAccessor.IsMember] at parsed
    exact parsed.elim
  | .staticSymbol symbol, _, _, parsed, _ => by
    rw [NestedAccessor.IsMember] at parsed
    cases parsed

theorem items_agree (exact : Bool) : ∀ (items : List (PreciseEvaluator PipeFun))
    (target : EvaluationTarget) (state : State), ItemsParsed false items →
    ItemsAgree env exact items target state →
    Outcomes (fun first second => first.map (seenField exact) = second.map (seenField exact))
      (itemsSync env items target state) (itemsAsync env items target state)
  | [], target, state, _, _ => by
    simp only [itemsSync, itemsAsync]
    exact .returned rfl
  | item :: rest, target, state, parsed, agree => by
    rw [ItemsParsed] at parsed
    rw [ItemsAgree] at agree
    simp only [itemsSync, itemsAsync, eval_bind]
    refine (item_agree exact item target state parsed.1 agree.1).bind ?_
    intro first second after run head
    refine (items_agree exact rest target after parsed.2 (agree.2 first after run)).bind ?_
    intro fields others last _ tail
    exact .returned (keepItem_agree head tail)

theorem item_agree (exact : Bool) : ∀ (item : PreciseEvaluator PipeFun)
    (target : EvaluationTarget) (state : State), item.IsItem false →
    ItemAgrees env exact item target state →
    Outcomes (fun first second => first.map (seenField exact) = second.map (seenField exact))
      (itemOneSync env item target state) (extractOneAsync env item target state)
  | .map subs, target, state, parsed, agree => by
    rw [PreciseEvaluator.IsItem] at parsed
    rw [ItemAgrees] at agree
    simp only [itemOneSync, extractOneAsync, eval_bind]
    refine (members_agree exact subs state [] [] parsed agree rfl).bind ?_
    intro first second after _ same
    exact .returned (congrArg some (seenField_made _ _ (seenValue_obj same)))
  | .objArray items, target, state, parsed, agree => by
    rw [PreciseEvaluator.IsItem] at parsed
    rw [ItemAgrees] at agree
    simp only [itemOneSync, extractOneAsync, eval_bind]
    refine (items_agree exact items _ state parsed agree).bind ?_
    intro first second after _ same
    exact .returned (array_seen (arrayField_agree same target))
  | .tdc op, target, state, _, _ => by
    simp only [itemOneSync, extractOneAsync, record_one_eq]
    exact .same _ (fun _ => rfl)
  | .builtin function, target, state, _, _ => by
    simp only [itemOneSync, extractOneAsync]
    exact .same _ (fun _ => rfl)
  | .obj field, target, state, _, _ => by
    simp only [itemOneSync, extractOneAsync]
    exact .same _ (fun _ => rfl)
  | .objArc field, target, state, _, _ => by
    simp only [itemOneSync, extractOneAsync]
    exact .same _ (fun _ => rfl)
  | .sql _, _, _, parsed, _ | .calculate _, _, _, parsed, _ | .accessDirect _, _, _, parsed, _
  | .matchOn _ _ _, _, _, parsed, _ | .lookup _ _ _ _, _, _, parsed, _ | .pipe _ _, _, _, parsed, _
  | .fmt _, _, _, parsed, _ | .collect _, _, _, parsed, _ | .val _, _, _, parsed, _ => by
    rw [PreciseEvaluator.IsItem] at parsed
    · exact parsed.elim
    all_goals simp
  | .staticSymbol symbol, _, _, parsed, _ => by
    rw [PreciseEvaluator.IsItem] at parsed
    cases parsed

theorem source_agree : ∀ (source : PipeSource PipeFun) (target : EvaluationTarget) (state : State),
    source.Parsed false → SourceAgrees env source target state →
    Outcomes (fun first second => first = second.map env.own)
      (sourceOneSync env source target state) (sourceStorageAsync env source target state)
  | .accessor accessor, target, state, _, agree => by
    rw [SourceAgrees] at agree
    simp only [sourceOneSync, sourceStorageAsync]
    exact source_accessor_agree env accessor target state agree
  | .accessDirect op, target, state, _, _ => by
    simp only [sourceOneSync, sourceStorageAsync, ownedResult_run]
    exact ownedResult_own env _
  | .precise eval, target, state, parsed, agree => by
    rw [PipeSource.Parsed] at parsed
    rw [SourceAgrees] at agree
    simp only [sourceOneSync, sourceStorageAsync, eval_bind]
    exact (owned_agree eval target state parsed agree).mapLeft (fun _ _ same => same)

/-- The source of a pipe is the same field once it is owned. -/
theorem owned_agree : ∀ (eval : PreciseEvaluator PipeFun) (target : EvaluationTarget)
    (state : State), eval.IsPipeSource false → OwnedAgrees env eval target state →
    Outcomes (fun first second => first.map env.own = second.map env.own)
      (extractStorageSync env eval target state) (extractStorageAsync env eval target state)
  | .map subs, target, state, parsed, agree => by
    rw [PreciseEvaluator.IsPipeSource] at parsed
    rw [OwnedAgrees] at agree
    simp only [extractStorageSync, extractStorageAsync, eval_bind]
    refine (members_agree true subs state [] [] parsed agree rfl).bind ?_
    rintro first second after _ same
    have exactly : first = second := same
    rw [exactly]
    exact .returned rfl
  | .objArray items, target, state, parsed, agree => by
    rw [PreciseEvaluator.IsPipeSource] at parsed
    rw [OwnedAgrees] at agree
    simp only [extractStorageSync, extractStorageAsync, eval_bind]
    refine (items_agree true items _ state parsed agree).bind ?_
    intro first second after _ same
    have whole := array_seen (arrayField_agree same target)
    rw [show seenField true = id from rfl, Option.map_id] at whole
    exact .returned (congrArg (fun field => (owned field).map env.own) whole)
  | .tdc op, target, state, _, agree => by
    rw [OwnedAgrees] at agree
    simp only [extractStorageSync, extractStorageAsync]
    refine record_agree env env.own op target state (agree.1.own env) ?_
    intro field after one_run default
    have kept := agree.2 field after one_run default
    simp [Externals.own, FieldStorage.intoOwned, kept]
  | .matchOn source items default, target, state, parsed, agree => by
    rw [PreciseEvaluator.IsPipeSource] at parsed
    rw [OwnedAgrees] at agree
    exact match_agree env env.own (own_shared env) source items default parsed.1 parsed.2 target
      state (agree.own env)
  | .lookup _ _ _ _, _, _, _, agree => by
    rw [OwnedAgrees] at agree
    exact agree.elim
  | .sql _, target, state, _, _ | .calculate _, target, state, _, _
  | .accessDirect _, target, state, _, _ | .obj _, target, state, _, _
  | .objArc _, target, state, _, _ | .builtin _, target, state, _, _
  | .fmt _, target, state, _, _ | .collect _, target, state, _, _ => by
    simp only [extractStorageSync, extractStorageAsync]
    exact .same _ (fun _ => rfl)
  | .pipe _ _, _, _, parsed, _ | .val _, _, _, parsed, _ => by
    rw [PreciseEvaluator.IsPipeSource] at parsed
    exact parsed.elim
  | .staticSymbol symbol, _, _, parsed, _ => by
    rw [PreciseEvaluator.IsPipeSource] at parsed
    cases parsed
end

theorem observed_eq {observe : FieldStorage → DataField} {first second : StorageResult}
    (agreed : Outcomes (fun first second => first.map observe = second.map observe) first second) :
    observed observe first = observed observe second := by
  cases agreed with
  | failed => rfl
  | returned same =>
    simp only [observed, Option.map_some]
    rw [same]

theorem owned_view (field : Option DataField) :
    (owned field).map FieldStorage.view = field.map (seenField false) := by
  cases field <;> rfl

/-- The storage of a source, owned, is its owned field. -/
theorem source_owned (source : PipeSource PipeFun) (target : EvaluationTarget) (state : State) :
    observed env.own (sourceStorageSync env source target state) =
      sourceOneSync env source target state := by
  have own_made (one : Eval (Option DataField)) :
      observed env.own ((do return owned (← one) : Eval (Option FieldStorage)) state) =
        one state := by
    rw [ownedResult_run]
    exact ownedResult_faithful _ env.own (fun _ => rfl) (own_shared env)
  cases source with
  | accessor accessor =>
    simp only [sourceStorageSync, sourceOneSync]
    exact own_made (accessor.extractOne env target)
  | accessDirect op =>
    simp only [sourceStorageSync, sourceOneSync]
    exact own_made (op.extractOne env target)
  | precise eval =>
    simp only [sourceStorageSync, sourceOneSync, eval_bind]
    cases extractStorageSync env eval target state <;> rfl

theorem owned_source {first second : StorageResult}
    (agreed : Outcomes (fun one storage => one = storage.map env.own)
      (observed env.own first) second) :
    Outcomes (fun first second => first.map env.own = second.map env.own) first second := by
  cases first with
  | none =>
    simp only [observed, Option.map_none] at agreed
    cases agreed
    exact .failed
  | some result =>
    simp only [observed, Option.map_some] at agreed
    cases agreed with
    | returned same => exact .returned same

/-- A synchronous evaluator returns what the asynchronous one returns, to a reader of the field,
    and leaves the same records, where it meets neither a lookup in an `object` nor a shared field
    that another evaluation owns. -/
theorem sync_eq_async (eval : PreciseEvaluator PipeFun) (parsed : eval.Parsed false)
    (sync : supportSync eval = true) (target : EvaluationTarget) (state : State)
    (agree : SyncAgrees env eval target state) :
    observed FieldStorage.view (extractStorageSync env eval target state) =
      observed FieldStorage.view (extractStorageAsync env eval target state) := by
  have view_shared {read : Option (DataField × String)}
      (kept : ∀ field curName, read = some (field, curName) → curName = field.name)
      (field : DataField) (curName : String) (found : read = some (field, curName)) :
      (FieldStorage.shared field curName).view = (FieldStorage.owned field).view := by
    rw [kept field curName found]
    rfl
  cases eval with
  | map subs =>
    rw [PreciseEvaluator.Parsed] at parsed
    simp only [extractStorageSync, extractStorageAsync, eval_bind]
    refine observed_eq ((members_agree env false subs state [] [] parsed agree rfl).bind ?_)
    intro first second after _ same
    exact .returned (congrArg some (seenField_made _ _ (seenValue_obj same)))
  | objArray items =>
    rw [PreciseEvaluator.Parsed] at parsed
    simp only [extractStorageSync, extractStorageAsync, eval_bind]
    refine observed_eq ((items_agree env false items _ state parsed agree).bind ?_)
    intro first second after _ same
    refine .returned ?_
    rw [owned_view, owned_view]
    exact array_seen (arrayField_agree same target)
  | pipe source items =>
    rw [PreciseEvaluator.Parsed] at parsed
    have agreed := source_agree env source target state parsed.2 agree
    rw [← source_owned] at agreed
    simp only [extractStorageSync, extractStorageAsync, eval_bind,
      pipeStorage_eq env items parsed.1 target]
    refine observed_eq ((owned_source env agreed).bind ?_)
    intro first second after _ same
    refine .returned ?_
    simp only [same]
  | tdc op =>
    simp only [extractStorageSync, extractStorageAsync]
    exact observed_eq (record_agree env FieldStorage.view op target state (view_shared agree)
      (fun _ _ _ _ => rfl))
  | matchOn source items default =>
    rw [PreciseEvaluator.Parsed] at parsed
    exact observed_eq (match_agree env FieldStorage.view (fun _ => rfl) source items default
      parsed.1 parsed.2 target state (view_shared agree))
  | sql _ | lookup _ _ _ _ | staticSymbol _ => cases sync
  | calculate _ | accessDirect _ | obj _ | objArc _ | builtin _ | fmt _ | collect _ | val _ =>
    simp only [extractStorageSync, extractStorageAsync]

/-- `object { city = read(city) ; }`. -/
def cityObject : PreciseEvaluator Unit :=
  .map [⟨.new "city" .auto, .direct ⟨readOf "city", none⟩⟩]

theorem sync_eq_async_of_source :
    observed FieldStorage.view (extractStorageSync skipEmptyOnly cityObject (.new "a" .auto)
        ⟨[.fromChars "city" "bj"], []⟩) =
      observed FieldStorage.view (extractStorageAsync skipEmptyOnly cityObject (.new "a" .auto)
        ⟨[.fromChars "city" "bj"], []⟩) :=
  sync_eq_async skipEmptyOnly cityObject
    (by simp [cityObject, PreciseEvaluator.Parsed, MembersParsed, NestedAccessor.IsMember])
    (by simp [cityObject, supportSync]) (.new "a" .auto) ⟨[.fromChars "city" "bj"], []⟩
    (by simp [cityObject, SyncAgrees, MembersAgree, MemberAgrees])

/-- `object { x = lookup_nocase(d, read(k), "none") | skip_empty ; }`. -/
def lookupObject : PreciseEvaluator Unit :=
  .map [⟨.new "x" .auto, .pipe (.precise (.lookup "d" (.tdc ⟨readOf "k", none⟩)
    (.val (.chars "none")) (some [("a", .fromChars "e" "b")]))) [()]⟩]

def lookupRecord : State := ⟨[.fromChars "k" "a"], []⟩

/-- The record `k: a`, for which the dictionary has an entry: only the asynchronous evaluation
    has the member. -/
theorem lookup_member_lost :
    lookupObject.Parsed false ∧ supportSync lookupObject = true ∧
      observed FieldStorage.view
          (extractStorageSync skipEmptyOnly lookupObject (.new "o" .auto) lookupRecord) =
        some (some (.fromObj "o" []), lookupRecord) ∧
      observed FieldStorage.view
          (extractStorageSync skipEmptyOnly lookupObject (.new "o" .auto) lookupRecord) ≠
        observed FieldStorage.view
          (extractStorageAsync skipEmptyOnly lookupObject (.new "o" .auto) lookupRecord) := by
  have asynchronous : observed FieldStorage.view
      (extractStorageAsync skipEmptyOnly lookupObject (.new "o" .auto) lookupRecord) =
        some (some (.fromObj "o" [⟨"x", .owned (.fromChars "x" "b")⟩]), lookupRecord) := rfl
  have synchronous : observed FieldStorage.view
      (extractStorageSync skipEmptyOnly lookupObject (.new "o" .auto) lookupRecord) =
        some (some (.fromObj "o" []), lookupRecord) := rfl
  refine ⟨?_, ?_, synchronous, ?_⟩
  · simp [lookupObject, PreciseEvaluator.Parsed, MembersParsed, NestedAccessor.IsMember,
      PipeSource.Parsed, PreciseEvaluator.IsPipeSource, PreciseEvaluator.IsLookupArg]
  · simp [lookupObject, supportSync]
  · rw [synchronous, asynchronous]
    simp [DataField.fromObj]

end WarpMotor.Oml
