import WarpMotor.Oml.Evaluate
import WarpMotor.Oml.Grammar

/-!
A storage against the owned field of the same evaluation. The two are the same
field but for one case: an evaluation that ends in a read of a shared field of
the target record keeps that field's current name in the storage and has its
own name in the owned field. Pipe functions then work on the field under two
names.
-/
namespace WarpMotor.Oml

/-- The field under its current name. -/
def FieldStorage.current (storage : FieldStorage) : DataField :=
  storage.asField.setName storage.getName

variable {PipeFun : Type} (env : Externals PipeFun)

/-- The shared field of the target record that a read finds, with its current name. -/
def DirectAccessor.sharedRead (accessor : DirectAccessor) (target : EvaluationTarget)
    (state : State) : Option (DataField × String) :=
  match accessor with
  | take _ => none
  | read accessor =>
    match accessor.extractStorage env target state with
    | some (.shared field curName) => some (field, curName)
    | _ => none

def NestedAccessor.sharedRead (accessor : NestedAccessor PipeFun) (target : EvaluationTarget)
    (state : State) : Option (DataField × String) :=
  match accessor with
  | .direct op => op.datGet.sharedRead env target state
  | _ => none

/-- The shared field that the evaluation returns as it found it. -/
def PreciseEvaluator.sharedRead (eval : PreciseEvaluator PipeFun) (target : EvaluationTarget)
    (state : State) : Option (DataField × String) :=
  match eval with
  | .tdc op => op.datGet.sharedRead env target state
  | .matchOn source items default =>
    match source.select env (items.map MatchCase.cond) target state with
    | none => none
    | some (selected, after) =>
      (takenArm items default selected).bind (fun arm => arm.sharedRead env target after)
  | _ => none

def PipeSource.sharedRead (source : PipeSource PipeFun) (target : EvaluationTarget)
    (state : State) : Option (DataField × String) :=
  match source with
  | .accessor direct => direct.sharedRead env target state
  | .accessDirect _ => none
  | .precise eval => eval.sharedRead env target state

def applyPipe (items : List PipeFun) (field : DataField) : DataField :=
  items.foldl (fun field function => env.valueCacu function field) field

/-- A shared field that the evaluation ends in has its own name still; one that goes into a pipe
    comes out the same under either name. -/
def NamesAgree (eval : PreciseEvaluator PipeFun) (target : EvaluationTarget) (state : State) :
    Prop :=
  match eval with
  | .pipe source items => ∀ field curName,
      source.sharedRead env target state = some (field, curName) →
        applyPipe env items (field.setName (env.ownedName field.name curName)) =
          applyPipe env items field
  | eval => ∀ field curName,
      eval.sharedRead env target state = some (field, curName) → curName = field.name

/-- The results of one evaluation, to a storage and to an owned field; `none` is a panic. -/
abbrev StorageResult := Option (Option FieldStorage × State)
abbrev OneResult := Option (Option DataField × State)

/-- The storage read with `observe`, and the records after it. -/
def observed (observe : FieldStorage → DataField) (result : StorageResult) : OneResult :=
  result.map (fun r => (r.1.map observe, r.2))

/-- The same field, however the storage is read. -/
def Faithful (storage : StorageResult) (one : OneResult) : Prop :=
  ∀ observe : FieldStorage → DataField, (∀ field, observe (.owned field) = field) →
    (∀ field, observe (.fromShared field) = field) → observed observe storage = one

/-- The owned field, put into a storage. -/
def ownedResult (one : OneResult) : StorageResult := one.map (fun r => (owned r.1, r.2))

theorem ownedResult_faithful (one : OneResult) : Faithful (ownedResult one) one := by
  intro observe observe_owned _
  cases one with
  | none => rfl
  | some result =>
    obtain ⟨field, after⟩ := result
    cases field with
    | none => rfl
    | some field => simp [observed, ownedResult, owned, FieldStorage.fromOwned, observe_owned]

/-- The two results, given which shared field the evaluation ends in: the storage of every other
    evaluation stands in the relation `other` to the owned field. -/
def Shape (other : StorageResult → OneResult → Prop) (read : Option (DataField × String))
    (storage : StorageResult) (one : OneResult) : Prop :=
  match read with
  | none => other storage one
  | some (field, curName) => ∃ after,
      storage = some (some (.shared field curName), after) ∧ one = some (some field, after)

/-- Nothing is shared but what was found shared. -/
abbrev OwnShape := Shape (fun storage one => storage = ownedResult one)

theorem OwnShape.faithful {read : Option (DataField × String)} {storage : StorageResult}
    {one : OneResult} (shape : OwnShape read storage one) : Shape Faithful read storage one := by
  cases read with
  | none =>
    have same : storage = ownedResult one := shape
    rw [same]
    exact ownedResult_faithful one
  | some found => exact shape

/-- Nothing is found shared where nothing is read. -/
theorem owned_shape {storage : StorageResult} {one : OneResult}
    (made : storage = ownedResult one) : Shape Faithful none storage one :=
  OwnShape.faithful (show OwnShape none storage one from made)

theorem ownedResult_made {A : Type} (run : Eval A) (make : A → Option DataField) (state : State) :
    (run >>= fun a => pure (owned (make a)) : Eval (Option FieldStorage)) state =
      ownedResult ((run >>= fun a => pure (make a) : Eval (Option DataField)) state) := by
  simp only [eval_bind]
  cases run state with
  | none => rfl
  | some result => rfl

theorem ownedResult_run (one : Eval (Option DataField)) (state : State) :
    (do return owned (← one) : Eval (Option FieldStorage)) state = ownedResult (one state) := by
  simp only [eval_bind]
  cases one state with
  | none => rfl
  | some result => rfl

theorem direct_shape (accessor : DirectAccessor) (target : EvaluationTarget) (state : State) :
    OwnShape (accessor.sharedRead env target state)
      (accessor.extractStorageAsync env target state) (accessor.extractOne env target state) := by
  cases accessor with
  | take accessor => exact ownedResult_run (accessor.extractOne env target) state
  | read accessor =>
    simp only [DirectAccessor.sharedRead, DirectAccessor.extractStorageAsync,
      DirectAccessor.extractOne, FieldRead.extractOne]
    cases found : accessor.extractStorage env target state with
    | none => rfl
    | some storage =>
      cases storage with
      | owned field => rfl
      | shared field curName => exact ⟨state, rfl, rfl⟩

/-- The default of a read is renamed in both evaluations. -/
theorem default_owned (accessor : GenericAccessor) (target : EvaluationTarget) (name : String)
    (state : State) :
    (do
      return (← accessor.extractStorageAsync env target).map
        (fun storage => env.rename storage name) : Eval (Option FieldStorage)) state =
      ownedResult ((do
        return (← accessor.extractStorageAsync env target).map
          (fun storage => (env.own storage).setName name) : Eval (Option DataField)) state) := by
  cases accessor with
  | staticSymbol symbol | field field | fieldArc field | builtin function => rfl

theorem record_shape (op : RecordOperation) (target : EvaluationTarget) (state : State) :
    OwnShape (op.datGet.sharedRead env target state)
      (op.extractStorageAsync env target state) (op.extractOneAsync env target state) := by
  have base := direct_shape env op.datGet target state
  simp only [RecordOperation.extractStorageAsync, RecordOperation.extractOneAsync, eval_bind]
  cases shared : op.datGet.sharedRead env target state with
  | some found =>
    rw [shared] at base
    obtain ⟨after, storage_run, one_run⟩ := base
    exact ⟨after, by simp [storage_run], by simp [one_run]⟩
  | none =>
    rw [shared] at base
    have base : op.datGet.extractStorageAsync env target state =
      ownedResult (op.datGet.extractOne env target state) := base
    change _ = ownedResult _
    rw [base]
    cases op.datGet.extractOne env target state with
    | none => rfl
    | some result =>
      obtain ⟨field, after⟩ := result
      cases field with
      | some field => rfl
      | none =>
        cases op.defaultVal with
        | none => rfl
        | some accessor => exact default_owned env accessor target _ after

theorem arm_shape (arm : NestedAccessor PipeFun) {symbols : Bool} (isArm : arm.IsArm symbols)
    (target : EvaluationTarget) (state : State) :
    OwnShape (arm.sharedRead env target state)
      (nestedStorageAsync env arm target state) (nestedOneAsync env arm target state) := by
  cases arm with
  | field field | fieldArc field | staticSymbol symbol =>
    simp only [nestedStorageAsync, nestedOneAsync]
    rfl
  | direct op =>
    simp only [nestedStorageAsync, nestedOneAsync]
    exact record_shape env op target state
  | collect datCrate =>
    simp only [nestedStorageAsync, nestedOneAsync]
    exact ownedResult_run (collectOne env datCrate target) state
  | builtin _ | map _ | objArray _ | pipe _ _ => exact isArm.elim

theorem takenArm_isArm {items : List (MatchCase PipeFun)} {default : Option (MatchCase PipeFun)}
    {symbols : Bool} {source : MatchSource} (arms : ∀ item ∈ items, item.IsArm symbols source)
    (last : ∀ item ∈ default, item.IsArm symbols source) {selected : Selected}
    {arm : NestedAccessor PipeFun} (taken : takenArm items default selected = some arm) :
    arm.IsArm symbols := by
  cases selected with
  | item index =>
    obtain ⟨⟨cond, result⟩, found, rfl⟩ := Option.map_eq_some_iff.mp taken
    exact (arms _ (List.mem_of_getElem? found)).2
  | default =>
    obtain ⟨⟨cond, result⟩, found, rfl⟩ := Option.map_eq_some_iff.mp taken
    exact (last _ found).2

theorem match_shape (source : MatchSource) (items : List (MatchCase PipeFun))
    (default : Option (MatchCase PipeFun)) {symbols : Bool}
    (arms : ∀ item ∈ items, item.IsArm symbols source)
    (last : ∀ item ∈ default, item.IsArm symbols source) (target : EvaluationTarget)
    (state : State) :
    OwnShape ((PreciseEvaluator.matchOn source items default).sharedRead env target state)
      (extractStorageAsync env (.matchOn source items default) target state)
      (extractOneAsync env (.matchOn source items default) target state) := by
  rw [matchOn_storageAsync, matchOn_oneAsync]
  simp only [PreciseEvaluator.sharedRead, eval_bind]
  cases source.select env (items.map MatchCase.cond) target state with
  | none => rfl
  | some result =>
    obtain ⟨selected, after⟩ := result
    cases taken : takenArm items default selected with
    | none =>
      simp only [taken, Option.bind_none, Option.bind_some]
      rfl
    | some arm =>
      have isArm := takenArm_isArm arms last taken
      simpa [taken] using arm_shape env arm isArm target after

/-- A lookup is shared, and owned by the same conversion. -/
theorem lookup_owned (dictSymbol : String) (key default : PreciseEvaluator PipeFun)
    (compiled : Option LookupDict) (target : EvaluationTarget) (state : State) :
    observed env.own
        (extractStorageAsync env (.lookup dictSymbol key default compiled) target state) =
      extractOneAsync env (.lookup dictSymbol key default compiled) target state := by
  simp only [extractStorageAsync, extractOneAsync, eval_bind]
  cases extractOneAsync env key target state with
  | none => rfl
  | some result =>
    obtain ⟨found, after⟩ := result
    cases entry : lookupEntry env compiled found with
    | none => simp [entry, observed]
    | some field => simp [entry, observed]

theorem eval_shape (eval : PreciseEvaluator PipeFun) {symbols : Bool}
    (parsed : eval.Parsed symbols) (no_pipe : eval.isPipe = false)
    (no_lookup : eval.isLookup = false) (target : EvaluationTarget) (state : State) :
    Shape Faithful (eval.sharedRead env target state)
      (extractStorageAsync env eval target state) (extractOneAsync env eval target state) := by
  cases eval with
  | tdc op =>
    simp only [extractStorageAsync, extractOneAsync]
    exact (record_shape env op target state).faithful
  | matchOn source items default =>
    rw [PreciseEvaluator.Parsed] at parsed
    exact (match_shape env source items default parsed.1 parsed.2 target state).faithful
  | pipe source items => cases no_pipe
  | lookup dictSymbol key default compiled => cases no_lookup
  | objArc field =>
    simp only [extractStorageAsync, extractOneAsync]
    intro observe _ observe_shared
    simp [observed, observe_shared]
  | sql _ | staticSymbol _ | obj _ | builtin _ | val _ =>
    simp only [extractStorageAsync, extractOneAsync]
    exact owned_shape rfl
  | calculate _ | accessDirect _ | fmt _ | collect _ =>
    simp only [extractStorageAsync, extractOneAsync]
    exact owned_shape (ownedResult_run _ state)
  | map subs =>
    have made := ownedResult_made (membersAsync env subs [])
      (fun members => some (.fromObj (target.name.getD "_") members)) state
    simp only [extractStorageAsync, extractOneAsync]
    exact owned_shape made
  | objArray items =>
    have made := ownedResult_made (itemsAsync env items (.new (target.name.getD "_") .auto))
      (arrayField target) state
    simp only [extractStorageAsync, extractOneAsync]
    exact owned_shape made

/-- A pipe owns what goes into it. -/
theorem pipeStorage_eq (items : List PipeFun) (some_item : items ≠ []) (target : EvaluationTarget)
    (storage : Option FieldStorage) :
    pipeStorage env items target storage =
      owned (pipeOne env items target (storage.map env.own)) := by
  have folded : ∀ (rest : List PipeFun) (field : DataField),
      rest.foldl (fun storage function => .fromOwned (env.valueCacu function (env.own storage)))
        (FieldStorage.fromOwned field) = .fromOwned (applyPipe env rest field) := by
    intro rest
    induction rest with
    | nil => exact fun _ => rfl
    | cons function rest ih => exact fun field => ih (env.valueCacu function field)
  cases storage with
  | none => cases remove : items.any env.isRemove <;> simp [pipeStorage, pipeOne, remove, owned]
  | some storage =>
    cases items with
    | nil => exact absurd rfl some_item
    | cons function rest =>
      exact congrArg some (folded rest (env.valueCacu function (env.own storage)))

/-- The source of a pipe, owned, against the owned source. -/
theorem source_shape (source : PipeSource PipeFun) {symbols : Bool}
    (parsed : source.Parsed symbols) (target : EvaluationTarget) (state : State) :
    match source.sharedRead env target state with
    | none => observed env.own (sourceStorageAsync env source target state) =
        sourceOneAsync env source target state
    | some (field, curName) => ∃ after,
        sourceStorageAsync env source target state = some (some (.shared field curName), after) ∧
          sourceOneAsync env source target state = some (some field, after) := by
  have own_owned : ∀ field, env.own (.owned field) = field := fun _ => rfl
  have own_shared : ∀ field, env.own (.fromShared field) = field := by
    intro field
    simp [Externals.own, FieldStorage.fromShared, FieldStorage.intoOwned, env.ownedName_self]
  have settle : ∀ {read storage one}, Shape Faithful read storage one →
      match (read : Option (DataField × String)) with
      | none => observed env.own storage = one
      | some (field, curName) => ∃ after,
          storage = some (some (.shared field curName), after) ∧ one = some (some field, after) := by
    intro read storage one shape
    cases read with
    | none => exact shape env.own own_owned own_shared
    | some found => exact shape
  cases source with
  | accessor direct =>
    simp only [PipeSource.sharedRead, sourceStorageAsync, sourceOneAsync]
    exact settle (direct_shape env direct target state).faithful
  | accessDirect op =>
    simp only [PipeSource.sharedRead, sourceStorageAsync, sourceOneAsync]
    rw [ownedResult_run]
    exact ownedResult_faithful _ env.own own_owned own_shared
  | precise eval =>
    simp only [PipeSource.sharedRead, sourceStorageAsync, sourceOneAsync]
    simp only [PipeSource.Parsed] at parsed
    cases lookup : eval.isLookup with
    | true =>
      cases eval with
      | lookup dictSymbol key default compiled =>
        exact lookup_owned env dictSymbol key default compiled target state
      | _ => cases lookup
    | false =>
      obtain ⟨eval_parsed, no_pipe⟩ := parsed.parsed
      exact settle (eval_shape env eval eval_parsed no_pipe lookup target state)

theorem current_owned (field : DataField) : (FieldStorage.owned field).current = field :=
  field.setName_self

theorem setName_eq_self {field : DataField} {name : String} :
    field.setName name = field ↔ name = field.name := by
  constructor
  · intro same
    rw [← same]
    rfl
  · rintro rfl
    exact field.setName_self

theorem owned_current (field : Option DataField) :
    (owned field).map FieldStorage.current = field := by
  cases field with
  | none => rfl
  | some field => exact congrArg some (current_owned field)

theorem pipe_iff (source : PipeSource PipeFun) (items : List PipeFun) {symbols : Bool}
    (some_item : items ≠ []) (parsed : source.Parsed symbols) (target : EvaluationTarget)
    (state : State) :
    observed FieldStorage.current (extractStorageAsync env (.pipe source items) target state) =
        extractOneAsync env (.pipe source items) target state ↔
      NamesAgree env (.pipe source items) target state := by
  have shape := source_shape env source parsed target state
  simp only [extractStorageAsync, extractOneAsync, NamesAgree, eval_bind,
    pipeStorage_eq env items some_item]
  cases shared : source.sharedRead env target state with
  | some found =>
    obtain ⟨field, curName⟩ := found
    simp only [shared] at shape
    obtain ⟨after, storage_run, one_run⟩ := shape
    simp only [storage_run, one_run, Option.bind_some, observed, eval_pure, Option.map_some,
      owned_current, pipeOne, Option.some.injEq, Prod.mk.injEq, and_true]
    constructor
    · rintro same _ _ ⟨rfl, rfl⟩
      exact same
    · intro same
      exact same field curName ⟨rfl, rfl⟩
  | none =>
    simp only [shared] at shape
    simp only [← shape, reduceCtorEq, false_implies, implies_true, iff_true]
    cases sourceStorageAsync env source target state with
    | none => rfl
    | some result => simp [observed, owned_current]

/-- A storage is the owned field under its current name, with the same effects on the records,
    exactly when no shared field is read under a new name that shows. -/
theorem storage_eq_one_iff (eval : PreciseEvaluator PipeFun) (symbols : Bool)
    (parsed : eval.Parsed symbols) (no_lookup : eval.isLookup = false)
    (target : EvaluationTarget) (state : State) :
    observed FieldStorage.current (extractStorageAsync env eval target state) =
        extractOneAsync env eval target state ↔ NamesAgree env eval target state := by
  cases piped : eval.isPipe with
  | true =>
    cases eval with
    | pipe source items =>
      rw [PreciseEvaluator.Parsed] at parsed
      exact pipe_iff env source items parsed.1 parsed.2 target state
    | _ => cases piped
  | false =>
    have shape := eval_shape env eval parsed piped no_lookup target state
    have agree : NamesAgree env eval target state ↔ ∀ field curName,
        eval.sharedRead env target state = some (field, curName) → curName = field.name := by
      cases eval with
      | pipe source items => cases piped
      | _ => rfl
    rw [agree]
    cases shared : eval.sharedRead env target state with
    | none =>
      rw [shared] at shape
      have same := shape FieldStorage.current current_owned (fun field => field.setName_self)
      simp [same]
    | some found =>
      obtain ⟨field, curName⟩ := found
      rw [shared] at shape
      obtain ⟨after, storage_run, one_run⟩ := shape
      simp only [storage_run, one_run, observed, Option.map_some, Option.some.injEq,
        Prod.mk.injEq, and_true]
      constructor
      · rintro same _ _ ⟨rfl, rfl⟩
        exact setName_eq_self.mp same
      · intro same
        exact setName_eq_self.mpr (same field curName ⟨rfl, rfl⟩)

/-- `skip_empty`. -/
def skipEmpty (field : DataField) : DataField :=
  match field.value with
  | .array [] | .int 0 | .float 0 | .chars "" | .obj [] => .fromIgnore field.name
  | _ => field

/-- An environment whose only pipe function is `skip_empty`. -/
def skipEmptyOnly : Externals Unit where
  isEmpty value := match value with | .chars "" | .null => true | _ => false
  ownedName _ curName := curName
  ownedName_self _ := rfl
  valueCacu _ := skipEmpty
  isRemove _ := false
  metaConv field _ := field
  compareDatafield left right _ :=
    match left.value, right.value with | .chars a, .chars b => a = b | _, _ => false
  matchWithFunction _ _ := false
  typeName _ := "auto"
  wildMatches pattern name := pattern = name
  strfmt text _ := some text
  now _ name := ⟨.time, name, .other "2025-10-11 22:14:15"⟩
  normalizeLookupKey key := key
  isFinite _ := true
  negate number := some number
  evalBinary _ _ _ := none
  evalFun _ number := some number
  parseIp _ := none
  isIntranet _ := false

def readOf (name : String) : DirectAccessor := .read ⟨some name, [], [], none⟩

/-- The static field `SITE`, written to the target record as `site`. -/
def sharedSite : State := ⟨[], [.shared (.fromChars "SITE" "bj") "site"]⟩

theorem storage_eq_one_of_source :
    observed FieldStorage.current (extractStorageAsync skipEmptyOnly
        (.tdc ⟨readOf "city", none⟩) (.new "a" .auto) ⟨[.fromChars "city" "bj"], []⟩) =
      extractOneAsync skipEmptyOnly
        (.tdc ⟨readOf "city", none⟩) (.new "a" .auto) ⟨[.fromChars "city" "bj"], []⟩ :=
  (storage_eq_one_iff skipEmptyOnly (.tdc ⟨readOf "city", none⟩) false
    (by simp [PreciseEvaluator.Parsed]) rfl (.new "a" .auto) ⟨[.fromChars "city" "bj"], []⟩).mpr
    (by simp [NamesAgree, PreciseEvaluator.sharedRead, DirectAccessor.sharedRead, readOf,
      FieldRead.extractStorage, FieldRead.key, findKey, findTdc, findTdr, DataField.fromChars,
      FieldStorage.fromOwned])

/-- `read(site)`: the storage is named `site`, the owned field `SITE`. -/
theorem shared_read_renamed :
    extractStorageAsync skipEmptyOnly (.tdc ⟨readOf "site", none⟩) (.new "a" .auto) sharedSite =
        some (some (.shared (.fromChars "SITE" "bj") "site"), sharedSite) ∧
      extractOneAsync skipEmptyOnly (.tdc ⟨readOf "site", none⟩) (.new "a" .auto) sharedSite =
        some (some (.fromChars "SITE" "bj"), sharedSite) ∧
      (FieldStorage.shared (.fromChars "SITE" "bj") "site").current ≠ .fromChars "SITE" "bj" := by
  refine ⟨rfl, rfl, ?_⟩
  intro same
  exact absurd (congrArg DataField.name same) (by decide)

end WarpMotor.Oml
