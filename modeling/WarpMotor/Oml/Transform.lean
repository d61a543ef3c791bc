import WarpMotor.Oml.Resolved

/-!
A model run on whole records. The items see the fields of the source record
through `as_field`, so a shared field is seen under the name it was made with,
whatever name it was given since.
-/
namespace WarpMotor.Oml

section

variable {PipeFun : Type} (env : Externals PipeFun) (runQuery : RunQuery)

/-- `RecordRef::from`. -/
def recordRef (record : List FieldStorage) : List DataField := record.map FieldStorage.asField

/-- A field whose name starts with `__` is made ignored. -/
def ObjModel.cleanupTempFields (model : ObjModel PipeFun) (out : List FieldStorage) :
    List FieldStorage :=
  if model.hasTempFields then
    out.map (fun item =>
      if peekStr "__".toList item.getName.toList then .fromOwned (.fromIgnore item.getName)
      else item)
  else out

/-- `none` is a panic. -/
def ObjModel.transformRefAsync (model : ObjModel PipeFun) (record : List FieldStorage) :
    Option (List FieldStorage) :=
  (evalItems env runQuery model.items ⟨recordRef record, []⟩).map
    (fun result => model.cleanupTempFields result.2.dst)

def ObjModel.transformBatchRefAsync (model : ObjModel PipeFun)
    (records : List (List FieldStorage)) : Option (List (List FieldStorage)) :=
  records.mapM (model.transformRefAsync env runQuery)

end

/-- The record with every shared field in it made owned under its current name. -/
def ownedCopy (record : List FieldStorage) : List FieldStorage :=
  record.map (fun storage => .fromOwned storage.current)

/-- The same fields in order, each seen by its type, its current name and its value. -/
def SameOutput (left right : Option (List FieldStorage)) : Prop :=
  left.map (fun out => out.map FieldStorage.view) =
    right.map (fun out => out.map FieldStorage.view)

/-- The field has the name that it was made with. -/
def FieldStorage.KeepsName (storage : FieldStorage) : Prop :=
  storage.getName = storage.asField.name

theorem recordRef_copy_iff (record : List FieldStorage) :
    (recordRef (ownedCopy record)).map DataField.name = (recordRef record).map DataField.name ↔
      ∀ storage ∈ record, storage.KeepsName := by
  induction record with
  | nil => simp [recordRef, ownedCopy]
  | cons storage rest ih =>
    have copied : recordRef (ownedCopy (storage :: rest)) =
        storage.current :: recordRef (ownedCopy rest) := rfl
    have seen : recordRef (storage :: rest) = storage.asField :: recordRef rest := rfl
    rw [copied, seen, List.map_cons, List.map_cons, List.cons.injEq, ih, List.forall_mem_cons]
    rfl

theorem recordRef_copy {record : List FieldStorage}
    (kept : ∀ storage ∈ record, storage.KeepsName) :
    recordRef (ownedCopy record) = recordRef record := by
  induction record with
  | nil => rfl
  | cons storage rest ih =>
    obtain ⟨first, others⟩ := List.forall_mem_cons.mp kept
    have same : storage.current = storage.asField := by
      rw [FieldStorage.current, setName_eq_self]
      exact first
    have copied : recordRef (ownedCopy (storage :: rest)) =
        storage.current :: recordRef (ownedCopy rest) := rfl
    rw [copied, same, ih others]
    rfl

section

variable {PipeFun : Type} (env : Externals PipeFun)

/-- `* = read() | to_json ;` -/
def everyField (toJson : PipeFun) : ObjModel PipeFun :=
  ⟨"every", [], true, [.batch (.new "*" .auto) (.pipe ⟨.read ⟨none, [], [], none⟩, none⟩ [toJson])],
    [], false, []⟩

variable {toJson : PipeFun} {json : Value → String}

theorem batchNeeds_all (src : List DataField) {matchIt : DataField → Bool}
    (every : ∀ field, matchIt field = true) : batchNeeds matchIt ⟨src, []⟩ [] = (src, []) := by
  unfold batchNeeds
  rw [List.partition_eq_filter_filter, Prod.mk.injEq]
  constructor
  · rw [List.filter_eq_self]
    intro field _
    simp [every]
  · rw [List.filter_eq_nil_iff]
    intro field _
    simp [every]

theorem emitBatch_plain {fields : List DataField}
    (plain : ∀ field ∈ fields, (FieldStorage.owned field).isRemoveMarker = false) :
    emitBatch [] fields = fields.map .owned := by
  have none_removed : fields.filter (fun field =>
      !(FieldStorage.owned field).isRemoveMarker) = fields := by
    rw [List.filter_eq_self]
    intro field member
    simp [plain field member]
  unfold emitBatch
  dsimp only
  rw [none_removed]
  rfl

theorem everyField_output (every : ∀ name, env.wildMatches "*" name = true)
    (printed : ∀ field, env.valueCacu toJson field =
      ⟨.other "json", field.name, .chars (json field.value)⟩)
    (kept : env.isRemove toJson = false) (runQuery : RunQuery) (record : List FieldStorage) :
    (everyField toJson).transformRefAsync env runQuery record =
      some ((recordRef record).map (fun field =>
        .owned ⟨.other "json", field.name, .chars (json field.value)⟩)) := by
  have matched : ∀ field, batchMatches env (.new "*" .auto) field = true := by
    intro field
    have star : (EvaluationTarget.new "*" .auto).safeName = "*" := rfl
    have any_type : (EvaluationTarget.new "*" .auto).dataType = .auto := rfl
    simp [batchMatches, star, every, any_type]
  have taken := batchNeeds_all (recordRef record) matched
  have fields : (recordRef record).filterMap (batchField env (.new "*" .auto) [toJson]) =
      (recordRef record).map (fun field =>
        ⟨.other "json", field.name, .chars (json field.value)⟩) := by
    rw [← List.filterMap_eq_map]
    congr 1
    funext field
    simp [batchField, printed, FieldStorage.isRemoveMarker, FieldStorage.getMeta,
      FieldStorage.asField, Value.isNull, EvaluationTarget.new]
  have ran : evalItems env runQuery (everyField toJson).items ⟨recordRef record, []⟩ =
      some ((), ⟨[], emitBatch [] ((recordRef record).filterMap
        (batchField env (.new "*" .auto) [toJson]))⟩) := by
    simp only [evalItems, everyField, List.forM_eq_forM, List.forM_cons, List.forM_nil, eval_bind,
      evalProc, evalBatch, List.any_cons, List.any_nil, kept, Bool.or_false, Bool.false_eq_true,
      if_false, taken]
    rfl
  rw [ObjModel.transformRefAsync, ran, fields, emitBatch_plain]
  · simp [ObjModel.cleanupTempFields, everyField]
  · intro field member
    obtain ⟨origin, _, rfl⟩ := List.mem_map.mp member
    rfl

/-- Every model answers a record as it answers its copy of owned fields exactly when each field of
    the record still has the name that it was made with. -/
theorem transform_ignores_storage_iff (every : ∀ name, env.wildMatches "*" name = true)
    (printed : ∀ field, env.valueCacu toJson field =
      ⟨.other "json", field.name, .chars (json field.value)⟩)
    (kept : env.isRemove toJson = false) (record : List FieldStorage) :
    (∀ (model : ObjModel PipeFun) (runQuery : RunQuery),
      SameOutput (model.transformRefAsync env runQuery record)
        (model.transformRefAsync env runQuery (ownedCopy record))) ↔
      ∀ storage ∈ record, storage.KeepsName := by
  constructor
  · intro same
    have shown := same (everyField toJson) (fun _ _ => [])
    rw [everyField_output env every printed kept, everyField_output env every printed kept] at shown
    have names := congrArg (Option.map (List.map DataField.name)) shown
    simp only [Option.map_some, List.map_map, Option.some.injEq] at names
    exact (recordRef_copy_iff record).mp names.symm
  · intro names model runQuery
    rw [SameOutput, ObjModel.transformRefAsync, ObjModel.transformRefAsync, recordRef_copy names]

end

def jsonText : Value → String
  | .chars text => "\"" ++ text ++ "\""
  | _ => "null"

/-- An environment whose only pipe function is `to_json`, for texts. -/
def toJsonOnly : Externals Unit where
  isEmpty := skipEmptyOnly.isEmpty
  ownedName := skipEmptyOnly.ownedName
  ownedName_self := skipEmptyOnly.ownedName_self
  valueCacu _ field := ⟨.other "json", field.name, .chars (jsonText field.value)⟩
  isRemove _ := false
  metaConv field _ := field
  compareDatafield := skipEmptyOnly.compareDatafield
  matchWithFunction := skipEmptyOnly.matchWithFunction
  typeName := skipEmptyOnly.typeName
  wildMatches pattern name := pattern = "*" || pattern = name
  strfmt := skipEmptyOnly.strfmt
  now := skipEmptyOnly.now
  normalizeLookupKey := skipEmptyOnly.normalizeLookupKey
  isFinite := skipEmptyOnly.isFinite
  negate := skipEmptyOnly.negate
  evalBinary := skipEmptyOnly.evalBinary
  evalFun := skipEmptyOnly.evalFun
  parseIp := skipEmptyOnly.parseIp
  isIntranet := skipEmptyOnly.isIntranet

theorem owned_record_ignores_storage :
    SameOutput
      ((everyField ()).transformRefAsync toJsonOnly noRows [.owned (.fromChars "city" "bj")])
      ((everyField ()).transformRefAsync toJsonOnly noRows
        (ownedCopy [.owned (.fromChars "city" "bj")])) := by
  have keeps : ∀ storage ∈ [FieldStorage.owned (.fromChars "city" "bj")], storage.KeepsName := by
    intro storage member
    rw [List.mem_singleton.mp member]
    rfl
  have every : ∀ name, toJsonOnly.wildMatches "*" name = true := fun name => by simp [toJsonOnly]
  have printed : ∀ field, toJsonOnly.valueCacu () field =
      ⟨.other "json", field.name, .chars (jsonText field.value)⟩ := fun field => rfl
  exact (transform_ignores_storage_iff toJsonOnly every printed rfl _).mpr keeps _ _

/-- `site = SITE ;`, with `SITE` a static field. -/
def writesSite : ObjModel Unit :=
  ⟨"first", [], true, [.single [.new "site" .auto] (.objArc (.fromChars "SITE" "bj")) true], [],
    false, []⟩

/-- `r = read(site) ;` -/
def readsSite : ObjModel Unit :=
  ⟨"second", [], true, [.single [.new "r" .auto] (.tdc ⟨readOf "site", none⟩) true], [], false, []⟩

/-- The second model does not see the field that the first one wrote, and sees it in the copy. -/
theorem second_model_misses_static_field :
    writesSite.transformRefAsync toJsonOnly noRows [] =
        some [.shared (.fromChars "SITE" "bj") "site"] ∧
      readsSite.transformRefAsync toJsonOnly noRows [.shared (.fromChars "SITE" "bj") "site"] =
        some [] ∧
      readsSite.transformRefAsync toJsonOnly noRows
          (ownedCopy [.shared (.fromChars "SITE" "bj") "site"]) =
        some [.owned (.fromChars "r" "bj")] ∧
      ¬ SameOutput
        (readsSite.transformRefAsync toJsonOnly noRows [.shared (.fromChars "SITE" "bj") "site"])
        (readsSite.transformRefAsync toJsonOnly noRows
          (ownedCopy [.shared (.fromChars "SITE" "bj") "site"])) := by
  have missed : readsSite.transformRefAsync toJsonOnly noRows
      [.shared (.fromChars "SITE" "bj") "site"] = some [] := rfl
  have found : readsSite.transformRefAsync toJsonOnly noRows
      (ownedCopy [.shared (.fromChars "SITE" "bj") "site"]) =
        some [.owned (.fromChars "r" "bj")] := rfl
  refine ⟨rfl, missed, found, ?_⟩
  rw [missed, found]
  intro same
  cases same

end WarpMotor.Oml
