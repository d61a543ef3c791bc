import WarpMotor.Lib.Runs
import WarpMotor.Sink.Runtime

/-!
The dispatcher of a sink group: how the units of a package reach its runtimes.
A routed group goes through the OML models, the conditions and the tags of
each sink; an infrastructure group spreads the units over the ready replicas
of each name. Model transforms, hash order, diagnostics and the answers of the
channels to the error group and to the monitor come from outside and are
indexed by a tick, as for the runtimes.
-/
namespace WarpMotor

structure ObjModel where
  name : String
  rules : List (String → Bool)

inductive DataModel where
  | stub
  | object (model : ObjModel)

/-- `hashOrder` is the order in which a hash map hands out its entries. -/
structure DispatchEnv where
  transform : Nat → ObjModel → List DataRecord → List DataRecord
  takeSummary : Nat → Nat → Option String
  sendError : Nat → Except SinkError Unit
  sendIngress : Nat → Except SinkError Unit
  hashOrder : Nat → List (String × SinkPackage) → List (String × SinkPackage)
  hashOrder_perm : ∀ tick groups, (hashOrder tick groups).Perm groups

/-- `errors` is the history of the units sent to the error group. -/
structure SinkDispatcher (M : Type) where
  env : DispatchEnv
  name : String
  sinks : List (SinkSlot M)
  models : List DataModel
  globalTags : Option GlobalTags
  ingressPending : Nat
  errors : List SinkRecUnit
  tick : Nat

abbrev DispatchResult (M A : Type) := SinkDispatcher M × Except SinkError A

def ProcMeta.abstractInfo : ProcMeta → String
  | .wplName name => "wpl:" ++ name
  | .omlName name => "oml:" ++ name
  | .null => "null"

/-- `entry(key).or_default().push(unit)`. -/
def pushEntry (key : String) (unit : SinkRecUnit) :
    List (String × SinkPackage) → List (String × SinkPackage)
  | [] => [(key, [unit])]
  | (other, units) :: rest =>
    if other = key then (other, units ++ [unit]) :: rest
    else (other, units) :: pushEntry key unit rest

def takeEntry (key : String) :
    List (String × SinkPackage) → Option SinkPackage × List (String × SinkPackage)
  | [] => (none, [])
  | (other, units) :: rest =>
    if other = key then (some units, rest)
    else
      let (found, rest) := takeEntry key rest
      (found, (other, units) :: rest)

/-- The workers always pass both channels. -/
def workCtx : SendCtx := ⟨true, true⟩

namespace SinkDispatcher
variable {M : Type}

def hasConditions (d : SinkDispatcher M) : Bool := d.sinks.any (fun slot => slot.cond.isSome)

def getMatchOml (d : SinkDispatcher M) (rule : ProcMeta) : Option ObjModel :=
  d.models.findSome? (fun model =>
    match model, rule with
    | .object om, .wplName name => if om.rules.any (fun wild => wild name) then some om else none
    | _, _ => none)

def annotateErr (d : SinkDispatcher M) (record : DataRecord) (rule : ProcMeta) (model : String)
    (srcCnt outCnt : Nat) (diag : Option String) : DataRecord :=
  let record := record.append (DataField.fromChars "__err_kind" "oml_transform_empty")
  let record := match rule with
    | .wplName name => record.append (DataField.fromChars "__wpl_rule" name)
    | _ => record
  let record := record.append (DataField.fromChars "__sink_group" d.name)
  let record := if model = "" then record
    else record.append (DataField.fromChars "__oml_model" model)
  let record := record.append (DataField.fromInt "__src_field_count" srcCnt)
  let record := record.append (DataField.fromInt "__out_field_count" outCnt)
  let record := match diag with
    | some diag => record.append (DataField.fromChars "__diag" diag)
    | none => record
  record.append (DataField.fromChars "__hint"
    "OML 输出为空；请检查模型 rules 是否匹配当前 WPL 路径，以及 read/take 字段名是否存在")

def stampGlobal (d : SinkDispatcher M) (record : DataRecord) : DataRecord :=
  match d.globalTags with
  | some tags => applyGlobalTags record tags
  | none => record

/-- `run_oml_pipeline_vec_async`: the transformed units, then the failed ones. -/
def runOmlPipeline (d : SinkDispatcher M) (rule : ProcMeta) (batch : SinkPackage) :
    SinkDispatcher M × SinkPackage × SinkPackage :=
  match d.getMatchOml rule with
  | none => (d, batch, [])
  | some om =>
    let outputs := batch.zip (d.env.transform d.tick om (batch.map SinkRecUnit.data))
    let d := { d with tick := d.tick + 1 }
    (d,
      (outputs.filter (fun out => out.2.items ≠ [])).map
        (fun out => ⟨out.1.id, .omlName om.name, out.2⟩),
      (outputs.zipIdx.filter (fun out => out.1.2.items = [])).map
        (fun (out, index) => ⟨out.1.id, out.1.procMeta, d.stampGlobal
          (d.annotateErr out.2 rule om.name out.1.data.items.length out.2.items.length
            (d.env.takeSummary d.tick index))⟩))

/-- A global tag wins over a sink tag of its name. -/
def resolveTagConflicts (d : SinkDispatcher M) (record : DataRecord) (preTags : List DataField) :
    DataRecord :=
  match d.globalTags with
  | some tags =>
    if preTags.any (fun tag => tags.contains tag.name) then applyGlobalTags record tags else record
  | none => record

def appendPreTags (record : DataRecord) (tags : List DataField) : DataRecord :=
  tags.foldl DataRecord.append record

def emitWithoutTransformBatch (d : SinkDispatcher M) (entries : SinkPackage) : List SinkPackage :=
  d.sinks.map (fun slot => entries.map (fun entry =>
    if slot.preTags.isEmpty then entry
    else { entry with
      data := d.resolveTagConflicts (appendPreTags entry.data slot.preTags) slot.preTags }))

def evaluateSinkMatches (d : SinkDispatcher M) (base : DataRecord) : List Bool :=
  d.sinks.map (fun slot =>
    match slot.cond with
    | some cond => cond base == slot.filterExpect
    | none => true)

def pushTransformedRecord (d : SinkDispatcher M) (perSink : List SinkPackage)
    (entry : SinkRecUnit) : List SinkPackage :=
  let base := d.stampGlobal entry.data
  List.zipWith (fun target units =>
      if target.2 then
        units ++ [{ entry with
          data := d.resolveTagConflicts (appendPreTags base target.1.preTags) target.1.preTags }]
      else units)
    (d.sinks.zip (d.evaluateSinkMatches base)) perSink

def fanoutTransformedBatch (d : SinkDispatcher M) (entries : SinkPackage) : List SinkPackage :=
  entries.foldl d.pushTransformedRecord (d.sinks.map (fun _ => []))

/-- `emit_oml_failure` for each failed unit, filed under the rule of the batch. -/
def emitOmlFailures (rule : ProcMeta) : SinkPackage → SinkDispatcher M → DispatchResult M Unit
  | [], d => (d, .ok ())
  | bad :: rest, d =>
    match d.env.sendError d.tick with
    | .error e => ({ d with tick := d.tick + 1 }, .error e)
    | .ok () =>
      emitOmlFailures rule rest { d with
        tick := d.tick + 1, errors := d.errors ++ [⟨bad.id, rule, bad.data⟩] }

/-- One package for each sink of the group. -/
def omlProcBatch (d : SinkDispatcher M) (batch : SinkPackage) (rule : ProcMeta) :
    DispatchResult M (List SinkPackage) :=
  if batch.isEmpty then (d, .ok (d.sinks.map (fun _ => [])))
  else if (d.getMatchOml rule).isNone && !d.hasConditions then
    (d, .ok (d.emitWithoutTransformBatch batch))
  else
    let (d, successes, failures) := d.runOmlPipeline rule batch
    match d.emitOmlFailures rule failures with
    | (d, .error e) => (d, .error e)
    | (d, .ok ()) => (d, .ok (d.fanoutTransformedBatch successes))

section Delivery
variable [DecidableEq M]

/-- Each ready sink takes its own package; the loop ends at the first error. -/
def deliverPerSink :
    List (SinkSlot M) → List SinkPackage → List (SinkSlot M) × Except SinkError Unit
  | slot :: rest, units :: more =>
    if slot.ready && !units.isEmpty then
      match slot.sendPackage workCtx units with
      | (slot, .error e) => (slot :: rest, .error e)
      | (slot, .ok ()) =>
        let (rest, result) := deliverPerSink rest more
        (slot :: rest, result)
    else
      let (rest, result) := deliverPerSink rest more
      (slot :: rest, result)
  | sinks, _ => (sinks, .ok ())

/-- The units of one rule. -/
def sinkRuleUnits (d : SinkDispatcher M) (units : SinkPackage) : DispatchResult M Unit :=
  match units.head? with
  | none => (d, .ok ())
  | some first =>
    match d.omlProcBatch units first.procMeta with
    | (d, .error e) => (d, .error e)
    | (d, .ok perSink) =>
      let (sinks, result) := deliverPerSink d.sinks perSink
      ({ d with sinks }, result)

def sinkRuleGroups : List (String × SinkPackage) → SinkDispatcher M → DispatchResult M Unit
  | [], d => (d, .ok ())
  | (_, units) :: rest, d =>
    match d.sinkRuleUnits units with
    | (d, .error e) => (d, .error e)
    | (d, .ok ()) => sinkRuleGroups rest d

def groupSinkPackage (d : SinkDispatcher M) (package : SinkPackage) : DispatchResult M Nat :=
  let recordsByRule := package.foldl
    (fun groups unit => pushEntry unit.procMeta.abstractInfo unit groups) []
  let order := d.env.hashOrder d.tick recordsByRule
  match sinkRuleGroups order { d with tick := d.tick + 1 } with
  | (d, .error e) => (d, .error e)
  | (d, .ok ()) => (d, .ok package.length)

def replicaKey (name : String) (ordinal : Nat) : String := name ++ "_" ++ toString ordinal

/-- The replica of each name that a unit falls to; `seen` are the ready replicas passed so far. -/
def routeUnit (total : String → Nat) (unit : SinkRecUnit) :
    List (SinkSlot M) → List String → List (String × SinkPackage) → List (String × SinkPackage)
  | [], _, routed => routed
  | slot :: rest, seen, routed =>
    if slot.ready then
      let this := seen.count slot.name
      let routed := if this = unit.id % total slot.name
        then pushEntry (replicaKey slot.name this) unit routed else routed
      routeUnit total unit rest (slot.name :: seen) routed
    else routeUnit total unit rest seen routed

def deliverRouted : List (SinkSlot M) → List String → List (String × SinkPackage) →
    List (SinkSlot M) × Except SinkError Unit
  | [], _, _ => ([], .ok ())
  | slot :: rest, seen, routed =>
    if slot.ready then
      match takeEntry (replicaKey slot.name (seen.count slot.name)) routed with
      | (some units, routed) =>
        if units.isEmpty then
          let (rest, result) := deliverRouted rest (slot.name :: seen) routed
          (slot :: rest, result)
        else
          match slot.sendPackage workCtx units with
          | (sent, .error e) => (sent :: rest, .error e)
          | (sent, .ok ()) =>
            let (rest, result) := deliverRouted rest (slot.name :: seen) routed
            (sent :: rest, result)
      | (none, routed) =>
        let (rest, result) := deliverRouted rest (slot.name :: seen) routed
        (slot :: rest, result)
    else
      let (rest, result) := deliverRouted rest seen routed
      (slot :: rest, result)

def readyTotal (d : SinkDispatcher M) (name : String) : Nat :=
  d.sinks.countP (fun slot => slot.ready && decide (slot.name = name))

def groupSinkBatchDirect (d : SinkDispatcher M) (package : SinkPackage) : DispatchResult M Nat :=
  if package.isEmpty then (d, .ok 0)
  else if d.sinks.all (fun slot => !slot.ready) then (d, .ok 0)
  else
    let routed := package.foldl (fun routed unit => routeUnit d.readyTotal unit d.sinks [] routed) []
    match deliverRouted d.sinks [] routed with
    | (sinks, .error e) => ({ d with sinks }, .error e)
    | (sinks, .ok ()) => ({ d with sinks }, .ok package.length)

end Delivery

def recordIngressBatch (count : Nat) (d : SinkDispatcher M) : SinkDispatcher M :=
  { d with ingressPending := d.ingressPending + count }

def sendIngressStat (d : SinkDispatcher M) : DispatchResult M Unit :=
  ({ d with ingressPending := 0, tick := d.tick + 1 }, d.env.sendIngress d.tick)

/-- A loop over the runtimes of the group. -/
def forSinks (f : SinkSlot M → SinkSlot M × Except SinkError Unit) (d : SinkDispatcher M) :
    DispatchResult M Unit :=
  let (sinks, result) := Runs.tryEach f d.sinks
  ({ d with sinks }, result)

def freezeAll (d : SinkDispatcher M) : SinkDispatcher M :=
  { d with sinks := d.sinks.map SinkSlot.freeze }

/-- Only the first runtime of that name. -/
def activeFirst (name : String) : List (SinkSlot M) → List (SinkSlot M)
  | [] => []
  | slot :: rest =>
    if slot.name = name then slot.activate :: rest else slot :: activeFirst name rest

def activeOne (name : String) (d : SinkDispatcher M) : SinkDispatcher M :=
  { d with sinks := activeFirst name d.sinks }

def procFix (handle : ASinkHandle) (d : SinkDispatcher M) :
    DispatchResult M (Option ASinkHandle) :=
  let (sinks, result) := SinkSlot.procFix handle d.sinks
  ({ d with sinks }, result)

def procEnd (d : SinkDispatcher M) : DispatchResult M Unit := d.forSinks SinkSlot.stopBackends

end SinkDispatcher
end WarpMotor
