import WarpMotor.Record
import WarpMotor.Stats.Groups

/-!
What the collectors of one rule record. A begin may come without a record;
its dimensions are then empty, or all missing when only the names of rules
and sinks are asked for. How a field prints is a parameter.
-/
namespace WarpMotor

def DataRecord.field (record : DataRecord) (name : String) : Option DataField :=
  record.items.find? (fun field => field.name == name)

/-- The named keys have branches of their own in the source that do what the default does. -/
def extractMetricDimensionsWithTarget (fmtField : DataField → String) (tdo : DataRecord)
    (collects : List String) : DataDim :=
  ⟨collects.map (fun key => (tdo.field key).map fmtField)⟩

def extractMetricDimensionsFromTargetOnly (collects : List String) : DataDim :=
  ⟨collects.map (fun _ => none)⟩

def isTargetOnlyCollect (collects : List String) : Bool :=
  collects.all (fun k => k == "wp_package_name" || k == "wp_rule_name" || k == "wp_sink_group" ||
    k == "wp_sink_name")

inductive MonitorAnswer where
  | ok
  | full
  | closed
  deriving DecidableEq, Repr

namespace StatCollector

theorem with_dim_require (c : StatCollector) (ruleKey : String) (key : DatKey)
    {impl : StatCollector → StatDim → StatCollector}
    (kept : ∀ c dim, (impl c dim).require = c.require) :
    (c.withDim ruleKey key impl).require = c.require := by
  cases key with
  | data dim => exact kept c _
  | unit => exact (kept _ _).trans (c.unit_dim_cached ruleKey).2.1

theorem record_begin_require (target : String) (key : DatKey) (c : StatCollector) :
    (c.recordBegin target key).require = c.require :=
  c.with_dim_require target key (fun _ _ => rfl)

theorem record_end_require (target : String) (key : DatKey) (c : StatCollector) :
    (c.recordEnd target key).require = c.require :=
  c.with_dim_require target key (fun _ _ => rfl)

theorem record_task_require (target : String) (key : DatKey) (c : StatCollector) :
    (c.recordTask target key).require = c.require :=
  c.with_dim_require target key (fun _ _ => rfl)

theorem record_task_n_require (target : String) (n : Nat) (key : DatKey) (c : StatCollector) :
    (c.recordTaskN target key n).require = c.require :=
  c.with_dim_require target key (fun _ _ => rfl)

end StatCollector

namespace MetricCollectors

theorem arranged_with (m : MetricCollectors) {items : List StatCollector}
    (same : items.map (·.require) = m.items.map (·.require)) :
    Arranged (items.map (·.require)) m.unitCollectorsEnd m.dataGroups :=
  same ▸ m.arranged

def withItems (m : MetricCollectors) (items : List StatCollector)
    (same : items.map (·.require) = m.items.map (·.require)) : MetricCollectors :=
  { m with items := items, arranged := m.arranged_with same }

theorem for_each_require (m : MetricCollectors) {f : DatKey → StatCollector → StatCollector}
    (kept : ∀ key c, (f key c).require = c.require) (key : List String → DatKey) :
    (m.forEach f key).map (·.require) = m.items.map (·.require) := by
  rw [m.for_each_items, List.map_map]
  exact List.map_congr_left (fun c _ => kept _ c)

theorem map_require (m : MetricCollectors) {f : StatCollector → StatCollector}
    (kept : ∀ c, (f c).require = c.require) :
    (m.items.map f).map (·.require) = m.items.map (·.require) := by
  rw [List.map_map]
  exact List.map_congr_left (fun c _ => kept c)

/-- One call at every collector. -/
def record (m : MetricCollectors) (f : DatKey → StatCollector → StatCollector)
    (kept : ∀ key c, (f key c).require = c.require) (key : List String → DatKey) :
    MetricCollectors :=
  m.withItems (m.forEach f key) (m.for_each_require kept key)

variable (fmtField : DataField → String)

def beginKey (dat : Option DataRecord) (collect : List String) : DatKey :=
  match dat with
  | some tdo => .data (extractMetricDimensionsWithTarget fmtField tdo collect)
  | none =>
    if isTargetOnlyCollect collect then .data (extractMetricDimensionsFromTargetOnly collect)
    else .unit

/-- Without a record all positions behind the front part, those of the groups, get a unit key. -/
def endKey (dat : Option DataRecord) (collect : List String) : DatKey :=
  match dat with
  | some tdo => .data (extractMetricDimensionsWithTarget fmtField tdo collect)
  | none => .unit

def recordBegin (m : MetricCollectors) (target : String) (dat : Option DataRecord) :
    MetricCollectors :=
  m.record (fun key c => c.recordBegin target key) (StatCollector.record_begin_require target)
    (beginKey fmtField dat)

def recordEnd (m : MetricCollectors) (rule : String) (dat : Option DataRecord) :
    MetricCollectors :=
  m.record (fun key c => c.recordEnd rule key) (StatCollector.record_end_require rule)
    (endKey fmtField dat)

def recordTask (m : MetricCollectors) (rule : String) (dat : Option DataRecord) :
    MetricCollectors :=
  m.record (fun key c => c.recordTask rule key) (StatCollector.record_task_require rule)
    (endKey fmtField dat)

def hasPendingData (m : MetricCollectors) : Bool := m.items.any (fun c => !c.record.isEmpty)

def touchTaskUnit (m : MetricCollectors) (target : String) : MetricCollectors :=
  m.withItems (m.items.map (fun c => c.recordTaskN target .unit 0))
    (m.map_require (StatCollector.record_task_n_require target 0 .unit))

def touchTaskRecord (m : MetricCollectors) (target : String) (tdo : DataRecord) :
    MetricCollectors :=
  m.record (fun key c => c.recordTaskN target key 0) (StatCollector.record_task_n_require target 0)
    (fun collect => .data (extractMetricDimensionsWithTarget fmtField tdo collect))

/-- The loop of `send_stat`, with what the monitor channel answers to each report. It gives the
    collectors and the reports the channel took, and leaves at a closed channel. -/
def sendEach (rank : Ranking) : List StatCollector → List MonitorAnswer →
    List StatCollector × List StatReport
  | [], _ => ([], [])
  | c :: rest, answers =>
    let (slices, c) := c.collectStat rank
    match answers.headD .ok with
    | .ok =>
      let (rest, sent) := sendEach rank rest answers.tail
      (c :: rest, slices :: sent)
    | .full =>
      let (rest, sent) := sendEach rank rest answers.tail
      (c :: rest, sent)
    | .closed => (c :: rest, [])

theorem send_each_require (rank : Ranking) (items : List StatCollector) (answers : List MonitorAnswer) :
    (sendEach rank items answers).1.map (·.require) = items.map (·.require) := by
  induction items generalizing answers with
  | nil => rfl
  | cons c rest ih =>
    unfold sendEach
    cases answers.headD .ok with
    | ok => exact congrArg (c.require :: ·) (ih answers.tail)
    | full => exact congrArg (c.require :: ·) (ih answers.tail)
    | closed => rfl

def sendStat (rank : Ranking) (m : MetricCollectors) (answers : List MonitorAnswer) :
    MetricCollectors × List StatReport :=
  (m.withItems (sendEach rank m.items answers).1 (send_each_require rank m.items answers),
    (sendEach rank m.items answers).2)

/-- The requests that are about the rule, those without fields first. -/
def unitReqs (target : String) (statReqs : List StatReq) : List StatReq :=
  statReqs.filter (fun req => req.matchTarget target && req.collect.isEmpty)

def dataReqs (target : String) (statReqs : List StatReq) : List StatReq :=
  statReqs.filter (fun req => req.matchTarget target && !req.collect.isEmpty)

theorem unit_reqs_collect (target : String) (statReqs : List StatReq) :
    ∀ req ∈ unitReqs target statReqs, req.collect = [] := by
  intro req member
  have kept := List.mem_filter.mp member
  simpa using (Bool.and_eq_true_iff.mp kept.2).2

theorem data_reqs_collect (target : String) (statReqs : List StatReq) :
    ∀ req ∈ dataReqs target statReqs, req.collect ≠ [] := by
  intro req member
  have kept := List.mem_filter.mp member
  simpa using (Bool.and_eq_true_iff.mp kept.2).2

theorem require_of_new (target : String) (reqs : List StatReq) :
    (reqs.map (StatCollector.new target)).map (·.require) = reqs := by
  simp [StatCollector.new, Function.comp_def]

theorem arranged_items (target : String) (statReqs : List StatReq) :
    Arranged (((unitReqs target statReqs ++ dataReqs target statReqs).map
        (StatCollector.new target)).map (·.require))
      (unitReqs target statReqs).length
      ((collectGroups ((dataReqs target statReqs).map (·.collect))).map
        (·.shift (unitReqs target statReqs).length)) := by
  rw [require_of_new]
  exact arranged_new (unit_reqs_collect target statReqs) (data_reqs_collect target statReqs)

def new (target : String) (statReqs : List StatReq) : MetricCollectors where
  items := (unitReqs target statReqs ++ dataReqs target statReqs).map (StatCollector.new target)
  unitCollectorsEnd := (unitReqs target statReqs).length
  dataGroups := (collectGroups ((dataReqs target statReqs).map (·.collect))).map
    (·.shift (unitReqs target statReqs).length)
  arranged := arranged_items target statReqs

/-- What a call does to each collector. -/
theorem record_items (m : MetricCollectors) (f : DatKey → StatCollector → StatCollector)
    (kept : ∀ key c, (f key c).require = c.require) (key : List String → DatKey) :
    (m.record f kept key).items = m.items.map (fun c => f (keyOf key c.require) c) :=
  m.for_each_items f key

end MetricCollectors

end WarpMotor
