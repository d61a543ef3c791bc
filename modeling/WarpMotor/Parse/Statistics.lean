import WarpMotor.Parse.MultiParser
import WarpMotor.Stats.Metrics

/-!
The statistics of one rule. A parsed event is counted as begun before the
annotations and as ended after them. The begin carries no record, or one with
the names of package and rule when a request asks for these; the end carries
the annotated record. The two are counted under one dimension for some
requests and records only; a run of such events never has more ends than
begins in any record it reports.
-/
namespace WarpMotor
variable {Progress : Type}

structure StatPipeline (Progress : Type) where
  pipeline : WplPipeline Progress
  packageName : String
  ruleName : String
  statNeedPkgRule : Bool
  statExt : MetricCollectors

namespace StatPipeline

def new (pipeline : WplPipeline Progress) (packageName ruleName : String)
    (statReqs : List StatReq) : StatPipeline Progress where
  pipeline := pipeline
  packageName := packageName
  ruleName := ruleName
  statNeedPkgRule := statReqs.any (fun r =>
    r.collect.any (fun f => f == "wp_package_name" || f == "wp_rule_name"))
  statExt := .new pipeline.wplKey statReqs

def packageField (p : StatPipeline Progress) : DataField :=
  .fromChars "wp_package_name" p.packageName

def ruleField (p : StatPipeline Progress) : DataField := .fromChars "wp_rule_name" p.ruleName

/-- `DataRecord::from` of the two names. -/
def statBegin (p : StatPipeline Progress) : DataRecord := ⟨0, [p.packageField, p.ruleField]⟩

def appendMissing (record : DataRecord) (field : DataField) : DataRecord :=
  if (record.field field.name).isNone then record.append field else record

/-- The record's own fields come first; the rule's names fill in what is missing. -/
def statEnd (p : StatPipeline Progress) (record : DataRecord) : DataRecord :=
  appendMissing (appendMissing record p.packageField) p.ruleField

def beginData (p : StatPipeline Progress) : Option DataRecord :=
  if p.statNeedPkgRule then some p.statBegin else none

def endData (p : StatPipeline Progress) (record : DataRecord) : DataRecord :=
  if p.statNeedPkgRule then p.statEnd record else record

variable (fmtField : DataField → String)

/-- An annotation that fails returns after the begin and before the end. -/
def finishSuccess (p : StatPipeline Progress) (record : DataRecord) (left : String)
    (event : SourceEvent) :
    StatPipeline Progress × Except WparseError (DataRecord × String × SideRecords) :=
  let begun := p.statExt.recordBegin fmtField p.pipeline.wplKey p.beginData
  match annotate event p.pipeline.funVec record [] with
  | .error e => ({ p with statExt := begun }, .error e)
  | .ok (record, sides) =>
    let ended := begun.recordEnd fmtField p.pipeline.wplKey (some (p.endData record))
    ({ p with statExt := ended }, .ok (record, left, sides))

def proc (p : StatPipeline Progress) (event : SourceEvent) :
    StatPipeline Progress × Except WparseError (DataRecord × String × SideRecords) × Progress :=
  match p.pipeline.parser event.eventId event.payload with
  | (.ok (record, left), progress) =>
    let (p, result) := p.finishSuccess fmtField record left event
    (p, result, progress)
  | (.error e, progress) => (p, .error e, progress)

/-- An idle period still shows the rule's dimensions. -/
def sendStat (rank : Ranking) (p : StatPipeline Progress) (answers : List MonitorAnswer) :
    StatPipeline Progress × List StatReport :=
  let statExt :=
    if p.statExt.hasPendingData then p.statExt
    else if p.statNeedPkgRule then
      p.statExt.touchTaskRecord fmtField p.pipeline.wplKey p.statBegin
    else p.statExt.touchTaskUnit p.pipeline.wplKey
  let (statExt, sent) := statExt.sendStat rank answers
  ({ p with statExt }, sent)

/-- Counting changes nothing about the result. -/
theorem finish_success_result (p : StatPipeline Progress) (record : DataRecord) (left : String)
    (event : SourceEvent) :
    (p.finishSuccess fmtField record left event).2 = p.pipeline.finishSuccess record left event := by
  unfold finishSuccess WplPipeline.finishSuccess
  cases annotate event p.pipeline.funVec record [] with
  | error e => rfl
  | ok result => rfl

theorem proc_result (p : StatPipeline Progress) (event : SourceEvent) :
    (p.proc fmtField event).2 = p.pipeline.proc event := by
  unfold proc WplPipeline.proc
  cases p.pipeline.parser event.eventId event.payload with
  | mk parsed progress =>
    cases parsed with
    | error e => rfl
    | ok result =>
      dsimp only
      rw [finish_success_result]

/-! The dimensions of one event. -/

def beginDim (p : StatPipeline Progress) (req : StatReq) : StatDim :=
  .makeDim req.target p.pipeline.wplKey
    (MetricCollectors.keyOf (MetricCollectors.beginKey fmtField p.beginData) req).dim

def endDim (p : StatPipeline Progress) (req : StatReq) (record : DataRecord) : StatDim :=
  .makeDim req.target p.pipeline.wplKey
    (MetricCollectors.keyOf (MetricCollectors.endKey fmtField (some (p.endData record))) req).dim

/-- The record has no field of that name, or one that stands for the rule's own name and prints
    like it. -/
def KeyAgrees (p : StatPipeline Progress) (record : DataRecord) (key : String) : Prop :=
  ∀ field, record.field key = some field →
    (key = "wp_package_name" ∧ fmtField field = fmtField p.packageField) ∨
      (key = "wp_rule_name" ∧ fmtField field = fmtField p.ruleField)

/-- When the begin has the names of package and rule, every collected key agrees. Otherwise the
    request collects no field, or only names of sinks that the record does not have. -/
def Agrees (p : StatPipeline Progress) (req : StatReq) (record : DataRecord) : Prop :=
  if p.statNeedPkgRule then ∀ key ∈ req.collect, p.KeyAgrees fmtField record key
  else req.collect = [] ∨
    (isTargetOnlyCollect req.collect = true ∧ ∀ key ∈ req.collect, record.field key = none)

theorem field_append_missing (record : DataRecord) (field : DataField) (key : String) :
    (appendMissing record field).field key =
      (record.field key).or (if field.name = key then some field else none) := by
  unfold appendMissing
  by_cases own : field.name = key
  · subst own
    rw [if_pos rfl]
    cases found : record.field field.name with
    | none =>
      simp only [DataRecord.field] at found
      simp [DataRecord.field, DataRecord.append, found]
    | some held => simp [found]
  · rw [if_neg own, Option.or_none]
    split
    · have other : (field.name == key) = false := by simpa using own
      simp [DataRecord.field, DataRecord.append, other]
    · rfl

theorem field_stat_begin (p : StatPipeline Progress) (key : String) :
    p.statBegin.field key =
      if "wp_package_name" = key then some p.packageField
      else if "wp_rule_name" = key then some p.ruleField else none := by
  by_cases package : "wp_package_name" = key
  · subst package
    rfl
  · by_cases rule : "wp_rule_name" = key
    · subst rule
      rfl
    · simp [statBegin, DataRecord.field, packageField, ruleField, DataField.fromChars, package,
        rule]

theorem field_stat_end (p : StatPipeline Progress) (record : DataRecord) (key : String) :
    (p.statEnd record).field key = (record.field key).or (p.statBegin.field key) := by
  rw [statEnd, field_append_missing, field_append_missing, field_stat_begin, Option.or_assoc]
  congr 1
  by_cases package : "wp_package_name" = key
  · simp [packageField, DataField.fromChars, package]
  · by_cases rule : "wp_rule_name" = key
    · simp [packageField, ruleField, DataField.fromChars, package, rule]
    · simp [packageField, ruleField, DataField.fromChars, package, rule]

theorem key_agrees_iff (p : StatPipeline Progress) (record : DataRecord) (key : String) :
    (p.statBegin.field key).map fmtField = ((p.statEnd record).field key).map fmtField ↔
      p.KeyAgrees fmtField record key := by
  rw [field_stat_end]
  cases found : record.field key with
  | none => simp [KeyAgrees, found]
  | some field =>
    simp only [KeyAgrees, found, Option.some_inj, forall_eq', Option.some_or, Option.map_some]
    rw [field_stat_begin]
    by_cases package : "wp_package_name" = key
    · subst package
      simp [eq_comm]
    · by_cases rule : "wp_rule_name" = key
      · subst rule
        simp [eq_comm]
      · simp [package, rule, Ne.symm package, Ne.symm rule]

/-- The begin and the end of an event are counted under one dimension exactly when the request and
    the annotated record agree. -/
theorem same_dim_iff (p : StatPipeline Progress) (req : StatReq) (record : DataRecord) :
    p.beginDim fmtField req = p.endDim fmtField req record ↔ p.Agrees fmtField req record := by
  unfold beginDim endDim Agrees MetricCollectors.keyOf
  rw [StatDim.makeDim, StatDim.makeDim, StatDim.mk.injEq]
  by_cases empty : req.collect = []
  · simp [empty]
  · rw [if_neg empty, if_neg empty]
    cases need : p.statNeedPkgRule with
    | true =>
      simp only [MetricCollectors.beginKey, MetricCollectors.endKey, beginData, endData, need,
        if_true, DatKey.dim, extractMetricDimensionsWithTarget, true_and, DataDim.mk.injEq,
        List.map_inj_left, key_agrees_iff]
    | false =>
      simp only [MetricCollectors.beginKey, MetricCollectors.endKey, beginData, endData, need,
        if_false, Bool.false_eq_true, true_and, empty, false_or]
      cases only : isTargetOnlyCollect req.collect with
      | true =>
        have missing : ∀ key, none = (record.field key).map fmtField ↔ record.field key = none := by
          intro key
          rw [eq_comm, Option.map_eq_none_iff]
        simp only [if_true, DatKey.dim, extractMetricDimensionsFromTargetOnly,
          extractMetricDimensionsWithTarget, DataDim.mk.injEq, List.map_inj_left, true_and, missing]
      | false =>
        simp only [if_false, Bool.false_eq_true, DatKey.dim, DataDim.empty,
          extractMetricDimensionsWithTarget, DataDim.mk.injEq, false_and, iff_false]
        intro same
        exact empty (List.map_eq_nil_iff.mp same.symm)

end StatPipeline

end WarpMotor
