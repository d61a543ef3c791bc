import Mathlib.Data.List.Forall2
import WarpMotor.Parse.Statistics

/-!
Runs of one rule's statistics: events and collections in any order. The step
lemmas say what a parsed event and a collection do to each collector. When
begin and end of every event share a dimension, no record ever counts more
ends than begins, in a collector or in a report.
-/
namespace WarpMotor
variable {Progress : Type}

namespace StatCollector

/-- `after` is `c` with one begin counted under `begun` and then one end under `ended`. -/
def Counted (c after : StatCollector) (begun ended : StatDim) : Prop :=
  ∃ between, Changed c between begun StatRecord.recBeg ∧
    Changed between after ended StatRecord.recEnd

theorem begin_end_counted (c : StatCollector) (target : String) (first second : DatKey) :
    Counted c ((c.recordBegin target first).recordEnd target second)
      (.makeDim c.require.target target first.dim)
      (.makeDim c.require.target target second.dim) := by
  have begun := c.with_dim_change target first StatRecord.recBeg
  have ended := (c.recordBegin target first).with_dim_change target second StatRecord.recEnd
  rw [record_begin_require] at ended
  exact ⟨_, begun, ended⟩

/-- No more ends than begins. -/
def Balanced (r : StatRecord) : Prop := r.stat.success ≤ r.stat.total

instance (r : StatRecord) : Decidable (Balanced r) :=
  inferInstanceAs (Decidable (r.stat.success ≤ r.stat.total))

def AllBalanced (c : StatCollector) : Prop := c.record.All Balanced

theorem balanced_fresh (req : StatReq) (dim : StatDim) : Balanced (freshRecord req dim) :=
  Nat.le_refl _

theorem balanced_begin {r : StatRecord} (held : Balanced r) : Balanced r.recBeg :=
  Nat.le_succ_of_le held

theorem balanced_task {r : StatRecord} (held : Balanced r) : Balanced r.recBeg.recEnd :=
  Nat.succ_le_succ held

theorem all_balanced_changed {c after : StatCollector} {dim : StatDim}
    {f : StatRecord → StatRecord} (changed : Changed c after dim f)
    (kept : ∀ r, Balanced r → Balanced (f r)) (held : c.AllBalanced) : after.AllBalanced := by
  rw [AllBalanced, changed.record]
  exact LruCache.all_touch (balanced_fresh c.require dim) kept held

/-- A begin and an end under one dimension are one change of its record. -/
theorem all_balanced_counted {c after : StatCollector} {dim : StatDim}
    (counted : Counted c after dim dim) (held : c.AllBalanced) : after.AllBalanced := by
  obtain ⟨between, begun, ended⟩ := counted
  rw [AllBalanced, ended.record, begun.record, begun.require, LruCache.touch_touch]
  exact LruCache.all_touch (balanced_fresh c.require dim) (fun r => balanced_task) held

theorem all_balanced_new (target : String) (req : StatReq) : (new target req).AllBalanced :=
  LruCache.all_empty _ _ _

/-- A record of a report is a record of the cache. -/
theorem collect_stat_from_cache (rank : Ranking) (c : StatCollector) {r : StatRecord}
    (member : r ∈ (c.collectStat rank).1.data) : ∃ dim, c.record.lookup dim = some r := by
  have listed := (rank.topN_subperm _ _).subset member
  obtain ⟨entry, kept, rfl⟩ := List.mem_map.mp listed
  exact ⟨entry.1, AList.mem_lookup_iff.mpr (List.mem_filter.mp kept).1⟩

theorem all_balanced_collect (rank : Ranking) {c : StatCollector} (held : c.AllBalanced) :
    (∀ r ∈ (c.collectStat rank).1.data, Balanced r) ∧ (c.collectStat rank).2.AllBalanced := by
  constructor
  · intro r member
    obtain ⟨dim, found⟩ := collect_stat_from_cache rank c member
    exact held dim r found
  · exact LruCache.all_empty _ _ _

/-- A touch creates a record or changes nothing about it. -/
theorem all_balanced_touch {c : StatCollector} (target : String) (key : DatKey)
    (held : c.AllBalanced) : (c.recordTaskN target key 0).AllBalanced :=
  all_balanced_changed (c.with_dim_change target key (fun r => if 0 < 0 then r.recBegEndN 0 else r))
    (fun _ held => held) held

end StatCollector

namespace MetricCollectors

def AllBalanced (m : MetricCollectors) : Prop := ∀ c ∈ m.items, c.AllBalanced

theorem all_balanced_record {m : MetricCollectors} {f : DatKey → StatCollector → StatCollector}
    (require : ∀ key c, (f key c).require = c.require) {key : List String → DatKey}
    (kept : ∀ key (c : StatCollector), c.AllBalanced → (f key c).AllBalanced)
    (held : m.AllBalanced) : (m.record f require key).AllBalanced := by
  intro c member
  rw [record_items] at member
  obtain ⟨before, listed, rfl⟩ := List.mem_map.mp member
  exact kept _ before (held before listed)

theorem all_balanced_send_each (rank : Ranking) {items : List StatCollector}
    (answers : List MonitorAnswer) (held : ∀ c ∈ items, c.AllBalanced) :
    (∀ c ∈ (sendEach rank items answers).1, c.AllBalanced) ∧
      ∀ report ∈ (sendEach rank items answers).2, ∀ r ∈ report.data, StatCollector.Balanced r := by
  induction items generalizing answers with
  | nil => simp [sendEach]
  | cons c rest ih =>
    have own := StatCollector.all_balanced_collect rank (held c (List.mem_cons_self ..))
    have later := ih answers.tail (fun c member => held c (List.mem_cons_of_mem _ member))
    have uncollected : ∀ c ∈ rest, c.AllBalanced :=
      fun c member => held c (List.mem_cons_of_mem _ member)
    unfold sendEach
    cases answers.headD .ok with
    | ok => exact ⟨List.forall_mem_cons.mpr ⟨own.2, later.1⟩, List.forall_mem_cons.mpr ⟨own.1, later.2⟩⟩
    | full => exact ⟨List.forall_mem_cons.mpr ⟨own.2, later.1⟩, later.2⟩
    | closed => exact ⟨List.forall_mem_cons.mpr ⟨own.2, uncollected⟩, by simp⟩

end MetricCollectors

inductive RuleStep where
  | event (event : SourceEvent)
  | sendStat (answers : List MonitorAnswer)

/-- A rule's pipeline and the reports the monitor channel has taken. -/
structure Monitored (Progress : Type) where
  pipeline : StatPipeline Progress
  reports : List StatReport

namespace StatPipeline
variable (fmtField : DataField → String) (rank : Ranking)

def step (s : Monitored Progress) : RuleStep → Monitored Progress
  | .event event => { s with pipeline := (s.pipeline.proc fmtField event).1 }
  | .sendStat answers =>
    let (pipeline, sent) := s.pipeline.sendStat fmtField rank answers
    { pipeline := pipeline, reports := s.reports ++ sent }

def run (start : StatPipeline Progress) (steps : List RuleStep) : Monitored Progress :=
  Runs.run (step fmtField rank) ⟨start, []⟩ steps

/-- Every event that is parsed and annotated agrees with every request. -/
def StepAgrees (p : StatPipeline Progress) : RuleStep → Prop
  | .event event => ∀ record left final sides,
      (p.pipeline.parser event.eventId event.payload).1 = .ok (record, left) →
      annotate event p.pipeline.funVec record [] = .ok (final, sides) →
      ∀ c ∈ p.statExt.items, p.Agrees fmtField c.require final
  | .sendStat _ => True

/-- What no step changes. -/
structure SameRule (p q : StatPipeline Progress) : Prop where
  pipeline : q.pipeline = p.pipeline
  packageName : q.packageName = p.packageName
  ruleName : q.ruleName = p.ruleName
  statNeedPkgRule : q.statNeedPkgRule = p.statNeedPkgRule
  requests : q.statExt.items.map (·.require) = p.statExt.items.map (·.require)

theorem SameRule.refl (p : StatPipeline Progress) : SameRule p p := ⟨rfl, rfl, rfl, rfl, rfl⟩

theorem SameRule.trans {p q r : StatPipeline Progress} (first : SameRule p q)
    (second : SameRule q r) : SameRule p r :=
  ⟨second.pipeline.trans first.pipeline, second.packageName.trans first.packageName,
    second.ruleName.trans first.ruleName, second.statNeedPkgRule.trans first.statNeedPkgRule,
    second.requests.trans first.requests⟩

theorem same_rule_finish (p : StatPipeline Progress) (record : DataRecord) (left : String)
    (event : SourceEvent) : SameRule p (p.finishSuccess fmtField record left event).1 := by
  have begun := p.statExt.for_each_require
    (StatCollector.record_begin_require p.pipeline.wplKey)
    (MetricCollectors.beginKey fmtField p.beginData)
  unfold finishSuccess
  cases annotate event p.pipeline.funVec record [] with
  | error e => exact ⟨rfl, rfl, rfl, rfl, begun⟩
  | ok result =>
    have ended := (p.statExt.recordBegin fmtField p.pipeline.wplKey p.beginData).for_each_require
      (StatCollector.record_end_require p.pipeline.wplKey)
      (MetricCollectors.endKey fmtField (some (p.endData result.1)))
    exact ⟨rfl, rfl, rfl, rfl, ended.trans begun⟩

theorem same_rule_proc (p : StatPipeline Progress) (event : SourceEvent) :
    SameRule p (p.proc fmtField event).1 := by
  unfold proc
  cases p.pipeline.parser event.eventId event.payload with
  | mk parsed progress =>
    cases parsed with
    | error e => exact SameRule.refl p
    | ok result => exact p.same_rule_finish fmtField result.1 result.2 event

/-- The collectors a collection starts from. -/
def touched (p : StatPipeline Progress) : MetricCollectors :=
  if p.statExt.hasPendingData then p.statExt
  else if p.statNeedPkgRule then p.statExt.touchTaskRecord fmtField p.pipeline.wplKey p.statBegin
  else p.statExt.touchTaskUnit p.pipeline.wplKey

theorem touched_requests (p : StatPipeline Progress) :
    (p.touched fmtField).items.map (·.require) = p.statExt.items.map (·.require) := by
  unfold touched
  split
  · rfl
  · split
    · exact p.statExt.for_each_require
        (StatCollector.record_task_n_require p.pipeline.wplKey 0)
        (fun collect => .data (extractMetricDimensionsWithTarget fmtField p.statBegin collect))
    · exact p.statExt.map_require (StatCollector.record_task_n_require p.pipeline.wplKey 0 .unit)

theorem same_rule_send (p : StatPipeline Progress) (answers : List MonitorAnswer) :
    SameRule p (p.sendStat fmtField rank answers).1 :=
  ⟨rfl, rfl, rfl, rfl,
    (MetricCollectors.send_each_require rank _ answers).trans (p.touched_requests fmtField)⟩

theorem same_rule_run (start : StatPipeline Progress) (steps : List RuleStep) :
    SameRule start (run fmtField rank start steps).pipeline := by
  apply Runs.run_invariant (fun s : Monitored Progress => SameRule start s.pipeline)
  · intro s i _ same
    cases i with
    | event event => exact same.trans (s.pipeline.same_rule_proc fmtField event)
    | sendStat answers => exact same.trans (s.pipeline.same_rule_send fmtField rank answers)
  · exact SameRule.refl start

section Same
variable {fmtField} {p q : StatPipeline Progress}

theorem SameRule.beginDim (same : SameRule p q) (req : StatReq) :
    q.beginDim fmtField req = p.beginDim fmtField req := by
  simp only [StatPipeline.beginDim, beginData, statBegin, packageField, ruleField, same.pipeline,
    same.packageName, same.ruleName, same.statNeedPkgRule]

theorem SameRule.endDim (same : SameRule p q) (req : StatReq) (record : DataRecord) :
    q.endDim fmtField req record = p.endDim fmtField req record := by
  simp only [StatPipeline.endDim, endData, statEnd, packageField, ruleField, same.pipeline,
    same.packageName, same.ruleName, same.statNeedPkgRule]

/-- A step that agrees with the rule agrees with it in every later state. -/
theorem SameRule.stepAgrees (same : SameRule p q) {i : RuleStep}
    (agrees : p.StepAgrees fmtField i) : q.StepAgrees fmtField i := by
  cases i with
  | sendStat answers => trivial
  | event event =>
    intro record left final sides parsed annotated c member
    rw [same.pipeline] at parsed annotated
    have request := List.mem_map_of_mem (f := (·.require)) member
    rw [same.requests] at request
    obtain ⟨before, listed, required⟩ := List.mem_map.mp request
    have own := agrees record left final sides parsed annotated before listed
    rw [required] at own
    simpa only [Agrees, KeyAgrees, packageField, ruleField, same.packageName, same.ruleName,
      same.statNeedPkgRule] using own

end Same

/-- What a parsed and annotated event does: each collector counts one begin and one end. -/
theorem finish_success_counted (p : StatPipeline Progress) {event : SourceEvent}
    {record final : DataRecord} {sides : SideRecords}
    (annotated : annotate event p.pipeline.funVec record [] = .ok (final, sides)) (left : String) :
    List.Forall₂ (fun c after => StatCollector.Counted c after (p.beginDim fmtField c.require)
        (p.endDim fmtField c.require final))
      p.statExt.items (p.finishSuccess fmtField record left event).1.statExt.items := by
  have items : (p.finishSuccess fmtField record left event).1.statExt.items =
      ((p.statExt.recordBegin fmtField p.pipeline.wplKey p.beginData).recordEnd fmtField
        p.pipeline.wplKey (some (p.endData final))).items := by
    rw [finishSuccess, annotated]
  rw [items, MetricCollectors.recordEnd, MetricCollectors.record_items,
    MetricCollectors.recordBegin, MetricCollectors.record_items, List.map_map,
    List.forall₂_map_right_iff, List.forall₂_same]
  intro c _
  simp only [Function.comp_apply, StatCollector.record_begin_require]
  exact c.begin_end_counted p.pipeline.wplKey _ _

/-- An event whose annotation fails only begins. -/
theorem finish_success_begun (p : StatPipeline Progress) {event : SourceEvent}
    {record : DataRecord} {e : WparseError}
    (failed : annotate event p.pipeline.funVec record [] = .error e) (left : String)
    (held : p.statExt.AllBalanced) :
    (p.finishSuccess fmtField record left event).1.statExt.AllBalanced := by
  rw [finishSuccess, failed]
  refine MetricCollectors.all_balanced_record
    (StatCollector.record_begin_require p.pipeline.wplKey) ?_ held
  intro key c balanced
  exact StatCollector.all_balanced_changed (c.with_dim_change p.pipeline.wplKey key _)
    (fun r => StatCollector.balanced_begin) balanced

theorem proc_balanced {p : StatPipeline Progress} {event : SourceEvent}
    (agrees : p.StepAgrees fmtField (.event event)) (held : p.statExt.AllBalanced) :
    (p.proc fmtField event).1.statExt.AllBalanced := by
  unfold proc
  cases parsed : p.pipeline.parser event.eventId event.payload with
  | mk outcome progress =>
    cases outcome with
    | error e => exact held
    | ok result =>
      obtain ⟨record, left⟩ := result
      change (p.finishSuccess fmtField record left event).1.statExt.AllBalanced
      cases annotated : annotate event p.pipeline.funVec record [] with
      | error e => exact p.finish_success_begun fmtField annotated left held
      | ok outcome =>
        obtain ⟨final, sides⟩ := outcome
        have counted := p.finish_success_counted fmtField annotated left
        intro after member
        obtain ⟨c, listed, own⟩ : ∃ c ∈ p.statExt.items, StatCollector.Counted c after
            (p.beginDim fmtField c.require) (p.endDim fmtField c.require final) := by
          obtain ⟨i, inside, rfl⟩ := List.getElem_of_mem member
          have shorter := counted.length_eq ▸ inside
          exact ⟨_, List.getElem_mem shorter, counted.get shorter inside⟩
        have agreed := agrees record left final sides (by rw [parsed]) annotated c listed
        rw [← (p.same_dim_iff fmtField c.require final).mpr agreed] at own
        exact StatCollector.all_balanced_counted own (held c listed)

theorem touched_balanced {p : StatPipeline Progress} (held : p.statExt.AllBalanced) :
    (p.touched fmtField).AllBalanced := by
  unfold touched
  split
  · exact held
  · split
    · exact MetricCollectors.all_balanced_record
        (StatCollector.record_task_n_require p.pipeline.wplKey 0)
        (fun key c => StatCollector.all_balanced_touch p.pipeline.wplKey key) held
    · intro c member
      obtain ⟨before, listed, rfl⟩ := List.mem_map.mp member
      exact StatCollector.all_balanced_touch p.pipeline.wplKey .unit (held before listed)

/-- Neither the collectors nor the reports count more ends than begins anywhere. -/
def Sound (s : Monitored Progress) : Prop :=
  s.pipeline.statExt.AllBalanced ∧
    ∀ report ∈ s.reports, ∀ r ∈ report.data, StatCollector.Balanced r

theorem step_sound {s : Monitored Progress} {i : RuleStep}
    (agrees : s.pipeline.StepAgrees fmtField i) (sound : Sound s) :
    Sound (step fmtField rank s i) := by
  cases i with
  | event event => exact ⟨proc_balanced fmtField agrees sound.1, sound.2⟩
  | sendStat answers =>
    have sent := MetricCollectors.all_balanced_send_each rank answers
      (touched_balanced fmtField sound.1)
    refine ⟨sent.1, ?_⟩
    intro report member
    rcases List.mem_append.mp member with before | new
    · exact sound.2 report before
    · exact sent.2 report new

theorem new_balanced (pipeline : WplPipeline Progress) (packageName ruleName : String)
    (statReqs : List StatReq) : (new pipeline packageName ruleName statReqs).statExt.AllBalanced := by
  intro c member
  obtain ⟨req, -, rfl⟩ := List.mem_map.mp member
  exact StatCollector.all_balanced_new pipeline.wplKey req

theorem run_sound {start : StatPipeline Progress} {steps : List RuleStep}
    (agrees : ∀ i ∈ steps, start.StepAgrees fmtField i) (held : start.statExt.AllBalanced) :
    Sound (run fmtField rank start steps) := by
  have both : SameRule start (run fmtField rank start steps).pipeline ∧
      Sound (run fmtField rank start steps) := by
    apply Runs.run_invariant (fun s : Monitored Progress => SameRule start s.pipeline ∧ Sound s)
    · rintro s i member ⟨same, sound⟩
      refine ⟨?_, step_sound fmtField rank (same.stepAgrees (agrees i member)) sound⟩
      cases i with
      | event event => exact same.trans (s.pipeline.same_rule_proc fmtField event)
      | sendStat answers => exact same.trans (s.pipeline.same_rule_send fmtField rank answers)
    · exact ⟨SameRule.refl start, held, by simp⟩
  exact both.2

/-- In every state of every run, each collector counts the begin and the end of a parsed event
    under one dimension exactly when its request agrees with the annotated record. A run whose
    events all agree has no record with more ends than begins, in a collector or in a report. -/
theorem same_bucket_iff (pipeline : WplPipeline Progress) (packageName ruleName : String)
    (statReqs : List StatReq) (steps : List RuleStep) :
    (∀ event record left final sides, annotate event pipeline.funVec record [] = .ok (final, sides) →
      List.Forall₂ (fun c after => ∃ begun ended, StatCollector.Counted c after begun ended ∧
          (begun = ended ↔
            (new pipeline packageName ruleName statReqs).Agrees fmtField c.require final))
        (run fmtField rank (new pipeline packageName ruleName statReqs) steps).pipeline.statExt.items
        ((run fmtField rank (new pipeline packageName ruleName statReqs) steps).pipeline.finishSuccess
          fmtField record left event).1.statExt.items) ∧
      ((∀ i ∈ steps, (new pipeline packageName ruleName statReqs).StepAgrees fmtField i) →
        Sound (run fmtField rank (new pipeline packageName ruleName statReqs) steps)) := by
  constructor
  · intro event record left final sides annotated
    have same := same_rule_run fmtField rank (new pipeline packageName ruleName statReqs) steps
    generalize run fmtField rank (new pipeline packageName ruleName statReqs) steps = s at same ⊢
    have here : annotate event s.pipeline.pipeline.funVec record [] = .ok (final, sides) := by
      rw [same.pipeline]
      exact annotated
    apply (s.pipeline.finish_success_counted fmtField here left).imp
    intro c after counted
    refine ⟨_, _, counted, ?_⟩
    rw [same.beginDim, same.endDim, same_dim_iff]
  · intro agrees
    exact run_sound fmtField rank agrees (new_balanced pipeline packageName ruleName statReqs)

end StatPipeline

/-- Texts print as they are. -/
def textOf (field : DataField) : String :=
  match field.value with
  | .chars text => text
  | .ip text => text
  | .digit number => toString number
  | .other text => text

/-- A rule that parses everything into one field and has no annotations. -/
def oneFieldRule : WplPipeline Unit where
  parser := fun id _ => (.ok (⟨id, [.fromChars "k" "v"]⟩, ""), ())
  funVec := []
  hitCnt := 0
  index := 0
  wplKey := "pkg/rule"
  autoMatch := true
  late := false

def namesReq : StatReq := ⟨.parse, "names", .all, ["wp_package_name", "wp_rule_name"], 10⟩

def fieldReq : StatReq := ⟨.parse, "field", .all, ["k"], 10⟩

def oneTextEvent : SourceEvent := ⟨1, "src", .string "text", [], none⟩

theorem oneFieldRule_agrees (i : RuleStep) :
    (StatPipeline.new oneFieldRule "pkg" "rule" [namesReq]).StepAgrees textOf i := by
  cases i with
  | sendStat answers => trivial
  | event event =>
    intro record left final sides parsed annotated c member
    cases parsed
    cases annotated
    obtain rfl : c = .new "pkg/rule" namesReq := List.mem_singleton.mp member
    intro key listed field found
    simp only [StatCollector.new, namesReq, List.mem_cons, List.not_mem_nil, or_false] at listed
    rcases listed with rfl | rfl
    · simp [DataRecord.field, DataField.fromChars] at found
    · simp [DataRecord.field, DataField.fromChars] at found

theorem same_bucket_iff_names :
    List.Forall₂ (fun c after => ∃ begun ended, StatCollector.Counted c after begun ended ∧
        (begun = ended ↔ (StatPipeline.new oneFieldRule "pkg" "rule" [namesReq]).Agrees textOf
          c.require ⟨1, [.fromChars "k" "v"]⟩))
      (StatPipeline.run textOf stableRanking (.new oneFieldRule "pkg" "rule" [namesReq])
        [.event oneTextEvent, .sendStat []]).pipeline.statExt.items
      ((StatPipeline.run textOf stableRanking (.new oneFieldRule "pkg" "rule" [namesReq])
        [.event oneTextEvent, .sendStat []]).pipeline.finishSuccess textOf
          ⟨1, [.fromChars "k" "v"]⟩ "" oneTextEvent).1.statExt.items ∧
      StatPipeline.Sound (StatPipeline.run textOf stableRanking
        (.new oneFieldRule "pkg" "rule" [namesReq]) [.event oneTextEvent, .sendStat []]) := by
  have both := StatPipeline.same_bucket_iff textOf stableRanking oneFieldRule "pkg" "rule" [namesReq]
    [.event oneTextEvent, .sendStat []]
  exact ⟨both.1 oneTextEvent ⟨1, [.fromChars "k" "v"]⟩ "" ⟨1, [.fromChars "k" "v"]⟩ [] rfl,
    both.2 (fun i _ => oneFieldRule_agrees i)⟩

/-- A request for a parsed field counts the begin under no value and the end under the field's. -/
theorem field_splits_bucket :
    (StatPipeline.new oneFieldRule "pkg" "rule" [fieldReq]).beginDim textOf fieldReq ≠
        (StatPipeline.new oneFieldRule "pkg" "rule" [fieldReq]).endDim textOf fieldReq
          ⟨1, [.fromChars "k" "v"]⟩ ∧
      (StatPipeline.run textOf stableRanking (.new oneFieldRule "pkg" "rule" [fieldReq])
          [.event oneTextEvent, .sendStat []]).reports.map
          (fun report => report.data.map (fun r => (r.itemKey, r.stat))) =
        [[("pkg/rule@", ⟨1, 0⟩), ("pkg/rule@v", ⟨0, 1⟩)]] ∧
      ¬ StatPipeline.Sound (StatPipeline.run textOf stableRanking
        (.new oneFieldRule "pkg" "rule" [fieldReq]) [.event oneTextEvent, .sendStat []]) := by
  refine ⟨by decide, by decide, ?_⟩
  intro sound
  have balanced := sound.2 ⟨fieldReq, some "pkg/rule",
    [⟨.parse, "pkg/rule@", ⟨[]⟩, ⟨1, 0⟩⟩, ⟨.parse, "pkg/rule@v", ⟨[some "v"]⟩, ⟨0, 1⟩⟩]⟩ (by decide)
    ⟨.parse, "pkg/rule@v", ⟨[some "v"]⟩, ⟨0, 1⟩⟩ (by decide)
  exact absurd balanced (by decide)

end WarpMotor
