import WarpMotor.Stats.Merge

/-!
Sharded statistics against one collector. A stream of calls is divided among
collectors and their windows, and the reports are merged in some order. The
result is the single collector's report unless two dimensions it is about
print alike; a report that is never merged keeps them apart.
-/
namespace WarpMotor

/-- No two of the dimensions print alike. -/
def PrintApart (listed : List StatDim) : Prop :=
  ∀ a ∈ listed, ∀ b ∈ listed, a.display = b.display → a = b

instance (listed : List StatDim) : Decidable (PrintApart listed) :=
  inferInstanceAs (Decidable (∀ a ∈ listed, ∀ b ∈ listed, a.display = b.display → a = b))

theorem PrintApart.mono {small large : List StatDim} (apart : PrintApart large)
    (inside : small ⊆ large) : PrintApart small :=
  fun a ha b hb same => apart a (inside ha) b (inside hb) same

section Merging
variable {req : StatReq} {first second : List StatCall}

theorem dims_append_left (req : StatReq) (first second : List StatCall) :
    dims req first ⊆ dims req (first ++ second) := by
  intro dim member
  obtain ⟨s, present, rest⟩ := mem_dims.mp member
  exact mem_dims.mpr ⟨s, List.mem_append_left _ present, rest⟩

theorem dims_append_right (req : StatReq) (first second : List StatCall) :
    dims req second ⊆ dims req (first ++ second) := by
  intro dim member
  obtain ⟨s, present, rest⟩ := mem_dims.mp member
  exact mem_dims.mpr ⟨s, List.mem_append_right _ present, rest⟩

theorem mem_dims_append {dim : StatDim} :
    dim ∈ dims req (first ++ second) ↔ dim ∈ dims req first ∨ dim ∈ dims req second := by
  simp only [mem_dims, List.mem_append]
  constructor
  · rintro ⟨s, present | present, rest⟩
    · exact .inl ⟨s, present, rest⟩
    · exact .inr ⟨s, present, rest⟩
  · rintro (⟨s, present, rest⟩ | ⟨s, present, rest⟩)
    · exact ⟨s, .inl present, rest⟩
    · exact ⟨s, .inr present, rest⟩

theorem reported_dims_subset {small large : List StatCall}
    (inside : dims req small ⊆ dims req large) :
    reportedDims req small ⊆ reportedDims req large := by
  intro dim member
  obtain ⟨present, about⟩ := mem_reported_dims.mp member
  exact mem_reported_dims.mpr ⟨inside present, about⟩

theorem keyed_expected (req : StatReq) (stream : List StatCall) :
    keyed (expectedData req stream) =
      (reportedDims req stream).map (fun dim => ⟨dim.display, recordOf req stream dim⟩) := by
  simp only [keyed, expectedData, List.map_map]
  rfl

theorem expected_nodup_keys {stream : List StatCall} (apart : PrintApart (reportedDims req stream)) :
    (keyed (expectedData req stream)).NodupKeys := by
  rw [keyed_expected, List.NodupKeys, List.keys, List.map_map]
  exact (reported_dims_nodup req stream).map_on (fun a ha b hb same => apart a ha b hb same)

/-- What an exact report says under the printed form of a dimension. -/
theorem lookup_expected {stream whole : List StatCall}
    (apart : PrintApart (reportedDims req whole)) (inside : dims req stream ⊆ dims req whole)
    {dim : StatDim} (listed : dim ∈ reportedDims req whole) :
    (keyed (expectedData req stream)).dlookup dim.display =
      if dim ∈ dims req stream then some (recordOf req stream dim) else none := by
  have within := reported_dims_subset inside
  have distinct := expected_nodup_keys (apart.mono within)
  have about := (mem_reported_dims.mp listed).2
  split
  · rename_i present
    apply (List.mem_dlookup_iff distinct).mpr
    rw [keyed_expected]
    exact List.mem_map.mpr ⟨dim, mem_reported_dims.mpr ⟨present, about⟩, rfl⟩
  · rename_i absent
    rw [List.dlookup_eq_none, keyed_expected]
    intro member
    simp only [List.keys, List.map_map, List.mem_map, Function.comp_apply] at member
    obtain ⟨other, present, same⟩ := member
    rw [apart other (within present) dim listed same] at present
    exact absent (mem_reported_dims.mp present).1

theorem lookup_expected_none {stream : List StatCall} {key : String}
    (absent : ∀ dim ∈ reportedDims req stream, dim.display ≠ key) :
    (keyed (expectedData req stream)).dlookup key = none := by
  rw [List.dlookup_eq_none, keyed_expected]
  intro member
  simp only [List.keys, List.map_map, List.mem_map, Function.comp_apply] at member
  obtain ⟨dim, present, same⟩ := member
  exact absent dim present same

/-- The records of a dimension in two exact reports add up to its record for all the calls. -/
theorem combine_records {dim : StatDim} (present : dim ∈ dims req (first ++ second)) :
    combine (if dim ∈ dims req first then some (recordOf req first dim) else none)
        (if dim ∈ dims req second then some (recordOf req second dim) else none) =
      some (recordOf req (first ++ second) dim) := by
  have both : recordOf req (first ++ second) dim =
      (recordOf req first dim).count (tally req dim second) := by
    rw [recordOf, recordOf, StatRecord.count_count, tally_append]
  by_cases inFirst : dim ∈ dims req first
  · by_cases inSecond : dim ∈ dims req second
    · have meets : (recordOf req first dim).canMerge (recordOf req second dim) = true := by
        simp [StatRecord.canMerge, recordOf, StatRecord.count, StatCollector.freshRecord,
          StatRecord.new]
      simp only [inFirst, inSecond, if_true, combine, meets, both]
      simp [StatRecord.merge, recordOf, StatRecord.count, StatCollector.freshRecord, StatRecord.new]
    · simp only [inFirst, inSecond, if_true, if_false, combine, both, tally_of_absent inSecond]
      rfl
  · have inSecond : dim ∈ dims req second := (mem_dims_append.mp present).resolve_left inFirst
    simp only [inFirst, inSecond, if_true, if_false, combine]
    simp [recordOf, tally_append, tally_of_absent inFirst]

/-- Two exact reports merge into an exact report. -/
theorem merge_exact (rank : Ranking) {self other : StatReport} (same : self.req = req)
    (left : self.data.Perm (expectedData req first))
    (right : other.data.Perm (expectedData req second))
    (apart : PrintApart (reportedDims req (first ++ second)))
    (within : (dims req (first ++ second)).length ≤ req.max) :
    (self.merge rank other).data.Perm (expectedData req (first ++ second)) := by
  have inFirst := dims_append_left req first second
  have inSecond := dims_append_right req first second
  have keysFirst := expected_nodup_keys (apart.mono (reported_dims_subset inFirst))
  have keysSecond := expected_nodup_keys (apart.mono (reported_dims_subset inSecond))
  have keysBoth := expected_nodup_keys apart
  have permLeft : (keyed self.data).Perm (keyed (expectedData req first)) := left.map _
  have permRight : (keyed other.data).Perm (keyed (expectedData req second)) := right.map _
  have nodupLeft := (List.perm_nodupKeys permLeft).mpr keysFirst
  have nodupRight := (List.perm_nodupKeys permRight).mpr keysSecond
  have looked : ∀ key, (StatReport.mergeData self.data other.data).lookup key =
      (keyed (expectedData req (first ++ second))).dlookup key := by
    intro key
    rw [lookup_merge_data nodupLeft nodupRight, List.perm_dlookup key nodupLeft permLeft,
      List.perm_dlookup key nodupRight permRight]
    by_cases printed : ∃ dim ∈ reportedDims req (first ++ second), dim.display = key
    · obtain ⟨dim, listed, rfl⟩ := printed
      have present := (mem_reported_dims.mp listed).1
      rw [lookup_expected apart inFirst listed, lookup_expected apart inSecond listed,
        lookup_expected apart (List.Subset.refl _) listed, combine_records present, if_pos present]
    · have absent : ∀ dim ∈ reportedDims req (first ++ second), dim.display ≠ key :=
        fun dim listed alike => printed ⟨dim, listed, alike⟩
      rw [lookup_expected_none absent, lookup_expected_none
        (fun dim listed => absent dim (reported_dims_subset inFirst listed)), lookup_expected_none
        (fun dim listed => absent dim (reported_dims_subset inSecond listed))]
      rfl
  have entries : (StatReport.mergeData self.data other.data).entries.Perm
      (keyed (expectedData req (first ++ second))) := by
    apply List.lookup_ext (AList.nodupKeys _) keysBoth
    intro key r
    rw [← looked]
    rfl
  have values := entries.map (·.2)
  have unkeyed : (keyed (expectedData req (first ++ second))).map (·.2) =
      expectedData req (first ++ second) := by
    simp [keyed, Function.comp_def]
  rw [unkeyed] at values
  have fewer : ((StatReport.mergeData self.data other.data).entries.map (·.2)).length ≤
      req.max * topNMultiplier := by
    calc ((StatReport.mergeData self.data other.data).entries.map (·.2)).length
        = (reportedDims req (first ++ second)).length := by
          simpa [expectedData] using values.length_eq
      _ ≤ (dims req (first ++ second)).length := List.length_filter_le _ _
      _ ≤ req.max := within
      _ ≤ req.max * topNMultiplier := Nat.le_mul_of_pos_right _ (by decide)
  have kept := rank.topN_of_le fewer
  rw [StatReport.merge, same]
  exact kept.trans values

end Merging

/-- An order of merging. It may start from the empty report of the request. -/
inductive MergePlan where
  | fresh
  | report (r : StatReport)
  | merge (self other : MergePlan)

namespace MergePlan

def leaves : MergePlan → List StatReport
  | fresh => []
  | report r => [r]
  | merge self other => self.leaves ++ other.leaves

def result (rank : Ranking) (req : StatReq) : MergePlan → StatReport
  | fresh => .ofReq req
  | report r => r
  | merge self other => (self.result rank req).merge rank (other.result rank req)

def merges : MergePlan → Bool
  | merge .. => true
  | _ => false

end MergePlan

/-- One collector's share of the stream: its target and the calls of each of its windows. -/
structure Shard where
  target : String
  windows : List (List StatCall)
  deriving DecidableEq, Repr

namespace Shard

def calls (shard : Shard) : List StatCall := shard.windows.flatten

def reports (rank : Ranking) (req : StatReq) (shard : Shard) : List StatReport :=
  (StatCollector.new shard.target req).reports rank shard.windows

end Shard

/-- The report of a window that starts with an empty collector. -/
def windowReport (rank : Ranking) (req : StatReq) (window : String × List StatCall) : StatReport :=
  (((StatCollector.new window.1 req).calls window.2).collectStat rank).1

/-- A collection leaves a collector as new. -/
theorem collect_stat_renews (rank : Ranking) (target : String) (req : StatReq)
    (stream : List StatCall) :
    (((StatCollector.new target req).calls stream).collectStat rank).2 = .new target req := by
  obtain ⟨same_target, same_require, -⟩ := StatCollector.calls_record stream (.new target req)
  generalize (StatCollector.new target req).calls stream = c at same_target same_require
  obtain ⟨target', req', record, unitDims, kept⟩ := c
  cases same_target
  cases same_require
  rfl

theorem reports_of_windows (rank : Ranking) (target : String) (req : StatReq)
    (windows : List (List StatCall)) :
    (StatCollector.new target req).reports rank windows =
      windows.map (fun window => windowReport rank req (target, window)) := by
  induction windows with
  | nil => rfl
  | cons window rest ih =>
    simp only [StatCollector.reports, collect_stat_renews, ih, List.map_cons, windowReport]

theorem window_report_req (rank : Ranking) (req : StatReq) (window : String × List StatCall) :
    (windowReport rank req window).req = req :=
  (StatCollector.calls_record window.2 (.new window.1 req)).2.1

theorem result_req {rank : Ranking} {req : StatReq} {plan : MergePlan}
    (leaves : ∀ r ∈ plan.leaves, r.req = req) : (plan.result rank req).req = req := by
  induction plan with
  | fresh => rfl
  | report r => exact leaves r (List.mem_singleton_self r)
  | merge self other first second =>
    exact first (fun r member => leaves r (List.mem_append_left _ member))

/-- Any order of merging the reports of some windows is exact for all their calls. What is not
    merged needs nothing to print apart. -/
theorem plan_exact (rank : Ranking) (req : StatReq) (plan : MergePlan)
    (windows : List (String × List StatCall))
    (leaves : plan.leaves = windows.map (windowReport rank req))
    (apart : plan.merges = true → PrintApart (reportedDims req (windows.flatMap (·.2))))
    (within : (dims req (windows.flatMap (·.2))).length ≤ req.max) :
    (plan.result rank req).data.Perm (expectedData req (windows.flatMap (·.2))) := by
  induction plan generalizing windows with
  | fresh =>
    obtain rfl : windows = [] := List.map_eq_nil_iff.mp leaves.symm
    exact List.Perm.refl _
  | report r =>
    obtain ⟨window, rfl, rfl⟩ := List.map_eq_singleton_iff.mp leaves.symm
    simp only [List.flatMap_singleton] at within ⊢
    exact StatCollector.report_exact rank window.1 req window.2 within
  | merge self other first second =>
    obtain ⟨before, after, rfl, left, right⟩ := List.map_eq_append_iff.mp leaves.symm
    have whole := apart rfl
    rw [List.flatMap_append] at whole within ⊢
    have inFirst := dims_append_left req (before.flatMap (·.2)) (after.flatMap (·.2))
    have inSecond := dims_append_right req (before.flatMap (·.2)) (after.flatMap (·.2))
    have exactFirst := first before left.symm
      (fun _ => whole.mono (reported_dims_subset inFirst))
      (((dims_nodup req _).length_le_of_subset inFirst).trans within)
    have exactSecond := second after right.symm
      (fun _ => whole.mono (reported_dims_subset inSecond))
      (((dims_nodup req _).length_le_of_subset inSecond).trans within)
    have same : (self.result rank req).req = req := by
      apply result_req
      intro r member
      rw [← left] at member
      obtain ⟨window, -, rfl⟩ := List.mem_map.mp member
      exact window_report_req rank req window
    exact merge_exact rank same exactFirst exactSecond whole within

/-- A report in which no printed dimension occurs twice is exact only for dimensions that print
    apart. -/
theorem apart_of_exact {req : StatReq} {stream : List StatCall} {data : List StatRecord}
    (distinct : (data.map StatRecord.itemKey).Nodup)
    (exact_data : data.Perm (expectedData req stream)) : PrintApart (reportedDims req stream) := by
  have keys := ((exact_data.map StatRecord.itemKey).nodup_iff.mp distinct)
  have printed : (expectedData req stream).map StatRecord.itemKey =
      (reportedDims req stream).map StatDim.display := by
    simp only [expectedData, List.map_map]
    rfl
  rw [printed] at keys
  exact fun a ha b hb same => List.inj_on_of_nodup_map keys ha hb same

/-- The windows of all the collectors, each with its collector's target. -/
def allWindows (shards : List Shard) : List (String × List StatCall) :=
  shards.flatMap (fun shard => shard.windows.map (fun window => (shard.target, window)))

theorem reports_all_windows (rank : Ranking) (req : StatReq) (shards : List Shard) :
    shards.flatMap (Shard.reports rank req) = (allWindows shards).map (windowReport rank req) := by
  simp only [allWindows, List.map_flatMap, List.map_map]
  congr 1
  funext shard
  exact reports_of_windows rank shard.target req shard.windows

theorem calls_all_windows (shards : List Shard) :
    (allWindows shards).flatMap (·.2) = shards.flatMap Shard.calls := by
  simp only [allWindows, List.flatMap_assoc, List.flatMap_map]
  congr 1
  funext shard
  exact List.flatMap_id

section Sharded
variable (rank : Ranking) (req : StatReq) (stream : List StatCall) (shards : List Shard)
  (plan : MergePlan)

/-- One collector reports every dimension its request is about, each with its own totals. Sharded
    collectors whose reports are merged in any order report the same exactly when nothing is
    merged or no two of these dimensions print alike. -/
theorem sharded_exact_iff (target : String)
    (within : (dims req stream).length ≤ req.max)
    (split : (shards.flatMap Shard.calls).Perm stream)
    (merged : plan.leaves.Perm (shards.flatMap (Shard.reports rank req))) :
    (windowReport rank req (target, stream)).data.Perm (expectedData req stream) ∧
      ((plan.result rank req).data.Perm (windowReport rank req (target, stream)).data ↔
        plan.merges = false ∨ PrintApart (reportedDims req stream)) := by
  have single : (windowReport rank req (target, stream)).data.Perm (expectedData req stream) :=
    StatCollector.report_exact rank target req stream within
  refine ⟨single, ?_⟩
  constructor
  · intro same
    cases plan with
    | fresh => exact .inl rfl
    | report r => exact .inl rfl
    | merge self other => exact .inr (apart_of_exact (merge_keys_nodup rank _ _) (same.trans single))
  · intro condition
    rw [reports_all_windows] at merged
    obtain ⟨windows, leaves, order⟩ :
        ∃ windows : List (String × List StatCall),
          plan.leaves = windows.map (windowReport rank req) ∧ windows.Perm (allWindows shards) := by
      have found := congrFun (congrFun (List.eq_map_comp_perm (windowReport rank req)) plan.leaves)
        (allWindows shards)
      rw [← found] at merged
      exact merged
    have covered : (windows.flatMap (·.2)).Perm stream := by
      apply (order.flatMap_right _).trans
      rw [calls_all_windows]
      exact split
    have dimsPerm : (dims req (windows.flatMap (·.2))).Perm (dims req stream) :=
      ((covered.filter _).map _).dedup
    have apart : plan.merges = true → PrintApart (reportedDims req (windows.flatMap (·.2))) := by
      intro merging
      have whole := condition.resolve_left (by simp [merging])
      exact whole.mono (reported_dims_perm covered).subset
    have exactPlan := plan_exact rank req plan windows leaves apart
      (dimsPerm.length_eq.trans_le within)
    exact exactPlan.trans ((expected_data_perm covered).trans single.symm)

end Sharded

def pairReq : StatReq := ⟨.sink, "pairs", .all, ["a", "b"], 10⟩

def pairTask (a b : String) : StatCall := ⟨"rule", .data ⟨[some a, some b]⟩, .recordTask⟩

def pairShards : List Shard :=
  [⟨"rule", [[pairTask "x" "y"], [pairTask "x" "z"]]⟩, ⟨"rule", [[pairTask "x" "y"]]⟩]

def pairStream : List StatCall := [pairTask "x" "y", pairTask "x" "y", pairTask "x" "z"]

def pairPlan : MergePlan :=
  .merge
    (.merge .fresh (.report (windowReport stableRanking pairReq ("rule", [pairTask "x" "z"]))))
    (.merge (.report (windowReport stableRanking pairReq ("rule", [pairTask "x" "y"])))
      (.report (windowReport stableRanking pairReq ("rule", [pairTask "x" "y"]))))

theorem sharded_exact_iff_pairs :
    (pairPlan.result stableRanking pairReq).data.Perm
      (windowReport stableRanking pairReq ("rule", pairStream)).data :=
  (sharded_exact_iff stableRanking pairReq pairStream pairShards pairPlan "rule" (by decide)
    (by decide) (by decide)).2.mpr (.inr (by decide))

def commaShards : List Shard :=
  [⟨"rule", [[pairTask "x,y" "z"]]⟩, ⟨"rule", [[pairTask "x" "y,z"]]⟩]

def commaStream : List StatCall := [pairTask "x,y" "z", pairTask "x" "y,z"]

def commaPlan : MergePlan :=
  .merge (.report (windowReport stableRanking pairReq ("rule", [pairTask "x,y" "z"])))
    (.report (windowReport stableRanking pairReq ("rule", [pairTask "x" "y,z"])))

/-- Two pairs that differ in where the comma stands become one record. -/
theorem comma_fuses_dimensions :
    (dims pairReq commaStream).length ≤ pairReq.max ∧
      (commaShards.flatMap Shard.calls).Perm commaStream ∧
      commaPlan.leaves.Perm (commaShards.flatMap (Shard.reports stableRanking pairReq)) ∧
      (commaPlan.result stableRanking pairReq).data.map (fun r => (r.itemKey, r.stat)) =
        [("rule@x,y,z", ⟨2, 2⟩)] ∧
      (windowReport stableRanking pairReq ("rule", commaStream)).data.map
          (fun r => (r.itemKey, r.stat)) =
        [("rule@x,y,z", ⟨1, 1⟩), ("rule@x,y,z", ⟨1, 1⟩)] ∧
      ¬ (commaPlan.result stableRanking pairReq).data.Perm
        (windowReport stableRanking pairReq ("rule", commaStream)).data := by
  refine ⟨by decide, by decide, by decide, by decide, by decide, ?_⟩
  intro same
  exact absurd same.length_eq (by decide)

end WarpMotor
