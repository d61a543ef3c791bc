import Mathlib.Data.List.Dedup
import Mathlib.Data.List.Perm.Basic
import WarpMotor.Stats.Collector

/-!
What a collector has counted. The calls between two collections are tallied
by dimension. As long as they name no more dimensions than the cache holds,
the report has exactly one record for each dimension it is about, with the
totals of that dimension's calls.
-/
namespace WarpMotor

inductive StatOp where
  | recordBegin
  | recordEnd
  | recordTask
  | recordBeginN (n : Nat)
  | recordEndN (n : Nat)
  | recordTaskN (n : Nat)
  deriving DecidableEq, Repr

structure StatCall where
  ruleKey : String
  datKey : DatKey
  op : StatOp
  deriving DecidableEq, Repr

namespace StatOp

/-- What the call adds to the counters of its dimension. -/
def counts : StatOp → MeasureUnit
  | recordBegin => ⟨1, 0⟩
  | recordEnd => ⟨0, 1⟩
  | recordTask => ⟨1, 1⟩
  | recordBeginN n => ⟨n, 0⟩
  | recordEndN n => ⟨0, n⟩
  | recordTaskN n => ⟨n, n⟩

/-- A begin or an end of nothing leaves the cache alone. -/
def touches : StatOp → Bool
  | recordBeginN n => n != 0
  | recordEndN n => n != 0
  | _ => true

end StatOp

def StatCall.dim (req : StatReq) (call : StatCall) : StatDim :=
  .makeDim req.target call.ruleKey call.datKey.dim

def StatRecord.count (r : StatRecord) (m : MeasureUnit) : StatRecord := { r with stat := r.stat.add m }

namespace StatCollector

def call (c : StatCollector) (s : StatCall) : StatCollector :=
  match s.op with
  | .recordBegin => c.recordBegin s.ruleKey s.datKey
  | .recordEnd => c.recordEnd s.ruleKey s.datKey
  | .recordTask => c.recordTask s.ruleKey s.datKey
  | .recordBeginN n => c.recordBeginN s.ruleKey s.datKey n
  | .recordEndN n => c.recordEndN s.ruleKey s.datKey n
  | .recordTaskN n => c.recordTaskN s.ruleKey s.datKey n

def calls (c : StatCollector) (stream : List StatCall) : StatCollector := Runs.run call c stream

/-- A collector through its collection windows: the calls of each, then its report. -/
def reports (rank : Ranking) : StatCollector → List (List StatCall) → List StatReport
  | _, [] => []
  | c, window :: rest =>
    let (report, c) := (c.calls window).collectStat rank
    report :: reports rank c rest

theorem unit_dim_cached (c : StatCollector) (ruleKey : String) :
    (c.unitDimCached ruleKey).1 = StatDim.makeDim c.require.target ruleKey .empty ∧
      (c.unitDimCached ruleKey).2.require = c.require ∧
      (c.unitDimCached ruleKey).2.record = c.record ∧
      (c.unitDimCached ruleKey).2.target = c.target := by
  unfold unitDimCached
  cases found : c.unitDims.lookup ruleKey with
  | some dim => exact ⟨c.unitKept ruleKey dim found, rfl, rfl, rfl⟩
  | none => exact ⟨rfl, rfl, rfl, rfl⟩

/-- `after` is `c` with the record of `dim` changed, up to the cache of unit dimensions. -/
structure Changed (c after : StatCollector) (dim : StatDim) (f : StatRecord → StatRecord) : Prop where
  target : after.target = c.target
  require : after.require = c.require
  record : after.record = c.record.touch dim (freshRecord c.require dim) f

theorem with_dim_change (c : StatCollector) (ruleKey : String) (key : DatKey)
    (f : StatRecord → StatRecord) :
    Changed c (c.withDim ruleKey key (fun c dim => c.change dim f))
      (.makeDim c.require.target ruleKey key.dim) f := by
  cases key with
  | data dim => exact ⟨rfl, rfl, rfl⟩
  | unit =>
    have cached := c.unit_dim_cached ruleKey
    constructor
    · exact cached.2.2.2
    · exact cached.2.1
    · simp only [withDim, change, cached.1, cached.2.1, cached.2.2.1, DatKey.dim]

theorem with_dim_idle (c : StatCollector) (ruleKey : String) (key : DatKey) :
    (c.withDim ruleKey key (fun c _ => c)).target = c.target ∧
      (c.withDim ruleKey key (fun c _ => c)).require = c.require ∧
      (c.withDim ruleKey key (fun c _ => c)).record = c.record := by
  cases key with
  | data dim => exact ⟨rfl, rfl, rfl⟩
  | unit =>
    have cached := c.unit_dim_cached ruleKey
    exact ⟨cached.2.2.2, cached.2.1, cached.2.2.1⟩

theorem call_touches (c : StatCollector) {s : StatCall} (touching : s.op.touches = true) :
    Changed c (c.call s) (s.dim c.require) (fun r => r.count s.op.counts) := by
  obtain ⟨ruleKey, key, op⟩ := s
  cases op with
  | recordBegin => exact c.with_dim_change ruleKey key StatRecord.recBeg
  | recordEnd => exact c.with_dim_change ruleKey key StatRecord.recEnd
  | recordTask => exact c.with_dim_change ruleKey key StatRecord.recBegEnd
  | recordBeginN n =>
    have some_n : n ≠ 0 := by simpa [StatOp.touches] using touching
    have impl : recBegNImpl n = fun c dim => c.change dim (fun r => r.recBegN n) := by
      funext c dim
      exact if_neg some_n
    simp only [call, recordBeginN, impl]
    exact c.with_dim_change ruleKey key (fun r => r.recBegN n)
  | recordEndN n =>
    have some_n : n ≠ 0 := by simpa [StatOp.touches] using touching
    have impl : recEndNImpl n = fun c dim => c.change dim (fun r => r.recEndN n) := by
      funext c dim
      exact if_neg some_n
    simp only [call, recordEndN, impl]
    exact c.with_dim_change ruleKey key (fun r => r.recEndN n)
  | recordTaskN n =>
    have added : (fun r : StatRecord => if 0 < n then r.recBegEndN n else r) =
        fun r => r.count ⟨n, n⟩ := by
      funext r
      split
      · rfl
      · rename_i zero
        obtain rfl : n = 0 := by omega
        rfl
    have impl : recBegEndNImpl n = fun c dim => c.change dim (fun r => r.count ⟨n, n⟩) := by
      funext c dim
      exact congrArg (c.change dim) added
    simp only [call, recordTaskN, impl]
    exact c.with_dim_change ruleKey key (fun r => r.count ⟨n, n⟩)

theorem call_idle (c : StatCollector) {s : StatCall} (idle : s.op.touches = false) :
    (c.call s).target = c.target ∧ (c.call s).require = c.require ∧
      (c.call s).record = c.record := by
  obtain ⟨ruleKey, key, op⟩ := s
  cases op with
  | recordBeginN n =>
    obtain rfl : n = 0 := by simpa [StatOp.touches] using idle
    exact c.with_dim_idle ruleKey key
  | recordEndN n =>
    obtain rfl : n = 0 := by simpa [StatOp.touches] using idle
    exact c.with_dim_idle ruleKey key
  | recordBegin => cases idle
  | recordEnd => cases idle
  | recordTask => cases idle
  | recordTaskN n => cases idle

def updates (req : StatReq) (stream : List StatCall) :
    List (StatDim × (StatRecord → StatRecord)) :=
  (stream.filter (fun s => s.op.touches)).map (fun s => (s.dim req, fun r => r.count s.op.counts))

theorem calls_record (stream : List StatCall) (c : StatCollector) :
    (c.calls stream).target = c.target ∧ (c.calls stream).require = c.require ∧
      (c.calls stream).record = c.record.run (freshRecord c.require) (updates c.require stream) := by
  induction stream generalizing c with
  | nil => exact ⟨rfl, rfl, rfl⟩
  | cons s rest ih =>
    obtain ⟨target, require, record⟩ := ih (c.call s)
    have next : c.calls (s :: rest) = (c.call s).calls rest := rfl
    rw [next]
    cases touching : s.op.touches with
    | true =>
      have changed := c.call_touches touching
      refine ⟨target.trans changed.target, require.trans changed.require, ?_⟩
      rw [record, changed.require, changed.record]
      simp only [updates, List.filter_cons, touching, if_true, List.map_cons, LruCache.run_cons]
    | false =>
      obtain ⟨target', require', record'⟩ := c.call_idle touching
      refine ⟨target.trans target', require.trans require', ?_⟩
      rw [record, require', record']
      simp only [updates, List.filter_cons, touching, if_false, Bool.false_eq_true]

end StatCollector

/-- The dimensions the calls create records for. -/
def dims (req : StatReq) (stream : List StatCall) : List StatDim :=
  ((stream.filter (fun s => s.op.touches)).map (fun s => s.dim req)).dedup

/-- All that the calls add to one dimension. -/
def tally (req : StatReq) (dim : StatDim) : List StatCall → MeasureUnit
  | [] => .new
  | s :: rest =>
    if s.op.touches && s.dim req == dim then s.op.counts.add (tally req dim rest)
    else tally req dim rest

def recordOf (req : StatReq) (stream : List StatCall) (dim : StatDim) : StatRecord :=
  (StatCollector.freshRecord req dim).count (tally req dim stream)

/-- The dimensions the calls create records for and the report is about. -/
def reportedDims (req : StatReq) (stream : List StatCall) : List StatDim :=
  (dims req stream).filter (StatCollector.reported req.target)

def expectedData (req : StatReq) (stream : List StatCall) : List StatRecord :=
  (reportedDims req stream).map (recordOf req stream)

@[simp] theorem MeasureUnit.new_add (m : MeasureUnit) : MeasureUnit.new.add m = m := by
  simp [MeasureUnit.new, MeasureUnit.add]

theorem MeasureUnit.add_assoc (a b c : MeasureUnit) : (a.add b).add c = a.add (b.add c) := by
  simp [MeasureUnit.add, Nat.add_assoc]

theorem MeasureUnit.add_left_comm (a b c : MeasureUnit) : a.add (b.add c) = b.add (a.add c) := by
  simp [MeasureUnit.add, Nat.add_left_comm]

theorem StatRecord.count_count (r : StatRecord) (a b : MeasureUnit) :
    (r.count a).count b = r.count (a.add b) := by
  simp [StatRecord.count, MeasureUnit.add_assoc]

theorem tally_append (req : StatReq) (dim : StatDim) (first second : List StatCall) :
    tally req dim (first ++ second) = (tally req dim first).add (tally req dim second) := by
  induction first with
  | nil => simp [tally]
  | cons s rest ih =>
    simp only [List.cons_append, tally, ih]
    split
    · rw [MeasureUnit.add_assoc]
    · rfl

theorem tally_perm {req : StatReq} {dim : StatDim} {a b : List StatCall} (perm : a.Perm b) :
    tally req dim a = tally req dim b := by
  induction perm with
  | nil => rfl
  | cons s _ ih => simp only [tally, ih]
  | swap s t rest =>
    simp only [tally]
    split <;> split <;> first | rfl | exact MeasureUnit.add_left_comm ..
  | trans _ _ first second => exact first.trans second

theorem mem_dims {req : StatReq} {stream : List StatCall} {dim : StatDim} :
    dim ∈ dims req stream ↔ ∃ s ∈ stream, s.op.touches = true ∧ s.dim req = dim := by
  simp [dims, and_assoc]

theorem dims_nodup (req : StatReq) (stream : List StatCall) : (dims req stream).Nodup :=
  List.nodup_dedup _

theorem reported_dims_nodup (req : StatReq) (stream : List StatCall) :
    (reportedDims req stream).Nodup :=
  (dims_nodup req stream).filter _

theorem mem_reported_dims {req : StatReq} {stream : List StatCall} {dim : StatDim} :
    dim ∈ reportedDims req stream ↔
      dim ∈ dims req stream ∧ StatCollector.reported req.target dim = true := by
  simp [reportedDims]

theorem tally_of_absent {req : StatReq} {dim : StatDim} {stream : List StatCall}
    (absent : dim ∉ dims req stream) : tally req dim stream = .new := by
  induction stream with
  | nil => rfl
  | cons s rest ih =>
    have later : dim ∉ dims req rest := by
      intro member
      obtain ⟨t, present, touching, same⟩ := mem_dims.mp member
      exact absent (mem_dims.mpr ⟨t, List.mem_cons_of_mem s present, touching, same⟩)
    have skipped : ¬ (s.op.touches && s.dim req == dim) = true := by
      intro counted
      simp only [Bool.and_eq_true, beq_iff_eq] at counted
      exact absent (mem_dims.mpr ⟨s, List.mem_cons_self .., counted⟩)
    rw [tally, if_neg skipped, ih later]

theorem reported_dims_perm {req : StatReq} {a b : List StatCall} (perm : a.Perm b) :
    (reportedDims req a).Perm (reportedDims req b) :=
  (((perm.filter _).map _).dedup).filter _

theorem expected_data_perm {req : StatReq} {a b : List StatCall} (perm : a.Perm b) :
    (expectedData req a).Perm (expectedData req b) := by
  have records : recordOf req a = recordOf req b := by
    funext dim
    rw [recordOf, recordOf, tally_perm perm]
  rw [expectedData, expectedData, records]
  exact (reported_dims_perm perm).map _

namespace StatCollector

theorem updates_fold (req : StatReq) (dim : StatDim) (stream : List StatCall) (r : StatRecord) :
    ((updates req stream).filter (fun u => u.1 = dim)).foldl (fun v u => u.2 v) r =
      r.count (tally req dim stream) := by
  induction stream generalizing r with
  | nil => rfl
  | cons s rest ih =>
    by_cases own : s.op.touches = true ∧ s.dim req = dim
    · have counted : (s.op.touches && s.dim req == dim) = true := by simpa using own
      have head : updates req (s :: rest) =
          (s.dim req, fun r => r.count s.op.counts) :: updates req rest := by
        simp [updates, own.1]
      have kept : decide (s.dim req = dim) = true := by simpa using own.2
      rw [head, List.filter_cons, if_pos kept, List.foldl_cons, ih, StatRecord.count_count, tally,
        if_pos counted]
    · have counted : ¬ (s.op.touches && s.dim req == dim) = true := by simpa using own
      have skipped : (updates req (s :: rest)).filter (fun u => u.1 = dim) =
          (updates req rest).filter (fun u => u.1 = dim) := by
        cases touching : s.op.touches with
        | false => simp [updates, touching]
        | true =>
          have other : s.dim req ≠ dim := fun same => own ⟨touching, same⟩
          simp [updates, touching, other]
      rw [skipped, ih, tally, if_neg counted]

theorem updates_keys (req : StatReq) (stream : List StatCall) (dim : StatDim) :
    dim ∈ (updates req stream).map Prod.fst ↔ dim ∈ dims req stream := by
  simp [updates, mem_dims, and_assoc]

/-- While the calls name no more dimensions than the cache holds, it has one record for each. -/
theorem lookup_calls (target : String) (req : StatReq) (stream : List StatCall)
    (within : (dims req stream).length ≤ req.max) (dim : StatDim) :
    ((new target req).calls stream).record.lookup dim =
      if dim ∈ dims req stream then some (recordOf req stream dim) else none := by
  have keys : ((updates req stream).map Prod.fst).toFinset = (dims req stream).toFinset := by
    ext k
    simp only [List.mem_toFinset]
    exact updates_keys req stream k
  have enough : ((initCache req).demand (updates req stream)).card ≤ (initCache req).capacity := by
    calc ((initCache req).demand (updates req stream)).card
        = (dims req stream).toFinset.card := by rw [← keys]; rfl
      _ = (dims req stream).length := List.toFinset_card_of_nodup (dims_nodup req stream)
      _ ≤ max req.max minCacheSize := within.trans (Nat.le_max_left _ _)
  have cached := (calls_record stream (new target req)).2.2
  rw [cached]
  change ((initCache req).run (freshRecord req) (updates req stream)).lookup dim = _
  rw [LruCache.lookup_run _ _ _ enough, Table.run_apply]
  simp only [updates_keys, updates_fold]
  rfl

theorem cache_entries (target : String) (req : StatReq) (stream : List StatCall)
    (within : (dims req stream).length ≤ req.max) :
    ((new target req).calls stream).record.entries.entries.Perm
      ((dims req stream).map (fun dim => ⟨dim, recordOf req stream dim⟩)) := by
  have distinct : List.NodupKeys ((dims req stream).map
      (fun dim => (⟨dim, recordOf req stream dim⟩ : Sigma fun _ : StatDim => StatRecord))) := by
    simpa [List.NodupKeys, List.keys, List.map_map, Function.comp_def] using dims_nodup req stream
  apply List.lookup_ext (AList.nodupKeys _) distinct
  intro dim r
  have held := lookup_calls target req stream within dim
  change _ ∈ LruCache.lookup _ dim ↔ _
  rw [held, List.mem_dlookup_iff distinct]
  by_cases present : dim ∈ dims req stream
  · simp [present, eq_comm]
  · simp [present]

/-- The report of a window in which the cache is never full. -/
theorem report_exact (rank : Ranking) (target : String) (req : StatReq) (stream : List StatCall)
    (within : (dims req stream).length ≤ req.max) :
    (((new target req).calls stream).collectStat rank).1.data.Perm (expectedData req stream) := by
  have require := (calls_record stream (new target req)).2.1
  have listed := ((cache_entries target req stream within).filter
    (fun e => reported req.target e.1)).map (·.2)
  have selected : (((dims req stream).map
      (fun dim => (⟨dim, recordOf req stream dim⟩ : Sigma fun _ : StatDim => StatRecord))).filter
        (fun e => reported req.target e.1)).map (·.2) = expectedData req stream := by
    simp [expectedData, reportedDims, List.filter_map, Function.comp_def]
  rw [selected] at listed
  have fewer : (expectedData req stream).length ≤ req.max * topNMultiplier := by
    calc (expectedData req stream).length
        ≤ (dims req stream).length := by
          simpa [expectedData, reportedDims] using List.length_filter_le _ _
      _ ≤ req.max := within
      _ ≤ req.max * topNMultiplier := Nat.le_mul_of_pos_right _ (by decide)
  simp only [collectStat, collectFromCache, require]
  have fits := listed.length_eq.trans_le fewer
  exact (rank.topN_of_le fits).trans listed

end StatCollector

end WarpMotor
