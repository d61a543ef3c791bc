import Mathlib.Data.List.Sort
import WarpMotor.Lib.Lru
import WarpMotor.Stats.Dimension

/-!
The collector of one request: a bounded cache of records by dimension, filled
by calls between two collections and emptied by each collection into a report.
The report lists the records of the dimensions the request is about, the
largest totals first. The order among equal totals is the sort's own.
-/
namespace WarpMotor

structure StatReport where
  req : StatReq
  curTarget : Option String
  data : List StatRecord
  deriving DecidableEq, Repr

/-- The unstable sort by descending total. -/
structure Ranking where
  sort : List StatRecord → List StatRecord
  perm : ∀ data, (sort data).Perm data
  sorted : ∀ data, (sort data).Pairwise (fun a b => b.stat.total ≤ a.stat.total)

/-- Larger totals first. -/
def largerFirst (a b : StatRecord) : Prop := b.stat.total ≤ a.stat.total

instance : DecidableRel largerFirst :=
  fun a b => inferInstanceAs (Decidable (b.stat.total ≤ a.stat.total))

instance : Std.Total largerFirst := ⟨fun a b => Nat.le_total b.stat.total a.stat.total⟩

instance : IsTrans StatRecord largerFirst := ⟨fun _ _ _ first second => Nat.le_trans second first⟩

theorem larger_first_perm (data : List StatRecord) : (data.insertionSort largerFirst).Perm data :=
  List.perm_insertionSort largerFirst data

theorem larger_first_sorted (data : List StatRecord) :
    (data.insertionSort largerFirst).Pairwise (fun a b => b.stat.total ≤ a.stat.total) :=
  List.pairwise_insertionSort largerFirst data

/-- The sort that keeps the order of equal totals. -/
def stableRanking : Ranking where
  sort := List.insertionSort largerFirst
  perm := larger_first_perm
  sorted := larger_first_sorted

def topNMultiplier : Nat := 2

/-- `select_nth_unstable_by`, `truncate` and the sort after them. -/
def Ranking.topN (rank : Ranking) (keep : Nat) (data : List StatRecord) : List StatRecord :=
  if keep < data.length then rank.sort ((rank.sort data).take keep) else rank.sort data

theorem Ranking.topN_of_le (rank : Ranking) {keep : Nat} {data : List StatRecord}
    (fits : data.length ≤ keep) : (rank.topN keep data).Perm data := by
  rw [topN, if_neg (Nat.not_lt.mpr fits)]
  exact rank.perm data

/-- What is kept is among what was ranked. -/
theorem Ranking.topN_subperm (rank : Ranking) (keep : Nat) (data : List StatRecord) :
    (rank.topN keep data).Subperm data := by
  unfold topN
  split
  · exact (rank.perm _).subperm.trans
      ((List.take_sublist _ _).subperm.trans (rank.perm data).subperm)
  · exact (rank.perm data).subperm

inductive DatKey where
  | data (dim : DataDim)
  | unit
  deriving DecidableEq, Repr

def DatKey.dim : DatKey → DataDim
  | .data dim => dim
  | .unit => .empty

def minCacheSize : Nat := 5

theorem min_cache_size_positive (req : StatReq) : 0 < max req.max minCacheSize :=
  Nat.lt_of_lt_of_le (by decide) (Nat.le_max_right _ _)

def initCache (req : StatReq) : LruCache StatDim StatRecord :=
  .empty (max req.max minCacheSize) (min_cache_size_positive req)

/-- The dimensions cached for unit keys are the ones `make_dim` builds. -/
structure StatCollector where
  target : String
  require : StatReq
  record : LruCache StatDim StatRecord
  unitDims : AList (fun _ : String => StatDim)
  unitKept : ∀ rule dim, unitDims.lookup rule = some dim →
    dim = StatDim.makeDim require.target rule .empty

namespace StatCollector

theorem unit_kept_nil (req : StatReq) (rule : String) (dim : StatDim)
    (found : (∅ : AList (fun _ : String => StatDim)).lookup rule = some dim) :
    dim = StatDim.makeDim req.target rule .empty := by
  simp at found

def new (target : String) (req : StatReq) : StatCollector where
  target := target
  require := req
  record := initCache req
  unitDims := ∅
  unitKept := unit_kept_nil req

def upTarget (c : StatCollector) (target : String) : StatCollector := { c with target }

def freshRecord (req : StatReq) (dim : StatDim) : StatRecord :=
  .new req.stage dim.display dim.collect

/-- `get_or_create_record` and a change of the record. -/
def change (c : StatCollector) (dim : StatDim) (f : StatRecord → StatRecord) : StatCollector :=
  { c with record := c.record.touch dim (freshRecord c.require dim) f }

theorem unit_kept_insert (c : StatCollector) (ruleKey rule : String) (dim : StatDim)
    (found : (c.unitDims.insert ruleKey
      (StatDim.makeDim c.require.target ruleKey .empty)).lookup rule = some dim) :
    dim = StatDim.makeDim c.require.target rule .empty := by
  by_cases same : rule = ruleKey
  · subst same
    rw [AList.lookup_insert, Option.some_inj] at found
    exact found.symm
  · rw [AList.lookup_insert_ne same] at found
    exact c.unitKept rule dim found

def unitDimCached (c : StatCollector) (ruleKey : String) : StatDim × StatCollector :=
  match c.unitDims.lookup ruleKey with
  | some dim => (dim, c)
  | none =>
    let dim := StatDim.makeDim c.require.target ruleKey .empty
    (dim, { c with unitDims := c.unitDims.insert ruleKey dim
                   unitKept := c.unit_kept_insert ruleKey })

def recBegImpl (c : StatCollector) (dim : StatDim) : StatCollector := c.change dim StatRecord.recBeg

def recEndImpl (c : StatCollector) (dim : StatDim) : StatCollector := c.change dim StatRecord.recEnd

def recBegEndImpl (c : StatCollector) (dim : StatDim) : StatCollector :=
  c.change dim StatRecord.recBegEnd

def recBegNImpl (n : Nat) (c : StatCollector) (dim : StatDim) : StatCollector :=
  if n = 0 then c else c.change dim (fun r => r.recBegN n)

def recEndNImpl (n : Nat) (c : StatCollector) (dim : StatDim) : StatCollector :=
  if n = 0 then c else c.change dim (fun r => r.recEndN n)

/-- Unlike the other two, `n = 0` still creates the record. -/
def recBegEndNImpl (n : Nat) (c : StatCollector) (dim : StatDim) : StatCollector :=
  c.change dim (fun r => if 0 < n then r.recBegEndN n else r)

/-- A data key becomes a dimension each time, a unit key through the cache of such dimensions. -/
def withDim (c : StatCollector) (ruleKey : String) (key : DatKey)
    (impl : StatCollector → StatDim → StatCollector) : StatCollector :=
  match key with
  | .data dim => impl c (StatDim.makeDim c.require.target ruleKey dim)
  | .unit =>
    let (dim, c) := c.unitDimCached ruleKey
    impl c dim

def recordBegin (c : StatCollector) (ruleKey : String) (key : DatKey) : StatCollector :=
  c.withDim ruleKey key recBegImpl

def recordEnd (c : StatCollector) (ruleKey : String) (key : DatKey) : StatCollector :=
  c.withDim ruleKey key recEndImpl

def recordTask (c : StatCollector) (ruleKey : String) (key : DatKey) : StatCollector :=
  c.withDim ruleKey key recBegEndImpl

def recordBeginN (c : StatCollector) (ruleKey : String) (key : DatKey) (n : Nat) : StatCollector :=
  c.withDim ruleKey key (recBegNImpl n)

def recordEndN (c : StatCollector) (ruleKey : String) (key : DatKey) (n : Nat) : StatCollector :=
  c.withDim ruleKey key (recEndNImpl n)

def recordTaskN (c : StatCollector) (ruleKey : String) (key : DatKey) (n : Nat) : StatCollector :=
  c.withDim ruleKey key (recBegEndNImpl n)

/-- The dimensions a request's report is about. -/
def reported (target : StatTarget) (dim : StatDim) : Bool :=
  match target with
  | .all => true
  | .ignore => false
  | .item expect => dim.target == some expect

def collectFromCache (rank : Ranking) (c : StatCollector) (cache : LruCache StatDim StatRecord) :
    StatReport :=
  let data := (cache.entries.entries.filter (fun e => reported c.require.target e.1)).map (·.2)
  { req := c.require
    curTarget := some c.target
    data := rank.topN (c.require.max * topNMultiplier) data }

/-- `collect_stat`, and `collect_stat_with_time` up to the timers. -/
def collectStat (rank : Ranking) (c : StatCollector) : StatReport × StatCollector :=
  (c.collectFromCache rank c.record,
    { c with record := initCache c.require, unitDims := ∅, unitKept := unit_kept_nil c.require })

end StatCollector

end WarpMotor
