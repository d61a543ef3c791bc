import Mathlib.Data.List.Destutter
import Mathlib.Data.List.Sort
import WarpMotor.Event
import WarpMotor.File.ChunkReader

/-!
A file is cut into shards for parallel readers. The targets are multiples of
the chunk size, each moved to the start of the next line, and a shard runs from
one start to the next; the last one has no limit. Every shard is read by a
line reader of its own.
-/
namespace WarpMotor

open Framing

namespace File

/-- The byte after the first newline at `pos` or behind it, else the end of the file. -/
def scanForNewline (fileSize : Nat) : Nat → Bytes → Nat
  | _, [] => fileSize
  | pos, b :: rest =>
    if b = newline then pos + 1
    else if fileSize ≤ pos + 1 then fileSize
    else scanForNewline fileSize (pos + 1) rest

def alignToNextLine (data : Bytes) (offset fileSize : Nat) : Nat :=
  if offset = 0 then 0 else scanForNewline fileSize (offset - 1) (data.drop (offset - 1))

/-- The starts that the loop over the instances pushes; a target behind the end stops it. -/
def shardStarts (data : Bytes) (chunk : Nat) : List Nat → List Nat
  | [] => []
  | i :: rest =>
    let target := saturatingMul chunk i
    if data.length ≤ target then []
    else
      let aligned := alignToNextLine data target data.length
      if aligned < data.length then aligned :: shardStarts data chunk rest
      else shardStarts data chunk rest

/-- Where a shard starts and where it stops; without a stop it runs to the end of the file. -/
abbrev Range := Nat × Option Nat

def rangesFrom : List Nat → List Range
  | [] => []
  | [start] => [(start, none)]
  | start :: next :: rest => (start, some next) :: rangesFrom (next :: rest)

def computeFileRanges (data : Bytes) (instances : Nat) : List Range :=
  let size := data.length
  if size = 0 ∨ instances ≤ 1 then [(0, none)]
  else
    let chunk := (size + instances - 1) / instances
    let starts := 0 :: shardStarts data chunk (List.range' 1 (instances - 1))
    rangesFrom ((starts.insertionSort (· ≤ ·)).destutter (· ≠ ·))

/-- `FileSource::new` seeks to the start and limits the reader to the length of the range. -/
def rangeReader (data : Bytes) (chunkSize : Nat) (range : Range) : ChunkedLineReader :=
  .new (data.drop range.1) chunkSize (range.2.map (· - range.1))

/-- The lines that a reader hands out when its `i`-th read brings at most `sizes i` bytes. -/
def readLines (sizes : Nat → Nat) (r : ChunkedLineReader) (fuel : Nat) : Option (List Bytes) :=
  r.lines fuel (((List.range fuel).map sizes).map .upTo)

/-- The range's stop, the end of the file where it has none. -/
def Range.stop (data : Bytes) (range : Range) : Nat := range.2.getD data.length

/-- A line of the file begins at `pos`. -/
def LineStart (data : Bytes) (pos : Nat) : Prop := EndsLine (data.take pos)

/-- From `start` on the ranges follow each other without a gap, to the end of the file. -/
inductive Covers : Nat → List Range → Prop where
  | last (start : Nat) : Covers start [(start, none)]
  | next (start stop : Nat) (rest : List Range) (later : Covers stop rest) :
      Covers start ((start, some stop) :: rest)

theorem scanForNewline_lineStart {data : Bytes} {pos : Nat} {rest : Bytes}
    (here : data.drop pos = rest) :
    scanForNewline data.length pos rest = data.length ∨
      LineStart data (scanForNewline data.length pos rest) := by
  induction rest generalizing pos with
  | nil => exact .inl rfl
  | cons b rest ih =>
    have next : data.drop (pos + 1) = rest := by
      rw [← List.drop_drop, here]
      rfl
    unfold scanForNewline
    split
    · rename_i ends
      right
      have within : pos < data.length := by
        by_contra outside
        rw [List.drop_eq_nil_of_le (by omega)] at here
        cases here
      have upTo : data.take (pos + 1) = data.take pos ++ [newline] := by
        rw [List.take_add, here, List.take_succ_cons, List.take_zero, ends]
      refine .inr ?_
      rw [upTo, List.getLast?_append]
      rfl
    · split
      · exact .inl rfl
      · exact ih next

theorem alignToNextLine_lineStart {data : Bytes} {offset : Nat}
    (inside : alignToNextLine data offset data.length < data.length) :
    LineStart data (alignToNextLine data offset data.length) := by
  unfold alignToNextLine at inside ⊢
  split
  · exact .inl rfl
  · rename_i positive
    rw [if_neg positive] at inside
    rcases scanForNewline_lineStart (rfl : data.drop (offset - 1) = _) with at_end | starts
    · omega
    · exact starts

theorem shardStarts_lineStart {data : Bytes} {chunk start : Nat} {indices : List Nat}
    (pushed : start ∈ shardStarts data chunk indices) : start < data.length ∧ LineStart data start := by
  induction indices with
  | nil => cases pushed
  | cons i rest ih =>
    unfold shardStarts at pushed
    dsimp only at pushed
    split at pushed
    · cases pushed
    · split at pushed
      · rename_i inside
        rcases List.mem_cons.mp pushed with rfl | later
        · exact ⟨inside, alignToNextLine_lineStart inside⟩
        · exact ih later
      · exact ih pushed

/-- Sorted and without repetition, the starts grow from zero. -/
theorem sorted_dedup_starts (starts : List Nat) :
    ∃ rest, ((0 :: starts).insertionSort (· ≤ ·)).destutter (· ≠ ·) = 0 :: rest ∧
      (0 :: rest).Pairwise (· < ·) ∧ ∀ start ∈ rest, start ∈ starts := by
  rw [List.insertionSort_cons_of_forall_rel _ (fun start _ => Nat.zero_le start),
    List.destutter_cons']
  set sorted := starts.insertionSort (· ≤ ·)
  have ordered : (0 :: sorted).Pairwise (· ≤ ·) :=
    List.pairwise_cons.mpr ⟨fun start _ => Nat.zero_le start, List.pairwise_insertionSort _ _⟩
  have within : (sorted.destutter' (· ≠ ·) 0).Sublist (0 :: sorted) := List.destutter'_sublist _ _ _
  have growing : (sorted.destutter' (· ≠ ·) 0).Pairwise (· < ·) := by
    have differ := List.isChain_destutter' (· ≠ ·) sorted 0
    have nondecreasing := (ordered.sublist within).isChain
    rw [← List.isChain_iff_pairwise]
    rw [List.isChain_iff_getElem] at differ nondecreasing ⊢
    intro i inside
    exact lt_of_le_of_ne (nondecreasing i inside) (differ i inside)
  cases shape : sorted.destutter' (· ≠ ·) 0 with
  | nil => exact absurd shape (List.destutter'_ne_nil _ _)
  | cons first rest =>
    have zero_in : 0 ∈ first :: rest := shape ▸ List.mem_destutter' _ _ _
    rw [shape] at growing within
    have first_zero : first = 0 := by
      rcases List.mem_cons.mp zero_in with same | later
      · exact same.symm
      · exact absurd ((List.pairwise_cons.mp growing).1 0 later) (Nat.not_lt_zero _)
    subst first_zero
    refine ⟨rest, rfl, growing, ?_⟩
    intro start mem
    have positive := (List.pairwise_cons.mp growing).1 start mem
    have present := within.subset (List.mem_cons_of_mem _ mem)
    rcases List.mem_cons.mp present with zero | pushed
    · omega
    · exact (List.mem_insertionSort _).mp pushed

theorem computeFileRanges_eq (data : Bytes) (instances : Nat) :
    ∃ rest, computeFileRanges data instances = rangesFrom (0 :: rest) ∧
      (0 :: rest).Pairwise (· < ·) ∧
      ∀ start ∈ rest, start < data.length ∧ LineStart data start := by
  unfold computeFileRanges
  dsimp only
  split
  · exact ⟨[], rfl, List.pairwise_singleton _ _, by simp⟩
  · obtain ⟨rest, shape, growing, pushed⟩ := sorted_dedup_starts
      (shardStarts data ((data.length + instances - 1) / instances) (List.range' 1 (instances - 1)))
    rw [shape]
    exact ⟨rest, rfl, growing, fun start mem => shardStarts_lineStart (pushed start mem)⟩

theorem covers_rangesFrom (start : Nat) (rest : List Nat) :
    Covers start (rangesFrom (start :: rest)) := by
  induction rest generalizing start with
  | nil => exact .last start
  | cons next rest ih => exact .next start next _ (ih next)

theorem rangesFrom_nonempty {data : Bytes} {start : Nat} {rest : List Nat}
    (growing : (start :: rest).Pairwise (· < ·)) (inside : ∀ s ∈ start :: rest, s < data.length) :
    ∀ range ∈ rangesFrom (start :: rest), range.1 < Range.stop data range := by
  induction rest generalizing start with
  | nil =>
    intro range mem
    rw [rangesFrom, List.mem_singleton] at mem
    rw [mem]
    exact inside start (by simp)
  | cons next rest ih =>
    intro range mem
    rw [rangesFrom, List.mem_cons] at mem
    rw [List.pairwise_cons] at growing
    rcases mem with rfl | later
    · exact growing.1 next (by simp)
    · exact ih growing.2 (fun s within => inside s (List.mem_cons_of_mem _ within)) range later

theorem rangesFrom_start_mem {start : Nat} {rest : List Nat} :
    ∀ range ∈ rangesFrom (start :: rest), range.1 ∈ start :: rest := by
  induction rest generalizing start with
  | nil => simp [rangesFrom]
  | cons next rest ih =>
    intro range mem
    rw [rangesFrom, List.mem_cons] at mem
    rcases mem with rfl | later
    · exact List.mem_cons_self
    · exact List.mem_cons_of_mem _ (ih range later)

theorem readLines_of_handsOut {r : ChunkedLineReader} {front back : Bytes}
    (hands : r.HandsOut front back) (sizes : Nat → Nat) :
    Fuel.Yields (readLines sizes r) ((lineChunks front).map trimCrlf) := by
  refine ⟨max (front.length + 1) (r.file.length + 2), ?_⟩
  intro fuel enough
  refine ChunkedLineReader.lines_of_handsOut hands (by omega) (.inl ?_)
  rw [List.length_map, List.length_range]
  omega

/-- Between two line starts, the reader of the range hands out the bytes of the range. -/
theorem rangeReader_handsOut {data : Bytes} {start stop : Nat} (chunkSize : Nat)
    (growing : start < stop) (inside : stop ≤ data.length) (ends : LineStart data stop) :
    (rangeReader data chunkSize (start, some stop)).HandsOut
      ((data.drop start).take (stop - start)) (data.drop stop) := by
  have later : data.drop stop = (data.drop start).drop (stop - start) := by
    rw [List.drop_drop]
    congr 1
    omega
  have whole : data.take stop = data.take start ++ (data.drop start).take (stop - start) := by
    rw [← List.take_add]
    congr 1
    omega
  constructor
  · rw [later, List.take_append_drop]
    rfl
  · right
    constructor
    · simp only [rangeReader, ChunkedLineReader.new, Option.map_some, List.length_take,
        List.length_drop, Option.some.injEq]
      omega
    · unfold LineStart at ends
      rw [whole] at ends
      exact ends.of_append

theorem wholeReader_handsOut (data : Bytes) (chunkSize start : Nat) :
    (rangeReader data chunkSize (start, none)).HandsOut (data.drop start) [] := by
  constructor
  · rw [List.append_nil]
    rfl
  · exact .inl ⟨rfl, rfl⟩

/-- The bytes of a range. -/
def rangeText (data : Bytes) (range : Range) : Bytes :=
  (data.drop range.1).take (Range.stop data range - range.1)

theorem rangeText_last (data : Bytes) (start : Nat) :
    rangeText data (start, none) = data.drop start := by
  have all : data.length - start = (data.drop start).length := by rw [List.length_drop]
  simp only [rangeText, Range.stop, Option.getD_none, all, List.take_length]

/-- The reader of a shard hands out the bytes of its range. -/
theorem rangesFrom_handsOut {data : Bytes} {start : Nat} {rest : List Nat} (chunkSize : Nat)
    (growing : (start :: rest).Pairwise (· < ·))
    (aligned : ∀ s ∈ rest, s < data.length ∧ LineStart data s) :
    ∀ range ∈ rangesFrom (start :: rest), ∃ back,
      (rangeReader data chunkSize range).HandsOut (rangeText data range) back := by
  induction rest generalizing start with
  | nil =>
    intro range mem
    rw [rangesFrom, List.mem_singleton] at mem
    rw [mem, rangeText_last]
    exact ⟨[], wholeReader_handsOut data chunkSize start⟩
  | cons next rest ih =>
    intro range mem
    rw [rangesFrom, List.mem_cons] at mem
    rw [List.pairwise_cons] at growing
    rcases mem with rfl | later
    · obtain ⟨inside, ends⟩ := aligned next (by simp)
      exact ⟨_, rangeReader_handsOut chunkSize (growing.1 next (by simp)) inside.le ends⟩
    · exact ih growing.2 (fun s within => aligned s (List.mem_cons_of_mem _ within)) range later

/-- The lines of the shards, one shard after the other, are the lines of the file. -/
theorem rangesFrom_lineChunks {data : Bytes} {start : Nat} {rest : List Nat}
    (growing : (start :: rest).Pairwise (· < ·))
    (aligned : ∀ s ∈ rest, s < data.length ∧ LineStart data s) :
    (rangesFrom (start :: rest)).flatMap (fun range => lineChunks (rangeText data range)) =
      lineChunks (data.drop start) := by
  induction rest generalizing start with
  | nil => simp [rangesFrom, rangeText_last]
  | cons next rest ih =>
    rw [List.pairwise_cons] at growing
    obtain ⟨inside, ends⟩ := aligned next (by simp)
    have hands := rangeReader_handsOut 0 (growing.1 next (by simp)) inside.le ends
    have ended : EndsLine (rangeText data (start, some next)) := by
      rcases hands.limit with ⟨no_limit, -⟩ | ⟨-, ended⟩
      · cases no_limit
      · exact ended
    have whole : data.drop start = rangeText data (start, some next) ++ data.drop next := hands.whole
    rw [rangesFrom, List.flatMap_cons, whole, lineChunks_append ended]
    exact congrArg _ (ih growing.2 fun s mem => aligned s (List.mem_cons_of_mem _ mem))

theorem rangesFrom_lines {data : Bytes} {start : Nat} {rest : List Nat} (chunkSize : Nat)
    (sizes : Range → Nat → Nat) (growing : (start :: rest).Pairwise (· < ·))
    (aligned : ∀ s ∈ rest, s < data.length ∧ LineStart data s) :
    ∃ parts, List.Forall₂ (fun range part =>
        Fuel.Yields (readLines (sizes range) (rangeReader data chunkSize range)) part)
        (rangesFrom (start :: rest)) parts ∧
      parts.flatten = (lineChunks (data.drop start)).map trimCrlf := by
  refine ⟨(rangesFrom (start :: rest)).map (fun range =>
    (lineChunks (rangeText data range)).map trimCrlf), ?_, ?_⟩
  · rw [List.forall₂_map_right_iff, List.forall₂_same]
    intro range mem
    obtain ⟨back, hands⟩ := rangesFrom_handsOut chunkSize growing aligned range mem
    exact readLines_of_handsOut hands _
  · rw [← rangesFrom_lineChunks growing aligned, List.map_flatMap, List.flatMap_def]

/-- The shards of a file cover it from its start without a gap, they begin where lines begin, and
    no shard of a file with some content is empty. Read one after the other they give the lines
    that one reader gives for the whole file, whatever the sizes of the single reads are. -/
theorem computeFileRanges_lines (data : Bytes) (instances chunkSize : Nat) :
    Covers 0 (computeFileRanges data instances) ∧
    (data ≠ [] → ∀ range ∈ computeFileRanges data instances, range.1 < Range.stop data range) ∧
    (∀ range ∈ computeFileRanges data instances, LineStart data range.1) ∧
    ∀ (sizes : Range → Nat → Nat) (sizesWhole : Nat → Nat), ∃ parts,
      List.Forall₂ (fun range part =>
        Fuel.Yields (readLines (sizes range) (rangeReader data chunkSize range)) part)
        (computeFileRanges data instances) parts ∧
      Fuel.Yields (readLines sizesWhole (rangeReader data chunkSize (0, none))) parts.flatten := by
  obtain ⟨rest, shape, growing, aligned⟩ := computeFileRanges_eq data instances
  rw [shape]
  refine ⟨covers_rangesFrom 0 rest, ?_, ?_, ?_⟩
  · intro some_data
    refine rangesFrom_nonempty growing ?_
    intro start mem
    rcases List.mem_cons.mp mem with rfl | pushed
    · exact List.length_pos_of_ne_nil some_data
    · exact (aligned start pushed).1
  · intro range mem
    rcases List.mem_cons.mp (rangesFrom_start_mem range mem) with zero | pushed
    · rw [zero]
      exact .inl rfl
    · exact (aligned _ pushed).2
  · intro sizes sizesWhole
    obtain ⟨parts, each, joined⟩ := rangesFrom_lines chunkSize sizes growing aligned
    refine ⟨parts, each, ?_⟩
    rw [joined]
    exact readLines_of_handsOut (wholeReader_handsOut data chunkSize 0) sizesWhole

/-- The single range of an empty file has no bytes. -/
theorem computeFileRanges_empty_file :
    ¬ ∀ (data : Bytes) (instances : Nat), ∀ range ∈ computeFileRanges data instances,
      range.1 < Range.stop data range := by
  intro nonempty
  exact absurd (nonempty [] 1 (0, none) (by decide)) (by decide)

end File

end WarpMotor
