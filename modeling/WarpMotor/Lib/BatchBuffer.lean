import Mathlib.Data.List.Basic

/-!
A buffer of bounded size that holds items of one key at a time, seen only
through its fill: how many items wait and under which key. Items come in
segments of one key. A segment of another key empties the buffer first, and a
buffer that reaches its capacity is emptied at once. Only the numbers matter
here, not what becomes of the items.
-/
namespace BatchBuffer
variable {K : Type*} [DecidableEq K]

structure Fill (K : Type*) where
  count : Nat
  key : K

/-- The segments of a list of keys: its longest runs of equal keys, with their lengths. -/
def segments : List K → List (K × Nat)
  | [] => []
  | key :: rest =>
    match segments rest with
    | [] => [(key, 1)]
    | (next, length) :: more =>
      if key = next then (key, length + 1) :: more else (key, 1) :: (next, length) :: more

def addSegment (capacity : Nat) (fill : Fill K) (segment : K × Nat) : Fill K :=
  if segment.2 = 0 then fill
  else
    let waiting := if fill.key = segment.1 then fill.count else 0
    if capacity ≤ waiting + segment.2 then ⟨0, segment.1⟩ else ⟨waiting + segment.2, segment.1⟩

/-- The fill after the items of a list of keys. -/
def addKeys (capacity : Nat) (fill : Fill K) (keys : List K) : Fill K :=
  (segments keys).foldl (addSegment capacity) fill

theorem segments_cons_head (key : K) (rest : List K) :
    ∃ length more, segments (key :: rest) = (key, length) :: more := by
  unfold segments
  split
  · exact ⟨1, [], rfl⟩
  · split
    · exact ⟨_, _, rfl⟩
    · exact ⟨1, _, rfl⟩

theorem segments_run_cons {key other : K} (different : key ≠ other) (length : Nat)
    (rest : List K) :
    segments (List.replicate (length + 1) key ++ other :: rest) =
      (key, length + 1) :: segments (other :: rest) := by
  induction length with
  | zero =>
    obtain ⟨count, more, head⟩ := segments_cons_head other rest
    rw [List.replicate_one, List.singleton_append, segments, head]
    simp [different]
  | succ length ih =>
    rw [List.replicate_succ, List.cons_append, segments, ih]
    simp

theorem segments_run (key : K) (length : Nat) :
    segments (List.replicate (length + 1) key) = [(key, length + 1)] := by
  induction length with
  | zero => rfl
  | succ length ih =>
    rw [List.replicate_succ, segments, ih]
    simp

theorem addKeys_run_cons (capacity : Nat) (fill : Fill K) {key other : K}
    (different : key ≠ other) (length : Nat) (rest : List K) :
    addKeys capacity fill (List.replicate length key ++ other :: rest) =
      addKeys capacity (addSegment capacity fill (key, length)) (other :: rest) := by
  cases length with
  | zero => simp [addSegment]
  | succ length => rw [addKeys, segments_run_cons different, List.foldl_cons, addKeys]

theorem addKeys_run (capacity : Nat) (fill : Fill K) (key : K) (length : Nat) :
    addKeys capacity fill (List.replicate length key) =
      addSegment capacity fill (key, length) := by
  cases length with
  | zero => simp [addKeys, segments, addSegment]
  | succ length => rw [addKeys, segments_run, List.foldl_cons, List.foldl_nil]

end BatchBuffer
