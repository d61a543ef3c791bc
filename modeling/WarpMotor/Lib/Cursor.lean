import Mathlib.Data.List.TakeWhile
import Mathlib.Data.List.DropRight
import Mathlib.Data.List.Infix

/-!
Scanners of a list, by index and by suffix. The one moves an index along a
fixed list, the other takes the list from that index on and returns what is
left. `Moves` says that they are one scanner.
-/
namespace Cursor
variable {A : Type*}

def scanWhile (p : A → Bool) (list : List A) (i : Nat) : Nat :=
  i + ((list.drop i).takeWhile p).length

/-- Where `pattern` begins first. -/
def find [DecidableEq A] (pattern : List A) : List A → Option Nat
  | [] => if pattern = [] then some 0 else none
  | a :: rest => if pattern <+: a :: rest then some 0 else (find pattern rest).map (· + 1)

/-- Moving the index along `list` is taking `step` of the rest of it. -/
def Moves (list : List A) (move : Nat → Option Nat) (step : List A → Option (List A)) : Prop :=
  ∀ i, i ≤ list.length →
    (move i).map list.drop = step (list.drop i) ∧ ∀ j, move i = some j → i ≤ j ∧ j ≤ list.length

section
variable {list : List A} {move move' : Nat → Option Nat} {step step' : List A → Option (List A)}

theorem Moves.bind (first : Moves list move step) (second : Moves list move' step') :
    Moves list (fun i => (move i).bind move') (fun rest => (step rest).bind step') := by
  intro i inside
  obtain ⟨same, later⟩ := first i inside
  cases moved : move i with
  | none => simp [← same, moved]
  | some j =>
    obtain ⟨forward, bound⟩ := later j moved
    obtain ⟨same', later'⟩ := second j bound
    refine ⟨by simp [← same, moved, same'], ?_⟩
    intro k moved'
    obtain ⟨forward', bound'⟩ := later' k (by simpa [moved] using moved')
    exact ⟨by omega, bound'⟩

/-- A scanner described on every cut of the list. -/
theorem Moves.of_cut (cut : ∀ front rest, list = front ++ rest →
      move front.length = (step rest).map (fun left => list.length - left.length) ∧
        ∀ left, step rest = some left → left <:+ rest) :
    Moves list move step := by
  intro i inside
  obtain ⟨moved, ending⟩ := cut (list.take i) (list.drop i) (List.take_append_drop i list).symm
  rw [List.length_take_of_le inside] at moved
  rw [moved]
  cases stepped : step (list.drop i) with
  | none => simp
  | some left =>
    have inside' := ending left stepped
    have whole := inside'.trans (List.drop_suffix i list)
    have short := inside'.length_le
    rw [List.length_drop] at short
    refine ⟨by simpa using (List.suffix_iff_eq_drop.mp whole).symm, ?_⟩
    intro j arrived
    cases arrived
    dsimp only
    omega

/-- The index that a suffix scanner stops at. -/
theorem Moves.index (moves : Moves list move step) {i : Nat} (inside : i ≤ list.length) :
    move i = (step (list.drop i)).map (fun rest => list.length - rest.length) := by
  obtain ⟨same, later⟩ := moves i inside
  cases moved : move i with
  | none => simp [← same, moved]
  | some j =>
    have bound := (later j moved).2
    simp [← same, moved]
    omega

end

theorem scanWhile_le (p : A → Bool) (list : List A) {i : Nat} (inside : i ≤ list.length) :
    i ≤ scanWhile p list i ∧ scanWhile p list i ≤ list.length := by
  have short := ((list.drop i).takeWhile_sublist p).length_le
  rw [List.length_drop] at short
  unfold scanWhile
  omega

theorem drop_scanWhile (p : A → Bool) (list : List A) (i : Nat) :
    list.drop (scanWhile p list i) = (list.drop i).dropWhile p := by
  rw [scanWhile, ← List.drop_drop]
  calc (list.drop i).drop ((list.drop i).takeWhile p).length
      = ((list.drop i).takeWhile p ++ (list.drop i).dropWhile p).drop
          ((list.drop i).takeWhile p).length := by rw [List.takeWhile_append_dropWhile]
    _ = (list.drop i).dropWhile p := List.drop_left

/-- Past the first element that stops the scan. -/
def skipPast (p : A → Bool) (list : List A) (i : Nat) : Option Nat :=
  if list.length ≤ scanWhile p list i then none else some (scanWhile p list i + 1)

def dropPast (p : A → Bool) (rest : List A) : Option (List A) :=
  match rest.dropWhile p with
  | [] => none
  | _ :: after => some after

theorem skipPast_moves (p : A → Bool) (list : List A) :
    Moves list (skipPast p list) (dropPast p) := by
  intro i inside
  obtain ⟨forward, bound⟩ := scanWhile_le p list inside
  have scanned := drop_scanWhile p list i
  unfold skipPast dropPast
  cases behind : (list.drop i).dropWhile p with
  | nil =>
    rw [behind, List.drop_eq_nil_iff] at scanned
    simp only [scanned, if_true, Option.map_none, true_and]
    rintro j ⟨⟩
  | cons a after =>
    have less : ¬ list.length ≤ scanWhile p list i := by
      intro past
      rw [List.drop_eq_nil_of_le past, behind] at scanned
      cases scanned
    have tail : list.drop (scanWhile p list i + 1) = after := by
      rw [← List.drop_drop, scanned, behind]
      rfl
    simp only [less, if_false, Option.map_some, tail, true_and]
    rintro j ⟨⟩
    omega

/-- Before the index stands what stopped the scan. -/
theorem stop_of_skipPast {p : A → Bool} {list : List A} {i j : Nat}
    (skipped : skipPast p list i = some j) : ∃ k a, j = k + 1 ∧ list[k]? = some a ∧ p a = false := by
  rw [skipPast] at skipped
  split at skipped
  · cases skipped
  · rename_i within
    cases skipped
    have scanned := drop_scanWhile p list i
    cases behind : (list.drop i).dropWhile p with
    | nil =>
      rw [behind, List.drop_eq_nil_iff] at scanned
      exact absurd scanned within
    | cons a after =>
      refine ⟨_, a, rfl, ?_, ?_⟩
      · rw [← List.head?_drop, scanned, behind]
        rfl
      · have stops := List.head?_dropWhile_not p (list.drop i)
        rw [behind] at stops
        simpa using stops

theorem scanWhile_eq_iff (p : A → Bool) (list : List A) (i : Nat) :
    scanWhile p list i = i ↔ (list.drop i).takeWhile p = [] := by
  rw [scanWhile, ← List.length_eq_zero_iff]
  omega

theorem find_singleton [DecidableEq A] (a : A) (list : List A) :
    find [a] list =
      if a ∈ list then some (list.takeWhile (fun b => decide (b ≠ a))).length else none := by
  induction list with
  | nil => simp [find]
  | cons b rest ih =>
    by_cases same : b = a
    · subst same
      simp [find]
    · have other : ¬ [a] <+: b :: rest := by
        rintro ⟨tail, start⟩
        cases start
        exact same rfl
      have member : a ∈ b :: rest ↔ a ∈ rest := by simp [Ne.symm same]
      rw [find, if_neg other, ih, List.takeWhile_cons_of_pos (by simpa using same)]
      by_cases inside : a ∈ rest
      · simp [inside]
      · simp [inside, member]

/-- Searching an element and going past it is going past what is not it. -/
theorem find_skipPast [DecidableEq A] (a : A) (list : List A) (i : Nat) :
    (find [a] (list.drop i)).map (fun found => i + found + 1) =
      skipPast (fun b => decide (b ≠ a)) list i := by
  rw [find_singleton, skipPast, scanWhile]
  by_cases inside : a ∈ list.drop i
  · have split := List.takeWhile_append_dropWhile (p := fun b => decide (b ≠ a)) (l := list.drop i)
    have lengths := congrArg List.length split
    have stops : (list.drop i).dropWhile (fun b => decide (b ≠ a)) ≠ [] := by
      intro all
      rw [List.dropWhile_eq_nil_iff] at all
      simpa using all a inside
    have positive := List.length_pos_of_ne_nil stops
    rw [List.length_append, List.length_drop] at lengths
    rw [if_pos inside, if_neg (by omega)]
    rfl
  · have all : (list.drop i).takeWhile (fun b => decide (b ≠ a)) = list.drop i := by
      rw [List.takeWhile_eq_self_iff]
      intro b member
      rw [decide_eq_true_eq]
      rintro rfl
      exact inside member
    rw [if_neg inside, all, List.length_drop, if_pos (by omega)]
    rfl

/-- What stands where the pattern was found. -/
theorem prefix_of_find [DecidableEq A] {pattern list : List A} {i : Nat}
    (found : find pattern list = some i) : pattern <+: list.drop i := by
  induction list generalizing i with
  | nil =>
    rw [find] at found
    split at found
    · rename_i empty
      simp [empty]
    · cases found
  | cons a rest ih =>
    rw [find] at found
    split at found
    · rename_i starts
      cases found
      exact starts
    · cases later : find pattern rest with
      | none => simp [later] at found
      | some j =>
        simp only [later, Option.map_some, Option.some.injEq] at found
        subst found
        exact ih later

theorem find_none_iff [DecidableEq A] (pattern list : List A) :
    find pattern list = none ↔ ¬ pattern <:+: list := by
  induction list with
  | nil => simp [find, List.infix_nil]
  | cons a rest ih =>
    rw [find, List.infix_cons_iff]
    by_cases starts : pattern <+: a :: rest
    · simp [starts]
    · simp [starts, ih]

theorem find_singleton_first [DecidableEq A] {a : A} {before : List A} (fresh : a ∉ before)
    (after : List A) : find [a] (before ++ a :: after) = some before.length := by
  have all : ∀ b ∈ before, decide (b ≠ a) = true := by
    intro b member
    rw [decide_eq_true_eq]
    rintro rfl
    exact fresh member
  rw [find_singleton, if_pos (by simp), List.takeWhile_append_of_pos all,
    List.takeWhile_cons_of_neg (by simp), List.append_nil]

/-- An element outside the pattern ends the search in what stands before it. -/
theorem find_append [DecidableEq A] {pattern : List A} {a : A} (nonempty : pattern ≠ [])
    (outside : a ∉ pattern) (before after : List A) :
    find pattern (before ++ a :: after) =
      (find pattern before).or ((find pattern after).map (· + (before.length + 1))) := by
  induction before with
  | nil =>
    have other : ¬ pattern <+: a :: after := by
      cases pattern with
      | nil => exact absurd rfl nonempty
      | cons b pattern =>
        rintro ⟨tail, start⟩
        cases start
        exact outside (by simp)
    simp [find, other, nonempty]
  | cons b before ih =>
    have starts : pattern <+: b :: before ++ a :: after ↔ pattern <+: b :: before := by
      constructor
      · rintro ⟨tail, start⟩
        obtain ⟨inner, shape, -⟩ | ⟨inner, shape, rest⟩ := List.append_eq_append_iff.mp start
        · exact ⟨inner, shape.symm⟩
        · cases inner with
          | nil => exact ⟨[], by simpa using shape⟩
          | cons c inner =>
            cases rest
            exact absurd (by rw [shape]; simp) outside
      · exact fun start => start.trans (List.prefix_append _ _)
    rw [List.cons_append] at starts
    rw [List.cons_append, find, find]
    by_cases start : pattern <+: b :: before
    · rw [if_pos start, if_pos (starts.mpr start)]
      rfl
    · rw [if_neg start, if_neg (starts.not.mpr start), ih]
      cases find pattern before with
      | none =>
        cases find pattern after with
        | none => rfl
        | some i =>
          simp
          omega
      | some i => rfl

end Cursor
