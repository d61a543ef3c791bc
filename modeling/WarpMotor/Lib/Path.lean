import Mathlib.Data.List.DropRight

/-!
Unix paths as texts, read by their components. Empty segments and `.` are no
components, except that a leading `.` is one and a leading slash is the root.
Operations return slices of the text: they cut at the ends and leave what is
between as it was written, repeated slashes included.
-/
namespace UnixPath

def segments (path : List Char) : List (List Char) := path.splitOn '/'

def join (segs : List (List Char)) : List Char := ['/'].intercalate segs

/-- A segment that is no component. -/
def skipped (seg : List Char) : Bool := decide (seg = []) || decide (seg = ['.'])

inductive Start where
  | rootDir | curDir | body
  deriving DecidableEq, Repr

/-- How the path begins, and its segments after that. -/
def start (path : List Char) : Start × List (List Char) :=
  if path.head? = some '/' then (.rootDir, (segments path).tail)
  else if (segments path).head? = some ['.'] then (.curDir, (segments path).tail)
  else (.body, segments path)

/-- The text of a path that begins so and goes on with these segments. -/
def Start.text (segs : List (List Char)) : Start → List Char
  | .rootDir => '/' :: join segs
  | .curDir => if segs.isEmpty then ['.'] else '.' :: '/' :: join segs
  | .body => join segs

def trimRight (segs : List (List Char)) : List (List Char) := segs.rdropWhile skipped

def trimLeft (segs : List (List Char)) : List (List Char) := segs.dropWhile skipped

/-- Take the components of `base` off the front of a path's segments. -/
def stripBody : List (List Char) → List (List Char) → Option (List (List Char))
  | segs, [] => some segs
  | [], _ :: _ => none
  | seg :: segs, comp :: comps =>
    if skipped seg then stripBody segs (comp :: comps)
    else if seg = comp then stripBody segs comps
    else none

/-- What is left of `path` after the components of `base`. Nothing is taken for an empty base, and
    then the front is not trimmed. -/
def stripPrefix (path base : List Char) : Option (List Char) :=
  if base.isEmpty then some ((start path).1.text (trimRight (start path).2))
  else if (start path).1 = (start base).1 then
    (stripBody (start path).2 ((start base).2.filter (fun seg => !skipped seg))).map
      (fun segs => join (trimRight (trimLeft segs)))
  else none

/-- The path without its last component; the root and the empty path have none. -/
def parent (path : List Char) : Option (List Char) :=
  match trimRight (start path).2 with
  | [] => if (start path).1 = .curDir then some [] else none
  | segs => some ((start path).1.text (trimRight segs.dropLast))

/-- The last component, if it is a name. -/
def fileName (path : List Char) : Option (List Char) :=
  match (trimRight (start path).2).getLast? with
  | none => none
  | some seg => if seg = ['.', '.'] then none else some seg

theorem segments_ne_nil (path : List Char) : segments path ≠ [] := List.splitOn_ne_nil _ _

theorem join_segments (path : List Char) : join (segments path) = path :=
  List.intercalate_splitOn '/'

theorem segments_join {segs : List (List Char)} (filled : segs ≠ [])
    (unsplit : ∀ seg ∈ segs, '/' ∉ seg) : segments (join segs) = segs :=
  List.splitOn_intercalate '/' unsplit filled

theorem segments_append (first second : List Char) :
    segments (first ++ '/' :: second) = segments first ++ segments second :=
  List.splitOn_append_cons_self first second

theorem not_mem_of_mem_splitOn {sep : Char} {text piece : List Char}
    (member : piece ∈ text.splitOn sep) : sep ∉ piece := by
  induction text generalizing piece with
  | nil =>
    rw [List.splitOn_nil, List.mem_singleton] at member
    simp [member]
  | cons c text ih =>
    rw [List.splitOn_cons_eq_if_modifyHead] at member
    split at member
    · rcases List.mem_cons.mp member with rfl | later
      · simp
      · exact ih later
    · rename_i other
      cases rest : text.splitOn sep with
      | nil => exact absurd rest (List.splitOn_ne_nil _ _)
      | cons first pieces =>
        rw [rest, List.modifyHead_cons] at member
        rcases List.mem_cons.mp member with rfl | later
        · have clean : sep ∉ first := ih (by simp [rest])
          have different : ¬ sep = c := fun same => other (by simp [same])
          simp [clean, different]
        · exact ih (by simp [rest, later])

theorem mem_of_mem_splitOn {sep c : Char} {text piece : List Char}
    (member : piece ∈ text.splitOn sep) (inside : c ∈ piece) : c ∈ text := by
  induction text generalizing piece with
  | nil =>
    rw [List.splitOn_nil, List.mem_singleton] at member
    simp [member] at inside
  | cons d text ih =>
    rw [List.splitOn_cons_eq_if_modifyHead] at member
    split at member
    · rcases List.mem_cons.mp member with rfl | later
      · cases inside
      · exact List.mem_cons_of_mem _ (ih later inside)
    · cases rest : text.splitOn sep with
      | nil => exact absurd rest (List.splitOn_ne_nil _ _)
      | cons first pieces =>
        rw [rest, List.modifyHead_cons] at member
        rcases List.mem_cons.mp member with rfl | later
        · rcases List.mem_cons.mp inside with rfl | deeper
          · simp
          · exact List.mem_cons_of_mem _ (ih (by simp [rest]) deeper)
        · exact List.mem_cons_of_mem _ (ih (by simp [rest, later]) inside)

theorem slash_not_mem_segment {path seg : List Char} (member : seg ∈ segments path) : '/' ∉ seg :=
  not_mem_of_mem_splitOn member

theorem mem_trimmed {segs : List (List Char)} {seg : List Char}
    (member : seg ∈ trimRight (trimLeft segs)) : seg ∈ segs :=
  (List.dropWhile_sublist _).subset ((List.rdropWhile_prefix _ _).subset member)

theorem fileName_mem {path name : List Char} (found : fileName path = some name) :
    name ∈ segments path := by
  unfold fileName at found
  split at found
  · cases found
  · rename_i seg last
    split at found
    · cases found
    · cases found
      have body := (List.rdropWhile_prefix _ _).subset (List.mem_of_getLast? last)
      unfold start at body
      repeat' split at body
      · exact List.mem_of_mem_tail body
      · exact List.mem_of_mem_tail body
      · exact body

theorem trimLeft_append_skipped {before after : List (List Char)}
    (all : ∀ seg ∈ before, skipped seg = true) : trimLeft (before ++ after) = trimLeft after := by
  induction before with
  | nil => rfl
  | cons seg rest ih =>
    have first := all seg (by simp)
    simp only [trimLeft, List.cons_append, List.dropWhile_cons, first, if_true]
    exact ih (fun other member => all other (by simp [member]))

/-- Taking its own components off a body leaves what follows, up to skipped segments. -/
theorem stripBody_append (body rest : List (List Char)) :
    ∃ left, stripBody (body ++ rest) (body.filter (fun seg => !skipped seg)) = some left ∧
      trimLeft left = trimLeft rest := by
  induction body with
  | nil => exact ⟨rest, by simp [stripBody], rfl⟩
  | cons seg body ih =>
    cases skip : skipped seg with
    | false =>
      obtain ⟨left, stripped, trimmed⟩ := ih
      refine ⟨left, ?_, trimmed⟩
      simp only [List.cons_append, List.filter_cons, skip, Bool.not_false, if_true, stripBody]
      simpa using stripped
    | true =>
      simp only [List.cons_append, List.filter_cons, skip, Bool.not_true]
      cases comps : body.filter (fun seg => !skipped seg) with
      | nil =>
        refine ⟨seg :: (body ++ rest), by simp [stripBody], ?_⟩
        have all : ∀ other ∈ seg :: body, skipped other = true := by
          intro other member
          rcases List.mem_cons.mp member with rfl | later
          · exact skip
          · simpa using List.filter_eq_nil_iff.mp comps other later
        exact trimLeft_append_skipped all
      | cons comp comps' =>
        obtain ⟨left, stripped, trimmed⟩ := ih
        refine ⟨left, ?_, trimmed⟩
        rw [comps] at stripped
        simpa [stripBody, skip] using stripped

theorem start_append {root : List Char} (filled : root ≠ []) (rest : List Char) :
    start (root ++ '/' :: rest) = ((start root).1, (start root).2 ++ segments rest) := by
  obtain ⟨first, more, segs⟩ := List.exists_cons_of_ne_nil (segments_ne_nil root)
  have head : (root ++ '/' :: rest).head? = root.head? := by
    cases root with
    | nil => exact absurd rfl filled
    | cons c root => rfl
  unfold start
  rw [head, segments_append, segs]
  simp only [List.cons_append, List.head?_cons, List.tail_cons]
  by_cases slash : root.head? = some '/'
  · simp [slash]
  · by_cases dot : first = ['.']
    · simp [slash, dot]
    · simp [slash, dot]

/-- The root comes off again, and the rest loses the skipped segments at its ends. -/
theorem stripPrefix_append {root : List Char} (filled : root ≠ []) (rest : List Char) :
    stripPrefix (root ++ '/' :: rest) root =
      some (join (trimRight (trimLeft (segments rest)))) := by
  obtain ⟨left, stripped, trimmed⟩ := stripBody_append (start root).2 (segments rest)
  have nonempty : root.isEmpty = false := by simpa using filled
  unfold stripPrefix
  rw [nonempty, start_append filled]
  simp [stripped, trimmed]

/-- A text whose first segment is a component starts in its body. -/
theorem start_join {segs : List (List Char)} (filled : segs ≠ [])
    (unsplit : ∀ seg ∈ segs, '/' ∉ seg) (front : ∀ seg, segs.head? = some seg → skipped seg = false) :
    start (join segs) = (.body, segs) := by
  obtain ⟨first, rest, rfl⟩ := List.exists_cons_of_ne_nil filled
  have comp : skipped first = false := front first rfl
  simp only [skipped, Bool.or_eq_false_iff, decide_eq_false_iff_not] at comp
  have root : (join (first :: rest)).head? ≠ some '/' := by
    obtain ⟨c, chars, rfl⟩ := List.exists_cons_of_ne_nil comp.1
    have clean : '/' ∉ c :: chars := unsplit _ (by simp)
    have different : ¬ c = '/' := fun same => clean (by simp [same])
    cases rest with
    | nil => simpa [join, List.intercalate] using different
    | cons second rest => simpa [join, List.intercalate] using different
  unfold start
  rw [if_neg root, segments_join (by simp) unsplit]
  simp [comp.2]

/-- The parent of a relative path with a last component: its other segments, trimmed. -/
theorem parent_join {before : List (List Char)} {last : List Char}
    (unsplit : ∀ seg ∈ before ++ [last], '/' ∉ seg)
    (front : ∀ seg, (before ++ [last]).head? = some seg → skipped seg = false)
    (comp : skipped last = false) : parent (join (before ++ [last])) = some (join (trimRight before)) := by
  unfold parent
  rw [start_join (by simp) unsplit front]
  have kept : trimRight (before ++ [last]) = before ++ [last] := by
    unfold trimRight
    rw [List.rdropWhile_concat_neg]
    simp [comp]
  simp only [kept]
  cases shape : before ++ [last] with
  | nil => simp at shape
  | cons seg segs =>
    dsimp only
    rw [← shape, List.dropLast_concat]
    rfl

theorem fileName_append {root : List Char} (filled : root ≠ []) {rest last : List Char}
    (ends : (segments rest).getLast? = some last) (comp : skipped last = false)
    (name : last ≠ ['.', '.']) : fileName (root ++ '/' :: rest) = some last := by
  obtain ⟨before, segs⟩ : ∃ before, segments rest = before ++ [last] := by
    obtain ⟨before, shape⟩ := List.getLast?_eq_some_iff.mp ends
    exact ⟨before, shape⟩
  unfold fileName
  rw [start_append filled, segs, ← List.append_assoc, trimRight, List.rdropWhile_concat_neg]
  · simp [name]
  · simp [comp]

theorem trimLeft_append {before : List (List Char)} {last : List Char}
    (comp : skipped last = false) : trimLeft (before ++ [last]) = trimLeft before ++ [last] := by
  induction before with
  | nil => simp [trimLeft, comp]
  | cons seg before ih =>
    unfold trimLeft at ih ⊢
    simp only [List.cons_append, List.dropWhile_cons]
    split
    · exact ih
    · rfl

theorem trimLeft_head {segs : List (List Char)} {seg : List Char}
    (first : (trimLeft segs).head? = some seg) : skipped seg = false := by
  have stopped := List.head?_dropWhile_not skipped segs
  unfold trimLeft at first
  rw [first] at stopped
  simpa using stopped

theorem trimRight_last {segs : List (List Char)} {seg : List Char}
    (last : (trimRight segs).getLast? = some seg) : skipped seg = false := by
  rw [trimRight, List.rdropWhile, List.getLast?_reverse] at last
  exact trimLeft_head last

/-- After trimming, both ends are components. -/
theorem trimmed_ends (segs : List (List Char)) :
    ∀ seg, (trimRight (trimLeft segs)).head? = some seg ∨
      (trimRight (trimLeft segs)).getLast? = some seg → skipped seg = false := by
  intro seg atEnd
  rcases atEnd with first | last
  · obtain ⟨after, shape⟩ := List.rdropWhile_prefix skipped (trimLeft segs)
    have front : (trimLeft segs).head? = some seg := by
      rw [← shape]
      unfold trimRight at first
      simp [first]
    exact trimLeft_head front
  · exact trimRight_last last

/-- Both ends of the text are components. -/
def KeepsEnds (path : List Char) : Prop :=
  ∀ seg, (segments path).head? = some seg ∨ (segments path).getLast? = some seg →
    skipped seg = false

theorem trim_eq_self_iff (segs : List (List Char)) :
    trimRight (trimLeft segs) = segs ↔
      ∀ seg, segs.head? = some seg ∨ segs.getLast? = some seg → skipped seg = false := by
  constructor
  · intro same
    have left : trimLeft segs = segs := by
      refine (List.dropWhile_suffix _).eq_of_length_le ?_
      have shorter := (List.rdropWhile_prefix skipped (trimLeft segs)).length_le
      have equal := congrArg List.length same
      unfold trimRight at equal
      unfold trimLeft at *
      omega
    rw [left] at same
    intro seg atEnd
    rcases atEnd with first | last
    · rw [← left] at first
      exact trimLeft_head first
    · rw [← same] at last
      exact trimRight_last last
  · intro ends
    have left : trimLeft segs = segs := by
      cases segs with
      | nil => rfl
      | cons seg segs => simp [trimLeft, ends seg (Or.inl rfl)]
    rw [left]
    cases segs using List.reverseRecOn with
    | nil => rfl
    | append_singleton before last =>
      unfold trimRight
      rw [List.rdropWhile_concat_neg]
      simp [ends last (Or.inr (by simp))]

/-- A path survives trimming exactly when both its ends are components. -/
theorem join_trim_eq_iff {path : List Char} (filled : path ≠ []) :
    join (trimRight (trimLeft (segments path))) = path ↔ KeepsEnds path := by
  unfold KeepsEnds
  rw [← trim_eq_self_iff]
  constructor
  · intro same
    have nonempty : trimRight (trimLeft (segments path)) ≠ [] := by
      intro empty
      rw [empty] at same
      exact filled same.symm
    have again := segments_join nonempty (fun seg member => slash_not_mem_segment (mem_trimmed member))
    rw [same] at again
    exact again.symm
  · intro same
    rw [same, join_segments]

/-- A joined text whose end segments are components neither starts nor ends with a slash. -/
theorem join_no_slash_at_ends {segs : List (List Char)} (filled : segs ≠ [])
    (unsplit : ∀ seg ∈ segs, '/' ∉ seg)
    (ends : ∀ seg, segs.head? = some seg ∨ segs.getLast? = some seg → skipped seg = false) :
    (join segs).head? ≠ some '/' ∧ (join segs).getLast? ≠ some '/' := by
  have back := segments_join filled unsplit
  constructor
  · intro slash
    obtain ⟨rest, shape⟩ := List.head?_eq_some_iff.mp slash
    have split := segments_append [] rest
    rw [List.nil_append, ← shape, back] at split
    have empty := ends [] (Or.inl (by rw [split]; rfl))
    cases empty
  · intro slash
    obtain ⟨before, shape⟩ := List.getLast?_eq_some_iff.mp slash
    have split := segments_append before []
    rw [← shape, back] at split
    have empty := ends [] (Or.inr (by rw [split]; simp [segments]))
    cases empty

end UnixPath
