import Mathlib.Data.List.DropRight
import WarpMotor.Lib.Path

/-!
The names of rescue files. A sink that goes to rescue writes to
`<root>/<group>/<name>-<time>-<seq>.dat.lock`; the suffix `.lock` goes when
the file is closed, and recovery reads group, sink name and time back from
the path. The separators are not escaped and names are free text, so a name
with a dash or a slash is cut, and a group loses what a path does not keep
at its ends. Times have the resolution of a second.
-/
namespace WarpMotor.Recovery

open UnixPath

inductive TimeField where
  | year | month | day | hour | minute | second
  deriving DecidableEq, Repr

/-- The calendar library: what a format specifier prints for a second since the epoch, and what
    parsing with `%Y-%m-%d %H:%M:%S` returns, as a timestamp. -/
structure Chrono where
  field : TimeField → Nat → List Char
  parseFromStr : List Char → Option Int

/-- `%Y-%m-%d`, the gap, `%H:%M:%S`. -/
def Chrono.format (chrono : Chrono) (gap : Char) (t : Nat) : List Char :=
  chrono.field .year t ++ '-' :: (chrono.field .month t ++ '-' :: (chrono.field .day t ++ gap ::
    (chrono.field .hour t ++ ':' :: (chrono.field .minute t ++ ':' :: chrono.field .second t))))

/-- What the library promises at `t`: numbers, with a plus sign for years of more than four
    digits, and a text that parses to the time it was printed from. -/
structure Chrono.Documented (chrono : Chrono) (t : Nat) : Prop where
  digits : ∀ field, ∀ c ∈ chrono.field field t, c.isDigit = true ∨ c = '+'
  parsed : chrono.parseFromStr (chrono.format ' ' t) = some (t : Int)

def fullName (groupName : Option (List Char)) (name : List Char) : List Char :=
  match groupName with
  | some group => if group.isEmpty then name else group ++ '/' :: name
  | none => name

/-- The path that `swap_backsink` builds. -/
def rescueFilePath (chrono : Chrono) (rescue fullName : List Char) (t seq : Nat) : List Char :=
  rescue ++ '/' :: (fullName ++ '-' :: (chrono.format '_' t ++ '-' ::
    (Nat.toDigits 10 seq ++ ".dat.lock".toList)))

def stripSuffix (suffix text : List Char) : Option (List Char) :=
  if suffix.isSuffixOf text then some (text.take (text.length - suffix.length)) else none

/-- The name after the rescue sink is dropped. -/
def unlocked (path : List Char) : List Char := (stripSuffix ".lock".toList path).getD path

def trimMatches (c : Char) (text : List Char) : List Char :=
  (text.dropWhile (fun d => d = c)).rdropWhile (fun d => d = c)

def getSinkName (path : List Char) : List Char :=
  match fileName path with
  | some file => (file.splitOn '-').headD []
  | none => []

/-- `canonicalRoot` is what the file system makes of the root, when it knows it. -/
def getSinkGroup (canonicalRoot : Option (List Char)) (path rescueRoot : List Char) : List Char :=
  let rel := ((stripPrefix path rescueRoot).or
    (canonicalRoot.bind (fun root => stripPrefix path root))).getD path
  match parent rel with
  | some dir => if dir.isEmpty then [] else trimMatches '/' dir
  | none => []

/-- `none` is a panic: fewer than four pieces, or a time that does not parse. -/
def sortKey (chrono : Chrono) (path : List Char) : Option Int :=
  let file := (stripSuffix ".dat".toList ((fileName path).getD [])).getD []
  match file.splitOn '-' with
  | _ :: year :: month :: rest :: _ =>
    chrono.parseFromStr (year ++ '-' :: (month ++ '-' ::
      rest.map (fun c => if c = '_' then ' ' else c)))
  | _ => none

/-- The stable sort of `tack_lasts_file`; keys are taken only when there is something to compare. -/
def sortFiles (chrono : Chrono) (files : List (List Char)) : Option (List (List Char)) :=
  if files.length < 2 then some files
  else if files.all (fun file => (sortKey chrono file).isSome) then
    some (files.mergeSort (fun a b =>
      decide ((sortKey chrono a).getD 0 ≤ (sortKey chrono b).getD 0)))
  else none

/-- The moment at which a rescue file is created and the number the global counter gives it. -/
structure Creation where
  nanos : Nat
  seq : Nat
  deriving DecidableEq, Repr

def Creation.second (c : Creation) : Nat := c.nanos / 1000000000

/-- The rescue file of a sink as recovery finds it. -/
def recoveredPath (chrono : Chrono) (root group name : List Char) (c : Creation) : List Char :=
  unlocked (rescueFilePath chrono root (fullName (some group) name) c.second c.seq)

structure ParsesBack (chrono : Chrono) (canonicalRoot : Option (List Char))
    (root group name : List Char) (c : Creation) : Prop where
  sameGroup : getSinkGroup canonicalRoot (recoveredPath chrono root group name c) root = group
  sameName : getSinkName (recoveredPath chrono root group name c) = name
  sameTime : sortKey chrono (recoveredPath chrono root group name c) = some (c.second : Int)

/-- Whatever order the directory lists the two files in, the older one is sorted first. -/
def SortsByAge (chrono : Chrono) (root group name : List Char) (older newer : Creation) : Prop :=
  sortFiles chrono [recoveredPath chrono root group name older,
      recoveredPath chrono root group name newer] =
    some [recoveredPath chrono root group name older, recoveredPath chrono root group name newer] ∧
  sortFiles chrono [recoveredPath chrono root group name newer,
      recoveredPath chrono root group name older] =
    some [recoveredPath chrono root group name older, recoveredPath chrono root group name newer]

section Texts

theorem stripSuffix_append (suffix text : List Char) :
    stripSuffix suffix (text ++ suffix) = some text := by
  unfold stripSuffix
  rw [if_pos]
  · simp
  · rw [List.isSuffixOf_iff_suffix]
    exact List.suffix_append text suffix

theorem trimMatches_self {c : Char} {text : List Char} (front : text.head? ≠ some c)
    (back : text.getLast? ≠ some c) : trimMatches c text = text := by
  have left : text.dropWhile (fun d => d = c) = text := by
    cases text with
    | nil => rfl
    | cons d text =>
      have different : ¬ d = c := fun same => front (by simp [same])
      simp [different]
  unfold trimMatches
  rw [left]
  cases text using List.reverseRecOn with
  | nil => rfl
  | append_singleton before d =>
    have different : ¬ d = c := fun same => back (by simp [same])
    rw [List.rdropWhile_concat_neg]
    simp [different]

/-- A sink name read from a path has neither separator in it. -/
theorem getSinkName_clean (path : List Char) :
    '-' ∉ getSinkName path ∧ '/' ∉ getSinkName path := by
  unfold getSinkName
  split
  · rename_i file found
    obtain ⟨first, rest, pieces⟩ := List.exists_cons_of_ne_nil (List.splitOn_ne_nil '-' file)
    have member : first ∈ file.splitOn '-' := by simp [pieces]
    rw [pieces, List.headD_cons]
    constructor
    · exact not_mem_of_mem_splitOn member
    · intro slash
      exact slash_not_mem_segment (fileName_mem found) (mem_of_mem_splitOn member slash)
  · simp

theorem mergeSort_pair {α : Type} (le : α → α → Bool) (a b : α) :
    [a, b].mergeSort le = if le a b then [a, b] else [b, a] := by
  simp [List.mergeSort, List.MergeSort.Internal.splitInTwo, List.merge]

end Texts

section Paths
variable {chrono : Chrono} {root group name : List Char} {c : Creation}

/-- The file name after `<name>-`, without its suffix. -/
def stamp (chrono : Chrono) (c : Creation) : List Char :=
  chrono.format '_' c.second ++ '-' :: Nat.toDigits 10 c.seq

theorem recoveredPath_eq (chrono : Chrono) (root : List Char) (named : group ≠ [])
    (name : List Char) (c : Creation) :
    recoveredPath chrono root group name c =
      root ++ '/' :: (group ++ '/' :: (name ++ '-' :: (stamp chrono c ++ ".dat".toList))) := by
  have full : fullName (some group) name = group ++ '/' :: name := by simp [fullName, named]
  have locked : rescueFilePath chrono root (fullName (some group) name) c.second c.seq =
      (root ++ '/' :: (group ++ '/' :: (name ++ '-' :: (stamp chrono c ++ ".dat".toList)))) ++
        ".lock".toList := by
    rw [full]
    simp [rescueFilePath, stamp]
  rw [recoveredPath, unlocked, locked, stripSuffix_append]
  rfl

theorem digit_ne {c d : Char} (digit : c.isDigit = true ∨ c = '+') (other : d.isDigit = false)
    (plus : d ≠ '+') : c ≠ d := by
  intro same
  subst same
  rcases digit with number | sign
  · rw [number] at other
    cases other
  · exact plus sign

theorem not_mem_field (documented : chrono.Documented c.second) (field : TimeField) {d : Char}
    (other : d.isDigit = false) (plus : d ≠ '+') : d ∉ chrono.field field c.second := by
  intro member
  exact digit_ne (documented.digits field d member) other plus rfl

theorem not_mem_seq (seq : Nat) {d : Char} (other : d.isDigit = false) :
    d ∉ Nat.toDigits 10 seq := by
  intro member
  have digit := Nat.isDigit_of_mem_toDigits (by omega) (by omega) member
  rw [digit] at other
  cases other

theorem slash_not_mem_stamp (documented : chrono.Documented c.second) : '/' ∉ stamp chrono c := by
  have fields := fun field => not_mem_field documented field (d := '/') (by decide) (by decide)
  have digits := not_mem_seq c.seq (d := '/') (by decide)
  simp [stamp, Chrono.format, fields, digits]

theorem fileText_comp (name : List Char) (rest : List Char) :
    skipped (name ++ '-' :: rest) = false ∧ name ++ '-' :: rest ≠ ['.', '.'] := by
  have dash : '-' ∈ name ++ '-' :: rest := by simp
  constructor
  · simp only [skipped, Bool.or_eq_false_iff, decide_eq_false_iff_not]
    constructor
    · intro empty
      rw [empty] at dash
      cases dash
    · intro dot
      rw [dot] at dash
      simp at dash
  · intro dots
    rw [dots] at dash
    simp at dash

/-- Without a slash in the name the last segment of the path is the file's whole name. -/
theorem fileText_segments (documented : chrono.Documented c.second) (unsplit : '/' ∉ name) :
    segments (name ++ '-' :: (stamp chrono c ++ ".dat".toList)) =
      [name ++ '-' :: (stamp chrono c ++ ".dat".toList)] := by
  refine List.splitOn_eq_singleton ?_
  have clean := slash_not_mem_stamp documented
  simp [unsplit, clean]

theorem recoveredPath_fileName (rooted : root ≠ []) (named : group ≠ [])
    (documented : chrono.Documented c.second) (unsplit : '/' ∉ name) :
    fileName (recoveredPath chrono root group name c) =
      some (name ++ '-' :: (stamp chrono c ++ ".dat".toList)) := by
  obtain ⟨comp, up⟩ := fileText_comp name (stamp chrono c ++ ".dat".toList)
  rw [recoveredPath_eq chrono root named]
  refine fileName_append rooted ?_ comp up
  rw [segments_append, fileText_segments documented unsplit]
  simp

/-- The group comes back without the segments that a path does not keep at its ends. -/
theorem recoveredPath_group (canonicalRoot : Option (List Char)) (rooted : root ≠ [])
    (named : group ≠ []) (documented : chrono.Documented c.second) (unsplit : '/' ∉ name) :
    getSinkGroup canonicalRoot (recoveredPath chrono root group name c) root =
      join (trimRight (trimLeft (segments group))) := by
  obtain ⟨comp, -⟩ := fileText_comp name (stamp chrono c ++ ".dat".toList)
  have segs := fileText_segments documented unsplit
  rw [recoveredPath_eq chrono root named]
  generalize name ++ '-' :: (stamp chrono c ++ ".dat".toList) = file at comp segs
  have whole : file ∈ segments file := by simp [segs]
  have slashless := slash_not_mem_segment whole
  have rel : stripPrefix (root ++ '/' :: (group ++ '/' :: file)) root =
      some (join (trimLeft (segments group) ++ [file])) := by
    rw [stripPrefix_append rooted, segments_append, segs, trimLeft_append comp]
    unfold trimRight
    rw [List.rdropWhile_concat_neg]
    simp [comp]
  have unsplitGroup : ∀ seg ∈ trimLeft (segments group), '/' ∉ seg := by
    intro seg member
    exact slash_not_mem_segment ((List.dropWhile_sublist _).subset member)
  have dir : parent (join (trimLeft (segments group) ++ [file])) =
      some (join (trimRight (trimLeft (segments group)))) := by
    refine parent_join ?_ ?_ comp
    · intro seg member
      rcases List.mem_append.mp member with inside | last
      · exact unsplitGroup seg inside
      · rw [List.mem_singleton] at last
        rw [last]
        exact slashless
    · intro seg first
      cases shape : trimLeft (segments group) with
      | nil =>
        rw [shape] at first
        cases first
        exact comp
      | cons head rest =>
        rw [shape] at first
        cases first
        exact trimLeft_head (by rw [shape]; rfl)
  simp only [getSinkGroup, rel, Option.some_or, Option.getD_some, dir]
  split
  · rename_i empty
    rw [List.isEmpty_iff] at empty
    exact empty.symm
  · rename_i filled
    have nonempty : trimRight (trimLeft (segments group)) ≠ [] := by
      intro empty
      rw [empty] at filled
      exact filled rfl
    obtain ⟨front, back⟩ := join_no_slash_at_ends nonempty
      (fun seg member => slash_not_mem_segment (mem_trimmed member)) (trimmed_ends _)
    exact trimMatches_self front back

theorem recoveredPath_name (rooted : root ≠ []) (named : group ≠ [])
    (documented : chrono.Documented c.second) (undashed : '-' ∉ name) (unsplit : '/' ∉ name) :
    getSinkName (recoveredPath chrono root group name c) = name := by
  unfold getSinkName
  rw [recoveredPath_fileName rooted named documented unsplit]
  dsimp only
  rw [List.splitOn_append_cons_self_of_not_mem undashed]
  rfl

/-- The dashes of the file name separate the sink, the date, the day with the hours, the number. -/
theorem fileText_pieces (documented : chrono.Documented c.second) (undashed : '-' ∉ name) :
    (name ++ '-' :: stamp chrono c).splitOn '-' =
      [name, chrono.field .year c.second, chrono.field .month c.second,
        chrono.field .day c.second ++ '_' :: (chrono.field .hour c.second ++ ':' ::
          (chrono.field .minute c.second ++ ':' :: chrono.field .second c.second)),
        Nat.toDigits 10 c.seq] := by
  have fields := fun field => not_mem_field documented field (d := '-') (by decide) (by decide)
  have digits := not_mem_seq c.seq (d := '-') (by decide)
  have daytime : '-' ∉ chrono.field .day c.second ++ '_' :: (chrono.field .hour c.second ++ ':' ::
      (chrono.field .minute c.second ++ ':' :: chrono.field .second c.second)) := by
    simp [fields]
  rw [List.splitOn_append_cons_self_of_not_mem undashed]
  have shape : stamp chrono c = chrono.field .year c.second ++ '-' ::
      (chrono.field .month c.second ++ '-' :: ((chrono.field .day c.second ++ '_' ::
        (chrono.field .hour c.second ++ ':' :: (chrono.field .minute c.second ++ ':' ::
          chrono.field .second c.second))) ++ '-' :: Nat.toDigits 10 c.seq)) := by
    simp [stamp, Chrono.format]
  rw [shape, List.splitOn_append_cons_self_of_not_mem (fields .year),
    List.splitOn_append_cons_self_of_not_mem (fields .month),
    List.splitOn_append_cons_self_of_not_mem daytime, List.splitOn_eq_singleton digits]

theorem unscored (documented : chrono.Documented c.second) (field : TimeField) :
    (chrono.field field c.second).map (fun d => if d = '_' then ' ' else d) =
      chrono.field field c.second := by
  have clean := not_mem_field documented field (d := '_') (by decide) (by decide)
  have same : ∀ d ∈ chrono.field field c.second, (if d = '_' then ' ' else d) = id d := by
    intro d member
    have different : d ≠ '_' := fun score => clean (by rw [← score]; exact member)
    simp [different]
  rw [List.map_congr_left same, List.map_id]

theorem recoveredPath_sortKey (rooted : root ≠ []) (named : group ≠ [])
    (documented : chrono.Documented c.second) (undashed : '-' ∉ name) (unsplit : '/' ∉ name) :
    sortKey chrono (recoveredPath chrono root group name c) = some (c.second : Int) := by
  have stripped : stripSuffix ".dat".toList (name ++ '-' :: (stamp chrono c ++ ".dat".toList)) =
      some (name ++ '-' :: stamp chrono c) := by
    have shape : name ++ '-' :: (stamp chrono c ++ ".dat".toList) =
        (name ++ '-' :: stamp chrono c) ++ ".dat".toList := by simp
    rw [shape, stripSuffix_append]
  unfold sortKey
  rw [recoveredPath_fileName rooted named documented unsplit, Option.getD_some, stripped,
    Option.getD_some]
  dsimp only
  rw [fileText_pieces documented undashed]
  dsimp only
  have spaced : chrono.field .year c.second ++ '-' :: (chrono.field .month c.second ++ '-' ::
      (chrono.field .day c.second ++ '_' :: (chrono.field .hour c.second ++ ':' ::
        (chrono.field .minute c.second ++ ':' :: chrono.field .second c.second))).map
          (fun d => if d = '_' then ' ' else d)) = chrono.format ' ' c.second := by
    simp [unscored documented, Chrono.format]
  rw [spaced]
  exact documented.parsed

end Paths

section Order
variable {chrono : Chrono} {root group name : List Char} {older newer : Creation}

theorem recoveredPath_injective (named : group ≠ []) (same : older.second = newer.second)
    (paths : recoveredPath chrono root group name older =
      recoveredPath chrono root group name newer) : older.seq = newer.seq := by
  rw [recoveredPath_eq chrono root named, recoveredPath_eq chrono root named] at paths
  simp only [stamp, same, List.append_cancel_left_eq, List.cons.injEq, true_and,
    List.append_assoc, List.cons_append, List.append_cancel_right_eq] at paths
  rw [← Nat.ofDigitChars_ten_toDigits (n := older.seq), paths, Nat.ofDigitChars_ten_toDigits]

theorem sortFiles_pair {first second : List Char} {a b : Int}
    (keyFirst : sortKey chrono first = some a) (keySecond : sortKey chrono second = some b) :
    sortFiles chrono [first, second] = some (if a ≤ b then [first, second] else [second, first]) := by
  simp [sortFiles, keyFirst, keySecond, mergeSort_pair]

/-- Files with readable keys are sorted by age exactly when their seconds differ. -/
theorem sortsByAge_iff (named : group ≠ []) (earlier : older.nanos < newer.nanos)
    (numbered : older.seq ≠ newer.seq)
    (keyOlder : sortKey chrono (recoveredPath chrono root group name older) =
      some (older.second : Int))
    (keyNewer : sortKey chrono (recoveredPath chrono root group name newer) =
      some (newer.second : Int)) :
    SortsByAge chrono root group name older newer ↔ older.second ≠ newer.second := by
  have monotone : older.second ≤ newer.second := Nat.div_le_div_right (by omega)
  unfold SortsByAge
  rw [sortFiles_pair keyOlder keyNewer, sortFiles_pair keyNewer keyOlder]
  constructor
  · rintro ⟨-, swapped⟩ same
    rw [same] at swapped
    simp only [Int.le_refl, if_true, Option.some.injEq, List.cons.injEq] at swapped
    exact numbered (recoveredPath_injective named same swapped.1.symm)
  · intro differ
    constructor
    · rw [if_pos (by omega)]
    · rw [if_neg (by omega)]

end Order

/-- Two rescue files of one sink are read back to what they were written for, and sorted in the
    order of their creation, exactly when the sink name has neither separator in it, both ends of
    the group are components of a path, and the files are not of the same second. -/
theorem rescue_names_round_trip_iff (chrono : Chrono) (canonicalRoot : Option (List Char))
    (root group name : List Char) (older newer : Creation) (rooted : root ≠ [])
    (named : group ≠ []) (earlier : older.nanos < newer.nanos) (numbered : older.seq ≠ newer.seq)
    (documentedOlder : chrono.Documented older.second)
    (documentedNewer : chrono.Documented newer.second) :
    (ParsesBack chrono canonicalRoot root group name older ∧
      ParsesBack chrono canonicalRoot root group name newer ∧
      SortsByAge chrono root group name older newer) ↔
    '-' ∉ name ∧ '/' ∉ name ∧ KeepsEnds group ∧ older.second ≠ newer.second := by
  constructor
  · rintro ⟨back, backNewer, sorted⟩
    obtain ⟨undashed, unsplit⟩ := getSinkName_clean (recoveredPath chrono root group name older)
    rw [back.sameName] at undashed unsplit
    have trimmed := recoveredPath_group canonicalRoot rooted named documentedOlder unsplit
    rw [back.sameGroup] at trimmed
    refine ⟨undashed, unsplit, (join_trim_eq_iff named).mp trimmed.symm, ?_⟩
    exact (sortsByAge_iff named earlier numbered back.sameTime backNewer.sameTime).mp sorted
  · rintro ⟨undashed, unsplit, ends, differ⟩
    have parses : ∀ c : Creation, chrono.Documented c.second →
        ParsesBack chrono canonicalRoot root group name c := by
      intro c documented
      constructor
      · rw [recoveredPath_group canonicalRoot rooted named documented unsplit]
        exact (join_trim_eq_iff named).mpr ends
      · exact recoveredPath_name rooted named documented undashed unsplit
      · exact recoveredPath_sortKey rooted named documented undashed unsplit
    have back := parses older documentedOlder
    have backNewer := parses newer documentedNewer
    exact ⟨back, backNewer,
      (sortsByAge_iff named earlier numbered back.sameTime backNewer.sameTime).mpr differ⟩

section OneSecondApart

/-- The calendar at 2026-10-26 14:41:46 and one second later. -/
def autumnChrono : Chrono where
  field
    | .year, _ => "2026".toList
    | .month, _ => "10".toList
    | .day, _ => "26".toList
    | .hour, _ => "14".toList
    | .minute, _ => "41".toList
    | .second, t => if t = 1793025706 then "46".toList else "47".toList
  parseFromStr text :=
    if text = "2026-10-26 14:41:46".toList then some 1793025706
    else if text = "2026-10-26 14:41:47".toList then some 1793025707
    else none

def firstFile : Creation := ⟨1793025706000000005, 0⟩

def secondFile : Creation := ⟨1793025707000000000, 1⟩

theorem autumn_documented : autumnChrono.Documented firstFile.second ∧
    autumnChrono.Documented secondFile.second := by
  have numbers : ∀ field t, (autumnChrono.field field t).all Char.isDigit = true := by
    intro field t
    cases field with
    | second =>
      dsimp only [autumnChrono]
      split <;> decide
    | _ => rfl
  have digits : ∀ t field, ∀ d ∈ autumnChrono.field field t, d.isDigit = true ∨ d = '+' := by
    intro t field d member
    exact Or.inl (List.all_eq_true.mp (numbers field t) d member)
  exact ⟨⟨digits _, by decide +kernel⟩, ⟨digits _, by decide +kernel⟩⟩

theorem auto_named_sink_round_trips :
    ParsesBack autumnChrono none "./data/rescue".toList "sink/benchmark".toList "[0]".toList
        firstFile ∧
      ParsesBack autumnChrono none "./data/rescue".toList "sink/benchmark".toList "[0]".toList
        secondFile ∧
      SortsByAge autumnChrono "./data/rescue".toList "sink/benchmark".toList "[0]".toList firstFile
        secondFile := by
  refine (rescue_names_round_trip_iff autumnChrono none _ _ _ firstFile secondFile (by decide)
    (by decide) (by decide) (by decide) autumn_documented.1 autumn_documented.2).mpr ?_
  refine ⟨by decide, by decide, ?_, by decide⟩
  intro seg atEnd
  rcases atEnd with first | last
  · cases first
    decide
  · cases last
    decide

/-- A dash in the sink's name: the name is cut at it, and sorting the file panics. -/
theorem dashed_name_is_cut :
    getSinkName (recoveredPath autumnChrono "./data/rescue".toList "sink/web".toList
        "access-log".toList firstFile) = "access".toList ∧
      sortKey autumnChrono (recoveredPath autumnChrono "./data/rescue".toList "sink/web".toList
        "access-log".toList firstFile) = none ∧
      ∀ canonicalRoot, ¬ ParsesBack autumnChrono canonicalRoot "./data/rescue".toList
        "sink/web".toList "access-log".toList firstFile := by
  have cut : getSinkName (recoveredPath autumnChrono "./data/rescue".toList "sink/web".toList
      "access-log".toList firstFile) = "access".toList := by decide +kernel
  refine ⟨cut, by decide +kernel, ?_⟩
  intro canonicalRoot back
  have same := back.sameName
  rw [cut] at same
  exact absurd same (by decide)

end OneSecondApart

end WarpMotor.Recovery
