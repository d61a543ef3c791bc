import WarpMotor.Oml.ZeroCopy

/-!
What `take` removes. The source looks through both records before it decides
which of the two fields it returns, and it looks through them in two ways: an
empty field of the target record is passed over, one of the source record ends
the search.
-/
namespace WarpMotor.Oml

variable {PipeFun : Type} (env : Externals PipeFun)

/-- A field of one of the two records. -/
inductive Place where
  | dst (index : Nat)
  | src (index : Nat)
  deriving DecidableEq, Repr

namespace State

def fieldAt (state : State) : Place → Option DataField
  | .dst index => state.dst[index]?.map env.own
  | .src index => state.src[index]?

def without (state : State) : Place → State
  | .dst index => ⟨state.src, state.dst.eraseIdx index⟩
  | .src index => ⟨state.src.eraseIdx index, state.dst⟩

def Names (state : State) (name : String) : Prop :=
  (∃ item ∈ state.dst, item.getName = name) ∨ ∃ field ∈ state.src, field.name = name

end State

section

variable (name : String) (option : Bool)

/-- The field of the target record has the name and may be taken. -/
def usableDst (item : FieldStorage) : Bool :=
  item.getName == name && !(option && env.isEmpty item.asField.value)

def usableSrc (field : DataField) : Bool :=
  field.name == name && !(option && env.isEmpty field.value)

theorem usableDst_iff (item : FieldStorage) : usableDst env name option item = true ↔
    item.getName = name ∧ ¬ (option && env.isEmpty item.asField.value) := by
  cases option <;> simp [usableDst]

theorem usableSrc_iff (field : DataField) : usableSrc env name option field = true ↔
    field.name = name ∧ ¬ (option && env.isEmpty field.value) := by
  cases option <;> simp [usableSrc]

/-- What the source looks at in the source record: the first field of the name and no other. -/
def firstUsableSrc (src : List DataField) : Bool :=
  (src.find? (fun field => field.name == name)).any (usableSrc env name option)

end

namespace State

/-- The first field of that name that is not empty, those of the target record before
the others. -/
def firstNonEmpty (state : State) (name : String) : Option Place :=
  ((state.dst.findIdx? (usableDst env name true)).map .dst).or
    ((state.src.findIdx? (usableSrc env name true)).map .src)

def firstOption (state : State) (options : List String) : Option Place :=
  options.findSome? (state.firstNonEmpty env)

end State

/-- One field is gone, the one returned; without the direct name it is the first one that is
not empty of the first option that has one. -/
structure TakesItsField (key : String) (options : List String) (state : State)
    (result : Option DataField) (after : State) : Prop where
  removed : ∀ found, result = some found → ∃ place, state.fieldAt env place = some found ∧
    after = state.without place ∧
      (¬ state.Names key → state.firstOption env options = some place)
  kept : result = none → after = state
  exhausted : ¬ state.Names key → result = none → state.firstOption env options = none

theorem findMoveTdc_miss {key : String} {option : Bool} {dst : List FieldStorage}
    (miss : dst.findIdx? (usableDst env key option) = none) :
    findMoveTdc env key option dst = (none, dst) := by
  induction dst with
  | nil => rfl
  | cons item rest ih =>
    simp only [List.findIdx?_cons] at miss
    split at miss
    · contradiction
    · next unusable =>
      have later := ih (by simpa using miss)
      have passed := mt (usableDst_iff env key option item).mpr unusable
      simp only [findMoveTdc, if_neg passed, later]

theorem findMoveTdc_hit {key : String} {option : Bool} {dst : List FieldStorage} {index : Nat}
    (hit : dst.findIdx? (usableDst env key option) = some index) :
    findMoveTdc env key option dst = (dst[index]?.map env.own, dst.eraseIdx index) := by
  induction dst generalizing index with
  | nil => simp at hit
  | cons item rest ih =>
    simp only [List.findIdx?_cons] at hit
    split at hit
    · next usable =>
      have first := (usableDst_iff env key option item).mp usable
      obtain rfl := Option.some.inj hit
      simp only [findMoveTdc, if_pos first]
      rfl
    · next unusable =>
      obtain ⟨place, later, rfl⟩ := Option.map_eq_some_iff.mp hit
      have passed := mt (usableDst_iff env key option item).mpr unusable
      simp only [findMoveTdc, if_neg passed, ih later]
      rfl

theorem findMoveTdo_miss {key : String} {option : Bool} {src : List DataField}
    (miss : firstUsableSrc env key option src = false) :
    findMoveTdo env key option src = (none, src) := by
  induction src with
  | nil => rfl
  | cons field rest ih =>
    by_cases named : field.name = key
    · have empty : (option && env.isEmpty field.value) = true := by
        simpa [firstUsableSrc, usableSrc, named] using miss
      simp [findMoveTdo, named, empty]
    · have later := ih (by simpa [firstUsableSrc, named] using miss)
      simp [findMoveTdo, named, later]

theorem findMoveTdo_hit {key : String} {option : Bool} {src : List DataField}
    (hit : firstUsableSrc env key option src = true) : ∃ index,
    src.findIdx? (usableSrc env key option) = some index ∧ index < src.length ∧
      findMoveTdo env key option src = (src[index]?, src.eraseIdx index) := by
  induction src with
  | nil => simp [firstUsableSrc] at hit
  | cons field rest ih =>
    by_cases named : field.name = key
    · have usable : usableSrc env key option field = true := by
        simpa [firstUsableSrc, named] using hit
      have full := ((usableSrc_iff env key option field).mp usable).2
      exact ⟨0, by simp [List.findIdx?_cons, usable], by simp, by simp [findMoveTdo, named, full]⟩
    · have unusable : usableSrc env key option field = false := by simp [usableSrc, named]
      obtain ⟨index, found, inside, moved⟩ := ih (by simpa [firstUsableSrc, named] using hit)
      refine ⟨index + 1, by simp [List.findIdx?_cons, unusable, found], by simpa using inside, ?_⟩
      simp [findMoveTdo, named, moved]

namespace FieldTake

/-- What looking for one name does: both records may lose a field of the name. -/
inductive Moved (key : String) (option : Bool) (state : State) :
    Option DataField → State → Prop where
  | nothing (noDst : state.dst.findIdx? (usableDst env key option) = none)
      (noSrc : firstUsableSrc env key option state.src = false) :
      Moved key option state none state
  | fromDst {index : Nat} (first : state.dst.findIdx? (usableDst env key option) = some index)
      (noSrc : firstUsableSrc env key option state.src = false) :
      Moved key option state (state.fieldAt env (.dst index)) (state.without (.dst index))
  | fromSrc {index : Nat} (noDst : state.dst.findIdx? (usableDst env key option) = none)
      (usable : firstUsableSrc env key option state.src = true)
      (first : state.src.findIdx? (usableSrc env key option) = some index) :
      Moved key option state (state.fieldAt env (.src index)) (state.without (.src index))
  | both {index lost : Nat}
      (first : state.dst.findIdx? (usableDst env key option) = some index)
      (usable : firstUsableSrc env key option state.src = true)
      (second : state.src.findIdx? (usableSrc env key option) = some lost) :
      Moved key option state (state.fieldAt env (.dst index))
        ((state.without (.dst index)).without (.src lost))

theorem fieldAt_isSome_dst {state : State} {p : FieldStorage → Bool} {index : Nat}
    (first : state.dst.findIdx? p = some index) : ∃ item, state.dst[index]? = some item ∧
      p item = true := by
  obtain ⟨inside, holds, _⟩ := List.findIdx?_eq_some_iff_getElem.mp first
  exact ⟨_, List.getElem?_eq_getElem inside, holds⟩

theorem moveKey_moved (key : String) (option : Bool) (state : State) : ∃ result after,
    moveKey env key option state = some (result, after) ∧
      Moved env key option state result after := by
  unfold moveKey
  cases dst : state.dst.findIdx? (usableDst env key option) with
  | none =>
    rw [findMoveTdc_miss env dst]
    cases src : firstUsableSrc env key option state.src with
    | false =>
      rw [findMoveTdo_miss env src]
      exact ⟨none, state, rfl, .nothing dst src⟩
    | true =>
      obtain ⟨index, first, _, moved⟩ := findMoveTdo_hit env src
      rw [moved]
      exact ⟨_, _, rfl, .fromSrc dst src first⟩
  | some index =>
    obtain ⟨item, found, _⟩ := fieldAt_isSome_dst dst
    rw [findMoveTdc_hit env dst, found]
    cases src : firstUsableSrc env key option state.src with
    | false =>
      rw [findMoveTdo_miss env src]
      refine ⟨state.fieldAt env (.dst index), _, ?_, .fromDst dst src⟩
      simp [State.fieldAt, State.without, found]
    | true =>
      obtain ⟨lost, first, _, moved⟩ := findMoveTdo_hit env src
      rw [moved]
      refine ⟨state.fieldAt env (.dst index), _, ?_, .both dst src first⟩
      simp [State.fieldAt, State.without, found]

/-- The search for the name comes back without a field. -/
def Quiet (state : State) (key : String) (option : Bool) : Prop :=
  state.dst.findIdx? (usableDst env key option) = none ∧
    firstUsableSrc env key option state.src = false

theorem Moved.quiet_of_none {key : String} {option : Bool} {state after : State}
    (moved : Moved env key option state none after) :
    after = state ∧ Quiet env state key option := by
  generalize result : (none : Option DataField) = found at moved
  cases moved with
  | nothing noDst noSrc => exact ⟨rfl, noDst, noSrc⟩
  | fromDst first _ =>
    obtain ⟨item, held, _⟩ := fieldAt_isSome_dst first
    simp [State.fieldAt, held] at result
  | fromSrc _ _ first =>
    have inside := (List.findIdx?_eq_some_iff_getElem.mp first).1
    simp [State.fieldAt, inside] at result
  | both first _ _ =>
    obtain ⟨item, held, _⟩ := fieldAt_isSome_dst first
    simp [State.fieldAt, held] at result

theorem Moved.none_of_quiet {key : String} {option : Bool} {state after : State}
    {result : Option DataField} (quiet : Quiet env state key option)
    (moved : Moved env key option state result after) : result = none ∧ after = state := by
  obtain ⟨noDst, noSrc⟩ := quiet
  cases moved with
  | nothing _ _ => exact ⟨rfl, rfl⟩
  | fromDst first _ => simp [noDst] at first
  | fromSrc _ usable _ => simp [noSrc] at usable
  | both first _ _ => simp [noDst] at first

theorem moveKey_quiet {key : String} {option : Bool} {state : State}
    (quiet : Quiet env state key option) :
    moveKey env key option state = some (none, state) := by
  obtain ⟨result, after, run, moved⟩ := moveKey_moved env key option state
  obtain ⟨rfl, rfl⟩ := moved.none_of_quiet env quiet
  exact run

theorem moveOptions_skip (before rest : List String) {state : State}
    (quiet : ∀ option ∈ before, Quiet env state option true) :
    moveOptions env (before ++ rest) state = moveOptions env rest state := by
  induction before with
  | nil => rfl
  | cons option before ih =>
    have silent := moveKey_quiet env (quiet option List.mem_cons_self)
    have later := ih (fun other member => quiet other (List.mem_cons_of_mem option member))
    simp [moveOptions, silent, later]

theorem moveOptions_found {option : String} {rest : List String} {state after : State}
    {found : DataField} (run : moveKey env option true state = some (some found, after)) :
    moveOptions env (option :: rest) state = some (some found, after) := by
  simp [moveOptions, run]

/-- The options end with the first one whose search finds a field. -/
theorem moveOptions_run (options : List String) (state : State) :
    moveOptions env options state = some (none, state) ∨
      ∃ option ∈ options, ∃ found after, ¬ Quiet env state option true ∧
        Moved env option true state (some found) after ∧
          moveOptions env options state = some (some found, after) := by
  induction options with
  | nil => exact .inl rfl
  | cons option rest ih =>
    obtain ⟨result, after, run, moved⟩ := moveKey_moved env option true state
    cases result with
    | some found =>
      have loud : ¬ Quiet env state option true := by
        intro quiet
        have silent := (moved.none_of_quiet env quiet).1
        contradiction
      exact .inr ⟨option, List.mem_cons_self, found, after, loud, moved,
        moveOptions_found env run⟩
    | none =>
      have quiet := (moved.quiet_of_none env).2
      have skipped : moveOptions env (option :: rest) state = moveOptions env rest state :=
        moveOptions_skip env [option] rest (by simpa using quiet)
      rw [skipped]
      rcases ih with nothing | ⟨other, member, found, later, rest_of⟩
      · exact .inl nothing
      · exact .inr ⟨other, List.mem_cons_of_mem option member, found, later, rest_of⟩

end FieldTake

namespace State

def size (state : State) : Nat := state.dst.length + state.src.length

theorem size_without (state : State) (place : Place) :
    state.size ≤ (state.without place).size + 1 := by
  cases place with
  | dst index =>
    have shorter := List.length_eraseIdx (l := state.dst) (i := index)
    simp only [size, without]
    split at shorter <;> omega
  | src index =>
    have shorter := List.length_eraseIdx (l := state.src) (i := index)
    simp only [size, without]
    split at shorter <;> omega

theorem size_without_both {state : State} {index lost : Nat} (inside : index < state.dst.length)
    (held : lost < state.src.length) :
    ((state.without (.dst index)).without (.src lost)).size + 2 = state.size := by
  simp only [size, without, List.length_eraseIdx_of_lt inside, List.length_eraseIdx_of_lt held]
  omega

/-- One of the two searches for the name finds a field, and not both. -/
def foundOnce (state : State) (name : String) (option : Bool) : Bool :=
  state.dst.any (usableDst env name option) != firstUsableSrc env name option state.src

theorem dst_any_iff {state : State} {p : FieldStorage → Bool} :
    state.dst.any p = (state.dst.findIdx? p).isSome := by
  rw [← List.findIdx?_isSome]

/-- A field of the direct name is in one of the records. -/
theorem names_iff (state : State) (key : String) :
    state.Names key ↔ ¬ FieldTake.Quiet env state key false := by
  have in_dst : (∃ item ∈ state.dst, item.getName = key) ↔
      state.dst.findIdx? (usableDst env key false) ≠ none := by
    simp [usableDst]
  have in_src : (∃ field ∈ state.src, field.name = key) ↔
      firstUsableSrc env key false state.src ≠ false := by
    rw [ne_eq, Bool.not_eq_false, firstUsableSrc, Option.any_eq_true]
    constructor
    · rintro ⟨field, member, named⟩
      have some_named : (state.src.find? (fun field => field.name == key)).isSome = true := by
        rw [List.find?_isSome]
        exact ⟨field, member, by simpa using named⟩
      obtain ⟨first, found⟩ := Option.isSome_iff_exists.mp some_named
      exact ⟨first, found, by simpa [usableSrc] using List.find?_some found⟩
    · rintro ⟨first, found, usable⟩
      exact ⟨first, List.mem_of_find?_eq_some found, by simpa [usableSrc] using usable⟩
  rw [Names, in_dst, in_src, FieldTake.Quiet, not_and_or]

end State

namespace TakesItsField

variable {env} {key : String} {options : List String} {state after : State}
  {result : Option DataField}

/-- No more than one field is gone. -/
theorem one_gone (held : TakesItsField env key options state result after) :
    state.size ≤ after.size + 1 := by
  cases result with
  | none => rw [held.kept rfl]; omega
  | some found =>
    obtain ⟨place, _, rfl, _⟩ := held.removed found rfl
    exact state.size_without place

end TakesItsField

/-- Every search that finds something finds it in one record. -/
def RemovesOnce (key : String) (options : List String) (state : State) : Prop :=
  (state.Names key → state.foundOnce env key false = true) ∧
    (¬ state.Names key → ∀ option,
      options.find? (fun option => (state.firstNonEmpty env option).isSome) = some option →
        state.foundOnce env option true = true)

theorem firstNonEmpty_quiet {state : State} {name : String}
    (nothing : state.firstNonEmpty env name = none) : FieldTake.Quiet env state name true := by
  rw [State.firstNonEmpty, Option.or_eq_none_iff, Option.map_eq_none_iff,
    Option.map_eq_none_iff] at nothing
  obtain ⟨noDst, noSrc⟩ := nothing
  refine ⟨noDst, ?_⟩
  rw [List.findIdx?_eq_none_iff] at noSrc
  cases found : state.src.find? (fun field => field.name == name) with
  | none => simp [firstUsableSrc, found]
  | some field => simpa [firstUsableSrc, found] using noSrc field (List.mem_of_find?_eq_some found)

namespace FieldTake

variable {env}

theorem Moved.once {key : String} {option : Bool} {state after : State}
    {result : Option DataField} (moved : Moved env key option state result after)
    (once : state.foundOnce env key option = true) :
    ∃ place found, result = some found ∧ state.fieldAt env place = some found ∧
      after = state.without place ∧
        (option = true → state.firstNonEmpty env key = some place) := by
  cases moved with
  | nothing noDst noSrc => simp [State.foundOnce, State.dst_any_iff, noDst, noSrc] at once
  | @fromDst index first noSrc =>
    obtain ⟨item, held, _⟩ := fieldAt_isSome_dst first
    refine ⟨.dst index, env.own item, ?_, ?_, rfl, ?_⟩
    · simp [State.fieldAt, held]
    · simp [State.fieldAt, held]
    · rintro rfl
      simp [State.firstNonEmpty, first]
  | @fromSrc index noDst usable first =>
    have inside := (List.findIdx?_eq_some_iff_getElem.mp first).1
    refine ⟨.src index, state.src[index], ?_, ?_, rfl, ?_⟩
    · simp [State.fieldAt, inside]
    · simp [State.fieldAt, inside]
    · rintro rfl
      simp [State.firstNonEmpty, noDst, first]
  | both first usable _ => simp [State.foundOnce, State.dst_any_iff, first, usable] at once

/-- A search that finds a field in both records takes both. -/
theorem Moved.twice {key : String} {option : Bool} {state after : State}
    {result : Option DataField} (moved : Moved env key option state result after)
    (loud : ¬ Quiet env state key option) (twice : state.foundOnce env key option = false) :
    after.size + 2 = state.size := by
  cases moved with
  | nothing noDst noSrc => exact absurd ⟨noDst, noSrc⟩ loud
  | fromDst first noSrc => simp [State.foundOnce, State.dst_any_iff, first, noSrc] at twice
  | fromSrc noDst usable _ => simp [State.foundOnce, State.dst_any_iff, noDst, usable] at twice
  | both first _ second =>
    exact State.size_without_both (List.findIdx?_eq_some_iff_getElem.mp first).1
      (List.findIdx?_eq_some_iff_getElem.mp second).1

theorem Moved.some_of_loud {key : String} {option : Bool} {state after : State}
    {result : Option DataField} (moved : Moved env key option state result after)
    (loud : ¬ Quiet env state key option) : ∃ found, result = some found := by
  cases result with
  | none => exact absurd (moved.quiet_of_none env).2 loud
  | some found => exact ⟨found, rfl⟩

/-- The direct name is in a record: it alone decides. -/
theorem named_iff {key : String} {options : List String} {state after : State}
    {result : Option DataField} (named : state.Names key)
    (moved : Moved env key false state result after) :
    TakesItsField env key options state result after ↔
      state.foundOnce env key false = true := by
  have loud := (state.names_iff env key).mp named
  constructor
  · intro held
    by_contra twice
    have gone := moved.twice loud (by simpa using twice)
    have one := held.one_gone
    omega
  · intro once
    obtain ⟨place, found, rfl, there, rfl, _⟩ := moved.once once
    refine ⟨?_, by simp, by simp⟩
    rintro _ ⟨⟩
    exact ⟨place, there, rfl, fun unnamed => absurd named unnamed⟩

theorem Quiet.not_once {key : String} {option : Bool} {state : State}
    (quiet : Quiet env state key option) : state.foundOnce env key option = false := by
  simp [State.foundOnce, State.dst_any_iff, quiet.1, quiet.2]

/-- A field taken while the target record keeps all of its own has the name looked for. -/
theorem Moved.named_of_kept {key : String} {option : Bool} {state after : State}
    {found : DataField} (moved : Moved env key option state (some found) after)
    (kept : after.dst = state.dst) : found.name = key := by
  have shorter : ∀ {index : Nat} {p : FieldStorage → Bool}, state.dst.findIdx? p = some index →
      state.dst.eraseIdx index ≠ state.dst := by
    intro index p first same
    have inside := (List.findIdx?_eq_some_iff_getElem.mp first).1
    have lengths := congrArg List.length same
    rw [List.length_eraseIdx_of_lt inside] at lengths
    omega
  generalize result : some found = taken at moved
  cases moved with
  | nothing _ _ => contradiction
  | fromDst first _ => exact absurd kept (shorter first)
  | both first _ _ => exact absurd kept (shorter first)
  | @fromSrc index _ _ first =>
    obtain ⟨inside, usable, _⟩ := List.findIdx?_eq_some_iff_getElem.mp first
    have here : state.src[index] = found := by
      simpa [State.fieldAt, inside] using result.symm
    rw [here] at usable
    exact ((usableSrc_iff env key option found).mp usable).1

/-- An option that could have been taken from and was passed over: whatever is taken
afterwards is another field. -/
theorem passed_over {key option : String} {options : List String} {state after : State}
    {result : Option DataField} {index : Nat} (quiet : Quiet env state option true)
    (there : state.src.findIdx? (usableSrc env option true) = some index)
    (first : state.firstOption env options = some (.src index)) (unnamed : ¬ state.Names key)
    (run : moveOptions env options state = some (result, after)) :
    ¬ TakesItsField env key options state result after := by
  intro held
  rcases moveOptions_run env options state with
    nothing | ⟨other, _, found, later, loud, moved, taken⟩
  · obtain ⟨rfl, rfl⟩ := Prod.mk.inj (Option.some.inj (nothing.symm.trans run))
    simp [held.exhausted unnamed rfl] at first
  · obtain ⟨rfl, rfl⟩ := Prod.mk.inj (Option.some.inj (taken.symm.trans run))
    obtain ⟨place, at_place, gone, chosen⟩ := held.removed found rfl
    obtain rfl := Option.some.inj (first.symm.trans (chosen unnamed))
    obtain ⟨inside, usable, _⟩ := List.findIdx?_eq_some_iff_getElem.mp there
    have here : state.src[index] = found := by simpa [State.fieldAt, inside] using at_place
    rw [here] at usable
    have named_option := ((usableSrc_iff env option true found).mp usable).1
    have named_other : found.name = other := moved.named_of_kept (by rw [gone]; rfl)
    have same : other = option := named_other.symm.trans named_option
    subst same
    exact loud quiet

/-- The direct name is in no record: the first option with a field that is not empty decides. -/
theorem unnamed_iff {key : String} {options : List String} {state after : State}
    {result : Option DataField} (unnamed : ¬ state.Names key)
    (run : moveOptions env options state = some (result, after)) :
    TakesItsField env key options state result after ↔ ∀ option,
      options.find? (fun option => (state.firstNonEmpty env option).isSome) = some option →
        state.foundOnce env option true = true := by
  cases first : options.find? (fun option => (state.firstNonEmpty env option).isSome) with
  | none =>
    have nowhere : ∀ option ∈ options, state.firstNonEmpty env option = none := by
      simpa using first
    have skipped := @moveOptions_skip _ env options [] state
      (fun option member => firstNonEmpty_quiet env (nowhere option member))
    rw [List.append_nil, run] at skipped
    obtain ⟨rfl, rfl⟩ := Prod.mk.inj (Option.some.inj skipped)
    have exhausted : after.firstOption env options = none :=
      List.findSome?_eq_none_iff.mpr nowhere
    simp only [reduceCtorEq, false_implies, implies_true, iff_true]
    exact ⟨by simp, fun _ => rfl, fun _ _ => exhausted⟩
  | some option =>
    obtain ⟨full, before, rest, rfl, earlier⟩ := List.find?_eq_some_iff_append.mp first
    obtain ⟨place, chosen⟩ := Option.isSome_iff_exists.mp full
    have nowhere : ∀ other ∈ before, state.firstNonEmpty env other = none := by
      simpa using earlier
    have first_place : state.firstOption env (before ++ option :: rest) = some place := by
      rw [State.firstOption, List.findSome?_append, List.findSome?_eq_none_iff.mpr nowhere]
      simp [chosen]
    have skipped := @moveOptions_skip _ env before (option :: rest) state
      (fun other member => firstNonEmpty_quiet env (nowhere other member))
    have only : (∀ other, some option = some other → state.foundOnce env other true = true) ↔
        state.foundOnce env option true = true := by simp
    rw [only]
    obtain ⟨taken, later, searched, moved⟩ := moveKey_moved env option true state
    by_cases quiet : Quiet env state option true
    · -- the target record has none, and the first of the source record is empty
      have place_src : ∃ index, state.src.findIdx? (usableSrc env option true) = some index ∧
          place = .src index := by
        rw [State.firstNonEmpty, quiet.1] at chosen
        obtain ⟨index, there, rfl⟩ := Option.map_eq_some_iff.mp chosen
        exact ⟨index, there, rfl⟩
      obtain ⟨index, there, rfl⟩ := place_src
      have fails := passed_over quiet there first_place unnamed run
      simp [fails, quiet.not_once]
    · obtain ⟨found, rfl⟩ := moved.some_of_loud quiet
      rw [skipped, moveOptions_found env searched] at run
      obtain ⟨rfl, rfl⟩ := Prod.mk.inj (Option.some.inj run)
      constructor
      · intro held
        by_contra twice
        have gone := moved.twice quiet (by simpa using twice)
        have one := held.one_gone
        omega
      · intro once
        obtain ⟨its, field, same, there, rfl, nonempty⟩ := moved.once once
        obtain rfl := Option.some.inj same
        have chosen_its : some its = some place := (nonempty rfl).symm.trans chosen
        refine ⟨?_, by simp, by simp⟩
        rintro _ ⟨⟩
        exact ⟨its, there, rfl, fun _ => first_place.trans chosen_its.symm⟩

variable (env)

/-- A `take` removes the field it returns and nothing else if and only if the search that
finds a field finds it in one of the two records. -/
theorem removes_what_it_returns_iff (accessor : FieldTake) (target : EvaluationTarget)
    (state : State) :
    (∃ result after, accessor.extractOne env target state = some (result, after) ∧
      TakesItsField env (accessor.get.getD target.safeName) accessor.option state result after) ↔
    RemovesOnce env (accessor.get.getD target.safeName) accessor.option state := by
  generalize direct : accessor.get.getD target.safeName = key
  obtain ⟨taken, later, searched, moved⟩ := moveKey_moved env key false state
  by_cases named : state.Names key
  · obtain ⟨found, rfl⟩ := moved.some_of_loud ((state.names_iff env key).mp named)
    have run : accessor.extractOne env target state = some (some found, later) := by
      simp [extractOne, direct, searched]
    have decided := @named_iff _ env key accessor.option state later (some found) named moved
    simp [run, decided, RemovesOnce, named]
  · have quiet : Quiet env state key false := by
      by_contra loud
      exact named ((state.names_iff env key).mpr loud)
    have run : accessor.extractOne env target state = moveOptions env accessor.option state := by
      simp [extractOne, direct, moveKey_quiet env quiet]
    have ends : ∃ result after, moveOptions env accessor.option state = some (result, after) := by
      rcases moveOptions_run env accessor.option state with nothing | ⟨_, _, _, _, _, _, some_run⟩
      · exact ⟨_, _, nothing⟩
      · exact ⟨_, _, some_run⟩
    obtain ⟨result, after, run_options⟩ := ends
    have decided := unnamed_iff named run_options
    simp [run, run_options, decided, RemovesOnce, named]

/-- `take(city)` loses the field of the source record, and `take(option:[city])` misses a
field behind an empty one of the same name. -/
theorem loses_a_field_and_misses_one :
    (∃ after, extractOne skipEmptyOnly ⟨some "city", [], [], none⟩ (.new "a" .auto)
        ⟨[.fromChars "city" "bj"], [.owned (.fromChars "city" "gz")]⟩ =
          some (some (.fromChars "city" "gz"), after) ∧ after.dst = [] ∧ after.src = [] ∧
        ¬ TakesItsField skipEmptyOnly "city" []
          ⟨[.fromChars "city" "bj"], [.owned (.fromChars "city" "gz")]⟩
          (some (.fromChars "city" "gz")) after) ∧
      (∃ after, extractOne skipEmptyOnly ⟨none, ["city"], [], none⟩ (.new "a" .auto)
        ⟨[.fromChars "city" "", .fromChars "city" "bj"], []⟩ = some (none, after) ∧
        ¬ TakesItsField skipEmptyOnly "a" ["city"]
          ⟨[.fromChars "city" "", .fromChars "city" "bj"], []⟩ none after) := by
  constructor
  · refine ⟨⟨[], []⟩, rfl, rfl, rfl, ?_⟩
    intro held
    have one := held.one_gone
    simp [State.size] at one
  · refine ⟨_, rfl, ?_⟩
    intro held
    have unnamed : ¬ State.Names ⟨[.fromChars "city" "", .fromChars "city" "bj"], []⟩ "a" := by
      simp [State.Names, DataField.fromChars]
    have nowhere := held.exhausted unnamed rfl
    exact absurd (congrArg Option.isSome nowhere) (by decide)

end FieldTake

end WarpMotor.Oml
