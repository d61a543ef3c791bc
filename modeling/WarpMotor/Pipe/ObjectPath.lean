import WarpMotor.Pipe.Chain

/-!
What `get` finds. A path addresses what its last key finds; a key before that
enters the object it finds, and is passed over when it finds none. Where the
last key finds nothing, the field comes back with the object that was entered
last as its value: it is what was given exactly when no key has entered one.
-/
namespace WarpMotor.Pipe

open Oml (Text)

/-- The members of the object of that key. -/
def objectAt (members : List Member) (key : Text) : Option (List Member) :=
  match getMember members key with
  | some found =>
    match found.asField.value with
    | .obj nested => some nested
    | _ => none
  | none => none

/-- What the keys address, from an object on. -/
inductive Addresses : List Text → List Member → FieldStorage → Prop
  | last {key : Text} {members : List Member} {target : FieldStorage}
      (found : getMember members key = some target) : Addresses [key] members target
  | enter {key : Text} {keys : List Text} {members nested : List Member} {target : FieldStorage}
      (more : keys ≠ []) (object : objectAt members key = some nested)
      (rest : Addresses keys nested target) : Addresses (key :: keys) members target
  | pass {key : Text} {keys : List Text} {members : List Member} {target : FieldStorage}
      (more : keys ≠ []) (none : objectAt members key = none)
      (rest : Addresses keys members target) : Addresses (key :: keys) members target

theorem follow_last (key : Text) (members : List Member) :
    Get.follow [key] members =
      match getMember members key with
      | some found => .inl found.asField
      | none => .inr members := by
  unfold Get.follow
  cases getMember members key <;> rfl

theorem follow_more {keys : List Text} (more : keys ≠ []) (key : Text) (members : List Member) :
    Get.follow (key :: keys) members =
      Get.follow keys ((objectAt members key).getD members) := by
  have further : keys.isEmpty = false := by simpa using more
  rw [Get.follow, objectAt]
  cases getMember members key with
  | none => rfl
  | some found =>
    simp only [further, Bool.false_eq_true, if_false]
    cases found.asField.value <;> rfl

/-- The walk finds what the keys address. -/
theorem follow_inl_iff (keys : List Text) (members : List Member) (found : DataField) :
    Get.follow keys members = .inl found ↔
      ∃ target, Addresses keys members target ∧ target.asField = found := by
  constructor
  · intro walk
    induction keys generalizing members with
    | nil => cases walk
    | cons key keys ih =>
      by_cases only : keys = []
      · subst only
        rw [follow_last] at walk
        split at walk
        · next target looked =>
          cases walk
          exact ⟨target, .last looked, rfl⟩
        · cases walk
      · rw [follow_more only] at walk
        obtain ⟨target, rest, same⟩ := ih _ walk
        cases object : objectAt members key with
        | none =>
          rw [object, Option.getD_none] at rest
          exact ⟨target, .pass only object rest, same⟩
        | some nested =>
          rw [object, Option.getD_some] at rest
          exact ⟨target, .enter only object rest, same⟩
  · rintro ⟨target, addressed, rfl⟩
    induction addressed with
    | last looked => rw [follow_last, looked]
    | enter more object _ ih => rw [follow_more more, object, Option.getD_some, ih]
    | pass more object _ ih => rw [follow_more more, object, Option.getD_none, ih]

/-- An object has fewer parts than the one it is a member of. -/
theorem objectAt_smaller {members nested : List Member} {key : Text}
    (object : objectAt members key = some nested) : sizeOf nested < sizeOf members := by
  unfold objectAt at object
  split at object
  · next found looked =>
    obtain ⟨member, first, rfl⟩ := Option.map_eq_some_iff.mp looked
    have among := List.sizeOf_lt_of_mem (List.mem_of_find?_eq_some first)
    split at object
    · next value =>
      cases object
      obtain ⟨memberKey, storage⟩ := member
      have inside : sizeOf nested < sizeOf storage := by
        cases storage with
        | owned field =>
          obtain ⟨info, name, held⟩ := field
          cases value
          simp only [FieldStorage.owned.sizeOf_spec, DataField.mk.sizeOf_spec,
            Value.obj.sizeOf_spec]
          omega
        | shared field curName =>
          obtain ⟨info, name, held⟩ := field
          cases value
          simp only [FieldStorage.shared.sizeOf_spec, DataField.mk.sizeOf_spec,
            Value.obj.sizeOf_spec]
          omega
      simp only [Member.mk.sizeOf_spec] at among
      omega
    · cases object
  · cases object

theorem follow_inr_size {keys : List Text} {members reached : List Member}
    (walk : Get.follow keys members = .inr reached) : sizeOf reached ≤ sizeOf members := by
  induction keys generalizing members with
  | nil =>
    cases walk
    exact Nat.le_refl _
  | cons key keys ih =>
    by_cases only : keys = []
    · subst only
      rw [follow_last] at walk
      split at walk
      · cases walk
      · cases walk
        exact Nat.le_refl _
    · rw [follow_more only] at walk
      cases object : objectAt members key with
      | none =>
        rw [object, Option.getD_none] at walk
        exact ih walk
      | some nested =>
        rw [object, Option.getD_some] at walk
        have rest := ih walk
        have smaller := objectAt_smaller object
        omega

/-- Where nothing is found, the walk is still at its start exactly when it has entered no object. -/
theorem follow_inr_same_iff {keys : List Text} {members reached : List Member}
    (walk : Get.follow keys members = .inr reached) :
    reached = members ↔ ∀ key ∈ keys.dropLast, objectAt members key = none := by
  induction keys generalizing members with
  | nil =>
    cases walk
    simp
  | cons key keys ih =>
    by_cases only : keys = []
    · subst only
      rw [follow_last] at walk
      split at walk
      · cases walk
      · cases walk
        simp
    · rw [follow_more only] at walk
      rw [List.dropLast_cons_of_ne_nil only, List.forall_mem_cons]
      cases object : objectAt members key with
      | none =>
        rw [object, Option.getD_none] at walk
        rw [ih walk]
        simp
      | some nested =>
        rw [object, Option.getD_some] at walk
        have rest := follow_inr_size walk
        have smaller := objectAt_smaller object
        constructor
        · rintro rfl
          omega
        · rintro ⟨none, -⟩
          cases none

/-- Strict navigation, on shared objects. -/
def getFromObj : List Member → List Text → Option FieldStorage
  | _, [] => none
  | members, key :: keys =>
    match getMember members key with
    | none => none
    | some found =>
      if keys.isEmpty then some found
      else
        match found.asField.value with
        | .obj nested => getFromObj nested keys
        | _ => none

/-- What strict navigation finds in a shared object. -/
def Get.sharedResult (name : Text) : FieldStorage → Option FieldStorage
  | .owned _ => none
  | .shared field _ =>
    match field.value with
    | .obj members => getFromObj members (name.splitOn '/')
    | _ => none

def Get.valueCacuStorage (env : Env) (name : Text) (storage : FieldStorage) : FieldStorage :=
  match Get.sharedResult name storage with
  | some found => found
  | none => .fromOwned (Get.valueCacu name (env.own storage))

theorem addresses_of_getFromObj {keys : List Text} {members : List Member} {target : FieldStorage}
    (found : getFromObj members keys = some target) : Addresses keys members target := by
  induction keys generalizing members with
  | nil => cases found
  | cons key keys ih =>
    unfold getFromObj at found
    split at found
    · cases found
    · next here looked =>
      split at found
      · next only =>
        cases found
        rw [List.isEmpty_iff.mp only]
        exact .last looked
      · next more =>
        split at found
        · next nested object =>
          refine .enter (by simpa using more) ?_ (ih found)
          rw [objectAt, looked]
          simp only [object]
        · cases found

/-- The value does not depend on the name of the field. -/
theorem get_value_of_value (info : DataType) (name first second : Text) (value : Value) :
    (Get.valueCacu name ⟨info, first, value⟩).value =
      (Get.valueCacu name ⟨info, second, value⟩).value := by
  unfold Get.valueCacu
  dsimp only
  split
  · next members => cases Get.follow (name.splitOn '/') members <;> rfl
  · rfl

/-- A shared object and an owned one give the same value. -/
theorem get_storage_value (env : Env) (name curName : Text) (field : DataField) :
    (Get.valueCacuStorage env name (.shared field curName)).asField.value =
      (Get.valueCacuStorage env name (.owned field)).asField.value := by
  obtain ⟨info, own, value⟩ := field
  have owned : Get.valueCacuStorage env name (.owned ⟨info, own, value⟩) =
      .owned (Get.valueCacu name ⟨info, own, value⟩) := rfl
  rw [owned, Get.valueCacuStorage]
  split
  · next target strict =>
    unfold Get.sharedResult at strict
    dsimp only at strict
    split at strict
    · next members =>
      have walk := (follow_inl_iff _ _ _).mpr ⟨target, addresses_of_getFromObj strict, rfl⟩
      simp only [FieldStorage.asField, Get.valueCacu, walk]
    · cases strict
  · exact get_value_of_value info name _ own value

/-- What is returned is what the path addresses, or the field that was given. -/
def AddressedOrUntouched (name : Text) (members : List Member) (field out : DataField) : Prop :=
  (∃ target, Addresses (name.splitOn '/') members target ∧ out = target.asField) ∨
    (¬ ∃ target, Addresses (name.splitOn '/') members target) ∧ out = field

/-- `get` gives what the path addresses or the field that it was given, exactly when the path
    addresses something or none of its keys before the last is that of an object. A shared object
    and an owned one give the same value. -/
theorem get_addressed_or_untouched_iff (env : Env) (name curName : Text) (field : DataField)
    {members : List Member} (object : field.value = .obj members) :
    (AddressedOrUntouched name members field (Get.valueCacu name field) ↔
      (∃ target, Addresses (name.splitOn '/') members target) ∨
        ∀ key ∈ (name.splitOn '/').dropLast, objectAt members key = none) ∧
    (Get.valueCacuStorage env name (.shared field curName)).asField.value =
      (Get.valueCacuStorage env name (.owned field)).asField.value := by
  refine ⟨?_, get_storage_value env name curName field⟩
  obtain ⟨info, own, value⟩ := field
  cases object
  cases walk : Get.follow (name.splitOn '/') members with
  | inl found =>
    obtain ⟨target, addressed, same⟩ := (follow_inl_iff _ _ _).mp walk
    have out : Get.valueCacu name ⟨info, own, .obj members⟩ = target.asField := by
      simp only [Get.valueCacu, walk, same]
    exact iff_of_true (.inl ⟨target, addressed, out⟩) (.inl ⟨target, addressed⟩)
  | inr reached =>
    have nothing : ¬ ∃ target, Addresses (name.splitOn '/') members target := by
      rintro ⟨target, addressed⟩
      cases walk.symm.trans ((follow_inl_iff _ _ _).mpr ⟨target, addressed, rfl⟩)
    have out : Get.valueCacu name ⟨info, own, .obj members⟩ = ⟨info, own, .obj reached⟩ := by
      simp only [Get.valueCacu, walk]
    have same : (⟨info, own, .obj reached⟩ : DataField) = ⟨info, own, .obj members⟩ ↔
        reached = members := by
      simp
    rw [← follow_inr_same_iff walk, ← same, out]
    constructor
    · rintro (⟨target, addressed, -⟩ | ⟨-, untouched⟩)
      · exact absurd ⟨target, addressed⟩ nothing
      · exact .inr untouched
    · rintro (addressed | untouched)
      · exact absurd addressed nothing
      · exact .inr ⟨nothing, untouched⟩

/-- An object with the number 1 under `b`. -/
def innerMembers : List Member := [⟨"b".toList, .fromOwned (.fromInt "b".toList 1)⟩]

/-- An object with that object under `a`. -/
def outerMembers : List Member := [⟨"a".toList, .fromOwned (.fromObj "a".toList innerMembers)⟩]

theorem present_key_is_found :
    AddressedOrUntouched "a/b".toList outerMembers (.fromObj "o".toList outerMembers)
      (Get.valueCacu "a/b".toList (.fromObj "o".toList outerMembers)) := by
  refine (get_addressed_or_untouched_iff plainEnv "a/b".toList [] (.fromObj "o".toList outerMembers)
    rfl).1.mpr (.inl ⟨.fromOwned (.fromInt "b".toList 1), ?_⟩)
  exact .enter (by decide) rfl (.last rfl)

/-- The path `a/c` leaves the object under `a` in place of the one that was given. -/
theorem missing_key_leaves_part :
    Get.valueCacu "a/c".toList (.fromObj "o".toList outerMembers) =
        .fromObj "o".toList innerMembers ∧
      ¬ AddressedOrUntouched "a/c".toList outerMembers (.fromObj "o".toList outerMembers)
        (Get.valueCacu "a/c".toList (.fromObj "o".toList outerMembers)) := by
  have walk : Get.follow ("a/c".toList.splitOn '/') outerMembers = .inr innerMembers := rfl
  refine ⟨rfl, ?_⟩
  rintro (⟨target, addressed, -⟩ | ⟨-, same⟩)
  · cases walk.symm.trans ((follow_inl_iff _ _ _).mpr ⟨target, addressed, rfl⟩)
  · have parts : innerMembers = outerMembers := Value.obj.inj (congrArg DataField.value same)
    cases parts

end WarpMotor.Pipe
