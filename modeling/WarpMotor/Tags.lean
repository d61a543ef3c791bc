import Mathlib.Data.List.Perm.Basic
import WarpMotor.Record

/-!
Global tags on a record. Stamping removes every field of a tag's name and puts
the tag behind the rest: afterwards each tag stands there exactly once, all
other fields are as before, and stamping again only moves fields.
-/
namespace WarpMotor

namespace DataRecord

def named (name : String) (record : DataRecord) : List DataField :=
  record.items.filter (fun field => decide (field.name = name))

/-- The same event id and the same fields, in any order. -/
def SameFields (first second : DataRecord) : Prop :=
  first.id = second.id ∧ first.items.Perm second.items

theorem SameFields.refl (record : DataRecord) : SameFields record record := ⟨rfl, List.Perm.refl _⟩

theorem SameFields.symm {first second : DataRecord} (same : SameFields first second) :
    SameFields second first := ⟨same.1.symm, same.2.symm⟩

theorem SameFields.trans {first second third : DataRecord} (left : SameFields first second)
    (right : SameFields second third) : SameFields first third :=
  ⟨left.1.trans right.1, left.2.trans right.2⟩

theorem SameFields.append {first second : DataRecord} (same : SameFields first second)
    (field : DataField) : SameFields (first.append field) (second.append field) :=
  ⟨same.1, same.2.append_right [field]⟩

theorem SameFields.removeAll {first second : DataRecord} (same : SameFields first second)
    (name : String) : SameFields (first.removeAll name) (second.removeAll name) :=
  ⟨same.1, same.2.filter _⟩

/-- One tag of `apply_global_tags`. -/
def setTag (record : DataRecord) (tag : String × String) : DataRecord :=
  (record.removeAll tag.1).append (DataField.fromChars tag.1 tag.2)

theorem setTag_named (record : DataRecord) (tag : String × String) :
    (record.setTag tag).named tag.1 = [DataField.fromChars tag.1 tag.2] := by
  simp [setTag, named, removeAll, append, DataField.fromChars, List.filter_filter]

theorem setTag_filter (record : DataRecord) (tag : String × String) (kept : DataField → Bool)
    (other : ∀ field, kept field = true → field.name ≠ tag.1) :
    (record.setTag tag).items.filter kept = record.items.filter kept := by
  have dropped : kept (DataField.fromChars tag.1 tag.2) = false := by
    by_contra wrong
    exact other _ (by simpa using wrong) rfl
  simp only [setTag, removeAll, append, List.filter_append, List.filter_filter, List.filter_cons,
    dropped, Bool.false_eq_true, if_false, List.filter_nil, List.append_nil]
  refine List.filter_congr ?_
  intro field _
  cases keep : kept field with
  | false => simp
  | true => simp [other field keep]

theorem SameFields.setTag {first second : DataRecord} (same : SameFields first second)
    (tag : String × String) : SameFields (first.setTag tag) (second.setTag tag) :=
  (same.removeAll tag.1).append _

/-- A record that holds the tag once is only reordered. -/
theorem setTag_same {record : DataRecord} {tag : String × String}
    (once : record.named tag.1 = [DataField.fromChars tag.1 tag.2]) :
    SameFields (record.setTag tag) record := by
  refine ⟨rfl, ?_⟩
  have split := List.filter_append_perm (fun field => decide (field.name ≠ tag.1)) record.items
  have rest : record.items.filter (fun field => !decide (field.name ≠ tag.1)) =
      record.named tag.1 := by
    refine List.filter_congr ?_
    intro field _
    simp
  rw [rest, once] at split
  exact split

/-- What the record library promises of `remove_field`: one field of that name goes, or there is
    none. -/
structure RemovesOne (removeField : DataRecord → String → DataRecord × Bool) : Prop where
  found : ∀ record name, (∃ field ∈ record.items, field.name = name) →
    ∃ before field after, record.items = before ++ field :: after ∧ field.name = name ∧
      removeField record name = ({ record with items := before ++ after }, true)
  missing : ∀ record name, (∀ field ∈ record.items, field.name ≠ name) →
    removeField record name = (record, false)

/-- `while record.remove_field(name) {}`. -/
def removeWhile (removeField : DataRecord → String → DataRecord × Bool) (name : String) :
    Nat → DataRecord → DataRecord
  | 0, record => record
  | fuel + 1, record =>
    match removeField record name with
    | (record, true) => removeWhile removeField name fuel record
    | (record, false) => record

/-- The loop ends after as many rounds as there are fields, with none of that name left. -/
theorem removeWhile_eq {removeField : DataRecord → String → DataRecord × Bool}
    (removes : RemovesOne removeField) (name : String) (fuel : Nat) (record : DataRecord)
    (enough : record.items.length ≤ fuel) :
    removeWhile removeField name fuel record = record.removeAll name := by
  induction fuel generalizing record with
  | zero =>
    have empty : record.items = [] := List.length_eq_zero_iff.mp (by omega)
    obtain ⟨id, items⟩ := record
    subst empty
    rfl
  | succ fuel ih =>
    rw [removeWhile]
    by_cases present : ∃ field ∈ record.items, field.name = name
    · obtain ⟨before, field, after, items, named, removed⟩ := removes.found record name present
      rw [removed]
      dsimp only
      rw [items, List.length_append, List.length_cons] at enough
      rw [ih _ (by rw [List.length_append]; omega)]
      simp [removeAll, items, named]
    · have absent : ∀ field ∈ record.items, field.name ≠ name := by
        intro field member named
        exact present ⟨field, member, named⟩
      rw [removes.missing record name absent]
      have whole : record.items.filter (fun field => decide (field.name ≠ name)) = record.items :=
        List.filter_eq_self.mpr (fun field member => by simpa using absent field member)
      rw [removeAll, whole]

end DataRecord

namespace GlobalTags
variable (tags : GlobalTags)

def keys : List String := tags.tags.map Prod.fst

/-- The keys of a map. -/
def KeysDistinct : Prop := tags.keys.Nodup

/-- Each tag stands in the record exactly once, with its value. -/
def CarriedBy (record : DataRecord) : Prop :=
  ∀ tag ∈ tags.tags, record.named tag.1 = [DataField.fromChars tag.1 tag.2]

end GlobalTags

open DataRecord

/-- `apply_global_tags` with the library's own removal. -/
def applyGlobalTagsBy (removeField : DataRecord → String → DataRecord × Bool) (record : DataRecord)
    (tags : GlobalTags) : DataRecord :=
  tags.tags.foldl (fun record tag =>
    (removeWhile removeField tag.1 record.items.length record).append
      (DataField.fromChars tag.1 tag.2)) record

theorem applyGlobalTagsBy_eq {removeField : DataRecord → String → DataRecord × Bool}
    (removes : RemovesOne removeField) (record : DataRecord) (tags : GlobalTags) :
    applyGlobalTagsBy removeField record tags = applyGlobalTags record tags := by
  unfold applyGlobalTagsBy applyGlobalTags
  congr 1
  funext record tag
  rw [removeWhile_eq removes tag.1 record.items.length record (Nat.le_refl _)]

theorem setTags_id (tags : List (String × String)) (record : DataRecord) :
    (tags.foldl setTag record).id = record.id := by
  induction tags generalizing record with
  | nil => rfl
  | cons tag tags ih => exact ih (record.setTag tag)

theorem setTags_filter (tags : List (String × String)) (kept : DataField → Bool)
    (other : ∀ field, kept field = true → field.name ∉ tags.map Prod.fst) (record : DataRecord) :
    (tags.foldl setTag record).items.filter kept = record.items.filter kept := by
  induction tags generalizing record with
  | nil => rfl
  | cons tag tags ih =>
    have head : ∀ field, kept field = true → field.name ≠ tag.1 := by
      intro field keep same
      exact other field keep (by simp [same])
    have tail : ∀ field, kept field = true → field.name ∉ tags.map Prod.fst := by
      intro field keep member
      exact other field keep (by rw [List.map_cons]; exact List.mem_cons_of_mem _ member)
    rw [List.foldl_cons, ih tail, setTag_filter record tag kept head]

theorem sameFields_setTags {first second : DataRecord} (same : SameFields first second)
    (tags : List (String × String)) :
    SameFields (tags.foldl setTag first) (tags.foldl setTag second) := by
  induction tags generalizing first second with
  | nil => exact same
  | cons tag tags ih => exact ih (same.setTag tag)

/-- Fields of no tag's name are not touched. -/
theorem applyGlobalTags_filter (record : DataRecord) {tags : GlobalTags} {kept : DataField → Bool}
    (other : ∀ field, kept field = true → field.name ∉ tags.keys) :
    (applyGlobalTags record tags).items.filter kept = record.items.filter kept :=
  setTags_filter tags.tags kept other record

theorem applyGlobalTags_sameFields {first second : DataRecord} (same : SameFields first second)
    (tags : GlobalTags) : SameFields (applyGlobalTags first tags) (applyGlobalTags second tags) :=
  sameFields_setTags same tags.tags

theorem setTags_carried (tags : List (String × String)) (distinct : (tags.map Prod.fst).Nodup)
    (record : DataRecord) :
    ∀ tag ∈ tags, (tags.foldl setTag record).named tag.1 = [DataField.fromChars tag.1 tag.2] := by
  induction tags generalizing record with
  | nil => simp
  | cons tag tags ih =>
    rw [List.map_cons, List.nodup_cons] at distinct
    intro other member
    rw [List.mem_cons] at member
    rw [List.foldl_cons]
    obtain rfl | member := member
    · rw [named, setTags_filter tags]
      · exact setTag_named record other
      · intro field named
        rw [of_decide_eq_true named]
        exact distinct.1
    · exact ih distinct.2 (record.setTag tag) other member

/-- After stamping each tag is there exactly once. -/
theorem applyGlobalTags_carried {tags : GlobalTags} (distinct : tags.KeysDistinct)
    (record : DataRecord) : tags.CarriedBy (applyGlobalTags record tags) :=
  setTags_carried tags.tags distinct record

theorem setTags_same (tags : List (String × String)) {record : DataRecord}
    (carried : ∀ tag ∈ tags, record.named tag.1 = [DataField.fromChars tag.1 tag.2]) :
    SameFields (tags.foldl setTag record) record := by
  induction tags generalizing record with
  | nil => exact SameFields.refl record
  | cons tag tags ih =>
    have first := setTag_same (carried tag List.mem_cons_self)
    have rest := @ih (record.setTag tag) (by
      intro other member
      have moved : ((record.setTag tag).named other.1).Perm (record.named other.1) :=
        first.2.filter _
      rw [carried other (List.mem_cons_of_mem _ member)] at moved
      exact List.perm_singleton.mp moved)
    exact rest.trans first

/-- Stamping a record that carries the tags only moves fields. -/
theorem applyGlobalTags_same {tags : GlobalTags} {record : DataRecord}
    (carried : tags.CarriedBy record) : SameFields (applyGlobalTags record tags) record :=
  setTags_same tags.tags carried

end WarpMotor
