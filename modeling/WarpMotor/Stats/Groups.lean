import Mathlib.Data.List.Range
import WarpMotor.Stats.Tally

/-!
The collectors of one rule. Those of requests without fields come first; the
others are grouped by the fields they collect, so that a record is looked at
once for each group. The groups hold positions in the list of collectors. A
loop over the front part and the groups reaches every collector exactly once.
-/
namespace WarpMotor

structure DataCollectorGroup where
  collect : List String
  indices : List Nat
  deriving DecidableEq, Repr

/-- Every position belongs to the front part or to one group, once, and the requests there
    collect what the group says. -/
structure Arranged (reqs : List StatReq) (unitEnd : Nat) (groups : List DataCollectorGroup) :
    Prop where
  covered : (List.range unitEnd ++ groups.flatMap (·.indices)).Perm (List.range reqs.length)
  unit_collect : ∀ i < unitEnd, ∀ req, reqs[i]? = some req → req.collect = []
  group_collect : ∀ g ∈ groups, ∀ i ∈ g.indices, ∀ req, reqs[i]? = some req →
    req.collect = g.collect
  group_nonempty : ∀ g ∈ groups, g.collect ≠ []

structure MetricCollectors where
  items : List StatCollector
  unitCollectorsEnd : Nat
  dataGroups : List DataCollectorGroup
  arranged : Arranged (items.map (·.require)) unitCollectorsEnd dataGroups

/-- `for idx in indices { f(&mut items[idx]) }` -/
def atIndices (items : List StatCollector) (indices : List Nat) (f : StatCollector → StatCollector) :
    List StatCollector :=
  indices.foldl (fun items i => items.modify i f) items

section Each
variable {A : Type}

/-- Changes at distinct positions, each the change `g` there, change these positions by `g`. -/
theorem modify_each (g : A → A) (updates : List (Nat × (A → A))) (l : List A)
    (distinct : (updates.map Prod.fst).Nodup)
    (same : ∀ u ∈ updates, ∀ a, l[u.1]? = some a → u.2 a = g a) (j : Nat) :
    (updates.foldl (fun l u => l.modify u.1 u.2) l)[j]? =
      if j ∈ updates.map Prod.fst then l[j]?.map g else l[j]? := by
  induction updates generalizing l with
  | nil => rfl
  | cons u rest ih =>
    obtain ⟨apart, distinct⟩ := List.nodup_cons.mp distinct
    have kept : ∀ i ≠ u.1, (l.modify u.1 u.2)[i]? = l[i]? := by
      intro i other
      rw [List.getElem?_modify]
      simp [Ne.symm other]
    have later : ∀ v ∈ rest, ∀ a, (l.modify u.1 u.2)[v.1]? = some a → v.2 a = g a := by
      intro v member a found
      have other : v.1 ≠ u.1 := fun equal => apart (equal ▸ List.mem_map_of_mem member)
      rw [kept v.1 other] at found
      exact same v (List.mem_cons_of_mem u member) a found
    rw [List.foldl_cons, ih _ distinct later]
    by_cases own : j = u.1
    · subst own
      have listed : u.1 ∈ (u :: rest).map Prod.fst := List.mem_cons_self ..
      rw [if_neg apart, if_pos listed, List.getElem?_modify]
      cases found : l[u.1]? with
      | none => rfl
      | some a => simp [same u (List.mem_cons_self ..) a found]
    · have listed : (j ∈ (u :: rest).map Prod.fst) = (j ∈ rest.map Prod.fst) := by simp [own]
      simp only [kept j own, listed]

/-- Changes at all positions, each the change `g` there, are `map g`. -/
theorem modify_all (g : A → A) (updates : List (Nat × (A → A))) (l : List A)
    (all : (updates.map Prod.fst).Perm (List.range l.length))
    (same : ∀ u ∈ updates, ∀ a, l[u.1]? = some a → u.2 a = g a) :
    updates.foldl (fun l u => l.modify u.1 u.2) l = l.map g := by
  apply List.ext_getElem?
  intro j
  rw [modify_each g updates l (all.nodup_iff.mpr List.nodup_range) same, List.getElem?_map]
  split
  · rfl
  · rename_i outside
    have beyond : l.length ≤ j := by
      rw [all.mem_iff, List.mem_range, Nat.not_lt] at outside
      exact outside
    simp [List.getElem?_eq_none beyond]

end Each

/-! The groups of `MetricCollectors::new`. -/

def DataCollectorGroup.push (g : DataCollectorGroup) (relIdx : Nat) : DataCollectorGroup :=
  { g with indices := g.indices ++ [relIdx] }

/-- The loop over the collectors with fields, `relIdx` the position of the next. -/
def groupFrom : Nat → List (List String) → List DataCollectorGroup →
    AList (fun _ : List String => Nat) → List DataCollectorGroup
  | _, [], groups, _ => groups
  | relIdx, collect :: rest, groups, collectGroupMap =>
    match collectGroupMap.lookup collect with
    | some groupIdx =>
      groupFrom (relIdx + 1) rest (groups.modify groupIdx (·.push relIdx)) collectGroupMap
    | none =>
      groupFrom (relIdx + 1) rest (groups ++ [⟨collect, [relIdx]⟩])
        (collectGroupMap.insert collect groups.length)

/-- The first `count` of the collect lists are in groups. -/
structure Grouped (collects : List (List String)) (count : Nat) (groups : List DataCollectorGroup)
    (collectGroupMap : AList (fun _ : List String => Nat)) : Prop where
  covered : (groups.flatMap (·.indices)).Perm (List.range count)
  collect : ∀ g ∈ groups, g.collect ∈ collects ∧ ∀ i ∈ g.indices, collects[i]? = some g.collect
  known : ∀ collect i, collectGroupMap.lookup collect = some i →
    ∃ g, groups[i]? = some g ∧ g.collect = collect

theorem flat_map_modify (groups : List DataCollectorGroup) {i : Nat} {g : DataCollectorGroup}
    (found : groups[i]? = some g) (relIdx : Nat) :
    ((groups.modify i (·.push relIdx)).flatMap (·.indices)).Perm
      (groups.flatMap (·.indices) ++ [relIdx]) := by
  induction groups generalizing i with
  | nil => simp at found
  | cons first rest ih =>
    cases i with
    | zero =>
      simp only [List.modify_zero_cons, List.flatMap_cons, DataCollectorGroup.push,
        List.append_assoc]
      exact List.perm_append_comm.append_left _
    | succ i =>
      simp only [List.modify_succ_cons, List.flatMap_cons, List.append_assoc]
      exact (ih (by simpa using found)).append_left _

theorem mem_modify_push {groups : List DataCollectorGroup} {i relIdx : Nat}
    {g after : DataCollectorGroup} (found : groups[i]? = some g)
    (member : after ∈ groups.modify i (·.push relIdx)) :
    after ∈ groups ∨ after = g.push relIdx := by
  obtain ⟨j, inside⟩ := List.mem_iff_getElem?.mp member
  rw [List.getElem?_modify] at inside
  by_cases own : i = j
  · subst own
    right
    simpa [found, eq_comm] using inside
  · left
    simp only [own, if_false, id_map'] at inside
    exact List.mem_of_getElem? inside

theorem grouped_step_known {collects : List (List String)} {count i : Nat}
    {groups : List DataCollectorGroup} {collectGroupMap : AList (fun _ : List String => Nat)}
    {collect : List String} (grouped : Grouped collects count groups collectGroupMap)
    (next : collects[count]? = some collect) (found : collectGroupMap.lookup collect = some i) :
    Grouped collects (count + 1) (groups.modify i (·.push count)) collectGroupMap := by
  obtain ⟨g, present, same⟩ := grouped.known collect i found
  constructor
  · rw [List.range_succ]
    exact (flat_map_modify groups present count).trans (grouped.covered.append_right [count])
  · intro after member
    rcases mem_modify_push present member with before | rfl
    · exact grouped.collect after before
    · obtain ⟨listed, inside⟩ := grouped.collect g (List.mem_of_getElem? present)
      refine ⟨listed, ?_⟩
      intro j indexed
      rcases List.mem_append.mp indexed with before | new
      · exact inside j before
      · rw [List.mem_singleton.mp new, next]
        exact congrArg some same.symm
  · intro other j known
    obtain ⟨h, there, equal⟩ := grouped.known other j known
    rw [List.getElem?_modify, there]
    by_cases own : i = j
    · exact ⟨h.push count, by simp [own], equal⟩
    · exact ⟨h, by simp [own], equal⟩

theorem grouped_step_new {collects : List (List String)} {count : Nat}
    {groups : List DataCollectorGroup} {collectGroupMap : AList (fun _ : List String => Nat)}
    {collect : List String} (grouped : Grouped collects count groups collectGroupMap)
    (next : collects[count]? = some collect) :
    Grouped collects (count + 1) (groups ++ [⟨collect, [count]⟩])
      (collectGroupMap.insert collect groups.length) := by
  constructor
  · rw [List.range_succ, List.flatMap_append]
    exact grouped.covered.append_right [count]
  · intro after member
    rcases List.mem_append.mp member with before | new
    · exact grouped.collect after before
    · rw [List.mem_singleton.mp new]
      refine ⟨List.mem_of_getElem? next, ?_⟩
      intro i indexed
      rw [List.mem_singleton.mp indexed, next]
  · intro other j known
    by_cases own : other = collect
    · subst own
      rw [AList.lookup_insert, Option.some_inj] at known
      subst known
      exact ⟨⟨other, [count]⟩, by simp, rfl⟩
    · rw [AList.lookup_insert_ne own] at known
      obtain ⟨g, there, equal⟩ := grouped.known other j known
      have inside := (List.getElem?_eq_some_iff.mp there).1
      exact ⟨g, by rw [List.getElem?_append_left inside, there], equal⟩

theorem group_from_grouped (collects done rest : List (List String))
    (split : collects = done ++ rest) (groups : List DataCollectorGroup)
    (collectGroupMap : AList (fun _ : List String => Nat))
    (grouped : Grouped collects done.length groups collectGroupMap) :
    ∃ final, Grouped collects collects.length
      (groupFrom done.length rest groups collectGroupMap) final := by
  induction rest generalizing done groups collectGroupMap with
  | nil =>
    obtain rfl : collects = done := by simpa using split
    exact ⟨collectGroupMap, grouped⟩
  | cons collect rest ih =>
    have next : collects[done.length]? = some collect := by simp [split]
    have longer : collects = (done ++ [collect]) ++ rest := by simp [split]
    have count : (done ++ [collect]).length = done.length + 1 := by simp
    unfold groupFrom
    cases found : collectGroupMap.lookup collect with
    | some i =>
      have step := grouped_step_known grouped next found
      rw [← count] at step
      have finished := ih (done ++ [collect]) longer _ _ step
      rwa [count] at finished
    | none =>
      have step := grouped_step_new grouped next
      rw [← count] at step
      have finished := ih (done ++ [collect]) longer _ _ step
      rwa [count] at finished

def collectGroups (collects : List (List String)) : List DataCollectorGroup :=
  groupFrom 0 collects [] ∅

theorem data_groups_grouped (collects : List (List String)) :
    ∃ final, Grouped collects collects.length (collectGroups collects) final := by
  apply group_from_grouped collects [] collects rfl
  constructor
  · exact List.Perm.refl _
  · intro g member
    cases member
  · intro collect i found
    simp at found

def DataCollectorGroup.shift (g : DataCollectorGroup) (unitEnd : Nat) : DataCollectorGroup :=
  { g with indices := g.indices.map (· + unitEnd) }

/-- Requests without fields in front, the groups of the others moved behind them. -/
theorem arranged_new {units others : List StatReq} (without : ∀ req ∈ units, req.collect = [])
    (fields : ∀ req ∈ others, req.collect ≠ []) :
    Arranged (units ++ others) units.length
      ((collectGroups (others.map (·.collect))).map (·.shift units.length)) := by
  obtain ⟨final, grouped⟩ := data_groups_grouped (others.map (·.collect))
  have behind : ∀ i, (units ++ others)[i + units.length]? = others[i]? := by
    intro i
    rw [List.getElem?_append_right (Nat.le_add_left ..), Nat.add_sub_cancel]
  constructor
  · have moved : ((collectGroups (others.map (·.collect))).map (·.shift units.length)).flatMap
        (·.indices) = ((collectGroups (others.map (·.collect))).flatMap (·.indices)).map
          (· + units.length) := by
      simp [List.map_flatMap, List.flatMap_map, DataCollectorGroup.shift]
    have all := (grouped.covered.map (· + units.length)).append_left (List.range units.length)
    rw [moved]
    refine all.trans (List.Perm.of_eq ?_)
    rw [List.length_append, List.length_map, List.range_add]
    simp [Nat.add_comm]
  · intro i inside req found
    rw [List.getElem?_append_left inside] at found
    exact without req (List.mem_of_getElem? found)
  · intro g member i indexed req found
    obtain ⟨before, listed, rfl⟩ := List.mem_map.mp member
    obtain ⟨j, inside, rfl⟩ := List.mem_map.mp indexed
    rw [behind] at found
    have collected := (grouped.collect before listed).2 j inside
    rw [List.getElem?_map, found] at collected
    exact Option.some_inj.mp collected
  · intro g member
    obtain ⟨before, listed, rfl⟩ := List.mem_map.mp member
    obtain ⟨req, present, same⟩ := List.mem_map.mp (grouped.collect before listed).1
    have nonempty := fields req present
    rwa [same] at nonempty

namespace MetricCollectors

/-- `f` at every collector, with the unit key in front and the key of its group behind. -/
def forEach (m : MetricCollectors) (f : DatKey → StatCollector → StatCollector)
    (key : List String → DatKey) : List StatCollector :=
  m.dataGroups.foldl (fun items g => atIndices items g.indices (f (key g.collect)))
    (atIndices m.items (List.range m.unitCollectorsEnd) (f .unit))

def keyOf (key : List String → DatKey) (req : StatReq) : DatKey :=
  if req.collect = [] then .unit else key req.collect

theorem at_indices_updates (items : List StatCollector) (indices : List Nat)
    (f : StatCollector → StatCollector) :
    atIndices items indices f =
      (indices.map (fun i => (i, f))).foldl (fun l u => l.modify u.1 u.2) items := by
  rw [atIndices, List.foldl_map]

theorem for_each_items (m : MetricCollectors) (f : DatKey → StatCollector → StatCollector)
    (key : List String → DatKey) :
    m.forEach f key = m.items.map (fun c => f (keyOf key c.require) c) := by
  let updates : List (Nat × (StatCollector → StatCollector)) :=
    (List.range m.unitCollectorsEnd).map (fun i => (i, f .unit)) ++
      m.dataGroups.flatMap (fun g => g.indices.map (fun i => (i, f (key g.collect))))
  have loops : m.forEach f key = updates.foldl (fun l u => l.modify u.1 u.2) m.items := by
    simp only [forEach, updates, List.foldl_append, List.foldl_flatMap, at_indices_updates]
  have positions : updates.map Prod.fst =
      List.range m.unitCollectorsEnd ++ m.dataGroups.flatMap (·.indices) := by
    simp [updates, List.map_flatMap, Function.comp_def]
  have required : ∀ (i : Nat) (c : StatCollector), m.items[i]? = some c →
      (m.items.map (·.require))[i]? = some c.require := by
    intro i c found
    rw [List.getElem?_map, found]
    rfl
  rw [loops]
  apply modify_all
  · rw [positions]
    simpa using m.arranged.covered
  · intro u member c found
    rcases List.mem_append.mp member with front | behind
    · obtain ⟨i, inside, rfl⟩ := List.mem_map.mp front
      have none_collected := m.arranged.unit_collect i (List.mem_range.mp inside) c.require
        (required i c found)
      simp [keyOf, none_collected]
    · obtain ⟨g, group, listed⟩ := List.mem_flatMap.mp behind
      obtain ⟨i, inside, rfl⟩ := List.mem_map.mp listed
      have collected := m.arranged.group_collect g group i inside c.require (required i c found)
      have nonempty := m.arranged.group_nonempty g group
      simp [keyOf, collected, nonempty]

end MetricCollectors

end WarpMotor
