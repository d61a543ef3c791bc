import WarpMotor.Stats.Tally

/-!
Merging reports. The records of both reports meet in a map from the printed
dimension. Two reports that are exact for their calls give one that is exact
for all the calls as long as no two of its dimensions print alike. What a
merge returns has one record for each printed form in any case.
-/
namespace WarpMotor

abbrev DataMap := AList (fun _ : String => StatRecord)

namespace StatReport

/-- `StatReport::req`, the empty report of a request. -/
def ofReq (req : StatReq) : StatReport := ⟨req, none, []⟩

def drainEntry (dataMap : DataMap) (item : StatRecord) : DataMap := dataMap.insert item.itemKey item

def mergeEntry (dataMap : DataMap) (v : StatRecord) : DataMap :=
  match dataMap.lookup v.itemKey with
  | some existing =>
    if existing.canMerge v then dataMap.insert v.itemKey (existing.merge v) else dataMap
  | none => dataMap.insert v.itemKey v

def mergeData (self other : List StatRecord) : DataMap :=
  other.foldl mergeEntry (self.foldl drainEntry ∅)

def merge (rank : Ranking) (self other : StatReport) : StatReport :=
  let dataMap := mergeData self.data other.data
  { self with
    curTarget := other.curTarget
    data := rank.topN (self.req.max * topNMultiplier) (dataMap.entries.map (·.2)) }

end StatReport

/-- Every record stands under its own printed dimension. -/
def OwnKeys (dataMap : DataMap) : Prop := ∀ e ∈ dataMap.entries, e.2.itemKey = e.1

theorem own_keys_insert {dataMap : DataMap} (own : OwnKeys dataMap) {key : String}
    {r : StatRecord} (named : r.itemKey = key) : OwnKeys (dataMap.insert key r) := by
  intro e member
  rw [AList.entries_insert, List.mem_cons] at member
  rcases member with rfl | before
  · exact named
  · exact own e ((List.kerase_sublist _ _).subset before)

theorem own_keys_drain (data : List StatRecord) {dataMap : DataMap} (own : OwnKeys dataMap) :
    OwnKeys (data.foldl StatReport.drainEntry dataMap) := by
  induction data generalizing dataMap with
  | nil => exact own
  | cons r rest ih => exact ih (own_keys_insert own rfl)

theorem own_keys_merge_entry {dataMap : DataMap} (own : OwnKeys dataMap) (v : StatRecord) :
    OwnKeys (StatReport.mergeEntry dataMap v) := by
  unfold StatReport.mergeEntry
  cases found : dataMap.lookup v.itemKey with
  | none => exact own_keys_insert own rfl
  | some existing =>
    have listed := AList.mem_lookup_iff.mp (Option.mem_def.mpr found)
    have named : (existing.merge v).itemKey = v.itemKey := own _ listed
    dsimp only
    split
    · exact own_keys_insert own named
    · exact own

theorem own_keys_merge (data : List StatRecord) {dataMap : DataMap} (own : OwnKeys dataMap) :
    OwnKeys (data.foldl StatReport.mergeEntry dataMap) := by
  induction data generalizing dataMap with
  | nil => exact own
  | cons r rest ih => exact ih (own_keys_merge_entry own r)

theorem own_keys_empty : OwnKeys ∅ := by
  intro e member
  simp at member

/-- A merged report never has two records with one printed dimension. -/
theorem merge_keys_nodup (rank : Ranking) (self other : StatReport) :
    ((self.merge rank other).data.map StatRecord.itemKey).Nodup := by
  have own := own_keys_merge other.data (own_keys_drain self.data own_keys_empty)
  have keys : ((StatReport.mergeData self.data other.data).entries.map (·.2)).map
      StatRecord.itemKey = (StatReport.mergeData self.data other.data).keys := by
    simp only [AList.keys, List.keys, List.map_map]
    exact List.map_congr_left own
  obtain ⟨kept, perm, sub⟩ := rank.topN_subperm (self.req.max * topNMultiplier)
    ((StatReport.mergeData self.data other.data).entries.map (·.2))
  have listed := sub.map StatRecord.itemKey
  rw [keys] at listed
  exact (perm.map StatRecord.itemKey).nodup_iff.mp ((AList.keys_nodup _).sublist listed)

/-- Records under their printed dimensions. -/
def keyed (data : List StatRecord) : List (Sigma fun _ : String => StatRecord) :=
  data.map (fun r => ⟨r.itemKey, r⟩)

@[simp] theorem keyed_cons (r : StatRecord) (rest : List StatRecord) :
    keyed (r :: rest) = ⟨r.itemKey, r⟩ :: keyed rest := rfl

theorem lookup_drain (data : List StatRecord) (dataMap : DataMap)
    (distinct : (keyed data).NodupKeys) (key : String) :
    (data.foldl StatReport.drainEntry dataMap).lookup key =
      ((keyed data).dlookup key).or (dataMap.lookup key) := by
  induction data generalizing dataMap with
  | nil => rfl
  | cons r rest ih =>
    have apart := List.notMem_keys_of_nodupKeys_cons distinct
    rw [List.foldl_cons, ih _ (List.nodupKeys_of_nodupKeys_cons distinct)]
    by_cases own : key = r.itemKey
    · subst own
      have absent : (keyed rest).dlookup r.itemKey = none := List.dlookup_eq_none.mpr apart
      rw [absent, keyed_cons, List.dlookup_cons_eq]
      exact AList.lookup_insert _
    · rw [keyed_cons, List.dlookup_cons_ne _ _ own]
      congr 1
      exact AList.lookup_insert_ne own

/-- What the map holds after a record `v` has met the record `existing`. -/
def combine (existing v : Option StatRecord) : Option StatRecord :=
  match existing, v with
  | some a, some b => if a.canMerge b then some (a.merge b) else some a
  | some a, none => some a
  | none, v => v

theorem lookup_merge_entry (dataMap : DataMap) (v : StatRecord) (key : String) :
    (StatReport.mergeEntry dataMap v).lookup key =
      if key = v.itemKey then combine (dataMap.lookup key) (some v) else dataMap.lookup key := by
  unfold StatReport.mergeEntry
  by_cases own : key = v.itemKey
  · subst own
    rw [if_pos rfl]
    cases found : dataMap.lookup v.itemKey with
    | none => exact AList.lookup_insert _
    | some existing =>
      simp only [combine]
      split
      · exact AList.lookup_insert _
      · exact found
  · rw [if_neg own]
    cases dataMap.lookup v.itemKey with
    | none => exact AList.lookup_insert_ne own
    | some existing =>
      dsimp only
      split
      · exact AList.lookup_insert_ne own
      · rfl

theorem combine_none (existing : Option StatRecord) : combine existing none = existing := by
  cases existing <;> rfl

theorem lookup_merge (data : List StatRecord) (dataMap : DataMap)
    (distinct : (keyed data).NodupKeys) (key : String) :
    (data.foldl StatReport.mergeEntry dataMap).lookup key =
      combine (dataMap.lookup key) ((keyed data).dlookup key) := by
  induction data generalizing dataMap with
  | nil => exact (combine_none _).symm
  | cons v rest ih =>
    have apart := List.notMem_keys_of_nodupKeys_cons distinct
    rw [List.foldl_cons, ih _ (List.nodupKeys_of_nodupKeys_cons distinct), lookup_merge_entry]
    by_cases own : key = v.itemKey
    · subst own
      have absent : (keyed rest).dlookup v.itemKey = none := List.dlookup_eq_none.mpr apart
      rw [if_pos rfl, absent, keyed_cons, List.dlookup_cons_eq, combine_none]
    · rw [if_neg own, keyed_cons, List.dlookup_cons_ne _ _ own]

theorem lookup_merge_data {self other : List StatRecord} (left : (keyed self).NodupKeys)
    (right : (keyed other).NodupKeys) (key : String) :
    (StatReport.mergeData self other).lookup key =
      combine ((keyed self).dlookup key) ((keyed other).dlookup key) := by
  rw [StatReport.mergeData, lookup_merge other _ right, lookup_drain self _ left]
  simp

end WarpMotor
