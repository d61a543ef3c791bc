import Mathlib.Data.Finset.Image
import WarpMotor.Lib.LruRecency
import WarpMotor.Pipe.Field

/-!
The cache of query results. Every value that has been a parameter gets a number
of its own, whatever its type; the results are kept under the numbers of their
parameters. The numbers are never given up, the results are when the cache is
full.
-/
namespace WarpMotor.Oml

open Privacy (IpAddr)

/-- The maps from values to their numbers, one for each type of value; a big number stands for its
    decimal text. A query with up to six parameters is kept under the list of their numbers. -/
structure FieldQueryCache (R : Type*) where
  strIdx : Text → Option Nat
  i64Idx : Int → Option Nat
  ipIdx : IpAddr → Option Nat
  biguintIdx : Nat → Option Nat
  cacheData : LruCache (List Nat) R
  idxNum : Nat

namespace FieldQueryCache
variable {R : Type*}

def withCapacity (size : Nat) : FieldQueryCache R where
  strIdx _ := none
  i64Idx _ := none
  ipIdx _ := none
  biguintIdx _ := none
  cacheData := .empty (max size 1) (by omega)
  idxNum := 0

def getIdx (c : FieldQueryCache R) (param : Pipe.DataField) : Option Nat :=
  match param.value with
  | .chars v => c.strIdx v
  | .int v => c.i64Idx v
  | .ipAddr v => c.ipIdx v
  | .bigUint v => c.biguintIdx v
  | _ => none

/-- The number of a value of a supported type, a new one if it has none. -/
def tryUpIdx (c : FieldQueryCache R) (param : Pipe.DataField) : Option Nat × FieldQueryCache R :=
  match param.value with
  | .chars v =>
    match c.strIdx v with
    | some idx => (some idx, c)
    | none => (some (c.idxNum + 1),
        { c with
          idxNum := c.idxNum + 1
          strIdx := Function.update c.strIdx v (some (c.idxNum + 1)) })
  | .int v =>
    match c.i64Idx v with
    | some idx => (some idx, c)
    | none => (some (c.idxNum + 1),
        { c with
          idxNum := c.idxNum + 1
          i64Idx := Function.update c.i64Idx v (some (c.idxNum + 1)) })
  | .ipAddr v =>
    match c.ipIdx v with
    | some idx => (some idx, c)
    | none => (some (c.idxNum + 1),
        { c with idxNum := c.idxNum + 1, ipIdx := Function.update c.ipIdx v (some (c.idxNum + 1)) })
  | .bigUint v =>
    match c.biguintIdx v with
    | some idx => (some idx, c)
    | none => (some (c.idxNum + 1),
        { c with
          idxNum := c.idxNum + 1
          biguintIdx := Function.update c.biguintIdx v (some (c.idxNum + 1)) })
  | _ => (none, c)

/-- All parameters get their numbers, also when one of them cannot have one. -/
def tryUpAll : List Pipe.DataField → FieldQueryCache R → List (Option Nat) × FieldQueryCache R
  | [], c => ([], c)
  | param :: params, c =>
    let first := c.tryUpIdx param
    let rest := tryUpAll params first.2
    (first.1 :: rest.1, rest.2)

def save (c : FieldQueryCache R) (params : List Pipe.DataField) (result : R) : FieldQueryCache R :=
  let numbered := tryUpAll params c
  match numbered.1.mapM id with
  | some idxs => { numbered.2 with cacheData := numbered.2.cacheData.put (idxs, result) }
  | none => numbered.2

/-- A look does not make an entry recent. -/
def fetch (c : FieldQueryCache R) (params : List Pipe.DataField) : Option R :=
  match params.mapM c.getIdx with
  | some idxs => c.cacheData.lookup idxs
  | none => none

def saves (c : FieldQueryCache R) (entries : List (List Pipe.DataField × R)) : FieldQueryCache R :=
  Runs.run (fun c entry => c.save entry.1 entry.2) c entries

/-- What the cache knows of a parameter: its value and the type of that. -/
inductive QueryKey where
  | chars (v : Text)
  | int (v : Int)
  | ip (v : IpAddr)
  | bigUint (v : Nat)
  deriving DecidableEq

def queryKey (param : Pipe.DataField) : Option QueryKey :=
  match param.value with
  | .chars v => some (.chars v)
  | .int v => some (.int v)
  | .ipAddr v => some (.ip v)
  | .bigUint v => some (.bigUint v)
  | _ => none

/-- The saves that all parameters allow, under the values of these. -/
def supported (entries : List (List Pipe.DataField × R)) : List (List QueryKey × R) :=
  entries.filterMap fun entry => (entry.1.mapM queryKey).map fun keys => (keys, entry.2)

def idxOf (c : FieldQueryCache R) : QueryKey → Option Nat
  | .chars v => c.strIdx v
  | .int v => c.i64Idx v
  | .ip v => c.ipIdx v
  | .bigUint v => c.biguintIdx v

theorem getIdx_eq (c : FieldQueryCache R) (param : Pipe.DataField) :
    c.getIdx param = (queryKey param).bind c.idxOf := by
  unfold getIdx queryKey
  split <;> rfl

/-- No two values have one number, and no number is yet to be given. -/
structure Indexed (c : FieldQueryCache R) : Prop where
  below : ∀ key idx, c.idxOf key = some idx → idx ≤ c.idxNum
  apart : ∀ key other idx, c.idxOf key = some idx → c.idxOf other = some idx → key = other

/-- Values keep their numbers, and the results stay as they are. -/
structure Grown (c d : FieldQueryCache R) : Prop where
  keeps : ∀ key idx, c.idxOf key = some idx → d.idxOf key = some idx
  data : d.cacheData = c.cacheData
  indexed : c.Indexed → d.Indexed

theorem Grown.refl (c : FieldQueryCache R) : c.Grown c :=
  ⟨fun _ _ found => found, rfl, fun indexed => indexed⟩

theorem Grown.trans {b c d : FieldQueryCache R} (first : b.Grown c) (second : c.Grown d) :
    b.Grown d :=
  ⟨fun key idx found => second.keeps key idx (first.keeps key idx found),
    second.data.trans first.data, fun indexed => second.indexed (first.indexed indexed)⟩

/-- A value without a number gets the next one. -/
theorem Grown.assign {c d : FieldQueryCache R} (key : QueryKey) (fresh : c.idxOf key = none)
    (idxOf : ∀ k, d.idxOf k = if k = key then some (c.idxNum + 1) else c.idxOf k)
    (idxNum : d.idxNum = c.idxNum + 1) (data : d.cacheData = c.cacheData) : c.Grown d := by
  refine ⟨?_, data, ?_⟩
  · intro k idx found
    rw [idxOf, if_neg, found]
    rintro rfl
    rw [fresh] at found
    cases found
  · intro indexed
    refine ⟨?_, ?_⟩
    · intro k idx found
      rw [idxOf] at found
      rw [idxNum]
      split at found
      · cases found
        exact Nat.le_refl _
      · have bound := indexed.below k idx found
        omega
    · intro k other idx here there
      rw [idxOf] at here there
      split at here <;> split at there
      · rename_i own same
        rw [own, same]
      · have bound := indexed.below other idx there
        cases here
        omega
      · have bound := indexed.below k idx here
        cases there
        omega
      · exact indexed.apart k other idx here there

/-- A parameter of a supported type has its number afterwards. -/
theorem tryUpIdx_spec (c : FieldQueryCache R) (param : Pipe.DataField) :
    c.Grown (c.tryUpIdx param).2 ∧
      (c.tryUpIdx param).1 = (queryKey param).bind (c.tryUpIdx param).2.idxOf ∧
      ((queryKey param).isSome → (c.tryUpIdx param).1.isSome) := by
  unfold tryUpIdx queryKey
  split
  · rename_i v _
    cases found : c.strIdx v with
    | some idx => exact ⟨.refl c, found.symm, fun _ => rfl⟩
    | none =>
      refine ⟨.assign (.chars v) found ?_ rfl rfl, ?_, fun _ => rfl⟩
      · intro k
        cases k <;> simp [idxOf, Function.update_apply]
      · simp [idxOf]
  · rename_i v _
    cases found : c.i64Idx v with
    | some idx => exact ⟨.refl c, found.symm, fun _ => rfl⟩
    | none =>
      refine ⟨.assign (.int v) found ?_ rfl rfl, ?_, fun _ => rfl⟩
      · intro k
        cases k <;> simp [idxOf, Function.update_apply]
      · simp [idxOf]
  · rename_i v _
    cases found : c.ipIdx v with
    | some idx => exact ⟨.refl c, found.symm, fun _ => rfl⟩
    | none =>
      refine ⟨.assign (.ip v) found ?_ rfl rfl, ?_, fun _ => rfl⟩
      · intro k
        cases k <;> simp [idxOf, Function.update_apply]
      · simp [idxOf]
  · rename_i v _
    cases found : c.biguintIdx v with
    | some idx => exact ⟨.refl c, found.symm, fun _ => rfl⟩
    | none =>
      refine ⟨.assign (.bigUint v) found ?_ rfl rfl, ?_, fun _ => rfl⟩
      · intro k
        cases k <;> simp [idxOf, Function.update_apply]
      · simp [idxOf]
  · exact ⟨.refl c, rfl, fun has_key => by cases has_key⟩

/-- The numbers of values that have one. -/
def indices (c : FieldQueryCache R) (keys : List QueryKey) : List Nat :=
  keys.map fun key => (c.idxOf key).getD 0

def Registered (c : FieldQueryCache R) (keys : List QueryKey) : Prop :=
  ∀ key ∈ keys, (c.idxOf key).isSome

theorem Registered.mapM {c : FieldQueryCache R} {keys : List QueryKey}
    (registered : c.Registered keys) : keys.mapM c.idxOf = some (c.indices keys) := by
  induction keys with
  | nil => rfl
  | cons key rest ih =>
    obtain ⟨idx, found⟩ := Option.isSome_iff_exists.mp (registered key (List.mem_cons_self ..))
    have later := ih fun k member => registered k (List.mem_cons_of_mem key member)
    simp [indices, found, later]

theorem mapM_registered {c : FieldQueryCache R} {keys : List QueryKey} {idxs : List Nat}
    (found : keys.mapM c.idxOf = some idxs) : c.Registered keys := by
  induction keys generalizing idxs with
  | nil => exact fun key member => absurd member List.not_mem_nil
  | cons key rest ih =>
    cases first : c.idxOf key with
    | none => simp [first] at found
    | some idx =>
      cases later : rest.mapM c.idxOf with
      | none => simp [first, later] at found
      | some others =>
        intro k member
        rcases List.mem_cons.mp member with rfl | among
        · rw [first]
          rfl
        · exact ih later k among

/-- Values that keep their numbers keep the numbers of a query. -/
theorem indices_kept {c d : FieldQueryCache R} {keys : List QueryKey}
    (keeps : ∀ key idx, c.idxOf key = some idx → d.idxOf key = some idx)
    (registered : c.Registered keys) : d.indices keys = c.indices keys := by
  apply List.map_congr_left
  intro key member
  obtain ⟨idx, found⟩ := Option.isSome_iff_exists.mp (registered key member)
  rw [found, keeps key idx found]

theorem registered_kept {c d : FieldQueryCache R} {keys : List QueryKey}
    (keeps : ∀ key idx, c.idxOf key = some idx → d.idxOf key = some idx)
    (registered : c.Registered keys) : d.Registered keys := by
  intro key member
  obtain ⟨idx, found⟩ := Option.isSome_iff_exists.mp (registered key member)
  rw [keeps key idx found]
  rfl

/-- Different queries are kept under different numbers. -/
theorem Indexed.indices_inj {c : FieldQueryCache R} (indexed : c.Indexed)
    {keys others : List QueryKey}
    (here : c.Registered keys) (there : c.Registered others)
    (same : c.indices keys = c.indices others) : keys = others := by
  induction keys generalizing others with
  | nil =>
    cases others with
    | nil => rfl
    | cons other rest => simp [indices] at same
  | cons key rest ih =>
    cases others with
    | nil => simp [indices] at same
    | cons other rest' =>
      obtain ⟨idx, found⟩ := Option.isSome_iff_exists.mp (here key (List.mem_cons_self ..))
      obtain ⟨idx', found'⟩ := Option.isSome_iff_exists.mp (there other (List.mem_cons_self ..))
      simp only [indices, List.map_cons, found, found', Option.getD_some, List.cons.injEq] at same
      have own := indexed.apart key other idx found (by rw [found', same.1])
      have later := ih (fun k member => here k (List.mem_cons_of_mem key member))
        (fun k member => there k (List.mem_cons_of_mem other member)) same.2
      rw [own, later]

theorem tryUpAll_spec (params : List Pipe.DataField) (c : FieldQueryCache R) :
    c.Grown (tryUpAll params c).2 ∧
      match params.mapM queryKey with
      | some keys => (tryUpAll params c).2.Registered keys ∧
          (tryUpAll params c).1.mapM id = some ((tryUpAll params c).2.indices keys)
      | none => (tryUpAll params c).1.mapM id = none := by
  induction params generalizing c with
  | nil => exact ⟨.refl c, fun key member => absurd member List.not_mem_nil, rfl⟩
  | cons param rest ih =>
    obtain ⟨grown, first, some_first⟩ := tryUpIdx_spec c param
    obtain ⟨grown', later⟩ := ih (c.tryUpIdx param).2
    refine ⟨grown.trans grown', ?_⟩
    cases known : queryKey param with
    | none =>
      rw [known] at first
      have missing : (c.tryUpIdx param).1 = none := first
      simp [known, tryUpAll, missing]
    | some key =>
      rw [known] at first some_first
      obtain ⟨idx, numbered⟩ := Option.isSome_iff_exists.mp (some_first rfl)
      have found : (c.tryUpIdx param).2.idxOf key = some idx := first.symm.trans numbered
      have kept := grown'.keeps key idx found
      cases others : rest.mapM queryKey with
      | none =>
        rw [others] at later
        have missing : (tryUpAll rest (c.tryUpIdx param).2).1.mapM id = none := later
        simp [known, others, tryUpAll, numbered, missing]
      | some keys =>
        rw [others] at later
        obtain ⟨registered, listed⟩ := later
        have all : (param :: rest).mapM queryKey = some (key :: keys) := by simp [known, others]
        rw [all]
        refine ⟨?_, ?_⟩
        · intro k member
          rcases List.mem_cons.mp member with rfl | among
          · change ((tryUpAll rest (c.tryUpIdx param).2).2.idxOf k).isSome
            rw [kept]
            rfl
          · exact registered k among
        · change ((c.tryUpIdx param).1 :: (tryUpAll rest (c.tryUpIdx param).2).1).mapM id =
            some ((tryUpAll rest (c.tryUpIdx param).2).2.indices (key :: keys))
          simp [numbered, listed, indices, kept]

theorem idxOf_setData (c : FieldQueryCache R) (data : LruCache (List Nat) R) (key : QueryKey) :
    { c with cacheData := data }.idxOf key = c.idxOf key := by
  cases key <;> rfl

/-- What a run of saves comes to. -/
structure Saved (entries : List (List QueryKey × R)) (c d : FieldQueryCache R) : Prop where
  keeps : ∀ key idx, c.idxOf key = some idx → d.idxOf key = some idx
  indexed : c.Indexed → d.Indexed
  registered : ∀ entry ∈ entries, d.Registered entry.1
  data : d.cacheData = c.cacheData.puts (entries.map fun entry => (d.indices entry.1, entry.2))

theorem save_saved (c : FieldQueryCache R) (params : List Pipe.DataField) (result : R) :
    Saved (supported [(params, result)]) c (c.save params result) := by
  obtain ⟨grown, listed⟩ := tryUpAll_spec params c
  cases keys : params.mapM queryKey with
  | none =>
    rw [keys] at listed
    have nothing : supported [(params, result)] = [] := by simp [supported, keys]
    have missing : (tryUpAll params c).1.mapM id = none := listed
    have same : c.save params result = (tryUpAll params c).2 := by
      unfold save
      simp only [missing]
    rw [nothing, same]
    exact ⟨grown.keeps, grown.indexed, fun entry member => absurd member List.not_mem_nil,
      grown.data⟩
  | some found =>
    rw [keys] at listed
    obtain ⟨registered, idxs⟩ := listed
    have one : supported [(params, result)] = [(found, result)] := by simp [supported, keys]
    have same : c.save params result = { (tryUpAll params c).2 with
        cacheData := (tryUpAll params c).2.cacheData.put
          ((tryUpAll params c).2.indices found, result) } := by
      unfold save
      simp only [idxs]
    rw [one, same]
    refine ⟨?_, ?_, ?_, ?_⟩
    · intro key idx numbered
      rw [idxOf_setData]
      exact grown.keeps key idx numbered
    · intro indexed
      have kept := grown.indexed indexed
      refine ⟨?_, ?_⟩
      · intro key idx numbered
        rw [idxOf_setData] at numbered
        exact kept.below key idx numbered
      · intro key other idx here there
        rw [idxOf_setData] at here there
        exact kept.apart key other idx here there
    · intro entry member
      rw [List.mem_singleton.mp member]
      intro key among
      rw [idxOf_setData]
      exact registered key among
    · let after : FieldQueryCache R := { (tryUpAll params c).2 with
        cacheData := (tryUpAll params c).2.cacheData.put
          ((tryUpAll params c).2.indices found, result) }
      have numbers : after.indices found = (tryUpAll params c).2.indices found := by
        apply List.map_congr_left
        intro key _
        exact congrArg (Option.getD · 0) (idxOf_setData _ _ key)
      change (tryUpAll params c).2.cacheData.put _ =
        c.cacheData.puts [(after.indices found, result)]
      rw [numbers, LruCache.puts_cons, LruCache.puts_nil, ← grown.data]

theorem Saved.trans {first second : List (List QueryKey × R)} {b c d : FieldQueryCache R}
    (before : Saved first b c) (after : Saved second c d) : Saved (first ++ second) b d := by
  refine ⟨?_, fun indexed => after.indexed (before.indexed indexed), ?_, ?_⟩
  · exact fun key idx found => after.keeps key idx (before.keeps key idx found)
  · intro entry member
    rcases List.mem_append.mp member with early | late
    · exact registered_kept after.keeps (before.registered entry early)
    · exact after.registered entry late
  · have early : first.map (fun entry => (d.indices entry.1, entry.2)) =
        first.map (fun entry => (c.indices entry.1, entry.2)) := by
      apply List.map_congr_left
      intro entry member
      rw [indices_kept after.keeps (before.registered entry member)]
    rw [List.map_append, early, after.data, before.data]
    unfold LruCache.puts Runs.run
    rw [List.foldl_append]

theorem saves_saved (entries : List (List Pipe.DataField × R)) (c : FieldQueryCache R) :
    Saved (supported entries) c (c.saves entries) := by
  induction entries generalizing c with
  | nil =>
    exact ⟨fun _ _ found => found, id, fun entry member => absurd member List.not_mem_nil, rfl⟩
  | cons entry rest ih =>
    have split : supported (entry :: rest) = supported [entry] ++ supported rest := by
      unfold supported
      rw [← List.filterMap_append]
      rfl
    rw [split]
    exact (save_saved c entry.1 entry.2).trans (ih _)

theorem withCapacity_indexed (size : Nat) : (withCapacity size : FieldQueryCache R).Indexed := by
  have none_yet : ∀ key, (withCapacity size : FieldQueryCache R).idxOf key = none := by
    intro key
    cases key <;> rfl
  refine ⟨?_, ?_⟩
  · intro key idx found
    rw [none_yet] at found
    cases found
  · intro key other idx found
    rw [none_yet] at found
    cases found

theorem mapM_getIdx (c : FieldQueryCache R) (params : List Pipe.DataField) :
    params.mapM c.getIdx = (params.mapM queryKey).bind fun keys => keys.mapM c.idxOf := by
  induction params with
  | nil => rfl
  | cons param rest ih =>
    cases known : queryKey param with
    | none => simp [getIdx_eq, known]
    | some key =>
      cases first : c.idxOf key with
      | none =>
        cases others : rest.mapM queryKey <;> simp [getIdx_eq, known, first, others]
      | some idx =>
        cases others : rest.mapM queryKey with
        | none =>
          rw [others] at ih
          simp [getIdx_eq, known, first, others, ih]
        | some keys =>
          rw [others] at ih
          simp [getIdx_eq, known, first, others, ih]

/-- A query is answered with the result saved last for equal values of its parameters, as long as
    fewer other queries than the capacity have been saved since; a query with a parameter of
    another type, or that was never saved, is not answered. Values of different types never answer
    for one another. -/
theorem fetch_is_last_saved (size : Nat) (entries : List (List Pipe.DataField × R))
    (params : List Pipe.DataField) :
    (∀ before after keys result, params.mapM queryKey = some keys →
      supported entries = before ++ (keys, result) :: after → keys ∉ after.map Prod.fst →
      ((withCapacity size : FieldQueryCache R).saves entries).fetch params =
        if (after.map Prod.fst).toFinset.card < max size 1 then some result else none) ∧
    ((∀ keys, params.mapM queryKey = some keys → keys ∉ (supported entries).map Prod.fst) →
      ((withCapacity size : FieldQueryCache R).saves entries).fetch params = none) := by
  have saved := saves_saved entries (withCapacity size : FieldQueryCache R)
  have indexed := saved.indexed (withCapacity_indexed size)
  have data := saved.data
  generalize (withCapacity size : FieldQueryCache R).saves entries = c at saved indexed data ⊢
  have start : (withCapacity size : FieldQueryCache R).cacheData =
      LruCache.empty (max size 1) (by omega) := rfl
  have distinct : ∀ keys entry, c.Registered keys → entry ∈ supported entries →
      c.indices keys = c.indices entry.1 → keys = entry.1 := fun keys entry here member same =>
    indexed.indices_inj here (saved.registered entry member) same
  rw [start] at data
  constructor
  · intro before after keys result known split last
    have listed : (keys, result) ∈ supported entries := by
      rw [split]
      exact List.mem_append_right _ (List.mem_cons_self ..)
    have later : ∀ entry ∈ after, entry ∈ supported entries := by
      intro entry member
      rw [split]
      exact List.mem_append_right _ (List.mem_cons_of_mem _ member)
    have registered := saved.registered (keys, result) listed
    have absent : c.indices keys ∉
        (after.map fun entry => (c.indices entry.1, entry.2)).map Prod.fst := by
      intro held
      rw [List.map_map, List.mem_map] at held
      obtain ⟨entry, member, same⟩ := held
      have own := distinct keys entry registered (later entry member) same.symm
      exact last (List.mem_map.mpr ⟨entry, member, own.symm⟩)
    have count :
        (((after.map fun entry => (c.indices entry.1, entry.2)).map Prod.fst).toFinset).card =
        (after.map Prod.fst).toFinset.card := by
      have image : ((after.map fun entry => (c.indices entry.1, entry.2)).map Prod.fst).toFinset =
          (after.map Prod.fst).toFinset.image c.indices := by
        ext idxs
        simp
      rw [image]
      apply Finset.card_image_of_injOn
      intro first member second among same
      simp only [Finset.mem_coe, List.mem_toFinset, List.mem_map] at member among
      obtain ⟨entry, here, rfl⟩ := member
      obtain ⟨other, there, rfl⟩ := among
      exact distinct entry.1 other (saved.registered entry (later entry here)) (later other there)
        same
    have found : c.fetch params = c.cacheData.lookup (c.indices keys) := by
      unfold fetch
      rw [mapM_getIdx, known, Option.bind_some, registered.mapM]
    rw [found, data, split, List.map_append, List.map_cons,
      LruCache.lookup_puts (max size 1) _ _ _ (c.indices keys, result) absent, count]
  · intro never
    unfold fetch
    rw [mapM_getIdx]
    cases known : params.mapM queryKey with
    | none => rfl
    | some keys =>
      rw [Option.bind_some]
      cases numbered : keys.mapM c.idxOf with
      | none => rfl
      | some idxs =>
        have registered := mapM_registered numbered
        have same := registered.mapM
        rw [numbered] at same
        cases same
        change c.cacheData.lookup (c.indices keys) = none
        rw [data]
        apply LruCache.lookup_puts_none
        intro held
        rw [List.map_map, List.mem_map] at held
        obtain ⟨entry, member, equal⟩ := held
        have own := distinct keys entry registered member equal.symm
        exact never keys known (List.mem_map.mpr ⟨entry, member, own.symm⟩)

end FieldQueryCache

end WarpMotor.Oml
